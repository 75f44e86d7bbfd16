import Mathlib.Data.List.DropRight
import PackageRisk.Inspection.Host
import PackageRisk.Inspection.Options
import PackageRisk.Proofs.Files.Names
import PackageRisk.Proofs.Text.Parts

/-!
# Trust in a host

A web address consists of a scheme, user information, a host, a number and the rest. Whatever the
other parts are, the host that is read off it is the one it is made of, and trust compares that
host with the trusted domains label by label. So an address gains no trust by a trusted domain in
any other part of it, nor by one that ends in the middle of a label.
-/

namespace PackageRisk

/-! ## Labels -/

/-- The labels of a host are the parts between its dots, empty ones included. -/
def hostLabels (host : String) : List (List Char) :=
  host.toList.splitOn '.'

/-- A host is a domain or lies below it when its labels end with those of the domain. -/
theorem isWithinDomain_iff {host domain : List Char} :
    isWithinDomain host domain = true ↔ domain.splitOn '.' <:+ host.splitOn '.' := by
  rw [isWithinDomain, Bool.or_eq_true, beq_iff_eq, List.isSuffixOf_iff_suffix]
  constructor
  · rintro (rfl | ⟨below, rfl⟩)
    · exact List.suffix_rfl
    · rw [List.splitOn_append_cons_self]
      exact List.suffix_append _ _
  · rintro ⟨below, labels⟩
    have joined := congrArg (List.intercalate ['.']) labels
    rw [List.intercalate_splitOn] at joined
    by_cases whole : below = []
    · left
      rw [← joined, whole, List.nil_append, List.intercalate_splitOn]
    · right
      rw [← joined, intercalate_append whole (List.splitOn_ne_nil _ _), List.intercalate_splitOn,
        List.append_assoc]
      exact List.suffix_append _ _

/-- A host is trusted when its labels end with those of a trusted domain. -/
theorem isTrustedHost_iff {host : String} {trusted : List String} :
    isTrustedHost host trusted = true ↔
      ∃ domain ∈ trusted, Text.trim domain ≠ "" ∧
        hostLabels (Text.lower (Text.trim domain)) <:+ hostLabels host := by
  have blank (s : String) : (Text.lower s).toList.isEmpty = true ↔ s = "" := by
    simp [Text.lower]
  simp only [isTrustedHost, List.any_eq_true, Bool.and_eq_true, Bool.not_eq_true',
    isWithinDomain_iff, hostLabels, ← Bool.not_eq_true, blank, ne_eq]

/-! ## Addresses -/

/-- A web address in its parts. -/
structure WebAddress where
  secure : Bool := true
  userInfo : Option (List Char) := none
  host : List Char
  port : Option (List Char) := none
  tail : List Char := []
  userInfo_plain : ∀ info ∈ userInfo, ∀ c ∈ info, c ∉ ['/', '?', '#'] := by simp
  host_plain : ∀ c ∈ host, c ∉ ['/', '?', '#', '@', ':']
  host_named : ∃ c ∈ host, c ≠ '.'
  port_plain : ∀ number ∈ port, ∀ c ∈ number, c ∉ ['/', '?', '#', '@'] := by simp
  tail_begins : ∀ c ∈ tail.head?, c ∈ ['/', '?', '#'] := by simp

namespace WebAddress

/-- The host with its number, if there is one. -/
def hostAndPort (a : WebAddress) : List Char :=
  a.host ++ a.port.elim [] (':' :: ·)

/-- What stands between the scheme and the rest. -/
def authority (a : WebAddress) : List Char :=
  a.userInfo.elim [] (· ++ ['@']) ++ a.hostAndPort

/-- The written address. -/
def text (a : WebAddress) : List Char :=
  (if a.secure then "https://" else "http://").toList ++ a.authority ++ a.tail

/-- The host in lower case, dots at the end left out. -/
def hostName (a : WebAddress) : String :=
  String.ofList ((a.host.rdropWhile (· == '.')).map Char.toLower)

variable (a : WebAddress)

theorem endsAuthority_iff {c : Char} : endsAuthority c = true ↔ c ∈ ['/', '?', '#'] := by
  simp [endsAuthority, or_assoc]

theorem afterScheme?_text : afterScheme? a.text = some (a.authority ++ a.tail) := by
  rw [afterScheme?, text, List.append_assoc]
  cases a.secure with
  | true => rw [if_pos rfl, Text.dropLeading?_append]
  | false =>
    rw [if_neg (by decide), Text.dropLeading?_append]
    rfl

theorem plain_of_mem_hostAndPort {c : Char} (mem : c ∈ a.hostAndPort) :
    c ∉ ['/', '?', '#', '@'] := by
  rcases List.mem_append.mp mem with mem | mem
  · have plain := a.host_plain c mem
    simp_all
  · cases port : a.port with
    | none => simp [port] at mem
    | some number =>
      rw [port, Option.elim_some, List.mem_cons] at mem
      rcases mem with rfl | mem
      · decide
      · exact a.port_plain number port c mem

theorem plain_of_mem_authority {c : Char} (mem : c ∈ a.authority) : c ∉ ['/', '?', '#'] := by
  rcases List.mem_append.mp mem with mem | mem
  · cases info : a.userInfo with
    | none => simp [info] at mem
    | some text =>
      rw [info, Option.elim_some, List.mem_append, List.mem_singleton] at mem
      rcases mem with mem | rfl
      · exact a.userInfo_plain text info c mem
      · decide
  · have plain := a.plain_of_mem_hostAndPort mem
    simp_all

/-- The authority ends where the rest begins. -/
theorem beforeFirst_authority :
    Text.beforeFirst endsAuthority (a.authority ++ a.tail) = a.authority := by
  rw [Text.beforeFirst_append, Text.beforeFirst_of_head, List.append_nil]
  · exact fun c first => endsAuthority_iff.mpr (a.tail_begins c first)
  · intro c mem
    rw [← Bool.not_eq_true, endsAuthority_iff]
    exact a.plain_of_mem_authority mem

/-- User information may have the separator in it, but what follows it has not. -/
theorem afterLast_authority :
    Text.afterLast (· == '@') a.authority = a.hostAndPort := by
  have none : ∀ c ∈ a.hostAndPort, (c == '@') = false := by
    intro c mem
    have plain := a.plain_of_mem_hostAndPort mem
    simp_all
  cases info : a.userInfo with
  | none =>
    rw [authority, info, Option.elim_none, List.nil_append, Text.afterLast_eq_self none]
  | some text =>
    rw [authority, info, Option.elim_some, List.append_assoc]
    exact Text.afterLast_append_cons rfl none text

theorem beforeFirst_hostAndPort :
    Text.beforeFirst (· == ':') a.hostAndPort = a.host := by
  rw [hostAndPort, Text.beforeFirst_append, Text.beforeFirst_of_head, List.append_nil]
  · cases a.port <;> simp
  · intro c mem
    have plain := a.host_plain c mem
    simp_all

/-- The host that is read off an address is the one it is made of. -/
theorem urlHost?_text : urlHost? a.text = some a.hostName := by
  have rest : hostOfRest (a.authority ++ a.tail) =
      (a.host.rdropWhile (· == '.')).map Char.toLower := by
    rw [hostOfRest, beforeFirst_authority, afterLast_authority, beforeFirst_hostAndPort]
    rfl
  have named : (a.host.rdropWhile (· == '.')).map Char.toLower ≠ [] := by
    rw [ne_eq, List.map_eq_nil_iff, List.rdropWhile_eq_nil_iff]
    obtain ⟨c, mem, other⟩ := a.host_named
    exact fun dots => other (by simpa using dots c mem)
  rw [urlHost?, afterScheme?_text]
  dsimp only
  rw [rest, hostName]
  split
  · rename_i empty
    exact absurd empty named
  · rfl

end WebAddress

/-- Trust in an address is decided by its host alone. Whatever the scheme, the user information, the
number and the rest are, the host in lower case and without dots at its end is what is read off the
address, and it is trusted exactly when its labels end with those of a trusted domain that is not
blank. -/
theorem trust_by_host (a : WebAddress) :
    urlHost? a.text = some a.hostName ∧
      ∀ trusted, isTrustedHost a.hostName trusted = true ↔
        ∃ domain ∈ trusted, Text.trim domain ≠ "" ∧
          hostLabels (Text.lower (Text.trim domain)) <:+ hostLabels a.hostName :=
  ⟨a.urlHost?_text, fun _ => isTrustedHost_iff⟩

/-- An address that has a trusted domain in every part, but whose host does not end with it. -/
def WebAddress.sample : WebAddress where
  userInfo := some "github.com:80@github.com".toList
  host := "GitHub.com.Evil.".toList
  port := some "github.com".toList
  tail := "/github.com?@github.com".toList
  userInfo_plain := by simp
  host_plain := by simp
  host_named := by simp
  port_plain := by simp
  tail_begins := by simp

/-- The sample is trusted for the end of its host only. -/
theorem trust_by_host_sample :
    WebAddress.sample.text =
      "https://github.com:80@github.com@GitHub.com.Evil.:github.com/github.com?@github.com".toList ∧
    urlHost? WebAddress.sample.text = some "github.com.evil" ∧
    isTrustedHost "github.com.evil" ["github.com"] = false ∧
    isTrustedHost "github.com.evil" ["github.com", " EVIL "] = true := by
  have name : WebAddress.sample.hostName = "github.com.evil" := by decide
  obtain ⟨host, trusted⟩ := trust_by_host .sample
  rw [name] at host trusted
  refine ⟨by decide, host, ?_, ?_⟩
  · rw [← Bool.not_eq_true, trusted]
    decide +kernel
  · rw [trusted]
    decide +kernel

end PackageRisk
