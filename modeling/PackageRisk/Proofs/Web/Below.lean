import PackageRisk.Proofs.Text.Parts
import PackageRisk.Web.Url

/-!
# Addresses below a root

What an address becomes when more text follows its last slash. Scheme and authority stay what they
are; the text decides on query and fragment, and its last segment is the last one of the path.
-/

namespace PackageRisk.Url

open Text

variable {scheme : String} {root url : Url} {s x y : List Char}

/-- A character that is not dropped within an address. -/
def isKept (c : Char) : Bool :=
  c != '\t' && c != '\n' && c != '\r'

/-- A text at the end of an address as it is read. -/
def clean (x : List Char) : List Char :=
  (dropTrailing isControlOrSpace x).filter isKept

/-- An address as it is read. -/
def trimmed (s : List Char) : List Char :=
  clean (s.dropWhile isControlOrSpace)

theorem trimmed_below (base x : List Char) :
    trimmed (base ++ '/' :: x) =
      (base.dropWhile isControlOrSpace).filter isKept ++ '/' :: clean x := by
  rw [trimmed, clean, dropWhile_append_cons (by decide), dropTrailing_append_cons (by decide),
    List.filter_append, List.filter_cons_of_pos (by decide)]
  rfl

/-- A character that ends the authority. -/
def endsAuthority (c : Char) : Bool :=
  isSlash c || c == '?' || c == '#'

/-- The text up to the fragment. -/
def beforeFragment (s : List Char) : List Char :=
  beforeFirst (· == '#') s

/-- The text up to the query or the fragment. -/
def pathPart (s : List Char) : List Char :=
  beforeFirst (· == '?') (beforeFragment s)

/-- The query of a text, with its question mark. -/
def queryPart (s : List Char) : List Char :=
  (beforeFragment s).drop (pathPart s).length

/-- The fragment of a text, with its number sign. -/
def fragmentPart (s : List Char) : List Char :=
  s.drop (beforeFragment s).length

/-- A part of an address behind its first character, if it is there. -/
def written (reserved : String) (part : List Char) : Option String :=
  if part.isEmpty then none else some (String.ofList (encodeWith reserved (part.drop 1)))

/-- The address with an authority and what follows it. -/
def withTail (scheme authority : String) (s : List Char) : Url where
  scheme := scheme
  authority := authority
  path := normalizePath (pathPart s)
  query := written queryReserved (queryPart s)
  fragment := written fragmentReserved (fragmentPart s)

/-- The address that a text after the slashes behind its scheme denotes. -/
def located? (scheme : String) (s : List Char) : Option Url :=
  let authority := beforeFirst endsAuthority s
  (authority? scheme authority).map fun host => withTail scheme host (s.drop authority.length)

/-- An address is read by its scheme and by what follows it. -/
theorem parse_eq_ok_iff {text : String} :
    parse text = .ok url ↔ ∃ scheme rest, scheme? (trimmed text.toList) = some (scheme, rest) ∧
      (scheme = "http" ∨ scheme = "https") ∧ located? scheme (rest.dropWhile isSlash) = some url := by
  have read : (dropTrailing isControlOrSpace (text.toList.dropWhile isControlOrSpace)).filter
      (fun c => c != '\t' && c != '\n' && c != '\r') = trimmed text.toList := rfl
  have ends : (fun c => isSlash c || c == '?' || c == '#') = endsAuthority := rfl
  simp only [parse, read, ends]
  cases named : scheme? (trimmed text.toList) with
  | none => simp
  | some found =>
    obtain ⟨scheme, rest⟩ := found
    have only : (∃ scheme' rest', some (scheme, rest) = some (scheme', rest') ∧
        (scheme' = "http" ∨ scheme' = "https") ∧
          located? scheme' (rest'.dropWhile isSlash) = some url) ↔
        (scheme = "http" ∨ scheme = "https") ∧
          located? scheme (rest.dropWhile isSlash) = some url := by
      constructor
      · rintro ⟨_, _, same, opened⟩
        cases same
        exact opened
      · exact fun opened => ⟨scheme, rest, rfl, opened⟩
    rw [only]
    dsimp only
    by_cases web : scheme = "http" ∨ scheme = "https"
    · rw [if_pos web, and_iff_right web, located?]
      cases authority? scheme (beforeFirst endsAuthority (rest.dropWhile isSlash)) with
      | none => simp
      | some host => simp [withTail, pathPart, queryPart, fragmentPart, beforeFragment, written]
    · rw [if_neg web]
      refine iff_of_false (fun opened => ?_) fun opened => web opened.1
      split at opened <;> cases opened

/-- The scheme stands before the last slash of a root, so nothing after it matters. -/
theorem scheme?_below {rest : List Char} (found : scheme? (s ++ ['/']) = some (scheme, rest)) :
    ∃ r, rest = r ++ ['/'] ∧ ∀ y, scheme? (s ++ '/' :: y) = some (scheme, r ++ '/' :: y) := by
  have name (y : List Char) : (s ++ '/' :: y).takeWhile (fun c =>
      c.isAlphanum || c == '+' || c == '-' || c == '.') =
        s.takeWhile fun c => c.isAlphanum || c == '+' || c == '-' || c == '.' :=
    takeWhile_append_cons (by decide) s y
  have short := (List.takeWhile_prefix (l := s) fun c =>
    c.isAlphanum || c == '+' || c == '-' || c == '.').length_le
  simp only [scheme?, name, List.drop_append_of_le_length short] at found ⊢
  generalize s.takeWhile _ = name at found ⊢
  cases name with
  | nil => simp at found
  | cons c more =>
    cases behind : s.drop (c :: more).length with
    | nil =>
      rw [behind] at found
      simp at found
    | cons d r =>
      rw [behind] at found
      by_cases colon : d = ':'
      · subst colon
        simp only [List.cons_append] at found ⊢
        split at found
        · rename_i letter
          simp only [Option.some.injEq, Prod.mk.injEq] at found
          obtain ⟨rfl, rfl⟩ := found
          exact ⟨r, rfl, fun y => if_pos letter⟩
        · cases found
      · simp [colon] at found

theorem written_eq_none_iff {reserved : String} {part : List Char} :
    written reserved part = none ↔ part = [] := by
  rw [written, ← List.isEmpty_iff]
  split <;> simp_all

theorem queryPart_eq_nil_iff : queryPart s = [] ↔ '?' ∉ beforeFragment s := by
  rw [queryPart, pathPart, drop_beforeFirst_eq_nil_iff]
  simp only [beq_eq_false_iff_ne, List.forall_mem_ne']

theorem fragmentPart_eq_nil_iff : fragmentPart s = [] ↔ '#' ∉ s := by
  rw [fragmentPart, beforeFragment, drop_beforeFirst_eq_nil_iff]
  simp only [beq_eq_false_iff_ne, List.forall_mem_ne']

section Parts

variable {p : List Char} (unfragmented : '#' ∉ p) (unqueried : '?' ∉ p)

include unfragmented

theorem beforeFragment_below (y : List Char) :
    beforeFragment (p ++ '/' :: y) = p ++ '/' :: beforeFragment y :=
  beforeFirst_append_cons (fun _ mem => beq_eq_false_iff_ne.mpr (ne_of_mem_of_not_mem mem
    unfragmented)) rfl y

theorem fragmentPart_below (y : List Char) : fragmentPart (p ++ '/' :: y) = fragmentPart y := by
  rw [fragmentPart, beforeFragment_below unfragmented, List.length_append,
    List.drop_length_add_append]
  rfl

include unqueried

theorem pathPart_below (y : List Char) : pathPart (p ++ '/' :: y) = p ++ '/' :: pathPart y := by
  rw [pathPart, beforeFragment_below unfragmented]
  exact beforeFirst_append_cons (fun _ mem => beq_eq_false_iff_ne.mpr (ne_of_mem_of_not_mem mem
    unqueried)) rfl _

theorem queryPart_below (y : List Char) : queryPart (p ++ '/' :: y) = queryPart y := by
  rw [queryPart, pathPart_below unfragmented unqueried, beforeFragment_below unfragmented,
    List.length_append, List.drop_length_add_append]
  rfl

end Parts

/-- An authority that is followed by a slash is the same whatever comes after it. -/
theorem located?_below (found : located? scheme (s ++ ['/']) = some root)
    (query : root.query = none) (fragment : root.fragment = none) :
    ∃ p, (∀ c ∈ p.head?, isSlash c = true) ∧ '#' ∉ p ∧ '?' ∉ p ∧
      ∀ y, located? scheme (s ++ '/' :: y) =
        some (withTail root.scheme root.authority (p ++ '/' :: y)) := by
  have authority (y : List Char) :
      beforeFirst endsAuthority (s ++ '/' :: y) = beforeFirst endsAuthority s :=
    takeWhile_append_cons (by decide) s y
  have short : (beforeFirst endsAuthority s).length ≤ s.length :=
    (List.takeWhile_prefix _).length_le
  have first : ∀ c ∈ (s.drop (beforeFirst endsAuthority s).length).head?, endsAuthority c = true :=
    fun _ => separates_of_head?_drop_beforeFirst
  simp only [located?, authority, List.drop_append_of_le_length short] at found ⊢
  obtain ⟨host, hosted, rfl⟩ := Option.map_eq_some_iff.mp found
  generalize s.drop _ = p at found query fragment first ⊢
  have unfragmented : '#' ∉ p := by
    have none := fragmentPart_eq_nil_iff.mp (written_eq_none_iff.mp fragment)
    exact fun mem => none (List.mem_append_left _ mem)
  have unqueried : '?' ∉ p := by
    have none := queryPart_eq_nil_iff.mp (written_eq_none_iff.mp query)
    rw [beforeFragment_below unfragmented] at none
    exact fun mem => none (List.mem_append_left _ mem)
  refine ⟨p, fun c mem => ?_, unfragmented, unqueried, fun y => by rw [hosted]; rfl⟩
  have ends := first c mem
  have member := List.mem_of_mem_head? mem
  have other : c ≠ '#' ∧ c ≠ '?' :=
    ⟨ne_of_mem_of_not_mem member unfragmented, ne_of_mem_of_not_mem member unqueried⟩
  simpa [endsAuthority, other] using ends

/-- What follows the last slash of the path. -/
def lastSegment (u : Url) : List Char :=
  afterLast (· == '/') u.path.toList

/-- What becomes of a segment at the end of a path: one that stands for a directory is empty. -/
def settled (segment : List Char) : List Char :=
  if isDoubleDot segment || isSingleDot segment then [] else segment

theorem getLast?_resolveSegments {segment : List Char} {segments : List (List Char)}
    (last : segments.getLast? = some segment) (sofar : List (List Char)) :
    (resolveSegments sofar segments).getLast? = some (settled segment) := by
  induction segments generalizing sofar with
  | nil => cases last
  | cons first rest ih =>
    rw [resolveSegments]
    cases rest with
    | nil =>
      obtain rfl : first = segment := by simpa using last
      rw [resolveSegments, List.getLast?_reverse, settled]
      cases isDoubleDot first <;> cases isSingleDot first <;> rfl
    | cons second rest => exact ih (by simpa using last) _

theorem slash_not_mem_percentEncode (c : Char) : '/' ∉ percentEncode c := by
  have digit : ∀ n < 16, Text.upperHexDigit n ≠ '/' := by decide
  intro mem
  obtain ⟨byte, -, mem⟩ := List.mem_flatMap.mp mem
  have small : byte.toNat < 256 := byte.toNat_lt
  simp only [List.mem_cons, List.not_mem_nil, or_false] at mem
  rcases mem with percent | high | low
  · exact absurd percent (by decide)
  · exact digit (byte.toNat / 16) (by omega) high.symm
  · exact digit (byte.toNat % 16) (by omega) low.symm

theorem slash_not_mem_encodeWith {reserved : String} (none : '/' ∉ s) :
    '/' ∉ encodeWith reserved s := by
  intro mem
  obtain ⟨c, given, mem⟩ := List.mem_flatMap.mp mem
  split at mem
  · exact slash_not_mem_percentEncode c mem
  · exact none (List.mem_singleton.mp mem ▸ given)

/-- The last segment of a path is what follows the last slash in the text of the path, encoded,
or nothing if it stands for a directory. -/
theorem afterLast_normalizePath {p : List Char} (slash : ∀ c ∈ p.head?, isSlash c = true)
    (q : List Char) : afterLast (· == '/') (normalizePath (p ++ '/' :: q)).toList =
      encodeWith pathReserved (settled (afterLast isSlash q)) := by
  have leads : ((p ++ '/' :: q).head?).any isSlash = true := by
    cases p with
    | nil => rfl
    | cons c p => exact slash c rfl
  have last : afterLast isSlash ((p ++ '/' :: q).drop 1) = afterLast isSlash q := by
    cases p with
    | nil => rfl
    | cons c p => exact afterLast_append_of_separates (by decide) p q
  have resolved := getLast?_resolveSegments
    ((getLast?_splitAt isSlash ((p ++ '/' :: q).drop 1)).trans (congrArg some last)) []
  obtain ⟨init, segments⟩ := List.getLast?_eq_some_iff.mp resolved
  have unslashed : '/' ∉ settled (afterLast isSlash q) := by
    intro mem
    rw [settled] at mem
    split at mem
    · exact List.not_mem_nil mem
    · exact absurd (separates_of_mem_afterLast mem) (by decide)
  rw [normalizePath, if_pos leads, segments, String.toList_ofList, List.flatMap_append,
    List.flatMap_singleton, afterLast_append_of_separates (by decide), afterLast_eq_self]
  intro c mem
  exact beq_eq_false_iff_ne.mpr (ne_of_mem_of_not_mem mem (slash_not_mem_encodeWith unslashed))

/-- A root without query and fragment. -/
structure IsRoot (base : List Char) (root : Url) : Prop where
  parsed : parse (String.ofList (base ++ ['/'])) = .ok root
  query : root.query = none
  fragment : root.fragment = none

theorem located?_nil (scheme : String) : located? scheme [] = none :=
  rfl

/-- An address below a root has its scheme and its authority. What follows the slash is at the end
of the path, as far as it is not a query or a fragment. -/
theorem IsRoot.parse_below {base : List Char} (h : IsRoot base root) :
    ∃ p, (∀ c ∈ p.head?, isSlash c = true) ∧ ∀ x,
      parse (String.ofList (base ++ '/' :: x)) = .ok
        { root with
          path := normalizePath (p ++ '/' :: pathPart (clean x))
          query := written queryReserved (queryPart (clean x))
          fragment := written fragmentReserved (fragmentPart (clean x)) } := by
  obtain ⟨scheme, rest, named, web, found⟩ := parse_eq_ok_iff.mp h.parsed
  rw [String.toList_ofList, trimmed_below] at named
  obtain ⟨r, rfl, names⟩ := scheme?_below named
  -- A root has a host, so not everything behind its scheme is slashes.
  have hosted : r.dropWhile isSlash ≠ [] := by
    intro slashes
    rw [List.dropWhile_append, slashes] at found
    exact absurd ((located?_nil scheme).symm.trans found) (by simp)
  have stripped (y : List Char) :
      (r ++ '/' :: y).dropWhile isSlash = r.dropWhile isSlash ++ '/' :: y := by
    rw [List.dropWhile_append, if_neg (by simpa using hosted)]
  rw [stripped] at found
  obtain ⟨p, slash, unfragmented, unqueried, locates⟩ := located?_below found h.query h.fragment
  refine ⟨p, slash, fun x => parse_eq_ok_iff.mpr
    ⟨scheme, _, (congrArg scheme? ?_).trans (names (clean x)), web, ?_⟩⟩
  · rw [String.toList_ofList, trimmed_below]
  · rw [stripped, locates, withTail, pathPart_below unfragmented unqueried,
      queryPart_below unfragmented unqueried, fragmentPart_below unfragmented]

/-- What a text below a root comes to: it is the last segment of the path, as far as it is after
its last slash and neither a query nor a fragment. -/
theorem IsRoot.exists_below {base : List Char} (h : IsRoot base root) (x : List Char) :
    ∃ url, parse (String.ofList (base ++ '/' :: x)) = .ok url ∧
      url.lastSegment =
        encodeWith pathReserved (settled (afterLast isSlash (pathPart (clean x)))) ∧
      (url.fragment = none ↔ '#' ∉ clean x) ∧
      (url.query = none ↔ '?' ∉ beforeFragment (clean x)) := by
  obtain ⟨p, slash, parsed⟩ := h.parse_below
  refine ⟨_, parsed x, afterLast_normalizePath slash _, ?_, ?_⟩
  · exact written_eq_none_iff.trans fragmentPart_eq_nil_iff
  · exact written_eq_none_iff.trans queryPart_eq_nil_iff

end PackageRisk.Url
