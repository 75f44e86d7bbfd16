import PackageRisk.Inspection.Inspector
import PackageRisk.Proofs.Pattern.Lines
import PackageRisk.Proofs.Text.Utf8

/-!
# Lines around a text

What is found in a text is found in every text that has it among its lines. Rules and checks of
permissions ask for one occurrence of a pattern, and that one does not go away. Which host is
reported depends on all web addresses of a text, but an address ends with its line, so the addresses
of the lines are among those of the whole.
-/

namespace PackageRisk

/-- A text with lines before it and after it, if there are any. -/
def padText (before after : Option (List Char)) (content : List Char) : List Char :=
  before.elim [] (· ++ ['\n']) ++ content ++ after.elim [] ('\n' :: ·)

/-- Bytes with lines before them and after them, if there are any. -/
def padBytes (before after : Option ByteArray) (content : ByteArray) : ByteArray :=
  let begun := before.elim content fun lines => lines ++ Utf8.lineFeed ++ content
  after.elim begun fun lines => begun ++ Utf8.lineFeed ++ lines

/-- Bytes are padded with the text of their lines. -/
theorem decodeLossy_padBytes (before after : Option ByteArray) (content : ByteArray) :
    Utf8.decodeLossy (padBytes before after content) =
      padText (before.map Utf8.decodeLossy) (after.map Utf8.decodeLossy)
        (Utf8.decodeLossy content) := by
  cases before <;> cases after <;> simp [padBytes, padText, Utf8.decodeLossy_append_line]

section Text

variable (before after : Option (List Char)) {content : List Char}

/-- A search that succeeds in a text succeeds among other lines. -/
theorem Search.occursIn_padText {s : Search} (occurs : s.occursIn content = true) :
    s.occursIn (padText before after content) = true := by
  refine Search.occursIn_surrounded (Cursor.Bounded.quiet ⟨?_, ?_⟩) occurs
  · cases before with
    | none => exact .inl rfl
    | some lines => exact .inr ⟨lines.reverse, by simp⟩
  · cases after with
    | none => exact .inl rfl
    | some lines => exact .inr ⟨lines, rfl⟩

theorem Rule.fire?_padText {rule : Rule} (fires : (rule.fire? content).isSome = true) :
    (rule.fire? (padText before after content)).isSome = true := by
  rw [Rule.fire?, Option.isSome_map] at fires ⊢
  exact Search.occursIn_padText before after fires

theorem FilePermissions.areDangerous_padText (dangerous : areDangerous content = true) :
    areDangerous (padText before after content) = true := by
  obtain ⟨search, listed, occurs⟩ := List.any_eq_true.mp dangerous
  exact List.any_eq_true.mpr ⟨search, listed, Search.occursIn_padText before after occurs⟩

/-! ## Network issues -/

namespace NetworkUse

/-- The hosts of the web addresses in a text. -/
def hosts (content : List Char) : List String :=
  (urlLiteral.all content).filterMap fun o => urlHost? o.text

/-- Web addresses are found line by line. -/
theorem hosts_append_line (first rest : List Char) :
    hosts (first ++ '\n' :: rest) = hosts first ++ hosts rest := by
  have texts := Search.all_append_line urlLiteral (by decide) (by decide) first rest
  simp only [hosts, texts, List.filterMap_append, List.filterMap_map, Function.comp_def,
    Occurrence.text_within]

theorem hosts_subset_padText : hosts content ⊆ hosts (padText before after content) := by
  cases before <;> cases after <;> simp [padText, hosts_append_line]

theorem untrustedHost?_padText {trusted : List String}
    (found : (untrustedHost? trusted content).isSome = true) :
    (untrustedHost? trusted (padText before after content)).isSome = true := by
  rw [untrustedHost?, List.find?_isSome] at found ⊢
  obtain ⟨host, mem, untrusted⟩ := found
  exact ⟨host, hosts_subset_padText before after mem, untrusted⟩

end NetworkUse

/-- Two issues are of the same kind; the hosts may differ. -/
def NetworkIssue.SameKind : NetworkIssue → NetworkIssue → Prop
  | suspiciousUrl _, suspiciousUrl _ => True
  | socketConnection, socketConnection => True
  | envExfiltration, envExfiltration => True
  | _, _ => False

namespace NetworkUse

theorem mem_issues {trusted : List String} {issue : NetworkIssue} :
    issue ∈ issues trusted content ↔
      match issue with
      | .suspiciousUrl host => untrustedHost? trusted content = some host
      | .socketConnection => socketConstruction.occursIn content = true
      | .envExfiltration =>
        envAccess.occursIn content = true ∧ networkPrimitive.occursIn content = true := by
  cases issue <;> simp [issues]

theorem exists_issue_padText {trusted : List String} {issue : NetworkIssue}
    (found : issue ∈ issues trusted content) :
    ∃ other ∈ issues trusted (padText before after content), other.SameKind issue := by
  rw [mem_issues] at found
  cases issue with
  | suspiciousUrl host =>
    have still := untrustedHost?_padText before after (Option.isSome_iff_exists.mpr ⟨host, found⟩)
    obtain ⟨other, still⟩ := Option.isSome_iff_exists.mp still
    exact ⟨.suspiciousUrl other, mem_issues.mpr still, trivial⟩
  | socketConnection =>
    exact ⟨.socketConnection, mem_issues.mpr (Search.occursIn_padText before after found), trivial⟩
  | envExfiltration =>
    obtain ⟨reads, talks⟩ := found
    exact ⟨.envExfiltration, mem_issues.mpr ⟨Search.occursIn_padText before after reads,
      Search.occursIn_padText before after talks⟩, trivial⟩

end NetworkUse

end Text

/-! ## Files -/

/-- Leaving out all but the first of each key loses no key. -/
theorem mem_map_firstOfEach {α κ : Type} [DecidableEq κ] (key : α → κ) (l : List α) (k : κ) :
    k ∈ (firstOfEach key l).map key ↔ k ∈ l.map key := by
  induction l with
  | nil => rfl
  | cons a l ih =>
    rw [firstOfEach, List.map_cons, List.mem_cons, List.map_cons, List.mem_cons, ← ih]
    refine or_congr_right' fun new => ?_
    simp only [List.mem_map, List.mem_filter, decide_eq_true_eq]
    constructor
    · rintro ⟨b, ⟨mem, -⟩, rfl⟩
      exact ⟨b, mem, rfl⟩
    · rintro ⟨b, mem, rfl⟩
      exact ⟨b, ⟨mem, new⟩, rfl⟩

/-- The categories of the rules that fire. -/
theorem mem_map_category_firing {rules : List Rule} {text : List Char}
    {category : PatternCategory} :
    category ∈ (firing rules text).map RuleMatch.category ↔
      ∃ rule ∈ rules, (rule.fire? text).isSome = true ∧ rule.category = category := by
  have named {rule : Rule} {m : RuleMatch} (fires : rule.fire? text = some m) :
      m.category = rule.category := by
    obtain ⟨o, -, rfl⟩ := Option.map_eq_some_iff.mp fires
    rfl
  simp only [firing, List.mem_map, List.mem_filterMap]
  constructor
  · rintro ⟨m, ⟨rule, listed, fires⟩, rfl⟩
    exact ⟨rule, listed, Option.isSome_iff_exists.mpr ⟨m, fires⟩, (named fires).symm⟩
  · rintro ⟨rule, listed, fires, rfl⟩
    obtain ⟨m, fires⟩ := Option.isSome_iff_exists.mp fires
    exact ⟨m, ⟨rule, listed, fires⟩, named fires⟩

/-- The second finding shows at least what the first one shows of a text, by kinds. -/
structure FileFinding.Covers (f g : FileFinding) : Prop where
  categories : f.patterns.map (·.category) ⊆ g.patterns.map (·.category)
  permissions : f.dangerousPermissions = true → g.dangerousPermissions = true
  issues : ∀ i ∈ f.networkIssues, ∃ j ∈ g.networkIssues, j.SameKind i

namespace Inspector

theorem mem_map_category_patternsOf {i : Inspector} {label : String} {text : List Char}
    {category : PatternCategory} :
    category ∈ (i.patternsOf label text).map (·.category) ↔
      ∃ rule ∈ i.rules, (rule.fire? text).isSome = true ∧ rule.category = category := by
  rw [patternsOf, List.map_map, ← mem_map_category_firing,
    ← mem_map_firstOfEach RuleMatch.category]
  rfl

/-- What is found in a text is found among other lines. -/
theorem covers_inspectText (i : Inspector) (label : String) (before after : Option (List Char))
    (content : List Char) :
    (i.inspectText label content).Covers (i.inspectText label (padText before after content)) where
  categories := by
    intro category found
    obtain ⟨rule, listed, fires, same⟩ := mem_map_category_patternsOf.mp found
    exact mem_map_category_patternsOf.mpr
      ⟨rule, listed, Rule.fire?_padText before after fires, same⟩
  permissions := FilePermissions.areDangerous_padText before after
  issues issue found := NetworkUse.exists_issue_padText before after found

/-- What is found in a file is found among other lines, unless the whole is known malware. -/
theorem covers_inspectFile (i : Inspector) (label : String) (fileName : Option String)
    (before after : Option ByteArray) (content : ByteArray) :
    (i.inspectFile ⟨label, fileName, .ok (padBytes before after content)⟩).isKnownMalware = true ∨
      (i.inspectFile ⟨label, fileName, .ok content⟩).Covers
        (i.inspectFile ⟨label, fileName, .ok (padBytes before after content)⟩) := by
  by_cases padded : i.hashes.contains (Sha256.hexDigest (padBytes before after content)) = true
  · left
    rw [inspectFile]
    simp only [padded, if_true]
  · right
    rw [inspectFile, inspectFile]
    simp only [padded, Bool.false_eq_true, if_false, decodeLossy_padBytes]
    by_cases listed : i.hashes.contains (Sha256.hexDigest content) = true
    -- A file that is known malware shows nothing but that.
    · rw [if_pos listed]
      exact ⟨List.nil_subset _, nofun, fun _ found => absurd found List.not_mem_nil⟩
    · rw [if_neg listed]
      obtain ⟨categories, permissions, issues⟩ := i.covers_inspectText label
        (before.map Utf8.decodeLossy) (after.map Utf8.decodeLossy) (Utf8.decodeLossy content)
      exact ⟨categories, permissions, issues⟩

end Inspector

/-- Padding cannot hide evidence. A rule that fires on a text fires on every text that has it among
its lines, so do the checks of permissions, and network use is reported by the same kinds whatever
domains are trusted. So what the inspection of a file shows, by categories and kinds, can only grow
with lines before or after its content, unless the whole becomes known malware. -/
theorem padding_hides_nothing :
    (∀ (before after : Option (List Char)) (content : List Char),
      (∀ rule : Rule, (rule.fire? content).isSome = true →
        (rule.fire? (padText before after content)).isSome = true) ∧
      (FilePermissions.areDangerous content = true →
        FilePermissions.areDangerous (padText before after content) = true) ∧
      ∀ trusted, ∀ issue ∈ NetworkUse.issues trusted content,
        ∃ other ∈ NetworkUse.issues trusted (padText before after content),
          other.SameKind issue) ∧
    ∀ (i : Inspector) (label : String) (fileName : Option String) (before after : Option ByteArray)
      (content : ByteArray),
      (i.inspectFile ⟨label, fileName, .ok (padBytes before after content)⟩).isKnownMalware =
          true ∨
        (i.inspectFile ⟨label, fileName, .ok content⟩).Covers
          (i.inspectFile ⟨label, fileName, .ok (padBytes before after content)⟩) := by
  refine ⟨fun before after content => ⟨fun rule => ?_, ?_, fun trusted issue => ?_⟩, ?_⟩
  · exact Rule.fire?_padText before after
  · exact FilePermissions.areDangerous_padText before after
  · exact NetworkUse.exists_issue_padText before after
  · exact Inspector.covers_inspectFile

end PackageRisk
