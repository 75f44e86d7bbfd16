import PackageRisk.Proofs.Inspection.FirstMalware

/-!
# The first rule of each category

Suspicious code is reported once for each category. The rule that is reported is the first of its
category in the table that fires, with its own description and the surroundings of its first
occurrence, and the reports stand in the order of these rules, whatever the order of the categories
in the table is. A file that is known malware is not looked at, so of it no rule is reported.
-/

namespace PackageRisk

/-- An element at the end of a list is kept when no earlier one has its key. -/
theorem firstOfEach_concat {α κ : Type} [DecidableEq κ] (key : α → κ) (l : List α) (b : α) :
    firstOfEach key (l ++ [b]) =
      if key b ∈ l.map key then firstOfEach key l else firstOfEach key l ++ [b] := by
  induction l with
  | nil => simp [firstOfEach]
  | cons a l ih =>
    rw [List.cons_append, firstOfEach, firstOfEach]
    by_cases later : key b ∈ l.map key
    · rw [if_pos later] at ih
      rw [ih, List.map_cons, if_pos (List.mem_cons_of_mem _ later)]
    · rw [if_neg later] at ih
      rw [ih, List.filter_append]
      by_cases same : key b = key a <;> simp [same, later]

namespace Rule

variable {rules : List Rule} {rule other : Rule} {text : List Char} {label : String} {n m : Nat}
  {o : Occurrence}

/-! ## Leading rules -/

/-- The rule at a place of a table fires on a text, first at a given occurrence, and no rule of its
category fires that stands before it. -/
structure Leads (rules : List Rule) (text : List Char) (place : Nat) (rule : Rule)
    (o : Occurrence) : Prop where
  here : rules[place]? = some rule
  fires : rule.search.first? text = some o
  leading : ∀ (earlier : Nat) other, earlier < place → rules[earlier]? = some other →
    other.category = rule.category → other.search.first? text = none

/-- What is reported of a rule that fires. -/
def report (rule : Rule) (label : String) (o : Occurrence) : SuspiciousPattern where
  category := rule.category
  description := rule.description
  severity := rule.category.severity
  file := some label
  context := some o.snippet

theorem fire?_eq (rule : Rule) (text : List Char) :
    rule.fire? text = (rule.search.first? text).map fun o =>
      ⟨rule.category, rule.description, rule.category.severity, o.snippet⟩ :=
  rfl

theorem isSome_fire? : (rule.fire? text).isSome = true ↔ ∃ o, rule.search.first? text = some o := by
  rw [fire?_eq, Option.isSome_map, Option.isSome_iff_exists]

/-- A rule fires that is of some category. -/
theorem mem_category_firing_iff {category : PatternCategory} :
    category ∈ (firing rules text).map RuleMatch.category ↔
      ∃ rule ∈ rules, rule.category = category ∧ ∃ o, rule.search.first? text = some o := by
  simp only [mem_map_category_firing, isSome_fire?, and_comm]

/-- A further rule at the end of a table leads when it fires and no other rule of its category
does. The rules before it lead as they did. -/
theorem leads_concat_iff :
    Leads (rules ++ [other]) text n rule o ↔
      Leads rules text n rule o ∨
        n = rules.length ∧ rule = other ∧ other.search.first? text = some o ∧
          other.category ∉ (firing rules text).map RuleMatch.category := by
  rw [mem_category_firing_iff]
  constructor
  · rintro ⟨here, fires, leading⟩
    rcases Nat.lt_or_ge n rules.length with inside | last
    · left
      rw [List.getElem?_append_left inside] at here
      refine ⟨here, fires, fun earlier before below there => leading earlier before below ?_⟩
      rw [List.getElem?_append_left (Nat.lt_trans below inside), there]
    · right
      have bound := (List.getElem?_eq_some_iff.mp here).1
      rw [List.length_append, List.length_singleton] at bound
      obtain rfl : n = rules.length := by omega
      rw [List.getElem?_concat_length] at here
      obtain rfl := Option.some.inj here
      refine ⟨rfl, rfl, fires, ?_⟩
      rintro ⟨before, mem, same, found, fires'⟩
      obtain ⟨earlier, below, there⟩ := List.getElem_of_mem mem
      have silent := leading earlier before below
        (by rw [List.getElem?_append_left below, List.getElem?_eq_getElem below, there]) same
      rw [silent] at fires'
      exact absurd fires' nofun
  · rintro (⟨here, fires, leading⟩ | ⟨rfl, rfl, fires, new⟩)
    · have inside := (List.getElem?_eq_some_iff.mp here).1
      refine ⟨by rwa [List.getElem?_append_left inside], fires, ?_⟩
      intro earlier before below there
      rw [List.getElem?_append_left (Nat.lt_trans below inside)] at there
      exact leading earlier before below there
    · refine ⟨List.getElem?_concat_length, fires, fun earlier before below there same => ?_⟩
      rw [List.getElem?_append_left below] at there
      by_contra noisy
      obtain ⟨found, fires'⟩ := Option.ne_none_iff_exists'.mp noisy
      exact new ⟨before, List.mem_of_getElem? there, same, found, fires'⟩

end Rule

open Rule (Leads)

variable {rules : List Rule} {text : List Char} {label : String}

/-- The reports on a text are those of some rules that lead, in the order of their places, and of
all that do. -/
structure ReportsLeading (rules : List Rule) (text : List Char) (label : String)
    (leading : List (Nat × Rule × Occurrence)) (patterns : List SuspiciousPattern) : Prop where
  ascending : (leading.map fun found => found.1).Pairwise (· < ·)
  leads : ∀ place rule o, (place, rule, o) ∈ leading ↔ Leads rules text place rule o
  patterns : patterns = leading.map fun found => found.2.1.report label found.2.2

/-- The reports on a text by a table of rules. -/
def reports (rules : List Rule) (text : List Char) (label : String) : List SuspiciousPattern :=
  ({ rules } : Inspector).patternsOf label text

theorem reports_concat (rules : List Rule) (rule : Rule) (text : List Char) (label : String) :
    reports (rules ++ [rule]) text label = reports rules text label ++
      if rule.category ∈ (firing rules text).map RuleMatch.category then []
      else ((rule.search.first? text).map (rule.report label)).toList := by
  have fired : firing (rules ++ [rule]) text = firing rules text ++ (rule.fire? text).toList := by
    rw [firing, firing, List.filterMap_append]
    cases h : rule.fire? text <;> simp [h]
  rw [reports, reports, Inspector.patternsOf, Inspector.patternsOf, fired, Rule.fire?_eq]
  cases rule.search.first? text with
  | none => simp
  | some o =>
    simp only [Option.map_some, Option.toList_some, firstOfEach_concat]
    split
    · rw [List.append_nil]
    · rw [List.map_append]
      rfl

/-- One more rule at the end of a table is reported last, if it leads. -/
theorem ReportsLeading.concat {leading : List (Nat × Rule × Occurrence)}
    (h : ReportsLeading rules text label leading (reports rules text label)) (rule : Rule) :
    ∃ leading',
      ReportsLeading (rules ++ [rule]) text label leading' (reports (rules ++ [rule]) text label) := by
  rw [reports_concat]
  by_cases old : rule.category ∈ (firing rules text).map RuleMatch.category
  · refine ⟨leading, h.ascending, fun place other o => ?_, ?_⟩
    · rw [h.leads, Rule.leads_concat_iff]
      exact (or_iff_left fun last => last.2.2.2 old).symm
    · rw [if_pos old, List.append_nil]
      exact h.patterns
  · rw [if_neg old]
    cases fires : rule.search.first? text with
    | none =>
      refine ⟨leading, h.ascending, fun place other o => ?_, ?_⟩
      · rw [h.leads, Rule.leads_concat_iff, fires]
        exact (or_iff_left fun last => absurd last.2.2.1 nofun).symm
      · rw [Option.map_none, Option.toList_none, List.append_nil]
        exact h.patterns
    | some found =>
      refine ⟨leading ++ [(rules.length, rule, found)], ?_, fun place other o => ?_, ?_⟩
      · rw [List.map_append, List.pairwise_append]
        refine ⟨h.ascending, List.pairwise_singleton _ _, fun place mem last here => ?_⟩
        obtain ⟨⟨place, other, o⟩, found, rfl⟩ := List.mem_map.mp mem
        obtain rfl := List.mem_singleton.mp here
        exact (List.getElem?_eq_some_iff.mp ((h.leads ..).mp found).here).1
      · rw [List.mem_append, h.leads, List.mem_singleton, Rule.leads_concat_iff, fires]
        refine or_congr_right ?_
        simp only [Prod.mk.injEq, Option.some.injEq, old, not_false_eq_true, and_true, eq_comm]
      · rw [List.map_append, ← h.patterns]
        rfl

/-- On every text a table reports the rules that lead. -/
theorem exists_reportsLeading (rules : List Rule) (text : List Char) (label : String) :
    ∃ leading, ReportsLeading rules text label leading (reports rules text label) := by
  induction rules using List.reverseRecOn with
  | nil =>
    refine ⟨[], .nil, fun place rule o => ⟨fun mem => absurd mem List.not_mem_nil, ?_⟩, rfl⟩
    exact fun leads => absurd leads.here nofun
  | append_singleton rules rule ih =>
    obtain ⟨leading, reported⟩ := ih
    exact reported.concat rule

/-- Suspicious code of a text by a table of rules: the rules that lead, and so one rule of each
category of which some rule fires. -/
structure ByFirstRules (rules : List Rule) (text : List Char) (label : String)
    (patterns : List SuspiciousPattern) : Prop where
  leading : ∃ leading, ReportsLeading rules text label leading patterns
  once : (patterns.map (·.category)).Nodup
  categories : ∀ category, category ∈ patterns.map (·.category) ↔
    ∃ rule ∈ rules, rule.category = category ∧ ∃ o, rule.search.first? text = some o

theorem byFirstRules_reports (rules : List Rule) (text : List Char) (label : String) :
    ByFirstRules rules text label (reports rules text label) := by
  have categories : (reports rules text label).map (·.category) =
      (firstOfEach RuleMatch.category (firing rules text)).map RuleMatch.category := by
    rw [reports, Inspector.patternsOf, List.map_map]
    rfl
  refine ⟨exists_reportsLeading rules text label, ?_, fun category => ?_⟩
  · rw [categories]
    exact nodup_map_firstOfEach _ _
  · rw [categories, mem_map_firstOfEach, Rule.mem_category_firing_iff]

namespace Inspector

/-- Suspicious code is reported of every file whose content is no known malware: one piece for each
category of which some rule of the table fires on the text, under the file's own label. It is the
first rule of the category that fires, with its description, the severity of the category and the
surroundings of its first occurrence, and the pieces stand in the order of these rules. -/
theorem patterns_by_first_rules (i : Inspector) (label : String) (fileName : Option String)
    (content : ByteArray) :
    if i.hashes.contains (Sha256.hexDigest content) then
      (i.inspectFile ⟨label, fileName, .ok content⟩).patterns = []
    else
      ByFirstRules i.rules (Utf8.decodeLossy content) label
        (i.inspectFile ⟨label, fileName, .ok content⟩).patterns := by
  have reported := byFirstRules_reports i.rules (Utf8.decodeLossy content) label
  rw [inspectFile]
  dsimp only
  split
  · rfl
  · exact reported

/-- The inspector that knows a content as malware. -/
def informed (content : ByteArray) : Inspector where
  hashes := .ofList [Sha256.hexDigest content]

theorem contains_informed (content : ByteArray) :
    (informed content).hashes.contains (Sha256.hexDigest content) = true := by
  rw [informed, MalwareHashes.contains_hexDigest]
  refine ⟨_, List.mem_singleton_self _, ?_⟩
  rw [Sha256.trim_hexDigest, Text.sameIgnoringCase, beq_self_eq_true]

/-- A rule fires on known malware, and no suspicious code is reported of it. -/
theorem informed_reports_nothing :
    (firing (informed sampleCode).rules (Utf8.decodeLossy sampleCode)).map (·.category) =
        [.codeExecution] ∧
      ((informed sampleCode).inspectFile ⟨"a.js", some "a.js", .ok sampleCode⟩).patterns = [] := by
  have rules : (informed sampleCode).rules = Catalog.builtin := rfl
  constructor
  · rw [rules]
    decide +kernel
  · rw [inspectFile]
    simp only [contains_informed, if_true]

end Inspector

end PackageRisk
