import Mathlib.Data.List.Nodup
import Mathlib.Data.List.Pairwise
import PackageRisk.Analysis.Report
import PackageRisk.Proofs.Files.Names
import PackageRisk.Proofs.Inspection.Malware
import PackageRisk.Proofs.Inspection.Padding

/-!
# Labels of findings

A finding is labelled with the path of its file, slashes for backslashes. In the file systems that
archives are unpacked to a backslash is part of a name, so two files can have one label. They have
it exactly when their paths have the same names once backslashes are taken for separators. A report
repeats a file and a category of suspicious code exactly when two such files are inspected and have
code of the same category, for a file itself reports each category once.
-/

namespace PackageRisk

/-! ## Lists without repetitions -/

section Lists

variable {α β : Type}

/-- Each key is kept once. -/
theorem nodup_map_firstOfEach {κ : Type} [DecidableEq κ] (key : α → κ) (l : List α) :
    ((firstOfEach key l).map key).Nodup := by
  induction l with
  | nil => exact List.nodup_nil
  | cons a l ih =>
    rw [firstOfEach, List.map_cons, List.nodup_cons]
    refine ⟨?_, (List.filter_sublist.map key).nodup ih⟩
    simp

theorem throughFirst_sublist (test : α → Bool) (l : List α) : (throughFirst test l).Sublist l := by
  induction l with
  | nil => exact .slnil
  | cons a l ih =>
    rw [throughFirst]
    split
    · exact (List.nil_sublist l).cons_cons a
    · exact ih.cons_cons a

theorem throughFirst_map (test : β → Bool) (f : α → β) (l : List α) :
    throughFirst test (l.map f) = (throughFirst (fun a => test (f a)) l).map f := by
  induction l with
  | nil => rfl
  | cons a l ih =>
    rw [List.map_cons, throughFirst, throughFirst, ih]
    split <;> rfl

/-- Lists of different elements have nothing in common if only equal elements share anything. -/
theorem nodup_flatMap_iff {l : List α} (distinct : l.Nodup) {f : α → List β}
    (each : ∀ a ∈ l, (f a).Nodup) :
    (l.flatMap f).Nodup ↔ ∀ a ∈ l, ∀ b ∈ l, (∃ c, c ∈ f a ∧ c ∈ f b) → a = b := by
  rw [List.nodup_flatMap, and_iff_right each]
  constructor
  · intro apart a mem b mem' ⟨c, found, found'⟩
    by_contra other
    have symmetric : Std.Symm (Function.onFun List.Disjoint f) :=
      ⟨fun _ _ h _ found found' => h found' found⟩
    exact apart.forall mem mem' other found found'
  · intro same
    refine distinct.pairwise_of_forall_ne fun a mem b mem' other => ?_
    exact List.disjoint_left.mpr fun c found found' =>
      other (same a mem b mem' ⟨c, found, found'⟩)

end Lists

/-! ## Inspected files -/

namespace FileTree

/-- The files to inspect at or below a path, with their paths relative to it. -/
def listed (t : FileTree) (root : String) (extensions : List String) : List (Path × ByteArray) :=
  match t.resolve root with
  | .error _ => []
  | .ok base =>
    if t.endsInLink root && !(t.lookup? base matches some .directory) then []
    else t.sourceFiles base extensions

theorem sources_eq (t : FileTree) (root : String) (extensions : List String) :
    ∃ fileName : Path → Option String, t.sources root extensions =
      (t.listed root extensions).map fun file =>
        ⟨displayLabel file.1.display, fileName file.1, .ok file.2⟩ := by
  rw [sources, listed]
  cases t.resolve root with
  | error e => exact ⟨fun _ => none, rfl⟩
  | ok base =>
    refine ⟨fun path => Path.fileName? (base ++ path), ?_⟩
    exact (apply_ite (List.map _) _ [] (t.sourceFiles base extensions)).symm

theorem listed_cases (t : FileTree) (root : String) (extensions : List String) :
    t.listed root extensions = [] ∨
      ∃ base, t.listed root extensions = t.sourceFiles base extensions := by
  rw [listed]
  cases t.resolve root with
  | error e => exact .inl rfl
  | ok base => exact (ite_eq_or_eq _ _ _).imp_right fun same => ⟨base, same⟩

/-- The listed files are entries at or below one path. -/
theorem exists_base (t : FileTree) (root : String) (extensions : List String) :
    ∃ base : Path, ∀ file ∈ t.listed root extensions,
      (base ++ file.1, .file file.2) ∈ t.entries := by
  obtain none | ⟨base, same⟩ := t.listed_cases root extensions
  · exact ⟨[], by simp [none]⟩
  · refine ⟨base, fun file mem => ?_⟩
    rw [same] at mem
    exact (mem_sourceFiles.mp mem).1

/-- No file is listed twice. -/
theorem nodup_listed (t : FileTree) (root : String) (extensions : List String) :
    (t.listed root extensions).Nodup := by
  obtain none | ⟨base, same⟩ := t.listed_cases root extensions
  · rw [none]
    exact List.nodup_nil
  · have below : (t.filesBelow base).Nodup :=
      ((t.filesBelow_sublist base).nodup (.of_map _ t.distinct)).of_map
    rw [same]
    exact (List.mergeSort_perm _ _).nodup_iff.mpr (below.filter _)

end FileTree

/-- What suspicious code is about: its category and its file. -/
def SuspiciousPattern.subject (p : SuspiciousPattern) : PatternCategory × Option String :=
  (p.category, p.file)

namespace Inspector

variable {i : Inspector} {t : FileTree} {root : String} {extensions : List String}

/-- The files that are inspected, with their paths: none follows one that is known malware. -/
def inspected (i : Inspector) (t : FileTree) (root : String) (extensions : List String) :
    List (Path × ByteArray) :=
  throughFirst (fun file => i.hashes.contains (Sha256.hexDigest file.2))
    (t.listed root extensions)

theorem isKnownMalware_inspectFile_ok (label : String) (fileName : Option String)
    (content : ByteArray) :
    (i.inspectFile ⟨label, fileName, .ok content⟩).isKnownMalware =
      i.hashes.contains (Sha256.hexDigest content) := by
  rw [Bool.eq_iff_iff, isKnownMalware_inspectFile]
  simp

/-- There is one finding for each inspected file, with the file's path for a label. -/
theorem inspectTree_eq (i : Inspector) (t : FileTree) (root : String) (extensions : List String) :
    ∃ fileName : Path → Option String, i.inspectTree t root extensions =
      (i.inspected t root extensions).map fun file =>
        i.inspectFile ⟨displayLabel file.1.display, fileName file.1, .ok file.2⟩ := by
  obtain ⟨fileName, sources⟩ := t.sources_eq root extensions
  refine ⟨fileName, ?_⟩
  rw [inspectTree, inspect, sources, List.map_map, throughFirst_map]
  simp only [Function.comp_apply, isKnownMalware_inspectFile_ok]
  rfl

theorem exists_base_inspected (i : Inspector) (t : FileTree) (root : String)
    (extensions : List String) :
    ∃ base : Path, ∀ file ∈ i.inspected t root extensions,
      (base ++ file.1, .file file.2) ∈ t.entries := by
  obtain ⟨base, entries⟩ := t.exists_base root extensions
  exact ⟨base, fun file mem => entries file ((throughFirst_sublist _ _).subset mem)⟩

theorem nodup_inspected (i : Inspector) (t : FileTree) (root : String)
    (extensions : List String) : (i.inspected t root extensions).Nodup :=
  (throughFirst_sublist _ _).nodup (t.nodup_listed root extensions)

theorem proper_of_mem_inspected (posix : t.Posix) {file : Path × ByteArray}
    (mem : file ∈ i.inspected t root extensions) : file.1.Proper := by
  obtain ⟨base, entries⟩ := i.exists_base_inspected t root extensions
  exact (posix _ (entries file mem)).of_subset (List.subset_append_right _ _)

/-- There is one file at a path. -/
theorem eq_of_path_eq {f g : Path × ByteArray} (mem : f ∈ i.inspected t root extensions)
    (mem' : g ∈ i.inspected t root extensions) (same : f.1 = g.1) : f = g := by
  obtain ⟨base, entries⟩ := i.exists_base_inspected t root extensions
  have entry := List.inj_on_of_nodup_map t.distinct (entries f mem) (entries g mem')
    (congrArg (base ++ ·) same)
  exact Prod.ext same (FileEntry.file.inj (Prod.mk.inj entry).2)

/-! ## Labels -/

theorem label_inspectFile (file : SourceFile) : (i.inspectFile file).path = file.label := by
  rw [inspectFile]
  cases file.content with
  | error e => rfl
  | ok content =>
    dsimp only
    split <;> rfl

theorem labels_inspectTree (i : Inspector) (t : FileTree) (root : String)
    (extensions : List String) :
    (i.inspectTree t root extensions).map (·.path) =
      (i.inspected t root extensions).map fun file => displayLabel file.1.display := by
  obtain ⟨fileName, findings⟩ := i.inspectTree_eq t root extensions
  rw [findings, List.map_map]
  simp only [Function.comp_def, label_inspectFile]

/-- The labels are different unless the paths of two files differ in separators only. -/
theorem nodup_labels_iff (posix : t.Posix) :
    ((i.inspectTree t root extensions).map (·.path)).Nodup ↔
      ∀ f ∈ i.inspected t root extensions, ∀ g ∈ i.inspected t root extensions,
        f.1.slashed = g.1.slashed → f = g := by
  rw [labels_inspectTree, List.nodup_map_iff_inj_on (nodup_inspected ..)]
  refine forall₂_congr fun f mem => forall₂_congr fun g mem' => ?_
  rw [Path.displayLabel_display_inj (proper_of_mem_inspected posix mem)
    (proper_of_mem_inspected posix mem')]

/-! ## Categories of suspicious code -/

/-- A content that is no known malware is reported with suspicious code of a category. -/
def Suspects (i : Inspector) (content : ByteArray) (category : PatternCategory) : Prop :=
  i.hashes.contains (Sha256.hexDigest content) = false ∧
    ∃ rule ∈ i.rules, (rule.fire? (Utf8.decodeLossy content)).isSome = true ∧
      rule.category = category

/-- The categories of suspicious code that a file with a content is reported with. -/
def categories (i : Inspector) (content : ByteArray) : List PatternCategory :=
  if i.hashes.contains (Sha256.hexDigest content) then []
  else (firstOfEach RuleMatch.category (firing i.rules (Utf8.decodeLossy content))).map
    RuleMatch.category

theorem mem_categories {content : ByteArray} {category : PatternCategory} :
    category ∈ i.categories content ↔ i.Suspects content category := by
  rw [categories, Suspects]
  split
  · simp [*]
  · rename_i clean
    rw [mem_map_firstOfEach, mem_map_category_firing, Bool.not_eq_true] at *
    exact (and_iff_right clean).symm

theorem nodup_categories (i : Inspector) (content : ByteArray) : (i.categories content).Nodup := by
  rw [categories]
  split
  · exact List.nodup_nil
  · exact nodup_map_firstOfEach _ _

theorem subjects_inspectFile (label : String) (fileName : Option String) (content : ByteArray) :
    (i.inspectFile ⟨label, fileName, .ok content⟩).patterns.map (·.subject) =
      (i.categories content).map fun category => (category, some label) := by
  rw [inspectFile, categories]
  dsimp only
  split
  · rfl
  · rw [List.map_map, inspectText, patternsOf, List.map_map]
    rfl

theorem subjects_inspectTree (i : Inspector) (t : FileTree) (root : String)
    (extensions : List String) :
    (flattenPatterns (i.inspectTree t root extensions)).map (·.subject) =
      (i.inspected t root extensions).flatMap fun file =>
        (i.categories file.2).map fun category =>
          (category, some (displayLabel file.1.display)) := by
  obtain ⟨fileName, findings⟩ := i.inspectTree_eq t root extensions
  simp only [flattenPatterns, findings, List.map_flatMap, List.flatMap_map, subjects_inspectFile]

/-- A report has a category and a file twice exactly when two files whose paths differ in separators
only have suspicious code of one category. -/
theorem nodup_subjects_iff (posix : t.Posix) :
    ((flattenPatterns (i.inspectTree t root extensions)).map (·.subject)).Nodup ↔
      ∀ f ∈ i.inspected t root extensions, ∀ g ∈ i.inspected t root extensions,
        f.1.slashed = g.1.slashed →
          (∃ category, i.Suspects f.2 category ∧ i.Suspects g.2 category) → f = g := by
  have each (file : Path × ByteArray) :
      ((i.categories file.2).map fun category =>
        (category, some (displayLabel file.1.display))).Nodup :=
    (nodup_categories ..).map fun _ _ same => (Prod.mk.inj same).1
  rw [subjects_inspectTree, nodup_flatMap_iff (nodup_inspected ..) fun file _ => each file]
  refine forall₂_congr fun f mem => forall₂_congr fun g mem' => ?_
  rw [← Path.displayLabel_display_inj (proper_of_mem_inspected posix mem)
    (proper_of_mem_inspected posix mem'), ← and_imp]
  refine imp_congr_left ?_
  constructor
  · rintro ⟨subject, found, found'⟩
    obtain ⟨category, listed, rfl⟩ := List.mem_map.mp found
    obtain ⟨category', listed', same⟩ := List.mem_map.mp found'
    obtain ⟨rfl, label⟩ := Prod.mk.inj same
    exact ⟨(Option.some.inj label).symm, category', mem_categories.mp listed,
      mem_categories.mp listed'⟩
  · rintro ⟨label, category, suspected, suspected'⟩
    refine ⟨_, List.mem_map_of_mem (mem_categories.mpr suspected), ?_⟩
    rw [label]
    exact List.mem_map_of_mem (mem_categories.mpr suspected')

/-- Archives unpack to names without slashes. In a tree with such names two findings have one label
exactly when the paths of two inspected files have the same names, backslashes taken for separators;
a report then repeats a file and a category exactly when both have suspicious code of the category.
Without backslashes in names neither happens. Names are texts throughout; nothing is said of file
names that are not UTF-8, which meet in replacement characters as well. -/
theorem labels_distinct_iff (i : Inspector) (root : String) (extensions : List String) :
    (∀ entries t, Archive.unpack? entries = some t → t.Posix) ∧
    ∀ t : FileTree, t.Posix →
      (((i.inspectTree t root extensions).map (·.path)).Nodup ↔
        ∀ f ∈ i.inspected t root extensions, ∀ g ∈ i.inspected t root extensions,
          f.1.slashed = g.1.slashed → f = g) ∧
      (∀ (e : Evidence) (score : RiskScore), e.files = i.inspectTree t root extensions →
        (((e.report score).suspiciousPatterns.map (·.subject)).Nodup ↔
          ∀ f ∈ i.inspected t root extensions, ∀ g ∈ i.inspected t root extensions,
            f.1.slashed = g.1.slashed →
              (∃ category, i.Suspects f.2 category ∧ i.Suspects g.2 category) → f = g)) ∧
      ((∀ f ∈ i.inspected t root extensions, ∀ name ∈ f.1, '\\' ∉ name.toList) →
        ∀ f ∈ i.inspected t root extensions, ∀ g ∈ i.inspected t root extensions,
          f.1.slashed = g.1.slashed → f = g) := by
  refine ⟨fun entries t => Archive.posix_of_unpack?, fun t posix =>
    ⟨nodup_labels_iff posix, fun e score files => ?_, fun plain f mem g mem' same => ?_⟩⟩
  · have flattened : (e.report score).suspiciousPatterns =
        flattenPatterns (i.inspectTree t root extensions) := congrArg flattenPatterns files
    rw [flattened]
    exact nodup_subjects_iff posix
  · rw [Path.slashed_eq_self (plain f mem), Path.slashed_eq_self (plain g mem')] at same
    exact eq_of_path_eq mem mem' same

/-- The bytes of a call that is suspicious. -/
def sampleCode : ByteArray :=
  ⟨#[0x65, 0x76, 0x61, 0x6C, 0x28, 0x31, 0x29]⟩

/-- Two files, one in a directory and one with a backslash in its name. -/
def sampleTree : FileTree where
  entries := [(["a"], .directory), (["a", "b.js"], .file sampleCode),
    (["a\\b.js"], .file sampleCode)]
  distinct := by decide

theorem inspected_sampleTree : ({} : Inspector).inspected sampleTree "" ["js"] =
    [(["a", "b.js"], sampleCode), (["a\\b.js"], sampleCode)] := by
  have wanted : (sampleTree.filesBelow []).filter (fun file =>
      (Path.fileName? ([] ++ file.1)).any (hasExtension ["js"])) =
        [(["a", "b.js"], sampleCode), (["a\\b.js"], sampleCode)] := by
    decide +kernel
  have listed : sampleTree.listed "" ["js"] =
      [(["a", "b.js"], sampleCode), (["a\\b.js"], sampleCode)] := by
    simp only [FileTree.listed, FileTree.resolve_empty, FileTree.lookup?, List.isEmpty_nil,
      if_true, Bool.not_true, Bool.and_false, Bool.false_eq_true, if_false, FileTree.sourceFiles]
    rw [wanted]
    exact List.mergeSort_of_pairwise (by decide)
  rw [inspected, listed]
  rfl

/-- A file in a directory and one with a backslash in its name are reported as one. -/
theorem sampleTree_repeats :
    sampleTree.Posix ∧
      (({} : Inspector).inspectTree sampleTree "" ["js"]).map (·.path) = ["a/b.js", "a/b.js"] ∧
      (flattenPatterns (({} : Inspector).inspectTree sampleTree "" ["js"])).map (·.subject) =
        [(.codeExecution, some "a/b.js"), (.codeExecution, some "a/b.js")] := by
  have categories : ({} : Inspector).categories sampleCode = [.codeExecution] := by
    have clean : ({} : Inspector).hashes.contains (Sha256.hexDigest sampleCode) = false := rfl
    rw [Inspector.categories, clean]
    decide +kernel
  have shown : ∀ path ∈ [["a", "b.js"], ["a\\b.js"]],
      displayLabel (Path.display path) = "a/b.js" := by
    simp only [← String.toList_inj, Path.toList_displayLabel]
    decide
  refine ⟨by decide, ?_, ?_⟩
  · rw [labels_inspectTree, inspected_sampleTree]
    simp [shown]
  · rw [subjects_inspectTree, inspected_sampleTree]
    simp [shown, categories]

end Inspector

end PackageRisk
