import PackageRisk.Proofs.Inspection.Strictness

/-!
# Known malware in a tree

The inspection of a tree reports known malware exactly when some regular file with one of the
extensions has a listed hash as its digest, blanks around the hash and letter case apart. The order
in which files are inspected, and the stop at the first hit, do not matter.
-/

namespace PackageRisk

/-- Some regular file with one of the extensions has a listed hash, blanks around it and letter case
apart. -/
def FileTree.Infected (t : FileTree) (extensions hashes : List String) : Prop :=
  ∃ path content name, (path, .file content) ∈ t.entries ∧ path.fileName? = some name ∧
    hasExtension extensions name = true ∧
    ∃ hash ∈ hashes, Text.sameIgnoringCase (Text.trim hash) (Sha256.hexDigest content) = true

theorem FileTree.not_infected_nil {t : FileTree} {extensions : List String} :
    ¬ t.Infected extensions [] := by
  rintro ⟨path, content, name, -, -, -, hash, listed, -⟩
  exact absurd listed List.not_mem_nil

/-! ## Digests -/

theorem Text.trim_of_unblank {s : String} (h : ∀ c ∈ s.toList, isBlank c = false) :
    trim s = s := by
  have keep {l : List Char} (hl : ∀ c ∈ l, isBlank c = false) : l.dropWhile isBlank = l := by
    cases l with
    | nil => rfl
    | cons c l => exact List.dropWhile_cons_of_neg (by simp [hl c List.mem_cons_self])
  have keep_reverse : s.toList.reverse.dropWhile isBlank = s.toList.reverse :=
    keep fun c hc => h c (List.mem_reverse.mp hc)
  rw [trim, trimChars, keep h, keep_reverse, List.reverse_reverse, String.ofList_toList]

namespace Sha256

theorem length_wordText (w : UInt32) : (wordText w).length = 8 := by
  simp [wordText]

theorem isBlank_hexDigit : ∀ n < 16, Text.isBlank (Text.hexDigit n) = false := by
  decide

theorem isBlank_of_mem_wordText {w : UInt32} {c : Char} (h : c ∈ wordText w) :
    Text.isBlank c = false := by
  obtain ⟨i, -, rfl⟩ := List.mem_map.mp h
  exact isBlank_hexDigit _ (Nat.mod_lt _ (by decide))

theorem length_hexDigest (message : ByteArray) : (hexDigest message).toList.length = 64 := by
  simp [hexDigest, length_wordText]

/-- A digest has no blanks to trim. -/
theorem trim_hexDigest (message : ByteArray) :
    Text.trim (hexDigest message) = hexDigest message := by
  apply Text.trim_of_unblank
  intro c hc
  rw [hexDigest, String.toList_ofList] at hc
  obtain ⟨w, -, hc⟩ := List.mem_flatMap.mp hc
  exact isBlank_of_mem_wordText hc

end Sha256

/-- A digest is known when the list has it, blanks around it and letter case apart. -/
theorem MalwareHashes.contains_hexDigest {hashes : List String} {content : ByteArray} :
    (ofList hashes).contains (Sha256.hexDigest content) = true ↔
      ∃ hash ∈ hashes,
        Text.sameIgnoringCase (Text.trim hash) (Sha256.hexDigest content) = true := by
  have normal : normalize (Sha256.hexDigest content) = Text.lower (Sha256.hexDigest content) := by
    rw [normalize, Sha256.trim_hexDigest]
  have nonblank : Text.lower (Sha256.hexDigest content) ≠ "" := by
    intro blank
    have length := congrArg (fun s => s.toList.length) blank
    simp [Text.lower, Sha256.length_hexDigest] at length
  rw [contains_ofList, normal]
  simp only [Text.sameIgnoringCase, beq_iff_eq]
  exact and_iff_right nonblank

/-! ## Files -/

namespace Inspector

variable {inspector : Inspector}

theorem isKnownMalware_inspectFile {file : SourceFile} :
    (inspector.inspectFile file).isKnownMalware = true ↔
      ∃ content, file.content = .ok content ∧
        inspector.hashes.contains (Sha256.hexDigest content) = true := by
  rw [inspectFile]
  cases file.content with
  | error e => simp
  | ok content =>
    by_cases known : inspector.hashes.contains (Sha256.hexDigest content) = true
    · simp [known]
    · simp [known, inspectText]

end Inspector

namespace FileTree

variable {t : FileTree} {extensions : List String}

theorem resolve_empty (t : FileTree) : t.resolve "" = .ok [] := by
  have names : (Text.splitAt (· == '/') "".toList).map String.ofList = [""] := rfl
  rw [resolve, names, resolveFrom]
  simp [lookup?, resolveFrom]

/-- The files at or below a path are entries of the tree. -/
theorem filesBelow_sublist (t : FileTree) (base : Path) :
    ((t.filesBelow base).map fun file => (base ++ file.1, FileEntry.file file.2)).Sublist
      t.entries := by
  rw [filesBelow]
  induction t.entries with
  | nil => exact .slnil
  | cons found entries ih =>
    obtain ⟨path, entry⟩ := found
    cases entry with
    | file content =>
      rw [List.filterMap_cons]
      by_cases below : base.isPrefixOf path = true
      · have whole := List.prefix_iff_eq_append.mp (List.isPrefixOf_iff_prefix.mp below)
        simp only [below, if_true, List.map_cons, whole]
        exact ih.cons_cons _
      · simp only [below]
        exact ih.cons _
    | directory | link => exact ih.cons _

theorem mem_filesBelow {base path : Path} {content : ByteArray} :
    (path, content) ∈ t.filesBelow base ↔ (base ++ path, .file content) ∈ t.entries := by
  constructor
  · exact fun mem => (t.filesBelow_sublist base).subset (List.mem_map_of_mem mem)
  · exact fun listed => List.mem_filterMap.mpr ⟨_, listed, by simp⟩

theorem mem_sourceFiles {base path : Path} {content : ByteArray} :
    (path, content) ∈ t.sourceFiles base extensions ↔
      (base ++ path, .file content) ∈ t.entries ∧
        ∃ name, Path.fileName? (base ++ path) = some name ∧
          hasExtension extensions name = true := by
  rw [sourceFiles, List.mem_mergeSort, List.mem_filter, mem_filesBelow]
  exact and_congr_right' (Option.any_eq_true _ _)

theorem sources_root (t : FileTree) (extensions : List String) :
    t.sources "" extensions = (t.sourceFiles [] extensions).map fun found =>
      ⟨displayLabel found.1.display, Path.fileName? found.1, .ok found.2⟩ := by
  rw [sources, resolve_empty]
  simp [lookup?]

/-- The files to inspect in a whole tree are its regular files with one of the extensions. -/
theorem mem_sources_root {file : SourceFile} :
    file ∈ t.sources "" extensions ↔
      ∃ path content name, (path, .file content) ∈ t.entries ∧ path.fileName? = some name ∧
        hasExtension extensions name = true ∧
        file = ⟨displayLabel path.display, some name, .ok content⟩ := by
  rw [sources_root, List.mem_map]
  constructor
  · rintro ⟨⟨path, content⟩, listed, rfl⟩
    obtain ⟨entry, name, named, has⟩ := mem_sourceFiles.mp listed
    rw [List.nil_append] at entry named
    exact ⟨path, content, name, entry, named, has, by simp only [named]⟩
  · rintro ⟨path, content, name, entry, named, has, rfl⟩
    have listed : (path, content) ∈ t.sourceFiles [] extensions :=
      mem_sourceFiles.mpr ⟨entry, name, named, has⟩
    exact ⟨(path, content), listed, by simp only [named]⟩

end FileTree

/-- The inspection of a whole tree finds known malware exactly when there is some, for all that it
stops at the first hit. -/
theorem Inspector.isKnownMalware_inspectTree {inspector : Inspector} {hashes : List String}
    (known : inspector.hashes = .ofList hashes) (t : FileTree) (extensions : List String) :
    (inspector.inspectTree t "" extensions).any (·.isKnownMalware) = true ↔
      t.Infected extensions hashes := by
  rw [inspectTree, inspect, any_throughFirst, List.any_map, List.any_eq_true]
  simp only [Function.comp_apply, isKnownMalware_inspectFile, known,
    MalwareHashes.contains_hexDigest]
  constructor
  · rintro ⟨file, listed, content, read, hash⟩
    obtain ⟨path, content', name, entry, named, has, rfl⟩ := FileTree.mem_sources_root.mp listed
    cases read
    exact ⟨path, content, name, entry, named, has, hash⟩
  · rintro ⟨path, content, name, entry, named, has, hash⟩
    exact ⟨_, FileTree.mem_sources_root.mpr ⟨path, content, name, entry, named, has, rfl⟩, content,
      rfl, hash⟩

end PackageRisk
