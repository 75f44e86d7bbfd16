import PackageRisk.Inspection.Inspector
import PackageRisk.Proofs.Score.Points

/-!
# Stricter inspection

An inspector is stricter than another if it knows more malware, looks for more names and trusts
fewer domains. What it finds in a tree, with more extensions even, weighs at least as much: malware
is not missed, and without malware no file costs fewer points. Only one host of a file is reported,
perhaps another one, but there is at most one issue of each kind and none disappears.
-/

namespace PackageRisk

/-! ## Lists in normal form -/

theorem mem_addUnique {name : String} {texts : List String} {text : String} :
    name ∈ addUnique texts text ↔
      name ∈ texts ∨ name ≠ "" ∧ Text.lower (Text.trim text) = name := by
  rw [addUnique]
  generalize Text.lower (Text.trim text) = normal
  by_cases known : normal = "" ∨ normal ∈ texts
  · rw [if_pos known]
    refine ⟨.inl, fun h => h.elim (fun h => h) ?_⟩
    rintro ⟨nonblank, rfl⟩
    exact known.resolve_left nonblank
  · rw [if_neg known, List.mem_append, List.mem_singleton]
    refine or_congr_right ⟨?_, fun h => h.2.symm⟩
    rintro rfl
    exact ⟨fun blank => known (.inl blank), rfl⟩

/-- What is added to a list is what stands in the extras up to blanks and case, blanks apart. -/
theorem mem_extendUnique {name : String} {texts extras : List String} :
    name ∈ extendUnique texts extras ↔
      name ∈ texts ∨ name ≠ "" ∧ ∃ extra ∈ extras, Text.lower (Text.trim extra) = name := by
  rw [extendUnique]
  induction extras generalizing texts with
  | nil => simp
  | cons extra extras ih =>
    rw [List.foldl_cons, ih, mem_addUnique, or_assoc, ← and_or_left]
    simp only [List.mem_cons, exists_eq_or_imp]

theorem extendUnique_subset {texts extras more : List String} (h : extras ⊆ more) :
    extendUnique texts extras ⊆ extendUnique texts more := by
  intro name mem
  rw [mem_extendUnique] at mem ⊢
  exact mem.imp_right fun ⟨nonblank, extra, listed, eq⟩ => ⟨nonblank, extra, h listed, eq⟩

namespace MalwareHashes

theorem hashes_ofList (hashes : List String) : (ofList hashes).hashes = extendUnique [] hashes := by
  have step (known : MalwareHashes) (hash : String) :
      (known.add hash).hashes = addUnique known.hashes hash := by
    unfold add addUnique isNew contains normalize
    by_cases blank : Text.lower (Text.trim hash) = "" <;>
      by_cases listed : Text.lower (Text.trim hash) ∈ known.hashes <;> simp [blank, listed]
  have all (known : MalwareHashes) :
      (hashes.foldl add known).hashes = extendUnique known.hashes hashes := by
    rw [extendUnique]
    induction hashes generalizing known with
    | nil => rfl
    | cons hash hashes ih => rw [List.foldl_cons, ih, step, List.foldl_cons]
  exact all {}

/-- A hash is in the set of a list when the list has it up to blanks and case, unless it is
blank. -/
theorem contains_ofList {hashes : List String} {hash : String} :
    (ofList hashes).contains hash = true ↔
      normalize hash ≠ "" ∧ ∃ listed ∈ hashes, normalize listed = normalize hash := by
  rw [contains, hashes_ofList, List.contains_iff_mem, mem_extendUnique]
  simp [normalize]

end MalwareHashes

/-! ## One file -/

theorem isTrustedHost_of_subset {host : String} {trusted more : List String}
    (h : trusted ⊆ more) (covered : isTrustedHost host trusted = true) :
    isTrustedHost host more = true := by
  rw [isTrustedHost, List.any_eq_true] at covered ⊢
  obtain ⟨domain, listed, covers⟩ := covered
  exact ⟨domain, h listed, covers⟩

namespace NetworkUse

theorem untrustedHost?_isSome {trusted more : List String} {content : List Char}
    (h : trusted ⊆ more) (found : (untrustedHost? more content).isSome = true) :
    (untrustedHost? trusted content).isSome = true := by
  rw [untrustedHost?, List.find?_isSome] at found ⊢
  obtain ⟨host, mem, untrusted⟩ := found
  refine ⟨host, mem, ?_⟩
  rw [Bool.not_eq_true'] at untrusted ⊢
  rw [← Bool.not_eq_true] at untrusted ⊢
  exact fun covered => untrusted (isTrustedHost_of_subset h covered)

/-- The issues of a text are of different kinds. -/
theorem nodup_issues (trusted : List String) (content : List Char) :
    (issues trusted content).Nodup := by
  rw [issues]
  cases untrustedHost? trusted content <;> split <;> split <;> simp

theorem length_issues_le {trusted more : List String} (content : List Char)
    (h : trusted ⊆ more) :
    (issues more content).length ≤ (issues trusted content).length := by
  have host : ((untrustedHost? more content).map NetworkIssue.suspiciousUrl).toList.length ≤
      ((untrustedHost? trusted content).map NetworkIssue.suspiciousUrl).toList.length := by
    cases found : untrustedHost? more content with
    | none => exact Nat.zero_le _
    | some host =>
      have some_host := untrustedHost?_isSome h (by rw [found]; rfl)
      obtain ⟨other, eq⟩ := Option.isSome_iff_exists.mp some_host
      rw [eq]
      exact Nat.le_refl _
  simp only [issues, List.length_append]
  omega

end NetworkUse

namespace ScoreInput

/-- No issue is dropped as a repetition if there are none. -/
theorem length_distinctIssues {f : FileFinding} (distinct : f.networkIssues.Nodup) :
    (distinctIssues f).length = f.networkIssues.length := by
  have sorted := (List.mergeSort_perm f.networkIssues NetworkIssue.le).nodup_iff.mpr distinct
  rw [distinctIssues, List.eraseReps_of_nodup sorted, List.length_mergeSort]

end ScoreInput

namespace Inspector

variable {i j : Inspector} {file : SourceFile}

/-- What the first inspector looks for, the second one looks for too. -/
structure Stricter (i j : Inspector) : Prop where
  rules : j.rules = i.rules
  hashes : ∀ hash, i.hashes.contains hash = true → j.hashes.contains hash = true
  filenames : i.options.maliciousFilenames ⊆ j.options.maliciousFilenames
  trusted : j.options.trustedDomains ⊆ i.options.trustedDomains

theorem Stricter.isDenied (h : i.Stricter j) {name : Option String}
    (denied : i.isDenied name = true) : j.isDenied name = true := by
  cases name with
  | none => exact denied
  | some name =>
    simp only [Inspector.isDenied, Option.any_some, Bool.and_eq_true, List.any_eq_true] at denied ⊢
    obtain ⟨named, listed, mem, same⟩ := denied
    exact ⟨named, listed, h.filenames mem, same⟩

theorem Stricter.isKnownMalware (h : i.Stricter j)
    (known : (i.inspectFile file).isKnownMalware = true) :
    (j.inspectFile file).isKnownMalware = true := by
  rw [inspectFile] at known ⊢
  cases content : file.content with
  | error e => simp [content] at known
  | ok bytes =>
    simp only [content] at known ⊢
    by_cases listed : i.hashes.contains (Sha256.hexDigest bytes) = true
    · rw [if_pos (h.hashes _ listed)]
    · rw [if_neg listed] at known
      simp [inspectText] at known

/-- A file that is no known malware is reported with everything that is found in its text. -/
theorem inspectFile_of_clean (clean : (i.inspectFile file).isKnownMalware = false) :
    (∃ e, file.content = .error e ∧
      i.inspectFile file =
        { path := file.label
          suspiciousFilename := i.isDenied file.fileName
          error := some ("failed to analyze file: " ++ e.message) }) ∨
    ∃ bytes, file.content = .ok bytes ∧
      i.inspectFile file =
        { i.inspectText file.label (Utf8.decodeLossy bytes) with
          suspiciousFilename := i.isDenied file.fileName
          contentHash := some (Sha256.hexDigest bytes) } := by
  rw [Inspector.inspectFile] at clean ⊢
  cases content : file.content with
  | error e => exact .inl ⟨e, rfl, rfl⟩
  | ok bytes =>
    simp only [content] at clean
    refine .inr ⟨bytes, rfl, ?_⟩
    by_cases listed : i.hashes.contains (Sha256.hexDigest bytes) = true
    · simp [listed] at clean
    · exact if_neg listed

/-- Without malware a file shows the same suspicious code and costs no fewer points. -/
theorem Stricter.inspectFile (h : i.Stricter j)
    (clean : (j.inspectFile file).isKnownMalware = false) :
    (j.inspectFile file).patterns = (i.inspectFile file).patterns ∧
      ScoreInput.filePoints (i.inspectFile file) ≤ ScoreInput.filePoints (j.inspectFile file) := by
  have unknown : (i.inspectFile file).isKnownMalware = false := by
    rw [← Bool.not_eq_true]
    exact fun known => absurd (h.isKnownMalware known) (by simp [clean])
  have denied : (i.isDenied file.fileName).toNat ≤ (j.isDenied file.fileName).toNat :=
    ScoreInput.toNat_le_of_imp h.isDenied
  rcases inspectFile_of_clean clean with ⟨e, failed, found⟩ | ⟨bytes, read, found⟩ <;>
    rcases inspectFile_of_clean unknown with ⟨e', failed', found'⟩ | ⟨bytes', read', found'⟩
  · rw [found, found']
    refine ⟨rfl, ?_⟩
    simp only [ScoreInput.filePoints]
    rw [ScoreInput.length_distinctIssues List.nodup_nil,
      ScoreInput.length_distinctIssues List.nodup_nil]
    simp only [List.length_nil]
    omega
  · cases failed.symm.trans read'
  · cases read.symm.trans failed'
  · obtain rfl : bytes = bytes' := Except.ok.inj (read.symm.trans read')
    have issues := NetworkUse.length_issues_le (Utf8.decodeLossy bytes) h.trusted
    rw [found, found']
    refine ⟨by simp only [inspectText, patternsOf, h.rules], ?_⟩
    simp only [ScoreInput.filePoints, inspectText]
    rw [ScoreInput.length_distinctIssues (NetworkUse.nodup_issues _ _),
      ScoreInput.length_distinctIssues (NetworkUse.nodup_issues _ _)]
    simp only
    omega

end Inspector

/-! ## A tree of files -/

/-- The second findings show malware if the first do, and otherwise cost no fewer points. -/
structure Outweighed (findings others : List FileFinding) : Prop where
  malware : findings.any (·.isKnownMalware) = true → others.any (·.isKnownMalware) = true
  patterns : others.any (·.isKnownMalware) = false →
    ScoreInput.patternPoints findings ≤ ScoreInput.patternPoints others
  files : others.any (·.isKnownMalware) = false →
    (findings.map ScoreInput.filePoints).sum ≤ (others.map ScoreInput.filePoints).sum

theorem Outweighed.refl (findings : List FileFinding) : Outweighed findings findings :=
  ⟨fun h => h, fun _ => Nat.le_refl _, fun _ => Nat.le_refl _⟩

/-- No findings are outweighed by any. -/
theorem Outweighed.nil (others : List FileFinding) : Outweighed [] others where
  malware h := by simp at h
  patterns _ := ScoreInput.patternPoints_le fun c h => by simp at h
  files _ := Nat.zero_le _

section ThroughFirst

variable {α : Type} {test : α → Bool} {items : List α}

theorem any_throughFirst : (throughFirst test items).any test = items.any test := by
  induction items with
  | nil => rfl
  | cons a items ih =>
    rw [throughFirst]
    split
    · rename_i found
      simp [found]
    · rename_i other
      simp [other, ih]

theorem throughFirst_of_none (none : items.any test = false) : throughFirst test items = items := by
  induction items with
  | nil => rfl
  | cons a items ih =>
    obtain ⟨first, rest⟩ := Bool.or_eq_false_iff.mp none
    rw [throughFirst, if_neg (by simp [first]), ih rest]

end ThroughFirst

namespace FileTree

/-- More extensions, more files. -/
theorem sources_subperm {extensions more : List String} (t : FileTree) (root : String)
    (h : extensions ⊆ more) : (t.sources root extensions).Subperm (t.sources root more) := by
  have wanted {name : String} (has : hasExtension extensions name = true) :
      hasExtension more name = true := by
    rw [hasExtension] at has ⊢
    cases found : extension? name with
    | none => simp [found] at has
    | some extension =>
      simp only [found, Option.any_some, List.any_eq_true] at has ⊢
      obtain ⟨listed, mem, same⟩ := has
      exact ⟨listed, h mem, same⟩
  have files (base : Path) :
      (t.sourceFiles base extensions).Subperm (t.sourceFiles base more) := by
    rw [sourceFiles]
    refine (List.mergeSort_perm _ _).subperm.trans
      (List.Subperm.trans (List.Sublist.subperm ?_) (List.mergeSort_perm _ _).symm.subperm)
    apply List.monotone_filter_right _
    intro file has
    obtain ⟨name, mem, has⟩ := (Option.any_eq_true _ _).mp has
    exact (Option.any_eq_true _ _).mpr ⟨name, mem, wanted has⟩
  unfold sources
  cases t.resolve root with
  | error e => exact .refl _
  | ok base =>
    have unlessLink (link : Bool) {l l' : List SourceFile} (h : l.Subperm l') :
        (if link then [] else l).Subperm (if link then [] else l') := by
      cases link with
      | true => exact .refl _
      | false => exact h
    obtain ⟨kept, perm, sublist⟩ := files base
    exact unlessLink _ ⟨kept.map _, perm.map _, sublist.map _⟩

end FileTree

/-- A stricter inspector that looks at more files finds at least as much. -/
theorem Inspector.Stricter.inspectTree {i j : Inspector} (h : i.Stricter j) (t : FileTree)
    (root : String) {extensions more : List String} (subset : extensions ⊆ more) :
    Outweighed (i.inspectTree t root extensions) (j.inspectTree t root more) := by
  have files := t.sources_subperm root subset
  unfold Inspector.inspectTree Inspector.inspect
  have malware : ((t.sources root extensions).map i.inspectFile).any (·.isKnownMalware) = true →
      ((t.sources root more).map j.inspectFile).any (·.isKnownMalware) = true := by
    simp only [List.any_map, List.any_eq_true, Function.comp_apply]
    exact fun ⟨file, mem, known⟩ => ⟨file, files.subset mem, h.isKnownMalware known⟩
  -- Without malware nothing is cut off on either side.
  have whole (clean : ((t.sources root more).map j.inspectFile).any (·.isKnownMalware) = false) :
      throughFirst FileFinding.isKnownMalware ((t.sources root extensions).map i.inspectFile) =
        (t.sources root extensions).map i.inspectFile := by
    apply throughFirst_of_none
    rw [← Bool.not_eq_true] at clean ⊢
    exact fun known => clean (malware known)
  have clean_file (clean : ((t.sources root more).map j.inspectFile).any (·.isKnownMalware) = false)
      (file : SourceFile) (mem : file ∈ t.sources root more) :
      (j.inspectFile file).isKnownMalware = false := by
    rw [List.any_map, List.any_eq_false] at clean
    simpa using clean file mem
  refine ⟨?_, ?_, ?_⟩ <;> rw [any_throughFirst]
  · rw [any_throughFirst]
    exact malware
  · intro clean
    rw [whole clean, throughFirst_of_none clean]
    apply ScoreInput.patternPoints_le
    intro c
    simp only [List.any_map, List.any_eq_true, Function.comp_apply]
    rintro ⟨file, mem, pattern⟩
    have mem := files.subset mem
    exact ⟨file, mem, (h.inspectFile (clean_file clean file mem)).1 ▸ pattern⟩
  · intro clean
    rw [whole clean, throughFirst_of_none clean, List.map_map, List.map_map]
    have each : ∀ file ∈ t.sources root extensions,
        ScoreInput.filePoints (i.inspectFile file) ≤ ScoreInput.filePoints (j.inspectFile file) :=
      fun file mem => (h.inspectFile (clean_file clean file (files.subset mem))).2
    exact (List.sum_le_sum each).trans (ScoreInput.sum_map_le_of_subperm _ files)

end PackageRisk
