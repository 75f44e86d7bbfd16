import PackageRisk.Proofs.Inspection.Labels

/-!
# Files up to the first malware

Files are inspected one after the other, up to the first whose content is known malware. Each
finding is about its own file: nothing is carried from one file to the next, and a file that cannot
be read gets a finding like any other and stops nothing. Of known malware only the hash and the name
are reported, of everything else that can be read the hash and the branching, too.
-/

namespace PackageRisk

/-- Either some element satisfies the test and the first such ends what is kept, or all are kept. -/
theorem throughFirst_cases {α : Type} (test : α → Bool) (l : List α) :
    (∃ before a after, l = before ++ a :: after ∧ (∀ b ∈ before, test b = false) ∧
      test a = true ∧ throughFirst test l = before ++ [a]) ∨
    (∀ b ∈ l, test b = false) ∧ throughFirst test l = l := by
  induction l with
  | nil => exact .inr ⟨List.forall_mem_nil _, rfl⟩
  | cons b l ih =>
    rw [throughFirst]
    by_cases hit : test b = true
    · rw [if_pos hit]
      exact .inl ⟨[], b, l, rfl, List.forall_mem_nil _, hit, rfl⟩
    · rw [if_neg hit]
      have miss : test b = false := Bool.eq_false_iff.mpr hit
      rcases ih with ⟨before, a, after, rfl, misses, hit, kept⟩ | ⟨misses, kept⟩
      · exact .inl ⟨b :: before, a, after, rfl, List.forall_mem_cons.mpr ⟨miss, misses⟩, hit,
          congrArg (b :: ·) kept⟩
      · exact .inr ⟨List.forall_mem_cons.mpr ⟨miss, misses⟩, congrArg (b :: ·) kept⟩

/-- Nothing but the name of the file deserves attention. -/
structure FileFinding.Unexamined (f : FileFinding) : Prop where
  patterns : f.patterns = []
  obfuscated : f.obfuscated = false
  obfuscationDensity : f.obfuscationDensity = .zero
  networkIssues : f.networkIssues = []
  dangerousPermissions : f.dangerousPermissions = false
  complexity : f.complexity = none

namespace Inspector

variable {i j : Inspector} {file : SourceFile} {files walked : List SourceFile}

/-! ## Where the walk ends -/

/-- The file can be read, and its content is known malware. -/
def Recognizes (i : Inspector) (file : SourceFile) : Prop :=
  ∃ content, file.content = .ok content ∧ i.hashes.contains (Sha256.hexDigest content) = true

/-- The last of the files is known malware. -/
def EndsInMalware (i : Inspector) (files : List SourceFile) : Prop :=
  ∃ file, files.getLast? = some file ∧ i.Recognizes file

/-- The shortest beginning of some files that ends in known malware, or all files if none does. -/
structure Walks (i : Inspector) (files walked : List SourceFile) : Prop where
  beginning : walked <+: files
  shortest : ∀ other, other <+: files → i.EndsInMalware other →
    i.EndsInMalware walked ∧ walked <+: other
  whole : (∀ other, other <+: files → ¬i.EndsInMalware other) → walked = files

/-- The files that are inspected: none follows one that is known malware. -/
def walk (i : Inspector) (files : List SourceFile) : List SourceFile :=
  throughFirst (fun file => (i.inspectFile file).isKnownMalware) files

theorem recognizes_iff : i.Recognizes file ↔ (i.inspectFile file).isKnownMalware = true :=
  isKnownMalware_inspectFile.symm

theorem recognizes_ok {label : String} {fileName : Option String} {content : ByteArray} :
    i.Recognizes ⟨label, fileName, .ok content⟩ ↔
      i.hashes.contains (Sha256.hexDigest content) = true := by
  simp only [Recognizes, Except.ok.injEq, exists_eq_left']

theorem walk_cases (i : Inspector) (files : List SourceFile) :
    (∃ before hit after, files = before ++ hit :: after ∧ (∀ file ∈ before, ¬i.Recognizes file) ∧
      i.Recognizes hit ∧ i.walk files = before ++ [hit]) ∨
    (∀ file ∈ files, ¬i.Recognizes file) ∧ i.walk files = files := by
  simp only [recognizes_iff, Bool.not_eq_true]
  exact throughFirst_cases _ files

theorem not_endsInMalware (clean : ∀ file ∈ files, ¬i.Recognizes file) : ¬i.EndsInMalware files :=
  fun ⟨file, last, recognized⟩ => clean file (List.mem_of_getLast? last) recognized

theorem walks_walk (i : Inspector) (files : List SourceFile) : i.Walks files (i.walk files) := by
  rcases i.walk_cases files with ⟨before, hit, after, rfl, clean, recognized, same⟩ | ⟨clean, same⟩
  · have beginning : before ++ [hit] <+: before ++ hit :: after := ⟨after, by simp⟩
    have ends : i.EndsInMalware (before ++ [hit]) := ⟨hit, List.getLast?_concat, recognized⟩
    rw [same]
    refine ⟨beginning, fun other begins ends' => ⟨ends, ?_⟩, fun none => ?_⟩
    · -- A shorter beginning would end in one of the files before the hit.
      rcases List.prefix_or_prefix_of_prefix beginning begins with within | within
      · exact within
      · rcases List.prefix_concat_iff.mp within with rfl | within
        · exact List.prefix_rfl
        · refine absurd ends' (not_endsInMalware fun file mem => ?_)
          exact clean file (within.subset mem)
    · exact absurd ends (none _ beginning)
  · rw [same]
    refine ⟨List.prefix_rfl, fun other begins ends => absurd ends ?_, fun _ => rfl⟩
    exact not_endsInMalware fun file mem => clean file (begins.subset mem)

/-- There is one finding for each inspected file. -/
theorem inspect_eq_map_walk (i : Inspector) (files : List SourceFile) :
    i.inspect files = (i.walk files).map i.inspectFile := by
  rw [inspect, throughFirst_map]
  rfl

/-- Known malware ends the walk. -/
theorem last_of_recognizes {n : Nat} (here : (i.walk files)[n]? = some file)
    (recognized : i.Recognizes file) : n + 1 = (i.walk files).length := by
  rcases i.walk_cases files with ⟨before, hit, after, rfl, clean, -, same⟩ | ⟨clean, same⟩
  · rw [same] at here ⊢
    rcases Nat.lt_or_ge n before.length with earlier | last
    · rw [List.getElem?_append_left earlier] at here
      exact absurd recognized (clean file (List.mem_of_getElem? here))
    · have inside := (List.getElem?_eq_some_iff.mp here).1
      rw [List.length_append, List.length_singleton] at inside ⊢
      omega
  · rw [same] at here
    exact absurd recognized (clean file (List.mem_of_getElem? here))

/-- Nothing else ends it before the end of the files. -/
theorem walk_eq_of_last {n : Nat} (here : (i.walk files)[n]? = some file)
    (unrecognized : ¬i.Recognizes file) (last : n + 1 = (i.walk files).length) :
    i.walk files = files := by
  rcases i.walk_cases files with ⟨before, hit, after, rfl, -, recognized, same⟩ | ⟨-, same⟩
  · rw [same, List.length_append, List.length_singleton, Nat.add_right_cancel_iff] at last
    rw [same, last, List.getElem?_concat_length] at here
    obtain rfl := Option.some.inj here
    exact absurd recognized unrecognized
  · exact same

/-! ## One file -/

/-- What a finding says of its file. -/
structure Reports (i : Inspector) (file : SourceFile) (f : FileFinding) : Prop where
  path : f.path = file.label
  suspiciousFilename : f.suspiciousFilename = i.isDenied file.fileName
  isKnownMalware : f.isKnownMalware = true ↔ i.Recognizes file
  unreadable : ∀ e, file.content = .error e →
    f.error = some ("failed to analyze file: " ++ e.message) ∧ f.contentHash = none ∧
      f.Unexamined ∧ f.hasRisk = f.suspiciousFilename
  readable : ∀ content, file.content = .ok content →
    f.error = none ∧ f.contentHash = some (Sha256.hexDigest content)
  recognized : i.Recognizes file → f.Unexamined
  examined : ∀ content, file.content = .ok content → ¬i.Recognizes file →
    f.complexity = some (Complexity.ofText (Utf8.decodeLossy content))

theorem unexamined_of_recognizes (recognized : i.Recognizes file) :
    (i.inspectFile file).Unexamined := by
  obtain ⟨content, read, known⟩ := recognized
  simp only [inspectFile, read, known, if_true]
  exact ⟨rfl, rfl, rfl, rfl, rfl, rfl⟩

theorem reports_inspectFile (i : Inspector) (file : SourceFile) :
    i.Reports file (i.inspectFile file) := by
  obtain ⟨label, fileName, content⟩ := file
  refine ⟨label_inspectFile _, ?_, recognizes_iff.symm, ?_, ?_, unexamined_of_recognizes, ?_⟩
  · rw [inspectFile]
    split
    · rfl
    · dsimp only
      split <;> rfl
  · rintro e rfl
    refine ⟨rfl, rfl, ⟨rfl, rfl, rfl, rfl, rfl, rfl⟩, ?_⟩
    simp [FileFinding.hasRisk, inspectFile]
  · rintro content rfl
    rw [inspectFile]
    dsimp only
    split <;> exact ⟨rfl, rfl⟩
  · rintro content rfl unrecognized
    rw [recognizes_ok] at unrecognized
    rw [inspectFile]
    dsimp only
    rw [if_neg unrecognized, inspectText]

/-- A finding depends on the file, the rules, the options and whether the file is known malware. -/
theorem inspectFile_congr (rules : j.rules = i.rules) (options : j.options = i.options)
    (same : j.Recognizes file ↔ i.Recognizes file) : j.inspectFile file = i.inspectFile file := by
  obtain ⟨label, fileName, content⟩ := file
  have denied : j.isDenied fileName = i.isDenied fileName := by
    unfold isDenied
    rw [options]
  cases content with
  | error e => simp only [inspectFile, denied]
  | ok content =>
    have known : j.hashes.contains (Sha256.hexDigest content) =
        i.hashes.contains (Sha256.hexDigest content) := by
      rw [Bool.eq_iff_iff, ← recognizes_ok, ← recognizes_ok]
      exact same
    simp only [inspectFile, known, denied, inspectText, patternsOf, rules, options]

theorem inspect_congr (rules : j.rules = i.rules) (options : j.options = i.options)
    (same : ∀ file ∈ files, j.Recognizes file ↔ i.Recognizes file) :
    j.inspect files = i.inspect files := by
  have each : files.map j.inspectFile = files.map i.inspectFile :=
    List.map_congr_left fun file mem => inspectFile_congr rules options (same file mem)
  rw [inspect, inspect, each]

/-- The inspection of files has one finding for each file of the shortest beginning that ends in
known malware, or of all files if none does. Every finding is about its own file, and no file but
known malware ends the walk. Other registries change the findings only if they tell one of these
files apart. -/
theorem inspect_until_malware (i : Inspector) (files : List SourceFile) :
    ∃ walked, i.Walks files walked ∧ i.inspect files = walked.map i.inspectFile ∧
      (∀ n file, walked[n]? = some file →
        i.Reports file (i.inspectFile file) ∧
          (i.Recognizes file → n + 1 = walked.length) ∧
          (¬i.Recognizes file → n + 1 = walked.length → walked = files)) ∧
      ∀ j : Inspector, j.rules = i.rules → j.options = i.options →
        (∀ file ∈ files, j.Recognizes file ↔ i.Recognizes file) →
          j.inspect files = i.inspect files := by
  refine ⟨i.walk files, i.walks_walk files, i.inspect_eq_map_walk files, fun n file here => ?_,
    fun j => inspect_congr⟩
  exact ⟨i.reports_inspectFile file, last_of_recognizes here, walk_eq_of_last here⟩

end Inspector

end PackageRisk
