import PackageRisk.Proofs.Settings.Documents
import PackageRisk.Proofs.Settings.Entries
import PackageRisk.Settings.Store

/-!
# Layers of settings

What the global file and the file of a project come to. Of a single setting the project's value
counts, then the global one, then the default; a time limit or a number of lookups that is zero
counts as the default. Lists are built up from the built-in entries. Each file is judged by itself,
so a fault in one of them is not made good by the other.
-/

namespace PackageRisk

/-! ## Files -/

/-- A file with a text stands in the place. -/
def SettingsPlace.HoldsText (place : SettingsPlace) (text : String) : Prop :=
  ∃ content, place.stored = .file content ∧ Utf8.decode? content = some text

/-- A file with a document stands in the place. -/
def SettingsPlace.HoldsTable (place : SettingsPlace) (table : Toml.Table) : Prop :=
  ∃ text, place.HoldsText text ∧ Toml.parse? text = some table

namespace SettingsOverlay

/-- The threshold is within bounds, if there is one. -/
def InRange (o : SettingsOverlay) : Prop :=
  ∀ value, o.scoreThreshold = some value → 0 ≤ value ∧ value ≤ maxThreshold

/-- What the file in a place sets; nothing if there is no such place or no file in it. -/
inductive OfPlace : Option SettingsPlace → SettingsOverlay → Prop
  | nowhere : OfPlace none {}
  | absent {place : SettingsPlace} (absent : place.stored = .absent) : OfPlace (some place) {}
  | file {place : SettingsPlace} {table : Toml.Table} {o : SettingsOverlay}
      (holds : place.HoldsTable table) (sets : o.SetBy table) : OfPlace (some place) o

end SettingsOverlay

/-- What can be wrong with a configuration file. -/
inductive FileFault where
  | unreadable
  | notToml
  | illTyped
  | outOfRange
  deriving DecidableEq, Repr

/-- Something is wrong with the file in a place. -/
inductive SettingsPlace.Suffers (place : SettingsPlace) : FileFault → Prop
  | directory (stored : place.stored = .directory) : Suffers place .unreadable
  | notUtf8 {content : ByteArray} (stored : place.stored = .file content)
      (undecoded : Utf8.decode? content = none) : Suffers place .unreadable
  | notToml {text : String} (holds : place.HoldsText text) (unparsed : Toml.parse? text = none) :
      Suffers place .notToml
  | illTyped {table : Toml.Table} (holds : place.HoldsTable table) (spoilt : IllTyped table) :
      Suffers place .illTyped
  | outOfRange {table : Toml.Table} {o : SettingsOverlay} (holds : place.HoldsTable table)
      (sets : o.SetBy table) (beyond : ¬ o.InRange) : Suffers place .outOfRange

namespace SettingsPlace

variable {place : SettingsPlace} {table : Toml.Table} {text : String}

theorem table_absent (absent : place.stored = .absent) : place.table = .ok [] := by
  rw [SettingsPlace.table, text?, absent]
  rfl

theorem HoldsText.text?_eq (holds : place.HoldsText text) : place.text? = .ok (some text) := by
  obtain ⟨content, stored, decoded⟩ := holds
  simp only [text?, stored, decoded]

theorem HoldsTable.table_eq (holds : place.HoldsTable table) : place.table = .ok table := by
  obtain ⟨text, holds, parsed⟩ := holds
  rw [SettingsPlace.table, holds.text?_eq]
  simp only [bind, Except.bind, parsed]

theorem table_notToml (holds : place.HoldsText text) (unparsed : Toml.parse? text = none) :
    place.table = .error (.malformed place.path) := by
  rw [SettingsPlace.table, holds.text?_eq]
  simp only [bind, Except.bind, unparsed]

theorem Suffers.table_unreadable (suffers : place.Suffers .unreadable) :
    ∃ fault, place.table = .error (.unreadable place.path fault) := by
  cases suffers with
  | directory stored =>
    refine ⟨.isADirectory, ?_⟩
    rw [SettingsPlace.table, text?, stored]
    rfl
  | notUtf8 stored undecoded =>
    refine ⟨.notUtf8, ?_⟩
    simp only [SettingsPlace.table, text?, stored, undecoded, bind, Except.bind]

/-- A file that is no document is rejected without a cause of its own. -/
theorem Suffers.exists_table_error {fault : FileFault} (suffers : place.Suffers fault)
    (spoilt : fault = .unreadable ∨ fault = .notToml) :
    ∃ e, place.table = .error e ∧ e.failure? = none := by
  obtain rfl | rfl := spoilt
  · obtain ⟨cause, unread⟩ := suffers.table_unreadable
    exact ⟨_, unread, rfl⟩
  · cases suffers with
    | notToml holds unparsed => exact ⟨_, table_notToml holds unparsed, rfl⟩

theorem Suffers.exists_table {fault : FileFault} (suffers : place.Suffers fault)
    (legible : fault = .illTyped ∨ fault = .outOfRange) : ∃ table, place.table = .ok table := by
  obtain rfl | rfl := legible
  · cases suffers with
    | illTyped holds spoilt => exact ⟨_, holds.table_eq⟩
  · cases suffers with
    | outOfRange holds sets beyond => exact ⟨_, holds.table_eq⟩

/-- What can stand in a place. -/
theorem cases (place : SettingsPlace) :
    place.stored = .absent ∨ place.Suffers .unreadable ∨ place.Suffers .notToml ∨
      ∃ table, place.HoldsTable table := by
  cases stored : place.stored with
  | absent => exact .inl rfl
  | directory => exact .inr (.inl (.directory stored))
  | file content =>
    cases decoded : Utf8.decode? content with
    | none => exact .inr (.inl (.notUtf8 stored decoded))
    | some text =>
      have holds : place.HoldsText text := ⟨content, stored, decoded⟩
      cases parsed : Toml.parse? text with
      | none => exact .inr (.inr (.inl (.notToml holds parsed)))
      | some table => exact .inr (.inr (.inr ⟨table, text, holds, parsed⟩))

end SettingsPlace

/-- What a file sets is set by its document. -/
theorem SettingsOverlay.OfPlace.exists_table {place : SettingsPlace} {o : SettingsOverlay}
    (sets : OfPlace (some place) o) : ∃ table, place.table = .ok table ∧ o.SetBy table := by
  cases sets with
  | absent absent =>
    exact ⟨[], SettingsPlace.table_absent absent, ofTable?_eq_some_iff.mp rfl⟩
  | file holds sets => exact ⟨_, holds.table_eq, sets⟩

/-! ## One layer -/

namespace Settings

/-- The settings with those of a file. -/
def merged (s : Settings) (o : SettingsOverlay) : Settings where
  scoreThreshold := (o.scoreThreshold.map Int.toNat).getD s.scoreThreshold
  blockInstall := o.blockInstall.getD s.blockInstall
  autoCheck := o.autoCheck.getD s.autoCheck
  analysis := s.analysis.overlaid o.analysis
  inspection := s.inspection.overlaid o.inspection
  malwareHashes := extended s.malwareHashes o.malwareHashes
  useOsv := o.useOsv.getD s.useOsv

theorem overlaid_eq {o : SettingsOverlay} (inRange : o.InRange) (s : Settings) :
    s.overlaid o = .ok (s.merged o) := by
  unfold overlaid merged
  cases threshold : o.scoreThreshold with
  | none => rfl
  | some value =>
    simp only [checkThreshold_eq_ok (inRange value threshold)]
    rfl

/-- A threshold that is out of bounds spoils the file, whatever the other settings are. -/
theorem exists_overlaid_error {o : SettingsOverlay} (beyond : ¬ o.InRange) :
    ∃ f, ∀ s : Settings, s.overlaid o = .error f := by
  simp only [SettingsOverlay.InRange, not_forall] at beyond
  obtain ⟨value, threshold, beyond⟩ := beyond
  obtain ⟨f, rejected⟩ := exists_checkThreshold_error beyond
  refine ⟨f, fun s => ?_⟩
  unfold overlaid
  simp only [threshold, rejected]
  rfl

open SettingsOverlay (OfPlace)

theorem withPlace?_eq {place : Option SettingsPlace} {o : SettingsOverlay}
    (sets : OfPlace place o) (inRange : o.InRange) (s : Settings) :
    s.withPlace? place = .ok (s.merged o) := by
  cases place with
  | none =>
    cases sets
    rfl
  | some place =>
    obtain ⟨table, read, set⟩ := sets.exists_table
    rw [withPlace?, withPlace, read]
    simp only [bind, Except.bind, SettingsOverlay.ofTable?_eq_some_iff.mpr set,
      overlaid_eq inRange s, Except.mapError]

theorem withPlace_error {place : SettingsPlace} {e : SettingsError}
    (failed : place.table = .error e) (s : Settings) : s.withPlace place = .error e := by
  rw [withPlace, failed]
  rfl

/-- A file with a fault is rejected for one reason, whatever was set before. -/
theorem exists_withPlace_error {place : SettingsPlace} {fault : FileFault}
    (suffers : place.Suffers fault) : ∃ e, ∀ s : Settings, s.withPlace place = .error e := by
  cases fault with
  | unreadable =>
    obtain ⟨e, unread, -⟩ := suffers.exists_table_error (.inl rfl)
    exact ⟨e, withPlace_error unread⟩
  | notToml =>
    obtain ⟨e, unread, -⟩ := suffers.exists_table_error (.inr rfl)
    exact ⟨e, withPlace_error unread⟩
  | illTyped =>
    cases suffers with
    | illTyped holds spoilt =>
      have untyped := SettingsOverlay.ofTable?_eq_none_iff.mpr spoilt
      refine ⟨.malformed place.path, fun s => ?_⟩
      rw [withPlace, holds.table_eq]
      simp only [bind, Except.bind, untyped]
  | outOfRange =>
    cases suffers with
    | outOfRange holds sets beyond =>
      have typed := SettingsOverlay.ofTable?_eq_some_iff.mpr sets
      obtain ⟨f, rejected⟩ := exists_overlaid_error beyond
      refine ⟨.invalid place.path f, fun s => ?_⟩
      rw [withPlace, holds.table_eq]
      simp only [bind, Except.bind, typed, rejected s, Except.mapError]

/-- A file sets something, or there is a fault in it. -/
theorem sets_or_suffers (place : Option SettingsPlace) :
    (∃ o, OfPlace place o ∧ o.InRange) ∨ ∃ p fault, place = some p ∧ p.Suffers fault := by
  cases place with
  | none => exact .inl ⟨{}, .nowhere, nofun⟩
  | some place =>
    obtain absent | unreadable | notToml | ⟨table, holds⟩ := place.cases
    · exact .inl ⟨{}, .absent absent, nofun⟩
    · exact .inr ⟨place, .unreadable, rfl, unreadable⟩
    · exact .inr ⟨place, .notToml, rfl, notToml⟩
    · by_cases spoilt : IllTyped table
      · exact .inr ⟨place, .illTyped, rfl, .illTyped holds spoilt⟩
      · obtain ⟨o, sets⟩ := SettingsOverlay.exists_setBy spoilt
        by_cases inRange : o.InRange
        · exact .inl ⟨o, .file holds sets, inRange⟩
        · exact .inr ⟨place, .outOfRange, rfl, .outOfRange holds sets inRange⟩

/-- What was set before has no part in the rejection of a file. -/
theorem withPlace?_error {place : Option SettingsPlace} {e : SettingsError} {s : Settings}
    (rejected : s.withPlace? place = .error e) (t : Settings) :
    t.withPlace? place = .error e := by
  obtain ⟨o, sets, inRange⟩ | ⟨p, fault, rfl, suffers⟩ := sets_or_suffers place
  · rw [withPlace?_eq sets inRange] at rejected
    cases rejected
  · obtain ⟨e', always⟩ := exists_withPlace_error suffers
    rw [withPlace?, always, ← rejected, withPlace?, always]

/-! ## Both layers -/

/-- Of a setting in two layers the project's value counts, then the global one. -/
def effective {α : Type} (global project : Option α) (default : α) : α :=
  (project.or global).getD default

/-- The same for a number that has to be positive. Zero counts as the default. -/
def effectivePositive (global project : Option Nat) (default : Nat) : Nat :=
  match project.or global with
  | none | some 0 => default
  | some n => n

/-- The settings that two files come to. -/
structure Layered (global project : SettingsOverlay) (s : Settings) : Prop where
  scoreThreshold : (s.scoreThreshold : Int) =
    effective global.scoreThreshold project.scoreThreshold ({} : Settings).scoreThreshold
  blockInstall : s.blockInstall =
    effective global.blockInstall project.blockInstall ({} : Settings).blockInstall
  autoCheck : s.autoCheck =
    effective global.autoCheck project.autoCheck ({} : Settings).autoCheck
  maxDependencyDepth : s.analysis.maxDependencyDepth =
    effective global.analysis.maxDependencyDepth project.analysis.maxDependencyDepth
      ({} : AnalysisSettings).maxDependencyDepth
  fetchTimeoutSeconds : s.analysis.fetchTimeoutSeconds =
    effectivePositive global.analysis.fetchTimeoutSeconds project.analysis.fetchTimeoutSeconds
      ({} : AnalysisSettings).fetchTimeoutSeconds
  maxConcurrentFetches : s.analysis.maxConcurrentFetches =
    effectivePositive global.analysis.maxConcurrentFetches project.analysis.maxConcurrentFetches
      ({} : AnalysisSettings).maxConcurrentFetches
  inspectDependencyFiles : s.analysis.inspectDependencyFiles =
    effective global.analysis.inspectDependencyFiles project.analysis.inspectDependencyFiles
      ({} : AnalysisSettings).inspectDependencyFiles
  fileExtensions : BuiltUp defaultExtensions global.inspection.fileExtensions
    project.inspection.fileExtensions s.inspection.fileExtensions
  trustedDomains : BuiltUp defaultTrustedDomains global.inspection.trustedDomains
    project.inspection.trustedDomains s.inspection.trustedDomains
  maliciousFilenames : BuiltUp defaultMaliciousFilenames global.inspection.maliciousFilenames
    project.inspection.maliciousFilenames s.inspection.maliciousFilenames
  malwareHashes : BuiltUp [] global.malwareHashes project.malwareHashes s.malwareHashes
  useOsv : s.useOsv = effective global.useOsv project.useOsv ({} : Settings).useOsv

/-- Settings within bounds, whose lists the inspector takes over as they are. -/
structure Sound (s : Settings) : Prop where
  threshold : s.scoreThreshold ≤ 100
  timeout : 1 ≤ s.analysis.fetchTimeoutSeconds
  concurrency : 1 ≤ s.analysis.maxConcurrentFetches
  options :
    InspectionOptions.withExtras s.inspection.trustedDomains s.inspection.maliciousFilenames =
      ⟨s.inspection.trustedDomains, s.inspection.maliciousFilenames⟩

theorem effective_eq {α : Type} (global project : Option α) (default : α) :
    effective global project default = project.getD (global.getD default) := by
  cases project <;> rfl

theorem effectivePositive_eq (global project : Option Nat) (default : Nat) :
    effectivePositive global project default =
      (project.map (positiveOr default)).getD ((global.map (positiveOr default)).getD default) := by
  cases project with
  | none =>
    cases global with
    | none => rfl
    | some n => cases n <;> rfl
  | some n => cases n <;> rfl

theorem effectivePositive_pos (global project : Option Nat) {default : Nat} (pos : 1 ≤ default) :
    1 ≤ effectivePositive global project default := by
  unfold effectivePositive
  split
  · exact pos
  · exact pos
  · rename_i n nonzero _
    exact Nat.one_le_iff_ne_zero.mpr nonzero

theorem allNormal_trustedDomains : AllNormal defaultTrustedDomains := by
  unfold AllNormal
  decide +kernel

theorem allNormal_maliciousFilenames : AllNormal defaultMaliciousFilenames := by
  unfold AllNormal
  decide +kernel

section

variable {global project : SettingsOverlay} {s t : Settings}

theorem effective_inRange (globalInRange : global.InRange) (projectInRange : project.InRange) :
    0 ≤ effective global.scoreThreshold project.scoreThreshold ({} : Settings).scoreThreshold ∧
      effective global.scoreThreshold project.scoreThreshold ({} : Settings).scoreThreshold ≤
        maxThreshold := by
  rw [effective_eq]
  cases ofProject : project.scoreThreshold with
  | some value => exact projectInRange value ofProject
  | none =>
    cases ofGlobal : global.scoreThreshold with
    | some value => exact globalInRange value ofGlobal
    | none => decide

theorem layered_merged (globalInRange : global.InRange) (projectInRange : project.InRange) :
    Layered global project ((merged {} global).merged project) where
  scoreThreshold := by
    have ⟨nonneg, _⟩ := effective_inRange globalInRange projectInRange
    rw [← Int.toNat_of_nonneg nonneg, effective_eq]
    simp only [merged]
    cases project.scoreThreshold with
    | some value => rfl
    | none => cases global.scoreThreshold <;> rfl
  blockInstall := (effective_eq ..).symm
  autoCheck := (effective_eq ..).symm
  maxDependencyDepth := (effective_eq ..).symm
  fetchTimeoutSeconds := (effectivePositive_eq ..).symm
  maxConcurrentFetches := (effectivePositive_eq ..).symm
  inspectDependencyFiles := (effective_eq ..).symm
  fileExtensions := (builtUp_extended_iff (by decide)).mpr rfl
  trustedDomains := (builtUp_extended_iff (by decide)).mpr rfl
  maliciousFilenames := (builtUp_extended_iff (by decide)).mpr rfl
  malwareHashes := (builtUp_extended_iff List.nodup_nil).mpr rfl
  useOsv := (effective_eq ..).symm

/-- Two layers leave nothing open. -/
theorem Layered.unique (h : Layered global project s) (h' : Layered global project t) : s = t := by
  obtain ⟨threshold, block, check, ⟨_, _, _, _⟩, ⟨_, _, _⟩, hashes, osv⟩ := s
  obtain rfl := Int.ofNat.inj (h.scoreThreshold.trans h'.scoreThreshold.symm)
  obtain rfl := h.blockInstall.trans h'.blockInstall.symm
  obtain rfl := h.autoCheck.trans h'.autoCheck.symm
  obtain rfl := h.maxDependencyDepth.trans h'.maxDependencyDepth.symm
  obtain rfl := h.fetchTimeoutSeconds.trans h'.fetchTimeoutSeconds.symm
  obtain rfl := h.maxConcurrentFetches.trans h'.maxConcurrentFetches.symm
  obtain rfl := h.inspectDependencyFiles.trans h'.inspectDependencyFiles.symm
  obtain rfl := h.fileExtensions.entries_eq.trans h'.fileExtensions.entries_eq.symm
  obtain rfl := h.trustedDomains.entries_eq.trans h'.trustedDomains.entries_eq.symm
  obtain rfl := h.maliciousFilenames.entries_eq.trans h'.maliciousFilenames.entries_eq.symm
  obtain rfl := h.malwareHashes.entries_eq.trans h'.malwareHashes.entries_eq.symm
  obtain rfl := h.useOsv.trans h'.useOsv.symm
  rfl

theorem Layered.sound (globalInRange : global.InRange) (projectInRange : project.InRange)
    (h : Layered global project s) : s.Sound where
  threshold := by
    have ⟨_, below⟩ := effective_inRange globalInRange projectInRange
    rw [← h.scoreThreshold] at below
    exact Int.ofNat_le.mp below
  timeout := h.fetchTimeoutSeconds ▸ effectivePositive_pos _ _ (by decide)
  concurrency := h.maxConcurrentFetches ▸ effectivePositive_pos _ _ (by decide)
  options := by
    rw [InspectionOptions.withExtras, h.trustedDomains.extendUnique_eq allNormal_trustedDomains,
      h.maliciousFilenames.extendUnique_eq allNormal_maliciousFilenames]

end

/-! ## Loading -/

/-- One of the files has a fault. -/
def Faulty (global project : Option SettingsPlace) : Prop :=
  ∃ place fault, (global = some place ∨ project = some place) ∧ place.Suffers fault

section

variable {global project : Option SettingsPlace} {g p : SettingsOverlay}

theorem load_eq (sets : OfPlace global g) (inRange : g.InRange) :
    load global project = (merged {} g).withPlace? project := by
  rw [load, withPlace?_eq sets inRange]
  rfl

theorem load_ok (globalSets : OfPlace global g) (globalInRange : g.InRange)
    (projectSets : OfPlace project p) (projectInRange : p.InRange) :
    load global project = .ok ((merged {} g).merged p) := by
  rw [load_eq globalSets globalInRange, withPlace?_eq projectSets projectInRange]

/-- Above a global file without a fault, the file of the project decides. -/
theorem load_eq_ok_iff (sets : OfPlace global g) (inRange : g.InRange) (s : Settings) :
    load global project = .ok s ↔ ∃ p, OfPlace project p ∧ p.InRange ∧ Layered g p s := by
  constructor
  · intro loaded
    obtain ⟨p, projectSets, projectInRange⟩ | ⟨place, fault, rfl, suffers⟩ :=
      sets_or_suffers project
    · rw [load_ok sets inRange projectSets projectInRange] at loaded
      obtain rfl := Except.ok.inj loaded
      exact ⟨p, projectSets, projectInRange, layered_merged inRange projectInRange⟩
    · obtain ⟨e, rejected⟩ := exists_withPlace_error suffers
      rw [load_eq sets inRange, withPlace?, rejected] at loaded
      cases loaded
  · rintro ⟨p, projectSets, projectInRange, layered⟩
    rw [load_ok sets inRange projectSets projectInRange,
      layered.unique (layered_merged inRange projectInRange)]

theorem load_error_of_global {place : SettingsPlace} {fault : FileFault}
    (suffers : place.Suffers fault) (project : Option SettingsPlace) :
    ∃ e, load (some place) project = .error e := by
  obtain ⟨e, rejected⟩ := exists_withPlace_error suffers
  refine ⟨e, ?_⟩
  rw [load, withPlace?, rejected]
  rfl

theorem load_error (faulty : Faulty global project) : ∃ e, load global project = .error e := by
  obtain ⟨place, fault, rfl | rfl, suffers⟩ := faulty
  · exact load_error_of_global suffers project
  · obtain ⟨g, sets, inRange⟩ | ⟨first, fault, rfl, spoilt⟩ := sets_or_suffers global
    · obtain ⟨e, rejected⟩ := exists_withPlace_error suffers
      exact ⟨e, (load_eq sets inRange).trans (rejected _)⟩
    · exact load_error_of_global spoilt _

theorem sets_or_faulty (global project : Option SettingsPlace) :
    (∃ g p, OfPlace global g ∧ OfPlace project p ∧ g.InRange ∧ p.InRange) ∨
      Faulty global project := by
  obtain ⟨g, globalSets, globalInRange⟩ | ⟨place, fault, here, suffers⟩ := sets_or_suffers global
  · obtain ⟨p, projectSets, projectInRange⟩ | ⟨place, fault, here, suffers⟩ :=
      sets_or_suffers project
    · exact .inl ⟨g, p, globalSets, projectSets, globalInRange, projectInRange⟩
    · exact .inr ⟨place, fault, .inr here, suffers⟩
  · exact .inr ⟨place, fault, .inl here, suffers⟩

end

/-- Settings are loaded layer by layer. They are those that the global file and the project's come
to, if each of the two is there without a fault or not there at all; a fault in either of them makes
loading fail. Loaded settings are within bounds. -/
theorem load_by_layers (global project : Option SettingsPlace) :
    (∀ s, load global project = .ok s ↔
      ∃ g p, OfPlace global g ∧ OfPlace project p ∧ g.InRange ∧ p.InRange ∧ Layered g p s ∧
        s.Sound) ∧
    ((∃ e, load global project = .error e) ↔
      ∃ place fault, (global = some place ∨ project = some place) ∧ place.Suffers fault) := by
  refine ⟨fun s => ⟨fun loaded => ?_, ?_⟩, fun ⟨e, failed⟩ => ?_, load_error⟩
  · obtain ⟨g, -, globalSets, -, globalInRange, -⟩ | faulty := sets_or_faulty global project
    · obtain ⟨p, projectSets, projectInRange, layered⟩ :=
        (load_eq_ok_iff globalSets globalInRange s).mp loaded
      exact ⟨g, p, globalSets, projectSets, globalInRange, projectInRange, layered,
        layered.sound globalInRange projectInRange⟩
    · obtain ⟨e, failed⟩ := load_error faulty
      cases loaded.symm.trans failed
  · rintro ⟨g, p, globalSets, projectSets, globalInRange, projectInRange, layered, -⟩
    exact (load_eq_ok_iff globalSets globalInRange s).mpr ⟨p, projectSets, projectInRange, layered⟩
  · obtain ⟨g, p, globalSets, projectSets, globalInRange, projectInRange⟩ | faulty :=
      sets_or_faulty global project
    · cases failed.symm.trans (load_ok globalSets globalInRange projectSets projectInRange)
    · exact faulty

end Settings

end PackageRisk
