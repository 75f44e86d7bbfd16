import PackageRisk.Proofs.Settings.Layers
import PackageRisk.Proofs.Text.Encoding

/-!
# Saving settings

An update goes into the document of the global file, in which everything else stays as it is. What
is loaded afterwards is what would be loaded if the values of the update stood in the old file; the
file of the project still has the last word. An update that is not written leaves the old file.
-/

namespace PackageRisk

/-- A document that is read as it was written. -/
def Toml.Table.Rereads (t : Toml.Table) : Prop :=
  Toml.parse? t.pretty = some t

namespace SettingsUpdate

variable {u : SettingsUpdate} {disk : Disk} {place : SettingsPlace} {table : Toml.Table}

/-! ## Documents -/

/-- The value of an update under a name. -/
def value? (u : SettingsUpdate) (name : String) : Option Toml.Value :=
  if name = "auto_check" then u.autoCheck.map .bool
  else if name = "score_threshold" then u.scoreThreshold.map fun n : Nat => .int n
  else if name = "block_install" then u.blockInstall.map .bool
  else none

/-- The names that an update may give a value to. -/
def names : List String :=
  ["auto_check", "score_threshold", "block_install"]

theorem value?_check (u : SettingsUpdate) : u.value? "auto_check" = u.autoCheck.map .bool := by
  simp only [value?, if_true]

theorem value?_threshold (u : SettingsUpdate) :
    u.value? "score_threshold" = (u.scoreThreshold.map Int.ofNat).map .int := by
  rw [value?, if_neg (by decide), if_pos rfl, Option.map_map]
  rfl

theorem value?_block (u : SettingsUpdate) :
    u.value? "block_install" = u.blockInstall.map .bool := by
  rw [value?, if_neg (by decide), if_neg (by decide), if_pos rfl]

theorem value?_eq_none (u : SettingsUpdate) {name : String} (other : name ∉ names) :
    u.value? name = none := by
  simp only [names, List.mem_cons, List.not_mem_nil, or_false, not_or] at other
  obtain ⟨check, threshold, block⟩ := other
  rw [value?, if_neg check, if_neg threshold, if_neg block]

theorem get?_assign_self (t : Toml.Table) (name : String) (v : Option Toml.Value) :
    (assign t name v).get? name = v.or (t.get? name) := by
  cases v with
  | none => rfl
  | some v => exact t.get?_set_self name v

theorem get?_assign_of_ne (t : Toml.Table) {name other : String} (ne : other ≠ name)
    (v : Option Toml.Value) : (assign t name v).get? other = t.get? other := by
  cases v with
  | none => rfl
  | some v => exact t.get?_set_of_ne ne v

/-- An updated document has the values of the update, and its own under all other names. -/
theorem get?_applyTo (u : SettingsUpdate) (t : Toml.Table) (name : String) :
    (u.applyTo t).get? name = (u.value? name).or (t.get? name) := by
  unfold applyTo value?
  split
  · subst name
    rw [get?_assign_of_ne _ (by decide), get?_assign_of_ne _ (by decide), get?_assign_self]
  · split
    · subst name
      rw [get?_assign_of_ne _ (by decide), get?_assign_self, get?_assign_of_ne _ (by decide)]
    · split
      · subst name
        rw [get?_assign_self, get?_assign_of_ne _ (by decide), get?_assign_of_ne _ (by decide)]
      · rename_i check threshold block
        rw [get?_assign_of_ne _ block, get?_assign_of_ne _ threshold, get?_assign_of_ne _ check]
        rfl

end SettingsUpdate

/-! ## Overlays -/

namespace SettingsOverlay

/-- What a file sets with the values of an update in it. -/
def updated (o : SettingsOverlay) (u : SettingsUpdate) : SettingsOverlay :=
  { o with
    scoreThreshold := (u.scoreThreshold.map Int.ofNat).or o.scoreThreshold
    blockInstall := u.blockInstall.or o.blockInstall
    autoCheck := u.autoCheck.or o.autoCheck }

theorem SetBy.applyTo {t : Toml.Table} {o : SettingsOverlay} (h : o.SetBy t) (u : SettingsUpdate) :
    (o.updated u).SetBy (u.applyTo t) := by
  have others {name : String} (other : name ∉ SettingsUpdate.names) :
      (u.applyTo t).get? name = t.get? name := by
    rw [u.get?_applyTo, u.value?_eq_none other, Option.none_or]
  refine ⟨?_, ?_, ?_, ?_, ?_, ?_, ?_⟩
  · rw [u.get?_applyTo, u.value?_threshold, h.scoreThreshold, ← Option.map_or]
    rfl
  · rw [u.get?_applyTo, u.value?_block, h.blockInstall, ← Option.map_or]
    rfl
  · rw [u.get?_applyTo, u.value?_check, h.autoCheck, ← Option.map_or]
    rfl
  · rw [others (by decide)]
    exact h.analysis
  · rw [others (by decide)]
    exact h.inspection
  · rw [others (by decide)]
    exact h.malwareHashes
  · rw [others (by decide)]
    exact h.useOsv

end SettingsOverlay

namespace SettingsUpdate

variable {u : SettingsUpdate} {disk : Disk} {place : SettingsPlace} {table : Toml.Table}

/-! ## Runs -/

/-- The threshold of an update is within bounds, if there is one. -/
def InRange (u : SettingsUpdate) : Prop :=
  ∀ n, u.scoreThreshold = some n → n ≤ maxThreshold

theorem check_eq_ok (inRange : u.InRange) : u.check = .ok () := by
  unfold check
  cases threshold : u.scoreThreshold with
  | none => rfl
  | some n =>
    have within : 0 ≤ (n : Int) ∧ (n : Int) ≤ maxThreshold :=
      ⟨Int.natCast_nonneg n, Int.ofNat_le.mpr (inRange n threshold)⟩
    simp only [checkThreshold_eq_ok within]
    rfl

theorem exists_check_error (beyond : ¬ u.InRange) : ∃ e, u.check = .error e := by
  simp only [InRange, not_forall] at beyond
  obtain ⟨n, threshold, beyond⟩ := beyond
  have outside : ¬ (0 ≤ (n : Int) ∧ (n : Int) ≤ maxThreshold) :=
    fun ⟨_, below⟩ => beyond (Int.ofNat_le.mp below)
  obtain ⟨f, rejected⟩ := exists_checkThreshold_error outside
  simp only [check, threshold, rejected]
  exact ⟨_, rfl⟩

theorem run_ofExcept_bind {α : Type} (x : Except SettingsError α)
    (next : α → ExceptT SettingsError (StateM StoredFile) Unit) (stored : StoredFile) :
    (MonadExcept.ofExcept x >>= next).run stored =
      match x with
      | .ok a => (next a).run stored
      | .error e => (.error e, stored) := by
  cases x <;> rfl

theorem run_saveOn_of_check {e : SettingsError} (rejected : u.check = .error e) (path : String)
    (stored : StoredFile) : (u.saveOn disk path).run stored = (.error e, stored) := by
  rw [saveOn, run_ofExcept_bind, rejected]

theorem run_saveOn_of_table {e : SettingsError} (inRange : u.InRange)
    (unread : place.table = .error e) :
    (u.saveOn disk place.path).run place.stored = (.error e, place.stored) := by
  rw [saveOn, run_ofExcept_bind, check_eq_ok inRange]
  refine (run_ofExcept_bind place.table _ place.stored).trans ?_
  rw [unread]

theorem run_overwrite (disk : Disk) (path : String) (content : ByteArray) (stored : StoredFile) :
    (disk.overwrite path content).run stored =
      match (disk.write content).2 with
      | some reason => (.error (.unwritten path reason), (disk.write content).1)
      | none => (.ok (), .file content) := by
  have written := disk.write_eq content
  unfold Disk.overwrite
  generalize disk.write content = outcome at written
  obtain ⟨left, fault⟩ := outcome
  cases fault with
  | some reason => rfl
  | none => rw [← written rfl]; rfl

/-- What becomes of a sound update of a file that can be read is up to the disk. -/
theorem run_saveOn (inRange : u.InRange) (read : place.table = .ok table) :
    (u.saveOn disk place.path).run place.stored =
      match disk.directoryFault with
      | some reason => (.error (.noDirectory place.path reason), place.stored)
      | none => (disk.overwrite place.path (u.applyTo table).pretty.toUTF8).run place.stored := by
  rw [saveOn, run_ofExcept_bind, check_eq_ok inRange]
  refine (run_ofExcept_bind place.table _ place.stored).trans ?_
  rw [read]
  dsimp only [Disk.makeDirectories]
  cases disk.directoryFault <;> rfl

theorem save_of_table_error {e : SettingsError} (inRange : u.InRange)
    (unread : place.table = .error e) : u.save (some place) = .error e := by
  rw [save, run_saveOn_of_table inRange unread]

/-- Without a fault of the disk a sound update succeeds. -/
theorem run_saveOn_faultless (inRange : u.InRange) (read : place.table = .ok table) :
    (u.saveOn {} place.path).run place.stored =
      (.ok (), .file (u.applyTo table).pretty.toUTF8) := by
  rw [run_saveOn inRange read]
  exact run_overwrite {} place.path _ place.stored

theorem save_of_table (inRange : u.InRange) (read : place.table = .ok table) :
    u.save (some place) =
      .ok { place with stored := .file (u.applyTo table).pretty.toUTF8 } := by
  rw [save, run_saveOn_faultless inRange read]

theorem exists_error_of_spoilt (disk : Disk)
    (spoilt : ¬ u.InRange ∨ place.Suffers .unreadable ∨ place.Suffers .notToml) :
    ∃ e, (u.saveOn disk place.path).run place.stored = (.error e, place.stored) := by
  by_cases inRange : u.InRange
  · have unread : ∃ e, place.table = .error e ∧ e.failure? = none := by
      obtain beyond | unreadable | notToml := spoilt
      · exact absurd inRange beyond
      · exact unreadable.exists_table_error (.inl rfl)
      · exact notToml.exists_table_error (.inr rfl)
    obtain ⟨e, unread, -⟩ := unread
    exact ⟨e, run_saveOn_of_table inRange unread⟩
  · obtain ⟨e, rejected⟩ := exists_check_error inRange
    exact ⟨e, run_saveOn_of_check rejected _ _⟩

/-- An update fails before anything is touched, or to write, or it was within bounds and the updated
document is written. -/
theorem saveOn_cases (u : SettingsUpdate) (disk : Disk) (place : SettingsPlace) :
    (∃ e, (u.saveOn disk place.path).run place.stored = (.error e, place.stored)) ∨
    (∃ reason left,
      (u.saveOn disk place.path).run place.stored = (.error (.unwritten place.path reason), left)) ∨
    (u.InRange ∧ ∃ table, place.table = .ok table ∧
      (u.saveOn disk place.path).run place.stored =
        (.ok (), .file (u.applyTo table).pretty.toUTF8)) := by
  by_cases inRange : u.InRange
  · cases read : place.table with
    | error e => exact .inl ⟨e, run_saveOn_of_table inRange read⟩
    | ok table =>
      have run : (u.saveOn disk place.path).run place.stored = _ := run_saveOn inRange read
      rw [run_overwrite] at run
      split at run
      · exact .inl ⟨_, run⟩
      · split at run
        · exact .inr (.inl ⟨_, _, run⟩)
        · exact .inr (.inr ⟨inRange, table, rfl, run⟩)
  · obtain ⟨e, rejected⟩ := exists_check_error inRange
    exact .inl ⟨e, run_saveOn_of_check rejected _ _⟩

/-- Only a failure to write can change the file. -/
theorem stored_of_error {e : SettingsError} {stored : StoredFile}
    (failed : (u.saveOn disk place.path).run place.stored = (.error e, stored)) :
    stored = place.stored ∨ ∃ reason, e = .unwritten place.path reason := by
  obtain ⟨e', run⟩ | ⟨reason, left, run⟩ | ⟨-, table, -, run⟩ := saveOn_cases u disk place
  · cases failed.symm.trans run
    exact .inl rfl
  · cases failed.symm.trans run
    exact .inr ⟨reason, rfl⟩
  · cases failed.symm.trans run

theorem written_of_ok {stored : StoredFile}
    (saved : (u.saveOn disk place.path).run place.stored = (.ok (), stored)) :
    u.InRange ∧ ∃ table, place.table = .ok table ∧
      stored = .file (u.applyTo table).pretty.toUTF8 := by
  obtain ⟨e, run⟩ | ⟨reason, left, run⟩ | ⟨inRange, table, read, run⟩ := saveOn_cases u disk place
  · cases saved.symm.trans run
  · cases saved.symm.trans run
  · cases saved.symm.trans run
    exact ⟨inRange, table, read, rfl⟩

/-! ## Saving and loading -/

open SettingsOverlay (OfPlace)

/-- The file in a place, which set `g` before, after an update. -/
structure Applied (u : SettingsUpdate) (before after : SettingsPlace) (g : SettingsOverlay) :
    Prop where
  table : ∃ old new, before.table = .ok old ∧ after.table = .ok new ∧
    ∀ name, new.get? name = (u.value? name).or (old.get? name)
  loads : ∀ project s, Settings.load (some after) project = .ok s ↔
    ∃ p, OfPlace project p ∧ p.InRange ∧ Settings.Layered (g.updated u) p s
  rejects : ∀ project e, Settings.load (some after) project = .error e ↔
    Settings.load (some before) project = .error e

theorem updated_inRange {o : SettingsOverlay} (inRange : o.InRange) (updateInRange : u.InRange) :
    (o.updated u).InRange := by
  intro value threshold
  cases new : u.scoreThreshold with
  | none =>
    simp only [SettingsOverlay.updated, new, Option.map_none, Option.none_or] at threshold
    exact inRange value threshold
  | some n =>
    simp only [SettingsOverlay.updated, new, Option.map_some, Option.some_or,
      Option.some.injEq] at threshold
    subst value
    exact ⟨Int.natCast_nonneg n, Int.ofNat_le.mpr (updateInRange n new)⟩

theorem applied_of_rereads {g : SettingsOverlay} (updateInRange : u.InRange)
    (sets : OfPlace (some place) g) (inRange : g.InRange) (read : place.table = .ok table)
    (rereads : (u.applyTo table).Rereads) :
    u.Applied place { place with stored := .file (u.applyTo table).pretty.toUTF8 } g := by
  obtain ⟨table', read', set⟩ := sets.exists_table
  obtain rfl := Except.ok.inj (read.symm.trans read')
  have holds : ({ place with stored := .file (u.applyTo table).pretty.toUTF8 } :
      SettingsPlace).HoldsTable (u.applyTo table) :=
    ⟨_, ⟨_, rfl, Utf8.decode?_toUTF8 _⟩, rereads⟩
  have setsNew := OfPlace.file holds (set.applyTo u)
  have inRangeNew := updated_inRange inRange updateInRange
  refine ⟨⟨table, _, read, holds.table_eq, u.get?_applyTo table⟩,
    fun project s => Settings.load_eq_ok_iff setsNew inRangeNew s, fun project e => ?_⟩
  rw [Settings.load_eq setsNew inRangeNew, Settings.load_eq sets inRange]
  exact ⟨fun rejected => Settings.withPlace?_error rejected _,
    fun rejected => Settings.withPlace?_error rejected _⟩

/-- An update that is out of bounds, or that is meant for a file which cannot be read, leaves the
file as it is, and so does every failure but one to write. A file that is there without a fault, or
not there at all, can be updated; when that succeeds, its document has the values of the update and
is the same otherwise, and settings are loaded as if those values had stood in the old file. The
document has to be one that is read as it was written. -/
theorem save_then_load (u : SettingsUpdate) (disk : Disk) (place : SettingsPlace) :
    (¬ u.InRange ∨ place.Suffers .unreadable ∨ place.Suffers .notToml →
      ∃ e, (u.saveOn disk place.path).run place.stored = (.error e, place.stored)) ∧
    (∀ e stored, (u.saveOn disk place.path).run place.stored = (.error e, stored) →
      stored = place.stored ∨ ∃ reason, e = .unwritten place.path reason) ∧
    ∀ g, OfPlace (some place) g → g.InRange →
      (u.InRange → ∃ stored, (u.saveOn {} place.path).run place.stored = (.ok (), stored)) ∧
      ((∀ old, place.table = .ok old → (u.applyTo old).Rereads) →
        ∀ stored, (u.saveOn disk place.path).run place.stored = (.ok (), stored) →
          u.Applied place { place with stored } g) := by
  refine ⟨exists_error_of_spoilt disk, fun e stored => stored_of_error,
    fun g sets inRange => ⟨fun updateInRange => ?_, fun rereads stored saved => ?_⟩⟩
  · obtain ⟨table, read, -⟩ := sets.exists_table
    exact ⟨_, run_saveOn_faultless updateInRange read⟩
  · obtain ⟨updateInRange, table, read, rfl⟩ := written_of_ok saved
    exact applied_of_rereads updateInRange sets inRange read (rereads table read)

/-- A file with a setting in a group. -/
def depthPlace : SettingsPlace :=
  ⟨"config.toml", .file "[analysis]\nmax_dependency_depth = 2\n".toUTF8⟩

/-- The document of that file. -/
def depthTable : Toml.Table :=
  [("analysis", .table [("max_dependency_depth", .int 2)])]

/-- An update of a setting outside the group. -/
def thresholdUpdate : SettingsUpdate :=
  { scoreThreshold := some 75 }

theorem depthPlace_holds : depthPlace.HoldsTable depthTable := by
  refine ⟨_, ⟨_, rfl, Utf8.decode?_toUTF8 _⟩, ?_⟩
  decide +kernel

theorem depthTable_rereads : (thresholdUpdate.applyTo depthTable).Rereads := by
  unfold Toml.Table.Rereads
  decide +kernel

theorem save_then_load_depth :
    ∃ stored, (thresholdUpdate.saveOn {} depthPlace.path).run depthPlace.stored = (.ok (), stored) ∧
      thresholdUpdate.Applied depthPlace { depthPlace with stored }
        { analysis := { maxDependencyDepth := some 2 } } := by
  have sets : OfPlace (some depthPlace) { analysis := { maxDependencyDepth := some 2 } } :=
    .file depthPlace_holds (SettingsOverlay.ofTable?_eq_some_iff.mp (by decide +kernel))
  have inRange : thresholdUpdate.InRange := by
    intro n given
    cases given
    decide
  obtain ⟨-, -, sound⟩ := save_then_load thresholdUpdate {} depthPlace
  obtain ⟨succeeds, applied⟩ := sound _ sets nofun
  obtain ⟨stored, saved⟩ := succeeds inRange
  refine ⟨stored, saved, applied (fun old read => ?_) stored saved⟩
  obtain rfl := Except.ok.inj (depthPlace_holds.table_eq.symm.trans read)
  exact depthTable_rereads

end SettingsUpdate

end PackageRisk
