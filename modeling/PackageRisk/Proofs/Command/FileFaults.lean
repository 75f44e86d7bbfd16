import PackageRisk.Proofs.Command.ExitStatus
import PackageRisk.Proofs.Settings.Saving

/-!
# Faults of configuration files

How a command ends that reads a configuration file with a fault. An analysis and a check before an
installation load the settings of both files first, and whatever is wrong with one of them is a
failure of the configuration. A change of settings reads the global file only for its document: a
setting in it that is of the wrong type or out of bounds goes unnoticed, and a file that is no
document is no failure of the configuration, but one like any other.
-/

namespace PackageRisk

/-- An invocation reads the configuration file in a place. -/
inductive Invocation.Reads (w : Surroundings) (place : SettingsPlace) : Invocation → Prop
  | analyze (around : w.global = some place ∨ w.project = some place) (package version : String)
      (form : ReportForm) : Reads w place (.analyze package version form)
  | preinstall (around : w.global = some place ∨ w.project = some place)
      (package version : String) : Reads w place (.preinstall package version false)
  | configure (global : w.global = some place) {autoCheck : Option Bool} {threshold : Option Int}
      {blockInstall : Option Bool}
      (within : ∀ value, threshold = some value → 0 ≤ value ∧ value ≤ maxThreshold)
      (changes : autoCheck ≠ none ∨ threshold ≠ none ∨ blockInstall ≠ none) :
      Reads w place (.configure autoCheck threshold blockInstall)

/-- An invocation is a change of settings. -/
def Invocation.IsConfigure : Invocation → Prop
  | .configure _ _ _ => True
  | _ => False

namespace Command

variable {w : Surroundings} {place : SettingsPlace} {fault : FileFault}

/-- A fault in one of the files is met before anything else is done. -/
theorem exists_loadSettings_error (around : w.global = some place ∨ w.project = some place)
    (suffers : place.Suffers fault) : ∃ e, loadSettings w = .error e ∧ e.exit = 2 := by
  obtain ⟨e, failed⟩ := Settings.load_error ⟨place, fault, around, suffers⟩
  exact ⟨_, loadSettings_error failed⟩

section

variable {autoCheck : Option Bool} {threshold : Option Int} {blockInstall : Option Bool}

/-- The update that a change of settings asks for. -/
def requestedUpdate (autoCheck : Option Bool) (threshold : Option Int)
    (blockInstall : Option Bool) : SettingsUpdate :=
  ⟨autoCheck, threshold.map Int.toNat, blockInstall⟩

theorem requestedUpdate_inRange
    (within : ∀ value, threshold = some value → 0 ≤ value ∧ value ≤ maxThreshold) :
    (requestedUpdate autoCheck threshold blockInstall).InRange := by
  intro n given
  obtain ⟨value, asked, rfl⟩ := Option.map_eq_some_iff.mp given
  obtain ⟨nonneg, below⟩ := within value asked
  exact Int.toNat_le.mpr below

theorem isEmpty_requestedUpdate
    (changes : autoCheck ≠ none ∨ threshold ≠ none ∨ blockInstall ≠ none) :
    (requestedUpdate autoCheck threshold blockInstall).isEmpty = false := by
  rw [Bool.eq_false_iff]
  intro empty
  simp only [SettingsUpdate.isEmpty, requestedUpdate, Bool.and_eq_true,
    Option.isNone_iff_eq_none, Option.map_eq_none_iff] at empty
  obtain ⟨⟨noCheck, noThreshold⟩, noBlock⟩ := empty
  simp [noCheck, noThreshold, noBlock] at changes

/-- A sound change of settings ends as saving it does. -/
theorem configure_eq
    (within : ∀ value, threshold = some value → 0 ≤ value ∧ value ≤ maxThreshold)
    (changes : autoCheck ≠ none ∨ threshold ≠ none ∨ blockInstall ≠ none) :
    configure w autoCheck threshold blockInstall =
      match (requestedUpdate autoCheck threshold blockInstall).save w.global with
      | .error e => (CommandError.ofSettings e).outcome
      | .ok place =>
        { exit := 0
          stdout := lines (("Configuration updated (" ++ place.path ++ "):") ::
            changeLines (requestedUpdate autoCheck threshold blockInstall))
          written := some place } := by
  have nonempty := isEmpty_requestedUpdate changes
  cases threshold with
  | none =>
    change (if (requestedUpdate autoCheck none blockInstall).isEmpty then _ else _) = _
    rw [nonempty]
    rfl
  | some value =>
    simp only [configure, checkThreshold_eq_ok (within value rfl), Except.map]
    change (if (requestedUpdate autoCheck (some value) blockInstall).isEmpty then _ else _) = _
    rw [nonempty]
    rfl

/-- A change of settings meets a fault only if the file is no document. -/
theorem exit_configure_of_fault (global : w.global = some place) (suffers : place.Suffers fault)
    (within : ∀ value, threshold = some value → 0 ≤ value ∧ value ≤ maxThreshold)
    (changes : autoCheck ≠ none ∨ threshold ≠ none ∨ blockInstall ≠ none) :
    (configure w autoCheck threshold blockInstall).exit =
      if fault = .unreadable ∨ fault = .notToml then 1 else 0 := by
  have inRange : (requestedUpdate autoCheck threshold blockInstall).InRange :=
    requestedUpdate_inRange within
  rw [configure_eq within changes, global]
  split_ifs with spoilt
  · obtain ⟨e, unread, blameless⟩ := suffers.exists_table_error spoilt
    rw [SettingsUpdate.save_of_table_error inRange unread]
    simp only [CommandError.outcome, CommandError.exit, CommandError.ofSettings, blameless,
      Option.map_none]
  · have legible : fault = .illTyped ∨ fault = .outOfRange := by
      cases fault <;> simp at spoilt ⊢
    obtain ⟨table, read⟩ := suffers.exists_table legible
    rw [SettingsUpdate.save_of_table inRange read]

end

theorem exit_of_fault {i : Invocation} (reads : i.Reads w place)
    (suffers : place.Suffers fault) :
    (invoke w i).exit =
      match i with
      | .configure _ _ _ => if fault = .unreadable ∨ fault = .notToml then 1 else 0
      | _ => 2 := by
  cases reads with
  | analyze around package version form =>
    obtain ⟨e, rejected, exit⟩ := exists_loadSettings_error around suffers
    simp only [invoke, analyze, rejected]
    exact exit
  | preinstall around package version =>
    obtain ⟨e, rejected, exit⟩ := exists_loadSettings_error around suffers
    simp only [invoke, preinstall, rejected, Bool.false_eq_true, if_false]
    exact exit
  | configure global within changes => exact exit_configure_of_fault global suffers within changes

/-- A command that reads a configuration file with a fault ends with the status of a failure of the
configuration unless it is a change of settings. A change of settings ends with the general status
if the file is no document; any other fault it does not notice, and it succeeds. -/
theorem file_faults_by_command {arguments : List String} {i : Invocation}
    (parsed : Invocation.parse arguments = .ok i) (reads : i.Reads w place)
    (suffers : place.Suffers fault) :
    ((run w arguments).exit = 2 ↔ ¬ i.IsConfigure) ∧
    ((run w arguments).exit = 1 ↔
      i.IsConfigure ∧ (fault = .unreadable ∨ fault = .notToml)) ∧
    ((run w arguments).exit = 0 ↔
      i.IsConfigure ∧ (fault = .illTyped ∨ fault = .outOfRange)) := by
  rw [run, parsed]
  dsimp only
  rw [exit_of_fault reads suffers]
  cases reads with
  | analyze around package version form => simp [Invocation.IsConfigure]
  | preinstall around package version => simp [Invocation.IsConfigure]
  | configure global within changes =>
    cases fault <;> simp [Invocation.IsConfigure]

/-- A place whose file is no document. -/
def brokenPlace : SettingsPlace :=
  ⟨"config.toml", .file "x = [".toUTF8⟩

theorem brokenPlace_suffers : brokenPlace.Suffers .notToml := by
  have unparsed : Toml.parse? "x = [" = none := by decide +kernel
  exact .notToml ⟨_, rfl, Utf8.decode?_toUTF8 _⟩ unparsed

/-- Surroundings with that place for the global file. -/
def brokenGlobal : Surroundings :=
  { offline with global := some brokenPlace }

theorem file_faults_by_command_analyze :
    (run brokenGlobal ["analyze", "left-pad"]).exit = 2 := by
  have parsed : Invocation.parse ["analyze", "left-pad"] =
      .ok (.analyze "left-pad" "latest" (.text false)) := by decide +kernel
  have reads : (Invocation.analyze "left-pad" "latest" (.text false)).Reads brokenGlobal
      brokenPlace := .analyze (.inl rfl) _ _ _
  exact (file_faults_by_command parsed reads brokenPlace_suffers).1.mpr not_false

/-- A change of settings does not end with the status of the configuration when the global file is
no document. -/
theorem configure_broken :
    brokenGlobal.global = some brokenPlace ∧ brokenPlace.Suffers .notToml ∧
      Invocation.parse ["config", "--auto-check", "true"] =
        .ok (.configure (some true) none none) ∧
      (run brokenGlobal ["config", "--auto-check", "true"]).exit = 1 := by
  have parsed : Invocation.parse ["config", "--auto-check", "true"] =
      .ok (.configure (some true) none none) := by decide +kernel
  have exit : (configure brokenGlobal (some true) none none).exit =
      if FileFault.notToml = .unreadable ∨ FileFault.notToml = .notToml then 1 else 0 :=
    exit_configure_of_fault rfl brokenPlace_suffers nofun (.inl nofun)
  rw [if_pos (.inr rfl)] at exit
  refine ⟨rfl, brokenPlace_suffers, parsed, ?_⟩
  rw [run, parsed]
  exact exit

end Command

end PackageRisk
