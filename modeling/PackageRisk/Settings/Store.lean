import PackageRisk.Settings.Location
import PackageRisk.Settings.Overlay
import PackageRisk.Text.Utf8
import PackageRisk.Toml.Reader
import PackageRisk.Toml.Writer

/-!
# Configuration files

Settings come from two files, a global one and one of the project, of which the latter wins. A
file that is not there sets nothing. Changes are written to the global file, in which everything
else stays as it is.
-/

namespace PackageRisk

/-- What stands in the place of a configuration file. -/
inductive StoredFile where
  | absent
  | directory
  | file (content : ByteArray)

/-- The place of a configuration file. -/
structure SettingsPlace where
  path : String
  stored : StoredFile

/-- Why a configuration file could not be read as text. -/
inductive ReadFault where
  | isADirectory
  | notUtf8
  deriving DecidableEq, Repr

/-- The system's wording of a read fault. -/
def ReadFault.message : ReadFault → String
  | isADirectory => "Is a directory (os error 21)"
  | notUtf8 => "stream did not contain valid UTF-8"

/-- Why settings could not be loaded or saved. -/
inductive SettingsError where
  | unreadable (path : String) (fault : ReadFault)
  | malformed (path : String)
  | invalid (path : String) (cause : Failure)
  | rejected (cause : Failure)
  | noDirectory (path reason : String)
  | unwritten (path reason : String)
  deriving DecidableEq, Repr

namespace SettingsError

/-- What was being done, with the file concerned. -/
def context? : SettingsError → Option String
  | unreadable path _ => some ("failed to read config file at " ++ path)
  | malformed path => some ("failed to parse config file at " ++ path)
  | invalid path _ => some ("invalid config file at " ++ path)
  | rejected _ => none
  | noDirectory path _ => some ("failed to create config directory " ++ directoryOf path)
  | unwritten path _ => some ("failed to write config file at " ++ path)

/-- The failure behind an error. -/
def failure? : SettingsError → Option Failure
  | invalid _ cause | rejected cause => some cause
  | unreadable _ _ | malformed _ | noDirectory _ _ | unwritten _ _ => none

/-- The wording of an error and of its causes, outermost first. What is wrong with the text of a
file is not part of this library's answers. -/
def chain (e : SettingsError) : List String :=
  e.context?.toList ++
    match e with
    | unreadable _ fault => [fault.message]
    | malformed _ => []
    | invalid _ cause | rejected cause => cause.chain
    | noDirectory _ reason | unwritten _ reason => [reason]

end SettingsError

/-- The text in the place of a configuration file, if anything is there. -/
def SettingsPlace.text? (place : SettingsPlace) : Except SettingsError (Option String) :=
  match place.stored with
  | .absent => .ok none
  | .directory => .error (.unreadable place.path .isADirectory)
  | .file content =>
    match Utf8.decode? content with
    | some text => .ok (some text)
    | none => .error (.unreadable place.path .notUtf8)

/-- The table in the place of a configuration file, empty if nothing is there. -/
def SettingsPlace.table (place : SettingsPlace) : Except SettingsError Toml.Table := do
  match ← place.text? with
  | none => .ok []
  | some text =>
    match Toml.parse? text with
    | some table => .ok table
    | none => .error (.malformed place.path)

namespace Settings

/-- The settings with those of the file in a place. -/
def withPlace (s : Settings) (place : SettingsPlace) : Except SettingsError Settings := do
  match SettingsOverlay.ofTable? (← place.table) with
  | none => .error (.malformed place.path)
  | some overlay => (s.overlaid overlay).mapError (.invalid place.path)

/-- The settings with those of the file in a place, if there is such a place. -/
def withPlace? (s : Settings) : Option SettingsPlace → Except SettingsError Settings
  | none => .ok s
  | some place => s.withPlace place

/-- Load the settings from the global file and the file of the project. -/
def load (global project : Option SettingsPlace) : Except SettingsError Settings := do
  (← withPlace? {} global).withPlace? project

end Settings

/-- How a disk takes to a file being saved: why the directories above it cannot be made, if they
cannot, and what is left of some bytes, with the reason if they could not be written. -/
structure Disk where
  directoryFault : Option String := none
  write : ByteArray → StoredFile × Option String := fun content => (.file content, none)
  write_eq : ∀ content, (write content).2 = none → (write content).1 = .file content := by simp

namespace Disk

/-- Make the directories above a file. -/
def makeDirectories (disk : Disk) (path : String) :
    ExceptT SettingsError (StateM StoredFile) Unit :=
  match disk.directoryFault with
  | some reason => throw (.noDirectory path reason)
  | none => return

/-- Write bytes in place of what is there. -/
def overwrite (disk : Disk) (path : String) (content : ByteArray) :
    ExceptT SettingsError (StateM StoredFile) Unit := do
  let (stored, fault) := disk.write content
  set stored
  match fault with
  | some reason => throw (.unwritten path reason)
  | none => return

end Disk

namespace SettingsUpdate

/-- Set a value under a name, if there is one. -/
def assign (t : Toml.Table) (name : String) : Option Toml.Value → Toml.Table
  | some v => t.set name v
  | none => t

/-- The table with the values of an update. -/
def applyTo (u : SettingsUpdate) (t : Toml.Table) : Toml.Table :=
  let t := assign t "auto_check" (u.autoCheck.map .bool)
  let t := assign t "score_threshold" (u.scoreThreshold.map fun n : Nat => .int n)
  assign t "block_install" (u.blockInstall.map .bool)

/-- The threshold of an update is within bounds. -/
def check (u : SettingsUpdate) : Except SettingsError Unit :=
  match u.scoreThreshold with
  | some n => (checkThreshold n).mapError SettingsError.rejected |> discard
  | none => .ok ()

/-- Write the values of an update into the file in a place. Nothing is touched before the update is
checked and the file is read. -/
def saveOn (disk : Disk) (u : SettingsUpdate) (path : String) :
    ExceptT SettingsError (StateM StoredFile) Unit := do
  MonadExcept.ofExcept u.check
  let table ← MonadExcept.ofExcept (SettingsPlace.table ⟨path, ← get⟩)
  disk.makeDirectories path
  disk.overwrite path (u.applyTo table).pretty.toUTF8

/-- The failure to find the global file. -/
def unknownPlace : SettingsError :=
  .rejected (.invalidConfiguration "unable to determine the global config path")

/-- The global file with the values of an update, saved without faults of the disk. -/
def save (u : SettingsUpdate) (global : Option SettingsPlace) :
    Except SettingsError SettingsPlace :=
  match global with
  | none => .error unknownPlace
  | some place =>
    match (u.saveOn {} place.path).run place.stored with
    | (.ok (), stored) => .ok { place with stored }
    | (.error e, _) => .error e

end SettingsUpdate

end PackageRisk
