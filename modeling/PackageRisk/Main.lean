import PackageRisk.Analysis.Online
import PackageRisk.Command.Run
import PackageRisk.Settings.Location

/-!
# The command line program

Reads the surroundings of a command, runs it, prints what it has to say and writes the file it
changed. The program has no transport of its own, so every request counts as refused.
-/

namespace PackageRisk.Program

/-- What stands at a path. -/
def storedAt (path : String) : IO StoredFile := do
  try
    return .file (← IO.FS.readBinFile path)
  catch
    | .noFileOrDirectory .. => return .absent
    | .inappropriateType _ 20 _ => return .absent
    | .inappropriateType .. => return .directory
    | e => throw e

/-- The place of a configuration file. -/
def placeAt (path : String) : IO SettingsPlace := do
  return ⟨path, ← storedAt path⟩

/-- The environment variables that bear on a command. -/
def variableNames : List String :=
  ["GUARDPKG_CONFIG_GLOBAL_PATH", "GUARDPKG_CONFIG_PROJECT_PATH", "HOME", "USERPROFILE",
    "GUARDPKG_NPM_REGISTRY_BASE_URL", "GUARDPKG_NPM_DOWNLOADS_API_BASE_URL",
    "GUARDPKG_OSV_API_BASE_URL", PolicyOverrides.variableName]

/-- The environment, as far as it bears on a command. -/
def readEnvironment : IO Environment := do
  let values ← variableNames.mapM fun name => return (name, ← IO.getEnv name)
  return fun name => (values.find? fun p => p.1 == name).bind Prod.snd

/-- The addresses that the environment names, or else the public ones. -/
def endpoints (e : Environment) : Endpoints where
  registry :=
    { registryUrl :=
        (e "GUARDPKG_NPM_REGISTRY_BASE_URL").getD ({} : RegistryService).registryUrl
      downloadsUrl :=
        (e "GUARDPKG_NPM_DOWNLOADS_API_BASE_URL").getD ({} : RegistryService).downloadsUrl }
  osvUrl := (e "GUARDPKG_OSV_API_BASE_URL").getD Osv.defaultUrl

/-- A network without a transport. -/
def disconnected : Network :=
  fun _ => .error .refused

/-- The beginning of the calendar. Ages count only in reports, which need a network. -/
def epoch : Instant := ⟨0, 0, 0⟩

/-- The surroundings of a command. -/
def surroundings : IO Surroundings := do
  let environment ← readEnvironment
  let global ← environment.globalPath?.mapM placeAt
  let project ← placeAt (environment.projectPath ".")
  return {
    global := global
    project := some project
    policy := environment PolicyOverrides.variableName
    analyzer := .online (endpoints environment) disconnected epoch }

/-- Write a file that a command changed, with the directories above it. -/
def write (place : SettingsPlace) : IO Unit := do
  match place.stored with
  | .file content =>
    let directory := directoryOf place.path
    if directory != "" then IO.FS.createDirAll directory
    IO.FS.writeBinFile place.path content
  | .absent | .directory => return

end PackageRisk.Program

open PackageRisk in
/-- Run the command line. -/
def main (arguments : List String) : IO UInt32 := do
  let outcome := Command.run (← Program.surroundings) arguments
  outcome.written.forM Program.write
  IO.print outcome.stdout
  IO.eprint outcome.stderr
  return outcome.exit.toUInt32
