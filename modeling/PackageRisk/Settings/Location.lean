/-!
# Locations of configuration files

Where the global file and the file of a project lie. Environment variables name them directly;
otherwise the global file lies in the home directory and the other one in the working directory.
-/

namespace PackageRisk

/-- The values of environment variables. -/
abbrev Environment := String → Option String

/-- A path below a directory. -/
def joinPath (directory name : String) : String :=
  if directory = "" ∨ directory.endsWith "/" then directory ++ name
  else directory ++ "/" ++ name

/-- The directory of a path. -/
def directoryOf (path : String) : String :=
  String.ofList ((path.toList.reverse.dropWhile (· != '/')).drop 1).reverse

namespace Environment

/-- The home directory, by either of its two customary names. -/
def home? (e : Environment) : Option String :=
  (e "HOME").orElse fun _ => e "USERPROFILE"

/-- The path of the global configuration file, unless there is no home directory to look in. -/
def globalPath? (e : Environment) : Option String :=
  (e "GUARDPKG_CONFIG_GLOBAL_PATH").orElse fun _ =>
    e.home?.map fun home => joinPath home ".config/guardpkg/config.toml"

/-- The path of a project's configuration file. -/
def projectPath (e : Environment) (workingDirectory : String) : String :=
  (e "GUARDPKG_CONFIG_PROJECT_PATH").getD (joinPath workingDirectory ".guardpkg.toml")

end Environment

end PackageRisk
