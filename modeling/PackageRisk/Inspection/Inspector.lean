import PackageRisk.Files.Tree
import PackageRisk.Inspection.Catalog
import PackageRisk.Inspection.Hashes
import PackageRisk.Inspection.Heuristics
import PackageRisk.Inspection.Obfuscation
import PackageRisk.Inspection.Options
import PackageRisk.Text.Utf8

/-!
# Inspecting files

One finding for each file. A file whose content is known malware gets no further analysis, and no
file after it is reported; a file that cannot be read is reported as such.
-/

namespace PackageRisk

/-- What inspection needs to know. -/
structure Inspector where
  rules : List Rule := Catalog.builtin
  hashes : MalwareHashes := {}
  options : InspectionOptions := {}

/-- A file to inspect: its name, the label it is reported under, and its content. -/
structure SourceFile where
  label : String
  fileName : Option String
  content : Except FileError ByteArray

/-- The first element of each key, in order. -/
def firstOfEach {α κ : Type} [DecidableEq κ] (key : α → κ) : List α → List α
  | [] => []
  | a :: rest => a :: (firstOfEach key rest).filter fun b => key b ≠ key a

/-- The elements up to and including the first that satisfies a test. -/
def throughFirst {α : Type} (test : α → Bool) : List α → List α
  | [] => []
  | a :: rest => if test a then [a] else a :: throughFirst test rest

/-- A path as it is shown, with slashes throughout. -/
def displayLabel (path : String) : String :=
  path.map fun c => if c == '\\' then '/' else c

namespace Inspector

/-- The file name is on the list of malicious names, case and blanks around listed names apart. -/
def isDenied (inspector : Inspector) (fileName : Option String) : Bool :=
  fileName.any fun name =>
    let lowered := Text.lower name
    lowered != "" && inspector.options.maliciousFilenames.any fun listed =>
      Text.lower (Text.trim listed) == lowered

/-- The suspicious patterns of a text: for each category the first rule that fires. -/
def patternsOf (inspector : Inspector) (label : String) (text : List Char) :
    List SuspiciousPattern :=
  (firstOfEach RuleMatch.category (firing inspector.rules text)).map fun m =>
    ⟨m.category, m.description, m.severity, some label, some m.context⟩

/-- Inspect a text with everything but the name and the hash. -/
def inspectText (inspector : Inspector) (label : String) (text : List Char) : FileFinding :=
  let measure := Obfuscation.measure text
  { path := label
    patterns := inspector.patternsOf label text
    obfuscated := measure.isObfuscated
    obfuscationDensity := measure.density
    networkIssues := NetworkUse.issues inspector.options.trustedDomains text
    dangerousPermissions := FilePermissions.areDangerous text
    complexity := some (Complexity.ofText text) }

/-- Inspect one file. -/
def inspectFile (inspector : Inspector) (file : SourceFile) : FileFinding :=
  let denied := inspector.isDenied file.fileName
  match file.content with
  | .error e =>
    { path := file.label
      suspiciousFilename := denied
      error := some ("failed to analyze file: " ++ e.message) }
  | .ok bytes =>
    let hash := Sha256.hexDigest bytes
    if inspector.hashes.contains hash then
      { path := file.label
        suspiciousFilename := denied
        contentHash := some hash
        isKnownMalware := true }
    else
      { inspector.inspectText file.label (Utf8.decodeLossy bytes) with
        suspiciousFilename := denied
        contentHash := some hash }

/-- Inspect files in order, up to the first that is known malware. -/
def inspect (inspector : Inspector) (files : List SourceFile) : List FileFinding :=
  throughFirst FileFinding.isKnownMalware (files.map inspector.inspectFile)

end Inspector

/-- A file name has one of some extensions, leading dots and letter case apart. -/
def hasExtension (extensions : List String) (fileName : String) : Bool :=
  (extension? fileName).any fun extension =>
    extensions.any fun wanted =>
      Text.lower (String.ofList (wanted.toList.dropWhile (· == '.'))) == Text.lower extension

namespace FileTree

/-- The regular files at or below a path that have one of some extensions, in path order, with
their paths relative to it. -/
def sourceFiles (t : FileTree) (root : Path) (extensions : List String) :
    List (Path × ByteArray) :=
  let wanted := (t.filesBelow root).filter fun (path, _) =>
    ((root ++ path).fileName?).any (hasExtension extensions)
  wanted.mergeSort fun a b => Path.le a.1 b.1

/-- The files to inspect at or below a path, labelled with their relative paths. A root that
leads nowhere has none, nor has one that is a link to a file. -/
def sources (t : FileTree) (root : String) (extensions : List String) : List SourceFile :=
  match t.resolve root with
  | .error _ => []
  | .ok base =>
    if t.endsInLink root && !(t.lookup? base matches some .directory) then []
    else
      (t.sourceFiles base extensions).map fun (path, content) =>
        ⟨displayLabel path.display, (base ++ path).fileName?, .ok content⟩

/-- A single file to inspect, labelled with its path. -/
def source (t : FileTree) (path : String) : SourceFile :=
  ⟨displayLabel path, (Path.ofString path).fileName?, t.read path⟩

end FileTree

namespace Inspector

/-- Inspect the files with certain extensions at or below a path of a tree. -/
def inspectTree (inspector : Inspector) (t : FileTree) (root : String)
    (extensions : List String) : List FileFinding :=
  inspector.inspect (t.sources root extensions)

end Inspector

end PackageRisk
