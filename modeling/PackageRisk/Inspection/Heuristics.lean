import PackageRisk.Inspection.Finding
import PackageRisk.Inspection.Host
import PackageRisk.Pattern.Basic

/-!
# Signals in code

Judgements about a whole text that combine several patterns: use of the network, dangerous file
permissions, and branching.
-/

namespace PackageRisk

namespace NetworkUse

open Pattern

/-- A web address up to the end of its authority part. -/
def urlLiteral : Search :=
  ⟨all [text "http", optionalChar 's', text "://",
    .span ⟨[.one '/', .one '\x22', .one '\x27', .one '\x60', .blank], true⟩ 1 none], false⟩

/-- Code that opens a socket. -/
def socketConstruction : Search :=
  ⟨any [all [text "new", someBlanks, text "WebSocket", blanks, text "("],
    all [text "new", someBlanks, text "net.Socket", blanks, text "("],
    all [.wordEdge, text "net.", anyText ["connect", "createConnection"], blanks, text "("]], false⟩

/-- Code that reads the environment. -/
def envAccess : Search :=
  ⟨.seq (text "process.env") .wordEdge, false⟩

/-- Code that talks to the network. -/
def networkPrimitive : Search :=
  ⟨any [all [.wordEdge, text "fetch", blanks, text "("], text "XMLHttpRequest", text "WebSocket",
    word "axios",
    all [.wordEdge, text "http", optionalChar 's', text ".", anyText ["request", "get"], blanks,
      text "("],
    all [text "require(", blanks, oneOf "'\"",
      any [.seq (text "http") (optionalChar 's'), text "net", text "request"],
      oneOf "'\"", blanks, text ")"],
    text "sendBeacon"], false⟩

/-- The host of the first web address in a text whose host is not trusted. -/
def untrustedHost? (trusted : List String) (content : List Char) : Option String :=
  ((urlLiteral.all content).filterMap fun o => urlHost? o.text).find? fun host =>
    !isTrustedHost host trusted

/-- The network issues of a text, at most one of each kind. -/
def issues (trusted : List String) (content : List Char) : List NetworkIssue :=
  ((untrustedHost? trusted content).map NetworkIssue.suspiciousUrl).toList ++
    (if socketConstruction.occursIn content then [.socketConnection] else []) ++
    (if envAccess.occursIn content && networkPrimitive.occursIn content then [.envExfiltration]
      else [])

end NetworkUse

namespace FilePermissions

open Pattern

/-- A file operation with arguments up to a word. -/
def operation (name : String) (argument : Pattern) : Search :=
  ⟨all [text name, optional (text "Sync"), blanks, text "(", .span ⟨[.one ')'], true⟩ 0 none,
    argument], false⟩

/-- A system directory. -/
def systemDirectory : Pattern :=
  all [text "/", anyText ["etc", "usr", "bin"], .wordEdge]

/-- Operations that open files up to everyone or touch system directories. -/
def searches : List Search :=
  [operation "fs.chmod" (all [.wordEdge, anyText ["777", "666"], .wordEdge]),
    operation "fs.writeFile" systemDirectory,
    operation "fs.unlink" systemDirectory]

/-- A dangerous file operation occurs in a text. -/
def areDangerous (content : List Char) : Bool :=
  searches.any (·.occursIn content)

end FilePermissions

namespace Complexity

open Pattern

/-- What counts as a branch. -/
def branching : List Search :=
  [⟨all [.wordEdge, text "if", blanks, text "("], false⟩,
    ⟨all [.wordEdge, text "else", blanks, text "\x7b"], false⟩,
    ⟨all [text "\x7d", blanks, text "else", blanks, text "\x7b"], false⟩,
    ⟨all [.wordEdge, text "for", blanks, text "("], false⟩,
    ⟨all [.wordEdge, text "while", blanks, text "("], false⟩,
    ⟨all [.wordEdge, text "switch", blanks, text "("], false⟩,
    ⟨all [text "?", .span ⟨[.one ':', .one ';', .one '?'], true⟩ 1 none, text ":"], false⟩,
    ⟨text "&&", false⟩,
    ⟨text "||", false⟩,
    ⟨text "??", false⟩,
    ⟨all [.wordEdge, text "function", someBlanks, someWord, blanks, text "("], false⟩,
    ⟨all [text "=>", blanks, text "\x7b"], false⟩,
    ⟨all [.wordEdge, text "catch", blanks, text "("], false⟩,
    ⟨all [.wordEdge, text "case", someBlanks], false⟩]

/-- The keyword that begins a function. -/
def functionKeyword : Search :=
  ⟨word "function", false⟩

/-- The branching above which a text counts as complex. -/
def threshold : Nat := 10

/-- The branching of a text: one, and one for every branch; with more than one function, one for
each function as well. The count stays within 32 bits. -/
def ofText (content : List Char) : Complexity :=
  let branches := (branching.map (·.count content)).foldr (· + ·) 0
  let functions := functionKeyword.count content
  let cyclomatic := min (1 + branches + if 1 < functions then functions else 0) 4294967295
  ⟨cyclomatic, threshold < cyclomatic⟩

end Complexity

end PackageRisk
