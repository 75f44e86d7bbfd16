import PackageRisk.Text.Digits
import PackageRisk.Text.Letters

/-!
# Web addresses

Absolute addresses in the form in which they are requested: the host in lower case, the default
number left out, dot segments resolved, and characters that may not stand in an address written as
percent signs with two hexadecimal digits for each byte.
-/

namespace PackageRisk

/-- A normalized web address. -/
structure Url where
  scheme : String
  authority : String
  path : String
  query : Option String := none
  fragment : Option String := none
  deriving DecidableEq, Repr

/-- Why a text is no address that can be requested. -/
inductive UrlError where
  | malformed
  | unsupported (url : String)
  deriving DecidableEq, Repr

namespace Url

/-- What a request line names: path and query. -/
def target (u : Url) : String :=
  u.path ++ u.query.elim "" ("?" ++ ·)

/-- The whole address. -/
def display (u : Url) : String :=
  u.scheme ++ "://" ++ u.authority ++ u.target ++ u.fragment.elim "" ("#" ++ ·)

/-- The bytes of a character, each as a percent sign and two digits. -/
def percentEncode (c : Char) : List Char :=
  (String.ofList [c]).toUTF8.toList.flatMap fun b =>
    ['%', Text.upperHexDigit (b.toNat / 16), Text.upperHexDigit (b.toNat % 16)]

/-- Encode the characters outside ASCII, the control characters and those of `reserved`. -/
def encodeWith (reserved : String) (s : List Char) : List Char :=
  s.flatMap fun c =>
    if c.toNat < 32 || 126 < c.toNat || reserved.toList.contains c then percentEncode c else [c]

/-- Characters encoded in a path. -/
def pathReserved : String := " \"<>\x60#?\x7b\x7d"

/-- Characters encoded in a query. -/
def queryReserved : String := " \"<>#'"

/-- Characters encoded in a fragment. -/
def fragmentReserved : String := " \"<>\x60"

/-- A path segment that stands for the directory itself. -/
def isSingleDot (segment : List Char) : Bool :=
  let s := segment.map Char.toLower
  s == ".".toList || s == "%2e".toList

/-- A path segment that leads one directory up. -/
def isDoubleDot (segment : List Char) : Bool :=
  let s := segment.map Char.toLower
  ["..", ".%2e", "%2e.", "%2e%2e"].any fun d => s == d.toList

/-- Resolve dot segments; the segments so far stand last first. A dot segment at the end leaves
an empty segment. -/
def resolveSegments : (sofar : List (List Char)) → List (List Char) → List (List Char)
  | sofar, [] => sofar.reverse
  | sofar, segment :: rest =>
    let next :=
      if isDoubleDot segment then
        if rest.isEmpty then [] :: sofar.drop 1 else sofar.drop 1
      else if isSingleDot segment then
        if rest.isEmpty then [] :: sofar else sofar
      else segment :: sofar
    resolveSegments next rest

/-- A slash of either kind. -/
def isSlash (c : Char) : Bool :=
  c == '/' || c == '\\'

/-- The normalized path, from the text after the authority. -/
def normalizePath (s : List Char) : String :=
  let segments := Text.splitAt isSlash (if (s.head?).any isSlash then s.drop 1 else s)
  let resolved := resolveSegments [] segments
  String.ofList (resolved.flatMap fun segment => '/' :: encodeWith pathReserved segment)

/-- The scheme of an address in lower case, and what follows its colon. -/
def scheme? (s : List Char) : Option (String × List Char) :=
  let name := s.takeWhile fun c => c.isAlphanum || c == '+' || c == '-' || c == '.'
  match name, s.drop name.length with
  | c :: _, ':' :: rest =>
    if c.isAlpha then some (String.ofList (name.map Char.toLower), rest) else none
  | _, _ => none

/-- The number that may follow a host, without the default one of a scheme. -/
def hostNumberText? (scheme : String) (digits : List Char) : Option String :=
  if digits.isEmpty then some ""
  else if digits.all Char.isDigit then
    let n := Text.decimalValue digits
    if 65535 < n then none
    else if (scheme = "http" ∧ n = 80) ∨ (scheme = "https" ∧ n = 443) then some ""
    else some (":" ++ toString n)
  else none

/-- The normalized authority: user information as it is, host in lower case, number. -/
def authority? (scheme : String) (s : List Char) : Option String := do
  let hostAndNumber := Text.afterLast (· == '@') s
  let userInfo := s.take (s.length - hostAndNumber.length)
  let (host, number) :=
    match hostAndNumber with
    | '[' :: _ =>
      let inside := Text.beforeFirst (· == ']') hostAndNumber
      (inside ++ [']'], hostAndNumber.drop (inside.length + 1))
    | _ =>
      let host := Text.beforeFirst (· == ':') hostAndNumber
      (host, hostAndNumber.drop host.length)
  let number ←
    match number with
    | [] => some ""
    | ':' :: digits => hostNumberText? scheme digits
    | _ => none
  if host.isEmpty || host.any (fun c => " #%/<>?@\\^|".toList.contains c) then none
  return String.ofList (userInfo ++ host.map Char.toLower) ++ number

/-- A character that is removed at the ends of an address. -/
def isControlOrSpace (c : Char) : Bool :=
  c.toNat ≤ 32

/-- Read an address that can be requested. -/
def parse (text : String) : Except UrlError Url :=
  let trimmed :=
    (Text.dropTrailing isControlOrSpace (text.toList.dropWhile isControlOrSpace)).filter fun c =>
      c != '\t' && c != '\n' && c != '\r'
  match scheme? trimmed with
  | none => .error .malformed
  | some (scheme, rest) =>
    if scheme = "http" ∨ scheme = "https" then
      let rest := rest.dropWhile isSlash
      let endsAuthority (c : Char) := isSlash c || c == '?' || c == '#'
      let authority := Text.beforeFirst endsAuthority rest
      let rest := rest.drop authority.length
      let beforeFragment := Text.beforeFirst (· == '#') rest
      let fragment := rest.drop beforeFragment.length
      let path := Text.beforeFirst (· == '?') beforeFragment
      let query := beforeFragment.drop path.length
      match authority? scheme authority with
      | none => .error .malformed
      | some authority =>
        .ok
          { scheme, authority
            path := normalizePath path
            query :=
              if query.isEmpty then none
              else some (String.ofList (encodeWith queryReserved (query.drop 1)))
            fragment :=
              if fragment.isEmpty then none
              else some (String.ofList (encodeWith fragmentReserved (fragment.drop 1))) }
    else if (Text.dropLeading? rest "//".toList).any (fun s => !(s.takeWhile (· != '/')).isEmpty)
    then .error (.unsupported (String.ofList trimmed))
    else .error .malformed

end Url

end PackageRisk
