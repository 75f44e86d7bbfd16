import PackageRisk.Text.Blank
import PackageRisk.Text.Letters

/-!
# Hosts

The host of a web address, and trust in hosts. A trusted domain covers itself and everything
below it; nothing else in an address bears on the decision.
-/

namespace PackageRisk

/-- The characters that end the authority part of an address. -/
def endsAuthority (c : Char) : Bool :=
  c == '/' || c == '?' || c == '#'

/-- What follows the scheme of a web address. -/
def afterScheme? (url : List Char) : Option (List Char) :=
  match Text.dropLeading? url "https://".toList with
  | some rest => some rest
  | none => Text.dropLeading? url "http://".toList

/-- The host named in what follows the scheme: the authority without user information,
number and dots at the end, in lower case. -/
def hostOfRest (rest : List Char) : List Char :=
  let authority := Text.beforeFirst endsAuthority rest
  let hostAndNumber := Text.afterLast (· == '@') authority
  (Text.dropTrailing (· == '.') (Text.beforeFirst (· == ':') hostAndNumber)).map Char.toLower

/-- The host of a web address, if it names one. -/
def urlHost? (url : List Char) : Option String :=
  match afterScheme? url with
  | none => none
  | some rest =>
    match hostOfRest rest with
    | [] => none
    | host => some (String.ofList host)

/-- A host is the domain or lies below it. -/
def isWithinDomain (host domain : List Char) : Bool :=
  host == domain || ('.' :: domain).isSuffixOf host

/-- A host is covered by one of the trusted domains. Blanks around a domain and its case do not
matter, and a blank domain covers nothing. -/
def isTrustedHost (host : String) (trusted : List String) : Bool :=
  trusted.any fun domain =>
    let domain := (Text.lower (Text.trim domain)).toList
    !domain.isEmpty && isWithinDomain host.toList domain

end PackageRisk
