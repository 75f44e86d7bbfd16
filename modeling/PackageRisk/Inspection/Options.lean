import PackageRisk.Text.Blank
import PackageRisk.Text.Letters

/-!
# Inspection options

Which domains are trusted, which file names are suspicious and which files are looked at. The
built-in lists can be extended, never shortened.
-/

namespace PackageRisk

/-- Extensions of the files that are inspected unless configured otherwise. -/
def defaultExtensions : List String :=
  ["js", "json", "ts", "jsx", "tsx", "mjs", "cjs"]

/-- Names that malicious files like to have. -/
def defaultMaliciousFilenames : List String :=
  ["eval.js", "crypto-miner.js", "mining.js", "inject.js", "backdoor.js", "payload.js",
    "exploit.js", "shell.js", "hack.js", "trojan.js", "malware.js", "keylogger.js", "stealer.js",
    "cipher.js", "encrypt.js", "decrypt.js", "ransom.js", "payload.min.js", "hidden.js",
    "secret.js", "botnet.js", "rat.js"]

/-- Domains that packages have good reason to mention. -/
def defaultTrustedDomains : List String :=
  ["registry.npmjs.org", "npmjs.com", "github.com", "api.github.com", "githubusercontent.com",
    "unpkg.com", "cdnjs.cloudflare.com"]

/-- Add a text in its normal form, trimmed and in lower case, unless it is blank or listed. -/
def addUnique (texts : List String) (text : String) : List String :=
  let normal := Text.lower (Text.trim text)
  if normal = "" ∨ normal ∈ texts then texts else texts ++ [normal]

/-- Add several texts in their normal form. -/
def extendUnique (texts extras : List String) : List String :=
  extras.foldl addUnique texts

/-- The lists that inspection consults. -/
structure InspectionOptions where
  trustedDomains : List String := defaultTrustedDomains
  maliciousFilenames : List String := defaultMaliciousFilenames
  deriving DecidableEq, Repr

/-- The built-in lists and some extras. -/
def InspectionOptions.withExtras (trusted filenames : List String) : InspectionOptions where
  trustedDomains := extendUnique defaultTrustedDomains trusted
  maliciousFilenames := extendUnique defaultMaliciousFilenames filenames

end PackageRisk
