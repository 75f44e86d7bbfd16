import PackageRisk.Inspection.Finding
import PackageRisk.Inspection.Snippet

/-!
# Suspicious code

The table of rules for suspicious source code. A rule fires on a text when its pattern occurs in
it; however often it occurs, the first occurrence stands for all.
-/

namespace PackageRisk

/-- A pattern of suspicious code. -/
structure Rule where
  category : PatternCategory
  search : Search
  description : String
  deriving DecidableEq, Repr

/-- A rule that fired, with the surroundings of its first occurrence. -/
structure RuleMatch where
  category : PatternCategory
  description : String
  severity : Severity
  context : String
  deriving DecidableEq, Repr

/-- Apply a rule to a text. -/
def Rule.fire? (rule : Rule) (text : List Char) : Option RuleMatch :=
  (rule.search.first? text).map fun found =>
    ⟨rule.category, rule.description, rule.category.severity, found.snippet⟩

/-- The rules that fire on a text, in table order. -/
def firing (rules : List Rule) (text : List Char) : List RuleMatch :=
  rules.filterMap (·.fire? text)

namespace Catalog

open Pattern

/-- Either kind of quotation mark. -/
def quote : Pattern :=
  oneOf "'\""

/-- An opening parenthesis, blanks before it allowed. -/
def opening : Pattern :=
  .seq blanks (char '(')

/-- A module import in which one of some names stands in quotation marks. -/
def requiring (names : Pattern) : Pattern :=
  all [text "require(", blanks, quote, names, quote, blanks, text ")"]

/-- A hexadecimal digit of either case. -/
def hexDigits : CharSet :=
  ⟨[.range '0' '9', .range 'a' 'f', .range 'A' 'F'], false⟩

/-- Rules for running code. -/
def codeExecution : List Rule :=
  [⟨.codeExecution, ⟨all [.wordEdge, text "eval", opening], false⟩, "eval() call"⟩,
    ⟨.codeExecution, ⟨all [text "new", someBlanks, text "Function", opening], false⟩,
      "dynamic Function constructor"⟩,
    ⟨.codeExecution, ⟨requiring (text "child_process"), false⟩, "child_process import"⟩,
    ⟨.codeExecution,
      ⟨all [.wordEdge, anyText ["execSync", "spawnSync", "execFileSync"], opening], false⟩,
      "synchronous process spawn"⟩,
    ⟨.codeExecution,
      ⟨all [.wordEdge, text "set", anyText ["Timeout", "Interval"], opening, blanks,
        oneOf "'\"\x60"], false⟩,
      "string-evaluated timer"⟩]

/-- Rules for sending data away. -/
def dataExfiltration : List Rule :=
  [⟨.dataExfiltration, ⟨text "navigator.sendBeacon", false⟩, "beacon upload"⟩,
    ⟨.dataExfiltration,
      ⟨requiring (any [.seq (text "http") (optionalChar 's'), text "net", text "dgram",
        text "request", text "axios"]), false⟩,
      "network module import"⟩,
    ⟨.dataExfiltration, ⟨text "document.cookie", false⟩, "cookie access"⟩,
    ⟨.dataExfiltration,
      ⟨any [all [text "discord", optional (text "app"), text ".com/api/webhooks"],
        text "webhook.site", text "pastebin.com", text "ngrok.io"], false⟩,
      "known exfiltration endpoint"⟩]

/-- Rules for hiding what code does. -/
def obfuscation : List Rule :=
  [⟨.obfuscation,
      ⟨all [text "[", quote, someWord, quote, text "][", quote, someWord, quote, text "]"], false⟩,
      "nested bracket notation"⟩,
    ⟨.obfuscation,
      ⟨all [text "String.fromCharCode", opening, blanks, .span ⟨[.digit], false⟩ 1 none,
        .times (all [blanks, text ",", blanks, .span ⟨[.digit], false⟩ 1 none]) 1 none], false⟩,
      "character code array"⟩,
    ⟨.obfuscation, ⟨all [.wordEdge, anyText ["atob", "btoa"], opening], false⟩,
      "base64 decoding"⟩,
    ⟨.obfuscation,
      ⟨all [text "Buffer.from", opening, .span ⟨[.one ')'], true⟩ 0 none, text ",", blanks, quote,
        anyText ["base64", "hex"], quote], false⟩,
      "buffer-decoded payload"⟩,
    ⟨.obfuscation,
      ⟨.times (.seq (text "\\x") (.span hexDigits 2 (some 2))) 8 none, false⟩,
      "long hex escape sequence"⟩,
    ⟨.obfuscation, ⟨all [.wordEdge, text "_0x", .span hexDigits 4 none, .wordEdge], false⟩,
      "obfuscator-style identifiers"⟩,
    ⟨.obfuscation,
      ⟨.seq (.span ⟨[.range 'A' 'Z', .range 'a' 'z', .range '0' '9', .one '+', .one '/'], false⟩
          200 none)
        (.span ⟨[.one '='], false⟩ 0 (some 2)), false⟩,
      "large encoded blob"⟩]

/-- Rules for reaching into the system. -/
def systemAccess : List Rule :=
  [⟨.systemAccess, ⟨.seq (text "process.binding") opening, false⟩, "native binding access"⟩,
    ⟨.systemAccess,
      ⟨requiring (anyText ["sudo-prompt", "systeminformation", "registry-js"]), false⟩,
      "privileged system module"⟩,
    ⟨.systemAccess, ⟨.seq (text "/etc/") (anyText ["passwd", "shadow", "sudoers"]), false⟩,
      "sensitive system file path"⟩,
    ⟨.systemAccess,
      ⟨any [text ".ssh/", word "id_rsa", .seq (text ".npmrc") .wordEdge,
        text ".aws/credentials"], false⟩,
      "credential file access"⟩]

/-- Rules for mining. -/
def cryptoMining : List Rule :=
  [⟨.cryptoMining, ⟨all [text "stratum+", anyText ["tcp", "ssl"], text "://"], false⟩,
      "mining pool protocol"⟩,
    ⟨.cryptoMining,
      ⟨all [.wordEdge, anyText ["coinhive", "cryptonight", "xmrig", "minergate", "nicehash"],
        .wordEdge], true⟩,
      "known miner"⟩,
    ⟨.cryptoMining,
      ⟨any [text "pool.supportxmr", text "mining-pool", word "hashrate", word "minerAddress"],
        true⟩,
      "mining configuration"⟩]

/-- Rules for surviving a restart. -/
def persistence : List Rule :=
  [⟨.persistence,
      ⟨any [all [oneOf "/~", text ".", anyText ["bashrc", "bash_profile", "zshrc"], .wordEdge],
        .seq (text "/.profile") .wordEdge], false⟩,
      "shell profile modification"⟩,
    ⟨.persistence, ⟨word "crontab", false⟩, "cron job installation"⟩,
    ⟨.persistence,
      ⟨any [all [.wordEdge, text "systemctl", someBlanks, text "enable", .wordEdge],
        all [.wordEdge, text "launchctl", someBlanks, text "load", .wordEdge]], false⟩,
      "service registration"⟩,
    ⟨.persistence,
      ⟨any [all [text "CurrentVersion", .span ⟨[.one '\\'], false⟩ 1 none, text "Run"],
        all [.wordEdge, text "reg", someBlanks, text "add", .wordEdge]], true⟩,
      "windows autorun registration"⟩]

/-- Rules for resisting analysis. -/
def antiDebugging : List Rule :=
  [⟨.antiDebugging, ⟨all [.wordEdge, text "debugger", blanks, text ";"], false⟩,
      "debugger statement"⟩,
    ⟨.antiDebugging,
      ⟨all [text "console", blanks, text ".", blanks, text "clear", opening], false⟩,
      "console clearing"⟩,
    ⟨.antiDebugging,
      ⟨any [all [text "chrome", blanks, text ".", blanks, text "debugger"],
        text "process.execArgv"], false⟩,
      "debugger detection"⟩]

/-- Rules for identifying a host. -/
def fingerprinting : List Rule :=
  [⟨.fingerprinting,
      ⟨.seq (text "navigator.")
        (any [text "userAgent", text "platform", text "hardwareConcurrency",
          .seq (text "language") (optionalChar 's')]), false⟩,
      "browser fingerprinting"⟩,
    ⟨.fingerprinting,
      ⟨any [text "canvas.toDataURL",
        all [text "getContext", opening, blanks, quote, text "webgl"]], false⟩,
      "canvas fingerprinting"⟩,
    ⟨.fingerprinting,
      ⟨all [.wordEdge, text "os.", anyText ["hostname", "userInfo", "networkInterfaces"],
        opening], false⟩,
      "host identity collection"⟩]

/-- Rules for well-known weaknesses. -/
def knownExploits : List Rule :=
  [⟨.knownExploits,
      ⟨any [.seq (text ".__proto__") .wordEdge,
        all [text "[", blanks, quote, text "__proto__", quote, blanks, text "]"]], false⟩,
      "prototype pollution"⟩,
    ⟨.knownExploits,
      ⟨any [text "constructor.prototype",
        all [text "[", blanks, quote, text "constructor", quote, blanks, text "]"]], false⟩,
      "constructor prototype access"⟩,
    ⟨.knownExploits,
      ⟨all [text "Object.prototype.", someWord, blanks, text "=", .one ⟨[.one '='], true⟩], false⟩,
      "Object.prototype mutation"⟩,
    ⟨.knownExploits, ⟨.seq (text "Buffer.allocUnsafe") opening, false⟩,
      "uninitialized buffer allocation"⟩,
    ⟨.knownExploits,
      ⟨all [text "vm.runIn", optional (anyText ["New", "This"]), text "Context", opening], false⟩,
      "vm context escape"⟩]

/-- The built-in rules, category by category. -/
def builtin : List Rule :=
  codeExecution ++ dataExfiltration ++ obfuscation ++ systemAccess ++ cryptoMining ++
    persistence ++ antiDebugging ++ fingerprinting ++ knownExploits

end Catalog

end PackageRisk
