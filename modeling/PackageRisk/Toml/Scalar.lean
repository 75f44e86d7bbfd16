import PackageRisk.Instant
import PackageRisk.Text.Integer
import PackageRisk.Text.Letters
import PackageRisk.Toml.Value

/-!
# TOML scalars

Reading strings, numbers, dates and times. Every reader takes the text from its first character
and answers with a value and the text after it.
-/

namespace PackageRisk.Toml

/-- A reader of something at the front of a text. -/
abbrev Reader (α : Type) := List Char → Option (α × List Char)

/-- Blanks within a line. -/
def isSpace (c : Char) : Bool :=
  c == ' ' || c == '\t'

/-- Without blanks at the front. -/
def skipSpaces (s : List Char) : List Char :=
  s.dropWhile isSpace

/-- A line end at the front; what follows it. -/
def afterNewline? : List Char → Option (List Char)
  | '\n' :: rest => some rest
  | '\r' :: '\n' :: rest => some rest
  | _ => none

/-- A character that may stand in a comment or in a literal string. -/
def isPlainChar (c : Char) : Bool :=
  c == '\t' || (32 ≤ c.toNat && c.toNat != 127)

/-! ## Strings -/

/-- The character with a number. -/
def scalar? (n : Nat) : Option Char :=
  if n < 0xD800 ∨ (0xDFFF < n ∧ n < 0x110000) then some (Char.ofNat n) else none

/-- The character of an escape after its backslash. -/
def escape? : Reader Char
  | 'b' :: rest => some ('\x08', rest)
  | 't' :: rest => some ('\t', rest)
  | 'n' :: rest => some ('\n', rest)
  | 'f' :: rest => some ('\x0c', rest)
  | 'r' :: rest => some ('\r', rest)
  | '"' :: rest => some ('"', rest)
  | '\\' :: rest => some ('\\', rest)
  | 'u' :: rest =>
    if rest.length < 4 then none
    else ((Text.hexNumber? (rest.take 4)).bind scalar?).map fun c => (c, rest.drop 4)
  | 'U' :: rest =>
    if rest.length < 8 then none
    else ((Text.hexNumber? (rest.take 8)).bind scalar?).map fun c => (c, rest.drop 8)
  | _ => none

/-- The rest of a basic string of one line; the characters so far stand last first. -/
def basicFrom? : (fuel : Nat) → (sofar : List Char) → Reader String
  | 0, _, _ => none
  | fuel + 1, sofar, s =>
    match s with
    | '"' :: rest => some (String.ofList sofar.reverse, rest)
    | '\\' :: rest =>
      match escape? rest with
      | some (c, rest) => basicFrom? fuel (c :: sofar) rest
      | none => none
    | c :: rest => if isPlainChar c then basicFrom? fuel (c :: sofar) rest else none
    | [] => none

/-- The rest of a literal string of one line. -/
def literalFrom? (s : List Char) : Option (String × List Char) :=
  let text := s.takeWhile fun c => isPlainChar c && c != '\''
  match s.drop text.length with
  | '\'' :: rest => some (String.ofList text, rest)
  | _ => none

/-- Without blanks and line ends at the front. -/
def skipBlankLines : List Char → List Char
  | '\r' :: '\n' :: rest => skipBlankLines rest
  | c :: rest => if isSpace c || c == '\n' then skipBlankLines rest else c :: rest
  | [] => []

/-- Blanks and at least one line end, after a backslash at the end of a line; what follows them. -/
def afterContinuation? (s : List Char) : Option (List Char) :=
  (afterNewline? (skipSpaces s)).map skipBlankLines

/-- Quotation marks at the front of a string of several lines. Three or more end it, and then up
to two of them belong to it. -/
def closingQuotes? (quote : Char) (s : List Char) : Option (List Char × List Char) :=
  let quotes := s.takeWhile (· == quote)
  if quotes.length < 3 then none
  else
    let kept := min (quotes.length - 3) 2
    some (List.replicate kept quote, s.drop (kept + 3))

/-- The rest of a basic string of several lines. -/
def basicLinesFrom? : (fuel : Nat) → (sofar : List Char) → Reader String
  | 0, _, _ => none
  | fuel + 1, sofar, s =>
    match closingQuotes? '"' s with
    | some (kept, rest) => some (String.ofList (sofar.reverse ++ kept), rest)
    | none =>
      match afterNewline? s with
      | some rest => basicLinesFrom? fuel ('\n' :: sofar) rest
      | none =>
        match s with
        | '\\' :: rest =>
          match afterContinuation? rest with
          | some rest => basicLinesFrom? fuel sofar rest
          | none =>
            match escape? rest with
            | some (c, rest) => basicLinesFrom? fuel (c :: sofar) rest
            | none => none
        | c :: rest => if isPlainChar c then basicLinesFrom? fuel (c :: sofar) rest else none
        | [] => none

/-- The rest of a literal string of several lines. -/
def literalLinesFrom? : (fuel : Nat) → (sofar : List Char) → Reader String
  | 0, _, _ => none
  | fuel + 1, sofar, s =>
    match closingQuotes? '\'' s with
    | some (kept, rest) => some (String.ofList (sofar.reverse ++ kept), rest)
    | none =>
      match afterNewline? s with
      | some rest => literalLinesFrom? fuel ('\n' :: sofar) rest
      | none =>
        match s with
        | c :: rest => if isPlainChar c then literalLinesFrom? fuel (c :: sofar) rest else none
        | [] => none

/-- Without the line end that may follow an opening delimiter. -/
def skipNewline (s : List Char) : List Char :=
  (afterNewline? s).getD s

/-- A string of any kind. -/
def string? : Reader String
  | '"' :: '"' :: '"' :: rest => basicLinesFrom? (rest.length + 1) [] (skipNewline rest)
  | '\'' :: '\'' :: '\'' :: rest => literalLinesFrom? (rest.length + 1) [] (skipNewline rest)
  | '"' :: rest => basicFrom? (rest.length + 1) [] rest
  | '\'' :: rest => literalFrom? rest
  | _ => none

/-! ## Numbers -/

/-- More digits after a first one, single underscores between digits allowed. The digits so far
stand last first. -/
def moreDigits? (isDigit : Char → Bool) (sofar : List Char) : Reader (List Char)
  | '_' :: c :: rest => if isDigit c then moreDigits? isDigit (c :: sofar) rest else none
  | ['_'] => none
  | c :: rest =>
    if isDigit c then moreDigits? isDigit (c :: sofar) rest
    else some (sofar.reverse, c :: rest)
  | [] => some (sofar.reverse, [])

/-- Digits, at least one. -/
def digits? (isDigit : Char → Bool) : Reader (List Char)
  | c :: rest => if isDigit c then moreDigits? isDigit [c] rest else none
  | [] => none

/-- Decimal digits that are a lone zero or do not begin with one. -/
def wholeDigits? : Reader (List Char)
  | '0' :: rest => some (['0'], rest)
  | s => digits? Char.isDigit s

/-- An integer, if it fits. -/
def integerValue? (negative : Bool) (n : Nat) : Option Value :=
  let i : Int := if negative then -n else n
  if minInteger ≤ i ∧ i ≤ maxInteger then some (.int i) else none

/-- An integer with a base mark. -/
def basedInteger? (isDigit : Char → Bool) (base : Nat) (s : List Char) :
    Option (Value × List Char) := do
  let (digits, rest) ← digits? isDigit s
  let n := digits.foldl (fun n c => n * base + (Text.hexValue? c).getD 0) 0
  return (← integerValue? false n, rest)

/-- A hexadecimal digit. -/
def isHexDigit (c : Char) : Bool :=
  (Text.hexValue? c).isSome

/-- An integer. -/
def integer? : Reader Value
  | '0' :: 'x' :: rest => basedInteger? isHexDigit 16 rest
  | '0' :: 'o' :: rest => basedInteger? (fun c => '0' ≤ c && c ≤ '7') 8 rest
  | '0' :: 'b' :: rest => basedInteger? (fun c => c == '0' || c == '1') 2 rest
  | s => do
    let (negative, s) := Text.sign s
    let (digits, rest) ← wholeDigits? s
    return (← integerValue? negative (Text.decimalValue digits), rest)

/-- The number `digits · 10 ^ exponent`. -/
def floatValue (negative : Bool) (digits : Nat) (exponent : Int) : Binary64 :=
  let magnitude :=
    if digits = 0 then Binary64.zero
    else if exponent < -400 - (toString digits).length then .zero
    else if 400 < exponent then .infinity
    else
      let (num, den) := scaleByTen digits 1 exponent
      .ofRatio num den
  if negative then magnitude.neg else magnitude

/-- The exponent of a float. -/
def exponent? : Reader Int
  | c :: rest =>
    if c = 'e' ∨ c = 'E' then do
      let (negative, rest) := Text.sign rest
      let (digits, rest) ← digits? Char.isDigit rest
      let n : Int := Text.decimalValue digits
      return (if negative then -n else n, rest)
    else none
  | [] => none

/-- Infinity and not-a-number, by name. -/
def specialFloat? (s : List Char) : Option (Value × List Char) :=
  let (negative, rest) := Text.sign s
  let signed (x : Binary64) : Value := .float (if negative then x.neg else x)
  match rest with
  | 'i' :: 'n' :: 'f' :: rest => some (signed .infinity, rest)
  | 'n' :: 'a' :: 'n' :: rest => some (signed .nan, rest)
  | _ => none

/-- A float: digits with a fraction or an exponent or both. One that is too great is refused. -/
def float? (s : List Char) : Option (Value × List Char) := do
  let (negative, rest) := Text.sign s
  let (whole, rest) ← wholeDigits? rest
  let (fraction, exponent, rest) ←
    match rest with
    | '.' :: rest => do
      let (fraction, rest) ← digits? Char.isDigit rest
      match exponent? rest with
      | some (exponent, rest) => some (fraction, exponent, rest)
      | none => some (fraction, 0, rest)
    | rest => (exponent? rest).map fun (exponent, rest) => ([], exponent, rest)
  let x := floatValue negative (Text.decimalValue (whole ++ fraction)) (exponent - fraction.length)
  if x = .infinity then none
  return (.float x, rest)

/-! ## Dates and times -/

/-- Exactly `count` digits, as they are, if the number they denote lies within bounds. -/
def boundedDigits? (count least most : Nat) (s : List Char) : Option (List Char × List Char) :=
  let digits := s.take count
  let n := Text.decimalValue digits
  if digits.length = count ∧ digits.all Char.isDigit ∧ least ≤ n ∧ n ≤ most then
    some (digits, s.drop count)
  else none

/-- A date of the calendar. -/
def date? : Reader (List Char) := fun s => do
  let (year, s) ← boundedDigits? 4 0 9999 s
  let (month, s) ← boundedDigits? 2 1 12 (← Text.dropLeading? s ['-'])
  let most := Instant.daysInMonth (Text.decimalValue year) (Text.decimalValue month)
  let (day, s) ← boundedDigits? 2 1 most (← Text.dropLeading? s ['-'])
  return (year ++ '-' :: month ++ '-' :: day, s)

/-- The fraction of a second, nine digits at most and without zeros at its end. -/
def secondFraction (s : List Char) : List Char × List Char :=
  match s with
  | '.' :: rest =>
    let digits := rest.takeWhile Char.isDigit
    if digits.isEmpty then ([], s)
    else
      let kept := ((digits.take 9).reverse.dropWhile (· == '0')).reverse
      (if kept.isEmpty then [] else '.' :: kept, rest.dropWhile Char.isDigit)
  | s => ([], s)

/-- A time of day. -/
def time? : Reader (List Char) := fun s => do
  let (hour, s) ← boundedDigits? 2 0 23 s
  let (minute, s) ← boundedDigits? 2 0 59 (← Text.dropLeading? s [':'])
  let (second, s) ← boundedDigits? 2 0 60 (← Text.dropLeading? s [':'])
  let (fraction, s) := secondFraction s
  return (hour ++ ':' :: minute ++ ':' :: second ++ fraction, s)

/-- An offset from UTC; none is written as plus. -/
def offset? : Reader (List Char)
  | 'Z' :: rest | 'z' :: rest => some (['Z'], rest)
  | c :: rest =>
    if c = '+' ∨ c = '-' then do
      let (hour, rest) ← boundedDigits? 2 0 23 rest
      let (minute, rest) ← boundedDigits? 2 0 59 (← Text.dropLeading? rest [':'])
      let zero := Text.decimalValue hour = 0 ∧ Text.decimalValue minute = 0
      return ((if zero then '+' else c) :: hour ++ ':' :: minute, rest)
    else none
  | [] => none

/-- A date, a time, or both with an optional offset. -/
def datetime? (s : List Char) : Option (Value × List Char) :=
  match date? s with
  | some (date, rest) =>
    let withTime : Option (List Char × List Char) :=
      match rest with
      | c :: rest => if c = 'T' ∨ c = 't' ∨ c = ' ' then time? rest else none
      | [] => none
    match withTime with
    | none => some (.datetime (String.ofList date), rest)
    | some (time, rest) =>
      match offset? rest with
      | none => some (.datetime (String.ofList (date ++ 'T' :: time)), rest)
      | some (offset, rest) =>
        some (.datetime (String.ofList (date ++ 'T' :: time ++ offset)), rest)
  | none => (time? s).map fun (time, rest) => (.datetime (String.ofList time), rest)

/-- A value other than an array or a table. -/
def scalarValue? (s : List Char) : Option (Value × List Char) :=
  match s with
  | '"' :: _ | '\'' :: _ => (string? s).map fun (text, rest) => (.str text, rest)
  | 't' :: 'r' :: 'u' :: 'e' :: rest => some (.bool true, rest)
  | 'f' :: 'a' :: 'l' :: 's' :: 'e' :: rest => some (.bool false, rest)
  | s => (datetime? s).orElse fun _ => (float? s).orElse fun _ =>
      (specialFloat? s).orElse fun _ => integer? s

end PackageRisk.Toml
