/-!
# Blank characters

White space in the sense of Unicode's `White_Space` property, and the text operations that are
defined by it alone: trimming, cutting into words, and collapsing runs of blanks.

Each operation exists on lists of characters, where laws about it are stated, and on strings.
-/

namespace PackageRisk.Text

/-- A character with the Unicode property `White_Space`. -/
def isBlank (c : Char) : Bool :=
  let n := c.toNat
  n == 32 || (9 ≤ n && n ≤ 13) || n == 0x85 || n == 0xA0 || n == 0x1680 ||
    (0x2000 ≤ n && n ≤ 0x200A) || n == 0x2028 || n == 0x2029 || n == 0x202F ||
    n == 0x205F || n == 0x3000

/-- Drop the blanks at both ends. -/
def trimChars (s : List Char) : List Char :=
  ((s.dropWhile isBlank).reverse.dropWhile isBlank).reverse

/-- Drop the blanks at both ends. -/
def trim (s : String) : String :=
  String.ofList (trimChars s.toList)

/-- Nothing but blanks. -/
def isBlankText (s : String) : Bool :=
  s.toList.all isBlank

/-- The words of a text, where `word` holds the characters of the current one, last first. -/
def wordsFrom (word : List Char) : List Char → List (List Char)
  | [] => if word.isEmpty then [] else [word.reverse]
  | c :: rest =>
    if isBlank c then
      if word.isEmpty then wordsFrom [] rest else word.reverse :: wordsFrom [] rest
    else wordsFrom (c :: word) rest

/-- The maximal runs of characters that are not blank, in order. -/
def words (s : List Char) : List (List Char) :=
  wordsFrom [] s

/-- Join texts with a separator between neighbours. -/
def join (separator : List Char) : List (List Char) → List Char
  | [] => []
  | [s] => s
  | s :: rest => s ++ separator ++ join separator rest

/-- The words of a text with one space between neighbours. -/
def collapse (s : List Char) : List Char :=
  join [' '] (words s)

@[simp] theorem words_nil : words [] = [] := rfl

@[simp] theorem collapse_nil : collapse [] = [] := rfl

@[simp] theorem trimChars_nil : trimChars [] = [] := rfl

end PackageRisk.Text
