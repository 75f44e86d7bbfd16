import PackageRisk.Text.Blank
import PackageRisk.Text.WordChar

/-!
# Text patterns

Patterns over characters with word edges, ordered alternatives and greedy repetition, and the
search for them. Among the matches at one place the first in preference order counts: the left
alternative before the right one, a longer repetition before a shorter one. Among places the
leftmost counts, and successive matches do not overlap.

A matcher stands at a `Cursor`, which keeps the text behind it as well, so that the answer can be
read off together with its surroundings. Matching is in continuation style: what has to follow is
passed along, and a choice is undone when it has no continuation.
-/

namespace PackageRisk

/-- A place in a text: what lies behind it, nearest character first, and what lies ahead. -/
structure Cursor where
  behind : List Char
  ahead : List Char
  deriving DecidableEq, Repr

namespace Cursor

/-- The place before the first character. -/
def start (s : List Char) : Cursor :=
  ⟨[], s⟩

/-- The whole text around a place. -/
def text (c : Cursor) : List Char :=
  c.behind.reverse ++ c.ahead

/-- Exactly one of the two neighbours is a word character; outside the text there is none. -/
def onWordEdge (c : Cursor) : Bool :=
  c.behind.head?.any Text.isWordChar != c.ahead.head?.any Text.isWordChar

/-- One character back; the place before the first character stays. -/
def back (c : Cursor) : Cursor :=
  match c.behind with
  | [] => c
  | x :: behind => ⟨behind, x :: c.ahead⟩

@[simp] theorem text_start (s : List Char) : (start s).text = s := rfl

@[simp] theorem text_back (c : Cursor) : c.back.text = c.text := by
  obtain ⟨behind, ahead⟩ := c
  cases behind <;> simp [back, text]

end Cursor

/-- A member of a set of characters. -/
inductive CharItem where
  | one (c : Char)
  | range (first last : Char)
  | digit
  | word
  | blank
  deriving DecidableEq, Repr

/-- The characters that one of the items names, or with `negated` all others. -/
structure CharSet where
  items : List CharItem
  negated : Bool := false
  deriving DecidableEq, Repr

/-- The test behind a set item. -/
def CharItem.has (item : CharItem) (c : Char) : Bool :=
  match item with
  | .one d => c == d
  | .range first last => first ≤ c && c ≤ last
  | .digit => Text.isDecimalDigit c
  | .word => Text.isWordChar c
  | .blank => Text.isBlank c

/-- The ASCII characters that equal a character up to case. Two letters outside ASCII fold into
it: the long s and the Kelvin sign. -/
def caseVariants (c : Char) : List Char :=
  if c.isUpper then [c, c.toLower]
  else if c.isLower then [c, c.toUpper]
  else if c = '\u017F' then [c, 's', 'S']
  else if c = '\u212A' then [c, 'k', 'K']
  else [c]

/-- Membership; ignoring case, a character is a member when one of its case variants is. -/
def CharSet.has (set : CharSet) (ignoreCase : Bool) (c : Char) : Bool :=
  let named (d : Char) := set.items.any (·.has d)
  (if ignoreCase then (caseVariants c).any named else named c) != set.negated

/-- A pattern. Repetition is greedy; `span` repeats a set of characters and `times` any pattern,
at least `least` and at most `most` times. -/
inductive Pattern where
  | empty
  | one (set : CharSet)
  | wordEdge
  | seq (first second : Pattern)
  | alt (left right : Pattern)
  | span (set : CharSet) (least : Nat) (most : Option Nat)
  | times (body : Pattern) (least : Nat) (most : Option Nat)
  deriving DecidableEq, Repr

namespace Pattern

/-- Go over at most `rounds` characters of a set, counting them in `taken`. -/
def advance (accepts : Char → Bool) (behind : List Char) (taken : Nat) :
    (rounds : List Char) → Cursor × Nat
  | [] => (⟨behind, []⟩, taken)
  | c :: rest =>
    if accepts c then advance accepts (c :: behind) (taken + 1) rest
    else (⟨behind, c :: rest⟩, taken)

/-- As `advance`, but over at most `limit` characters. -/
def advanceUpTo (accepts : Char → Bool) (behind : List Char) (taken : Nat) :
    (limit : Nat) → List Char → Cursor × Nat
  | 0, ahead => (⟨behind, ahead⟩, taken)
  | _ + 1, [] => (⟨behind, []⟩, taken)
  | limit + 1, c :: rest =>
    if accepts c then advanceUpTo accepts (c :: behind) (taken + 1) limit rest
    else (⟨behind, c :: rest⟩, taken)

variable {β : Type}

/-- Continue here, or up to `n` characters further back. -/
def backOff (next : Cursor → Option β) : Nat → Cursor → Option β
  | 0, c => next c
  | n + 1, c =>
    match next c with
    | some b => some b
    | none => backOff next n c.back

/-- Take a matching step exactly `n` times. -/
def exactly (step : Cursor → (Cursor → Option β) → Option β) :
    Nat → Cursor → (Cursor → Option β) → Option β
  | 0, c, next => next c
  | n + 1, c, next => step c fun d => exactly step n d next

/-- Take a matching step as often as it goes, at most once for each element of `rounds`. -/
def asOften (step : Cursor → (Cursor → Option β) → Option β) :
    (rounds : List Char) → Cursor → (Cursor → Option β) → Option β
  | [], c, next => next c
  | _ :: rounds, c, next =>
    match step c fun d => asOften step rounds d next with
    | some b => some b
    | none => next c

/-- Match a pattern at a place and continue behind it. The choices are tried in preference order
until the continuation has an answer. Every round of a repetition takes a character, so the text
ahead bounds their number. -/
def run (ignoreCase : Bool) : Pattern → Cursor → (Cursor → Option β) → Option β
  | .empty, c, next => next c
  | .one set, c, next =>
    match c.ahead with
    | [] => none
    | x :: rest => if set.has ignoreCase x then next ⟨x :: c.behind, rest⟩ else none
  | .wordEdge, c, next => if c.onWordEdge then next c else none
  | .seq first second, c, next => run ignoreCase first c fun d => run ignoreCase second d next
  | .alt left right, c, next =>
    match run ignoreCase left c next with
    | some b => some b
    | none => run ignoreCase right c next
  | .span set least most, c, next =>
    let (stop, taken) :=
      match most with
      | none => advance (set.has ignoreCase) c.behind 0 c.ahead
      | some limit => advanceUpTo (set.has ignoreCase) c.behind 0 limit c.ahead
    if taken < least then none else backOff next (taken - least) stop
  | .times body least most, c, next =>
    exactly (run ignoreCase body) least c fun d =>
      let rounds :=
        match most with
        | none => d.ahead
        | some limit => d.ahead.take (limit - least)
      asOften (run ignoreCase body) rounds d next

/-- The place where the preferred match of a pattern at a place ends. -/
def matchAt? (ignoreCase : Bool) (p : Pattern) (c : Cursor) : Option Cursor :=
  p.run ignoreCase c some

/-! ## Building patterns -/

/-- One given character. -/
def char (c : Char) : Pattern :=
  .one ⟨[.one c], false⟩

/-- Patterns one after the other. -/
def all : List Pattern → Pattern
  | [] => .empty
  | [p] => p
  | p :: rest => .seq p (all rest)

/-- The first of several patterns that leads to a match. -/
def any : List Pattern → Pattern
  | [] => .empty
  | [p] => p
  | p :: rest => .alt p (any rest)

/-- The characters of a text in order. -/
def text (s : String) : Pattern :=
  all (s.toList.map char)

/-- One of several texts. -/
def anyText (texts : List String) : Pattern :=
  any (texts.map text)

/-- One of the characters of a text. -/
def oneOf (s : String) : Pattern :=
  .one ⟨s.toList.map .one, false⟩

/-- Any number of blanks. -/
def blanks : Pattern :=
  .span ⟨[.blank], false⟩ 0 none

/-- One blank or more. -/
def someBlanks : Pattern :=
  .span ⟨[.blank], false⟩ 1 none

/-- One word character or more. -/
def someWord : Pattern :=
  .span ⟨[.word], false⟩ 1 none

/-- A pattern or nothing. -/
def optional (p : Pattern) : Pattern :=
  .times p 0 (some 1)

/-- One given character or nothing. -/
def optionalChar (c : Char) : Pattern :=
  .span ⟨[.one c], false⟩ 0 (some 1)

/-- A text between word edges. -/
def word (s : String) : Pattern :=
  all [.wordEdge, text s, .wordEdge]

end Pattern

/-- A pattern with the way letters are compared. -/
structure Search where
  pattern : Pattern
  ignoreCase : Bool := false
  deriving DecidableEq, Repr

/-- An occurrence: the place where it begins and the place where it ends. -/
structure Occurrence where
  start : Cursor
  stop : Cursor
  deriving DecidableEq, Repr

/-- The characters between the two ends. -/
def Occurrence.text (o : Occurrence) : List Char :=
  o.start.ahead.take (o.start.ahead.length - o.stop.ahead.length)

namespace Search

/-- The first place at which a matching step succeeds. -/
def findFrom (step : Cursor → Option Cursor) (behind : List Char) :
    (ahead : List Char) → Option Occurrence
  | [] => (step ⟨behind, []⟩).map fun stop => ⟨⟨behind, []⟩, stop⟩
  | c :: rest =>
    match step ⟨behind, c :: rest⟩ with
    | some stop => some ⟨⟨behind, c :: rest⟩, stop⟩
    | none => findFrom step (c :: behind) rest

/-- Put the occurrences from a place on in front of `found`, last first. Every occurrence takes a
character, so the text bounds their number. -/
def collectFrom (step : Cursor → Option Cursor) :
    (rounds : List Char) → Cursor → (found : List Occurrence) → List Occurrence
  | [], _, found => found
  | _ :: rounds, c, found =>
    match findFrom step c.behind c.ahead with
    | none => found
    | some o => collectFrom step rounds o.stop (o :: found)

/-- The leftmost occurrence in a text. -/
def first? (s : Search) (text : List Char) : Option Occurrence :=
  findFrom (s.pattern.matchAt? s.ignoreCase) [] text

/-- The pattern occurs somewhere in a text. -/
def occursIn (s : Search) (text : List Char) : Bool :=
  (s.first? text).isSome

/-- The successive occurrences in a text, for a pattern that matches no empty text. -/
def all (s : Search) (text : List Char) : List Occurrence :=
  (collectFrom (s.pattern.matchAt? s.ignoreCase) text (.start text) []).reverse

/-- The number of successive occurrences. -/
def count (s : Search) (text : List Char) : Nat :=
  (s.all text).length

end Search

end PackageRisk
