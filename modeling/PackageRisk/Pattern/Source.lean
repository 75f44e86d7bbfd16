import PackageRisk.Pattern.Basic

/-!
# Written patterns

The customary notation for patterns: escapes for the characters with a meaning of their own,
brackets for sets, parentheses around alternatives inside a sequence and around a repeated group,
and a leading mark for searches that ignore case.
-/

namespace PackageRisk

/-- A character outside brackets. -/
def escapeChar (c : Char) : List Char :=
  if "\\.+*?()|[]\x7b\x7d^$".toList.contains c then ['\\', c] else [c]

/-- A set item inside brackets. -/
def CharItem.source : CharItem → List Char
  | .one c => if "\\]^-[".toList.contains c then ['\\', c] else [c]
  | .range first last => [first, '-', last]
  | .digit => ['\\', 'd']
  | .word => ['\\', 'w']
  | .blank => ['\\', 's']

/-- A single positive item stands without brackets. -/
def CharSet.source (set : CharSet) : List Char :=
  match set.negated, set.items with
  | false, [.one c] => escapeChar c
  | false, [.digit] => CharItem.source .digit
  | false, [.word] => CharItem.source .word
  | false, [.blank] => CharItem.source .blank
  | negated, items =>
    '[' :: (if negated then ['^'] else []) ++ items.flatMap CharItem.source ++ [']']

namespace Pattern

/-- The mark of a repetition between two bounds. -/
def repetitionMark (least : Nat) (most : Option Nat) : List Char :=
  let braced (s : String) := '\x7b' :: s.toList ++ ['\x7d']
  match least, most with
  | 0, none => ['*']
  | 1, none => ['+']
  | 0, some 1 => ['?']
  | n, none => braced (toString n ++ ",")
  | n, some m => braced (if n = m then toString n else toString n ++ "," ++ toString m)

/-- Write a pattern; `grouped` puts alternatives in parentheses. -/
def sourceWithin (grouped : Bool) : Pattern → List Char
  | .empty => []
  | .one set => set.source
  | .wordEdge => ['\\', 'b']
  | .seq first second => first.sourceWithin true ++ second.sourceWithin true
  | .alt left right =>
    let choices := left.sourceWithin false ++ '|' :: right.sourceWithin false
    if grouped then '(' :: choices ++ [')'] else choices
  | .span set least most => set.source ++ repetitionMark least most
  | .times body least most =>
    '(' :: body.sourceWithin false ++ ')' :: repetitionMark least most

end Pattern

/-- The written form of a search. -/
def Search.source (s : Search) : String :=
  String.ofList
    ((if s.ignoreCase then "(?i)".toList else []) ++ s.pattern.sourceWithin false)

end PackageRisk
