import PackageRisk.Json.Value
import PackageRisk.NameMap

/-!
# Typed JSON

Values of known types out of JSON values. A record is an object with its members under their
names, each at most once, other members being passed over; or an array of the members in order.
A reader fails without saying why.
-/

namespace PackageRisk.Json

/-- A member of a record: the names it may have, and whether an array may end before it. -/
structure Member where
  names : List String
  hasDefault : Bool := false

/-- A text. -/
def text? : Value → Option String
  | .str s => some s
  | _ => none

/-- A truth value. -/
def bool? : Value → Option Bool
  | .bool b => some b
  | _ => none

/-- A whole number of 64 bits without a sign. -/
def unsigned? : Value → Option Nat
  | .int n => if 0 ≤ n ∧ n ≤ maxUnsigned then some n.toNat else none
  | _ => none

/-- A whole number of 64 bits with a sign. -/
def signed? : Value → Option Int
  | .int n => if minSigned ≤ n ∧ n ≤ maxSigned then some n else none
  | _ => none

/-- A value, or null for none. -/
def nullable? {α : Type} (read : Value → Option α) : Value → Option (Option α)
  | .null => some none
  | v => (read v).map some

/-- A list. -/
def list? {α : Type} (read : Value → Option α) : Value → Option (List α)
  | .arr elements => elements.mapM read
  | _ => none

/-- A map from names; of several members with one name the last counts. -/
def map? {α : Type} (read : Value → Option α) : Value → Option (NameMap α)
  | .obj members =>
    (members.mapM fun (m : String × Value) => (read m.2).map fun a => (m.1, a)).map NameMap.ofList
  | _ => none

/-- The value of a member of an object, if it is there, provided that it is not repeated. -/
def memberOf? (members : List (String × Value)) (m : Member) : Option (Option Value) :=
  match members.filter fun p => m.names.contains p.1 with
  | [] => some none
  | [(_, v)] => some (some v)
  | _ => none

/-- The values of the members of a record written as an object. -/
def objectMembers? (record : List Member) : Value → Option (List (Option Value))
  | .obj members => record.mapM (memberOf? members)
  | _ => none

/-- The values of the members of a record, in order. -/
def recordMembers? (record : List Member) : Value → Option (List (Option Value))
  | .arr elements =>
    let absent := record.drop elements.length
    if elements.length ≤ record.length && absent.all (·.hasDefault) then
      some (elements.map some ++ absent.map fun _ => none)
    else none
  | v => objectMembers? record v

/-- The member at a position. -/
def memberAt (values : List (Option Value)) (i : Nat) : Option Value :=
  (values[i]?).join

/-- A member that must be there. -/
def required? {α : Type} (read : Value → Option α) (v : Option Value) : Option α :=
  v.bind read

/-- A member that may be absent or null. -/
def optional? {α : Type} (read : Value → Option α) : Option Value → Option (Option α)
  | none => some none
  | some v => nullable? read v

/-- A member that has a default when it is absent. -/
def withDefault? {α : Type} (default : α) (read : Value → Option α) : Option Value → Option α
  | none => some default
  | some v => read v

mutual

/-- The number of arrays and objects around the innermost value. -/
def Value.depth : Value → Nat
  | .arr elements => depthOfElements elements + 1
  | .obj members => depthOfMembers members + 1
  | _ => 0

/-- The greatest depth of some elements. -/
def depthOfElements : List Value → Nat
  | [] => 0
  | v :: rest => max v.depth (depthOfElements rest)

/-- The greatest depth of some members. -/
def depthOfMembers : List (String × Value) → Nat
  | [] => 0
  | (_, v) :: rest => max v.depth (depthOfMembers rest)

end

mutual

/-- Everything in a value stands for something. -/
def Value.isReadable : Value → Bool
  | .arr elements => elementsReadable elements
  | .obj members => membersReadable members
  | .unreadable => false
  | _ => true

/-- Everything in some elements stands for something. -/
def elementsReadable : List Value → Bool
  | [] => true
  | v :: rest => v.isReadable && elementsReadable rest

/-- Everything in some members stands for something. -/
def membersReadable : List (String × Value) → Bool
  | [] => true
  | (_, v) :: rest => v.isReadable && membersReadable rest

end

/-- Levels of nesting within which free values are read. -/
def maxDepth : Nat := 127

/-- A value of any kind that stands `level` levels deep in its text. -/
def free? (level : Nat) (v : Value) : Option Value :=
  if v.isReadable && level + v.depth ≤ maxDepth then some v else none

end PackageRisk.Json
