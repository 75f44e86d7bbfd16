import PackageRisk.Number.Decimal

/-!
# JSON values

Values of the interchange format. Objects keep their members in order, repeated names included,
so that a reader of some type can judge repetitions by its own rules.
-/

namespace PackageRisk.Json

/-- A JSON value. Whole numbers within 64 bits are integers, other numbers are binary. A value
that is well formed but stands for nothing, such as a number beyond all bounds or a string that is
not UTF-8, is `unreadable`. -/
inductive Value where
  | null
  | bool (b : Bool)
  | int (n : Int)
  | float (x : Binary64)
  | str (s : String)
  | arr (elements : List Value)
  | obj (members : List (String × Value))
  | unreadable
  deriving Repr

instance : Inhabited Value := ⟨.null⟩

/-- A text or null. -/
def Value.ofText? : Option String → Value
  | some s => .str s
  | none => .null

/-- A count or null. -/
def Value.ofNat? : Option Nat → Value
  | some n => .int n
  | none => .null

/-- A list of texts. -/
def Value.ofTexts (texts : List String) : Value :=
  .arr (texts.map .str)

/-- An object member that is left out when there is no value. -/
def memberIfSome (name : String) : Option Value → List (String × Value)
  | some v => [(name, v)]
  | none => []

/-- The greatest natural number of 64 bits. -/
def maxUnsigned : Nat := UInt64.size - 1

/-- The least integer of 64 bits. -/
def minSigned : Int := Int64.minValue.toInt

/-- The greatest integer of 64 bits with a sign. -/
def maxSigned : Int := Int64.maxValue.toInt

end PackageRisk.Json
