import PackageRisk.NameMap
import PackageRisk.Number.Decimal

/-!
# TOML values

Values of the configuration format. Tables list their members by ascending name. A date or time is
kept in its canonical written form.
-/

namespace PackageRisk.Toml

/-- A TOML value. -/
inductive Value where
  | str (s : String)
  | int (n : Int)
  | float (x : Binary64)
  | bool (b : Bool)
  | datetime (text : String)
  | arr (elements : List Value)
  | table (members : List (String × Value))
  deriving Repr

instance : Inhabited Value := ⟨.table []⟩

mutual

/-- Two values are the same. -/
def Value.same : Value → Value → Bool
  | .str s, .str t => s == t
  | .int m, .int n => m == n
  | .float x, .float y => x == y
  | .bool b, .bool c => b == c
  | .datetime s, .datetime t => s == t
  | .arr xs, .arr ys => sameElements xs ys
  | .table ms, .table ns => sameMembers ms ns
  | _, _ => false

/-- Two lists of elements are the same. -/
def sameElements : List Value → List Value → Bool
  | [], [] => true
  | x :: xs, y :: ys => x.same y && sameElements xs ys
  | _, _ => false

/-- Two lists of members are the same. -/
def sameMembers : List (String × Value) → List (String × Value) → Bool
  | [], [] => true
  | (m, x) :: ms, (n, y) :: ns => m == n && x.same y && sameMembers ms ns
  | _, _ => false

end

mutual

theorem Value.same_iff : (v w : Value) → (v.same w = true ↔ v = w)
  | .str _, w => by cases w <;> simp [Value.same]
  | .int _, w => by cases w <;> simp [Value.same]
  | .float _, w => by cases w <;> simp [Value.same]
  | .bool _, w => by cases w <;> simp [Value.same]
  | .datetime _, w => by cases w <;> simp [Value.same]
  | .arr xs, w => by cases w <;> simp [Value.same, sameElements_iff xs]
  | .table ms, w => by cases w <;> simp [Value.same, sameMembers_iff ms]

theorem sameElements_iff : (xs ys : List Value) → (sameElements xs ys = true ↔ xs = ys)
  | [], ys => by cases ys <;> simp [sameElements]
  | x :: xs, ys => by
    cases ys <;> simp [sameElements, Value.same_iff x, sameElements_iff xs]

theorem sameMembers_iff : (ms ns : List (String × Value)) → (sameMembers ms ns = true ↔ ms = ns)
  | [], ns => by cases ns <;> simp [sameMembers]
  | (m, v) :: ms, ns => by
    cases ns <;> simp [sameMembers, Prod.ext_iff, Value.same_iff v, sameMembers_iff ms]

end

instance : DecidableEq Value := fun v w =>
  decidable_of_iff (v.same w = true) (v.same_iff w)

/-- A table as the list of its members. -/
abbrev Table := List (String × Value)

namespace Table

/-- The value under a name. -/
def get? (t : Table) (name : String) : Option Value :=
  (t.find? fun m => m.1 == name).map Prod.snd

/-- The table with a value under a name. -/
def set (t : Table) (name : String) (v : Value) : Table :=
  insertPair name v t

theorem get?_set_self (t : Table) (name : String) (v : Value) :
    (t.set name v).get? name = some v := by
  unfold get? set
  induction t with
  | nil => simp [insertPair]
  | cons head rest ih =>
    simp only [insertPair]
    split
    · simp
    · split
      · simp
      · rename_i ne
        simpa [ne, Ne.symm ne] using ih

theorem get?_set_of_ne (t : Table) {name other : String} (ne : other ≠ name) (v : Value) :
    (t.set name v).get? other = t.get? other := by
  have passed : (name == other) = false := beq_false_of_ne ne.symm
  unfold get? set
  induction t with
  | nil => simp [insertPair, passed]
  | cons head rest ih =>
    simp only [insertPair]
    split
    · simp [passed]
    · split
      · rename_i same
        simp [← same, passed]
      · simp only [List.find?_cons]
        split
        · rfl
        · exact ih

end Table

/-- The least integer of the format. -/
def minInteger : Int := Int64.minValue.toInt

/-- The greatest integer of the format. -/
def maxInteger : Int := Int64.maxValue.toInt

end PackageRisk.Toml
