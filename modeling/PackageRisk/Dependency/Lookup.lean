import PackageRisk.Failure

/-!
# Lookups

What can become of a lookup elsewhere: it is answered or fails, it never ends, or the task that
made it crashes. A time limit turns a lookup that never ends into a network failure.
-/

namespace PackageRisk

/-- The outcome of a lookup. -/
inductive Lookup (α : Type) where
  | done (result : Except Failure α)
  | hangs
  | crashes

namespace Lookup

variable {α : Type}

/-- An answer. -/
def answer (a : α) : Lookup α :=
  .done (.ok a)

/-- The failure of a lookup that took longer than its limit. -/
def timeoutFailure (seconds : Nat) (activity : String) : Failure :=
  .network ("timed out after " ++ toString seconds ++ "s while " ++ activity)

/-- A lookup with a time limit. -/
def within (seconds : Nat) (activity : String) : Lookup α → Lookup α
  | .hangs => .done (.error (timeoutFailure seconds activity))
  | l => l

/-- A lookup with a time limit never hangs. -/
theorem within_ne_hangs (seconds : Nat) (activity : String) (l : Lookup α) :
    l.within seconds activity ≠ .hangs := by
  cases l <;> simp [within]

end Lookup

end PackageRisk
