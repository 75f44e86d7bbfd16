import PackageRisk.Text.Utf8

/-!
# Lines of bytes

A line feed ends whatever character is under way, and reading starts afresh behind it. So bytes are
read line by line, sound or not.
-/

namespace PackageRisk.Utf8

/-- The next byte of the character under way is none of ASCII. -/
def Reader.BeyondAscii (r : Reader) : Prop :=
  ∀ p, r.pending = some p → 0x80 ≤ p.lowest

/-- The second reader has read what the first one has, and some characters before. -/
structure Reader.Continues (before : List Char) (r s : Reader) : Prop where
  chars : s.chars = r.chars ++ before
  pending : s.pending = r.pending

/-- A line feed as bytes. -/
def lineFeed : ByteArray :=
  ⟨#[0x0A]⟩

/-- A character that a byte begins goes on with a byte beyond ASCII. -/
def BeginsBeyondAscii (meaning : Except Partial (Option Char)) : Prop :=
  ∀ p, meaning = .error p → 0x80 ≤ p.lowest

namespace BeginsBeyondAscii

theorem whole (c : Option Char) : BeginsBeyondAscii (.ok c) := nofun

theorem begun {bits missing lowest highest : Nat} (beyond : 0x80 ≤ lowest) :
    BeginsBeyondAscii (.error ⟨bits, missing, lowest, highest⟩) := by
  intro p same
  obtain rfl := Except.error.inj same
  exact beyond

theorem ite {c : Prop} [Decidable c] {x y : Except Partial (Option Char)}
    (first : BeginsBeyondAscii x) (other : BeginsBeyondAscii y) :
    BeginsBeyondAscii (if c then x else y) := by
  split
  · exact first
  · exact other

theorem lead (b : Nat) : BeginsBeyondAscii (Utf8.lead b) :=
  ite (whole _) <| ite (whole _) <| ite (begun (by decide)) <| ite (begun (by decide)) <|
    ite (begun (by decide)) <| ite (begun (by decide)) <| ite (begun (by decide)) <|
    ite (begun (by decide)) <| ite (begun (by decide)) (whole _)

end BeginsBeyondAscii

namespace Reader

variable {r s : Reader} {before : List Char}

theorem beyondAscii_of_none (none : r.pending = none) : r.BeyondAscii := by
  intro p pending
  rw [none] at pending
  cases pending

theorem beyondAscii_start (r : Reader) (b : Nat) : (r.start b).BeyondAscii := by
  unfold start
  split
  · exact beyondAscii_of_none rfl
  · exact beyondAscii_of_none rfl
  · rename_i p begun
    intro q pending
    cases pending
    exact BeginsBeyondAscii.lead b p begun

theorem beyondAscii_step (r : Reader) (byte : UInt8) : (r.step byte).BeyondAscii := by
  unfold step
  dsimp only
  split
  · exact r.beyondAscii_start _
  · split
    · split
      · exact beyondAscii_of_none rfl
      · intro q pending
        obtain rfl := Option.some.inj pending
        exact Nat.le_refl 0x80
    · exact beyondAscii_start _ _

theorem beyondAscii_foldl (bytes : List UInt8) (h : r.BeyondAscii) :
    (bytes.foldl step r).BeyondAscii := by
  induction bytes generalizing r with
  | nil => exact h
  | cons byte bytes ih => exact ih (r.beyondAscii_step byte)

/-- A line feed ends the character under way and is read as itself. -/
theorem BeyondAscii.step_lineFeed (h : r.BeyondAscii) :
    Continues ('\n' :: r.finish.chars) {} (r.step 0x0A) := by
  have feed (s : Reader) : Continues ('\n' :: s.chars) {} (s.start 0x0A) := ⟨rfl, rfl⟩
  unfold Reader.step Reader.finish
  cases pending : r.pending with
  | none => exact feed r
  | some p =>
    have high : ¬ p.lowest ≤ (0x0A : UInt8).toNat := fun le =>
      absurd (Nat.le_trans (h p pending) le) (by decide)
    simp only [high, decide_false, Bool.false_and, Bool.false_eq_true, if_false]
    exact feed { r with chars := replacement :: r.chars, valid := false }

theorem Continues.start (h : Continues before r s) (b : Nat) :
    Continues before (r.start b) (s.start b) := by
  unfold Reader.start
  split
  · rename_i c _
    exact ⟨congrArg (c :: ·) h.chars, rfl⟩
  · exact ⟨congrArg (replacement :: ·) h.chars, rfl⟩
  · exact ⟨h.chars, rfl⟩

theorem Continues.step (h : Continues before r s) (byte : UInt8) :
    Continues before (r.step byte) (s.step byte) := by
  unfold Reader.step
  rw [h.pending]
  dsimp only
  split
  · exact h.start _
  · split
    · split
      · exact ⟨congrArg _ h.chars, rfl⟩
      · exact ⟨h.chars, rfl⟩
    · refine Continues.start ?_ _
      exact ⟨congrArg (replacement :: ·) h.chars, rfl⟩

theorem Continues.foldl (h : Continues before r s) (bytes : List UInt8) :
    Continues before (bytes.foldl Reader.step r) (bytes.foldl Reader.step s) := by
  induction bytes generalizing r s with
  | nil => exact h
  | cons byte bytes ih => exact ih (h.step byte)

theorem Continues.finish (h : Continues before r s) :
    s.finish.chars = r.finish.chars ++ before := by
  unfold Reader.finish
  rw [h.pending]
  split
  · exact h.chars
  · exact congrArg (replacement :: ·) h.chars

end Reader

/-- Lines are read one by one. -/
theorem decodeLossy_append_line (first rest : ByteArray) :
    decodeLossy (first ++ lineFeed ++ rest) =
      decodeLossy first ++ '\n' :: decodeLossy rest := by
  have started : ({} : Reader).BeyondAscii := Reader.beyondAscii_of_none rfl
  have begun := Reader.beyondAscii_foldl first.data.toList started
  have continued := (begun.step_lineFeed.foldl rest.data.toList).finish
  have whole : (read (first ++ lineFeed ++ rest)).chars =
      (read rest).chars ++ '\n' :: (read first).chars := by
    simp only [read, ← Array.foldl_toList, ByteArray.data_append, Array.toList_append,
      List.foldl_append]
    exact continued
  rw [decodeLossy, whole, List.reverse_append, List.reverse_cons, List.append_assoc]
  rfl

end PackageRisk.Utf8
