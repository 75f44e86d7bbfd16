import Mathlib.Algebra.BigOperators.Group.List.Basic
import Mathlib.Data.Rat.Cast.Order
import Mathlib.Tactic.Linarith
import Mathlib.Tactic.Ring
import PackageRisk.Inspection.Obfuscation
import PackageRisk.Proofs.Pattern.Lines

/-!
# Density of obfuscated code

No sign of obfuscation goes over the end of a line, so signs are counted line by line, and so are
characters. Copies of a text on lines of their own have as many signs for a character as the text
itself, and texts on one side of the limit stay there when they are put together. The size of a file
plays no part.
-/

namespace PackageRisk

/-! ## Texts without code -/

namespace Text

/-- The blank characters. -/
def blankChars : List Char :=
  ['\t', '\n', '\x0b', '\x0c', '\r', ' ', '\u0085', '\u00a0', '\u1680', '\u2000', '\u2001',
    '\u2002', '\u2003', '\u2004', '\u2005', '\u2006', '\u2007', '\u2008', '\u2009', '\u200a',
    '\u2028', '\u2029', '\u202f', '\u205f', '\u3000']

theorem mem_blankChars {c : Char} (blank : isBlank c = true) : c ∈ blankChars := by
  have codes : blankChars.map Char.toNat =
      [9, 10, 11, 12, 13, 32, 0x85, 0xA0, 0x1680, 0x2000, 0x2001, 0x2002, 0x2003, 0x2004, 0x2005,
        0x2006, 0x2007, 0x2008, 0x2009, 0x200A, 0x2028, 0x2029, 0x202F, 0x205F, 0x3000] := rfl
  have coded : c.toNat ∈ blankChars.map Char.toNat := by
    simp only [isBlank, Bool.or_eq_true, Bool.and_eq_true, beq_iff_eq, decide_eq_true_eq] at blank
    simp only [codes, List.mem_cons, List.not_mem_nil, or_false]
    omega
  obtain ⟨d, mem, same⟩ := List.mem_map.mp coded
  rwa [← Char.toNat_inj.mp same]

end Text

namespace Pattern

variable {β : Type} {ignoreCase : Bool} {given : List Char}

/-- Whatever the pattern matches has a character that is not among the given ones. -/
def needsOther (ignoreCase : Bool) (given : List Char) : Pattern → Bool
  | .empty | .wordEdge => false
  | .one set => given.all fun c => !set.has ignoreCase c
  | .seq first second => first.needsOther ignoreCase given || second.needsOther ignoreCase given
  | .alt preferred other =>
    preferred.needsOther ignoreCase given && other.needsOther ignoreCase given
  | .span set least _ => least != 0 && given.all fun c => !set.has ignoreCase c
  | .times _ _ _ => false

/-- A pattern that needs another character matches nothing before given ones only. -/
theorem run_given (p : Pattern) (needs : p.needsOther ignoreCase given = true) {c : Cursor}
    (only : c.ahead ⊆ given) (next : Cursor → Option β) : p.run ignoreCase c next = none := by
  have refused {set : CharSet} (refuses : (given.all fun c => !set.has ignoreCase c) = true)
      {x : Char} (mem : x ∈ given) : set.has ignoreCase x = false := by
    simpa using List.all_eq_true.mp refuses x mem
  induction p generalizing c next with
  | empty | wordEdge | times => cases needs
  | one set =>
    obtain ⟨behind, ahead⟩ := c
    cases ahead with
    | nil => rfl
    | cons x ahead => simp [run, refused needs (only List.mem_cons_self)]
  | seq first second ih₁ ih₂ =>
    rw [run]
    rcases Bool.or_eq_true_iff.mp needs with needs | needs
    · exact ih₁ needs only _
    · -- Wherever the first part ends, what lies ahead is still given.
      refine Option.eq_none_iff_forall_ne_some.mpr fun b found => ?_
      obtain ⟨n, -, -, rest⟩ := run_takes first _ _ _ found
      have later : (c.forward n).ahead ⊆ given := fun x mem => only (List.mem_of_mem_drop mem)
      rw [ih₂ needs later] at rest
      cases rest
  | alt preferred other ih₁ ih₂ =>
    obtain ⟨needs₁, needs₂⟩ := Bool.and_eq_true_iff.mp needs
    rw [run_alt, ih₁ needs₁ only, ih₂ needs₂ only]
    rfl
  | span set least most =>
    obtain ⟨some_least, refuses⟩ := Bool.and_eq_true_iff.mp needs
    refine Option.not_isSome_iff_eq_none.mp fun found => ?_
    obtain ⟨n, ge, le, -⟩ := isSome_run_span_iff.mp found
    have stops : reach (set.has ignoreCase) most c.ahead = 0 := by
      obtain ⟨behind, ahead⟩ := c
      cases ahead with
      | nil => exact Nat.le_zero.mp (reach_le _ _ _)
      | cons x ahead =>
        have stop := refused refuses (only List.mem_cons_self)
        cases most with
        | none => simp [reach, stop]
        | some limit => cases limit <;> simp [reach, stop]
    simp only [bne_iff_ne] at some_least
    omega

end Pattern

namespace Search

/-- Occurrences before a line feed and after it are counted apart. -/
theorem count_append_line (s : Search) (stays : s.pattern.staysInLine s.ignoreCase = true)
    (takes : 0 < s.pattern.fewest) (first rest : List Char) :
    s.count (first ++ '\n' :: rest) = s.count first + s.count rest := by
  rw [count, all_append_line s stays takes, List.length_append, List.length_map, List.length_map]
  rfl

/-- What needs another character does not occur in a text of given ones. -/
theorem count_given {s : Search} {given text : List Char}
    (needs : s.pattern.needsOther s.ignoreCase given = true) (only : text ⊆ given) :
    s.count text = 0 := by
  have nothing (c : Cursor) (inside : c.ahead ⊆ given) :
      findFrom (s.pattern.matchAt? s.ignoreCase) c.behind c.ahead = none := by
    refine Option.not_isSome_iff_eq_none.mp fun found => ?_
    obtain ⟨n, -, here⟩ := isSome_findFrom_iff.mp found
    have later : (c.forward n).ahead ⊆ given := fun x mem => inside (List.mem_of_mem_drop mem)
    rw [Pattern.matchAt?, Pattern.run_given _ needs later] at here
    cases here
  rw [count, all]
  cases text with
  | nil => rfl
  | cons x rest =>
    rw [collectFrom, nothing _ only]
    rfl

end Search

/-! ## Measures -/

namespace Obfuscation

/-- Signs and characters of two texts together. -/
instance : Add Measure :=
  ⟨fun m n => ⟨m.indicators + n.indicators, m.codeLength + n.codeLength⟩⟩

namespace Measure

variable {m n : Measure}

theorem indicators_add (m n : Measure) : (m + n).indicators = m.indicators + n.indicators := rfl

theorem codeLength_add (m n : Measure) : (m + n).codeLength = m.codeLength + n.codeLength := rfl

/-- Signs per character, zero for a text without code. -/
def ratio (m : Measure) : ℚ :=
  if m.codeLength = 0 then 0 else m.indicators / m.codeLength

theorem isObfuscated_iff : m.isObfuscated = true ↔
    m.codeLength ≠ 0 ∧ m.codeLength < 20 * m.indicators := by
  simp [isObfuscated]

/-- The verdict compares the ratio with one sign for twenty characters. -/
theorem isObfuscated_iff_ratio : m.isObfuscated = true ↔ 1 / 20 < m.ratio := by
  rw [isObfuscated_iff, ratio]
  split
  · rename_i blank
    simp [blank]
  · rename_i code
    have pos : (0 : ℚ) < m.codeLength := Nat.cast_pos.mpr (Nat.pos_of_ne_zero code)
    rw [and_iff_right code, div_lt_div_iff₀ (by norm_num) pos, ← Nat.cast_lt (α := ℚ)]
    push_cast
    constructor <;> intro h <;> linarith

/-- As many times the signs in as many times the code. -/
theorem ratio_of_multiple {k : Nat} (pos : 0 < k) (signs : n.indicators = k * m.indicators)
    (code : n.codeLength = k * m.codeLength) : n.ratio = m.ratio := by
  have scale : (k : ℚ) ≠ 0 := Nat.cast_ne_zero.mpr (Nat.ne_of_gt pos)
  rw [ratio, ratio, signs, code]
  simp only [Nat.mul_eq_zero, Nat.ne_of_gt pos, false_or, Nat.cast_mul]
  rw [mul_div_mul_left _ _ scale]

/-- Signs stand in code only. -/
def Grounded (m : Measure) : Prop :=
  m.codeLength = 0 → m.indicators = 0

theorem ratio_le_iff (grounded : m.Grounded) :
    m.ratio ≤ 1 / 20 ↔ 20 * m.indicators ≤ m.codeLength := by
  rw [← not_lt, ← isObfuscated_iff_ratio, isObfuscated_iff, not_and, Nat.not_lt]
  refine ⟨fun within => ?_, fun within _ => within⟩
  by_cases blank : m.codeLength = 0
  · simp [grounded blank]
  · exact within blank

/-- Texts above the limit are above it together. -/
theorem lt_ratio_add (above : 1 / 20 < m.ratio) (above' : 1 / 20 < n.ratio) :
    1 / 20 < (m + n).ratio := by
  rw [← isObfuscated_iff_ratio, isObfuscated_iff] at *
  rw [codeLength_add, indicators_add]
  omega

/-- Texts within the limit are within it together. -/
theorem ratio_add_le (grounded : m.Grounded) (grounded' : n.Grounded) (within : m.ratio ≤ 1 / 20)
    (within' : n.ratio ≤ 1 / 20) : (m + n).ratio ≤ 1 / 20 := by
  have together : (m + n).Grounded := by
    intro blank
    rw [codeLength_add, Nat.add_eq_zero_iff] at blank
    rw [indicators_add, grounded blank.1, grounded' blank.2]
  rw [ratio_le_iff grounded] at within
  rw [ratio_le_iff grounded'] at within'
  rw [ratio_le_iff together, codeLength_add, indicators_add]
  omega

end Measure

theorem indicators_measure (text : List Char) :
    (measure text).indicators = (indicators.map (·.count text)).sum := rfl

theorem codeLength_measure (text : List Char) :
    (measure text).codeLength = text.countP fun c => !Text.isBlank c := rfl

/-- A text without code has no signs of obfuscation. -/
theorem grounded_measure (text : List Char) : (measure text).Grounded := by
  intro blank
  have only : text ⊆ Text.blankChars := by
    intro c mem
    have unseen := List.countP_eq_zero.mp blank c mem
    exact Text.mem_blankChars (by simpa using unseen)
  have needs : ∀ s ∈ indicators, s.pattern.needsOther s.ignoreCase Text.blankChars = true := by
    decide
  rw [indicators_measure, List.sum_eq_zero]
  intro n counted
  obtain ⟨s, listed, rfl⟩ := List.mem_map.mp counted
  exact Search.count_given (needs s listed) only

/-- Lines are measured one by one. -/
theorem measure_append_line (first rest : List Char) :
    measure (first ++ '\n' :: rest) = measure first + measure rest := by
  have lines : ∀ s ∈ indicators,
      s.pattern.staysInLine s.ignoreCase = true ∧ 0 < s.pattern.fewest := by
    decide
  have signs : (measure (first ++ '\n' :: rest)).indicators =
      (measure first).indicators + (measure rest).indicators := by
    rw [indicators_measure, indicators_measure, indicators_measure, ← List.sum_map_add]
    congr 1
    refine List.map_congr_left fun s listed => ?_
    exact s.count_append_line (lines s listed).1 (lines s listed).2 first rest
  have code : (measure (first ++ '\n' :: rest)).codeLength =
      (measure first).codeLength + (measure rest).codeLength := by
    rw [codeLength_measure, List.countP_append, List.countP_cons_of_neg (by decide)]
    rfl
  exact congrArg₂ Measure.mk signs code

/-- Copies of a text, each on lines of its own. -/
def copies (n : Nat) (text : List Char) : List Char :=
  ['\n'].intercalate (List.replicate n text)

theorem copies_succ_succ (n : Nat) (text : List Char) :
    copies (n + 2) text = text ++ '\n' :: copies (n + 1) text := by
  rw [copies, List.replicate_succ, List.intercalate_cons_of_ne_nil (by simp), List.append_assoc]
  rfl

/-- Copies have as many times the signs and as many times the code. -/
theorem measure_copies (n : Nat) (text : List Char) :
    measure (copies (n + 1) text) =
      ⟨(n + 1) * (measure text).indicators, (n + 1) * (measure text).codeLength⟩ := by
  induction n with
  | zero => simp [copies]
  | succ n ih =>
    rw [copies_succ_succ, measure_append_line, ih]
    refine congrArg₂ Measure.mk ?_ ?_ <;> ring

/-- Signs and code are counted line by line, so copies on lines of their own change neither the
ratio of signs to code nor the verdict, and texts that are above the limit or within it are so
together. -/
theorem density_by_lines :
    (∀ first rest,
      (measure (first ++ '\n' :: rest)).indicators =
          (measure first).indicators + (measure rest).indicators ∧
        (measure (first ++ '\n' :: rest)).codeLength =
          (measure first).codeLength + (measure rest).codeLength) ∧
    (∀ n text, 0 < n →
      (measure (copies n text)).ratio = (measure text).ratio ∧
        (measure (copies n text)).isObfuscated = (measure text).isObfuscated) ∧
    (∀ first rest, 1 / 20 < (measure first).ratio → 1 / 20 < (measure rest).ratio →
      1 / 20 < (measure (first ++ '\n' :: rest)).ratio) ∧
    (∀ first rest, (measure first).ratio ≤ 1 / 20 → (measure rest).ratio ≤ 1 / 20 →
      (measure (first ++ '\n' :: rest)).ratio ≤ 1 / 20) ∧
    ∀ text, (measure text).isObfuscated = true ↔ 1 / 20 < (measure text).ratio := by
  refine ⟨fun first rest => ?_, fun n text pos => ?_, fun first rest above above' => ?_,
    fun first rest within within' => ?_, fun text => Measure.isObfuscated_iff_ratio⟩
  · rw [measure_append_line]
    exact ⟨rfl, rfl⟩
  · obtain ⟨n, rfl⟩ := Nat.exists_eq_add_one.mpr pos
    have ratio : (measure (copies (n + 1) text)).ratio = (measure text).ratio := by
      rw [measure_copies]
      exact Measure.ratio_of_multiple pos rfl rfl
    refine ⟨ratio, Bool.eq_iff_iff.mpr ?_⟩
    rw [Measure.isObfuscated_iff_ratio, Measure.isObfuscated_iff_ratio, ratio]
  · rw [measure_append_line]
    exact Measure.lt_ratio_add above above'
  · rw [measure_append_line]
    exact Measure.ratio_add_le (grounded_measure first) (grounded_measure rest) within within'

/-- An escape. -/
def sampleEscape : List Char :=
  ['\\', 'x', '4', '1']

/-- Two escapes on lines of their own are above the limit as one is. -/
theorem density_by_lines_escapes :
    1 / 20 < (measure sampleEscape).ratio ∧
      1 / 20 < (measure (sampleEscape ++ '\n' :: sampleEscape)).ratio := by
  have escape : measure sampleEscape = ⟨1, 4⟩ := by decide
  have above : 1 / 20 < (measure sampleEscape).ratio := by
    rw [escape, Measure.ratio]
    norm_num
  exact ⟨above, density_by_lines.2.2.1 _ _ above above⟩

end Obfuscation

end PackageRisk
