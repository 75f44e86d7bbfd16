import PackageRisk.Version.Range

/-!
# The order of versions

Versions are ordered by their numbers, then by pre-release, then by build metadata. The order is
total and two versions are equal in it only if they are the same, so a non-empty list of versions
has one greatest member, and that is what the search for the greatest one finds.
-/

namespace PackageRisk

namespace Version

open Std

section Kinds

variable {α : Type} (first : α → Bool) (compareFirst compareOther : α → α → Ordering)

/-- Elements of one kind before all others, each kind with an order of its own. -/
def compareKinds (a b : α) : Ordering :=
  match first a, first b with
  | true, true => compareFirst a b
  | true, false => .lt
  | false, true => .gt
  | false, false => compareOther a b

instance [OrientedCmp compareFirst] [OrientedCmp compareOther] :
    OrientedCmp (compareKinds first compareFirst compareOther) where
  eq_swap {a b} := by
    unfold compareKinds
    cases first a <;> cases first b
    · exact (OrientedCmp.eq_swap : compareOther a b = (compareOther b a).swap)
    · rfl
    · rfl
    · exact (OrientedCmp.eq_swap : compareFirst a b = (compareFirst b a).swap)

instance [TransCmp compareFirst] [TransCmp compareOther] :
    TransCmp (compareKinds first compareFirst compareOther) where
  isLE_trans {a b c} hab hbc := by
    rw [compareKinds] at *
    cases ha : first a <;> cases hb : first b <;> cases hc : first c <;>
      simp only [ha, hb, hc, Ordering.isLE_lt, Ordering.isLE_gt, Bool.false_eq_true] at hab hbc ⊢
    · exact (TransCmp.isLE_trans hab hbc : (compareOther a c).isLE = true)
    · exact (TransCmp.isLE_trans hab hbc : (compareFirst a c).isLE = true)

instance [LawfulEqCmp compareFirst] [LawfulEqCmp compareOther] :
    LawfulEqCmp (compareKinds first compareFirst compareOther) where
  compare_self {a} := by
    rw [compareKinds]
    cases first a
    · exact (ReflCmp.compare_self : compareOther a a = .eq)
    · exact (ReflCmp.compare_self : compareFirst a a = .eq)
  eq_of_compare {a b} h := by
    rw [compareKinds] at h
    cases ha : first a <;> cases hb : first b <;> simp only [ha, hb, reduceCtorEq] at h
    · exact LawfulEqCmp.eq_of_compare (h : compareOther a b = .eq)
    · exact LawfulEqCmp.eq_of_compare (h : compareFirst a b = .eq)

end Kinds

theorem compareLists_eq {α : Type} (compareOne : α → α → Ordering) :
    compareLists compareOne = List.compareLex compareOne := by
  funext as bs
  induction as generalizing bs with
  | nil => cases bs <;> rfl
  | cons a as ih =>
    cases bs with
    | nil => rfl
    | cons b bs => rw [compareLists, ih, List.compareLex_cons_cons]

theorem compareText_eq : compareText = List.compareLex compare := by
  funext s t
  induction s generalizing t with
  | nil => cases t <;> rfl
  | cons c s ih =>
    cases t with
    | nil => rfl
    | cons d t =>
      rw [compareText, ih, List.compareLex_cons_cons]
      change _ = (compareOfLessAndEq c d).then _
      rw [compareOfLessAndEq]
      by_cases less : c < d
      · simp [less]
      · by_cases same : c = d
        · subst same
          simp only [less, if_false, if_true]
          rfl
        · have greater : d < c :=
            Char.not_le.mp fun le => same (Char.le_antisymm le (Char.not_lt.mp less))
          simp [less, same, greater]

instance : TransCmp compareText :=
  compareText_eq ▸ inferInstanceAs (TransCmp (List.compareLex compare))

instance : LawfulEqCmp compareText :=
  compareText_eq ▸ inferInstanceAs (LawfulEqCmp (List.compareLex compare))

instance : TransCmp compareDigits :=
  inferInstanceAs (TransCmp (compareLex (compareOn List.length) compareText))

instance : LawfulEqCmp compareDigits where
  compare_self {a} :=
    (ReflCmp.compare_self : compareLex (compareOn List.length) compareText a a = .eq)
  eq_of_compare {a b} h :=
    have same : compareText a b = .eq := (Ordering.then_eq_eq.mp h).2
    LawfulEqCmp.eq_of_compare same

instance : TransCmp comparePreIdentifier :=
  inferInstanceAs (TransCmp (compareKinds isNumeric compareDigits compareText))

instance : LawfulEqCmp comparePreIdentifier :=
  inferInstanceAs (LawfulEqCmp (compareKinds isNumeric compareDigits compareText))

/-- Numbers of build metadata: by value, then by the zeros in front. -/
def compareZeros (a b : List Char) : Ordering :=
  (compareDigits (a.dropWhile (· == '0')) (b.dropWhile (· == '0'))).then
    (compare a.length b.length)

theorem transCmp_on {α β : Type} (f : α → β) (cmp : β → β → Ordering) [TransCmp cmp] :
    TransCmp fun a b => cmp (f a) (f b) where
  eq_swap {a b} := (OrientedCmp.eq_swap : cmp (f a) (f b) = (cmp (f b) (f a)).swap)
  isLE_trans {a _ c} hab hbc := (TransCmp.isLE_trans hab hbc : (cmp (f a) (f c)).isLE = true)

instance : TransCmp compareZeros :=
  have := transCmp_on (List.dropWhile (· == '0')) compareDigits
  inferInstanceAs (TransCmp (compareLex _ (compareOn List.length)))

/-- The zeros in front of a number are determined by its value and its length. -/
theorem eq_of_dropWhile_eq {a b : List Char}
    (values : a.dropWhile (· == '0') = b.dropWhile (· == '0')) (lengths : a.length = b.length) :
    a = b := by
  have split (s : List Char) : ∃ k, s = List.replicate k '0' ++ s.dropWhile (· == '0') := by
    refine ⟨(s.takeWhile (· == '0')).length, ?_⟩
    have zeros : s.takeWhile (· == '0') = List.replicate (s.takeWhile (· == '0')).length '0' :=
      List.eq_replicate_iff.mpr
        ⟨rfl, fun c h => eq_of_beq (List.all_eq_true.mp List.all_takeWhile c h)⟩
    rw [← zeros, List.takeWhile_append_dropWhile]
  obtain ⟨k, hk⟩ := split a
  obtain ⟨l, hl⟩ := split b
  have counts : k = l := by
    have ha := congrArg List.length hk
    have hb := congrArg List.length hl
    rw [List.length_append, List.length_replicate] at ha hb
    rw [values] at ha
    omega
  rw [hk, hl, values, counts]

instance : LawfulEqCmp compareZeros where
  compare_self {a} := by
    have value (b : List Char) : compareDigits b b = .eq := ReflCmp.compare_self
    simp [compareZeros, value]
  eq_of_compare h := by
    obtain ⟨values, lengths⟩ := Ordering.then_eq_eq.mp h
    exact eq_of_dropWhile_eq (LawfulEqCmp.eq_of_compare values) (LawfulEqCmp.eq_of_compare lengths)

instance : TransCmp compareBuildIdentifier :=
  inferInstanceAs (TransCmp (compareKinds isNumeric compareZeros compareText))

instance : LawfulEqCmp compareBuildIdentifier :=
  inferInstanceAs (LawfulEqCmp (compareKinds isNumeric compareZeros compareText))

/-- A pre-release comes before the release, and two of them are ordered by their identifiers. -/
theorem comparePre_eq :
    comparePre = compareKinds (fun pre => !pre.isEmpty) (List.compareLex comparePreIdentifier)
      (List.compareLex comparePreIdentifier) := by
  funext a b
  cases a <;> cases b <;> simp [comparePre, compareKinds, compareLists_eq, List.compareLex]

instance : TransCmp comparePre :=
  comparePre_eq ▸ inferInstanceAs (TransCmp (compareKinds _ _ _))

instance : LawfulEqCmp comparePre :=
  comparePre_eq ▸ inferInstanceAs (LawfulEqCmp (compareKinds _ _ _))

instance : TransCmp cmp :=
  have := transCmp_on Version.pre comparePre
  have := transCmp_on Version.build (List.compareLex compareBuildIdentifier)
  have same : cmp = compareLex (compareOn Version.major) (compareLex (compareOn Version.minor)
      (compareLex (compareOn Version.patch) (compareLex (fun a b => comparePre a.pre b.pre)
        fun a b => List.compareLex compareBuildIdentifier a.build b.build))) := by
    funext a b
    simp [cmp, compareLex, compareOn, compareLists_eq]
  same ▸ inferInstance

instance : LawfulEqCmp cmp where
  compare_self {a} := by
    have pre : comparePre a.pre a.pre = .eq := ReflCmp.compare_self
    have build : List.compareLex compareBuildIdentifier a.build a.build = .eq :=
      ReflCmp.compare_self
    simp [cmp, compareLists_eq, pre, build]
  eq_of_compare {a b} h := by
    simp only [cmp, Ordering.then_eq_eq, compareLists_eq] at h
    obtain ⟨major, minor, patch, pre, build⟩ := h
    obtain ⟨_, _, _, _, _⟩ := a
    obtain ⟨_, _, _, _, _⟩ := b
    have pre := LawfulEqCmp.eq_of_compare pre
    have build := LawfulEqCmp.eq_of_compare build
    simp_all

@[simp] theorem cmp_self (v : Version) : v.cmp v = .eq :=
  ReflCmp.compare_self

theorem cmp_swap (v w : Version) : v.cmp w = (w.cmp v).swap :=
  OrientedCmp.eq_swap

theorem isLE_cmp_trans {u v w : Version} (h : (u.cmp v).isLE = true) (h' : (v.cmp w).isLE = true) :
    (u.cmp w).isLE = true :=
  TransCmp.isLE_trans h h'

/-- Neither of two different versions is at most the other both ways. -/
theorem eq_of_isLE_cmp {v w : Version} (h : (v.cmp w).isLE = true) (h' : (w.cmp v).isLE = true) :
    v = w :=
  LawfulEqCmp.eq_of_compare (OrientedCmp.isLE_antisymm h h' : v.cmp w = .eq)

end Version

variable {versions : List (Version × String)} {v w g : Version × String}

theorem le_laterOf_left (v w : Version × String) : (v.1.cmp (laterOf v w).1).isLE := by
  rw [laterOf]
  split
  · rw [Version.cmp_self]
    rfl
  · rename_i h
    rwa [← Ordering.ne_gt_iff_isLE]

theorem le_laterOf_right (v w : Version × String) : (w.1.cmp (laterOf v w).1).isLE := by
  rw [laterOf]
  split
  · rename_i h
    rw [Version.cmp_swap, h]
    rfl
  · rw [Version.cmp_self]
    rfl

theorem laterOf_eq (v w : Version × String) : laterOf v w = v ∨ laterOf v w = w := by
  rw [laterOf]
  split
  · exact .inl rfl
  · exact .inr rfl

theorem foldl_laterOf (v : Version × String) (versions : List (Version × String)) :
    versions.foldl laterOf v ∈ v :: versions ∧
      ∀ w ∈ v :: versions, (w.1.cmp (versions.foldl laterOf v).1).isLE := by
  induction versions generalizing v with
  | nil => simp
  | cons u versions ih =>
    rw [List.foldl_cons]
    obtain ⟨mem, le⟩ := ih (laterOf v u)
    have top := le (laterOf v u) List.mem_cons_self
    refine ⟨?_, fun w hw => ?_⟩
    · rcases List.mem_cons.mp mem with eq | mem
      · rw [eq]
        rcases laterOf_eq v u with eq | eq <;> simp [eq]
      · simp [mem]
    · rcases List.mem_cons.mp hw with rfl | hw
      · exact Version.isLE_cmp_trans (le_laterOf_left w u) top
      · rcases List.mem_cons.mp hw with rfl | hw
        · exact Version.isLE_cmp_trans (le_laterOf_right v w) top
        · exact le w (List.mem_cons_of_mem _ hw)

theorem greatest?_eq_none : greatest? versions = none ↔ versions = [] := by
  cases versions <;> simp [greatest?]

/-- What is found is one of the versions, and none of them is greater. -/
theorem greatest?_eq_some (h : greatest? versions = some g) :
    g ∈ versions ∧ ∀ v ∈ versions, (v.1.cmp g.1).isLE := by
  cases versions with
  | nil => simp [greatest?] at h
  | cons v versions =>
    obtain rfl : versions.foldl laterOf v = g := by simpa [greatest?] using h
    exact foldl_laterOf v versions

variable {alternatives : List Requirement} {published : List String} {raw : String}

/-- A published text is the version and one of the requirements admits it. -/
def Admitted (alternatives : List Requirement) (published : List String) (raw : String)
    (v : Version) : Prop :=
  raw ∈ published ∧ Version.parse? raw.toList = some v ∧ ∃ r ∈ alternatives, r.admits v = true

theorem mem_candidates {v : Version} :
    (v, raw) ∈ published.filterMap (fun raw =>
      match Version.parse? raw.toList with
      | some v => if alternatives.any (·.admits v) then some (v, raw) else none
      | none => none) ↔ Admitted alternatives published raw v := by
  rw [List.mem_filterMap]
  constructor
  · rintro ⟨raw', mem, found⟩
    split at found
    · rename_i w parsed
      split at found
      · rename_i admits
        obtain ⟨rfl, rfl⟩ := Prod.mk.inj (Option.some.inj found)
        exact ⟨mem, parsed, List.any_eq_true.mp admits⟩
      · simp at found
    · simp at found
  · rintro ⟨mem, parsed, admits⟩
    refine ⟨raw, mem, ?_⟩
    simp only [parsed]
    rw [if_pos (List.any_eq_true.mpr admits)]

theorem greatestAdmitted?_eq_none :
    greatestAdmitted? alternatives published = none ↔
      ∀ raw v, ¬Admitted alternatives published raw v := by
  rw [greatestAdmitted?, Option.map_eq_none_iff, greatest?_eq_none, List.eq_nil_iff_forall_not_mem]
  constructor
  · intro none raw v admitted
    exact none (v, raw) (mem_candidates.mpr admitted)
  · rintro none ⟨v, raw⟩ h
    exact none raw v (mem_candidates.mp h)

/-- What is found is admitted, and nothing that is admitted is greater. -/
theorem greatestAdmitted?_eq_some (h : greatestAdmitted? alternatives published = some raw) :
    ∃ v, Admitted alternatives published raw v ∧
      ∀ raw' w, Admitted alternatives published raw' w → (w.cmp v).isLE := by
  obtain ⟨⟨v, _⟩, found, rfl⟩ := Option.map_eq_some_iff.mp h
  obtain ⟨mem, greatest⟩ := greatest?_eq_some found
  exact ⟨v, mem_candidates.mp mem, fun raw' w admitted =>
    greatest (w, raw') (mem_candidates.mpr admitted)⟩

end PackageRisk
