import Mathlib.Data.List.Basic
import PackageRisk.Proofs.Settings.Rejections

/-!
# The policy in the environment

What the value of the environment variable comes to. It overrides the settings member by member;
a member that is absent or null leaves its setting as it is, and nothing else does. A record that
is not well formed, or a member of the wrong shape or out of bounds, spoils the whole value.
-/

namespace PackageRisk

/-! ## Integers -/

namespace Text

/-- Decimal digits, one at least. -/
def IsNumeral (digits : List Char) : Prop :=
  digits ≠ [] ∧ ∀ c ∈ digits, c.isDigit = true

/-- A text of decimal digits, a sign before them allowed, denotes an integer. -/
inductive DenotesInteger : List Char → Int → Prop
  | plain {digits : List Char} (numeral : IsNumeral digits) :
      DenotesInteger digits (decimalValue digits)
  | positive {digits : List Char} (numeral : IsNumeral digits) :
      DenotesInteger ('+' :: digits) (decimalValue digits)
  | negative {digits : List Char} (numeral : IsNumeral digits) :
      DenotesInteger ('-' :: digits) (-decimalValue digits)

theorem IsNumeral.sign_eq {digits : List Char} (numeral : IsNumeral digits) :
    sign digits = (false, digits) := by
  obtain ⟨some_digit, all⟩ := numeral
  unfold sign
  split
  · exact absurd (all '-' List.mem_cons_self) (by decide)
  · exact absurd (all '+' List.mem_cons_self) (by decide)
  · rfl

/-- The integer of some digits behind a sign. -/
def signedValue (negative : Bool) (digits : List Char) : Int :=
  if negative then -decimalValue digits else decimalValue digits

theorem denotesInteger_of_sign {s digits : List Char} {negative : Bool}
    (numeral : IsNumeral digits) (signed : sign s = (negative, digits)) :
    DenotesInteger s (signedValue negative digits) := by
  unfold sign at signed
  split at signed
  · cases signed
    exact .negative numeral
  · cases signed
    exact .positive numeral
  · cases signed
    exact .plain numeral

theorem integer?_of_numeral {s digits : List Char} {negative : Bool} (numeral : IsNumeral digits)
    (signed : sign s = (negative, digits)) :
    integer? s =
      if Int64.minValue.toInt ≤ signedValue negative digits ∧
          signedValue negative digits ≤ Int64.maxValue.toInt then
        some (signedValue negative digits)
      else none := by
  obtain ⟨some_digit, all⟩ := numeral
  have readable : (digits.isEmpty || !digits.all Char.isDigit) = false := by
    simpa [some_digit] using all
  simp only [integer?, signed, readable, Bool.false_eq_true, if_false]
  rfl

theorem integer?_of_not_numeral {s digits : List Char} {negative : Bool}
    (foreign : ¬ IsNumeral digits) (signed : sign s = (negative, digits)) : integer? s = none := by
  have unreadable : (digits.isEmpty || !digits.all Char.isDigit) = true := by
    rw [← Bool.not_eq_false]
    intro readable
    rw [Bool.or_eq_false_iff, Bool.not_eq_false', List.all_eq_true] at readable
    obtain ⟨some_digit, all⟩ := readable
    exact foreign ⟨by simpa using some_digit, all⟩
  simp only [integer?, signed, unreadable, if_true]

/-- The integers of 64 bits are read from the texts that denote them. -/
theorem integer?_eq_some_iff {s : List Char} {n : Int} :
    integer? s = some n ↔
      DenotesInteger s n ∧ Int64.minValue.toInt ≤ n ∧ n ≤ Int64.maxValue.toInt := by
  constructor
  · intro read
    cases signed : sign s with
    | mk negative digits =>
      by_cases numeral : IsNumeral digits
      · rw [integer?_of_numeral numeral signed] at read
        split at read
        · rename_i within
          obtain rfl := Option.some.inj read
          exact ⟨denotesInteger_of_sign numeral signed, within⟩
        · cases read
      · rw [integer?_of_not_numeral numeral signed] at read
        cases read
  · rintro ⟨denotes, within⟩
    cases denotes with
    | plain numeral =>
      exact (integer?_of_numeral numeral numeral.sign_eq).trans (if_pos within)
    | @positive digits numeral =>
      have signed : sign ('+' :: digits) = (false, digits) := rfl
      exact (integer?_of_numeral numeral signed).trans (if_pos within)
    | @negative digits numeral =>
      have signed : sign ('-' :: digits) = (true, digits) := rfl
      exact (integer?_of_numeral numeral signed).trans (if_pos within)

end Text

theorem checkThreshold_eq_ok_iff {value : Int} {n : Nat} :
    checkThreshold value = .ok n ↔ value = n ∧ n ≤ maxThreshold := by
  constructor
  · exact checkThreshold_ok
  · rintro ⟨rfl, within⟩
    have between : 0 ≤ (n : Int) ∧ (n : Int) ≤ maxThreshold :=
      ⟨Int.natCast_nonneg n, Int.ofNat_le.mpr within⟩
    exact checkThreshold_eq_ok between

/-! ## Records -/

namespace Json

/-- The values under a name in an object: none, or a single one. -/
def Lists (members : List (String × Value)) (name : String) (value : Option Value) : Prop :=
  (members.filter (·.1 = name)).map Prod.snd = value.toList

theorem memberOf?_eq_some_iff {members : List (String × Value)} {name : String} {hasDefault : Bool}
    {value : Option Value} :
    memberOf? members ⟨[name], hasDefault⟩ = some value ↔ Lists members name value := by
  have named : (fun p : String × Value => [name].contains p.1) = fun p => decide (p.1 = name) := by
    funext p
    simp
  rw [memberOf?, Lists, named]
  split
  · rename_i none
    rw [none]
    cases value <;> simp
  · rename_i v one
    rw [one]
    cases value <;> simp
  · rename_i some_listed several
    refine ⟨nofun, fun listed => ?_⟩
    cases value with
    | none => exact absurd (List.map_eq_nil_iff.mp listed) some_listed
    | some v =>
      obtain ⟨⟨name, v⟩, single, -⟩ := List.map_eq_singleton_iff.mp listed
      exact absurd single (several name v)

theorem eq_int_of_signed? {v : Value} {n : Int} (read : signed? v = some n) : v = .int n := by
  cases v with
  | int m =>
    rw [signed?] at read
    split at read
    · cases read
      rfl
    · cases read
  | _ => cases read

theorem eq_bool_of_bool? {v : Value} {b : Bool} (read : bool? v = some b) : v = .bool b := by
  cases v with
  | bool c =>
    cases read
    rfl
  | _ => cases read

end Json

open Json (Value)

/-- A record of overrides: an object with each of them at most once, whatever else is in it, or an
array that may end early. -/
inductive PolicyRecord : Value → (threshold block : Option Value) → Prop
  | object {members : List (String × Value)} {threshold block : Option Value}
      (thresholds : Json.Lists members "scoreThreshold" threshold)
      (blocks : Json.Lists members "blockInstall" block) :
      PolicyRecord (.obj members) threshold block
  | empty : PolicyRecord (.arr []) none none
  | one (threshold : Value) : PolicyRecord (.arr [threshold]) (some threshold) none
  | both (threshold block : Value) :
      PolicyRecord (.arr [threshold, block]) (some threshold) (some block)

theorem recordMembers?_eq_some_iff {v : Value} {values : List (Option Value)} :
    Json.recordMembers? [⟨["scoreThreshold"], true⟩, ⟨["blockInstall"], true⟩] v = some values ↔
      ∃ threshold block, PolicyRecord v threshold block ∧ values = [threshold, block] := by
  constructor
  · intro read
    cases v with
    | obj members =>
      simp only [Json.recordMembers?, Json.objectMembers?, List.mapM_cons, List.mapM_nil,
        Option.bind_eq_bind, Option.bind_eq_some_iff, Option.pure_def, Option.some.injEq] at read
      obtain ⟨threshold, thresholds, _, ⟨block, blocks, _, rfl, rfl⟩, rfl⟩ := read
      exact ⟨threshold, block, .object (Json.memberOf?_eq_some_iff.mp thresholds)
        (Json.memberOf?_eq_some_iff.mp blocks), rfl⟩
    | arr elements =>
      match elements with
      | [] => exact ⟨_, _, .empty, (Option.some.inj read).symm⟩
      | [threshold] => exact ⟨_, _, .one threshold, (Option.some.inj read).symm⟩
      | [threshold, block] => exact ⟨_, _, .both threshold block, (Option.some.inj read).symm⟩
      | _ :: _ :: _ :: rest => simp [Json.recordMembers?] at read
    | _ => cases read
  · rintro ⟨threshold, block, record, rfl⟩
    cases record with
    | object thresholds blocks =>
      simp only [Json.recordMembers?, Json.objectMembers?, List.mapM_cons, List.mapM_nil,
        Json.memberOf?_eq_some_iff.mpr thresholds, Json.memberOf?_eq_some_iff.mpr blocks]
      rfl
    | empty => rfl
    | one threshold => rfl
    | both threshold block => rfl

/-- What a member comes to as the threshold, above a default. -/
inductive ThresholdFrom (default : Nat) : Option Value → Nat → Prop
  | absent : ThresholdFrom default none default
  | null : ThresholdFrom default (some .null) default
  | number {n : Nat} (within : n ≤ maxThreshold) : ThresholdFrom default (some (.int n)) n
  | text {s : String} {n : Nat} (denotes : Text.DenotesInteger (Text.trimChars s.toList) n)
      (within : n ≤ maxThreshold) : ThresholdFrom default (some (.str s)) n

theorem ThresholdFrom.le {default n : Nat} {v : Option Value} (comes : ThresholdFrom default v n)
    (within : default ≤ maxThreshold) : n ≤ maxThreshold := by
  cases comes with
  | absent => exact within
  | null => exact within
  | number within => exact within
  | text denotes within => exact within

/-- What a member comes to as the decision to block, above a default. -/
inductive BlockFrom (default : Bool) : Option Value → Bool → Prop
  | absent : BlockFrom default none default
  | null : BlockFrom default (some .null) default
  | truth (b : Bool) : BlockFrom default (some (.bool b)) b
  | text {s : String} {b : Bool} (reads : Text.trim s = if b then "true" else "false") :
      BlockFrom default (some (.str s)) b

section

open PolicyOverrides (loose?)

variable {α : Type} {read : Value → Option α}

/-- A text is kept as it is, any other value is read. -/
theorem exists_of_loose? {v : Value} {a : Loose α} (taken : loose? read v = some a) :
    (∃ s, v = .str s ∧ a = .text s) ∨ ∃ x, read v = some x ∧ a = .typed x := by
  unfold loose? Json.free? at taken
  split at taken
  · cases v with
    | str s =>
      cases taken
      exact .inl ⟨s, rfl, rfl⟩
    | _ =>
      obtain ⟨x, reads, rfl⟩ := Option.map_eq_some_iff.mp taken
      exact .inr ⟨x, reads, rfl⟩
  · cases taken

/-- A member that is absent or null has nothing to override. -/
theorem exists_of_optional? {v : Option Value} {l : Option (Loose α)}
    (taken : Json.optional? (loose? read) v = some l) :
    ((v = none ∨ v = some .null) ∧ l = none) ∨ (∃ s, v = some (.str s) ∧ l = some (.text s)) ∨
      ∃ w x, v = some w ∧ read w = some x ∧ l = some (.typed x) := by
  cases v with
  | none =>
    cases taken
    exact .inl ⟨.inl rfl, rfl⟩
  | some w =>
    cases w with
    | null =>
      cases taken
      exact .inl ⟨.inr rfl, rfl⟩
    | str s =>
      cases taken
      exact .inr (.inl ⟨s, rfl, rfl⟩)
    | unreadable => cases taken
    | _ =>
      obtain ⟨a, kept, rfl⟩ := Option.map_eq_some_iff.mp taken
      obtain ⟨s, same, rfl⟩ | ⟨x, reads, rfl⟩ := exists_of_loose? kept
      · exact .inr (.inl ⟨s, congrArg some same, rfl⟩)
      · exact .inr (.inr ⟨_, x, rfl, reads, rfl⟩)

/-- Thresholds are within 64 bits. -/
theorem threshold_fits {n : Nat} (within : n ≤ maxThreshold) :
    Int64.minValue.toInt ≤ (n : Int) ∧ (n : Int) ≤ Int64.maxValue.toInt := by
  have least : Int64.minValue.toInt ≤ 0 := by decide
  have greatest : (maxThreshold : Int) ≤ Int64.maxValue.toInt := by decide
  omega

theorem exists_threshold_iff {default n : Nat} {v : Option Value} :
    (∃ l, Json.optional? (loose? Json.signed?) v = some l ∧
      l.elim (.ok default) PolicyOverrides.threshold = .ok n) ↔ ThresholdFrom default v n := by
  constructor
  · rintro ⟨l, taken, comes⟩
    obtain ⟨rfl | rfl, rfl⟩ | ⟨s, rfl, rfl⟩ | ⟨w, m, rfl, reads, rfl⟩ := exists_of_optional? taken
    · cases comes
      exact .absent
    · cases comes
      exact .null
    · simp only [Option.elim, PolicyOverrides.threshold] at comes
      split at comes
      · rename_i value denoted
        obtain ⟨rfl, within⟩ := checkThreshold_eq_ok_iff.mp comes
        exact .text (Text.integer?_eq_some_iff.mp denoted).1 within
      · cases comes
    · obtain rfl := Json.eq_int_of_signed? reads
      obtain ⟨rfl, within⟩ := checkThreshold_eq_ok_iff.mp comes
      exact .number within
  · intro comes
    cases comes with
    | absent => exact ⟨none, rfl, rfl⟩
    | null => exact ⟨none, rfl, rfl⟩
    | number within =>
      refine ⟨some (.typed n), ?_, checkThreshold_eq_ok_iff.mpr ⟨rfl, within⟩⟩
      have reads : Json.signed? (.int n) = some (n : Int) := if_pos (threshold_fits within)
      change ((Json.signed? (.int n)).map Loose.typed).map some = _
      rw [reads]
      rfl
    | @text s n denotes within =>
      refine ⟨some (.text s), rfl, ?_⟩
      have denoted := Text.integer?_eq_some_iff.mpr ⟨denotes, threshold_fits within⟩
      simp only [Option.elim, PolicyOverrides.threshold, denoted]
      exact checkThreshold_eq_ok_iff.mpr ⟨rfl, within⟩

theorem exists_block_iff {default b : Bool} {v : Option Value} :
    (∃ l, Json.optional? (loose? Json.bool?) v = some l ∧
      l.elim (.ok default) PolicyOverrides.block = .ok b) ↔ BlockFrom default v b := by
  constructor
  · rintro ⟨l, taken, comes⟩
    obtain ⟨rfl | rfl, rfl⟩ | ⟨s, rfl, rfl⟩ | ⟨w, c, rfl, reads, rfl⟩ := exists_of_optional? taken
    · cases comes
      exact .absent
    · cases comes
      exact .null
    · simp only [Option.elim, PolicyOverrides.block] at comes
      split at comes
      · rename_i written
        cases comes
        exact .text written
      · rename_i written
        cases comes
        exact .text written
      · cases comes
    · obtain rfl := Json.eq_bool_of_bool? reads
      cases comes
      exact .truth b
  · intro comes
    cases comes with
    | absent => exact ⟨none, rfl, rfl⟩
    | null => exact ⟨none, rfl, rfl⟩
    | truth => exact ⟨some (.typed b), rfl, rfl⟩
    | @text s b reads =>
      refine ⟨some (.text s), rfl, ?_⟩
      simp only [Option.elim, PolicyOverrides.block, reads]
      cases b <;> rfl

end

/-! ## The environment -/

namespace InstallPolicy

/-- What the value of the environment variable comes to, above some settings. -/
inductive From (s : Settings) : Option String → InstallPolicy → Prop
  | absent : From s none (ofSettings s)
  | blank {raw : String} (blank : Text.trim raw = "") : From s (some raw) (ofSettings s)
  | record {raw : String} {v : Value} {threshold block : Option Value} {n : Nat} {b : Bool}
      (filled : Text.trim raw ≠ "") (parsed : Json.parse? (Text.trim raw) = some v)
      (record : PolicyRecord v threshold block)
      (thresholds : ThresholdFrom s.scoreThreshold threshold n)
      (blocks : BlockFrom s.blockInstall block b) : From s (some raw) ⟨n, b⟩

theorem ofJson?_eq_some_iff {v : Value} {o : PolicyOverrides} :
    PolicyOverrides.ofJson? v = some o ↔ ∃ threshold block, PolicyRecord v threshold block ∧
      Json.optional? (PolicyOverrides.loose? Json.signed?) threshold = some o.scoreThreshold ∧
      Json.optional? (PolicyOverrides.loose? Json.bool?) block = some o.blockInstall := by
  simp only [PolicyOverrides.ofJson?, Option.bind_eq_bind, Option.bind_eq_some_iff,
    Option.pure_def, Option.some.injEq]
  constructor
  · rintro ⟨values, members, t, ofThreshold, b, ofBlock, rfl⟩
    obtain ⟨threshold, block, record, rfl⟩ := recordMembers?_eq_some_iff.mp members
    exact ⟨threshold, block, record, ofThreshold, ofBlock⟩
  · rintro ⟨threshold, block, record, ofThreshold, ofBlock⟩
    have members := recordMembers?_eq_some_iff.mpr ⟨threshold, block, record, rfl⟩
    exact ⟨_, members, _, ofThreshold, _, ofBlock, rfl⟩

theorem overridden_eq_ok_iff {p policy : InstallPolicy} {o : PolicyOverrides} :
    p.overridden o = .ok policy ↔
      o.scoreThreshold.elim (.ok p.scoreThreshold) PolicyOverrides.threshold =
        .ok policy.scoreThreshold ∧
      o.blockInstall.elim (.ok p.blockInstall) PolicyOverrides.block =
        .ok policy.blockInstall := by
  unfold overridden
  cases o.scoreThreshold.elim (.ok p.scoreThreshold) PolicyOverrides.threshold with
  | error e => exact ⟨nofun, nofun⟩
  | ok n =>
    cases o.blockInstall.elim (.ok p.blockInstall) PolicyOverrides.block with
    | error e => exact ⟨nofun, nofun⟩
    | ok b =>
      constructor
      · intro same
        cases same
        exact ⟨rfl, rfl⟩
      · rintro ⟨thresholds, blocks⟩
        cases thresholds
        cases blocks
        rfl

theorem parse_eq_ok_iff {text : String} {o : PolicyOverrides} :
    PolicyOverrides.parse text = .ok o ↔
      ∃ v, Json.parse? text = some v ∧ PolicyOverrides.ofJson? v = some o := by
  unfold PolicyOverrides.parse
  rw [← Option.bind_eq_some_iff]
  split
  · rename_i overrides read
    rw [read, Except.ok.injEq, Option.some.injEq]
  · rename_i unread
    rw [unread]
    exact ⟨nofun, nofun⟩

/-- A value that is not blank is read as a record, whose members override the settings. -/
theorem resolve_filled {s : Settings} {raw : String} {policy : InstallPolicy}
    (filled : Text.trim raw ≠ "") :
    resolve s (some raw) = .ok policy ↔ ∃ v o, Json.parse? (Text.trim raw) = some v ∧
      PolicyOverrides.ofJson? v = some o ∧ (ofSettings s).overridden o = .ok policy := by
  have opened : resolve s (some raw) =
      PolicyOverrides.parse (Text.trim raw) >>= (ofSettings s).overridden := if_neg filled
  rw [opened]
  constructor
  · intro resolved
    cases read : PolicyOverrides.parse (Text.trim raw) with
    | error e =>
      rw [read] at resolved
      cases resolved
    | ok o =>
      rw [read] at resolved
      obtain ⟨v, parsed, typed⟩ := parse_eq_ok_iff.mp read
      exact ⟨v, o, parsed, typed, resolved⟩
  · rintro ⟨v, o, parsed, typed, overridden⟩
    rw [parse_eq_ok_iff.mpr ⟨v, parsed, typed⟩]
    exact overridden

/-- Where the variable has a value, the policy is the one that the value comes to. -/
theorem resolve_eq_ok_iff {s : Settings} {environment : Option String} {policy : InstallPolicy} :
    resolve s environment = .ok policy ↔ From s environment policy := by
  constructor
  · intro resolved
    cases environment with
    | none =>
      cases resolved
      exact .absent
    | some raw =>
      by_cases blank : Text.trim raw = ""
      · have kept : resolve s (some raw) = .ok (ofSettings s) := if_pos blank
        cases kept.symm.trans resolved
        exact .blank blank
      · obtain ⟨v, o, parsed, typed, overridden⟩ := (resolve_filled blank).mp resolved
        obtain ⟨threshold, block, record, ofThreshold, ofBlock⟩ := ofJson?_eq_some_iff.mp typed
        obtain ⟨thresholds, blocks⟩ := overridden_eq_ok_iff.mp overridden
        exact .record blank parsed record (exists_threshold_iff.mp ⟨_, ofThreshold, thresholds⟩)
          (exists_block_iff.mp ⟨_, ofBlock, blocks⟩)
  · intro comes
    cases comes with
    | absent => rfl
    | blank blank => exact if_pos blank
    | record filled parsed record thresholds blocks =>
      obtain ⟨l, ofThreshold, thresholds⟩ := exists_threshold_iff.mpr thresholds
      obtain ⟨m, ofBlock, blocks⟩ := exists_block_iff.mpr blocks
      have typed : PolicyOverrides.ofJson? _ = some ⟨l, m⟩ :=
        ofJson?_eq_some_iff.mpr ⟨_, _, record, ofThreshold, ofBlock⟩
      exact (resolve_filled filled).mpr
        ⟨_, _, parsed, typed, overridden_eq_ok_iff.mpr ⟨thresholds, blocks⟩⟩

theorem From.scoreThreshold_le {s : Settings} {environment : Option String} {policy : InstallPolicy}
    (comes : From s environment policy) (within : s.scoreThreshold ≤ maxThreshold) :
    policy.scoreThreshold ≤ maxThreshold := by
  cases comes with
  | absent => exact within
  | blank => exact within
  | record filled parsed record thresholds blocks => exact thresholds.le within

/-- The policy is never misread. It is accepted exactly if the variable is absent or blank, when it
is that of the settings, or is a record each of whose members is absent or null, when its setting
counts, or says what overrides it: a threshold within bounds or a truth value, either of them as it
is or as a text. Everything else is a failure of the configuration. With settings within bounds, so
is every policy that is accepted. -/
theorem resolve_exact (s : Settings) (environment : Option String) :
    (∀ policy, resolve s environment = .ok policy ↔ From s environment policy) ∧
    ((∃ message, resolve s environment = .error (.invalidConfiguration message)) ↔
      ∀ policy, ¬ From s environment policy) ∧
    (s.scoreThreshold ≤ maxThreshold →
      ∀ policy, From s environment policy → policy.scoreThreshold ≤ maxThreshold) := by
  refine ⟨fun policy => resolve_eq_ok_iff, ⟨?_, ?_⟩, fun within policy comes =>
    comes.scoreThreshold_le within⟩
  · rintro ⟨message, rejected⟩ policy comes
    cases rejected.symm.trans (resolve_eq_ok_iff.mpr comes)
  · intro foreign
    cases resolved : resolve s environment with
    | error f =>
      obtain ⟨message, rfl⟩ := resolve_blames s environment f resolved
      exact ⟨message, rfl⟩
    | ok policy => exact absurd (resolve_eq_ok_iff.mp resolved) (foreign policy)

/-- A threshold written as a text, with blanks around it, and no decision to block. -/
def paddedThreshold : String :=
  "\x7b\"scoreThreshold\": \" 75 \", \"blockInstall\": null\x7d"

theorem resolve_exact_text :
    resolve {} (some paddedThreshold) = .ok ⟨75, true⟩ ∧ 75 ≤ maxThreshold := by
  obtain ⟨accepts, -, within⟩ := resolve_exact {} (some paddedThreshold)
  have resolved : resolve {} (some paddedThreshold) = .ok ⟨75, true⟩ := by decide +kernel
  exact ⟨resolved, within (by decide) _ ((accepts _).mp resolved)⟩

end InstallPolicy

end PackageRisk
