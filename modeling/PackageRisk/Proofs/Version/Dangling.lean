import PackageRisk.Proofs.Version.Comparators
import PackageRisk.Proofs.Version.Resolution

/-!
# Operators without a version

An operator that stands by itself belongs to the version after it. One that ends its alternative or
stands in front of another operator is passed over, so the alternative denotes what is left without
it: a range is refused for such an operator only if nothing else is left, if there is a hyphen
beside it, or if what is left is not read either.
-/

namespace PackageRisk

namespace Range

variable {alternative range : List Char}

/-! ## Trimming a range -/

theorem splitBars_ne_nil (s : List Char) : splitBars s ≠ [] := by
  fun_cases splitBars s <;> simp

/-- A character that does not begin a double bar belongs to the first part. -/
theorem splitBars_cons {c : Char} {s part : List Char} {parts : List (List Char)}
    (single : ∀ rest, c = '|' → s = '|' :: rest → False) (split : splitBars s = part :: parts) :
    splitBars (c :: s) = (c :: part) :: parts := by
  rw [splitBars]
  · rw [split]
  · exact single

theorem map_words_splitBars_blank_append {blank : List Char}
    (h : ∀ c ∈ blank, Text.isBlank c = true) (s : List Char) :
    (splitBars (blank ++ s)).map Text.words = (splitBars s).map Text.words := by
  induction blank with
  | nil => rfl
  | cons c blank ih =>
    obtain ⟨first, others⟩ := List.forall_mem_cons.mp h
    obtain ⟨part, parts, split⟩ := List.exists_cons_of_ne_nil (splitBars_ne_nil (blank ++ s))
    have whole := splitBars_cons (fun _ bar _ => ne_bar_of_isBlank first bar) split
    have same : Text.words ([c] ++ part) = Text.words part :=
      Text.words_blank_append (by simpa using first) part
    rw [List.cons_append, whole, ← ih others, split, List.map_cons, List.map_cons, ← same,
      List.singleton_append]

/-- Blanks at the end of a range belong to its last alternative. -/
theorem splitBars_append_blank {blank : List Char} (h : ∀ c ∈ blank, Text.isBlank c = true)
    (s : List Char) :
    ∃ front last, splitBars s = front ++ [last] ∧
      splitBars (s ++ blank) = front ++ [last ++ blank] := by
  have unbarred : ∀ c ∈ blank, c ≠ '|' := fun c mem => ne_bar_of_isBlank (h c mem)
  fun_induction splitBars s with
  | case1 => exact ⟨[], [], rfl, splitBars_unbarred unbarred⟩
  | case2 rest ih =>
    obtain ⟨front, last, eq, eq'⟩ := ih
    refine ⟨[] :: front, last, by rw [eq, List.cons_append], ?_⟩
    rw [List.cons_append, List.cons_append, splitBars, eq', List.cons_append]
  | case3 c rest single empty => exact absurd empty (splitBars_ne_nil rest)
  | case4 c rest single part parts split ih =>
    obtain ⟨front, last, eq, eq'⟩ := ih
    have single' : ∀ rest', c = '|' → rest ++ blank = '|' :: rest' → False := by
      intro rest' bar eq
      cases rest with
      | nil => exact unbarred '|' (by simp_all) rfl
      | cons d rest =>
        obtain ⟨rfl, -⟩ := List.cons.inj eq
        exact single rest bar rfl
    rw [split] at eq
    cases front with
    | nil =>
      obtain ⟨rfl, rfl⟩ := List.cons.inj eq
      exact ⟨[], c :: part, rfl, splitBars_cons single' eq'⟩
    | cons next front =>
      obtain ⟨rfl, rfl⟩ := List.cons.inj eq
      exact ⟨(c :: part) :: front, last, rfl, splitBars_cons single' eq'⟩

/-- Blanks around a range are no part of its words. -/
theorem map_words_splitBars_trimChars (s : List Char) :
    (splitBars (Text.trimChars s)).map Text.words = (splitBars s).map Text.words := by
  have leading : ∀ c ∈ s.takeWhile Text.isBlank, Text.isBlank c = true :=
    fun c mem => List.all_eq_true.mp List.all_takeWhile c mem
  have trailing : ∀ c ∈ ((s.dropWhile Text.isBlank).reverse.takeWhile Text.isBlank).reverse,
      Text.isBlank c = true :=
    fun c mem => List.all_eq_true.mp List.all_takeWhile c (List.mem_reverse.mp mem)
  have rest : Text.trimChars s ++
      ((s.dropWhile Text.isBlank).reverse.takeWhile Text.isBlank).reverse =
        s.dropWhile Text.isBlank := by
    rw [Text.trimChars, ← List.reverse_append, List.takeWhile_append_dropWhile,
      List.reverse_reverse]
  obtain ⟨front, last, eq, eq'⟩ := splitBars_append_blank trailing (Text.trimChars s)
  rw [rest] at eq'
  calc
    (splitBars (Text.trimChars s)).map Text.words
      = (splitBars (s.dropWhile Text.isBlank)).map Text.words := by
        rw [eq, eq', List.map_append, List.map_append, List.map_singleton, List.map_singleton,
          Text.words_append_blank last trailing]
    _ = (splitBars s).map Text.words := by
        rw [← map_words_splitBars_blank_append leading, List.takeWhile_append_dropWhile]

/-! ## Operators that no version follows -/

/-- The word is an operator, and no version comes next. -/
def isDangling (word : List Char) (rest : List (List Char)) : Bool :=
  operators.contains word && rest.head?.all operators.contains

theorem isDangling_iff {word : List Char} {rest : List (List Char)} :
    isDangling word rest = true ↔ word ∈ operators ∧ ∀ next ∈ rest.head?, next ∈ operators := by
  rw [isDangling, Bool.and_eq_true, Option.all_eq_true]
  simp only [List.contains_iff_mem, Option.mem_def]

/-- The words without the operators that end them or stand in front of other operators. -/
def settled : List (List Char) → List (List Char)
  | [] => []
  | word :: rest => if isDangling word rest then settled rest else word :: settled rest

/-- An operator that stands by itself ends the words or stands in front of another operator. -/
def DanglesIn (words : List (List Char)) : Prop :=
  ∃ before op after, words = before ++ op :: after ∧ op ∈ operators ∧
    ∀ next ∈ after.head?, next ∈ operators

/-- An alternative with an operator that no version follows. -/
def Dangles (alternative : List Char) : Prop :=
  DanglesIn (Text.words alternative)

/-- The alternative without the operators that no version follows. -/
def remainder (alternative : List Char) : List Char :=
  Text.join [' '] (settled (Text.words alternative))

/-- An operator that no version follows, in an alternative with nothing but operators or with a
hyphen between blanks. -/
def Spoils (alternative : List Char) : Prop :=
  Dangles alternative ∧
    (settled (Text.words alternative) = [] ∨ ['-'] ∈ Text.words alternative)

/-- An alternative that is not read without the operators that no version follows either, or in
which one of them is not passed over. -/
def Refused (alternative : List Char) : Prop :=
  Spoils alternative ∨ Requirement.parse? (normalForm (remainder alternative)) = none

theorem attachOperators_settled (pending : List Char) (words : List (List Char)) :
    attachOperators pending (settled words) = attachOperators pending words := by
  induction words generalizing pending with
  | nil => rfl
  | cons word rest ih =>
    rw [settled]
    split
    · rename_i dangling
      obtain ⟨op, follows⟩ := isDangling_iff.mp dangling
      rw [attachOperators, if_pos op, ih]
      -- What is attached next is another operator, so the one that was waiting is forgotten.
      cases rest with
      | nil => rfl
      | cons next rest =>
        have next_op : next ∈ operators := follows next rfl
        rw [attachOperators, attachOperators, if_pos next_op, if_pos next_op]
    · simp only [attachOperators, ih]

theorem settled_of_not_danglesIn {words : List (List Char)} (none : ¬DanglesIn words) :
    settled words = words := by
  induction words with
  | nil => rfl
  | cons word rest ih =>
    have later : ¬DanglesIn rest := by
      rintro ⟨before, op, after, rfl, found⟩
      exact none ⟨word :: before, op, after, rfl, found⟩
    have first : ¬isDangling word rest = true := fun dangling =>
      none ⟨[], word, rest, rfl, isDangling_iff.mp dangling⟩
    rw [settled, if_neg first, ih later]

theorem settled_sublist (words : List (List Char)) : (settled words).Sublist words := by
  induction words with
  | nil => exact .slnil
  | cons word rest ih =>
    rw [settled]
    split
    · exact ih.cons word
    · exact ih.cons_cons word

theorem words_remainder (alternative : List Char) :
    Text.words (remainder alternative) = settled (Text.words alternative) :=
  Text.words_join fun _ mem => Text.of_mem_words ((settled_sublist _).subset mem)

theorem normalForm_congr {alternative other : List Char}
    (same : Text.words alternative = Text.words other) :
    normalForm alternative = normalForm other := by
  unfold normalForm
  rw [same]

/-- A word that is no operator is attached to the operator in front of it. -/
theorem exists_attached {words : List (List Char)} {word pending : List Char}
    (mem : word ∈ words) (other : word ∉ operators) (sign : pending ∈ [] :: operators) :
    ∃ op ∈ [] :: operators, op ++ word.dropWhile (· == 'v') ∈ attachOperators pending words := by
  induction words generalizing pending with
  | nil => cases mem
  | cons first rest ih =>
    rw [attachOperators]
    rcases List.mem_cons.mp mem with rfl | mem
    · rw [if_neg other]
      exact ⟨pending, sign, List.mem_cons_self⟩
    · split
      · rename_i op
        exact ih mem (List.mem_cons_of_mem _ op)
      · obtain ⟨op, listed, attached⟩ := ih mem List.mem_cons_self
        exact ⟨op, listed, List.mem_cons_of_mem _ attached⟩

/-- In two words around a hyphen only the second one can be an operator that no version follows. -/
theorem mem_operators_of_danglesIn {low high : List Char}
    (dangles : DanglesIn [low, ['-'], high]) : high ∈ operators := by
  have hyphen : ['-'] ∉ operators := by decide
  obtain ⟨before, op, after, eq, listed, follows⟩ := dangles
  match before with
  | [] =>
    obtain ⟨rfl, rfl⟩ := List.cons.inj eq
    exact absurd (follows _ rfl) hyphen
  | [_] =>
    obtain ⟨rfl, -⟩ := List.cons.inj (List.cons.inj eq).2
    exact absurd listed hyphen
  | [_, _] =>
    obtain ⟨rfl, -⟩ := List.cons.inj (List.cons.inj (List.cons.inj eq).2).2
    exact listed
  | _ :: _ :: _ :: _ => simp at eq

/-- Beside a hyphen an operator that no version follows is not passed over. -/
theorem parse?_of_hyphen (dangles : Dangles alternative)
    (hyphen : ['-'] ∈ Text.words alternative) :
    Requirement.parse? (normalForm alternative) = none := by
  unfold normalForm
  split
  · rename_i empty
    simp [empty] at hyphen
  · rename_i low high triple
    rw [Dangles, triple] at dangles
    have ends : high ∈ operators := mem_operators_of_danglesIn dangles
    have pieces : ['>', '='] ++ low ++ [',', ' ', '<', '='] ++ high =
        Text.join [',', ' '] [['>', '='] ++ low, ['<', '='] ++ high] := by
      simp [Text.join]
    rw [pieces]
    exact parse?_join_eq_none (by simp) (unreadable_of_operators ends)
  · obtain ⟨op, sign, attached⟩ := exists_attached hyphen (by decide) List.mem_cons_self
    exact parse?_join_eq_none attached (unreadable_of_sign sign (.inr rfl) [])

theorem Spoils.parse?_eq_none (h : Spoils alternative) :
    Requirement.parse? (normalForm alternative) = none := by
  obtain ⟨dangles, alone | hyphen⟩ := h
  · by_cases hyphen : ['-'] ∈ Text.words alternative
    · exact parse?_of_hyphen dangles hyphen
    · have some_word : Text.words alternative ≠ [] := by
        intro empty
        obtain ⟨before, op, after, eq, -⟩ := dangles
        simp [empty] at eq
      rw [normalForm_of_words rfl some_word hyphen, ← attachOperators_settled, alone]
      rfl
  · exact parse?_of_hyphen dangles hyphen

/-- Otherwise an alternative denotes what is left without the operators that no version follows. -/
theorem parse?_of_not_spoils (passes : ¬Spoils alternative) :
    Requirement.parse? (normalForm alternative) =
      Requirement.parse? (normalForm (remainder alternative)) := by
  by_cases dangles : Dangles alternative
  · have some_word : settled (Text.words alternative) ≠ [] :=
      fun alone => passes ⟨dangles, .inl alone⟩
    have unhyphened : ['-'] ∉ Text.words alternative :=
      fun hyphen => passes ⟨dangles, .inr hyphen⟩
    have left := (settled_sublist (Text.words alternative)).subset
    rw [normalForm_of_words (words_remainder alternative) some_word
        fun mem => unhyphened (left mem),
      attachOperators_settled, normalForm_of_words rfl _ unhyphened]
    intro empty
    simp [empty, settled] at some_word
  · rw [normalForm_congr]
    rw [words_remainder, settled_of_not_danglesIn dangles]

theorem refused_iff : Refused alternative ↔ Requirement.parse? (normalForm alternative) = none := by
  by_cases spoils : Spoils alternative
  · simp [Refused, spoils, spoils.parse?_eq_none]
  · simp [Refused, spoils, parse?_of_not_spoils spoils]

theorem parse?_eq_none_iff : parse? range = none ↔ ∃ a ∈ splitBars range, Refused a := by
  simp only [parse?, mapM_eq_none_iff, refused_iff]

/-- A range of which no alternative is refused denotes what is left of its alternatives. -/
theorem parse?_eq_of_not_refused (read : ∀ a ∈ splitBars range, ¬Refused a) :
    parse? range =
      (splitBars range).mapM fun a => Requirement.parse? (normalForm (remainder a)) :=
  mapM_congr fun a mem => parse?_of_not_spoils fun spoils => read a mem (.inl spoils)

theorem admitted_iff_of_parse? {alternatives : List Requirement}
    (read : parse? range = some alternatives) {published : List String} {raw : String}
    {v : Version} :
    Admitted alternatives published raw v ↔
      raw ∈ published ∧ Version.parse? raw.toList = some v ∧
        ∃ a ∈ splitBars range, ∃ r,
          Requirement.parse? (normalForm (remainder a)) = some r ∧ r.admits v = true := by
  have unrefused : ∀ a ∈ splitBars range, ¬Refused a := by
    intro a mem refused
    rw [parse?_eq_none_iff.mpr ⟨a, mem, refused⟩] at read
    cases read
  rw [parse?_eq_of_not_refused unrefused] at read
  simp only [Admitted, mem_mapM_iff read]
  grind

/-! ## Requests -/

/-- A range is read word by word. -/
theorem parse?_congr {other : List Char}
    (same : (splitBars range).map Text.words = (splitBars other).map Text.words) :
    parse? range = parse? other := by
  unfold parse?
  generalize splitBars range = parts at same
  generalize splitBars other = parts' at same
  induction parts generalizing parts' with
  | nil => rw [List.map_eq_nil_iff.mp same.symm]
  | cons part parts ih =>
    cases parts' with
    | nil => cases same
    | cons part' parts' =>
      obtain ⟨first, others⟩ := List.cons.inj same
      rw [List.mapM_cons, List.mapM_cons, normalForm_congr first, ih parts' others]

theorem parse?_trimChars (s : List Char) : parse? (Text.trimChars s) = parse? s :=
  parse?_congr (map_words_splitBars_trimChars s)

/-- A request with an operator that no version follows. -/
def AsksDangling (request : String) : Prop :=
  ∃ alternative ∈ splitBars request.toList, Dangles alternative

section Requests

variable {request : String}

theorem AsksDangling.exists_operator (h : AsksDangling request) :
    ∃ part ∈ splitBars (Text.trimChars request.toList), ∃ op ∈ Text.words part,
      op ∈ operators := by
  obtain ⟨alternative, mem, before, op, after, eq, listed, -⟩ := h
  have words : Text.words alternative ∈
      (splitBars (Text.trimChars request.toList)).map Text.words := by
    rw [map_words_splitBars_trimChars]
    exact List.mem_map_of_mem mem
  obtain ⟨part, mem', same⟩ := List.mem_map.mp words
  exact ⟨part, mem', op, by simp [same, eq], listed⟩

/-- Such a request does not stand for the latest version. -/
theorem AsksDangling.requestedText_eq (h : AsksDangling request) :
    requestedText request = Text.trim request := by
  obtain ⟨part, mem, op, word, listed⟩ := h.exists_operator
  rw [requestedText, if_neg]
  have without_operator : ∀ text ∈ ["", "*", "x"], ∀ part ∈ splitBars text.toList,
      ∀ word ∈ Text.words part, word ∉ operators := by decide
  intro latest
  have text : Text.trim request ∈ ["", "*", "x"] := by simpa using latest
  refine without_operator _ text part ?_ op word listed
  rwa [Text.trim, String.toList_ofList]

/-- A range without bars and blanks is its only word. -/
theorem eq_of_mem_words {text part word : List Char} (unbarred : ∀ c ∈ text, c ≠ '|')
    (nonblank : ∀ c ∈ text, Text.isBlank c = false) (mem : part ∈ splitBars text)
    (listed : word ∈ Text.words part) : word = text := by
  rw [splitBars_unbarred unbarred, List.mem_singleton] at mem
  subst mem
  by_cases empty : part = []
  · simp [empty] at listed
  · rwa [Text.words_word nonblank empty, List.mem_singleton] at listed

/-- The literal text of such a request is no version. -/
theorem AsksDangling.literalText_unversioned (h : AsksDangling request) :
    Version.parse? (literalText request).toList = none := by
  obtain ⟨part, mem, op, word, listed⟩ := h.exists_operator
  have literal : (literalText request).toList =
      (Text.trimChars request.toList).dropWhile fun c => c == 'v' || c == '=' := by
    rw [literalText, h.requestedText_eq, Text.trim, String.toList_ofList, String.toList_ofList]
  rw [literal, Option.eq_none_iff_forall_ne_some]
  intro v read
  generalize Text.trimChars request.toList = text at mem read
  -- All of the text would be one word, the operator, and no version is left of an operator.
  have chars : ∀ c ∈ text, c = '=' ∨ Version.isVersionChar c = true := by
    intro c in_text
    rw [← List.takeWhile_append_dropWhile (p := fun c => c == 'v' || c == '=') (l := text)]
      at in_text
    rcases List.mem_append.mp in_text with front | version
    · have dropped := List.all_eq_true.mp List.all_takeWhile c front
      rcases Bool.or_eq_true_iff.mp dropped with letter | sign
      · rw [eq_of_beq letter]
        exact .inr (by decide)
      · exact .inl (eq_of_beq sign)
    · exact .inr (Version.isVersionChar_of_parse? read c version)
  have unbarred : ∀ c ∈ text, c ≠ '|' := fun c in_text =>
    (chars c in_text).elim (by rintro rfl; decide) Version.ne_bar_of_isVersionChar
  have nonblank : ∀ c ∈ text, Text.isBlank c = false := fun c in_text =>
    (chars c in_text).elim (by rintro rfl; decide) Version.not_isBlank_of_isVersionChar
  have unversioned : ∀ op ∈ operators,
      Version.parse? (op.dropWhile fun c => c == 'v' || c == '=') = none := by decide
  have whole := eq_of_mem_words unbarred nonblank mem word
  rw [← whole, unversioned op listed] at read
  cases read

/-- What a request with an operator that no version follows comes to, if it names no tag. -/
theorem AsksDangling.resolveVersion?_eq_none_iff (h : AsksDangling request)
    {tags : NameMap String} (untagged : tags.get? (Text.trim request) = none)
    (published : List String) :
    resolveVersion? request tags published = none ↔
      literalText request ∉ published ∧
        ((∃ a ∈ splitBars request.toList, Refused a) ∨
          ∀ a ∈ splitBars request.toList, ∀ r,
            Requirement.parse? (normalForm (remainder a)) = some r →
              ∀ raw ∈ published, ∀ v, Version.parse? raw.toList = some v →
                r.admits v = false) := by
  rw [← h.requestedText_eq] at untagged
  have range : parse? (requestedText request).toList = parse? request.toList := by
    rw [h.requestedText_eq, Text.trim, String.toList_ofList, parse?_trimChars]
  rw [resolveVersion?_of_untagged published untagged, range]
  by_cases literal : literalText request ∈ published
  · simp [literal]
  · rw [if_neg literal]
    cases read : parse? request.toList with
    | none => simp [literal, parse?_eq_none_iff.mp read]
    | some alternatives =>
      have unrefused : ¬∃ a ∈ splitBars request.toList, Refused a := by
        simp [← parse?_eq_none_iff, read]
      rw [Option.bind_some, greatestAdmitted?_eq_none]
      simp only [admitted_iff_of_parse? read, literal, unrefused]
      grind

end Requests

/-- A range with an operator that no version follows is refused exactly if it has a refused
alternative. Otherwise it denotes what is left without such operators, and so does a request for it
unless it names a tag or its own text is published, which is no version then. -/
theorem dangling_operators_iff (request : String) (dangling : AsksDangling request) :
    (parse? request.toList = none ↔ ∃ a ∈ splitBars request.toList, Refused a) ∧
    ((∀ a ∈ splitBars request.toList, ¬Refused a) →
      parse? request.toList =
        (splitBars request.toList).mapM fun a =>
          Requirement.parse? (normalForm (remainder a))) ∧
    Version.parse? (literalText request).toList = none ∧
    ∀ (tags : NameMap String) (published : List String),
      tags.get? (Text.trim request) = none →
      (resolveVersion? request tags published = none ↔
        literalText request ∉ published ∧
          ((∃ a ∈ splitBars request.toList, Refused a) ∨
            ∀ a ∈ splitBars request.toList, ∀ r,
              Requirement.parse? (normalForm (remainder a)) = some r →
                ∀ raw ∈ published, ∀ v, Version.parse? raw.toList = some v →
                  r.admits v = false)) :=
  ⟨parse?_eq_none_iff, parse?_eq_of_not_refused, dangling.literalText_unversioned,
    fun _ published untagged => dangling.resolveVersion?_eq_none_iff untagged published⟩

/-- Without its last word this range has one bound. -/
theorem unbounded_request_unrefused :
    AsksDangling ">=1.0.0 <" ∧ ¬∃ a ∈ splitBars ">=1.0.0 <".toList, Refused a := by
  have dangling : AsksDangling ">=1.0.0 <" :=
    ⟨">=1.0.0 <".toList, by decide, [">=1.0.0".toList], ['<'], [], by decide, by decide, by simp⟩
  refine ⟨dangling, ?_⟩
  rw [← (dangling_operators_iff _ dangling).1]
  decide

/-- A range that ends with an operator is read, and a request for it has an answer. -/
theorem unbounded_request_resolves :
    AsksDangling ">=1.0.0 <" ∧
      parse? ">=1.0.0 <".toList = some [⟨[⟨.greaterEq, 1, some 0, some 0, []⟩]⟩] ∧
      resolveVersion? ">=1.0.0 <" (.ofList [("latest", "1.0.0")]) ["1.0.0", "2.0.0"] =
        some "2.0.0" := by
  refine ⟨⟨">=1.0.0 <".toList, ?_, [">=1.0.0".toList], ['<'], [], ?_, ?_, by simp⟩, ?_, ?_⟩ <;>
    decide

end Range

end PackageRisk
