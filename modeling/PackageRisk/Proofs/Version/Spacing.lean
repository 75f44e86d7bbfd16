import PackageRisk.Proofs.Version.Comparators

/-!
# Blanks after operators

A range may be laid out with or without blanks between an operator and its version. Layouts of the
same comparators denote the same range unless one of them leaves no blank between an operator and
a letter v: the letter is dropped in front of a version that stands by itself, but not after an
operator, where no comparator can be read.
-/

namespace PackageRisk

namespace Range

/-- A full or partial version, or what looks like one: a digit or a wildcard, followed by characters
that versions are written with and wildcards. -/
def isVersionText : List Char → Bool
  | [] => false
  | c :: rest =>
    (c.isDigit || c == '*' || c == 'x' || c == 'X') &&
      rest.all fun c => Version.isVersionChar c || c == '*'

/-- A character that a version text may begin with. -/
theorem exists_start_of_isVersionText {s : List Char} (h : isVersionText s = true) :
    ∃ c rest, s = c :: rest ∧
      (c.isDigit = true ∨ c ∈ ['*', 'x', 'X']) := by
  cases s with
  | nil => cases h
  | cons c rest =>
    simp only [isVersionText, Bool.and_eq_true, Bool.or_eq_true, beq_iff_eq] at h
    refine ⟨c, rest, rfl, ?_⟩
    simpa [or_assoc] using h.1

theorem isVersionChar_of_isVersionText {s : List Char} (h : isVersionText s = true) {c : Char}
    (mem : c ∈ s) : Version.isVersionChar c = true ∨ c = '*' := by
  cases s with
  | nil => cases h
  | cons d rest =>
    simp only [isVersionText, Bool.and_eq_true, Bool.or_eq_true, beq_iff_eq,
      List.all_eq_true] at h
    rcases List.mem_cons.mp mem with rfl | mem
    · rcases h.1 with ((digit | rfl) | rfl) | rfl
      · exact .inl (Version.isVersionChar_of_isDigit digit)
      · exact .inr rfl
      · exact .inl (by decide)
      · exact .inl (by decide)
    · exact h.2 c mem

/-- A comparator of a range: an operator or none, a letter v if it is marked, and a version. -/
structure Bound where
  sign : List Char
  marked : Bool
  version : List Char
  sign_mem : sign ∈ [] :: operators
  version_text : isVersionText version = true

namespace Bound

variable {b : Bound}

/-- The version with its mark. -/
def numeral (b : Bound) : List Char :=
  (if b.marked then ['v'] else []) ++ b.version

/-- The comparator without a letter v. -/
def unmarked (b : Bound) : Bound :=
  { b with marked := false }

/-- The operator and the version. -/
def plain (b : Bound) : List Char :=
  b.sign ++ b.version

theorem exists_start (b : Bound) :
    ∃ c rest, b.version = c :: rest ∧ (c.isDigit = true ∨ c ∈ ['*', 'x', 'X']) :=
  exists_start_of_isVersionText b.version_text

theorem numeral_ne_nil (b : Bound) : b.numeral ≠ [] := by
  obtain ⟨c, rest, version, -⟩ := b.exists_start
  simp [numeral, version]

/-- Neither blanks nor bars stand in a comparator. -/
theorem plain_of_mem {c : Char} (mem : c ∈ b.sign ++ b.numeral) :
    Text.isBlank c = false ∧ c ≠ '|' := by
  have sign : ∀ s ∈ [] :: operators, ∀ c ∈ s, Text.isBlank c = false ∧ c ≠ '|' := by
    simp [operators, Text.isBlank]
  rcases List.mem_append.mp mem with mem | mem
  · exact sign _ b.sign_mem _ mem
  · rcases List.mem_append.mp mem with mem | mem
    · split at mem
      · rw [List.mem_singleton.mp mem]
        decide
      · cases mem
    · rcases isVersionChar_of_isVersionText b.version_text mem with version | rfl
      · exact ⟨Version.not_isBlank_of_isVersionChar version,
          Version.ne_bar_of_isVersionChar version⟩
      · decide

/-- A word that ends in a version is neither an operator nor a hyphen. -/
theorem append_version_foreign (front : List Char) (b : Bound) :
    front ++ b.version ∉ operators ∧ front ++ b.version ≠ ['-'] := by
  have sign : ∀ s ∈ ['-'] :: operators, ∀ c ∈ s, c.isDigit = false ∧ c ∉ ['*', 'x', 'X'] := by
    simp [operators]
  obtain ⟨c, rest, version, start⟩ := b.exists_start
  have inside : c ∈ front ++ b.version := by simp [version]
  have outside (other : front ++ b.version ∈ ['-'] :: operators) : False := by
    obtain ⟨digit, wildcard⟩ := sign _ other c inside
    rcases start with start | start
    · simp [digit] at start
    · exact wildcard start
  exact ⟨fun operator => outside (by simp [operator]), fun hyphen => outside (by simp [hyphen])⟩

theorem numeral_foreign (b : Bound) : b.numeral ∉ operators ∧ b.numeral ≠ ['-'] :=
  append_version_foreign _ b

theorem glued_foreign (b : Bound) :
    b.sign ++ b.numeral ∉ operators ∧ b.sign ++ b.numeral ≠ ['-'] := by
  rw [numeral, ← List.append_assoc]
  exact append_version_foreign _ b

theorem sign_mem_operators (signed : b.sign ≠ []) : b.sign ∈ operators :=
  (List.mem_cons.mp b.sign_mem).resolve_left signed

theorem dropWhile_numeral (b : Bound) : b.numeral.dropWhile (· == 'v') = b.version := by
  obtain ⟨c, rest, version, start⟩ := b.exists_start
  have other : c ≠ 'v' := by
    rintro rfl
    revert start
    decide
  rw [numeral, version]
  split <;> simp [other]

theorem dropWhile_sign (signed : b.sign ≠ []) (rest : List Char) :
    (b.sign ++ rest).dropWhile (· == 'v') = b.sign ++ rest := by
  have sign : ∀ s ∈ [] :: operators, s ≠ [] → s.head? ≠ some 'v' := by decide
  have other := sign _ b.sign_mem signed
  obtain ⟨c, more, eq⟩ := List.exists_cons_of_ne_nil signed
  rw [eq] at other ⊢
  exact List.dropWhile_cons_of_neg (by simpa using other)

end Bound

/-- What the comparators denote without letters v. -/
def plainForm (bounds : List Bound) : List Char :=
  if bounds = [] then ['*'] else Text.join [',', ' '] (bounds.map Bound.plain)

theorem plainForm_map_unmarked (bounds : List Bound) :
    plainForm (bounds.map Bound.unmarked) = plainForm bounds := by
  have same : Bound.plain ∘ Bound.unmarked = Bound.plain := rfl
  simp [plainForm, same]

/-- A comparator in its place: with blanks after its operator and blanks after its version. -/
structure Placed where
  bound : Bound
  gap : List Char
  after : List Char
  blank_gap : ∀ c ∈ gap, Text.isBlank c = true
  blank_after : ∀ c ∈ after, Text.isBlank c = true

namespace Placed

variable {p : Placed}

/-- The comparator as it stands in the range. -/
def chars (p : Placed) : List Char :=
  p.bound.sign ++ p.gap ++ p.bound.numeral ++ p.after

theorem ne_bar_of_mem_chars (p : Placed) {c : Char} (mem : c ∈ p.chars) : c ≠ '|' := by
  simp only [chars, List.append_assoc, List.mem_append] at mem
  rcases mem with mem | mem | mem | mem
  · exact (Bound.plain_of_mem (b := p.bound) (List.mem_append_left _ mem)).2
  · exact ne_bar_of_isBlank (p.blank_gap c mem)
  · exact (Bound.plain_of_mem (b := p.bound) (List.mem_append_right _ mem)).2
  · exact ne_bar_of_isBlank (p.blank_after c mem)

/-- The words of the comparator. -/
def tokens (p : Placed) : List (List Char) :=
  if p.bound.sign = [] ∨ p.gap = [] then [p.bound.sign ++ p.bound.numeral]
  else [p.bound.sign, p.bound.numeral]

/-- There is no blank between the operator and a letter v. -/
def GluesMark (p : Placed) : Prop :=
  p.bound.sign ≠ [] ∧ p.gap = [] ∧ p.bound.marked = true

/-- The comparator as it is read: a letter v stays behind an operator only. -/
def piece (p : Placed) : List Char :=
  p.bound.sign ++ if p.bound.sign ≠ [] ∧ p.gap = [] then p.bound.numeral else p.bound.version

theorem words_chars_append (p : Placed) {rest : List Char} (apart : p.after ≠ [] ∨ rest = []) :
    Text.words (p.chars ++ rest) = p.tokens ++ Text.words rest := by
  have plain : ∀ c ∈ p.bound.sign ++ p.bound.numeral, Text.isBlank c = false :=
    fun c mem => (Bound.plain_of_mem mem).1
  have plain_sign : ∀ c ∈ p.bound.sign, Text.isBlank c = false :=
    fun c mem => plain c (List.mem_append_left _ mem)
  have plain_numeral : ∀ c ∈ p.bound.numeral, Text.isBlank c = false :=
    fun c mem => plain c (List.mem_append_right _ mem)
  rw [tokens, chars]
  by_cases signed : p.bound.sign = []
  · simp only [signed, true_or, if_true, List.nil_append, List.append_assoc]
    rw [Text.words_blank_append p.blank_gap, ← List.append_assoc]
    exact Text.words_cons plain_numeral p.bound.numeral_ne_nil p.blank_after apart
  · by_cases glued : p.gap = []
    · simp only [glued, or_true, if_true, List.append_nil]
      exact Text.words_cons plain (by simp [signed]) p.blank_after apart
    · simp only [signed, glued, or_self, if_false]
      rw [List.append_assoc, List.append_assoc,
        Text.words_cons plain_sign signed p.blank_gap (.inl glued), ← List.append_assoc,
        Text.words_cons plain_numeral p.bound.numeral_ne_nil p.blank_after apart]
      rfl

theorem tokens_ne_nil (p : Placed) : p.tokens ≠ [] := by
  rw [tokens]
  split <;> simp

theorem hyphen_not_mem_tokens (p : Placed) : ['-'] ∉ p.tokens := by
  rw [tokens]
  split
  · simpa using p.bound.glued_foreign.2.symm
  · have sign : ['-'] ≠ p.bound.sign := by
      have other : ∀ s ∈ [] :: operators, ['-'] ≠ s := by decide
      exact other _ p.bound.sign_mem
    simpa [sign] using p.bound.numeral_foreign.2.symm

theorem attachOperators_tokens_append (p : Placed) (rest : List (List Char)) :
    attachOperators [] (p.tokens ++ rest) = p.piece :: attachOperators [] rest := by
  rw [tokens, piece]
  by_cases signed : p.bound.sign = []
  · simp [signed, attachOperators, p.bound.numeral_foreign.1, p.bound.dropWhile_numeral]
  · by_cases glued : p.gap = []
    · simp [signed, glued, attachOperators, p.bound.glued_foreign.1, Bound.dropWhile_sign signed]
    · simp [signed, glued, attachOperators, Bound.sign_mem_operators signed,
        p.bound.numeral_foreign.1, p.bound.dropWhile_numeral]

/-- What is read of a comparator whose operator is followed by the letter v at once. -/
theorem GluesMark.unreadable (h : p.GluesMark) : Unreadable p.piece := by
  obtain ⟨signed, glued, marked⟩ := h
  have piece : p.piece = p.bound.sign ++ 'v' :: p.bound.version := by
    simp [Placed.piece, signed, glued, Bound.numeral, marked]
  rw [piece]
  exact unreadable_of_sign p.bound.sign_mem (.inl rfl) _

/-- Any other comparator is read without the letter. -/
theorem piece_of_not_gluesMark (h : ¬p.GluesMark) : p.piece = p.bound.plain := by
  rw [piece, Bound.plain]
  by_cases glued : p.bound.sign ≠ [] ∧ p.gap = []
  · have unmarked : p.bound.marked = false := by
      rw [← Bool.not_eq_true]
      exact fun marked => h ⟨glued.1, glued.2, marked⟩
    simp [glued, Bound.numeral, unmarked]
  · rw [if_neg glued]

end Placed

/-- An alternative in its layout: comparators with blanks between them and around them. -/
structure Alternative where
  before : List Char
  places : List Placed
  blank_before : ∀ c ∈ before, Text.isBlank c = true
  apart : ∀ p ∈ places.dropLast, p.after ≠ []

namespace Alternative

variable {a : Alternative}

/-- The alternative as it stands in the range. -/
def chars (a : Alternative) : List Char :=
  a.before ++ a.places.flatMap Placed.chars

/-- The comparators of the alternative. -/
def bounds (a : Alternative) : List Bound :=
  a.places.map Placed.bound

/-- Some operator is followed by a letter v at once. -/
def GluesMark (a : Alternative) : Prop :=
  ∃ p ∈ a.places, p.GluesMark

theorem ne_bar_of_mem_chars (a : Alternative) {c : Char} (mem : c ∈ a.chars) : c ≠ '|' := by
  rcases List.mem_append.mp mem with mem | mem
  · exact ne_bar_of_isBlank (a.blank_before c mem)
  · obtain ⟨p, -, mem⟩ := List.mem_flatMap.mp mem
    exact p.ne_bar_of_mem_chars mem

theorem words_flatMap_chars {places : List Placed} (apart : ∀ p ∈ places.dropLast, p.after ≠ []) :
    Text.words (places.flatMap Placed.chars) = places.flatMap Placed.tokens := by
  induction places with
  | nil => rfl
  | cons p places ih =>
    rw [List.flatMap_cons, List.flatMap_cons]
    cases places with
    | nil => exact p.words_chars_append (.inr rfl)
    | cons q places =>
      rw [List.dropLast_cons_cons] at apart
      obtain ⟨first, others⟩ := List.forall_mem_cons.mp apart
      rw [p.words_chars_append (.inl first), ih others]

theorem words_chars (a : Alternative) : Text.words a.chars = a.places.flatMap Placed.tokens := by
  rw [chars, Text.words_blank_append a.blank_before, words_flatMap_chars a.apart]

theorem attachOperators_flatMap_tokens (places : List Placed) :
    attachOperators [] (places.flatMap Placed.tokens) = places.map Placed.piece := by
  induction places with
  | nil => rfl
  | cons p places ih => rw [List.flatMap_cons, p.attachOperators_tokens_append, ih, List.map_cons]

theorem normalForm_chars (some_place : a.places ≠ []) :
    normalForm a.chars = Text.join [',', ' '] (a.places.map Placed.piece) := by
  obtain ⟨p, places, eq⟩ := List.exists_cons_of_ne_nil some_place
  have some_word : a.places.flatMap Placed.tokens ≠ [] := by simp [eq, p.tokens_ne_nil]
  have unhyphened : ['-'] ∉ a.places.flatMap Placed.tokens := by
    simpa using fun p _ => Placed.hyphen_not_mem_tokens p
  rw [normalForm_of_words a.words_chars some_word unhyphened, attachOperators_flatMap_tokens]

theorem GluesMark.parse?_eq_none (h : a.GluesMark) :
    Requirement.parse? (normalForm a.chars) = none := by
  obtain ⟨p, mem, glues⟩ := h
  rw [normalForm_chars (List.ne_nil_of_mem mem)]
  exact parse?_join_eq_none (List.mem_map_of_mem mem) glues.unreadable

/-- An alternative in which no operator is followed by a letter v at once is read without the letters
in front of its versions. -/
theorem normalForm_of_not_gluesMark (free : ¬a.GluesMark) :
    normalForm a.chars = plainForm a.bounds := by
  rw [plainForm, bounds, List.map_map]
  by_cases empty : a.places = []
  · have words : Text.words a.chars = [] := by rw [words_chars, empty, List.flatMap_nil]
    simp [normalForm, words, empty]
  · have pieces : a.places.map Placed.piece = a.places.map (Bound.plain ∘ Placed.bound) := by
      apply List.map_congr_left
      exact fun p mem => Placed.piece_of_not_gluesMark fun glues => free ⟨p, mem, glues⟩
    rw [normalForm_chars empty, pieces, if_neg (by simpa using empty)]

theorem blank_nothing : ∀ c ∈ [], Text.isBlank c = true :=
  List.forall_mem_nil _

theorem blank_space : ∀ c ∈ [' '], Text.isBlank c = true :=
  List.forall_mem_singleton.mpr rfl

/-- The comparators with the same blanks after each operator. -/
def spaced (gap : List Char) (blank : ∀ c ∈ gap, Text.isBlank c = true) (bounds : List Bound) :
    Alternative where
  before := []
  places := bounds.map fun b => ⟨b, gap, [' '], blank, blank_space⟩
  blank_before := blank_nothing
  apart := by
    intro p mem
    obtain ⟨b, -, rfl⟩ := List.mem_map.mp (List.dropLast_subset _ mem)
    simp

@[simp] theorem bounds_spaced (gap : List Char) (blank : ∀ c ∈ gap, Text.isBlank c = true)
    (bs : List Bound) : (spaced gap blank bs).bounds = bs := by
  simp [spaced, bounds, Function.comp_def]

/-- The comparators without blanks after operators. -/
def tight (bounds : List Bound) : Alternative :=
  spaced [] blank_nothing bounds

/-- The comparators with a blank after each operator. -/
def wide (bounds : List Bound) : Alternative :=
  spaced [' '] blank_space bounds

@[simp] theorem bounds_tight (bounds : List Bound) : (tight bounds).bounds = bounds :=
  bounds_spaced _ _ bounds

@[simp] theorem bounds_wide (bounds : List Bound) : (wide bounds).bounds = bounds :=
  bounds_spaced _ _ bounds

theorem gluesMark_tight_iff {bounds : List Bound} :
    (tight bounds).GluesMark ↔ ∃ b ∈ bounds, b.sign ≠ [] ∧ b.marked = true := by
  constructor
  · rintro ⟨p, mem, signed, -, marked⟩
    obtain ⟨b, listed, rfl⟩ := List.mem_map.mp mem
    exact ⟨b, listed, signed, marked⟩
  · rintro ⟨b, listed, signed, marked⟩
    exact ⟨_, List.mem_map_of_mem listed, signed, rfl, marked⟩

theorem not_gluesMark_wide (bounds : List Bound) : ¬(wide bounds).GluesMark := by
  rintro ⟨p, mem, -, glued, -⟩
  obtain ⟨b, -, rfl⟩ := List.mem_map.mp mem
  cases glued

end Alternative

/-! ## Layouts of a range -/

/-- The text of a range in its layout. -/
def layoutChars (layout : List Alternative) : List Char :=
  Text.join ['|', '|'] (layout.map Alternative.chars)

/-- The range without blanks after operators and without letters v. -/
def plainChars (range : List (List Bound)) : List Char :=
  layoutChars (range.map fun bounds => .tight (bounds.map Bound.unmarked))

theorem parse?_layoutChars {layout : List Alternative} (some_alternative : layout ≠ []) :
    parse? (layoutChars layout) =
      layout.mapM fun a => Requirement.parse? (normalForm a.chars) := by
  have unbarred : ∀ part ∈ layout.map Alternative.chars, ∀ c ∈ part, c ≠ '|' := by
    intro part mem
    obtain ⟨a, -, rfl⟩ := List.mem_map.mp mem
    exact fun c inside => a.ne_bar_of_mem_chars inside
  rw [parse?, layoutChars, splitBars_join (by simpa using some_alternative) unbarred,
    List.mapM_map]
  rfl

theorem parse?_plainChars {range : List (List Bound)} (some_alternative : range ≠ []) :
    parse? (plainChars range) = range.mapM fun bounds => Requirement.parse? (plainForm bounds) := by
  have form (bounds : List Bound) :
      normalForm (Alternative.tight (bounds.map Bound.unmarked)).chars = plainForm bounds := by
    rw [Alternative.normalForm_of_not_gluesMark, Alternative.bounds_tight, plainForm_map_unmarked]
    rw [Alternative.gluesMark_tight_iff]
    rintro ⟨b, unmarked, -, marked⟩
    obtain ⟨b, -, rfl⟩ := List.mem_map.mp unmarked
    cases marked
  rw [plainChars, parse?_layoutChars (by simpa using some_alternative), List.mapM_map]
  simp only [Function.comp_def, form]

/-- In one of the alternatives a letter v follows an operator at once. -/
def GluesMark (layout : List Alternative) : Prop :=
  ∃ a ∈ layout, a.GluesMark

section Layouts

variable {layout : List Alternative} {range : List (List Bound)}

theorem parse?_of_gluesMark (glues : GluesMark layout) : parse? (layoutChars layout) = none := by
  obtain ⟨a, mem, glues⟩ := glues
  rw [parse?_layoutChars (List.ne_nil_of_mem mem)]
  exact mapM_eq_none_iff.mpr ⟨a, mem, glues.parse?_eq_none⟩

theorem parse?_of_not_gluesMark (laid : layout.map Alternative.bounds = range)
    (free : ¬GluesMark layout) : parse? (layoutChars layout) = parse? (plainChars range) := by
  subst laid
  by_cases empty : layout = []
  · rw [empty]
    rfl
  · rw [parse?_layoutChars empty, parse?_plainChars (by simpa using empty), List.mapM_map]
    apply mapM_congr
    intro a mem
    rw [Alternative.normalForm_of_not_gluesMark fun glues => free ⟨a, mem, glues⟩]
    rfl

theorem GluesMark.exists_marked (laid : layout.map Alternative.bounds = range)
    (glues : GluesMark layout) :
    ∃ bounds ∈ range, ∃ b ∈ bounds, b.sign ≠ [] ∧ b.marked = true := by
  subst laid
  obtain ⟨a, mem, p, place, signed, -, marked⟩ := glues
  exact ⟨a.bounds, List.mem_map_of_mem mem, p.bound, List.mem_map_of_mem place, signed, marked⟩

end Layouts

/-- A range, its operators followed by blanks or not, is read without the letters v, unless one of
them follows an operator at once: then it is not read at all. So the blanks do not matter exactly
when no comparator has both an operator and a letter v, or when the range is not read without its
letters either. -/
theorem spacing_irrelevant_iff (range : List (List Bound)) :
    (∀ layout, layout.map Alternative.bounds = range → GluesMark layout →
      parse? (layoutChars layout) = none) ∧
    (∀ layout, layout.map Alternative.bounds = range → ¬GluesMark layout →
      parse? (layoutChars layout) = parse? (plainChars range)) ∧
    ((∀ layout layout', layout.map Alternative.bounds = range →
        layout'.map Alternative.bounds = range →
          parse? (layoutChars layout) = parse? (layoutChars layout')) ↔
      (∀ bounds ∈ range, ∀ b ∈ bounds, b.sign = [] ∨ b.marked = false) ∨
        parse? (plainChars range) = none) := by
  refine ⟨fun layout _ glues => parse?_of_gluesMark glues,
    fun layout laid free => parse?_of_not_gluesMark laid free, ?_, ?_⟩
  · intro agree
    have tight : (range.map Alternative.tight).map Alternative.bounds = range := by
      simp [Function.comp_def]
    have wide : (range.map Alternative.wide).map Alternative.bounds = range := by
      simp [Function.comp_def]
    have free : ¬GluesMark (range.map Alternative.wide) := by
      rintro ⟨a, mem, glues⟩
      obtain ⟨bounds, -, rfl⟩ := List.mem_map.mp mem
      exact Alternative.not_gluesMark_wide bounds glues
    -- One layout has blanks after all operators and the other one after none.
    by_cases glues : GluesMark (range.map Alternative.tight)
    · right
      calc
        parse? (plainChars range) = parse? (layoutChars (range.map Alternative.wide)) :=
          (parse?_of_not_gluesMark wide free).symm
        _ = parse? (layoutChars (range.map Alternative.tight)) := agree _ _ wide tight
        _ = none := parse?_of_gluesMark glues
    · left
      intro bounds mem b listed
      by_cases signed : b.sign = []
      · exact .inl signed
      · right
        rw [← Bool.not_eq_true]
        exact fun marked => glues ⟨.tight bounds, List.mem_map_of_mem mem,
          Alternative.gluesMark_tight_iff.mpr ⟨b, listed, signed, marked⟩⟩
  · intro condition
    have each (layout : List Alternative) (laid : layout.map Alternative.bounds = range) :
        parse? (layoutChars layout) = parse? (plainChars range) := by
      by_cases glues : GluesMark layout
      · rcases condition with separate | unread
        · obtain ⟨bounds, mem, b, listed, signed, marked⟩ := glues.exists_marked laid
          rcases separate bounds mem b listed with unsigned | unmarked
          · exact absurd unsigned signed
          · simp [marked] at unmarked
        · rw [parse?_of_gluesMark glues, unread]
      · exact parse?_of_not_gluesMark laid glues
    intro layout layout' laid laid'
    rw [each layout laid, each layout' laid']

/-- Not before version 1.2.3, which has its letter v. -/
def sampleBound : Bound where
  sign := ['>', '=']
  marked := true
  version := "1.2.3".toList
  sign_mem := by decide
  version_text := by decide

/-- The sample with blanks after its operator. -/
def sampleLayout (gap : List Char) (blank : ∀ c ∈ gap, Text.isBlank c = true) : Alternative where
  before := []
  places := [⟨sampleBound, gap, [], blank, Alternative.blank_nothing⟩]
  blank_before := Alternative.blank_nothing
  apart := by simp

/-- A comparator with a letter v is read after a blank and not without one. -/
theorem sampleBound_spacing_matters :
    layoutChars [sampleLayout [' '] Alternative.blank_space] = ">= v1.2.3".toList ∧
      layoutChars [sampleLayout [] Alternative.blank_nothing] = ">=v1.2.3".toList ∧
      parse? ">= v1.2.3".toList = some [⟨[⟨.greaterEq, 1, some 2, some 3, []⟩]⟩] ∧
      parse? ">=v1.2.3".toList = none := by
  decide

end Range

end PackageRisk
