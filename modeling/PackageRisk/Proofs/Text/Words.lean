import Mathlib.Data.List.TakeWhile
import PackageRisk.Text.Blank

/-!
# Words

A text is its words with blanks before, between and after them, in one way only. Collapsing its
blanks keeps the words and puts one space between them, so within a longer text the collapsed form
of a part is found again.
-/

namespace PackageRisk.Text

variable {s word before after blank : List Char}

/-! ## Joining -/

theorem join_cons (separator text : List Char) {texts : List (List Char)} (h : texts ≠ []) :
    join separator (text :: texts) = text ++ separator ++ join separator texts := by
  cases texts with
  | nil => exact absurd rfl h
  | cons next texts => rfl

/-- Every text but the last one has a separator behind it. -/
theorem join_append_cons (separator : List Char) (front : List (List Char)) (text : List Char)
    (back : List (List Char)) :
    join separator (front ++ text :: back) =
      front.flatMap (· ++ separator) ++ join separator (text :: back) := by
  induction front with
  | nil => rfl
  | cons first front ih =>
    rw [List.cons_append, join_cons _ _ (by simp), ih, List.flatMap_cons]
    simp only [List.append_assoc]

theorem prefix_join_cons (separator text : List Char) (back : List (List Char)) :
    text <+: join separator (text :: back) := by
  cases back with
  | nil => exact List.prefix_refl text
  | cons next back =>
    rw [join_cons _ _ (List.cons_ne_nil next back), List.append_assoc]
    exact List.prefix_append text _

/-! ## Cutting -/

theorem wordsFrom_append (held : List Char) (nonblank : ∀ c ∈ word, isBlank c = false)
    (rest : List Char) : wordsFrom held (word ++ rest) = wordsFrom (word.reverse ++ held) rest := by
  induction word generalizing held with
  | nil => rfl
  | cons c word ih =>
    obtain ⟨first, others⟩ := List.forall_mem_cons.mp nonblank
    rw [List.cons_append, wordsFrom, if_neg (by simp [first]), ih _ others]
    simp

theorem wordsFrom_blank (held : List Char) (blank : ∀ c ∈ after, isBlank c = true) :
    wordsFrom held after = if held.isEmpty then [] else [held.reverse] := by
  induction after generalizing held with
  | nil => rfl
  | cons c after ih =>
    obtain ⟨first, others⟩ := List.forall_mem_cons.mp blank
    rw [wordsFrom, if_pos first, ih [] others]
    rfl

theorem words_blank_append (blank : ∀ c ∈ before, isBlank c = true) (rest : List Char) :
    words (before ++ rest) = words rest := by
  rw [words]
  induction before with
  | nil => rfl
  | cons c before ih =>
    obtain ⟨first, others⟩ := List.forall_mem_cons.mp blank
    rw [List.cons_append, wordsFrom, if_pos first, if_pos List.isEmpty_nil, ih others]

/-- A word with blanks around it is the only word. -/
theorem words_padded (blank : ∀ c ∈ before, isBlank c = true)
    (nonblank : ∀ c ∈ word, isBlank c = false) (some_char : word ≠ [])
    (blank' : ∀ c ∈ after, isBlank c = true) : words (before ++ word ++ after) = [word] := by
  rw [List.append_assoc, words_blank_append blank, words, wordsFrom_append [] nonblank,
    wordsFrom_blank _ blank']
  simp [some_char]

theorem words_cons_blank {c : Char} (blank : isBlank c = true) (s : List Char) :
    words (c :: s) = words s := by
  rw [words, wordsFrom, if_pos blank]
  rfl

/-- A word ends before a blank. -/
theorem words_append_cons (nonblank : ∀ c ∈ word, isBlank c = false) (some_char : word ≠ [])
    {c : Char} (blank : isBlank c = true) (s : List Char) :
    words (word ++ c :: s) = word :: words (c :: s) := by
  have held : (word.reverse ++ []).isEmpty = false := by simpa using some_char
  rw [words_cons_blank blank, words, wordsFrom_append [] nonblank, wordsFrom, if_pos blank, held,
    ← words]
  simp

/-- A word is the first one if blanks or nothing at all follow it. -/
theorem words_cons (nonblank : ∀ c ∈ word, isBlank c = false) (some_char : word ≠ [])
    {between rest : List Char} (blank : ∀ c ∈ between, isBlank c = true)
    (apart : between ≠ [] ∨ rest = []) :
    words (word ++ between ++ rest) = word :: words rest := by
  rcases apart with some_blank | rfl
  · obtain ⟨c, blanks, rfl⟩ := List.exists_cons_of_ne_nil some_blank
    rw [List.append_assoc, List.cons_append,
      words_append_cons nonblank some_char (blank c List.mem_cons_self), ← List.cons_append,
      words_blank_append blank]
  · have padded := words_padded (List.forall_mem_nil _) nonblank some_char blank
    simpa using padded

theorem wordsFrom_append_blank (held s : List Char) (h : ∀ c ∈ blank, isBlank c = true) :
    wordsFrom held (s ++ blank) = wordsFrom held s := by
  induction s generalizing held with
  | nil => exact wordsFrom_blank held h
  | cons c s ih => simp only [List.cons_append, wordsFrom, ih]

theorem words_append_blank (s : List Char) (h : ∀ c ∈ blank, isBlank c = true) :
    words (s ++ blank) = words s :=
  wordsFrom_append_blank [] s h

theorem of_mem_wordsFrom {held : List Char} (nonblank : ∀ c ∈ held, isBlank c = false)
    (mem : word ∈ wordsFrom held s) : word ≠ [] ∧ ∀ c ∈ word, isBlank c = false := by
  induction s generalizing held with
  | nil =>
    rw [wordsFrom] at mem
    split at mem
    · cases mem
    · rename_i some_char
      rw [List.mem_singleton.mp mem]
      exact ⟨by simpa using some_char, by simpa using nonblank⟩
  | cons c s ih =>
    rw [wordsFrom] at mem
    split at mem
    · split at mem
      · exact ih (by simp) mem
      · rename_i some_char
        rcases List.mem_cons.mp mem with rfl | mem
        · exact ⟨by simpa using some_char, by simpa using nonblank⟩
        · exact ih (by simp) mem
    · rename_i unblank
      exact ih (List.forall_mem_cons.mpr ⟨by simpa using unblank, nonblank⟩) mem

/-- A word has characters, and none of them is blank. -/
theorem of_mem_words (mem : word ∈ words s) : word ≠ [] ∧ ∀ c ∈ word, isBlank c = false :=
  of_mem_wordsFrom (by simp) mem

theorem words_word (nonblank : ∀ c ∈ word, isBlank c = false) (some_char : word ≠ []) :
    words word = [word] := by
  have padded :=
    words_padded (List.forall_mem_nil _) nonblank some_char (List.forall_mem_nil _)
  simpa using padded

theorem words_join {texts : List (List Char)}
    (all : ∀ word ∈ texts, word ≠ [] ∧ ∀ c ∈ word, isBlank c = false) :
    words (join [' '] texts) = texts := by
  induction texts with
  | nil => rfl
  | cons word texts ih =>
    obtain ⟨⟨some_char, nonblank⟩, others⟩ := List.forall_mem_cons.mp all
    by_cases last : texts = []
    · rw [last, join, words_word nonblank some_char]
    · have space : ∀ c ∈ [' '], isBlank c = true := List.forall_mem_singleton.mpr rfl
      rw [join_cons _ _ last, words_cons nonblank some_char space (.inl (by simp)), ih others]

/-! ## Texts as words and blanks -/

/-- A text is made of words, with blanks before, between and after them. -/
inductive Spaced : List (List Char) → List Char → Prop
  | blank {gap : List Char} (blank : ∀ c ∈ gap, isBlank c = true) : Spaced [] gap
  | word {gap word rest : List Char} {words : List (List Char)}
      (blank : ∀ c ∈ gap, isBlank c = true) (nonblank : ∀ c ∈ word, isBlank c = false)
      (some_char : word ≠ []) (apart : ∀ c ∈ rest.head?, isBlank c = true)
      (spaced : Spaced words rest) : Spaced (word :: words) (gap ++ word ++ rest)

/-- A text is made of no other words than those it is cut into. -/
theorem Spaced.words_eq {texts : List (List Char)} (h : Spaced texts s) : words s = texts := by
  induction h with
  | blank blank =>
    rw [words, wordsFrom_blank [] blank]
    rfl
  | @word gap word rest texts blank nonblank some_char apart spaced ih =>
    rw [List.append_assoc, words_blank_append blank, ← ih]
    cases rest with
    | nil => rw [List.append_nil, words_word nonblank some_char, words_nil]
    | cons c rest => exact words_append_cons nonblank some_char (apart c rfl) rest

/-- Every text is made of words: the first one stands behind the blanks it begins with. -/
theorem exists_spaced (s : List Char) : ∃ texts, Spaced texts s := by
  induction length : s.length using Nat.strongRecOn generalizing s with
  | ind n ih =>
    have gap : ∀ c ∈ s.takeWhile isBlank, isBlank c = true := fun c => List.mem_takeWhile_imp
    have whole := List.takeWhile_append_dropWhile (p := isBlank) (l := s)
    cases left : s.dropWhile isBlank with
    | nil =>
      rw [left, List.append_nil] at whole
      rw [whole] at gap
      exact ⟨[], .blank gap⟩
    | cons c t =>
      have begins : isBlank c = false := by
        have stopped := List.head?_dropWhile_not isBlank s
        simpa [left] using stopped
      let word := (c :: t).takeWhile fun d => !isBlank d
      let rest := (c :: t).dropWhile fun d => !isBlank d
      have cut : word ++ rest = c :: t := List.takeWhile_append_dropWhile
      have nonblank : ∀ d ∈ word, isBlank d = false := by
        intro d mem
        simpa using List.mem_takeWhile_imp mem
      have some_char : word ≠ [] := by simp [word, begins]
      have apart : ∀ d ∈ rest.head?, isBlank d = true := by
        intro d first
        have stopped := List.head?_dropWhile_not (fun d => !isBlank d) (c :: t)
        rw [Option.mem_def.mp first] at stopped
        simpa using stopped
      have shorter : rest.length < n := by
        have lengths := congrArg List.length whole
        have pieces := congrArg List.length cut
        have pos := List.length_pos_iff.mpr some_char
        rw [left, List.length_append] at lengths
        rw [List.length_append] at pieces
        omega
      obtain ⟨texts, spaced⟩ := ih _ shorter rest rfl
      rw [← whole, left, ← cut, ← List.append_assoc]
      exact ⟨word :: texts, .word gap nonblank some_char apart spaced⟩

theorem spaced_iff {texts : List (List Char)} : Spaced texts s ↔ words s = texts := by
  refine ⟨Spaced.words_eq, ?_⟩
  rintro rfl
  obtain ⟨texts, spaced⟩ := exists_spaced s
  rwa [spaced.words_eq]

/-- The second text is the first one with every run of blanks between words written as one space,
and none at the ends. -/
def Collapsed (s t : List Char) : Prop :=
  ∃ texts, Spaced texts s ∧ t = join [' '] texts

theorem collapsed_collapse (s : List Char) : Collapsed s (collapse s) :=
  ⟨words s, spaced_iff.mpr rfl, rfl⟩

/-! ## Parts of a text -/

/-- What follows a word lengthens it or stands behind it. -/
theorem wordsFrom_of_held {held : List Char} (some_char : held ≠ []) (s : List Char) :
    ∃ tail more, wordsFrom held s = (held.reverse ++ tail) :: more := by
  induction s generalizing held with
  | nil => exact ⟨[], [], by simp [wordsFrom, some_char]⟩
  | cons c s ih =>
    rw [wordsFrom]
    split
    · exact ⟨[], wordsFrom [] s, by simp [some_char]⟩
    · obtain ⟨tail, more, eq⟩ := ih (List.cons_ne_nil c held)
      exact ⟨c :: tail, more, by rw [eq, List.reverse_cons, List.append_assoc]; rfl⟩

theorem words_word_append (nonblank : ∀ c ∈ word, isBlank c = false) (some_char : word ≠ [])
    (s : List Char) : ∃ tail more, words (word ++ s) = (word ++ tail) :: more := by
  have held : word.reverse ++ [] ≠ [] := by simpa using some_char
  obtain ⟨tail, more, eq⟩ := wordsFrom_of_held held s
  refine ⟨tail, more, ?_⟩
  rw [words, wordsFrom_append [] nonblank, eq, List.append_nil, List.reverse_reverse]

/-- Text behind a text may lengthen its last word and adds words after it. -/
theorem words_append (s t : List Char) :
    words s = [] ∨ ∃ front word tail more,
      words s = front ++ [word] ∧ words (s ++ t) = front ++ (word ++ tail) :: more := by
  obtain ⟨texts, spaced⟩ := exists_spaced s
  induction spaced with
  | blank blank => exact .inl (spaced_iff.mp (.blank blank))
  | @word gap word rest texts blank nonblank some_char apart spaced ih =>
    right
    have here : words (gap ++ word ++ rest) = word :: texts :=
      spaced_iff.mp (.word blank nonblank some_char apart spaced)
    have later : words (gap ++ word ++ rest ++ t) = words (word ++ (rest ++ t)) := by
      rw [List.append_assoc, List.append_assoc, words_blank_append blank]
    rw [spaced.words_eq] at ih
    rw [here, later]
    rcases ih with rfl | ⟨front, last, tail, more, eq, eq'⟩
    · obtain ⟨tail, more, cut⟩ := words_word_append nonblank some_char (rest ++ t)
      exact ⟨[], word, tail, more, rfl, cut⟩
    · -- Another word follows, so there are blanks behind this one.
      obtain ⟨c, rest, rfl⟩ : ∃ c rest', rest = c :: rest' := by
        refine List.exists_cons_of_ne_nil ?_
        rintro rfl
        rw [← spaced.words_eq, words_nil] at eq
        simp at eq
      refine ⟨word :: front, last, tail, more, by rw [eq]; rfl, ?_⟩
      rw [List.cons_append, words_append_cons nonblank some_char (apart c rfl)]
      exact congrArg (word :: ·) eq'

theorem collapse_prefix_append (s t : List Char) : collapse s <+: collapse (s ++ t) := by
  rw [collapse, collapse]
  rcases words_append s t with none | ⟨front, word, tail, more, eq, eq'⟩
  · rw [none]
    exact List.nil_prefix
  · rw [eq, eq', join_append_cons, join_append_cons]
    refine (List.prefix_append_right_inj _).mpr ?_
    exact (List.prefix_append word tail).trans (prefix_join_cons _ _ _)

/-- A character in front of a held word is the first one of the word. -/
theorem wordsFrom_concat {held : List Char} (some_char : held ≠ []) (c : Char) (s : List Char) :
    ∃ word more, wordsFrom held s = word :: more ∧ wordsFrom (held ++ [c]) s = (c :: word) :: more := by
  induction s generalizing held with
  | nil => exact ⟨held.reverse, [], by simp [wordsFrom, some_char], by simp [wordsFrom]⟩
  | cons d s ih =>
    rw [wordsFrom, wordsFrom]
    split
    · exact ⟨held.reverse, wordsFrom [] s, by simp [some_char], by simp⟩
    · exact ih (List.cons_ne_nil d held)

/-- A character in front of a text is dropped, begins its first word or is a word. -/
theorem collapse_suffix_cons (c : Char) (s : List Char) : collapse s <:+ collapse (c :: s) := by
  rw [collapse, collapse]
  by_cases first : isBlank c = true
  · exact ⟨[], by rw [List.nil_append, words_cons_blank first]⟩
  · have unblank : ∀ d ∈ [c], isBlank d = false := by simpa using first
    cases s with
    | nil => exact List.nil_suffix
    | cons d s =>
      by_cases second : isBlank d = true
      · have cut : words (c :: d :: s) = [c] :: words (d :: s) :=
          words_append_cons unblank (List.cons_ne_nil c []) second s
        rw [cut]
        by_cases last : words (d :: s) = []
        · rw [last]
          exact List.nil_suffix
        · rw [join_cons _ _ last]
          exact List.suffix_append _ _
      · obtain ⟨word, more, eq, eq'⟩ := wordsFrom_concat (List.cons_ne_nil d []) c s
        have here : words (d :: s) = word :: more := by
          rw [words, wordsFrom, if_neg second, eq]
        have longer : words (c :: d :: s) = (c :: word) :: more := by
          rw [words, wordsFrom, if_neg first, wordsFrom, if_neg second]
          exact eq'
        rw [here, longer]
        cases more <;> exact List.suffix_cons _ _

theorem collapse_suffix_append (s t : List Char) : collapse t <:+ collapse (s ++ t) := by
  induction s with
  | nil => exact List.suffix_refl _
  | cons c s ih => exact ih.trans (collapse_suffix_cons c (s ++ t))

/-- The collapsed form of a part stands in the collapsed form of the whole. -/
theorem collapse_infix_append (before s after : List Char) :
    collapse s <:+: collapse (before ++ s ++ after) :=
  (collapse_suffix_append before s).isInfix.trans (collapse_prefix_append (before ++ s) after).isInfix

end PackageRisk.Text
