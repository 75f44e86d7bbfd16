import PackageRisk.Proofs.Version.Pinned

/-!
# Requests for exact versions

A request that lists full versions means the published one if it lists a single version that is
published. In every other case it is a range, and a bare version in a range admits all versions
that are compatible with it, so a greater version that nobody listed may take the place of one
that is not published.
-/

namespace PackageRisk

/-- A full version in a request: without build metadata, with a letter v in front if it is marked,
and with blanks around it. -/
structure Pinned where
  before : List Char
  marked : Bool
  text : List Char
  after : List Char
  version : Version
  reads : Version.parse? text = some version
  unbuilt : version.build = []
  blank_before : ∀ c ∈ before, Text.isBlank c = true
  blank_after : ∀ c ∈ after, Text.isBlank c = true

namespace Pinned

variable {p : Pinned} {listed : List Pinned} {tags : NameMap String} {published : List String}

/-- The version with its mark. -/
def core (p : Pinned) : List Char :=
  (if p.marked then ['v'] else []) ++ p.text

/-- The version as it stands in the request. -/
def chars (p : Pinned) : List Char :=
  p.before ++ p.core ++ p.after

/-- The characters of a request that lists some versions. -/
def requestChars (listed : List Pinned) : List Char :=
  Text.join ['|', '|'] (listed.map chars)

/-- The request that lists some versions. -/
def request (listed : List Pinned) : String :=
  String.ofList (requestChars listed)

theorem exists_digit (p : Pinned) : ∃ c rest, p.text = c :: rest ∧ c.isDigit = true :=
  Version.exists_digit_of_parse? p.reads

theorem core_ne_nil (p : Pinned) : p.core ≠ [] := by
  obtain ⟨c, rest, text, -⟩ := p.exists_digit
  simp [core, text]

theorem isVersionChar_of_mem_core {c : Char} (h : c ∈ p.core) :
    Version.isVersionChar c = true := by
  rcases List.mem_append.mp h with h | h
  · split at h
    · rw [List.mem_singleton.mp h]
      decide
    · simp at h
  · exact Version.isVersionChar_of_parse? p.reads c h

theorem ne_bar_of_mem_chars : ∀ c ∈ p.chars, c ≠ '|' := by
  have unblank : Text.isBlank '|' = false := by decide
  rintro c h rfl
  rcases List.mem_append.mp h with h | h
  · rcases List.mem_append.mp h with h | h
    · exact absurd (p.blank_before _ h) (by simp [unblank])
    · exact Version.ne_bar_of_isVersionChar (isVersionChar_of_mem_core h) rfl
  · exact absurd (p.blank_after _ h) (by simp [unblank])

theorem not_isBlank_of_mem_core : ∀ c ∈ p.core, Text.isBlank c = false :=
  fun _ h => Version.not_isBlank_of_isVersionChar (isVersionChar_of_mem_core h)

/-- The mark is dropped, with an equals sign if there were one. -/
theorem dropWhile_core {drop : Char → Bool} (mark : drop 'v' = true)
    (digits : ∀ c, c.isDigit = true → drop c = false) : p.core.dropWhile drop = p.text := by
  obtain ⟨c, rest, text, digit⟩ := p.exists_digit
  rw [core, text]
  split <;> simp [mark, digits c digit]

theorem core_not_mem_operators : p.core ∉ Range.operators := by
  have foreign : ∀ token ∈ Range.operators, token.all Version.isVersionChar = false := by decide
  intro h
  have all : p.core.all Version.isVersionChar = true :=
    List.all_eq_true.mpr fun _ => isVersionChar_of_mem_core
  cases all.symm.trans (foreign _ h)

theorem normalForm_chars (p : Pinned) : Range.normalForm p.chars = p.text := by
  have words : Text.words p.chars = [p.core] :=
    Text.words_padded p.blank_before not_isBlank_of_mem_core p.core_ne_nil p.blank_after
  have unmarked : p.core.dropWhile (· == 'v') = p.text := by
    apply dropWhile_core rfl
    intro c digit
    rw [beq_eq_false_iff_ne]
    rintro rfl
    simp at digit
  simp [Range.normalForm, words, Range.attachOperators, core_not_mem_operators, unmarked, Text.join]

theorem splitBars_requestChars (h : listed ≠ []) :
    Range.splitBars (requestChars listed) = listed.map chars := by
  apply Range.splitBars_join (by simpa using h)
  intro part mem
  obtain ⟨p, -, rfl⟩ := List.mem_map.mp mem
  exact ne_bar_of_mem_chars

/-- Each listed version is an alternative of its own. -/
theorem parse?_requestChars (h : listed ≠ []) :
    Range.parse? (requestChars listed) =
      some (listed.map fun p => ⟨[Comparator.compatibleWith p.version]⟩) := by
  have each (p : Pinned) : Requirement.parse? (Range.normalForm p.chars) =
      some ⟨[Comparator.compatibleWith p.version]⟩ := by
    rw [normalForm_chars, Comparator.parse?_version p.reads]
  rw [Range.parse?, splitBars_requestChars h]
  clear h
  induction listed with
  | nil => rfl
  | cons p rest ih =>
    rw [List.map_cons, List.mapM_cons, each, ih]
    rfl

/-! ## Blanks around the request -/

/-- The first version without blanks in front of it. -/
def trimFirst : List Pinned → List Pinned
  | [] => []
  | p :: rest => { p with before := [], blank_before := by simp } :: rest

/-- The last version without blanks after it. -/
def trimLast : List Pinned → List Pinned
  | [] => []
  | [p] => [{ p with after := [], blank_after := by simp }]
  | p :: rest => p :: trimLast rest

theorem trimLast_concat (listed : List Pinned) (p : Pinned) :
    trimLast (listed ++ [p]) = listed ++ trimLast [p] := by
  induction listed with
  | nil => rfl
  | cons q listed ih =>
    have kept : trimLast (q :: (listed ++ [p])) = q :: trimLast (listed ++ [p]) := by
      rw [trimLast]
      simp
    rw [List.cons_append, kept, ih]
    rfl

theorem map_version_trimFirst (listed : List Pinned) :
    (trimFirst listed).map version = listed.map version := by
  cases listed <;> rfl

theorem map_version_trimLast (listed : List Pinned) :
    (trimLast listed).map version = listed.map version := by
  rcases List.eq_nil_or_concat listed with rfl | ⟨front, p, rfl⟩
  · rfl
  · rw [List.concat_eq_append, trimLast_concat, List.map_append, List.map_append]
    rfl

theorem dropWhile_requestChars (listed : List Pinned) :
    (requestChars listed).dropWhile Text.isBlank = requestChars (trimFirst listed) := by
  cases listed with
  | nil => rfl
  | cons p rest =>
    have trimmed (tail : List Char) :
        (p.chars ++ tail).dropWhile Text.isBlank = p.core ++ p.after ++ tail := by
      obtain ⟨c, core, eq⟩ := List.exists_cons_of_ne_nil p.core_ne_nil
      have unblank := not_isBlank_of_mem_core c (eq ▸ List.mem_cons_self)
      rw [chars, List.append_assoc, List.append_assoc, List.dropWhile_append_of_pos p.blank_before,
        eq]
      simp [unblank]
    cases rest with
    | nil => simpa [requestChars, trimFirst, Text.join, chars, core] using trimmed []
    | cons q rest =>
      simpa [requestChars, trimFirst, Text.join, chars, core] using
        trimmed ('|' :: '|' :: requestChars (q :: rest))

theorem dropWhile_reverse_requestChars (listed : List Pinned) :
    ((requestChars listed).reverse.dropWhile Text.isBlank).reverse =
      requestChars (trimLast listed) := by
  rcases List.eq_nil_or_concat listed with rfl | ⟨init, p, rfl⟩
  · rfl
  · have joined (text : List Char) : Text.join ['|', '|'] (init.map chars ++ [text]) =
        (init.map chars).flatMap (· ++ ['|', '|']) ++ text := Text.join_append_cons _ _ text []
    generalize (init.map chars).flatMap (· ++ ['|', '|']) = front at joined
    obtain ⟨core, c, eq⟩ := (List.eq_nil_or_concat p.core).resolve_left p.core_ne_nil
    rw [List.concat_eq_append] at eq
    have unblank := not_isBlank_of_mem_core (p := p) c (by simp [eq])
    have blank : ∀ c ∈ p.after.reverse, Text.isBlank c = true := by
      simpa using p.blank_after
    have untrimmed : requestChars (init ++ [p]) = front ++ p.before ++ p.core ++ p.after := by
      rw [requestChars, List.map_append, List.map_singleton, joined, chars]
      simp
    have trimmed : requestChars (trimLast (init ++ [p])) = front ++ p.before ++ p.core := by
      rw [trimLast_concat, trimLast, requestChars, List.map_append, List.map_singleton, joined]
      simp [chars, Pinned.core]
    rw [List.concat_eq_append, untrimmed, trimmed, eq, List.reverse_append,
      List.dropWhile_append_of_pos blank]
    simp [unblank]

/-- Without blanks around it a request lists the same versions. -/
theorem trim_request (listed : List Pinned) :
    Text.trim (request listed) = request (trimLast (trimFirst listed)) := by
  rw [Text.trim, Text.trimChars, request, String.toList_ofList, dropWhile_requestChars,
    dropWhile_reverse_requestChars, request]

theorem trimmed_ne_nil (h : listed ≠ []) : trimLast (trimFirst listed) ≠ [] := by
  have same := (map_version_trimLast (trimFirst listed)).trans (map_version_trimFirst listed)
  intro empty
  rw [empty, List.map_nil, eq_comm, List.map_eq_nil_iff] at same
  exact h same

theorem requestedText_request (h : listed ≠ []) :
    requestedText (request listed) = Text.trim (request listed) := by
  rw [requestedText]
  apply if_neg
  intro special
  rw [trim_request] at special
  obtain ⟨p, rest, eq⟩ := List.exists_cons_of_ne_nil (trimmed_ne_nil h)
  obtain ⟨c, text, found, digit⟩ := p.exists_digit
  -- None of the texts that stand for the latest version has a digit.
  have mem : c ∈ (request (trimLast (trimFirst listed))).toList := by
    rw [request, String.toList_ofList, eq]
    cases rest <;> simp [requestChars, Text.join, chars, core, found]
  rcases special with special | special | special <;> rw [special] at mem
  · simp at mem
  · obtain rfl : c = '*' := by simpa using mem
    simp at digit
  · obtain rfl : c = 'x' := by simpa using mem
    simp at digit

/-- The text that a request is compared with literally. -/
def literal (request : String) : String :=
  String.ofList ((Text.trim request).toList.dropWhile fun c => c == 'v' || c == '=')

theorem literal_single (p : Pinned) : literal (request [p]) = String.ofList p.text := by
  have trimmed : (Text.trim (request [p])).toList = p.core := by
    rw [trim_request, request, String.toList_ofList]
    simp [trimFirst, trimLast, requestChars, Text.join, chars, core]
  rw [literal, trimmed, dropWhile_core rfl fun c digit => ?_]
  rw [Bool.or_eq_false_iff, beq_eq_false_iff_ne, beq_eq_false_iff_ne]
  constructor <;>
  · rintro rfl
    simp at digit

theorem bar_mem_requestChars (several : 1 < listed.length) : '|' ∈ requestChars listed := by
  match listed with
  | [] | [_] => simp at several
  | p :: q :: rest => simp [requestChars, Text.join]

/-- Several versions together are not the text of a version. -/
theorem literal_several (several : 1 < listed.length) {v : Version} :
    Version.parse? (literal (request listed)).toList ≠ some v := by
  intro parsed
  have lengths := congrArg List.length
    ((map_version_trimLast (trimFirst listed)).trans (map_version_trimFirst listed))
  rw [List.length_map, List.length_map] at lengths
  have bar : '|' ∈ requestChars (trimLast (trimFirst listed)) :=
    bar_mem_requestChars (lengths ▸ several)
  -- The bar is not among the characters that are dropped in front.
  rw [literal, trim_request, request, String.toList_ofList, String.toList_ofList] at parsed
  rw [← List.takeWhile_append_dropWhile (p := fun c => c == 'v' || c == '=')
    (l := requestChars (trimLast (trimFirst listed))), List.mem_append] at bar
  rcases bar with bar | bar
  · exact absurd (List.all_eq_true.mp List.all_takeWhile _ bar) (by decide)
  · exact Version.ne_bar_of_isVersionChar (Version.isVersionChar_of_parse? parsed _ bar) rfl

/-- A published text is the version and it is compatible with a listed version. -/
def Meets (listed : List Pinned) (published : List String) (raw : String) (v : Version) : Prop :=
  raw ∈ published ∧ Version.parse? raw.toList = some v ∧
    ∃ p ∈ listed, Version.Compatible p.version v

theorem admitted_iff {raw : String} {v : Version} :
    Admitted (listed.map fun p => ⟨[Comparator.compatibleWith p.version]⟩) published raw v ↔
      Meets listed published raw v := by
  simp only [Admitted, Meets, List.mem_map]
  refine and_congr_right fun _ => and_congr_right fun _ => ⟨?_, ?_⟩
  · rintro ⟨_, ⟨p, mem, rfl⟩, admits⟩
    exact ⟨p, mem, Version.admits_compatibleWith.mp admits⟩
  · rintro ⟨p, mem, compatible⟩
    exact ⟨_, ⟨p, mem, rfl⟩, Version.admits_compatibleWith.mpr compatible⟩

/-- A listing request means its literal text if that is published, and otherwise the greatest
published version that is compatible with a listed one. -/
theorem resolveVersion?_request (published : List String) (h : listed ≠ [])
    (untagged : tags.get? (Text.trim (request listed)) = none) :
    resolveVersion? (request listed) tags published =
      if literal (request listed) ∈ published then some (literal (request listed))
      else greatestAdmitted?
        (listed.map fun p => ⟨[Comparator.compatibleWith p.version]⟩) published := by
  have parsed : Range.parse? (Text.trim (request listed)).toList =
      some (listed.map fun p => ⟨[Comparator.compatibleWith p.version]⟩) := by
    have same := (map_version_trimLast (trimFirst listed)).trans (map_version_trimFirst listed)
    have requirements := congrArg
      (List.map fun v => Requirement.mk [Comparator.compatibleWith v]) same
    rw [List.map_map, List.map_map] at requirements
    rw [trim_request, request, String.toList_ofList, parse?_requestChars (trimmed_ne_nil h)]
    exact congrArg some requirements
  rw [resolveVersion?, requestedText_request h]
  simp only [untagged, parsed]
  rfl

/-- The literal text of a request is that of a listed version if it lists no other one. -/
theorem literal_listed_iff :
    (∃ p ∈ listed, Version.parse? (literal (request listed)).toList = some p.version) ↔
      listed.length = 1 := by
  constructor
  · rintro ⟨p, mem, parsed⟩
    have least := List.length_pos_of_mem mem
    have most : ¬1 < listed.length := fun several => literal_several several parsed
    omega
  · intro single
    obtain ⟨p, rfl⟩ := List.length_eq_one_iff.mp single
    refine ⟨p, List.mem_singleton.mpr rfl, ?_⟩
    rw [literal_single, String.toList_ofList, p.reads]

/-- The greatest compatible version is a listed one when no compatible version is greater than all
listed versions that are published. -/
theorem greatest_listed_iff (listed : List Pinned) (published : List String) :
    (∀ raw, greatestAdmitted?
          (listed.map fun p => ⟨[Comparator.compatibleWith p.version]⟩) published = some raw →
        ∃ p ∈ listed, Version.parse? raw.toList = some p.version) ↔
      ∀ raw v, Meets listed published raw v →
        ∃ p ∈ listed, ∃ raw' ∈ published, Version.parse? raw'.toList = some p.version ∧
          (v.cmp p.version).isLE = true := by
  constructor
  · intro only raw v meets
    obtain ⟨raw', found⟩ := Option.ne_none_iff_exists'.mp fun none =>
      greatestAdmitted?_eq_none.mp none raw v (admitted_iff.mpr meets)
    obtain ⟨w, admitted, greatest⟩ := greatestAdmitted?_eq_some found
    obtain ⟨p, mem, parsed⟩ := only raw' found
    obtain rfl : w = p.version := Option.some.inj (admitted.2.1.symm.trans parsed)
    exact ⟨p, mem, raw', admitted.1, parsed, greatest raw v (admitted_iff.mpr meets)⟩
  · intro covered raw found
    obtain ⟨v, admitted, greatest⟩ := greatestAdmitted?_eq_some found
    obtain ⟨p, mem, raw', mem', parsed, le⟩ := covered raw v (admitted_iff.mp admitted)
    have meets : Meets listed published raw' p.version :=
      ⟨mem', parsed, p, mem, Version.Compatible.refl p.version⟩
    have ge := greatest raw' p.version (admitted_iff.mpr meets)
    -- The order is total, so the listed version that is not smaller is the one found.
    obtain rfl : v = p.version := Version.eq_of_isLE_cmp le ge
    exact ⟨p, mem, admitted.2.1⟩

/-- When a request that lists versions resolves to a listed version or not at all: it lists one
version and that is published literally, or it is not published literally and no published version
that is compatible with a listed one is greater than all listed versions that are published. And it
resolves to nothing exactly when neither its literal text nor anything compatible is published. -/
theorem resolves_to_listed_iff (listed : List Pinned) (some_version : listed ≠ [])
    (tags : NameMap String) (published : List String)
    (untagged : tags.get? (Text.trim (request listed)) = none) :
    ((∀ raw, resolveVersion? (request listed) tags published = some raw →
        ∃ p ∈ listed, Version.parse? raw.toList = some p.version) ↔
      (literal (request listed) ∈ published → listed.length = 1) ∧
      (literal (request listed) ∉ published → ∀ raw v, Meets listed published raw v →
        ∃ p ∈ listed, ∃ raw' ∈ published, Version.parse? raw'.toList = some p.version ∧
          (v.cmp p.version).isLE = true)) ∧
    (resolveVersion? (request listed) tags published = none ↔
      literal (request listed) ∉ published ∧ ∀ raw v, ¬Meets listed published raw v) := by
  have resolved := resolveVersion?_request published some_version untagged
  by_cases literally : literal (request listed) ∈ published
  · have only : (∀ raw, some (literal (request listed)) = some raw →
        ∃ p ∈ listed, Version.parse? raw.toList = some p.version) ↔ listed.length = 1 := by
      simp only [Option.some.injEq, forall_eq', literal_listed_iff]
    rw [resolved, if_pos literally, only]
    simp [literally]
  · rw [resolved, if_neg literally, greatest_listed_iff, greatestAdmitted?_eq_none]
    simp [admitted_iff, literally]

/-- Version 1.2.3 as a request by itself. -/
def sample : Pinned where
  before := []
  marked := false
  text := "1.2.3".toList
  after := []
  version := ⟨1, 2, 3, [], []⟩
  reads := by decide
  unbuilt := rfl
  blank_before := by simp
  blank_after := by simp

/-- A published version is not replaced by a greater one. -/
theorem resolves_to_listed_sample :
    (NameMap.ofList [("latest", "1.9.0")]).get? (Text.trim (request [sample])) = none ∧
      ∀ raw, resolveVersion? (request [sample]) (.ofList [("latest", "1.9.0")])
          ["1.2.3", "1.9.0"] = some raw →
        ∃ p ∈ [sample], Version.parse? raw.toList = some p.version := by
  have untagged :
      (NameMap.ofList [("latest", "1.9.0")]).get? (Text.trim (request [sample])) = none := by
    decide
  have literally : literal (request [sample]) ∈ ["1.2.3", "1.9.0"] := by decide
  refine ⟨untagged, (resolves_to_listed_iff [sample] (by simp) _ _ untagged).1.mpr ?_⟩
  exact ⟨fun _ => rfl, fun h => absurd literally h⟩

/-- A version that is not published is replaced by a greater one that the request does not list. -/
theorem sample_replaced :
    request [sample] = "1.2.3" ∧
      (NameMap.ofList [("latest", "1.9.0")]).get? (Text.trim (request [sample])) = none ∧
      resolveVersion? (request [sample]) (.ofList [("latest", "1.9.0")]) ["1.9.0"] =
        some "1.9.0" ∧
      ∀ p ∈ [sample], Version.parse? "1.9.0".toList ≠ some p.version := by
  decide

end Pinned

end PackageRisk
