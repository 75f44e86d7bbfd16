import Mathlib.Data.List.Induction
import PackageRisk.Proofs.NameMap
import PackageRisk.Proofs.Version.Pinned
import PackageRisk.Registry.Service

/-!
# What a request resolves to

A request means its tag, its literal text or the greatest version of its range, in this order, and
nothing else. A version has one written form, so two different published texts are never equal as
versions and a range has at most one greatest one. Hence the order in which versions are published
does not matter, nor does it matter how often, and whatever a request resolves to is published.
-/

namespace PackageRisk

namespace Text

/-- The parts between separators, joined with the separator again. -/
theorem join_splitAt (separator : Char) (s : List Char) :
    join [separator] (splitAt (· == separator) s) = s := by
  induction s with
  | nil => rfl
  | cons c s ih =>
    obtain ⟨part, parts, split⟩ := List.exists_cons_of_ne_nil (splitAt_ne_nil (· == separator) s)
    rw [split] at ih
    by_cases same : c = separator
    · simp [splitAt, split, same, join, ih]
    · cases parts with
      | nil => simpa [splitAt, split, same, join] using ih
      | cons next parts => simpa [splitAt, split, same, join] using ih

end Text

/-! ## The written form of a version -/

namespace Version

variable {s rest : List Char} {n : Nat} {v : Version}

theorem toNat_of_isDigit {c : Char} (h : c.isDigit = true) : 48 ≤ c.toNat ∧ c.toNat ≤ 57 := by
  simpa [Char.isDigit, UInt32.le_iff_toNat_le] using h

theorem digitChar_of_isDigit {c : Char} (h : c.isDigit = true) :
    Nat.digitChar (c.toNat - 48) = c := by
  have range := toNat_of_isDigit h
  apply Char.toNat_inj.mp
  rw [Nat.toNat_digitChar_of_lt_ten (by omega)]
  omega

/-- Digits without zeros before other digits are the way in which their value is written. -/
theorem toDigits_decimalValue {digits : List Char} (some_digit : digits ≠ [])
    (all : ∀ c ∈ digits, c.isDigit = true)
    (unpadded : digits.length = 1 ∨ digits.head? ≠ some '0') :
    Nat.toDigits 10 (Text.decimalValue digits) = digits := by
  induction digits using List.reverseRecOn with
  | nil => exact absurd rfl some_digit
  | append_singleton front c ih =>
    have last : c.isDigit = true := all c (by simp)
    have small : c.toNat - 48 < 10 := by
      have range := toNat_of_isDigit last
      omega
    rw [Text.decimalValue_concat]
    by_cases empty : front = []
    · simp [empty, Nat.toDigits_of_lt_base small, digitChar_of_isDigit last]
    · have nonzero : front.head? ≠ some '0' := by
        rcases unpadded with single | nonzero
        · simp [empty] at single
        · rw [List.head?_append, Option.or_of_isSome (by simpa using empty)] at nonzero
          exact nonzero
      have written := ih empty (fun d hd => all d (by simp [hd])) (.inr nonzero)
      -- The digits before the last one do not denote zero, which is written as a single zero.
      have positive : 0 < Text.decimalValue front := by
        apply Nat.pos_of_ne_zero
        intro zero
        rw [zero, Nat.toDigits_zero] at written
        exact nonzero (written ▸ rfl)
      have append := Nat.toDigits_append_toDigits (b := 10) (by decide) positive small
      rw [written, Nat.toDigits_of_lt_base small, digitChar_of_isDigit last] at append
      rw [Nat.mul_comm, append]

/-- A number is read off the digits that it is written with. -/
theorem eq_toDigits_of_versionNumber? (h : versionNumber? s = some (n, rest)) :
    s = Nat.toDigits 10 n ++ rest := by
  simp only [versionNumber?] at h
  split at h
  · simp at h
  · rename_i some_digit
    split at h
    · simp at h
    · rename_i padded
      split at h
      · simp at h
      · obtain ⟨rfl, rfl⟩ := Prod.mk.inj (Option.some.inj h)
        have unpadded := Decidable.not_and_iff_or_not.mp padded
        rw [toDigits_decimalValue (by simpa using some_digit)
            (fun c hc => List.all_eq_true.mp List.all_takeWhile c hc)
            (unpadded.imp_left Decidable.not_not.mp),
          List.takeWhile_append_dropWhile]

/-- Identifiers after their mark; nothing if there are none. -/
def markedText (mark : Char) (parts : List (List Char)) : List Char :=
  if parts = [] then [] else mark :: Text.join ['.'] parts

theorem eq_markedText_of_markedIdentifiers? {mark : Char} {leadingZeros : Bool}
    {parts : List (List Char)} (h : markedIdentifiers? mark leadingZeros s = some (parts, rest)) :
    s = markedText mark parts ++ rest := by
  cases s with
  | nil =>
    obtain ⟨rfl, rfl⟩ := Prod.mk.inj (Option.some.inj h)
    rfl
  | cons c s =>
    simp only [markedIdentifiers?] at h
    split at h
    · rename_i marked
      simp only [identifiers?] at h
      split at h
      · simp at h
      · split at h
        · simp at h
        · obtain ⟨rfl, rfl⟩ := Prod.mk.inj (Option.some.inj h)
          rw [markedText, if_neg (Text.splitAt_ne_nil _ _), Text.join_splitAt, marked,
            List.cons_append, List.takeWhile_append_dropWhile]
    · obtain ⟨rfl, rfl⟩ := Prod.mk.inj (Option.some.inj h)
      rfl

/-- The written form of a version. -/
def chars (v : Version) : List Char :=
  Nat.toDigits 10 v.major ++ '.' :: (Nat.toDigits 10 v.minor ++ '.' :: (Nat.toDigits 10 v.patch ++
    (markedText '-' v.pre ++ markedText '+' v.build)))

/-- A version is read off one text only. -/
theorem eq_chars_of_parse? (h : parse? s = some v) : s = v.chars := by
  obtain ⟨s₁, s₂, s₃, s₄, major?, minor?, patch?, pre?, build?⟩ := parse?_eq_some h
  calc
    s = Nat.toDigits 10 v.major ++ '.' :: s₁ := eq_toDigits_of_versionNumber? major?
    _ = v.chars := by
      rw [eq_toDigits_of_versionNumber? minor?, eq_toDigits_of_versionNumber? patch?,
        eq_markedText_of_markedIdentifiers? pre?, eq_markedText_of_markedIdentifiers? build?,
        List.append_nil]
      rfl

end Version

/-! ## The greatest version that is admitted -/

section Greatest

variable {alternatives : List Requirement} {published others : List String} {raw raw' : String}
  {v w : Version}

/-- A published text that one of the requirements admits, its version being greater than that of
every other such text. -/
def Greatest (alternatives : List Requirement) (published : List String) (raw : String) : Prop :=
  ∃ v, Admitted alternatives published raw v ∧
    ∀ raw' w, Admitted alternatives published raw' w → raw' ≠ raw → w.cmp v = .lt

theorem Admitted.eq_of_version_eq (h : Admitted alternatives published raw v)
    (h' : Admitted alternatives published raw' v) : raw = raw' := by
  have written := Version.eq_chars_of_parse? h.2.1
  have written' := Version.eq_chars_of_parse? h'.2.1
  exact String.toList_injective (written.trans written'.symm)

theorem Greatest.unique (h : Greatest alternatives published raw)
    (h' : Greatest alternatives published raw') : raw = raw' := by
  obtain ⟨v, admitted, greatest⟩ := h
  obtain ⟨v', admitted', greatest'⟩ := h'
  by_contra other
  have less := greatest raw' v' admitted' (Ne.symm other)
  have greater := greatest' raw v admitted other
  rw [Version.cmp_swap, less] at greater
  cases greater

theorem greatestAdmitted?_eq_some_iff :
    greatestAdmitted? alternatives published = some raw ↔
      Greatest alternatives published raw := by
  have greatest_of_found {raw : String}
      (found : greatestAdmitted? alternatives published = some raw) :
      Greatest alternatives published raw := by
    obtain ⟨v, admitted, greatest⟩ := greatestAdmitted?_eq_some found
    refine ⟨v, admitted, fun raw' w admitted' other => ?_⟩
    have le := greatest raw' w admitted'
    cases order : w.cmp v with
    | lt => rfl
    | gt => simp [order] at le
    | eq =>
      obtain rfl : w = v := Std.LawfulEqCmp.eq_of_compare order
      exact absurd (admitted'.eq_of_version_eq admitted) other
  constructor
  · exact greatest_of_found
  · intro greatest
    obtain ⟨v, admitted, -⟩ := id greatest
    obtain ⟨raw', found⟩ := Option.ne_none_iff_exists'.mp fun none =>
      greatestAdmitted?_eq_none.mp none raw v admitted
    rw [found, (greatest_of_found found).unique greatest]

theorem admitted_congr (same : ∀ raw, raw ∈ published ↔ raw ∈ others) :
    Admitted alternatives published raw v ↔ Admitted alternatives others raw v :=
  and_congr_left' (same raw)

/-- Which version is the greatest does not depend on the order or number of the published texts. -/
theorem greatestAdmitted?_congr (same : ∀ raw, raw ∈ published ↔ raw ∈ others) :
    greatestAdmitted? alternatives published = greatestAdmitted? alternatives others := by
  apply Option.ext
  intro raw
  simp only [greatestAdmitted?_eq_some_iff, Greatest, admitted_congr same]

end Greatest

/-! ## Requests -/

/-- The text of a request without letters v and equals signs in front. -/
def literalText (request : String) : String :=
  String.ofList ((requestedText request).toList.dropWhile fun c => c == 'v' || c == '=')

/-- What a request comes to among some published versions: the version of its tag, its literal
text, or the greatest version that its range admits. -/
structure ComesTo (request : String) (tags : NameMap String) (published : List String)
    (result : Option String) : Prop where
  tagged : ∀ tag, tags.get? (requestedText request) = some tag →
    result = if tag ∈ published then some tag else none
  literal : tags.get? (requestedText request) = none → literalText request ∈ published →
    result = some (literalText request)
  range : tags.get? (requestedText request) = none → literalText request ∉ published →
    ∀ raw, result = some raw ↔ ∃ alternatives,
      Range.parse? (requestedText request).toList = some alternatives ∧
        Greatest alternatives published raw
  nothing : tags.get? (requestedText request) = none → literalText request ∉ published →
    (result = none ↔ ∀ alternatives,
      Range.parse? (requestedText request).toList = some alternatives →
        ∀ raw v, ¬Admitted alternatives published raw v)

section Requests

variable {request : String} {tags : NameMap String} {published others : List String}

/-- A request without a tag is a literal text before it is a range. -/
theorem resolveVersion?_of_untagged (published : List String)
    (untagged : tags.get? (requestedText request) = none) :
    resolveVersion? request tags published =
      if literalText request ∈ published then some (literalText request)
      else (Range.parse? (requestedText request).toList).bind (greatestAdmitted? · published) := by
  simp only [resolveVersion?, untagged, literalText]
  cases Range.parse? (requestedText request).toList <;> rfl

theorem resolveVersion?_comesTo (request : String) (tags : NameMap String)
    (published : List String) :
    ComesTo request tags published (resolveVersion? request tags published) where
  tagged tag tagged := by simp only [resolveVersion?, tagged]
  literal untagged listed := by rw [resolveVersion?_of_untagged _ untagged, if_pos listed]
  range untagged unlisted raw := by
    rw [resolveVersion?_of_untagged _ untagged, if_neg unlisted, Option.bind_eq_some_iff]
    simp only [greatestAdmitted?_eq_some_iff]
  nothing untagged unlisted := by
    rw [resolveVersion?_of_untagged _ untagged, if_neg unlisted, Option.bind_eq_none_iff]
    simp only [greatestAdmitted?_eq_none]

/-- What a request comes to is published. -/
theorem ComesTo.mem_published {result : Option String}
    (h : ComesTo request tags published result) {raw : String} (found : result = some raw) :
    raw ∈ published := by
  cases tag : tags.get? (requestedText request) with
  | some tagged =>
    have result := found.symm.trans (h.tagged tagged tag)
    split at result
    · rename_i listed
      rwa [Option.some.inj result]
    · cases result
  | none =>
    by_cases listed : literalText request ∈ published
    · rwa [Option.some.inj (found.symm.trans (h.literal tag listed))]
    · obtain ⟨alternatives, -, v, admitted, -⟩ := (h.range tag listed raw).mp found
      exact admitted.1

theorem resolveVersion?_congr (same : ∀ raw, raw ∈ published ↔ raw ∈ others) :
    resolveVersion? request tags published = resolveVersion? request tags others := by
  have greatest (alternatives : List Requirement) :
      greatestAdmitted? alternatives published = greatestAdmitted? alternatives others :=
    greatestAdmitted?_congr same
  simp only [resolveVersion?, same, greatest]

end Requests

/-! ## Releases -/

namespace RegistryService

variable {package request resolved : String} {document : PackageDocument} {release : Release}

/-- A version that a request resolves to is one of the document. -/
theorem exists_record
    (found : resolveVersion? request document.tags document.versions.names = some resolved) :
    ∃ record, document.versions.get? resolved = some record :=
  NameMap.mem_names_iff.mp ((resolveVersion?_comesTo _ _ _).mem_published found)

theorem releaseOf_eq_ok (h : releaseOf package request document = .ok release) :
    resolveVersion? request document.tags document.versions.names = some release.version := by
  unfold releaseOf at h
  split at h
  · cases h
  · split at h
    · cases h
    · rename_i resolved found
      split at h
      · cases h
      · cases h
        exact found

theorem fetchRelease_eq_ok {service : RegistryService} {network : Network}
    (h : service.fetchRelease network package request = .ok release) :
    ∃ url response document,
      exchange network (service.address (encodeName package)) none = .ok (url, response) ∧
        response.decode "npm registry" PackageDocument.read? = .ok document ∧
          releaseOf package request document = .ok release := by
  unfold fetchRelease at h
  split at h
  · cases h
  · rename_i url response answered
    split at h
    · cases h
    · split at h
      · cases h
      · split at h
        · cases h
        · rename_i document decoded
          exact ⟨url, response, document, answered, decoded, h⟩

end RegistryService

/-- A request resolves to the version of its tag, to its literal text or to the one greatest version
of its range, always to a published version, and the order and number of the published ones make no
difference. So a document has a record for every version that a request for it resolves to, and the
release that is fetched is a version of the document. -/
theorem resolution_determined (request : String) :
    (∀ tags published, ComesTo request tags published (resolveVersion? request tags published)) ∧
    (∀ tags published raw, resolveVersion? request tags published = some raw →
      raw ∈ published) ∧
    (∀ tags published others, (∀ raw, raw ∈ published ↔ raw ∈ others) →
      resolveVersion? request tags published = resolveVersion? request tags others) ∧
    (∀ (package latest resolved : String) (document : PackageDocument),
      document.tags.get? "latest" = some latest →
      resolveVersion? request document.tags document.versions.names = some resolved →
      ∃ record, document.versions.get? resolved = some record ∧
        RegistryService.releaseOf package request document =
          .ok (document.release package resolved latest record)) ∧
    ∀ (service : RegistryService) (network : Network) (package : String) (release : Release),
      service.fetchRelease network package request = .ok release →
      ∃ url response document,
        exchange network (service.address (encodeName package)) none = .ok (url, response) ∧
          response.decode "npm registry" PackageDocument.read? = .ok document ∧
            release.version ∈ document.versions.names := by
  refine ⟨resolveVersion?_comesTo request, ?_, ?_, ?_, ?_⟩
  · intro tags published raw found
    exact (resolveVersion?_comesTo request tags published).mem_published found
  · intro tags published others same
    exact resolveVersion?_congr same
  · intro package latest resolved document tagged found
    obtain ⟨record, listed⟩ := RegistryService.exists_record found
    refine ⟨record, listed, ?_⟩
    simp only [RegistryService.releaseOf, tagged, found, listed]
  · intro service network package release fetched
    obtain ⟨url, response, document, answered, decoded, released⟩ :=
      RegistryService.fetchRelease_eq_ok fetched
    have found := RegistryService.releaseOf_eq_ok released
    exact ⟨url, response, document, answered, decoded,
      (resolveVersion?_comesTo _ _ _).mem_published found⟩

end PackageRisk
