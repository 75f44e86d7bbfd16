import Mathlib.Data.List.Induction
import PackageRisk.Proofs.Web.Below
import PackageRisk.Proofs.Web.Percent
import PackageRisk.Registry.Service

/-!
# Names in addresses

Releases, publishers and download counts are looked up under names that come from elsewhere. In an
address a name has its at signs and slashes as escapes and everything else as it is, so whether the
address is that of the name depends on the characters that mean something in addresses.
-/

namespace PackageRisk

open Text Percent

variable {c : Char} {s t : List Char} {name other : String}

/-! ## The segment for a name -/

/-- A character of a name in an address. -/
def writeName (c : Char) : List Char :=
  if c = '@' then ['%', '4', '0'] else if c = '/' then ['%', '2', 'f'] else [c]

theorem toList_encodeName (name : String) :
    (encodeName name).toList = name.toList.flatMap writeName :=
  String.toList_ofList

theorem writeName_of_ne (at_sign : c ≠ '@') (slash : c ≠ '/') : writeName c = [c] := by
  rw [writeName, if_neg at_sign, if_neg slash]

theorem faithful_writeName : Faithful writeName where
  percent := rfl
  digit c n digit := by
    apply writeName_of_ne <;> (rintro rfl; cases digit)
  other c none := by
    by_cases at_sign : c = '@'
    · exact ⟨'%', ['4', '0'], by rw [at_sign]; rfl, by decide⟩
    · by_cases slash : c = '/'
      · exact ⟨'%', ['2', 'f'], by rw [slash]; rfl, by decide⟩
      · exact ⟨c, [], writeName_of_ne at_sign slash, none⟩
  decoded c rest other := by
    by_cases at_sign : c = '@'
    · rw [at_sign]
      exact decode_pair rfl
    · by_cases slash : c = '/'
      · rw [slash]
        exact decode_pair rfl
      · rw [writeName_of_ne at_sign slash]
        exact decode_cons_of_ne other

/-- What decoding makes of the segment for a name is what it makes of the name itself. -/
theorem decode_encodeName (name : String) :
    decode (encodeName name).toList = decode name.toList := by
  rw [toList_encodeName, faithful_writeName.decode_flatMap]

/-- The characters that the encoding of names brings in or takes away. -/
def isRewritten (c : Char) : Bool :=
  "@/%402f".toList.contains c

/-- Any other character is in the segment if it is in the name. -/
theorem mem_flatMap_writeName_iff (plain : isRewritten c = false) :
    c ∈ s.flatMap writeName ↔ c ∈ s := by
  obtain ⟨at_sign, slash, escaped⟩ : c ≠ '@' ∧ c ≠ '/' ∧ c ∉ ['%', '4', '0', '2', 'f'] := by
    simpa [isRewritten] using plain
  have from_at_sign : ['%', '4', '0'] ⊆ ['%', '4', '0', '2', 'f'] := by simp
  have from_slash : ['%', '2', 'f'] ⊆ ['%', '4', '0', '2', 'f'] := by simp
  rw [List.mem_flatMap]
  constructor
  · rintro ⟨d, mem, written⟩
    rw [writeName] at written
    split at written
    · exact absurd (from_at_sign written) escaped
    · split at written
      · exact absurd (from_slash written) escaped
      · rwa [List.mem_singleton.mp written]
  · intro mem
    exact ⟨c, mem, writeName_of_ne at_sign slash ▸ List.mem_singleton_self c⟩

theorem slash_not_mem_flatMap_writeName (s : List Char) : '/' ∉ s.flatMap writeName := by
  intro mem
  obtain ⟨d, -, written⟩ := List.mem_flatMap.mp mem
  rw [writeName] at written
  split at written
  · simp at written
  · split at written
    · simp at written
    · rename_i slash
      exact slash (List.mem_singleton.mp written).symm

/-- The encoding of a name leaves the end of an address as it would be without it. -/
theorem exists_writeName_concat (c : Char) : ∃ l d, writeName c = l ++ [d] ∧
    Url.isControlOrSpace d = Url.isControlOrSpace c := by
  by_cases at_sign : c = '@'
  · exact ⟨['%', '4'], '0', by rw [at_sign]; rfl, by rw [at_sign]; rfl⟩
  · by_cases slash : c = '/'
    · exact ⟨['%', '2'], 'f', by rw [slash]; rfl, by rw [slash]; rfl⟩
    · exact ⟨[], c, writeName_of_ne at_sign slash, rfl⟩

theorem writeName_of_isControlOrSpace (control : Url.isControlOrSpace c = true) :
    writeName c = [c] := by
  apply writeName_of_ne <;> (rintro rfl; exact absurd control (by decide))

theorem dropTrailing_flatMap_writeName (s : List Char) :
    dropTrailing Url.isControlOrSpace (s.flatMap writeName) =
      (dropTrailing Url.isControlOrSpace s).flatMap writeName := by
  induction s using List.reverseRecOn with
  | nil => rfl
  | append_singleton s c ih =>
    rw [List.flatMap_append, List.flatMap_singleton, dropTrailing_concat]
    cases control : Url.isControlOrSpace c with
    | true =>
      rw [writeName_of_isControlOrSpace control, dropTrailing_concat, if_pos control, ih,
        if_pos rfl]
    | false =>
      obtain ⟨l, d, written, same⟩ := exists_writeName_concat c
      rw [written, ← List.append_assoc, dropTrailing_concat, same, control]
      simp [written]

theorem filter_flatMap_writeName (s : List Char) :
    (s.flatMap writeName).filter Url.isKept = (s.filter Url.isKept).flatMap writeName := by
  induction s with
  | nil => rfl
  | cons c s ih =>
    have single : (writeName c).filter Url.isKept = if Url.isKept c then writeName c else [] := by
      by_cases at_sign : c = '@'
      · rw [at_sign]
        rfl
      · by_cases slash : c = '/'
        · rw [slash]
          rfl
        · rw [writeName_of_ne at_sign slash, List.filter_cons, List.filter_nil]
    rw [List.flatMap_cons, List.filter_append, single, ih, List.filter_cons]
    split <;> rfl

/-- Reading an address drops the same characters from the segment as from the name. -/
theorem clean_flatMap_writeName (s : List Char) :
    Url.clean (s.flatMap writeName) = (Url.clean s).flatMap writeName := by
  rw [Url.clean, dropTrailing_flatMap_writeName, filter_flatMap_writeName]
  rfl

theorem clean_sublist (s : List Char) : (Url.clean s).Sublist s := by
  refine List.filter_sublist.trans ?_
  have back := (List.dropWhile_sublist Url.isControlOrSpace (l := s.reverse)).reverse
  rwa [List.reverse_reverse] at back

theorem clean_eq_self_iff : Url.clean s = s ↔
    (∀ c ∈ s, Url.isKept c = true) ∧ ∀ c ∈ s.getLast?, Url.isControlOrSpace c = false := by
  constructor
  · intro same
    have kept : ∀ c ∈ s, Url.isKept c = true := by
      intro c mem
      rw [← same] at mem
      exact (List.mem_filter.mp mem).2
    refine ⟨kept, fun c last => ?_⟩
    obtain ⟨front, rfl⟩ := List.getLast?_eq_some_iff.mp last
    apply Bool.eq_false_iff.mpr
    intro control
    -- The last character would be missing.
    rw [Url.clean, dropTrailing_concat, if_pos control] at same
    have short := (clean_sublist front).length_le
    rw [Url.clean, same, List.length_append, List.length_singleton] at short
    omega
  · rintro ⟨kept, ending⟩
    have whole : dropTrailing Url.isControlOrSpace s = s := by
      cases s using List.reverseRecOn with
      | nil => rfl
      | append_singleton front c =>
        rw [dropTrailing_concat, ending c (by simp)]
        rfl
    rw [Url.clean, whole, List.filter_eq_self.mpr kept]

/-! ## What an address says -/

/-- The last segment of an address stands for a text, and nothing follows it. -/
def Url.Names (u : Url) (text : List Char) : Prop :=
  u.query = none ∧ u.fragment = none ∧ decode u.lastSegment = bytes text

/-- A name that survives in an address: none of its percent signs begins an escape, it has no
character that cuts an address or is dropped from it, and its end is not trimmed. -/
structure Legible (s : List Char) : Prop where
  unescaped : ¬ HasEscape s
  uncut : '?' ∉ s ∧ '#' ∉ s ∧ '\\' ∉ s
  unbroken : '\t' ∉ s ∧ '\n' ∉ s ∧ '\r' ∉ s
  ending : ∀ c ∈ s.getLast?, 32 < c.toNat

theorem legible_iff : Legible s ↔
    ¬ HasEscape s ∧ ('?' ∉ s ∧ '#' ∉ s ∧ '\\' ∉ s) ∧ Url.clean s = s := by
  have kept : (∀ c ∈ s, Url.isKept c = true) ↔ '\t' ∉ s ∧ '\n' ∉ s ∧ '\r' ∉ s := by
    simp only [Url.isKept, Bool.and_eq_true, bne_iff_ne, forall_and, List.forall_mem_ne',
      and_assoc, ne_eq]
  have ending : (∀ c ∈ s.getLast?, Url.isControlOrSpace c = false) ↔
      ∀ c ∈ s.getLast?, 32 < c.toNat := by
    simp only [Url.isControlOrSpace, decide_eq_false_iff_not, Nat.not_le]
  rw [clean_eq_self_iff, kept, ending]
  exact ⟨fun h => ⟨h.unescaped, h.uncut, h.unbroken, h.ending⟩,
    fun ⟨unescaped, uncut, unbroken, ending⟩ => ⟨unescaped, uncut, unbroken, ending⟩⟩

/-- A text that leads names in addresses, of which the last segment is a part. -/
structure Leads (u lead : List Char) : Prop where
  clean : ∀ v, Url.clean (u ++ v) = u ++ Url.clean v
  uncut : '?' ∉ u ∧ '#' ∉ u
  unescaped : '%' ∉ lead
  segment : ∀ v, (∀ c ∈ v, Url.isSlash c = false) → afterLast Url.isSlash (u ++ v) = lead ++ v

theorem Leads.nil : Leads [] [] where
  clean _ := rfl
  uncut := ⟨List.not_mem_nil, List.not_mem_nil⟩
  unescaped := List.not_mem_nil
  segment _ slashless := afterLast_eq_self slashless

theorem Leads.of_directory {directory lead : List Char}
    (visible : ∀ c ∈ directory ++ '/' :: lead,
      Url.isControlOrSpace c = false ∧ Url.isKept c = true ∧ c ≠ '?' ∧ c ≠ '#')
    (segment : ∀ c ∈ lead, Url.isSlash c = false ∧ c ≠ '%') :
    Leads (directory ++ '/' :: lead) lead where
  clean v := by
    rw [Url.clean, dropTrailing_append fun c mem => (visible c mem).1, List.filter_append,
      List.filter_eq_self.mpr fun c mem => (visible c mem).2.1]
    rfl
  uncut := ⟨fun mem => (visible _ mem).2.2.1 rfl, fun mem => (visible _ mem).2.2.2 rfl⟩
  unescaped mem := (segment _ mem).2 rfl
  segment v slashless := by
    rw [List.append_assoc, List.cons_append, afterLast_append_of_separates (by decide),
      afterLast_eq_self]
    exact List.forall_mem_append.mpr ⟨fun c mem => (segment c mem).1, slashless⟩

variable {base u lead : List Char} {root url : Url}

theorem length_decode_settled_le (s : List Char) :
    (decode (Url.settled s)).length ≤ (decode s).length := by
  rw [Url.settled]
  split
  · exact Nat.zero_le _
  · exact Nat.le_refl _

theorem slashless_flatMap_writeName (none : '\\' ∉ s) :
    ∀ c ∈ s.flatMap writeName, Url.isSlash c = false := by
  intro c mem
  have slash : c ≠ '/' := ne_of_mem_of_not_mem mem (slash_not_mem_flatMap_writeName s)
  have backslash : c ≠ '\\' := by
    rintro rfl
    exact none ((mem_flatMap_writeName_iff (by decide)).mp mem)
  simp [Url.isSlash, slash, backslash]

/-- An address that was made of a leading text and a name: it has neither query nor fragment where
what is left of the name begins none, and then its last segment is what follows the last slash. -/
structure Url.Shows (url : Url) (u s : List Char) : Prop where
  whole : url.query = none ∧ url.fragment = none ↔ '?' ∉ Url.clean s ∧ '#' ∉ Url.clean s
  last : '?' ∉ Url.clean s → '#' ∉ Url.clean s → decode url.lastSegment =
    decode (Url.settled (afterLast Url.isSlash (u ++ (Url.clean s).flatMap writeName)))

/-- Below a root the name of which an address is made is shown by it. -/
theorem Url.IsRoot.exists_shows (h : Url.IsRoot base root) (leads : Leads u lead)
    (s : List Char) :
    ∃ url, Url.parse (String.ofList (base ++ '/' :: (u ++ s.flatMap writeName))) = .ok url ∧
      url.Shows u s := by
  obtain ⟨url, parsed, last, fragment, query⟩ := h.exists_below (u ++ s.flatMap writeName)
  rw [leads.clean, clean_flatMap_writeName] at last fragment query
  have absent (d : Char) (plain : isRewritten d = false) (free : d ∉ u) :
      d ∉ u ++ (Url.clean s).flatMap writeName ↔ d ∉ Url.clean s := by
    rw [List.mem_append, mem_flatMap_writeName_iff plain, or_iff_right free]
  have fragment := fragment.trans (absent '#' (by decide) leads.uncut.2)
  have unfragmented (none : '#' ∉ Url.clean s) :
      Url.beforeFragment (u ++ (Url.clean s).flatMap writeName) =
        u ++ (Url.clean s).flatMap writeName :=
    beforeFirst_eq_self fun c mem => beq_eq_false_iff_ne.mpr
      (ne_of_mem_of_not_mem mem ((absent '#' (by decide) leads.uncut.2).mpr none))
  refine ⟨url, parsed, ?_, fun noQuery noFragment => ?_⟩
  · rw [fragment]
    refine and_congr_left fun noFragment => query.trans ?_
    rw [unfragmented noFragment, absent '?' (by decide) leads.uncut.1]
  · have path : Url.pathPart (u ++ (Url.clean s).flatMap writeName) =
        u ++ (Url.clean s).flatMap writeName := by
      rw [Url.pathPart, unfragmented noFragment]
      exact beforeFirst_eq_self fun c mem => beq_eq_false_iff_ne.mpr
        (ne_of_mem_of_not_mem mem ((absent '?' (by decide) leads.uncut.1).mpr noQuery))
    rw [last, decode_encodeWith_path, path]

/-- What is left of a name behind the last backslash is shorter than the name. -/
theorem length_decode_lt_of_backslash (mem : '\\' ∈ Url.clean s) :
    (decode (Url.settled (afterLast Url.isSlash (u ++ (Url.clean s).flatMap writeName)))).length <
      (bytes s).length := by
  obtain ⟨front, rest, split, none⟩ := exists_last mem
  have last : afterLast Url.isSlash (u ++ (Url.clean s).flatMap writeName) =
      rest.flatMap writeName := by
    have text : u ++ (Url.clean s).flatMap writeName =
        u ++ front.flatMap writeName ++ '\\' :: rest.flatMap writeName := by
      rw [split, List.flatMap_append, List.flatMap_cons]
      simp [writeName_of_ne]
    rw [text, afterLast_append_of_separates (by decide),
      afterLast_eq_self (slashless_flatMap_writeName none)]
  have shorter : (bytes rest).length < (bytes (Url.clean s)).length := by
    rw [split, bytes_append, bytes_cons]
    simp only [List.length_append]
    have := length_utf8EncodeChar_pos '\\'
    omega
  rw [last]
  calc (decode (Url.settled (rest.flatMap writeName))).length
      ≤ (decode (rest.flatMap writeName)).length := length_decode_settled_le _
    _ = (decode rest).length := by rw [faithful_writeName.decode_flatMap]
    _ ≤ (bytes rest).length := (length_decode rest).1
    _ < (bytes (Url.clean s)).length := shorter
    _ ≤ (bytes s).length := length_bytes_le (clean_sublist s)

theorem settled_of_decode {s : List Char} (named : decode s ≠ bytes ['.'])
    (parent : decode s ≠ bytes ['.', '.']) : Url.settled s = s := by
  rw [Url.settled, if_neg]
  rw [Bool.or_eq_true]
  rintro (dots | dot)
  · exact parent (decode_of_isDoubleDot dots)
  · exact named (decode_of_isSingleDot dot)

/-- A segment that stands for a directory says nothing but the empty name. -/
theorem settled_of_names
    (read : decode (Url.settled (lead ++ (Url.clean s).flatMap writeName)) = bytes (lead ++ s)) :
    Url.settled (lead ++ (Url.clean s).flatMap writeName) =
      lead ++ (Url.clean s).flatMap writeName := by
  rw [Url.settled] at read ⊢
  split at read
  · rename_i directory
    have empty : lead ++ s = [] := bytes_injective read.symm
    obtain ⟨rfl, rfl⟩ := List.append_eq_nil_iff.mp empty
    exact absurd directory (by decide)
  · rename_i other
    rw [if_neg other]

/-- A name of which enough is left to say it has no escape and is left as it is. -/
theorem kept_of_decode (read : decode (Url.clean s) = bytes s) :
    ¬ HasEscape s ∧ Url.clean s = s := by
  have less := length_bytes_le (clean_sublist s)
  have unescaped : ¬ HasEscape (Url.clean s) := by
    intro escape
    have shorter := (length_decode (Url.clean s)).2 escape
    rw [read] at shorter
    omega
  have kept : Url.clean s = s :=
    bytes_injective ((decode_of_not_hasEscape unescaped).symm.trans read)
  exact ⟨kept ▸ unescaped, kept⟩

theorem flatMap_writeName_of_dots (dots : ∀ c ∈ s, c = '.') : s.flatMap writeName = s := by
  induction s with
  | nil => rfl
  | cons c s ih =>
    obtain ⟨rfl, rest⟩ := List.forall_mem_cons.mp dots
    rw [List.flatMap_cons, ih rest]
    rfl

/-- A text of dots alone is no directory only if it does not look like one. -/
theorem ne_dots_of_settled {dots : List Char} (only : ∀ c ∈ dots, c = '.')
    (directory : Url.settled dots ≠ dots)
    (kept : Url.settled (lead ++ s.flatMap writeName) = lead ++ s.flatMap writeName) :
    lead ++ s ≠ dots := by
  rintro rfl
  rw [flatMap_writeName_of_dots fun c mem => only c (List.mem_append_right lead mem)] at kept
  exact directory kept

/-- Only a legible name can be read off an address, and no name for a directory. -/
theorem Url.Shows.legible (shows : url.Shows u s) (leads : Leads u lead)
    (names : url.Names (lead ++ s)) :
    Legible s ∧ lead ++ s ≠ ['.'] ∧ lead ++ s ≠ ['.', '.'] := by
  obtain ⟨noQuery, noFragment, read⟩ := names
  have uncut := shows.whole.mp ⟨noQuery, noFragment⟩
  rw [shows.last uncut.1 uncut.2] at read
  have backslash : '\\' ∉ Url.clean s := by
    intro mem
    have less := length_decode_lt_of_backslash (u := u) mem
    rw [read, bytes_append, List.length_append] at less
    omega
  rw [leads.segment _ (slashless_flatMap_writeName backslash)] at read
  have settled := settled_of_names read
  rw [settled, decode_append_of_not_mem leads.unescaped, faithful_writeName.decode_flatMap,
    bytes_append, List.append_right_inj] at read
  obtain ⟨unescaped, kept⟩ := kept_of_decode read
  rw [kept] at settled backslash uncut
  exact ⟨legible_iff.mpr ⟨unescaped, ⟨uncut.1, uncut.2, backslash⟩, kept⟩,
    ne_dots_of_settled (by simp) (by decide) settled,
    ne_dots_of_settled (by simp) (by decide) settled⟩

/-- A legible name is read off its address, unless it is one for a directory. -/
theorem Url.Shows.names (shows : url.Shows u s) (leads : Leads u lead) (legible : Legible s)
    (here : lead ++ s ≠ ['.']) (parent : lead ++ s ≠ ['.', '.']) : url.Names (lead ++ s) := by
  obtain ⟨unescaped, ⟨noQuery, noFragment, backslash⟩, kept⟩ := legible_iff.mp legible
  have read : decode (lead ++ s.flatMap writeName) = bytes (lead ++ s) := by
    rw [decode_append_of_not_mem leads.unescaped, faithful_writeName.decode_flatMap,
      decode_of_not_hasEscape unescaped, bytes_append]
  have last := shows.last (kept.symm ▸ noQuery) (kept.symm ▸ noFragment)
  obtain ⟨plain, whole⟩ := shows.whole.mpr (by rw [kept]; exact ⟨noQuery, noFragment⟩)
  refine ⟨plain, whole, ?_⟩
  rw [last, kept, leads.segment _ (slashless_flatMap_writeName backslash), settled_of_decode, read]
  · exact fun dot => here (bytes_injective (read.symm.trans dot))
  · exact fun dots => parent (bytes_injective (read.symm.trans dots))

end PackageRisk
