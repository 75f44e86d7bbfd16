import Mathlib.Data.List.DropRight
import Mathlib.Data.List.Induction
import Mathlib.Data.List.Nodup
import Mathlib.Data.List.TakeWhile
import PackageRisk.Settings.Overlay

/-!
# Lists of settings

A list of settings is built up layer by layer, each file adding its entries in their normal form
unless they are listed already. The inspector adds the finished list to the built-in entries once
more, by a procedure of its own. Both procedures keep the first of several equal entries, so the
list does not change any more.
-/

namespace List

variable {α : Type} [BEq α] [LawfulBEq α]

theorem eraseDups_concat (l : List α) (a : α) :
    (l ++ [a]).eraseDups = if a ∈ l then l.eraseDups else l.eraseDups ++ [a] := by
  by_cases mem : a ∈ l <;> simp [eraseDups_append, eraseDups_cons, removeAll, mem]

theorem nodup_eraseDups (l : List α) : l.eraseDups.Nodup := by
  induction l using reverseRecOn with
  | nil => simp
  | append_singleton l a ih =>
    rw [eraseDups_concat]
    split
    · exact ih
    · rename_i new
      rw [← concat_eq_append]
      exact ih.concat fun mem => new (mem_eraseDups.mp mem)

theorem eraseDups_of_nodup {l : List α} (distinct : l.Nodup) : l.eraseDups = l := by
  induction l using reverseRecOn with
  | nil => simp
  | append_singleton l a ih =>
    obtain ⟨distinct, -, new⟩ := nodup_append.mp distinct
    rw [eraseDups_concat, if_neg fun mem => new a mem a (mem_singleton_self a) rfl, ih distinct]

end List

namespace PackageRisk

namespace Text

/-- Only the letters from `A` to `Z` have another form in lower case. -/
theorem exists_letter {c : Char} (changes : c.toLower ≠ c) :
    ∃ n < 26, c = Char.ofNat (n + 65) := by
  unfold Char.toLower at changes
  split at changes
  · rename_i upper
    have range : 65 ≤ c.toNat ∧ c.toNat ≤ 90 := upper
    exact ⟨c.toNat - 65, by omega, by rw [Nat.sub_add_cancel range.1, Char.ofNat_toNat]⟩
  · exact absurd rfl changes

theorem toLower_toLower (c : Char) : c.toLower.toLower = c.toLower := by
  have letters : ∀ n < 26,
      (Char.ofNat (n + 65)).toLower.toLower = (Char.ofNat (n + 65)).toLower := by decide
  by_cases same : c.toLower = c
  · rw [same, same]
  · obtain ⟨n, below, rfl⟩ := exists_letter same
    exact letters n below

theorem isBlank_toLower (c : Char) : isBlank c.toLower = isBlank c := by
  have letters : ∀ n < 26,
      isBlank (Char.ofNat (n + 65)).toLower = isBlank (Char.ofNat (n + 65)) := by decide
  by_cases same : c.toLower = c
  · rw [same]
  · obtain ⟨n, below, rfl⟩ := exists_letter same
    exact letters n below

theorem trimChars_map_toLower (s : List Char) :
    trimChars (s.map Char.toLower) = (trimChars s).map Char.toLower := by
  have blanks : isBlank ∘ Char.toLower = isBlank := funext isBlank_toLower
  simp only [trimChars, List.dropWhile_map, ← List.map_reverse, blanks]

theorem trimChars_trimChars (s : List Char) : trimChars (trimChars s) = trimChars s := by
  have leading : (trimChars s).dropWhile isBlank = trimChars s := by
    refine List.dropWhile_eq_self_iff.mpr fun pos => ?_
    have front : trimChars s <+: s.dropWhile isBlank := List.rdropWhile_prefix ..
    rw [front.getElem pos]
    exact List.dropWhile_get_zero_not isBlank s (Nat.lt_of_lt_of_le pos front.length_le)
  calc
    trimChars (trimChars s) = (trimChars s).rdropWhile isBlank := by
      rw [trimChars, leading, List.rdropWhile]
    _ = trimChars s := List.rdropWhile_idempotent ..

/-- The normal form of an entry, trimmed and in lower case, is its own. -/
theorem lower_trim_lower_trim (s : String) :
    lower (trim (lower (trim s))) = lower (trim s) := by
  simp only [lower, trim, String.toList_ofList, trimChars_map_toLower, trimChars_trimChars,
    List.map_map]
  congr 1
  exact List.map_congr_left fun c _ => toLower_toLower c

end Text

/-! ## Adding entries -/

/-- Entries are added in order, unless an equal one came before. -/
theorem appendUnique_eraseDups (entries extras : List String) :
    appendUnique entries.eraseDups extras = (entries ++ extras).eraseDups := by
  rw [appendUnique]
  induction extras generalizing entries with
  | nil => simp
  | cons extra extras ih =>
    have step : (if extra ∈ entries.eraseDups then entries.eraseDups
        else entries.eraseDups ++ [extra]) = (entries ++ [extra]).eraseDups := by
      simp only [List.mem_eraseDups, List.eraseDups_concat]
    rw [List.foldl_cons, step, ih, List.append_assoc, List.singleton_append]

/-- The inspector's procedure adds the same entries as that of the files. -/
theorem extendUnique_eq (entries extras : List String) :
    extendUnique entries extras = appendUnique entries (normalEntries extras) := by
  rw [extendUnique, appendUnique, normalEntries]
  induction extras generalizing entries with
  | nil => simp
  | cons extra extras ih =>
    rw [List.foldl_cons, ih, addUnique, List.map_cons]
    generalize Text.lower (Text.trim extra) = normal
    by_cases blank : normal = ""
    · simp [blank]
    · simp [blank]

/-- Every entry is in normal form and not blank. -/
def AllNormal (entries : List String) : Prop :=
  ∀ entry ∈ entries, Text.lower (Text.trim entry) = entry ∧ entry ≠ ""

theorem allNormal_normalEntries (entries : List String) : AllNormal (normalEntries entries) := by
  intro entry mem
  obtain ⟨mem, nonblank⟩ := List.mem_filter.mp mem
  obtain ⟨raw, -, rfl⟩ := List.mem_map.mp mem
  exact ⟨Text.lower_trim_lower_trim raw, of_decide_eq_true nonblank⟩

theorem AllNormal.normalEntries_eq {entries : List String} (h : AllNormal entries) :
    normalEntries entries = entries := by
  have same : (entries.map fun entry => Text.lower (Text.trim entry)) = entries.map id :=
    List.map_congr_left fun entry mem => (h entry mem).1
  rw [normalEntries, same, List.map_id]
  exact List.filter_eq_self.mpr fun entry mem => decide_eq_true (h entry mem).2

/-! ## Built-in and configured entries -/

/-- The built-in entries and then those of the global file and of the project's, in their normal
form and without blank ones; of several equal entries the first is kept. So no entry is listed
twice, and none that is built in or stands in the global file is lost. -/
structure BuiltUp (builtIn : List String) (global project : Option (List String))
    (entries : List String) : Prop where
  entries_eq : entries =
    (builtIn ++ normalEntries (global.getD []) ++ normalEntries (project.getD [])).eraseDups
  distinct : entries.Nodup
  begins : builtIn <+: entries
  keeps : normalEntries (global.getD []) ⊆ entries

variable {builtIn entries : List String} {global project : Option (List String)}

theorem BuiltUp.of_eq (distinct : builtIn.Nodup) (h : entries =
    (builtIn ++ normalEntries (global.getD []) ++ normalEntries (project.getD [])).eraseDups) :
    BuiltUp builtIn global project entries where
  entries_eq := h
  distinct := h ▸ List.nodup_eraseDups _
  begins := by
    rw [h, List.append_assoc, List.eraseDups_append, List.eraseDups_of_nodup distinct]
    exact List.prefix_append ..
  keeps entry mem := by
    rw [h, List.mem_eraseDups]
    exact List.mem_append_left _ (List.mem_append_right _ mem)

theorem builtUp_extended_iff (distinct : builtIn.Nodup) :
    BuiltUp builtIn global project entries ↔
      entries = extended (extended builtIn global) project := by
  have layered : extended (extended builtIn global) project =
      (builtIn ++ normalEntries (global.getD []) ++ normalEntries (project.getD [])).eraseDups := by
    rw [extended, extended, ← List.eraseDups_of_nodup distinct, appendUnique_eraseDups,
      appendUnique_eraseDups, List.eraseDups_of_nodup distinct]
  rw [layered]
  exact ⟨BuiltUp.entries_eq, .of_eq distinct⟩

/-- The inspector finds nothing to add to a list that begins with its own entries. -/
theorem BuiltUp.extendUnique_eq (h : BuiltUp builtIn global project entries)
    (normal : AllNormal builtIn) : extendUnique builtIn entries = entries := by
  have all : AllNormal entries := by
    intro entry mem
    rw [h.entries_eq, List.mem_eraseDups, List.mem_append, List.mem_append] at mem
    obtain (mem | mem) | mem := mem
    · exact normal entry mem
    · exact allNormal_normalEntries _ entry mem
    · exact allNormal_normalEntries _ entry mem
  obtain ⟨added, rfl⟩ := h.begins
  obtain ⟨distinct, distinct', apart⟩ := List.nodup_append.mp h.distinct
  have others : (builtIn ++ added).removeAll builtIn = added := by
    rw [List.removeAll, List.filter_append, List.filter_eq_nil_iff.mpr (by simp), List.nil_append]
    refine List.filter_eq_self.mpr fun entry mem => ?_
    simpa using fun listed => apart entry listed entry mem rfl
  calc
    extendUnique builtIn (builtIn ++ added)
      = appendUnique builtIn.eraseDups (builtIn ++ added) := by
        rw [PackageRisk.extendUnique_eq, all.normalEntries_eq, List.eraseDups_of_nodup distinct]
    _ = builtIn.eraseDups ++ ((builtIn ++ added).removeAll builtIn).eraseDups := by
        rw [appendUnique_eraseDups, List.eraseDups_append]
    _ = builtIn ++ added := by
        rw [others, List.eraseDups_of_nodup distinct, List.eraseDups_of_nodup distinct']

end PackageRisk
