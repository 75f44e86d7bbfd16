import Mathlib.Data.List.Nodup
import PackageRisk.Settings.Overlay

/-!
# Documents of settings

What a configuration document sets, name by name. Every setting stands under its own name as a value
of its own type; of a name that is not there nothing is set, and other names do not matter. Settings
that belong together stand in a group. A document sets something exactly if no setting in it is of
another type.
-/

namespace PackageRisk

namespace Toml.Value

/-- A whole number that is not negative, as a value. -/
def natural (n : Nat) : Value := .int n

/-- A list of texts, as a value. -/
def texts (l : List String) : Value := .arr (l.map .str)

end Toml.Value

open Toml

/-- The types of settings. -/
inductive SettingType where
  | integer
  | natural
  | bool
  | texts
  deriving DecidableEq, Repr

/-- The values of a type. -/
inductive SettingType.Has : SettingType → Value → Prop
  | integer (n : Int) : Has .integer (.int n)
  | natural (n : Nat) : Has .natural (.natural n)
  | bool (b : Bool) : Has .bool (.bool b)
  | texts (l : List String) : Has .texts (.texts l)

/-! ## Names and types -/

/-- The settings that belong to no group. -/
def ungroupedSettings : List (String × SettingType) :=
  [("score_threshold", .integer), ("block_install", .bool), ("auto_check", .bool)]

/-- The settings of the analysis group, in order. -/
def analysisSettings : List (String × SettingType) :=
  [("max_dependency_depth", .natural), ("fetch_timeout_secs", .natural),
    ("max_concurrent_fetches", .natural), ("inspect_dependency_files", .bool)]

/-- The settings of the inspection group, in order. -/
def inspectionSettings : List (String × SettingType) :=
  [("file_extensions", .texts), ("trusted_domains", .texts), ("malicious_filenames", .texts)]

/-- The groups with their settings. -/
def settingGroups : List (String × List (String × SettingType)) :=
  [("analysis", analysisSettings), ("inspection", inspectionSettings),
    ("malware", [("hashes", .texts)]), ("advisories", [("osv", .bool)])]

/-- The members of a group by their names. A group is a table or an array of its members in order;
a date counts as a group without members, as does a group that is not there. -/
inductive IsGroup (settings : List (String × SettingType)) :
    Option Value → (String → Option Value) → Prop
  | absent : IsGroup settings none fun _ => none
  | table (members : Table) : IsGroup settings (some (.table members)) members.get?
  | array (elements : List Value) :
      IsGroup settings (some (.arr elements)) fun name =>
        elements[(settings.map Prod.fst).idxOf name]?
  | date (text : String) : IsGroup settings (some (.datetime text)) fun _ => none

/-- Every setting is of its type or not there. -/
def Typed (settings : List (String × SettingType)) (member : String → Option Value) : Prop :=
  ∀ name type w, (name, type) ∈ settings → member name = some w → type.Has w

/-- Something is wrong with a group: it is no group at all, or a member is of another type. -/
inductive IllTypedGroup (settings : List (String × SettingType)) (v : Option Value) : Prop
  | noGroup {w : Value} (there : v = some w)
      (other : ∀ member, ¬ IsGroup settings (some w) member)
  | member {member : String → Option Value} {name : String} {type : SettingType} {w : Value}
      (group : IsGroup settings v member) (listed : (name, type) ∈ settings)
      (there : member name = some w) (other : ¬ type.Has w)

/-- A setting of a document is of another type than it has to be. -/
inductive IllTyped (t : Table) : Prop
  | ungrouped {name : String} {type : SettingType} {w : Value}
      (listed : (name, type) ∈ ungroupedSettings) (there : t.get? name = some w)
      (other : ¬ type.Has w)
  | grouped {group : String} {settings : List (String × SettingType)}
      (listed : (group, settings) ∈ settingGroups) (spoilt : IllTypedGroup settings (t.get? group))

/-- What the members of the analysis group set. -/
structure AnalysisOverlay.SetBy (member : String → Option Value) (o : AnalysisOverlay) : Prop where
  maxDependencyDepth : member "max_dependency_depth" = o.maxDependencyDepth.map .natural
  fetchTimeoutSeconds : member "fetch_timeout_secs" = o.fetchTimeoutSeconds.map .natural
  maxConcurrentFetches : member "max_concurrent_fetches" = o.maxConcurrentFetches.map .natural
  inspectDependencyFiles : member "inspect_dependency_files" = o.inspectDependencyFiles.map .bool

/-- What the members of the inspection group set. -/
structure InspectionOverlay.SetBy (member : String → Option Value) (o : InspectionOverlay) :
    Prop where
  fileExtensions : member "file_extensions" = o.fileExtensions.map .texts
  trustedDomains : member "trusted_domains" = o.trustedDomains.map .texts
  maliciousFilenames : member "malicious_filenames" = o.maliciousFilenames.map .texts

/-- What a document sets, each setting as the value under its own name. -/
structure SettingsOverlay.SetBy (t : Table) (o : SettingsOverlay) : Prop where
  scoreThreshold : t.get? "score_threshold" = o.scoreThreshold.map .int
  blockInstall : t.get? "block_install" = o.blockInstall.map .bool
  autoCheck : t.get? "auto_check" = o.autoCheck.map .bool
  analysis : ∃ member, IsGroup analysisSettings (t.get? "analysis") member ∧
    o.analysis.SetBy member
  inspection : ∃ member, IsGroup inspectionSettings (t.get? "inspection") member ∧
    o.inspection.SetBy member
  malwareHashes : ∃ member, IsGroup [("hashes", .texts)] (t.get? "malware") member ∧
    member "hashes" = o.malwareHashes.map .texts
  useOsv : ∃ member, IsGroup [("osv", .bool)] (t.get? "advisories") member ∧
    member "osv" = o.useOsv.map .bool

open SettingsOverlay

/-! ## Readers of types -/

/-- A reader of a type reads the values of the type and no others. -/
structure SettingType.Reads {α : Type} (type : SettingType) (read : Value → Option α)
    (write : α → Value) : Prop where
  eq_some_iff {v : Value} {a : α} : read v = some a ↔ v = write a
  has_iff {v : Value} : type.Has v ↔ ∃ a, v = write a

namespace SettingType

theorem reads_integer : integer.Reads integer? .int where
  eq_some_iff {v n} := by cases v <;> simp [integer?]
  has_iff {v} := ⟨fun | .integer n => ⟨n, rfl⟩, fun ⟨n, eq⟩ => eq ▸ .integer n⟩

theorem reads_natural : natural.Reads natural? .natural where
  eq_some_iff {v n} := by
    cases v with
    | int m =>
      simp only [natural?, Option.ite_none_right_eq_some, Option.some.injEq, Value.natural,
        Value.int.injEq]
      omega
    | _ => simp [natural?, Value.natural]
  has_iff {v} := ⟨fun | .natural n => ⟨n, rfl⟩, fun ⟨n, eq⟩ => eq ▸ .natural n⟩

theorem reads_bool : bool.Reads bool? .bool where
  eq_some_iff {v b} := by cases v <;> simp [bool?]
  has_iff {v} := ⟨fun | .bool b => ⟨b, rfl⟩, fun ⟨b, eq⟩ => eq ▸ .bool b⟩

theorem mapM_text?_eq_some_iff {elements : List Value} {l : List String} :
    elements.mapM text? = some l ↔ elements = l.map .str := by
  induction elements generalizing l with
  | nil => cases l <;> simp
  | cons v elements ih =>
    have first {s : String} : text? v = some s ↔ v = .str s := by cases v <;> simp [text?]
    cases l with
    | nil => simp [List.mapM_cons, Option.bind_eq_some_iff]
    | cons s l => simp [List.mapM_cons, Option.bind_eq_some_iff, first, ih]

theorem reads_texts : texts.Reads texts? .texts where
  eq_some_iff {v l} := by cases v <;> simp [texts?, Value.texts, mapM_text?_eq_some_iff]
  has_iff {v} := ⟨fun | .texts l => ⟨l, rfl⟩, fun ⟨l, eq⟩ => eq ▸ .texts l⟩

namespace Reads

variable {α : Type} {type : SettingType} {read : Value → Option α} {write : α → Value}

theorem setting?_eq_some_iff (reads : type.Reads read write) {v : Option Value} {a : Option α} :
    setting? read v = some a ↔ v = a.map write := by
  cases v with
  | none => cases a <;> simp [setting?]
  | some v =>
    cases a with
    | none => simp [setting?]
    | some a => simp [setting?, reads.eq_some_iff]

theorem has_of_eq_map (reads : type.Reads read write) {v : Option Value} {a : Option α} {w : Value}
    (set : v = a.map write) (there : v = some w) : type.Has w := by
  obtain ⟨b, -, eq⟩ := Option.map_eq_some_iff.mp (set.symm.trans there)
  exact reads.has_iff.mpr ⟨b, eq.symm⟩

/-- A setting that is absent or of its type has been written. -/
theorem exists_eq_map (reads : type.Reads read write) {v : Option Value}
    (has : ∀ w, v = some w → type.Has w) : ∃ a : Option α, v = a.map write := by
  cases v with
  | none => exact ⟨none, rfl⟩
  | some w =>
    obtain ⟨a, eq⟩ := reads.has_iff.mp (has w rfl)
    exact ⟨some a, congrArg some eq⟩

end Reads

end SettingType

open SettingType

/-! ## Groups -/

section

variable {settings : List (String × SettingType)} {v : Option Value}
  {member member' : String → Option Value}

theorem IsGroup.unique (h : IsGroup settings v member) (h' : IsGroup settings v member') :
    member = member' := by
  cases h <;> cases h' <;> rfl

/-- The members of a group are read in order. -/
theorem IsGroup.exists_read (distinct : (settings.map Prod.fst).Nodup)
    (h : IsGroup settings v member) :
    ∃ group, setting? (group? (settings.map Prod.fst)) v = some group ∧
      ∀ i (inside : i < settings.length), memberAt group i = member settings[i].1 := by
  cases h with
  | absent => exact ⟨none, rfl, fun i inside => rfl⟩
  | table members =>
    refine ⟨_, rfl, fun i inside => ?_⟩
    simp [memberAt, inside]
  | array elements =>
    refine ⟨_, rfl, fun i inside => ?_⟩
    have place := distinct.idxOf_getElem i (by simpa using inside)
    rw [List.getElem_map] at place
    simp [memberAt, inside, place]
  | date text =>
    refine ⟨_, rfl, fun i inside => ?_⟩
    simp [memberAt, inside]

/-- What is no group is not read. -/
theorem isGroup_cases (settings : List (String × SettingType)) (v : Option Value) :
    (∃ member, IsGroup settings v member) ∨
      setting? (group? (settings.map Prod.fst)) v = none ∧ IllTypedGroup settings v := by
  cases v with
  | none => exact .inl ⟨_, .absent⟩
  | some w =>
    cases w with
    | table members => exact .inl ⟨_, .table members⟩
    | arr elements => exact .inl ⟨_, .array elements⟩
    | datetime text => exact .inl ⟨_, .date text⟩
    | str | int | float | bool => exact .inr ⟨rfl, .noGroup rfl fun _ h => nomatch h⟩

/-- To read a group is to find its members and to read these. -/
theorem bind_group_eq_some_iff (distinct : (settings.map Prod.fst).Nodup) {α : Type}
    {read : Option (List (Option Value)) → Option α} {a : α} {set : (String → Option Value) → Prop}
    (reads : ∀ values member,
      (∀ i (inside : i < settings.length), memberAt values i = member settings[i].1) →
      (read values = some a ↔ set member)) :
    (setting? (group? (settings.map Prod.fst)) v).bind read = some a ↔
      ∃ member, IsGroup settings v member ∧ set member := by
  constructor
  · intro found
    obtain ⟨member, group⟩ | ⟨unread, -⟩ := isGroup_cases settings v
    · obtain ⟨values, ofGroup, members⟩ := group.exists_read distinct
      rw [ofGroup, Option.bind_some] at found
      exact ⟨member, group, (reads values member members).mp found⟩
    · rw [unread] at found
      cases found
  · rintro ⟨member, group, h⟩
    obtain ⟨values, ofGroup, members⟩ := group.exists_read distinct
    rw [ofGroup, Option.bind_some]
    exact (reads values member members).mpr h

theorem illTypedGroup_iff :
    IllTypedGroup settings v ↔ ∀ member, IsGroup settings v member → ¬ Typed settings member := by
  constructor
  · rintro (⟨rfl, other⟩ | ⟨group, listed, there, other⟩) member group' typed
    · exact other member group'
    · obtain rfl := group.unique group'
      exact other (typed _ _ _ listed there)
  · intro untyped
    obtain ⟨member, group⟩ | ⟨-, spoilt⟩ := isGroup_cases settings v
    · have spoilt := untyped member group
      simp only [Typed, not_forall] at spoilt
      obtain ⟨name, type, w, listed, there, other⟩ := spoilt
      exact .member group listed there other
    · exact spoilt

end

/-! ## What groups set -/

section

variable {v : Option Value} {member : String → Option Value}

theorem AnalysisOverlay.exists_setBy_iff :
    (∃ o : AnalysisOverlay, o.SetBy member) ↔ Typed analysisSettings member := by
  constructor
  · rintro ⟨o, h⟩ name type w listed there
    simp only [analysisSettings, List.mem_cons, Prod.mk.injEq, List.not_mem_nil, or_false] at listed
    rcases listed with ⟨rfl, rfl⟩ | ⟨rfl, rfl⟩ | ⟨rfl, rfl⟩ | ⟨rfl, rfl⟩
    · exact reads_natural.has_of_eq_map h.maxDependencyDepth there
    · exact reads_natural.has_of_eq_map h.fetchTimeoutSeconds there
    · exact reads_natural.has_of_eq_map h.maxConcurrentFetches there
    · exact reads_bool.has_of_eq_map h.inspectDependencyFiles there
  · intro typed
    obtain ⟨depth, ofDepth⟩ := reads_natural.exists_eq_map
      (typed "max_dependency_depth" _ · (by decide))
    obtain ⟨timeout, ofTimeout⟩ := reads_natural.exists_eq_map
      (typed "fetch_timeout_secs" _ · (by decide))
    obtain ⟨fetches, ofFetches⟩ := reads_natural.exists_eq_map
      (typed "max_concurrent_fetches" _ · (by decide))
    obtain ⟨inspect, ofInspect⟩ := reads_bool.exists_eq_map
      (typed "inspect_dependency_files" _ · (by decide))
    exact ⟨⟨depth, timeout, fetches, inspect⟩, ⟨ofDepth, ofTimeout, ofFetches, ofInspect⟩⟩

theorem InspectionOverlay.exists_setBy_iff :
    (∃ o : InspectionOverlay, o.SetBy member) ↔ Typed inspectionSettings member := by
  constructor
  · rintro ⟨o, h⟩ name type w listed there
    simp only [inspectionSettings, List.mem_cons, Prod.mk.injEq, List.not_mem_nil, or_false]
      at listed
    rcases listed with ⟨rfl, rfl⟩ | ⟨rfl, rfl⟩ | ⟨rfl, rfl⟩
    · exact reads_texts.has_of_eq_map h.fileExtensions there
    · exact reads_texts.has_of_eq_map h.trustedDomains there
    · exact reads_texts.has_of_eq_map h.maliciousFilenames there
  · intro typed
    obtain ⟨extensions, ofExtensions⟩ := reads_texts.exists_eq_map
      (typed "file_extensions" _ · (by decide))
    obtain ⟨domains, ofDomains⟩ := reads_texts.exists_eq_map
      (typed "trusted_domains" _ · (by decide))
    obtain ⟨filenames, ofFilenames⟩ := reads_texts.exists_eq_map
      (typed "malicious_filenames" _ · (by decide))
    exact ⟨⟨extensions, domains, filenames⟩, ⟨ofExtensions, ofDomains, ofFilenames⟩⟩

theorem exists_set_iff {α : Type} {type : SettingType} {read : Value → Option α}
    {write : α → Value} (reads : type.Reads read write) (name : String) :
    (∃ a : Option α, member name = a.map write) ↔ Typed [(name, type)] member := by
  constructor
  · rintro ⟨a, set⟩ name' type' w listed there
    obtain ⟨rfl, rfl⟩ := Prod.mk.inj (List.mem_singleton.mp listed)
    exact reads.has_of_eq_map set there
  · exact fun typed => reads.exists_eq_map (typed name _ · (List.mem_singleton_self _))

theorem analysis?_eq_some_iff {o : AnalysisOverlay} :
    analysis? v = some o ↔ ∃ member, IsGroup analysisSettings v member ∧ o.SetBy member := by
  have distinct : (analysisSettings.map Prod.fst).Nodup := by decide
  refine bind_group_eq_some_iff distinct fun values member members => ?_
  have depth : memberAt values 0 = member "max_dependency_depth" := members 0 (by decide)
  have timeout : memberAt values 1 = member "fetch_timeout_secs" := members 1 (by decide)
  have fetches : memberAt values 2 = member "max_concurrent_fetches" := members 2 (by decide)
  have inspect : memberAt values 3 = member "inspect_dependency_files" := members 3 (by decide)
  simp only [depth, timeout, fetches, inspect, Option.bind_eq_bind, Option.bind_eq_some_iff,
    Option.pure_def, Option.some.injEq, reads_natural.setting?_eq_some_iff,
    reads_bool.setting?_eq_some_iff]
  constructor
  · rintro ⟨_, ofDepth, _, ofTimeout, _, ofFetches, _, ofInspect, rfl⟩
    exact ⟨ofDepth, ofTimeout, ofFetches, ofInspect⟩
  · rintro ⟨ofDepth, ofTimeout, ofFetches, ofInspect⟩
    exact ⟨_, ofDepth, _, ofTimeout, _, ofFetches, _, ofInspect, rfl⟩

theorem inspection?_eq_some_iff {o : InspectionOverlay} :
    inspection? v = some o ↔ ∃ member, IsGroup inspectionSettings v member ∧ o.SetBy member := by
  have distinct : (inspectionSettings.map Prod.fst).Nodup := by decide
  refine bind_group_eq_some_iff distinct fun values member members => ?_
  have extensions : memberAt values 0 = member "file_extensions" := members 0 (by decide)
  have domains : memberAt values 1 = member "trusted_domains" := members 1 (by decide)
  have filenames : memberAt values 2 = member "malicious_filenames" := members 2 (by decide)
  simp only [extensions, domains, filenames, Option.bind_eq_bind, Option.bind_eq_some_iff,
    Option.pure_def, Option.some.injEq, reads_texts.setting?_eq_some_iff]
  constructor
  · rintro ⟨_, ofExtensions, _, ofDomains, _, ofFilenames, rfl⟩
    exact ⟨ofExtensions, ofDomains, ofFilenames⟩
  · rintro ⟨ofExtensions, ofDomains, ofFilenames⟩
    exact ⟨_, ofExtensions, _, ofDomains, _, ofFilenames, rfl⟩

theorem single?_eq_some_iff {α : Type} {type : SettingType} {read : Value → Option α}
    {write : α → Value} (reads : type.Reads read write) {name : String} {a : Option α} :
    single? name read v = some a ↔
      ∃ member, IsGroup [(name, type)] v member ∧ member name = a.map write := by
  have distinct : ([(name, type)].map Prod.fst).Nodup := List.nodup_singleton name
  refine bind_group_eq_some_iff distinct fun values member members => ?_
  have only : memberAt values 0 = member name := members 0 Nat.one_pos
  rw [only]
  exact reads.setting?_eq_some_iff

end

namespace SettingsOverlay

variable {t : Table} {o : SettingsOverlay}

/-- What is read of a document is what it sets. -/
theorem ofTable?_eq_some_iff : ofTable? t = some o ↔ o.SetBy t := by
  simp only [ofTable?, Option.bind_eq_bind, Option.bind_eq_some_iff, Option.pure_def,
    Option.some.injEq, reads_integer.setting?_eq_some_iff, reads_bool.setting?_eq_some_iff,
    analysis?_eq_some_iff, inspection?_eq_some_iff, single?_eq_some_iff reads_texts,
    single?_eq_some_iff reads_bool]
  constructor
  · rintro ⟨_, threshold, _, block, _, check, _, analysis, _, inspection, _, hashes, _, osv, rfl⟩
    exact ⟨threshold, block, check, analysis, inspection, hashes, osv⟩
  · rintro ⟨threshold, block, check, analysis, inspection, hashes, osv⟩
    exact ⟨_, threshold, _, block, _, check, _, analysis, _, inspection, _, hashes, _, osv, rfl⟩

theorem SetBy.not_illTyped (h : o.SetBy t) : ¬ IllTyped t := by
  rintro (⟨listed, there, other⟩ | ⟨listed, spoilt⟩)
  · simp only [ungroupedSettings, List.mem_cons, Prod.mk.injEq, List.not_mem_nil,
      or_false] at listed
    rcases listed with ⟨rfl, rfl⟩ | ⟨rfl, rfl⟩ | ⟨rfl, rfl⟩
    · exact other (reads_integer.has_of_eq_map h.scoreThreshold there)
    · exact other (reads_bool.has_of_eq_map h.blockInstall there)
    · exact other (reads_bool.has_of_eq_map h.autoCheck there)
  · rw [illTypedGroup_iff] at spoilt
    simp only [settingGroups, List.mem_cons, Prod.mk.injEq, List.not_mem_nil, or_false] at listed
    rcases listed with ⟨rfl, rfl⟩ | ⟨rfl, rfl⟩ | ⟨rfl, rfl⟩ | ⟨rfl, rfl⟩
    · obtain ⟨member, group, set⟩ := h.analysis
      exact spoilt member group (AnalysisOverlay.exists_setBy_iff.mp ⟨_, set⟩)
    · obtain ⟨member, group, set⟩ := h.inspection
      exact spoilt member group (InspectionOverlay.exists_setBy_iff.mp ⟨_, set⟩)
    · obtain ⟨member, group, set⟩ := h.malwareHashes
      exact spoilt member group ((exists_set_iff reads_texts "hashes").mp ⟨_, set⟩)
    · obtain ⟨member, group, set⟩ := h.useOsv
      exact spoilt member group ((exists_set_iff reads_bool "osv").mp ⟨_, set⟩)

theorem exists_setBy (sound : ¬ IllTyped t) : ∃ o : SettingsOverlay, o.SetBy t := by
  have typed : Typed ungroupedSettings t.get? := fun name type w listed there =>
    by_contra fun other => sound (.ungrouped listed there other)
  have group (name settings) (listed : (name, settings) ∈ settingGroups) :
      ∃ member, IsGroup settings (t.get? name) member ∧ Typed settings member := by
    by_contra none
    simp only [not_exists, not_and] at none
    exact sound (.grouped listed (illTypedGroup_iff.mpr none))
  obtain ⟨threshold, ofThreshold⟩ :=
    reads_integer.exists_eq_map (typed "score_threshold" _ · (by decide))
  obtain ⟨block, ofBlock⟩ := reads_bool.exists_eq_map (typed "block_install" _ · (by decide))
  obtain ⟨check, ofCheck⟩ := reads_bool.exists_eq_map (typed "auto_check" _ · (by decide))
  obtain ⟨a, analysis, typedAnalysis⟩ := group "analysis" analysisSettings (by decide)
  obtain ⟨i, inspection, typedInspection⟩ := group "inspection" inspectionSettings (by decide)
  obtain ⟨m, malware, typedMalware⟩ := group "malware" [("hashes", .texts)] (by decide)
  obtain ⟨v, advisories, typedAdvisories⟩ := group "advisories" [("osv", .bool)] (by decide)
  obtain ⟨_, ofAnalysis⟩ := AnalysisOverlay.exists_setBy_iff.mpr typedAnalysis
  obtain ⟨_, ofInspection⟩ := InspectionOverlay.exists_setBy_iff.mpr typedInspection
  obtain ⟨_, ofHashes⟩ := (exists_set_iff reads_texts "hashes").mpr typedMalware
  obtain ⟨_, ofOsv⟩ := (exists_set_iff reads_bool "osv").mpr typedAdvisories
  exact ⟨⟨threshold, block, check, _, _, _, _⟩, ⟨ofThreshold, ofBlock, ofCheck,
    ⟨a, analysis, ofAnalysis⟩, ⟨i, inspection, ofInspection⟩, ⟨m, malware, ofHashes⟩,
    ⟨v, advisories, ofOsv⟩⟩⟩

/-- A document is rejected for a setting of another type. -/
theorem ofTable?_eq_none_iff : ofTable? t = none ↔ IllTyped t := by
  constructor
  · intro unread
    by_contra sound
    obtain ⟨o, h⟩ := exists_setBy sound
    cases unread.symm.trans (ofTable?_eq_some_iff.mpr h)
  · intro spoilt
    refine Option.eq_none_iff_forall_ne_some.mpr fun o read => ?_
    exact (ofTable?_eq_some_iff.mp read).not_illTyped spoilt

end SettingsOverlay

end PackageRisk
