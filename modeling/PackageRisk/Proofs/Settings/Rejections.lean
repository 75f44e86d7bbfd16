import PackageRisk.Settings.Policy
import PackageRisk.Settings.Store

/-!
# Rejected settings

Why configuration files and the policy in the environment are rejected. A file may be unreadable or
malformed, which blames nothing in particular, or hold a value that is out of bounds; a policy may
be malformed or hold such a value. Every failure among these is one of the configuration.
-/

namespace PackageRisk

/-- Every error of a computation is of a certain sort. -/
def ErrorsOnly {ε α : Type} (sort : ε → Prop) (x : Except ε α) : Prop :=
  ∀ e, x = .error e → sort e

namespace ErrorsOnly

variable {ε δ α β : Type} {sort : ε → Prop}

theorem ok (a : α) : ErrorsOnly sort (.ok a) := nofun

theorem error {e : ε} (h : sort e) : ErrorsOnly sort (.error e : Except ε α) := by
  rintro _ ⟨⟩
  exact h

theorem bind {x : Except ε α} {f : α → Except ε β} (first : ErrorsOnly sort x)
    (second : ∀ a, ErrorsOnly sort (f a)) : ErrorsOnly sort (x >>= f) := by
  cases x with
  | error e => exact error (first e rfl)
  | ok a => exact second a

theorem mapError {x : Except δ α} {g : δ → ε} (h : ErrorsOnly (fun e => sort (g e)) x) :
    ErrorsOnly sort (x.mapError g) := by
  cases x with
  | error e => exact error (h e rfl)
  | ok a => exact ok a

theorem mono {sort' : ε → Prop} {x : Except ε α} (h : ErrorsOnly sort x)
    (weaker : ∀ e, sort e → sort' e) : ErrorsOnly sort' x := by
  intro e failed
  exact weaker e (h e failed)

end ErrorsOnly

/-- A failure of the configuration. -/
def Failure.OfConfiguration (f : Failure) : Prop :=
  f.kind = .invalidConfiguration

/-- A failure of the configuration that wraps no other. -/
def Failure.BlamesConfiguration (f : Failure) : Prop :=
  ∃ message, f = .invalidConfiguration message

theorem Failure.BlamesConfiguration.ofConfiguration {f : Failure} (h : f.BlamesConfiguration) :
    f.OfConfiguration := by
  obtain ⟨message, rfl⟩ := h
  rfl

/-- An error of the settings that blames the configuration or nothing in particular. -/
def SettingsError.OfConfiguration (e : SettingsError) : Prop :=
  ∀ f, e.failure? = some f → f.OfConfiguration

theorem checkThreshold_errors (value : Int) :
    ErrorsOnly Failure.BlamesConfiguration (checkThreshold value) := by
  unfold checkThreshold
  split
  · exact .ok _
  · exact .error ⟨_, rfl⟩

namespace Settings

theorem overlaid_errors (s : Settings) (o : SettingsOverlay) :
    ErrorsOnly Failure.OfConfiguration (s.overlaid o) := by
  unfold overlaid
  cases o.scoreThreshold with
  | none => exact .ok _
  | some value =>
    exact .bind ((checkThreshold_errors value).mono fun _ blames => blames.ofConfiguration)
      fun _ => .ok _

theorem table_errors (place : SettingsPlace) :
    ErrorsOnly SettingsError.OfConfiguration place.table := by
  refine .bind ?_ fun text => ?_
  · unfold SettingsPlace.text?
    split
    · exact .ok _
    · exact .error nofun
    · split
      · exact .ok _
      · exact .error nofun
  · cases text with
    | none => exact .ok _
    | some text =>
      dsimp only
      split
      · exact .ok _
      · exact .error nofun

theorem withPlace_errors (s : Settings) (place : SettingsPlace) :
    ErrorsOnly SettingsError.OfConfiguration (s.withPlace place) := by
  refine .bind (table_errors place) fun table => ?_
  split
  · exact .error nofun
  · refine .mapError fun f failed => ?_
    rintro _ ⟨⟩
    exact s.overlaid_errors _ f failed

theorem withPlace?_errors (s : Settings) (place : Option SettingsPlace) :
    ErrorsOnly SettingsError.OfConfiguration (s.withPlace? place) := by
  cases place with
  | none => exact .ok s
  | some place => exact s.withPlace_errors place

/-- Loading settings fails for reasons of the configuration only. -/
theorem load_errors (global project : Option SettingsPlace) :
    ErrorsOnly SettingsError.OfConfiguration (load global project) :=
  .bind (withPlace?_errors {} global) fun s => s.withPlace?_errors project

end Settings

namespace InstallPolicy

theorem overridden_errors (p : InstallPolicy) (o : PolicyOverrides) :
    ErrorsOnly Failure.BlamesConfiguration (p.overridden o) := by
  refine .bind ?_ fun threshold => .bind ?_ fun block => .ok _
  · rcases o.scoreThreshold with - | ⟨value⟩ | ⟨text⟩
    · exact .ok _
    · exact checkThreshold_errors value
    · simp only [Option.elim, PolicyOverrides.threshold]
      split
      · exact checkThreshold_errors _
      · exact .error ⟨_, rfl⟩
  · rcases o.blockInstall with - | ⟨value⟩ | ⟨text⟩
    · exact .ok _
    · exact .ok value
    · simp only [Option.elim, PolicyOverrides.block]
      split
      · exact .ok _
      · exact .ok _
      · exact .error ⟨_, rfl⟩

/-- A policy is rejected for reasons of the configuration only. -/
theorem resolve_blames (s : Settings) (environment : Option String) :
    ErrorsOnly Failure.BlamesConfiguration (resolve s environment) := by
  cases environment with
  | none => exact .ok _
  | some raw =>
    simp only [resolve]
    split
    · exact .ok _
    · refine .bind ?_ fun o => overridden_errors _ o
      unfold PolicyOverrides.parse
      split
      · exact .ok _
      · exact .error ⟨_, rfl⟩

theorem resolve_errors (s : Settings) (environment : Option String) :
    ErrorsOnly Failure.OfConfiguration (resolve s environment) :=
  (resolve_blames s environment).mono fun _ blames => blames.ofConfiguration

end InstallPolicy

end PackageRisk
