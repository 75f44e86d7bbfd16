import PackageRisk.Analysis.Online
import PackageRisk.Command.Run
import PackageRisk.Proofs.Analysis.Strictness
import PackageRisk.Proofs.Settings.Rejections

/-!
# Exit statuses

How a check before an installation and an analysis end. Every failure is told apart by its innermost
cause, however many packages it is wrapped with, and whatever is wrong with the settings or the
policy is a failure of the configuration. So the check lets a package pass for two reasons only: it
was forced, or a report was made that the policy does not block.
-/

namespace PackageRisk

namespace Failure

/-- A cause wrapped with the packages that were being analysed, outermost first. -/
def wrappedIn (packages : List String) (cause : Failure) : Failure :=
  packages.foldr analysis cause

@[simp] theorem kind_wrappedIn (packages : List String) (cause : Failure) :
    (cause.wrappedIn packages).kind = cause.kind := by
  induction packages with
  | nil => rfl
  | cons package packages ih => exact ih

/-- Every failure is a cause that wraps no other, wrapped some number of times. -/
theorem exists_wrappedIn (f : Failure) :
    ∃ packages cause, f = cause.wrappedIn packages ∧
      ∀ package inner, cause ≠ analysis package inner := by
  induction f with
  | analysis package f ih =>
    obtain ⟨packages, cause, rfl, innermost⟩ := ih
    exact ⟨package :: packages, cause, rfl, innermost⟩
  | network => exact ⟨[], _, rfl, nofun⟩
  | metadataNotFound => exact ⟨[], _, rfl, nofun⟩
  | invalidScanResult => exact ⟨[], _, rfl, nofun⟩
  | invalidConfiguration => exact ⟨[], _, rfl, nofun⟩
  | extraction => exact ⟨[], _, rfl, nofun⟩

theorem kind_eq_network_iff {f : Failure} :
    f.kind = .network ↔ ∃ packages message, f = (network message).wrappedIn packages := by
  constructor
  · intro kind
    obtain ⟨packages, cause, rfl, innermost⟩ := f.exists_wrappedIn
    rw [kind_wrappedIn] at kind
    cases cause with
    | network message => exact ⟨packages, message, rfl⟩
    | analysis package inner => exact absurd rfl (innermost package inner)
    | _ => cases kind
  · rintro ⟨packages, message, rfl⟩
    exact kind_wrappedIn packages _

theorem kind_eq_invalidConfiguration_iff {f : Failure} :
    f.kind = .invalidConfiguration ↔
      ∃ packages message, f = (invalidConfiguration message).wrappedIn packages := by
  constructor
  · intro kind
    obtain ⟨packages, cause, rfl, innermost⟩ := f.exists_wrappedIn
    rw [kind_wrappedIn] at kind
    cases cause with
    | invalidConfiguration message => exact ⟨packages, message, rfl⟩
    | analysis package inner => exact absurd rfl (innermost package inner)
    | _ => cases kind
  · rintro ⟨packages, message, rfl⟩
    exact kind_wrappedIn packages _

end Failure

/-! ## Statuses -/

namespace CommandError

theorem exit_ofFailure (f : Failure) :
    (ofFailure f).exit =
      if f.kind = .invalidConfiguration then 2 else if f.kind = .network then 3 else 1 := by
  rw [exit, ofFailure, Option.map_some]
  cases f.kind <;> rfl

theorem exit_of_configuration {f : Failure} (h : f.OfConfiguration) : (ofFailure f).exit = 2 := by
  rw [exit_ofFailure]
  exact if_pos h

/-- Settings that cannot be loaded are reported as a failure of the configuration. -/
theorem exit_ofLoading {e : SettingsError} (h : e.OfConfiguration) : (ofLoading e).exit = 2 := by
  unfold ofLoading
  split
  · rename_i f failed
    rw [exit, ofSettings, failed, Option.map_some, h f failed]
  · exact exit_of_configuration rfl

end CommandError

namespace Analyzer

/-- Every lookup of an analysis has a time limit, so it comes to an end. -/
theorem root_ne_hangs (a : Analyzer) (name version : String) : a.root name version ≠ .hangs := by
  have timed := Lookup.within_ne_hangs a.limits.timeoutSeconds
    ("fetching metadata for " ++ name ++ "@" ++ requestedVersion version)
    (a.registry.release name (requestedVersion version))
  unfold root
  dsimp only
  split
  · split <;> nofun
  · nofun
  · rename_i hangs
    exact absurd hangs timed
  · nofun

theorem analyze_ne_hangs (a : Analyzer) (name version : String) :
    a.analyze name version ≠ .hangs := by
  unfold analyze
  split
  · dsimp only
    split <;> nofun
  · nofun
  · rename_i hangs
    exact absurd hangs (a.root_ne_hangs name version)
  · nofun

/-- An analysis that no task crashes in comes to an end with a report or a failure. -/
theorem analyze_done {a : Analyzer} {name version : String}
    (steady : a.analyze name version ≠ .crashes) :
    ∃ result, a.analyze name version = .done result := by
  cases h : a.analyze name version with
  | done result => exact ⟨result, rfl⟩
  | hangs => exact absurd h (a.analyze_ne_hangs name version)
  | crashes => exact absurd h steady

/-- Where every lookup in the registry comes to an end, no task of an analysis crashes. -/
theorem analyze_ne_crashes {a : Analyzer} (responds : a.registry.Responds) (name version : String) :
    a.analyze name version ≠ .crashes := by
  cases found : a.root name version with
  | done result =>
    cases result with
    | error f => simp [analyze, found]
    | ok r => simp [analyze_eq responds found, Lookup.answer]
  | hangs => exact absurd found (a.root_ne_hangs name version)
  | crashes =>
    obtain ⟨result, release⟩ := responds.release name (requestedVersion version)
    simp only [root, timed, release, Lookup.within] at found
    split at found
    · split at found <;> cases found
    · cases found
    · cases found
    · rename_i crashed
      cases crashed

/-- An analysis fails for some cause, however many packages it is wrapped with. -/
def FailsBecause (a : Analyzer) (name version : String) (cause : Failure) : Prop :=
  ∃ packages, a.analyze name version = .done (.error (cause.wrappedIn packages))

end Analyzer

/-- A network refuses or answers, it does not keep a lookup waiting. -/
theorem Registry.responds_online (service : RegistryService) (network : Network) :
    (Registry.online service network).Responds where
  release _ _ := ⟨_, rfl⟩
  publisher _ := ⟨_, rfl⟩
  downloads _ := ⟨_, rfl⟩
  tree _ := ⟨_, rfl⟩

namespace Surroundings

/-- The configuration files are read and yield settings. -/
def Loads (w : Surroundings) (settings : Settings) : Prop :=
  Settings.load w.global w.project = .ok settings

/-- The configuration files are read, and the policy in the environment is accepted. -/
structure Ready (w : Surroundings) (settings : Settings) (policy : InstallPolicy) : Prop where
  loads : w.Loads settings
  accepts : InstallPolicy.resolve settings w.policy = .ok policy

/-- The configuration files are rejected. -/
def Unloadable (w : Surroundings) : Prop :=
  ∃ e, Settings.load w.global w.project = .error e

/-- The configuration files or the policy in the environment are rejected. -/
def Misconfigured (w : Surroundings) : Prop :=
  w.Unloadable ∨
    ∃ settings f, w.Loads settings ∧ InstallPolicy.resolve settings w.policy = .error f

/-- A report is made that the policy does not block. -/
def Admits (w : Surroundings) (package version : String) : Prop :=
  ∃ settings policy report, w.Ready settings policy ∧
    (w.analyzer settings).analyze package version = .answer report ∧
    ¬ (policy.blockInstall = true ∧ report.score.value < policy.scoreThreshold)

/-- Settings and policy are accepted, and the analysis fails for a cause. -/
def CheckFails (w : Surroundings) (package version : String) (cause : String → Failure) : Prop :=
  ∃ settings policy message, w.Ready settings policy ∧
    (w.analyzer settings).FailsBecause package version (cause message)

/-- A report is made. -/
def Reports (w : Surroundings) (package version : String) : Prop :=
  ∃ settings report, w.Loads settings ∧
    (w.analyzer settings).analyze package version = .answer report

/-- The settings load, and the analysis fails for a cause. -/
def AnalysisFails (w : Surroundings) (package version : String) (cause : String → Failure) : Prop :=
  ∃ settings message, w.Loads settings ∧
    (w.analyzer settings).FailsBecause package version (cause message)

end Surroundings

/-- The status of an outcome tells success, failures of the configuration and failures of the
network apart, and from everything else. -/
structure Outcome.Classifies (o : Outcome) (passes misconfigured unreachable : Prop) : Prop where
  success : o.exit = 0 ↔ passes
  configuration : o.exit = 2 ↔ misconfigured
  network : o.exit = 3 ↔ unreachable
  other : o.exit = 1 ↔ ¬ passes ∧ ¬ misconfigured ∧ ¬ unreachable

namespace Outcome.Classifies

variable {o : Outcome} {passes misconfigured unreachable : Prop}

theorem of_success (exit : o.exit = 0) (passed : passes) (configured : ¬ misconfigured)
    (reached : ¬ unreachable) : o.Classifies passes misconfigured unreachable := by
  constructor <;> simp [exit, passed, configured, reached]

theorem of_other (exit : o.exit = 1) (stopped : ¬ passes) (configured : ¬ misconfigured)
    (reached : ¬ unreachable) : o.Classifies passes misconfigured unreachable := by
  constructor <;> simp [exit, stopped, configured, reached]

theorem of_failure {e : CommandError} {f : Failure}
    (exit : e.exit = (CommandError.ofFailure f).exit) (stopped : ¬ passes)
    (configuration : misconfigured ↔ f.kind = .invalidConfiguration)
    (network : unreachable ↔ f.kind = .network) :
    e.outcome.Classifies passes misconfigured unreachable := by
  have exit : e.outcome.exit = if f.kind = .invalidConfiguration then 2
      else if f.kind = .network then 3 else 1 := exit.trans (CommandError.exit_ofFailure f)
  cases kind : f.kind <;> rw [kind] at exit configuration network <;>
    constructor <;> simp [exit, stopped, configuration, network]

/-- Whatever is rejected before an analysis begins is a failure of the configuration. -/
theorem of_misconfigured {e : CommandError} (exit : e.exit = 2) (stopped : ¬ passes)
    (rejected : misconfigured) (reached : ¬ unreachable) :
    e.outcome.Classifies passes misconfigured unreachable := by
  have exit : e.outcome.exit = 2 := exit
  constructor <;> simp [exit, stopped, rejected, reached]

end Outcome.Classifies

section Gate

variable {w : Surroundings} {s : Settings} {p : InstallPolicy} {package version : String}

theorem Surroundings.Loads.iff (h : w.Loads s) {settings : Settings} :
    w.Loads settings ↔ settings = s := by
  constructor
  · intro other
    exact Except.ok.inj (other.symm.trans h)
  · rintro rfl
    exact h

theorem Surroundings.Loads.not_unloadable (h : w.Loads s) : ¬ w.Unloadable := by
  rintro ⟨e, failed⟩
  cases h.symm.trans failed

theorem Surroundings.Ready.iff (h : w.Ready s p) {settings : Settings} {policy : InstallPolicy} :
    w.Ready settings policy ↔ settings = s ∧ policy = p := by
  constructor
  · intro other
    obtain rfl := h.loads.iff.mp other.loads
    exact ⟨rfl, Except.ok.inj (other.accepts.symm.trans h.accepts)⟩
  · rintro ⟨rfl, rfl⟩
    exact h

theorem Surroundings.Ready.not_misconfigured (h : w.Ready s p) : ¬ w.Misconfigured := by
  rintro (unloadable | ⟨settings, f, loads, rejected⟩)
  · exact h.loads.not_unloadable unloadable
  · obtain rfl := h.loads.iff.mp loads
    cases h.accepts.symm.trans rejected

theorem Surroundings.Ready.admits_iff (h : w.Ready s p) :
    w.Admits package version ↔ ∃ report,
      (w.analyzer s).analyze package version = .answer report ∧
        ¬ (p.blockInstall = true ∧ report.score.value < p.scoreThreshold) := by
  simp [Admits, h.iff]

theorem Surroundings.Ready.checkFails_iff (h : w.Ready s p) {cause : String → Failure} :
    w.CheckFails package version cause ↔
      ∃ message, (w.analyzer s).FailsBecause package version (cause message) := by
  simp [CheckFails, h.iff]

theorem Surroundings.Loads.reports_iff (h : w.Loads s) :
    w.Reports package version ↔
      ∃ report, (w.analyzer s).analyze package version = .answer report := by
  simp [Reports, h.iff]

theorem Surroundings.Loads.analysisFails_iff (h : w.Loads s) {cause : String → Failure} :
    w.AnalysisFails package version cause ↔
      ∃ message, (w.analyzer s).FailsBecause package version (cause message) := by
  simp [AnalysisFails, h.iff]

theorem Analyzer.failsBecause_iff {a : Analyzer} {f cause : Failure}
    (failed : a.analyze package version = .done (.error f)) :
    a.FailsBecause package version cause ↔ ∃ packages, f = cause.wrappedIn packages := by
  rw [FailsBecause, failed]
  simp

theorem Analyzer.not_failsBecause {a : Analyzer} {report : AnalysisReport} {cause : Failure}
    (analyzed : a.analyze package version = .answer report) :
    ¬ a.FailsBecause package version cause := by
  rintro ⟨packages, failed⟩
  cases analyzed.symm.trans failed

end Gate

namespace Command

variable {w : Surroundings} {package version : String}

/-- What follows an analysis is left to its report; a failure is classified by its innermost
cause. -/
theorem classifies_withReport {a : Analyzer} {next : AnalysisReport → Outcome}
    {passes misconfigured unreachable : Prop} (steady : a.analyze package version ≠ .crashes)
    (reported : ∀ report, a.analyze package version = .answer report →
      (next report).Classifies passes misconfigured unreachable)
    (failed : ∀ f, a.analyze package version = .done (.error f) → ¬ passes ∧
      (misconfigured ↔ f.kind = .invalidConfiguration) ∧ (unreachable ↔ f.kind = .network)) :
    (withReport a package version next).Classifies passes misconfigured unreachable := by
  obtain ⟨result, analyzed⟩ := Analyzer.analyze_done steady
  rw [withReport, analyzed]
  cases result with
  | ok report => exact reported report analyzed
  | error f =>
    obtain ⟨stopped, configuration, network⟩ := failed f analyzed
    exact .of_failure rfl stopped configuration network

theorem loadSettings_ok {s : Settings} (loads : w.Loads s) : loadSettings w = .ok s := by
  rw [loadSettings, loads]
  rfl

theorem loadSettings_error {e : SettingsError}
    (failed : Settings.load w.global w.project = .error e) :
    loadSettings w = .error (.ofLoading e) ∧ (CommandError.ofLoading e).exit = 2 := by
  constructor
  · rw [loadSettings, failed]
    rfl
  · exact CommandError.exit_ofLoading (Settings.load_errors w.global w.project e failed)

/-- How the verdict on a report ends. -/
theorem exit_verdict (policy : InstallPolicy) (report : AnalysisReport) :
    (verdict policy report).exit =
      if policy.blockInstall = true ∧ report.score.value < policy.scoreThreshold then 1 else 0 := by
  simp only [verdict, InstallPolicy.blocks, Bool.and_eq_true, decide_eq_true_eq]
  split <;> rfl

/-- Nothing passes the check with settings or a policy that are rejected. -/
theorem preinstall_misconfigured {e : CommandError} (rejected : w.Misconfigured) (exit : e.exit = 2)
    (ends : preinstall w package version false = e.outcome) :
    (preinstall w package version false).Classifies (w.Admits package version)
      (w.Misconfigured ∨ w.CheckFails package version .invalidConfiguration)
      (w.CheckFails package version .network) := by
  rw [ends]
  refine .of_misconfigured exit ?_ (.inl rejected) ?_
  · rintro ⟨settings, policy, report, ready, -⟩
    exact ready.not_misconfigured rejected
  · rintro ⟨settings, policy, message, ready, -⟩
    exact ready.not_misconfigured rejected

/-- What passes the check with settings and a policy that are accepted. -/
theorem preinstall_ready {s : Settings} {p : InstallPolicy} (ready : w.Ready s p)
    (steady : (w.analyzer s).analyze package version ≠ .crashes) :
    (preinstall w package version false).Classifies (w.Admits package version)
      (w.Misconfigured ∨ w.CheckFails package version .invalidConfiguration)
      (w.CheckFails package version .network) := by
  have ends : preinstall w package version false =
      withReport (w.analyzer s) package version (verdict p) := by
    simp only [preinstall, loadSettings_ok ready.loads, ready.accepts, Bool.false_eq_true, if_false]
  rw [ends, ready.admits_iff, ready.checkFails_iff, ready.checkFails_iff]
  refine classifies_withReport steady ?_ ?_
  · intro report analyzed
    have clean (cause : Failure) : ¬ (w.analyzer s).FailsBecause package version cause :=
      Analyzer.not_failsBecause analyzed
    have configured : ¬ (w.Misconfigured ∨ ∃ message,
        (w.analyzer s).FailsBecause package version (.invalidConfiguration message)) := by
      simp [ready.not_misconfigured, clean]
    by_cases blocked : p.blockInstall = true ∧ report.score.value < p.scoreThreshold
    · refine .of_other (by rw [exit_verdict, if_pos blocked]) ?_ configured (by simp [clean])
      rintro ⟨other, same, passes⟩
      cases analyzed.symm.trans same
      exact passes blocked
    · exact .of_success (by rw [exit_verdict, if_neg blocked]) ⟨report, analyzed, blocked⟩
        configured (by simp [clean])
  · intro f failed
    simp only [Analyzer.failsBecause_iff failed, Failure.kind_eq_invalidConfiguration_iff,
      Failure.kind_eq_network_iff, ready.not_misconfigured, false_or]
    refine ⟨?_, exists_comm, exists_comm⟩
    rintro ⟨report, analyzed, -⟩
    cases failed.symm.trans analyzed

theorem preinstall_classifies
    (steady : ∀ settings, (w.analyzer settings).analyze package version ≠ .crashes) (force : Bool) :
    (preinstall w package version force).Classifies
      (force = true ∨ w.Admits package version)
      (force = false ∧ (w.Misconfigured ∨ w.CheckFails package version .invalidConfiguration))
      (force = false ∧ w.CheckFails package version .network) := by
  cases force with
  | true => exact .of_success rfl (.inl rfl) nofun nofun
  | false =>
    simp only [Bool.false_eq_true, false_or, true_and]
    cases loaded : Settings.load w.global w.project with
    | error e =>
      obtain ⟨rejected, exit⟩ := loadSettings_error loaded
      refine preinstall_misconfigured (.inl ⟨e, loaded⟩) exit ?_
      simp only [preinstall, rejected, Bool.false_eq_true, if_false]
    | ok s =>
      cases resolved : InstallPolicy.resolve s w.policy with
      | error f =>
        have blames := InstallPolicy.resolve_errors s _ f resolved
        have exit := CommandError.exit_of_configuration blames
        refine preinstall_misconfigured (.inr ⟨s, f, loaded, resolved⟩) exit ?_
        simp only [preinstall, loadSettings_ok loaded, resolved, Bool.false_eq_true, if_false]
      | ok p => exact preinstall_ready ⟨loaded, resolved⟩ (steady s)

theorem analyze_classifies
    (steady : ∀ settings, (w.analyzer settings).analyze package version ≠ .crashes)
    (form : ReportForm) :
    (analyze w package version form).Classifies (w.Reports package version)
      (w.Unloadable ∨ w.AnalysisFails package version .invalidConfiguration)
      (w.AnalysisFails package version .network) := by
  cases loaded : Settings.load w.global w.project with
  | error e =>
    obtain ⟨rejected, exit⟩ := loadSettings_error loaded
    have unloadable : w.Unloadable := ⟨e, loaded⟩
    simp only [analyze, rejected]
    refine .of_misconfigured exit ?_ (.inl unloadable) ?_
    · rintro ⟨settings, report, loads, -⟩
      exact loads.not_unloadable unloadable
    · rintro ⟨settings, message, loads, -⟩
      exact loads.not_unloadable unloadable
  | ok s =>
    have loads : w.Loads s := loaded
    rw [loads.reports_iff, loads.analysisFails_iff, loads.analysisFails_iff]
    simp only [analyze, loadSettings_ok loads]
    refine classifies_withReport (steady s) ?_ ?_
    · intro report analyzed
      have clean (cause : Failure) : ¬ (w.analyzer s).FailsBecause package version cause :=
        Analyzer.not_failsBecause analyzed
      refine .of_success rfl ⟨report, analyzed⟩ ?_ (by simp [clean])
      simp [loads.not_unloadable, clean]
    · intro f failed
      simp only [Analyzer.failsBecause_iff failed, Failure.kind_eq_invalidConfiguration_iff,
        Failure.kind_eq_network_iff, loads.not_unloadable, false_or]
      refine ⟨?_, exists_comm, exists_comm⟩
      rintro ⟨report, analyzed⟩
      cases failed.symm.trans analyzed

/-- The check before an installation fails closed. It lets a package pass exactly when it is forced,
or when the configuration files load, the policy is accepted, a report is made and the policy does
not block its score. Otherwise the status is that of the configuration if the files or the policy
are rejected or the analysis fails for the configuration, that of the network if it fails for the
network, and the general one in all other cases; what a cause is wrapped with plays no part. An
analysis by itself ends in the same ways, and successfully only with a report. -/
theorem gate_fails_closed (w : Surroundings) (package version : String)
    (steady : ∀ settings, (w.analyzer settings).analyze package version ≠ .crashes) :
    (∀ force, (invoke w (.preinstall package version force)).Classifies
      (force = true ∨ w.Admits package version)
      (force = false ∧ (w.Misconfigured ∨ w.CheckFails package version .invalidConfiguration))
      (force = false ∧ w.CheckFails package version .network)) ∧
    ∀ form, (invoke w (.analyze package version form)).Classifies
      (w.Reports package version)
      (w.Unloadable ∨ w.AnalysisFails package version .invalidConfiguration)
      (w.AnalysisFails package version .network) := by
  constructor
  · intro force
    exact preinstall_classifies steady force
  · intro form
    exact analyze_classifies steady form

/-- No configuration files, no policy, and a network that refuses every request. -/
def offline : Surroundings where
  global := none
  project := none
  policy := none
  analyzer := .online {} (fun _ => .error .refused) ⟨0, 0, 0⟩

/-- Without a network nothing passes unless it is forced. -/
theorem gate_fails_closed_offline :
    (∀ settings, (offline.analyzer settings).analyze "left-pad" "latest" ≠ .crashes) ∧
      (invoke offline (.preinstall "left-pad" "latest" false)).exit = 3 ∧
      (invoke offline (.preinstall "left-pad" "latest" true)).exit = 0 := by
  have steady (settings : Settings) :
      (offline.analyzer settings).analyze "left-pad" "latest" ≠ .crashes :=
    Analyzer.analyze_ne_crashes (Registry.responds_online _ _) _ _
  have check := (gate_fails_closed offline "left-pad" "latest" steady).1
  obtain ⟨message, failed⟩ : ∃ message, (offline.analyzer {}).analyze "left-pad" "latest" =
      .done (.error (.network message)) := ⟨_, rfl⟩
  have unreachable : offline.CheckFails "left-pad" "latest" .network :=
    ⟨{}, ⟨50, true⟩, message, ⟨rfl, rfl⟩, [], failed⟩
  refine ⟨steady, (check false).network.mpr ⟨rfl, unreachable⟩, ?_⟩
  exact (check true).success.mpr (.inl rfl)

end Command

end PackageRisk
