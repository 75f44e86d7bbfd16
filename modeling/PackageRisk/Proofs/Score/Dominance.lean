import PackageRisk.Proofs.Score.ClosedForm
import PackageRisk.Proofs.Walk.Deeper
import PackageRisk.Settings.Policy

/-!
# More evidence

One package has at least the evidence of another when everything that speaks against the other has
a counterpart that is no less serious. Every file is charged by itself, so each finding needs a
counterpart of its own; dependencies are counted by name and version, so several entries may share
one. No term of a score falls then, and none of the caps turns that round: the score does not rise,
and whatever a policy blocked stays blocked.
-/

namespace List

variable {α β : Type} {R : α → β → Prop} {xs : List α} {ys : List β}

theorem Forall₂.exists_of_mem (h : Forall₂ R xs ys) {x : α} (mem : x ∈ xs) : ∃ y ∈ ys, R x y := by
  induction h with
  | nil => exact absurd mem not_mem_nil
  | @cons first y xs ys related _ ih =>
    rcases mem_cons.mp mem with rfl | mem
    · exact ⟨y, mem_cons_self, related⟩
    · obtain ⟨y', mem', related'⟩ := ih mem
      exact ⟨y', mem_cons_of_mem y mem', related'⟩

end List

namespace PackageRisk

/-- The second finding is about the same file and shows everything that the first one shows. -/
structure FileFinding.Darkens (f g : FileFinding) : Prop where
  path : g.path = f.path
  malware : f.isKnownMalware = true → g.isKnownMalware = true
  filename : f.suspiciousFilename = true → g.suspiciousFilename = true
  obfuscated : f.obfuscated = true → g.obfuscated = true
  permissions : f.dangerousPermissions = true → g.dangerousPermissions = true
  categories : f.patterns.map (·.category) ⊆ g.patterns.map (·.category)
  issues : f.networkIssues ⊆ g.networkIssues

/-- The second metrics raise every signal that the first ones raise. An age that is still known is
no smaller than before, and it was known before. -/
structure Metrics.Darkens (m n : Metrics) : Prop where
  scripts : m.hasSuspiciousScripts = true → n.hasSuspiciousScripts = true
  execScripts : m.hasExecScripts = true → n.hasExecScripts = true
  dependencies : m.dependencyCount.total ≤ n.dependencyCount.total
  age : ∀ later, n.lastUpdateAgeDays = some later →
    ∃ days, m.lastUpdateAgeDays = some days ∧ days ≤ later
  lockFile : m.hasLockFile = false → n.hasLockFile = false

/-- The second input has at least the evidence of the first one. -/
structure ScoreInput.Darkens (x y : ScoreInput) : Prop where
  files : ∃ counterparts : List FileFinding, counterparts.Subperm y.files ∧
    List.Forall₂ FileFinding.Darkens x.files counterparts
  dependencies : ∀ e ∈ x.dependencies, ∃ f ∈ y.dependencies, e.Darkens f
  critical : x.advisories.critical.length ≤ y.advisories.critical.length
  serious : x.advisories.critical.length + x.advisories.high.length ≤
    y.advisories.critical.length + y.advisories.high.length
  metrics : x.metrics.Darkens y.metrics

namespace ScoreInput

variable {x y : ScoreInput} {f g : FileFinding} {m n : Metrics}

/-! ## Amounts -/

theorem filePoints_le (h : f.Darkens g) : filePoints f ≤ filePoints g := by
  have filename := toNat_le_of_imp h.filename
  have obfuscated := toNat_le_of_imp h.obfuscated
  have permissions := toNat_le_of_imp h.permissions
  have issues : (distinctIssues f).length ≤ (distinctIssues g).length := by
    rw [← card_networkIssues, ← card_networkIssues]
    refine Finset.card_le_card fun issue shown => ?_
    exact List.mem_toFinset.mpr (h.issues (List.mem_toFinset.mp shown))
  unfold filePoints
  omega

theorem metricCost_le (h : m.Darkens n) : metricCost m ≤ metricCost n := by
  have scripts := toNat_le_of_imp h.scripts
  have execScripts := toNat_le_of_imp h.execScripts
  have large : (decide (100 < m.dependencyCount.total)).toNat ≤
      (decide (100 < n.dependencyCount.total)).toNat := by
    refine toNat_le_of_imp fun large => ?_
    exact decide_eq_true (Nat.lt_of_lt_of_le (of_decide_eq_true large) h.dependencies)
  have stale : (m.lastUpdateAgeDays.all fun days => decide (365 < days)).toNat ≤
      (n.lastUpdateAgeDays.all fun days => decide (365 < days)).toNat := by
    refine toNat_le_of_imp fun stale => ?_
    cases later : n.lastUpdateAgeDays with
    | none => rfl
    | some age' =>
      obtain ⟨age, known, le⟩ := h.age age' later
      rw [known, Option.all_some, decide_eq_true_eq] at stale
      exact decide_eq_true (lt_of_lt_of_le stale le)
  have lockFile : (!m.hasLockFile).toNat ≤ (!n.hasLockFile).toNat :=
    toNat_le_of_imp (by simpa using h.lockFile)
  unfold metricCost
  omega

/-- Entries with counterparts that look no better cost at most as much. -/
theorem dependencyPoints_le_of_darkens {entries others : List DependencyEntry}
    (darkens : ∀ e ∈ entries, ∃ f ∈ others, e.Darkens f) :
    dependencyPoints entries ≤ dependencyPoints others := by
  apply dependencyPoints_le
  intro e he low
  obtain ⟨f, hf, darker⟩ := darkens e he
  obtain ⟨n, score, below⟩ := (Option.any_eq_true _ _).mp low
  obtain ⟨m, score', le⟩ := darker.score n score
  refine ⟨f, hf, darker.name, darker.version, ?_⟩
  rw [score', Option.any_some, decide_eq_true_eq]
  exact Nat.lt_of_le_of_lt le (of_decide_eq_true below)

/-- An entry that tells of malware has a counterpart that does. -/
theorem any_malwareDetected_of_darkens {entries others : List DependencyEntry}
    (darkens : ∀ e ∈ entries, ∃ f ∈ others, e.Darkens f)
    (malware : entries.any (·.malwareDetected) = true) :
    others.any (·.malwareDetected) = true := by
  obtain ⟨e, he, infected⟩ := List.any_eq_true.mp malware
  obtain ⟨f, hf, darker⟩ := darkens e he
  exact List.any_eq_true.mpr ⟨f, hf, darker.malware infected⟩

/-! ## Scores -/

theorem Darkens.exists_file (h : x.Darkens y) (mem : f ∈ x.files) :
    ∃ g ∈ y.files, f.Darkens g := by
  obtain ⟨counterparts, among, paired⟩ := h.files
  obtain ⟨g, hg, darker⟩ := paired.exists_of_mem mem
  exact ⟨g, among.subset hg, darker⟩

theorem Darkens.hasMalware (h : x.Darkens y) (malware : x.hasMalware = true) :
    y.hasMalware = true := by
  rcases (Bool.or_eq_true _ _).mp malware with file | dependency
  · obtain ⟨f, hf, known⟩ := List.any_eq_true.mp file
    obtain ⟨g, hg, darker⟩ := h.exists_file hf
    exact Bool.or_eq_true_iff.mpr (.inl (List.any_eq_true.mpr ⟨g, hg, darker.malware known⟩))
  · exact Bool.or_eq_true_iff.mpr (.inr (any_malwareDetected_of_darkens h.dependencies dependency))

theorem Darkens.advisoryPoints_le (h : x.Darkens y) :
    advisoryPoints x.advisories ≤ advisoryPoints y.advisories := by
  -- A critical advisory costs as much as a high one and ten points more.
  have critical := h.critical
  have serious := h.serious
  unfold advisoryPoints
  omega

theorem Darkens.patternPoints_le (h : x.Darkens y) :
    patternPoints x.files ≤ patternPoints y.files := by
  refine ScoreInput.patternPoints_le fun c found => ?_
  obtain ⟨f, hf, shows⟩ := List.any_eq_true.mp found
  obtain ⟨p, hp, category⟩ := List.any_eq_true.mp shows
  obtain ⟨g, hg, darker⟩ := h.exists_file hf
  obtain ⟨q, hq, same⟩ := List.mem_map.mp (darker.categories (List.mem_map_of_mem hp))
  refine List.any_eq_true.mpr ⟨g, hg, List.any_eq_true.mpr ⟨q, hq, ?_⟩⟩
  rw [same]
  exact category

theorem Darkens.filePoints_le (h : x.Darkens y) :
    (x.files.map filePoints).sum ≤ (y.files.map filePoints).sum := by
  obtain ⟨counterparts, among, paired⟩ := h.files
  have each : List.Forall₂ (· ≤ ·) (x.files.map filePoints) (counterparts.map filePoints) := by
    rw [List.forall₂_map_left_iff, List.forall₂_map_right_iff]
    exact paired.imp fun _ _ => ScoreInput.filePoints_le
  calc (x.files.map filePoints).sum
      ≤ (counterparts.map filePoints).sum := each.sum_le_sum
    _ ≤ (y.files.map filePoints).sum := sum_map_le_of_subperm filePoints among

theorem Darkens.costsLess (h : x.Darkens y) : CostsLess x y where
  advisories := h.advisoryPoints_le
  metrics := by
    rw [totalPoints_metricDeductions, totalPoints_metricDeductions]
    exact metricCost_le h.metrics
  patterns := h.patternPoints_le
  files := h.filePoints_le
  dependencies := dependencyPoints_le_of_darkens h.dependencies

/-- More evidence never raises a score, never hides malware, and never gets a package past an
install policy that blocked it. -/
theorem score_le_of_darkens (x y : ScoreInput) (h : x.Darkens y) :
    y.score.value ≤ x.score.value ∧
      (x.score.malwareDetected = true → y.score.malwareDetected = true) ∧
      ∀ p : InstallPolicy, p.blocks x.score.value = true → p.blocks y.score.value = true := by
  obtain ⟨value, malware⟩ := score_le h.hasMalware fun _ => h.costsLess
  refine ⟨value, malware, fun p blocked => ?_⟩
  simp only [InstallPolicy.blocks, Bool.and_eq_true, decide_eq_true_eq] at blocked ⊢
  exact ⟨blocked.1, Nat.lt_of_le_of_lt value blocked.2⟩

/-- What a first look at a package finds. -/
def glance : ScoreInput where
  metrics := { hasLockFile := true, lastUpdateAgeDays := some 10 }
  advisories := { high := [{ id := "GHSA-1", title := "", severity := .high }] }
  files := [{ path := "index.js", networkIssues := [.socketConnection] }]
  dependencies := [⟨"lib", "1.0.0", 1, .production, some 40, false, none, none⟩,
    ⟨"lib", "1.0.0", 2, .peer, none, false, none, none⟩]

/-- A closer look: the advisory has become critical, the file is obfuscated, the script beside it is
new, and nobody knows how old the release is. -/
def closerLook : ScoreInput where
  metrics := { hasLockFile := true }
  advisories := { critical := [{ id := "GHSA-1", title := "", severity := .critical }] }
  files := [{ path := "setup.js", suspiciousFilename := true },
    { path := "index.js", obfuscated := true
      networkIssues := [.envExfiltration, .socketConnection] }]
  dependencies := [⟨"lib", "1.0.0", 1, .production, some 20, false, none, none⟩]

/-- Both entries of the first look have their counterpart in the only one of the second. -/
theorem score_le_of_darkens_closerLook : glance.Darkens closerLook ∧
    closerLook.score.value ≤ glance.score.value ∧
    (glance.score.malwareDetected = true → closerLook.score.malwareDetected = true) ∧
    ∀ p : InstallPolicy, p.blocks glance.score.value = true →
      p.blocks closerLook.score.value = true := by
  have darkens : glance.Darkens closerLook := {
    files := by
      refine ⟨_, (List.sublist_cons_self _ _).subperm, .cons ?_ .nil⟩
      constructor <;> simp
    dependencies := by
      intro e he
      refine ⟨_, List.mem_cons_self, ?_⟩
      rcases List.mem_cons.mp he with rfl | he
      · constructor <;> simp
      · rcases List.mem_cons.mp he with rfl | he
        · constructor <;> simp
        · exact absurd he List.not_mem_nil
    critical := by decide
    serious := by decide
    metrics := by constructor <;> simp [glance, closerLook] }
  exact ⟨darkens, score_le_of_darkens glance closerLook darkens⟩

end ScoreInput

end PackageRisk
