import OpenShell.Prover.Witness

/-!
# Containment composes

If `B` is within `A` and `C` is within `B`, is `C` within `A`? Process identity,
Landlock and filesystem answers compose, and so does what the solver proves about
the network. The one way to the contrary is a request the prover tries on its
own at port zero, outside the domain the solver is asked about:
`checkWithinBoundary_composes_iff`. A policy is never beyond itself.
-/

namespace OpenShell.Prover

open OpenShell.Core OpenShell.Schema

variable {glob : Glob} {A B C : ContainmentPolicy}

/-- A result that settles nothing. -/
def CheckResult.gaveUp : CheckResult → Bool
  | .unsupported _ _ => true
  | .inconclusive _ _ => true
  | _ => false

variable {result : CheckResult}

theorem CheckResult.isExceeds_of_gaveUp (h : result.gaveUp = true) :
    result.isExceeds = false := by
  cases result <;> first | rfl | cases h

theorem CheckResult.ne_within_of_gaveUp (h : result.gaveUp = true) :
    result ≠ .within := by
  rintro rfl
  cases h

theorem CheckResult.ne_within_of_isExceeds (h : result.isExceeds = true) :
    result ≠ .within := by
  rintro rfl
  cases h

/-! ## Process and Landlock -/

/-- Identities the prover takes for the same one. -/
def SameIdentity (a b : String) : Prop := a = b ∨ (isRoot a = true ∧ isRoot b = true)

variable {a b : String}

theorem SameIdentity.trans {c : String} (hab : SameIdentity a b) (hbc : SameIdentity b c) :
    SameIdentity a c := by
  unfold SameIdentity at *
  grind

theorem identityChange_eq_none_iff (field : String) :
    identityChange field a b = none ↔ SameIdentity a b := by
  unfold identityChange SameIdentity
  split
  next h => simpa using h
  next h =>
    split
    all_goals simpa using h

theorem executionCheck_eq_none_iff :
    executionCheck A B = none ↔
      SameIdentity (runAsUser A) (runAsUser B) ∧ SameIdentity (runAsGroup A) (runAsGroup B) ∧
        (hardRequirement A = true → hardRequirement B = true) := by
  rw [← identityChange_eq_none_iff "run_as_user",
    ← identityChange_eq_none_iff "run_as_group"]
  unfold executionCheck
  generalize identityChange "run_as_user" (runAsUser A) (runAsUser B) = user
  generalize identityChange "run_as_group" (runAsGroup A) (runAsGroup B) = group
  cases user with
  | some result =>
    cases group <;> simp only [Option.any_some, Option.any_none, Option.some_or] <;>
      split_ifs <;> simp_all
  | none =>
    cases group with
    | some result =>
      simp only [Option.any_none, Option.any_some, Bool.false_eq_true, if_false, Option.none_or]
      split_ifs <;> simp
    | none => cases hardRequirement A <;> cases hardRequirement B <;> simp

theorem executionCheck_ne_within : executionCheck A B ≠ some .within := by
  have hne : ∀ field a b, identityChange field a b ≠ some .within := by
    intro field a b
    unfold identityChange
    split_ifs <;> simp
  have huser := hne "run_as_user" (runAsUser A) (runAsUser B)
  have hgroup := hne "run_as_group" (runAsGroup A) (runAsGroup B)
  unfold executionCheck
  generalize identityChange "run_as_user" (runAsUser A) (runAsUser B) = user at *
  generalize identityChange "run_as_group" (runAsGroup A) (runAsGroup B) = group at *
  dsimp only
  split_ifs
  · exact huser
  · exact hgroup
  · simp
  · cases user with
    | none => exact hgroup
    | some result => exact huser

theorem executionCheck_self : executionCheck A A = none :=
  executionCheck_eq_none_iff.mpr ⟨Or.inl rfl, Or.inl rfl, id⟩

theorem executionCheck_trans (hAB : executionCheck A B = none) (hBC : executionCheck B C = none) :
    executionCheck A C = none := by
  obtain ⟨huser, hgroup, hhard⟩ := executionCheck_eq_none_iff.mp hAB
  obtain ⟨huser', hgroup', hhard'⟩ := executionCheck_eq_none_iff.mp hBC
  exact executionCheck_eq_none_iff.mpr
    ⟨huser.trans huser', hgroup.trans hgroup', fun h => hhard' (hhard h)⟩

/-! ## Filesystem -/

/-- What one turn of the loop over paths can do. -/
theorem checkPath_cases (access : FilesystemAccess) (maxima : List String)
    (unresolved : Option CheckResult) (path : String) :
    (pathIsCovered path maxima = true ∧
        checkPath access maxima unresolved path = .ok unresolved) ∨
      (pathIsCovered path maxima = false ∧ maxima = [] ∧
        checkPath access maxima unresolved path = .error (.exceeds (.filesystem access path))) ∨
      (pathIsCovered path maxima = false ∧
        ∃ code reason,
          checkPath access maxima unresolved path = .ok (some (.unsupported code reason))) := by
  unfold checkPath
  cases pathIsCovered path maxima with
  | true => exact Or.inl ⟨rfl, rfl⟩
  | false =>
    cases maxima with
    | nil => exact Or.inr (Or.inl ⟨rfl, rfl, rfl⟩)
    | cons => exact Or.inr (Or.inr ⟨rfl, _, _, rfl⟩)

variable {access : FilesystemAccess} {maxima : List String}

theorem foldlM_checkPath_eq_ok :
    ∀ {paths : List String} {unresolved : Option CheckResult},
      paths.foldlM (checkPath access maxima) unresolved = .ok none ↔
        unresolved = none ∧ ∀ path ∈ paths, pathIsCovered path maxima = true := by
  intro paths
  induction paths with
  | nil => simp [pure, Except.pure]
  | cons path paths ih =>
    intro unresolved
    rw [List.foldlM_cons]
    obtain ⟨hcovered, hstep⟩ | ⟨hcovered, -, hstep⟩ | ⟨hcovered, code, reason, hstep⟩ :=
      checkPath_cases access maxima unresolved path
    · rw [hstep]
      show paths.foldlM (checkPath access maxima) unresolved = .ok none ↔ _
      simp [ih, hcovered]
    · simp [hstep, bind, Except.bind, hcovered]
    · rw [hstep]
      show paths.foldlM (checkPath access maxima) (some _) = .ok none ↔ _
      simp [ih, hcovered]

variable {paths : List String}

/-- An early return found a boundary that grants nothing. -/
theorem of_foldlM_checkPath_eq_error {unresolved : Option CheckResult}
    (h : paths.foldlM (checkPath access maxima) unresolved = .error result) :
    result.isExceeds = true ∧ maxima = [] ∧ paths ≠ [] := by
  obtain ⟨before, path, after, next, rfl, -, herror⟩ := foldlM_eq_error h
  obtain ⟨-, hstep⟩ | ⟨-, hempty, hstep⟩ | ⟨-, code, reason, hstep⟩ :=
    checkPath_cases access maxima next path
  · cases hstep.symm.trans herror
  · cases hstep.symm.trans herror
    exact ⟨rfl, hempty, by simp⟩
  · cases hstep.symm.trans herror

/-- What is carried from path to path settles nothing. -/
theorem gaveUp_of_foldlM_checkPath {unresolved unresolved' : Option CheckResult}
    (h : paths.foldlM (checkPath access maxima) unresolved = .ok unresolved')
    (hunresolved : unresolved.all (·.gaveUp) = true) : unresolved'.all (·.gaveUp) = true := by
  refine foldlM_invariant (I := fun unresolved => unresolved.all (·.gaveUp) = true)
    (fun {st path st'} _ hst hround => ?_)
    h hunresolved
  obtain ⟨-, hstep⟩ | ⟨-, -, hstep⟩ | ⟨-, code, reason, hstep⟩ :=
    checkPath_cases access maxima st path
  · exact Except.ok.inj (hstep.symm.trans hround) ▸ hst
  · cases hstep.symm.trans hround
  · exact Except.ok.inj (hstep.symm.trans hround) ▸ rfl

theorem checkFilesystem_eq_none_iff :
    checkFilesystem A B = none ↔
      (∀ path ∈ B.filesystemPolicy.readWrite, pathIsCovered path (writeMaxima A) = true) ∧
        ∀ path ∈ B.filesystemPolicy.readOnly, pathIsCovered path (readMaxima A) = true := by
  constructor
  · intro h
    unfold checkFilesystem at h
    dsimp only at h
    split at h
    next => cases h
    next unresolved hrun =>
      obtain rfl := h
      obtain ⟨writes, hwrites, hreads⟩ := bind_eq_ok hrun
      obtain ⟨rfl, hreads'⟩ := foldlM_checkPath_eq_ok.mp hreads
      exact ⟨(foldlM_checkPath_eq_ok.mp hwrites).2, hreads'⟩
  · rintro ⟨hwrites, hreads⟩
    exact checkFilesystem_of_ok (foldlM_checkPath_eq_ok.mpr ⟨rfl, hwrites⟩)
      (foldlM_checkPath_eq_ok.mpr ⟨rfl, hreads⟩)

/-- A finding settles nothing, unless the boundary grants nothing at all. -/
theorem checkFilesystem_eq_some (h : checkFilesystem A B = some result) :
    result.gaveUp = true ∨ (result.isExceeds = true ∧
      ((writeMaxima A = [] ∧ B.filesystemPolicy.readWrite ≠ []) ∨
        (readMaxima A = [] ∧ B.filesystemPolicy.readOnly ≠ []))) := by
  cases hwrites : B.filesystemPolicy.readWrite.foldlM (checkPath .write (writeMaxima A)) none with
  | error early =>
    unfold checkFilesystem at h
    dsimp only at h
    rw [hwrites] at h
    cases h
    obtain ⟨hexceeds, hempty⟩ := of_foldlM_checkPath_eq_error hwrites
    exact Or.inr ⟨hexceeds, Or.inl hempty⟩
  | ok writes =>
    cases hreads : B.filesystemPolicy.readOnly.foldlM (checkPath .read (readMaxima A)) writes with
    | error early =>
      simp only [checkFilesystem, hwrites, hreads, bind, Except.bind] at h
      cases h
      obtain ⟨hexceeds, hempty⟩ := of_foldlM_checkPath_eq_error hreads
      exact Or.inr ⟨hexceeds, Or.inr hempty⟩
    | ok unresolved =>
      rw [checkFilesystem_of_ok hwrites hreads] at h
      have hgaveUp := gaveUp_of_foldlM_checkPath hreads (gaveUp_of_foldlM_checkPath hwrites rfl)
      rw [h] at hgaveUp
      exact Or.inl hgaveUp

theorem pathIsCovered_of_mem {path : String} (h : path ∈ paths) :
    pathIsCovered path paths = true :=
  List.any_eq_true.mpr ⟨path, h, by simp⟩

theorem checkFilesystem_self : checkFilesystem A A = none :=
  checkFilesystem_eq_none_iff.mpr
    ⟨fun _ hpath => pathIsCovered_of_mem (List.mem_append_left _ hpath),
      fun _ hpath => pathIsCovered_of_mem (List.mem_append_left _ hpath)⟩

/-- A path covered by nothing is no path. -/
theorem eq_nil_of_covered
    (h : ∀ path ∈ paths, pathIsCovered path [] = true) : paths = [] := by
  cases paths with
  | nil => rfl
  | cons path paths => exact absurd (h path List.mem_cons_self) (by simp [pathIsCovered])

section
variable (hworkdir : unresolvedWorkdirReason A B = none)
include hworkdir

/-- A boundary that lets nothing be written passes that on. -/
theorem writeMaxima_eq_nil (hfiles : checkFilesystem A B = none) (h : writeMaxima A = []) :
    writeMaxima B = [] := by
  have hwrites := (checkFilesystem_eq_none_iff.mp hfiles).1
  rw [h] at hwrites
  obtain ⟨hnone, hinclude⟩ := List.append_eq_nil_iff.mp h
  have hA : A.filesystemPolicy.includeWorkdir = false := by
    by_contra hne
    simp [hne] at hinclude
  have hB : B.filesystemPolicy.includeWorkdir = false := by
    by_contra hne
    simp [unresolvedWorkdirReason, hne, hA, hnone] at hworkdir
  unfold writeMaxima
  rw [eq_nil_of_covered hwrites, hB]
  rfl

theorem readMaxima_eq_nil (hfiles : checkFilesystem A B = none) (h : readMaxima A = []) :
    readMaxima B = [] := by
  have hreads := (checkFilesystem_eq_none_iff.mp hfiles).2
  rw [h] at hreads
  have hwrites := writeMaxima_eq_nil hworkdir hfiles (List.append_eq_nil_iff.mp h).2
  rw [readMaxima, eq_nil_of_covered hreads, hwrites]
  rfl

theorem checkFilesystem_trans (hAB : checkFilesystem A B = none)
    (hBC : checkFilesystem B C = none) :
    (checkFilesystem A C).any (·.isExceeds) = false := by
  cases hAC : checkFilesystem A C with
  | none => rfl
  | some result =>
    obtain ⟨hwrites, hreads⟩ := checkFilesystem_eq_none_iff.mp hBC
    obtain hgaveUp | ⟨-, ⟨hempty, hne⟩ | ⟨hempty, hne⟩⟩ := checkFilesystem_eq_some hAC
    · exact CheckResult.isExceeds_of_gaveUp hgaveUp
    · rw [writeMaxima_eq_nil hworkdir hAB hempty] at hwrites
      exact absurd (eq_nil_of_covered hwrites) hne
    · rw [readMaxima_eq_nil hworkdir hAB hempty] at hreads
      exact absurd (eq_nil_of_covered hreads) hne

end

/-! ## Network -/

section
variable {z z' : Simplifier} {mode : Bool} {witness : NetworkWitness}

theorem NetworkContained.refl (glob : Glob) (z : Simplifier) (A : ContainmentPolicy) (mode : Bool) :
    NetworkContained glob z A A mode := fun _ _ h => h

theorem NetworkContained.trans (hAB : NetworkContained glob z A B mode)
    (hBC : NetworkContained glob z B C mode) : NetworkContained glob z A C mode :=
  fun action hdomain h => hAB action hdomain (hBC action hdomain h)

theorem NetworkContained.simplifier (h : NetworkContained glob z A B mode) (z' : Simplifier) :
    NetworkContained glob z' A B mode := by
  intro action hdomain hallows
  rw [policyAllows_simplifier glob z' z] at hallows ⊢
  exact h action hdomain hallows

/-- A request of the candidate's at port zero that the boundary refuses. -/
def ZeroPortWitness (glob : Glob) (z : Simplifier) (boundary candidate : ContainmentPolicy)
    (mode : Bool) : Prop :=
  ∃ witness ∈ concreteWitnesses candidate mode, witness.port = 0 ∧
    policyAllows glob z candidate witness.action mode = true ∧
    policyAllows glob z boundary witness.action mode = false

theorem ZeroPortWitness.simplifier (h : ZeroPortWitness glob z A C mode) (z' : Simplifier) :
    ZeroPortWitness glob z' A C mode := by
  obtain ⟨witness, hmem, hport, hallows, hrefuses⟩ := h
  rw [policyAllows_simplifier glob z z'] at hallows hrefuses
  exact ⟨witness, hmem, hport, hallows, hrefuses⟩

theorem networkContained_of_solveNetworkMode {solver : Solver glob}
    (hA : validateSupportedPolicy A = .ok ()) (hB : validateSupportedPolicy B = .ok ())
    (h : solveNetworkMode solver A B mode = .within) :
    NetworkContained glob solver.toSimplifier A B mode := by
  unfold solveNetworkMode at h
  split at h
  next hstructural => exact fun _ _ => policyAllows_of_structural hA hB hstructural
  next =>
    split at h
    next => cases h
    next =>
      split at h
      next => cases h
      next hunsat => exact solver.unsat_sound _ _ _ hunsat
      next => cases h
      next => split at h <;> cases h

/-- A confirmed request is one the candidate allows and the boundary refuses. -/
theorem of_counterexampleSatisfiesPredicate {solver : Solver glob}
    (h : counterexampleSatisfiesPredicate solver A C witness = true) :
    policyAllows glob solver.toSimplifier C witness.action witness.binaryIdentityRequired = true ∧
      policyAllows glob solver.toSimplifier A witness.action witness.binaryIdentityRequired =
        false := by
  have hground := solver.ground_sound _ _ _ _ _ (eq_of_beq h)
  simpa using hground

/-- For a contained candidate, a reported request can only be one at port zero. -/
theorem zeroPortWitness_of_solveNetworkMode (solver : Solver glob)
    (hlimits : resourceLimitReason A C = none) (hC : validateSupportedPolicy C = .ok ())
    (hcontained : NetworkContained glob solver.toSimplifier A C mode)
    (h : solveNetworkMode solver A C mode = .exceeds witness) :
    ZeroPortWitness glob solver.toSimplifier A C mode := by
  unfold solveNetworkMode at h
  obtain ⟨-, h⟩ := else_of_ite h nofun
  split at h
  next found hfound =>
    have hmem := List.mem_of_find?_eq_some hfound
    obtain ⟨hallows, hrefuses⟩ :=
      of_counterexampleSatisfiesPredicate (List.find?_some hfound)
    obtain ⟨rfl, hdomain⟩ := actionDomain_of_concreteWitness hlimits hC hmem
    refine ⟨found, hmem, ?_, hallows, hrefuses⟩
    by_contra hport
    rw [hcontained _ (hdomain hport) hallows] at hrefuses
    cases hrefuses
  next =>
    split at h
    next => cases h
    next => cases h
    next => cases h
    next model hsat =>
      split at h
      next => cases h
      next found hfound =>
        exfalso
        obtain ⟨hmodel, hconfirmed⟩ := Option.filter_eq_some_iff.mp hfound
        obtain ⟨action, rfl, haction⟩ := Option.bind_eq_some_iff.mp hmodel
        obtain ⟨hdomain, -, -⟩ := solver.sat_sound _ _ _ _ hsat
        obtain ⟨rfl, hdomain⟩ := actionDomain_of_counterexampleFromModel haction hdomain
        obtain ⟨hallows, hrefuses⟩ := of_counterexampleSatisfiesPredicate hconfirmed
        rw [hcontained _ hdomain hallows] at hrefuses
        cases hrefuses

end

/-! ## A solver that decides -/

/-- The simplifier that decides every membership test. -/
def Simplifier.exact : Simplifier where
  simplify text regex := some (regexMatches text regex)
  sound _ _ _ h := Option.some.inj h

open Classical in
/-- A solver that refutes every query it can, and decides every closed formula. -/
noncomputable def Solver.exact (glob : Glob) : Solver glob where
  toSimplifier := .exact
  ground boundary candidate action mode :=
    some (policyAllows glob .exact candidate action mode &&
      !policyAllows glob .exact boundary action mode)
  ground_sound _ _ _ _ _ h := Option.some.inj h
  query boundary candidate mode :=
    if NetworkContained glob .exact boundary candidate mode then .unsat else .unknown none
  unsat_sound boundary candidate mode h := by
    by_contra hne
    rw [if_neg hne] at h
    cases h
  sat_sound boundary candidate mode action h := by
    split at h <;> cases h

section
variable {mode : Bool}

theorem solveNetworkMode_exact_of_zeroPortWitness (hA : validateSupportedPolicy A = .ok ())
    (hC : validateSupportedPolicy C = .ok ()) (hlimits : resourceLimitReason A C = none)
    (h : ZeroPortWitness glob .exact A C mode) :
    ∃ witness, solveNetworkMode (.exact glob) A C mode = .exceeds witness := by
  obtain ⟨witness, hmem, -, hallows, hrefuses⟩ := h
  unfold solveNetworkMode
  split
  next hstructural =>
    rw [policyAllows_of_structural hA hC hstructural hallows] at hrefuses
    cases hrefuses
  next =>
    obtain ⟨rfl, -⟩ := actionDomain_of_concreteWitness hlimits hC hmem
    have hconfirmed : counterexampleSatisfiesPredicate (.exact glob) A C witness = true := by
      simp [counterexampleSatisfiesPredicate, Solver.exact, hallows, hrefuses]
    cases hfound : concreteNetworkWitness (.exact glob) A C witness.binaryIdentityRequired with
    | some found => exact ⟨found, rfl⟩
    | none =>
      have hnone := List.find?_eq_none.mp hfound witness hmem
      exact absurd hconfirmed hnone

theorem solveNetworkMode_exact_of_contained (h : NetworkContained glob .exact A C mode) :
    solveNetworkMode (.exact glob) A C mode = .within ∨
      ∃ witness, solveNetworkMode (.exact glob) A C mode = .exceeds witness := by
  unfold solveNetworkMode
  split
  next => exact Or.inl rfl
  next =>
    cases concreteNetworkWitness (.exact glob) A C mode with
    | some found => exact Or.inr ⟨found, rfl⟩
    | none =>
      have hquery : (Solver.exact glob).query A C mode = .unsat := if_pos h
      rw [hquery]
      exact Or.inl rfl

end

/-! ## The whole check -/

variable {mode : Bool}

section
variable {solver : Solver glob} {timeout : Nat}

theorem preflight_eq_none_iff :
    preflightAndValidatePolicies A B timeout = none ↔
      resourceLimitReason A B = none ∧ timeout ≠ 0 ∧ validateSupportedPolicy A = .ok () ∧
        validateSupportedPolicy B = .ok () := by
  unfold preflightAndValidatePolicies
  cases resourceLimitReason A B with
  | some reason => simp
  | none =>
    by_cases htimeout : timeout = 0
    · simp [htimeout]
    · cases validateSupportedPolicy A <;> cases validateSupportedPolicy B <;> simp [htimeout]

/-- The preliminary checks settle nothing. -/
theorem preflight_gaveUp (h : preflightAndValidatePolicies A B timeout = some result) :
    result.gaveUp = true := by
  unfold preflightAndValidatePolicies at h
  split at h
  next =>
    cases h
    rfl
  next =>
    split at h
    next =>
      cases h
      rfl
    next =>
      split at h
      next => exact (Option.some.inj h) ▸ rfl
      next => exact (Option.some.inj h) ▸ rfl
      next => cases h

theorem gaveUp_of_solveNetworkMode
    (h : solveNetworkMode solver A B mode = .incomplete result) : result.gaveUp = true := by
  unfold solveNetworkMode at h
  obtain ⟨-, h⟩ := else_of_ite h nofun
  split at h
  next => cases h
  next =>
    split at h
    next => exact (NetworkSolve.incomplete.inj h) ▸ rfl
    next => cases h
    next => exact (NetworkSolve.incomplete.inj h) ▸ rfl
    next =>
      split at h
      next => exact (NetworkSolve.incomplete.inj h) ▸ rfl
      next => cases h

/-- The loop over the modes ends early without an answer or with a violation, and
goes through when both modes are within. -/
theorem checkModes_cases (solver : Solver glob) (A B : ContainmentPolicy) (modes : List Bool) :
    (∃ result, checkModes solver A B modes = some result ∧ result.gaveUp = true) ∨
      (∃ mode ∈ modes, (mode = true → hasAmbiguousCandidateBinaryPath glob A B = false) ∧
        ∃ witness, solveNetworkMode solver A B mode = .exceeds witness ∧
          checkModes solver A B modes = some (.exceeds (.network witness))) ∨
      (checkModes solver A B modes = none ∧
        ∀ mode ∈ modes, solveNetworkMode solver A B mode = .within) := by
  induction modes with
  | nil => exact Or.inr (Or.inr ⟨rfl, by simp⟩)
  | cons mode modes ih =>
    rw [checkModes]
    split
    next => exact Or.inl ⟨_, rfl, rfl⟩
    next hambiguous =>
      have hmode : mode = true → hasAmbiguousCandidateBinaryPath glob A B = false := by
        rintro rfl
        simpa using hambiguous
      cases hsolve : solveNetworkMode solver A B mode with
      | within =>
        obtain hgaveUp | ⟨mode', hmem, hwitness⟩ | ⟨hnone, hall⟩ := ih
        · exact Or.inl hgaveUp
        · exact Or.inr (Or.inl ⟨mode', List.mem_cons_of_mem _ hmem, hwitness⟩)
        · exact Or.inr (Or.inr ⟨hnone, by simpa [hsolve] using hall⟩)
      | exceeds witness =>
        exact Or.inr (Or.inl ⟨mode, List.mem_cons_self, hmode, witness, hsolve, rfl⟩)
      | incomplete result => exact Or.inl ⟨result, rfl, gaveUp_of_solveNetworkMode hsolve⟩

/-- What a completed check has established. -/
structure WithinFacts (glob : Glob) (timeout : Nat) (A B : ContainmentPolicy) : Prop where
  boundary : validateSupportedPolicy A = .ok ()
  candidate : validateSupportedPolicy B = .ok ()
  timeout_ne : timeout ≠ 0
  workdir : unresolvedWorkdirReason A B = none
  execution : executionCheck A B = none
  filesystem : checkFilesystem A B = none
  network : ∀ z mode, NetworkContained glob z A B mode

theorem withinFacts_of_checkWithinBoundary (h : checkWithinBoundary solver timeout A B = .within) :
    WithinFacts glob timeout A B := by
  unfold checkWithinBoundary at h
  split at h
  next result hpreflight =>
    exact absurd h (CheckResult.ne_within_of_gaveUp (preflight_gaveUp hpreflight))
  next hpreflight =>
  obtain ⟨-, htimeout, hA, hB⟩ := preflight_eq_none_iff.mp hpreflight
  split at h
  next => cases h
  next hworkdir =>
  split at h
  next result hexecution =>
    exact absurd h (CheckResult.ne_within_of_isExceeds (Option.filter_eq_some_iff.mp hexecution).2)
  next =>
  split at h
  next heq =>
    subst heq
    exact ⟨hA, hB, htimeout, hworkdir, executionCheck_self, checkFilesystem_self,
      fun z mode => .refl glob z A mode⟩
  next =>
  split at h
  next result hfilesystem =>
    exact absurd h (CheckResult.ne_within_of_isExceeds (Option.filter_eq_some_iff.mp hfilesystem).2)
  next hfilesystem =>
  obtain ⟨result, hmodes, hgaveUp⟩ | ⟨-, -, -, witness, -, hmodes⟩ | ⟨hmodes, hall⟩ :=
    checkModes_cases solver A B [false, true]
  · rw [hmodes] at h
    exact absurd h (CheckResult.ne_within_of_gaveUp hgaveUp)
  · rw [hmodes] at h
    cases h
  · rw [hmodes] at h
    dsimp only at h
    obtain ⟨-, h⟩ := else_of_ite h nofun
    -- neither part left a finding behind
    have hexecution : executionCheck A B = none := by
      cases hresult : executionCheck A B with
      | none => rfl
      | some result =>
        rw [hresult] at h
        exact absurd (hresult.trans (congrArg some h)) executionCheck_ne_within
    rw [hexecution] at h
    refine ⟨hA, hB, htimeout, hworkdir, hexecution, ?_, fun z mode => ?_⟩
    · cases hresult : checkFilesystem A B with
      | none => rfl
      | some result =>
        rw [hresult] at h
        obtain hgaveUp | ⟨hexceeds, -⟩ := checkFilesystem_eq_some hresult
        · exact absurd h (CheckResult.ne_within_of_gaveUp hgaveUp)
        · exact absurd h (CheckResult.ne_within_of_isExceeds hexceeds)
    · have hsolve := hall mode (by cases mode <;> simp)
      exact (networkContained_of_solveNetworkMode hA hB hsolve).simplifier z

/-- Beyond the checks that compose, a violation can only come from the network. -/
theorem isExceeds_checkWithinBoundary (hexecution : executionCheck A C = none)
    (hfilesystem : (checkFilesystem A C).any (·.isExceeds) = false) :
    (checkWithinBoundary solver timeout A C).isExceeds = true ↔
      preflightAndValidatePolicies A C timeout = none ∧ unresolvedWorkdirReason A C = none ∧
        A ≠ C ∧ (checkModes solver A C [false, true]).any (·.isExceeds) = true := by
  have hfilter : (checkFilesystem A C).filter (·.isExceeds) = none := by
    cases hresult : checkFilesystem A C with
    | none => rfl
    | some result =>
      rw [hresult] at hfilesystem
      exact Option.filter_eq_none_iff.mpr (by simpa using hfilesystem)
  unfold checkWithinBoundary
  rw [hexecution, hfilter]
  cases hpreflight : preflightAndValidatePolicies A C timeout with
  | some result => simp [CheckResult.isExceeds_of_gaveUp (preflight_gaveUp hpreflight)]
  | none =>
    cases unresolvedWorkdirReason A C with
    | some reason => simp [CheckResult.isExceeds]
    | none =>
      by_cases heq : A = C
      · simp [heq, CheckResult.isExceeds]
      · cases checkModes solver A C [false, true] with
        | some result => simp [heq]
        | none =>
          simp only [Option.filter_none, if_neg heq, Option.none_or, Option.any_none,
            Bool.false_eq_true, and_false, iff_false]
          split
          next => simp [CheckResult.isExceeds]
          next =>
            cases hresult : checkFilesystem A C with
            | none => simp [CheckResult.isExceeds]
            | some result =>
              rw [hresult] at hfilesystem
              simpa using hfilesystem

/-- The deciding solver reports a request at port zero in the mode it is reached. -/
theorem checkModes_exact_isExceeds (hA : validateSupportedPolicy A = .ok ())
    (hC : validateSupportedPolicy C = .ok ()) (hlimits : resourceLimitReason A C = none)
    (hcontained : NetworkContained glob .exact A C false)
    (hwitness : ZeroPortWitness glob .exact A C mode)
    (hmode : mode = true → hasAmbiguousCandidateBinaryPath glob A C = false) :
    (checkModes (.exact glob) A C [false, true]).any (·.isExceeds) = true := by
  obtain ⟨witness, hsolve⟩ := solveNetworkMode_exact_of_zeroPortWitness hA hC hlimits hwitness
  simp only [checkModes, Bool.false_and, Bool.false_eq_true, if_false, Bool.true_and]
  cases mode with
  | false =>
    rw [hsolve]
    rfl
  | true =>
    obtain hfalse | ⟨found, hfalse⟩ := solveNetworkMode_exact_of_contained hcontained
    · rw [hfalse, hmode rfl, hsolve]
      rfl
    · rw [hfalse]
      rfl

theorem checkWithinBoundary_self : (checkWithinBoundary solver timeout A A).isExceeds = false := by
  refine Bool.eq_false_iff.mpr fun h => ?_
  obtain ⟨-, -, hne, -⟩ := (isExceeds_checkWithinBoundary executionCheck_self
    (by rw [checkFilesystem_self]; rfl)).mp h
  exact hne rfl

/-- The requests at port zero that a check of `C` against `A` comes to try are all
allowed by `A`. -/
def ZeroPortsAllowed (glob : Glob) (z : Simplifier) (A C : ContainmentPolicy) : Prop :=
  resourceLimitReason A C = none → unresolvedWorkdirReason A C = none → ∀ mode : Bool,
    (mode = true → hasAmbiguousCandidateBinaryPath glob A C = false) →
    ¬ ZeroPortWitness glob z A C mode

/-- **Containment composes, port zero apart.** No policy is found beyond itself.
When `B` is found within `A` and `C` within `B`, whatever the solver had to say,
then no solver makes `C` exceed `A` exactly if the requests at port zero tried
for `C` are allowed by `A`. -/
theorem checkWithinBoundary_composes_iff (z : Simplifier) (timeout : Nat) :
    (∀ (A : ContainmentPolicy) (solver : Solver glob),
      (checkWithinBoundary solver timeout A A).isExceeds = false) ∧
    ∀ (A B C : ContainmentPolicy) (solver₁ solver₂ : Solver glob),
      checkWithinBoundary solver₁ timeout A B = .within →
      checkWithinBoundary solver₂ timeout B C = .within →
      ((∀ solver₃ : Solver glob, (checkWithinBoundary solver₃ timeout A C).isExceeds = false) ↔
        ZeroPortsAllowed glob z A C) := by
  refine ⟨fun A solver => checkWithinBoundary_self, fun A B C solver₁ solver₂ hAB hBC => ?_⟩
  have hAB := withinFacts_of_checkWithinBoundary hAB
  have hBC := withinFacts_of_checkWithinBoundary hBC
  have hexecution := executionCheck_trans hAB.execution hBC.execution
  have hfilesystem := checkFilesystem_trans hAB.workdir hAB.filesystem hBC.filesystem
  have hnetwork : ∀ z mode, NetworkContained glob z A C mode :=
    fun z mode => (hAB.network z mode).trans (hBC.network z mode)
  constructor
  · intro hnever hlimits hworkdir mode hmode hwitness
    refine Bool.eq_false_iff.mp (hnever (.exact glob))
      ((isExceeds_checkWithinBoundary hexecution hfilesystem).mpr ⟨?_, hworkdir, ?_, ?_⟩)
    · exact preflight_eq_none_iff.mpr ⟨hlimits, hAB.timeout_ne, hAB.boundary, hBC.candidate⟩
    · rintro rfl
      obtain ⟨witness, -, -, hallows, hrefuses⟩ := hwitness
      rw [hallows] at hrefuses
      cases hrefuses
    · exact checkModes_exact_isExceeds hAB.boundary hBC.candidate hlimits (hnetwork _ _)
        (hwitness.simplifier _) hmode
  · intro hallowed solver
    refine Bool.eq_false_iff.mpr fun hexceeds => ?_
    obtain ⟨hpreflight, hworkdir, -, hmodes⟩ :=
      (isExceeds_checkWithinBoundary hexecution hfilesystem).mp hexceeds
    obtain ⟨hlimits, -, -, hC⟩ := preflight_eq_none_iff.mp hpreflight
    obtain ⟨result, hresult, hgaveUp⟩ | ⟨mode, -, hmode, witness, hsolve, -⟩ | ⟨hresult, -⟩ :=
      checkModes_cases solver A C [false, true]
    · rw [hresult, Option.any_some, CheckResult.isExceeds_of_gaveUp hgaveUp] at hmodes
      cases hmodes
    · have hwitness := zeroPortWitness_of_solveNetworkMode solver hlimits hC (hnetwork _ _) hsolve
      exact hallowed hlimits hworkdir mode hmode (hwitness.simplifier z)
    · rw [hresult] at hmodes
      cases hmodes

end

/-! ## Port zero -/

/-- One endpoint of `api.example.com` with the given ports. -/
def portsEndpoint (ports : List UInt16) : NetworkEndpoint := { host := "api.example.com", ports }

def portsRule (ports : List UInt16) : NetworkPolicyRule :=
  { endpoints := [portsEndpoint ports], binaries := [{ path := "/usr/bin/curl" }] }

def portsPolicy (ports : List UInt16) : ContainmentPolicy :=
  { networkPolicies := (∅ : Policy.Map NetworkPolicyRule).insert "api" (portsRule ports) }

theorem rules_portsPolicy (ports : List UInt16) :
    (portsPolicy ports).rules = [portsRule ports] := rfl

section
variable {ports ports' : List UInt16} {z : Simplifier} {mode : Bool}

/-- Only the connection depends on the ports. -/
theorem policyAllows_portsPolicy (ports : List UInt16) (action : Action) :
    policyAllows glob z (portsPolicy ports) action mode =
      (binariesMatch (portsRule []) action mode &&
        endpointMatchesConnection (portsEndpoint ports) action &&
        addressAllowed z (portsEndpoint []) action) := by
  have hbinaries : binariesMatch (portsRule ports) action mode =
      binariesMatch (portsRule []) action mode := rfl
  have haddress : addressAllowed z (portsEndpoint ports) action =
      addressAllowed z (portsEndpoint []) action := addressAllowed_congr rfl rfl
  have hallows : endpointAllows glob (portsEndpoint ports) action =
      endpointMatchesConnection (portsEndpoint ports) action := rfl
  have hdenies : endpointDenies glob (portsEndpoint ports) action = false := rfl
  have hendpoints : (portsRule ports).endpoints = [portsEndpoint ports] := rfl
  simp only [policyAllows, policyAllowsBy, destinationAllowed, ruleAllows, ruleDenies,
    rules_portsPolicy, List.any_cons, List.any_nil, Bool.or_false, hendpoints, hallows, hdenies,
    hbinaries, haddress]
  grind

theorem networkContained_portsPolicy (hports : ports ≠ [])
    (hsub : ∀ port ∈ ports', port ≠ 0 → port ∈ ports) (hports' : ports' ≠ []) :
    NetworkContained glob z (portsPolicy ports) (portsPolicy ports') mode := by
  intro action hdomain h
  rw [policyAllows_portsPolicy] at h ⊢
  simp only [Bool.and_eq_true] at h ⊢
  refine ⟨⟨h.1.1, ?_⟩, h.2⟩
  have heffective : ∀ ports : List UInt16, ports ≠ [] →
      (portsEndpoint ports).effectivePorts = ports := by
    intro ports hne
    simp [NetworkEndpoint.effectivePorts, portsEndpoint, hne]
  have hconnection := h.1.2
  unfold endpointMatchesConnection at hconnection ⊢
  rw [heffective ports' hports', Bool.and_eq_true] at hconnection
  rw [heffective ports hports, Bool.and_eq_true]
  obtain ⟨port, hmem, heq⟩ := List.any_eq_true.mp hconnection.1
  refine ⟨List.any_eq_true.mpr ⟨port, hsub port hmem ?_, heq⟩, hconnection.2⟩
  rintro rfl
  have hzero : action.port = 0 := eq_of_beq heq
  have hlow := (port_of_actionDomain hdomain).1
  omega

end

/-- A request at port zero that the boundary allows is reported by nobody. -/
theorem solveNetworkMode_exact_within (hlimits : resourceLimitReason A C = none)
    (hC : validateSupportedPolicy C = .ok ()) (hcontained : NetworkContained glob .exact A C mode)
    (hzero : ((concreteWitnesses C mode).all fun witness =>
      witness.port != 0 || policyAllows glob .exact A witness.action mode) = true) :
    solveNetworkMode (.exact glob) A C mode = .within := by
  obtain hwithin | ⟨witness, hsolve⟩ := solveNetworkMode_exact_of_contained hcontained
  · exact hwithin
  · have hwitness : ZeroPortWitness glob .exact A C mode :=
      zeroPortWitness_of_solveNetworkMode (.exact glob) hlimits hC hcontained hsolve
    obtain ⟨witness, hmem, hport, -, hrefuses⟩ := hwitness
    have hallowed := List.all_eq_true.mp hzero witness hmem
    rw [hport, hrefuses] at hallowed
    cases hallowed

theorem checkWithinBoundary_eq_within {solver : Solver glob} {timeout : Nat}
    (hpreflight : preflightAndValidatePolicies A B timeout = none)
    (hworkdir : unresolvedWorkdirReason A B = none) (hexecution : executionCheck A B = none)
    (hfilesystem : checkFilesystem A B = none)
    (hambiguous : hasAmbiguousCandidateBinaryPath glob A B = false)
    (hsolve : ∀ mode, solveNetworkMode solver A B mode = .within)
    (hdeny : unresolvedExactDenySymlink glob A B = false) :
    checkWithinBoundary solver timeout A B = .within := by
  have hmodes : checkModes solver A B [false, true] = none := by
    simp [checkModes, hambiguous, hsolve]
  unfold checkWithinBoundary
  rw [hpreflight, hworkdir, hexecution, hfilesystem, hmodes, hdeny]
  simp

/-- A `glob` crate that compiles every pattern and matches nothing. -/
def emptyGlob : Glob := { new := fun _ => .ok (), isMatch := fun _ _ => false }

theorem checkWithinBoundary_portsPolicy {ports ports' : List UInt16}
    (hports : ports ≠ []) (hports' : ports' ≠ [])
    (hsub : ∀ port ∈ ports', port ≠ 0 → port ∈ ports)
    (hpreflight : preflightAndValidatePolicies (portsPolicy ports) (portsPolicy ports') 1 = none)
    (hzero : ∀ mode, ((concreteWitnesses (portsPolicy ports') mode).all fun witness =>
      witness.port != 0 ||
        policyAllows emptyGlob .exact (portsPolicy ports) witness.action mode) = true) :
    checkWithinBoundary (.exact emptyGlob) 1 (portsPolicy ports)
      (portsPolicy ports') = .within := by
  obtain ⟨hlimits, -, -, hvalid⟩ := preflight_eq_none_iff.mp hpreflight
  have hambiguous : hasAmbiguousCandidateBinaryPath emptyGlob (portsPolicy ports)
      (portsPolicy ports') = false := by
    simp only [hasAmbiguousCandidateBinaryPath, rules_portsPolicy]
    rfl
  refine checkWithinBoundary_eq_within hpreflight rfl rfl rfl hambiguous (fun mode => ?_) ?_
  · exact solveNetworkMode_exact_within hlimits hvalid
      (networkContained_portsPolicy hports hsub hports') (hzero mode)
  · simp only [unresolvedExactDenySymlink, rules_portsPolicy]
    rfl

/-- A solver that runs out of time on every query. -/
def Solver.silent (glob : Glob) : Solver glob where
  simplify _ _ := none
  sound := nofun
  ground _ _ _ _ := none
  ground_sound _ _ _ _ _ h := by cases h
  query _ _ _ := .timeout
  unsat_sound _ _ _ h := by cases h
  sat_sound _ _ _ _ h := by cases h

theorem checkWithinBoundary_composes_repos :
    let wide := singleRestRule "api.example.com" [443, 8443] "GET" "/repos/*/**"
    let narrow := singleRestRule "api.example.com" [443] "HEAD" "/repos/*/issues"
    (∀ solver : Solver emptyGlob, (checkWithinBoundary solver 1 wide narrow).isExceeds = false) ↔
      ZeroPortsAllowed emptyGlob .exact wide narrow :=
  (checkWithinBoundary_composes_iff .exact 1).2 _
    (singleRestRule "api.example.com" [443] "GET" "/repos/*/**") _ (.silent _) (.silent _)
    (by decide) (by decide)

/-- With `ports: [443, 0]` between them, `ports: [0, 443]` exceeds `ports: [443]`. -/
theorem not_composes_portZero :
    ∃ solver : Solver emptyGlob,
      checkWithinBoundary solver 1 (portsPolicy [443]) (portsPolicy [443, 0]) = .within ∧
      checkWithinBoundary solver 1 (portsPolicy [443, 0]) (portsPolicy [0, 443]) = .within ∧
      (checkWithinBoundary solver 1 (portsPolicy [443]) (portsPolicy [0, 443])).isExceeds =
        true := by
  refine ⟨.exact _, checkWithinBoundary_portsPolicy (by simp) (by simp) (by simp)
    (by decide) (by decide), checkWithinBoundary_portsPolicy (by simp) (by simp)
    (by simp) (by decide) (by decide), ?_⟩
  refine (isExceeds_checkWithinBoundary (by decide) (by decide)).mpr
    ⟨by decide, by decide, by decide, ?_⟩
  have hwitness : ZeroPortWitness emptyGlob .exact (portsPolicy [443]) (portsPolicy [0, 443])
      false := by
    unfold ZeroPortWitness
    decide
  exact checkModes_exact_isExceeds (by decide) (by decide) (by decide)
    (networkContained_portsPolicy (by simp) (by simp) (by simp)) hwitness (by decide)

end OpenShell.Prover
