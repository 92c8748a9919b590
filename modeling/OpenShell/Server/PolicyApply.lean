import Mathlib
import OpenShell.Util.Collect
import OpenShell.Util.Run

/-!
# Results of policy revisions

A supervisor reports whether it loaded a policy revision (`record_policy_apply_result` of
`grpc/policy.rs`): the status of the revision is written, then the version the sandbox is at is
raised, and last the older revisions are superseded. Each of these is one store call, and other
results and new revisions come in between. They are interleaved freely here, also where the source
holds a lock.
-/

namespace OpenShell.Server.PolicyApply

inductive Status
  | pending
  | loaded
  | failed
  | superseded
  deriving DecidableEq

structure Revision where
  version : Nat
  status : Status

/-- A revision that is not settled. -/
def Revision.Open (revision : Revision) : Prop :=
  revision.status = .pending ∨ revision.status = .loaded

instance (revision : Revision) : Decidable revision.Open := inferInstanceAs (Decidable (_ ∨ _))

/-- The policy rows of one sandbox, and its `current_policy_version`. -/
structure Store where
  current : Nat
  revisions : List Revision

/-- Where a call stands: the store call it makes next. -/
inductive Phase
  | writing (version : Nat) (loaded : Bool)
  | fetching (version : Nat)
  | raising (version : Nat)
  | superseding (before : Nat)
  | done

structure World where
  store : Store
  calls : List Phase
  /-- A call has failed. -/
  failed : Bool

def World.initial : World := ⟨⟨0, []⟩, [], false⟩

namespace Store

variable (store : Store) (version : Nat)

/-- The version `get_latest_policy` finds, zero without revisions. -/
def latest : Nat := (store.revisions.map (·.version)).foldl max 0

def hasVersion : Bool := store.revisions.any (·.version = version)

def updatePolicyStatus (status : Status) : Option Store :=
  if store.hasVersion version then
    some { store with
      revisions := store.revisions.map fun revision =>
        if revision.version = version then { revision with status } else revision }
  else none

def supersedeOlderPolicies (before : Nat) : Store :=
  { store with
    revisions := store.revisions.map fun revision =>
      if revision.version < before ∧ revision.Open then { revision with status := .superseded }
      else revision }

def putPolicyRevision (status : Status) : Store :=
  { store with revisions := store.revisions ++ [⟨version, status⟩] }

/-- The next store call of a call, and where the call then stands; `none` is an error. -/
def advance : Phase → Option (Store × Phase)
  | .writing version loaded =>
    (store.updatePolicyStatus version (if loaded then .loaded else .failed)).map fun store =>
      (store, if loaded then .fetching version else .done)
  | .fetching version =>
    some (store, if store.current > version then .superseding store.current else .raising version)
  | .raising version =>
    let current := if store.current < version then version else store.current
    some ({ store with current }, .superseding current)
  | .superseding before => some (store.supersedeOlderPolicies before, .done)
  | .done => some (store, .done)

end Store

inductive Call
  | report (version : Nat) (loaded : Bool)
  /-- A revision is written, one past the latest that was read for it. -/
  | revise (latest : Nat) (atomic : Bool)
  /-- `put_initial_policy_revision`. -/
  | backfill (status : Status)
  | advance (index : Nat)
  /-- A call ends with an error, or its store call fails. -/
  | fail (index : Nat)

def step (world : World) : Call → World × Unit
  | .report version loaded =>
    (if version = 0 then { world with failed := true }
      else { world with calls := world.calls ++ [.writing version loaded] }, ())
  | .revise latest atomic =>
    let written := world.store.putPolicyRevision (latest + 1) .pending
    -- the version index is unique
    (if world.store.latest < latest ∨ world.store.hasVersion (latest + 1) then world
      else if atomic then { world with store := written.supersedeOlderPolicies (latest + 1) }
      else { world with store := written, calls := world.calls ++ [.superseding (latest + 1)] }, ())
  | .backfill status =>
    (if world.store.revisions = [] then
      { world with store := world.store.putPolicyRevision 1 status } else world, ())
  | .advance index =>
    (match world.calls[index]?.map world.store.advance with
    | some (some (store, phase)) => { world with store, calls := world.calls.set index phase }
    | some none => { world with calls := world.calls.set index .done, failed := true }
    | none => world, ())
  | .fail index => ({ world with calls := world.calls.set index .done, failed := true }, ())

/-! ## Store calls -/

/-- The versions are given in order, without gaps, and the sandbox is at one of them. -/
structure Store.Numbered (store : Store) : Prop where
  versions : store.revisions.map (·.version) = List.range' 1 store.revisions.length
  current : store.current ≤ store.revisions.length

/-- The version a call is about to raise to is there. -/
def Phase.Inv (store : Store) : Phase → Prop
  | .fetching version | .raising version => version ≤ store.revisions.length
  | _ => True

/-- The call goes on to supersede the revision, if the sandbox is past it. -/
def Phase.Repairs (version : Nat) : Phase → Prop
  | .fetching version' | .raising version' => version' = version
  | .superseding before => version < before
  | _ => False

/-- What a store call leaves. -/
structure Advanced (store : Store) (phase : Phase) (store' : Store) (phase' : Phase) : Prop where
  numbered : store'.Numbered
  grows : store.revisions.length ≤ store'.revisions.length
  current : store.current ≤ store'.current
  stands : phase'.Inv store'
  repairs : ∀ revision ∈ store'.revisions, revision.version < store'.current → revision.Open →
    phase'.Repairs revision.version ∨
      revision ∈ store.revisions ∧ revision.version < store.current ∧
      ¬ phase.Repairs revision.version

section Store
variable {store store' : Store} {phase phase' : Phase} {version : Nat} {revision : Revision}

theorem Store.Numbered.hasVersion_iff (h : store.Numbered) :
    store.hasVersion version = true ↔ 1 ≤ version ∧ version ≤ store.revisions.length := by
  have hmem : version ∈ store.revisions.map (·.version) ↔
      version ∈ List.range' 1 store.revisions.length := by
    rw [h.versions]
  simp only [List.mem_map, List.mem_range'_1] at hmem
  simp only [hasVersion, List.any_eq_true, decide_eq_true_eq, hmem]
  omega

theorem Store.Numbered.latest (h : store.Numbered) : store.latest = store.revisions.length := by
  have hmax : ∀ n, (List.range' 1 n).foldl max 0 = n := by
    intro n
    induction n with
    | zero => rfl
    | succ n ih =>
      rw [List.range'_concat, List.foldl_append, ih, List.foldl_cons, List.foldl_nil]
      omega
  rw [Store.latest, h.versions, hmax]

theorem Store.Numbered.map (h : store.Numbered) {f : Revision → Revision}
    (hf : ∀ r, (f r).version = r.version) :
    ({ store with revisions := store.revisions.map f } : Store).Numbered where
  versions := by
    rw [List.map_map, List.length_map, ← h.versions]
    exact List.map_congr_left fun r _ => hf r
  current := by simpa using h.current

theorem Store.Numbered.supersede (h : store.Numbered) (before : Nat) :
    (store.supersedeOlderPolicies before).Numbered := by
  refine h.map fun r => ?_
  split <;> rfl

theorem Store.Numbered.put (h : store.Numbered) (status : Status) :
    (store.putPolicyRevision (store.revisions.length + 1) status).Numbered where
  versions := by
    simp [putPolicyRevision, h.versions, List.range'_concat, Nat.add_comm]
  current := h.current.trans (by simp [putPolicyRevision])

/-- A revision that is open after older ones are superseded was open before, and is none of them. -/
theorem mem_supersedeOlderPolicies {before : Nat}
    (h : revision ∈ (store.supersedeOlderPolicies before).revisions)
    (hopen : revision.Open) : revision ∈ store.revisions ∧ ¬ revision.version < before := by
  obtain ⟨old, hold, rfl⟩ := List.mem_map.mp h
  by_cases holder : old.version < before ∧ old.Open
  · rw [if_pos holder] at hopen
    cases hopen <;> contradiction
  · rw [if_neg holder] at hopen ⊢
    exact ⟨hold, fun hlt => holder ⟨hlt, hopen⟩⟩

/-- A call that goes on without changing the store. -/
theorem Advanced.of_same (h : store.Numbered) (hphase : phase'.Inv store)
    (hrepairs : ∀ version, version < store.current → phase.Repairs version →
      phase'.Repairs version) :
    Advanced store phase store phase' := by
  refine ⟨h, Nat.le_refl _, Nat.le_refl _, hphase, fun revision hrevision hlt _ => ?_⟩
  by_cases hold : phase.Repairs revision.version
  · exact .inl (hrepairs _ hlt hold)
  · exact .inr ⟨hrevision, hlt, hold⟩

theorem advance_spec (hnumbered : store.Numbered) (hphase : phase.Inv store)
    (h : store.advance phase = some (store', phase')) : Advanced store phase store' phase' := by
  cases phase with
  | writing version loaded =>
    obtain ⟨_, hwritten, h⟩ := Option.map_eq_some_iff.mp h
    cases h
    unfold Store.updatePolicyStatus at hwritten
    split at hwritten
    next hmem =>
      cases hwritten
      have hle := (hnumbered.hasVersion_iff.mp hmem).2
      refine ⟨hnumbered.map fun r => by split <;> rfl, by simp, Nat.le_refl _, ?_,
        fun r hr hlt hopen => ?_⟩
      · cases loaded with
        | false => trivial
        | true => simpa [Phase.Inv] using hle
      · obtain ⟨old, hold, rfl⟩ := List.mem_map.mp hr
        by_cases hsame : old.version = version
        · rw [if_pos hsame] at hopen ⊢
          cases loaded with
          | false => cases hopen <;> contradiction
          | true => exact .inl hsame.symm
        · rw [if_neg hsame] at hlt ⊢
          exact .inr ⟨hold, hlt, not_false⟩
    next => cases hwritten
  | fetching version =>
    cases h
    by_cases hpast : store.current > version
    · rw [if_pos hpast]
      exact .of_same hnumbered trivial fun _ hlt _ => hlt
    · rw [if_neg hpast]
      exact .of_same hnumbered hphase fun _ _ hrepairs => hrepairs
  | raising version =>
    cases h
    have hbound := hnumbered.current
    have hversion : version ≤ store.revisions.length := hphase
    refine ⟨⟨hnumbered.versions, ?_⟩, Nat.le_refl _, ?_, trivial, fun _ _ hlt _ => .inl hlt⟩
    · dsimp only
      split <;> omega
    · dsimp only
      split <;> omega
  | superseding before =>
    cases h
    refine ⟨hnumbered.supersede before, by simp [Store.supersedeOlderPolicies],
      Nat.le_refl _, trivial, fun r hr hlt hopen => ?_⟩
    obtain ⟨hold, hnot⟩ := mem_supersedeOlderPolicies hr hopen
    exact .inr ⟨hold, hlt, hnot⟩
  | done =>
    cases h
    exact .of_same hnumbered trivial fun _ _ hrepairs => hrepairs

theorem Phase.Inv.mono (h : phase.Inv store)
    (hgrows : store.revisions.length ≤ store'.revisions.length) :
    phase.Inv store' := by
  cases phase with
  | fetching | raising => exact h.trans hgrows
  | _ => trivial

end Store

/-! ## Runs -/

/-- A revision the sandbox is past is settled, or a call goes on to supersede it. -/
structure Inv (world : World) : Prop where
  numbered : world.store.Numbered
  calls : ∀ phase ∈ world.calls, phase.Inv world.store
  repaired : world.failed = false → ∀ revision ∈ world.store.revisions,
    revision.version < world.store.current →
    revision.Open → ∃ phase ∈ world.calls, phase.Repairs revision.version

section Runs
variable {world : World}

theorem Inv.fail (h : Inv world) {calls : List Phase}
    (hcalls : ∀ phase ∈ calls, phase ∈ world.calls ∨ phase = .done) :
    Inv { world with calls, failed := true } where
  numbered := h.numbered
  calls phase hphase := by
    rcases hcalls phase hphase with hold | rfl
    · exact h.calls phase hold
    · trivial
  repaired hok := by cases hok

/-- Revisions are added and calls begin, without the sandbox passing an open revision. -/
theorem Inv.extend (h : Inv world) {revisions : List Revision} {l : List Phase}
    (hnumbered : Store.Numbered ⟨world.store.current, revisions⟩)
    (hgrows : world.store.revisions.length ≤ revisions.length)
    (hrows : ∀ revision ∈ revisions, revision.version < world.store.current → revision.Open →
      revision ∈ world.store.revisions)
    (hnew : ∀ phase ∈ l, phase.Inv ⟨world.store.current, revisions⟩) :
    Inv ⟨⟨world.store.current, revisions⟩, world.calls ++ l, world.failed⟩ where
  numbered := hnumbered
  calls phase hphase :=
    (List.mem_append.mp hphase).elim (fun hmem => (h.calls phase hmem).mono hgrows) (hnew phase)
  repaired hok revision hrevision hlt hopen := by
    obtain ⟨phase, hphase, hrepairs⟩ :=
      h.repaired hok revision (hrows revision hrevision hlt hopen) hlt hopen
    exact ⟨phase, List.mem_append_left _ hphase, hrepairs⟩

/-- A new revision is not one the sandbox is past. -/
theorem Inv.mem_of_put (h : Inv world) {status : Status} {revision : Revision}
    (hmem : revision ∈ (world.store.putPolicyRevision (world.store.revisions.length + 1)
      status).revisions)
    (hlt : revision.version < world.store.current) : revision ∈ world.store.revisions := by
  have hcurrent := h.numbered.current
  refine (List.mem_append.mp hmem).resolve_right fun hlast => ?_
  rw [List.mem_singleton.mp hlast] at hlt
  dsimp only at hlt
  omega

theorem Inv.advanced (h : Inv world) {index : Nat} {phase phase' : Phase} {store : Store}
    (hindex : world.calls[index]? = some phase) (hstore : Advanced world.store phase store phase') :
    Inv { world with store, calls := world.calls.set index phase' } where
  numbered := hstore.numbered
  calls other hother := by
    rcases List.mem_or_eq_of_mem_set hother with hold | rfl
    · exact (h.calls other hold).mono hstore.grows
    · exact hstore.stands
  repaired hok revision hrevision hlt hopen := by
    obtain ⟨hlength, -⟩ := List.getElem?_eq_some_iff.mp hindex
    rcases hstore.repairs revision hrevision hlt hopen with hnew | ⟨hold, hold', hnot⟩
    · exact ⟨phase', List.mem_set hlength _, hnew⟩
    · -- the call that goes on to supersede it is another one
      obtain ⟨other, hother, hrepairs⟩ := h.repaired hok revision hold hold' hopen
      have hne : other ≠ phase := by
        rintro rfl
        exact hnot hrepairs
      exact ⟨other, mem_set_of_ne hother hindex hne, hrepairs⟩

theorem Inv.step (h : Inv world) (call : Call) :
    Inv (step world call).1 ∧ world.store.current ≤ (step world call).1.store.current := by
  have hdone : ∀ index, Inv { world with calls := world.calls.set index .done, failed := true } :=
    fun _ =>
    h.fail fun _ => List.mem_or_eq_of_mem_set
  cases call with
  | report version loaded =>
    dsimp only [PolicyApply.step]
    split
    next => exact ⟨h.fail fun _ => .inl, Nat.le_refl _⟩
    next =>
      exact ⟨h.extend h.numbered (Nat.le_refl _) (fun _ hold _ _ => hold)
        (List.forall_mem_singleton.mpr trivial), Nat.le_refl _⟩
  | revise latest atomic =>
    dsimp only [PolicyApply.step]
    split
    next => exact ⟨h, Nat.le_refl _⟩
    next hnew =>
      rw [h.numbered.latest, h.numbered.hasVersion_iff] at hnew
      obtain rfl : latest = world.store.revisions.length := by omega
      have hput := h.numbered.put .pending
      split
      next =>
        have hafter := h.extend (l := []) (hput.supersede (world.store.revisions.length + 1))
          (by simp [Store.putPolicyRevision])
          (fun r hr hlt hopen => h.mem_of_put (mem_supersedeOlderPolicies hr hopen).1 hlt)
            (List.forall_mem_nil _)
        rw [List.append_nil] at hafter
        exact ⟨hafter, Nat.le_refl _⟩
      next =>
        exact ⟨h.extend hput (by simp) (fun r hr hlt _ => h.mem_of_put hr hlt)
          (List.forall_mem_singleton.mpr trivial), Nat.le_refl _⟩
  | backfill status =>
    dsimp only [PolicyApply.step]
    split
    next hnone =>
      have hfirst : 1 = world.store.revisions.length + 1 := by rw [hnone]; rfl
      rw [hfirst]
      have hafter :=
        h.extend (l := []) (h.numbered.put status) (by simp) (fun r hr hlt _ => h.mem_of_put hr hlt)
        (List.forall_mem_nil _)
      rw [List.append_nil] at hafter
      exact ⟨hafter, Nat.le_refl _⟩
    next => exact ⟨h, Nat.le_refl _⟩
  | advance index =>
    dsimp only [PolicyApply.step]
    cases hindex : world.calls[index]? with
    | none => exact ⟨h, Nat.le_refl _⟩
    | some phase =>
      have hphase := h.calls phase (List.mem_of_getElem? hindex)
      cases hadvance : world.store.advance phase with
      | none =>
        simp only [Option.map_some, hadvance]
        exact ⟨hdone index, Nat.le_refl _⟩
      | some next =>
        have hstore := advance_spec h.numbered hphase hadvance
        simp only [Option.map_some, hadvance]
        exact ⟨h.advanced hindex hstore, hstore.current⟩
  | fail index => exact ⟨hdone index, Nat.le_refl _⟩

theorem inv_initial : Inv World.initial := ⟨⟨rfl, Nat.le_refl _⟩, nofun, nofun⟩

/-- Without a call in flight or a failed one, the revisions the sandbox is past are settled. -/
def World.Settled (world : World) : Prop :=
  (∀ phase ∈ world.calls, phase = .done) → world.failed = false →
    ∀ revision ∈ world.store.revisions, revision.version < world.store.current →
      revision.status = .superseded ∨ revision.status = .failed

theorem Inv.settled (h : Inv world) : world.Settled := by
  intro hdone hok revision hrevision hlt
  by_contra hnot
  have hopen : revision.Open := by
    cases hstatus : revision.status <;> simp_all [Revision.Open]
  obtain ⟨phase, hphase, hrepairs⟩ := h.repaired hok revision hrevision hlt hopen
  rw [hdone phase hphase] at hrepairs
  exact hrepairs

/-- Whatever the order of the store calls, the version of a sandbox never falls, and the older
revisions settle. -/
theorem policyResults_settle (calls : List Call) :
    (∀ e ∈ Run.trace step .initial calls, e.before.store.current ≤ e.after.store.current) ∧
      (Run.after step .initial calls).Settled := by
  have hstep : ∀ e ∈ Run.trace step .initial calls, Inv e.before →
      Inv e.after ∧ e.before.store.current ≤ e.after.store.current := by
    intro e he hbefore
    obtain ⟨-, -, -, -, hevent⟩ := Run.mem_trace he
    have hafter := hbefore.step e.call
    rw [hevent] at hafter
    exact hafter
  obtain ⟨hevents, hafter⟩ := Run.trace_invariant inv_initial fun e he hbefore =>
    (hstep e he hbefore).1
  exact ⟨fun e he => (hstep e he (hevents e he).1).2, hafter.settled⟩

/-! ## Reports that run to their end -/

/-- How far a loaded report of a version has come: once it has raised the version, the sandbox is at
it or past it. -/
def Phase.Toward (version current : Nat) : Phase → Prop
  | .writing version' loaded => version' = version ∧ loaded = true
  | .fetching version' | .raising version' => version' = version
  | .superseding _ | .done => version ≤ current

/-- The call at an index is such a report, unless a call has failed. -/
def World.Reports (world : World) (index version : Nat) : Prop :=
  world.failed = false →
    ∃ phase, world.calls[index]? = some phase ∧ phase.Toward version world.store.current

theorem Phase.Toward.mono {phase : Phase} {version current current' : Nat}
    (h : phase.Toward version current)
    (hle : current ≤ current') : phase.Toward version current' := by
  cases phase with
  | superseding | done => exact Nat.le_trans h hle
  | _ => exact h

theorem Phase.Toward.advance {store store' : Store} {phase phase' : Phase} {version : Nat}
    (ht : phase.Toward version store.current) (h : store.advance phase = some (store', phase')) :
    phase'.Toward version store'.current := by
  cases phase with
  | writing version' loaded =>
    obtain ⟨rfl, rfl⟩ := ht
    obtain ⟨written, -, h⟩ := Option.map_eq_some_iff.mp h
    cases h
    exact rfl
  | fetching version' =>
    obtain rfl := ht
    cases h
    by_cases hpast : store.current > version'
    · rw [if_pos hpast]
      exact Nat.le_of_lt hpast
    · rw [if_neg hpast]
      exact rfl
  | raising version' =>
    obtain rfl := ht
    cases h
    show version' ≤ if store.current < version' then version' else store.current
    split <;> omega
  | superseding | done =>
    cases h
    exact ht

theorem World.Reports.step (hinv : Inv world) {index version : Nat}
    (h : world.Reports index version) (call : Call) :
    (PolicyApply.step world call).1.Reports index version := by
  have hcurrent := (hinv.step call).2
  -- calls are added behind the others, so an index keeps its call
  have hadded : ∀ {phase : Phase} (l : List Phase), world.calls[index]? = some phase →
      (world.calls ++ l)[index]? = some phase := fun l hphase =>
    (List.getElem?_append_left (List.getElem?_eq_some_iff.mp hphase).1).trans hphase
  intro hok
  cases call with
  | report version' loaded =>
    dsimp only [PolicyApply.step] at hok ⊢
    split at hok
    next => cases hok
    next hversion =>
      obtain ⟨phase, hphase, ht⟩ := h hok
      rw [if_neg hversion]
      exact ⟨phase, hadded _ hphase, ht⟩
  | revise latest atomic =>
    dsimp only [PolicyApply.step] at hok ⊢
    split at hok
    next hstale =>
      rw [if_pos hstale]
      exact h hok
    next hstale =>
      rw [if_neg hstale]
      cases atomic with
      | true => exact h hok
      | false =>
        obtain ⟨phase, hphase, ht⟩ := h hok
        exact ⟨phase, hadded _ hphase, ht⟩
  | backfill status =>
    dsimp only [PolicyApply.step] at hok ⊢
    split at hok
    next hnone =>
      rw [if_pos hnone]
      exact h hok
    next hsome =>
      rw [if_neg hsome]
      exact h hok
  | advance i =>
    dsimp only [PolicyApply.step] at hok hcurrent ⊢
    cases hindex : world.calls[i]? with
    | none =>
      rw [hindex] at hok
      exact h hok
    | some other =>
      cases hadvance : world.store.advance other with
      | none =>
        simp only [hindex, Option.map_some, hadvance] at hok
        cases hok
      | some next =>
        simp only [hindex, Option.map_some, hadvance] at hok hcurrent ⊢
        obtain ⟨phase, hphase, ht⟩ := h hok
        by_cases hi : i = index
        · subst hi
          obtain rfl := Option.some.inj (hphase.symm.trans hindex)
          exact ⟨next.2, List.getElem?_set_self (List.getElem?_eq_some_iff.mp hindex).1,
            ht.advance hadvance⟩
        · exact ⟨phase, (List.getElem?_set_ne hi).trans hphase, ht.mono hcurrent⟩
  | fail i => cases hok

/-- A loaded report that runs to its end, with no call failed, has raised the sandbox to its
version. -/
theorem loadedReport_raises {first rest : List Call} {index version : Nat}
    (hcall : (Run.after step .initial first).calls[index]? = some (.writing version true))
    (hdone : (Run.after step .initial (first ++ rest)).calls[index]? = some .done)
    (hok : (Run.after step .initial (first ++ rest)).failed = false) :
    version ≤ (Run.after step .initial (first ++ rest)).store.current := by
  rw [Run.after_append] at hdone hok ⊢
  have hinv : Inv (Run.after step .initial first) :=
    Run.after_of_step (fun _ call h => (h.step call).1) inv_initial first
  have hstart : (Run.after step .initial first).Reports index version :=
    fun _ => ⟨_, hcall, rfl, rfl⟩
  obtain ⟨-, hreports⟩ :=
    Run.after_of_step (I := fun world => Inv world ∧ world.Reports index version)
    (fun _ call h => ⟨(h.1.step call).1, h.2.step h.1 call⟩) ⟨hinv, hstart⟩ rest
  obtain ⟨phase, hphase, ht⟩ := hreports hok
  obtain rfl := Option.some.inj (hphase.symm.trans hdone)
  exact ht

end Runs

end OpenShell.Server.PolicyApply
