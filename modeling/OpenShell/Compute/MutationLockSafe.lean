import Mathlib
import OpenShell.Compute.MutationLock
import OpenShell.Util.Collect

/-!
# Exclusion and progress of the mutation locks

The references of all tasks to locks carry the argument: no key has references to
two locks, and a task that waits holds only locks that come before the one it
waits for.
-/

namespace OpenShell.Compute

variable {digest : String → String → Int64}

/-! ## Tables -/

variable {claims : List Claim} {resource : Resource} {lock : Nat}

theorem live_eq_true :
    live claims resource lock = true ↔
      ∃ claim ∈ claims, claim.resource = resource ∧ claim.lock = lock := by
  simp [live, List.any_eq_true]

variable {key : Int64} {fresh : Nat}

theorem LockTable.lockFor_tracks {table : LockTable} {live live' : Int64 → Nat → Bool}
    (h : table.entries.Tracks live)
    (hlive : ∀ k lock, live' k lock = true → live k lock = true ∨ k = key ∧
      lock = (table.lockFor live key fresh).2) :
    (table.lockFor live key fresh).1.entries.Tracks live' := by
  unfold LockTable.lockFor at hlive ⊢
  cases hupgrade : table.entries.upgrade live key with
  | some lock =>
    rw [hupgrade] at hlive
    exact h.refer hupgrade hlive
  | none =>
    rw [hupgrade] at hlive
    dsimp only at hlive ⊢
    split
    next hsweep =>
      rw [if_pos hsweep] at hlive
      have hnew : (table.entries.insert key fresh).Tracks fun k lock =>
          live k lock || (k = key && lock = fresh) :=
        h.insert hupgrade fun k lock hkl => by simpa using hkl
      refine hnew.retain.mono fun k lock hkl => ?_
      simpa using hlive k lock hkl
    next hsweep =>
      rw [if_neg hsweep] at hlive
      exact h.insert hupgrade hlive

variable {gates : WeakTable String}

theorem gateFor_tracks {live live' : String → Nat → Bool} {sandboxId : String}
    (h : gates.Tracks live)
    (hlive : ∀ id lock, live' id lock = true →
      live id lock = true ∨ id = sandboxId ∧ lock = (gateFor gates live sandboxId fresh).2) :
    (gateFor gates live sandboxId fresh).1.Tracks live' := by
  unfold gateFor at hlive ⊢
  dsimp only at hlive ⊢
  cases hupgrade : (gates.retain live).upgrade live sandboxId with
  | some lock =>
    rw [hupgrade] at hlive
    exact h.retain.refer hupgrade hlive
  | none =>
    rw [hupgrade] at hlive
    exact h.retain.insert hupgrade hlive

/-! ## Invariants -/

/-- The locks referred to are those of the tables. -/
structure TableInv (gates : WeakTable String) (keys : LockTable) (claims : List Claim) : Prop where
  gates : gates.Tracks fun id => live claims (.gate id)
  keys : keys.entries.Tracks fun key => live claims (.key key)

structure ClaimInv (claims : List Claim) : Prop where
  distinct : claims.Pairwise fun c c' => ¬ (c.task = c'.task ∧ c.resource = c'.resource)
  exclusion : ∀ c ∈ claims, ∀ c' ∈ claims, c.task ≠ c'.task → c.resource = c'.resource →
    c.lock = c'.lock → c.stage = .held → c'.stage = .held → c.mode = .shared ∧ c'.mode = .shared

/-- A task in `acquire` holds the keys it has taken, and refers to the one it waits for. -/
structure Progress (digest : String → String → Int64) (claims : List Claim) (task : Nat)
    (scope : GuardScope) (taken current rest : List (Int64 × LockMode)) : Prop where
  split : (scope.lockSet digest).entries = taken ++ current ++ rest
  holds : ∀ e ∈ taken, ∃ c ∈ claims, c.task = task ∧ c.resource = .key e.1 ∧ c.mode = e.2 ∧
    c.stage = .held
  claims : ∀ c ∈ claims, c.task = task →
    c.stage = .held ∧ c.resource.isGate = true ∨
    c.stage = .held ∧ (∃ e ∈ taken, c.resource = .key e.1) ∨
    ∃ e ∈ current, c.resource = .key e.1 ∧ c.mode = e.2

/-- What a task refers to in each of its phases. -/
def PhaseInv (digest : String → String → Int64) (claims : List Claim) (task : Nat) : Phase → Prop
  | .idle => ∀ c ∈ claims, c.task = task → c.stage = .held ∧ c.resource.isGate = true
  | .gating =>
    ∀ c ∈ claims, c.task = task → c.resource.isGate = true ∧ ∀ c' ∈ claims, c'.task = task → c' = c
  | .acquiring scope rest => ∃ taken, Progress digest claims task scope taken [] rest
  | .waiting scope key mode rest =>
    ∃ taken, Progress digest claims task scope taken [(key, mode)] rest
  | .holding scope => ∃ taken, Progress digest claims task scope taken [] []
  | .dropping => ∀ c ∈ claims, c.task = task → c.stage = .held

structure Inv (digest : String → String → Int64) (world : World) : Prop where
  tables : TableInv world.gates world.keys world.claims
  claims : ClaimInv world.claims
  phases : ∀ task, PhaseInv digest world.claims task (world.phase task)

section Claims
variable {gates : WeakTable String} {keys : LockTable} {claims claims' : List Claim} {c c' : Claim}

theorem TableInv.mono (h : TableInv gates keys claims)
    (hsub : ∀ c' ∈ claims', ∃ c ∈ claims, c.resource = c'.resource ∧ c.lock = c'.lock) :
    TableInv gates keys claims' := by
  have hlive : ∀ resource lock, live claims' resource lock = true →
      live claims resource lock = true := by
    intro resource lock hlock
    obtain ⟨c', hc', rfl, rfl⟩ := live_eq_true.mp hlock
    obtain ⟨c, hc, hresource, hsame⟩ := hsub c' hc'
    exact live_eq_true.mpr ⟨c, hc, hresource, hsame⟩
  exact ⟨h.gates.mono fun _ _ => hlive _ _, h.keys.mono fun _ _ => hlive _ _⟩

/-- The references to one resource are to one lock. -/
theorem TableInv.lock_eq (h : TableInv gates keys claims) (hc : c ∈ claims) (hc' : c' ∈ claims)
    (hresource : c.resource = c'.resource) : c.lock = c'.lock := by
  have hlive := live_eq_true.mpr ⟨c, hc, rfl, rfl⟩
  have hlive' := live_eq_true.mpr ⟨c', hc', hresource.symm, rfl⟩
  cases hcase : c.resource with
  | gate id =>
    rw [hcase] at hlive hlive'
    exact h.gates.unique hlive hlive'
  | key key =>
    rw [hcase] at hlive hlive'
    exact h.keys.unique hlive hlive'

theorem ClaimInv.eq_of_resource (h : ClaimInv claims) (hc : c ∈ claims) (hc' : c' ∈ claims)
    (htask : c.task = c'.task) (hresource : c.resource = c'.resource) : c = c' := by
  have hsymm : Std.Symm fun c c' : Claim => ¬ (c.task = c'.task ∧ c.resource = c'.resource) :=
    ⟨fun _ _ hne heq => hne ⟨heq.1.symm, heq.2.symm⟩⟩
  by_contra hne
  exact h.distinct.forall hc hc' hne ⟨htask, hresource⟩

theorem ClaimInv.filter (h : ClaimInv claims) (keep : Claim → Bool) :
    ClaimInv (claims.filter keep) where
  distinct := h.distinct.filter keep
  exclusion c hc c' hc' := h.exclusion c (List.mem_filter.mp hc).1 c' (List.mem_filter.mp hc').1

/-- A reference to a resource the task does not refer to yet. -/
theorem ClaimInv.append (h : ClaimInv claims)
    (hnew : ∀ c' ∈ claims, c'.task = c.task → c'.resource ≠ c.resource)
    (hheld : c.stage = .held → ∀ c' ∈ claims, c'.resource = c.resource → c'.lock = c.lock →
      c'.stage ≠ .held) :
    ClaimInv (claims ++ [c]) where
  distinct := by
    refine List.pairwise_append.mpr ⟨h.distinct, List.pairwise_singleton .., fun c' hc' d hd => ?_⟩
    rw [List.mem_singleton.mp hd]
    exact fun hsame => hnew c' hc' hsame.1 hsame.2
  exclusion d hd d' hd' hne hresource hlock hstage hstage' := by
    rcases List.mem_append.mp hd with hold | hlast <;>
      rcases List.mem_append.mp hd' with hold' | hlast'
    · exact h.exclusion d hold d' hold' hne hresource hlock hstage hstage'
    · obtain rfl := List.mem_singleton.mp hlast'
      exact absurd hstage (hheld hstage' d hold hresource hlock)
    · obtain rfl := List.mem_singleton.mp hlast
      exact absurd hstage' (hheld hstage d' hold' hresource.symm hlock.symm)
    · rw [List.mem_singleton.mp hlast, List.mem_singleton.mp hlast'] at hne
      exact absurd rfl hne

/-- One reference comes to another stage. -/
def Restaged (claims : List Claim) (c : Claim) (stage : Stage) (claims' : List Claim) : Prop :=
  c ∈ claims ∧ ∀ d, d ∈ claims' ↔ d ∈ claims ∧ d ≠ c ∨ d = { c with stage }

theorem Restaged.tables {stage : Stage} (h : Restaged claims c stage claims')
    (htables : TableInv gates keys claims) :
    TableInv gates keys claims' := by
  refine htables.mono fun d hd => ?_
  rcases (h.2 d).mp hd with ⟨hold, -⟩ | rfl
  · exact ⟨d, hold, rfl, rfl⟩
  · exact ⟨c, h.1, rfl, rfl⟩

theorem Restaged.exclusion {stage : Stage} (h : Restaged claims c stage claims')
    (hclaims : ClaimInv claims)
    (hdistinct : claims'.Pairwise fun c c' => ¬ (c.task = c'.task ∧ c.resource = c'.resource))
    (hheld : stage = .held → ∀ d ∈ claims, d.resource = c.resource → d.lock = c.lock →
      d.stage = .held → d.mode = .shared ∧ c.mode = .shared) : ClaimInv claims' where
  distinct := hdistinct
  exclusion d hd d' hd' hne hresource hlock hstage hstage' := by
    rcases (h.2 d).mp hd with ⟨hold, -⟩ | rfl <;> rcases (h.2 d').mp hd' with ⟨hold', -⟩ | rfl
    · exact hclaims.exclusion d hold d' hold' hne hresource hlock hstage hstage'
    · exact hheld hstage' d hold hresource hlock hstage
    · exact (hheld hstage d' hold' hresource.symm hlock.symm hstage').symm
    · exact absurd rfl hne

end Claims

/-! ## Phases -/

section Phases
variable {claims claims' : List Claim} {c : Claim} {task : Nat} {scope : GuardScope} {phase : Phase}
  {taken current rest : List (Int64 × LockMode)}

section
variable (h : PhaseInv digest claims task phase)
include h

/-- A task may drop gates, and what it waits for. -/
theorem PhaseInv.mono (hsub : ∀ c ∈ claims', c.task = task → c ∈ claims)
    (hkeep : ∀ c ∈ claims, c.task = task → c.resource.isGate = false → c.stage = .held →
      c ∈ claims') :
    PhaseInv digest claims' task phase := by
  have hprogress : ∀ {scope taken current rest},
      Progress digest claims task scope taken current rest →
      Progress digest claims' task scope taken current rest := fun h =>
    { split := h.split
      holds := fun e he => by
        obtain ⟨c, hc, htask, hkey, hmode, hheld⟩ := h.holds e he
        have hkept := hkeep c hc htask (by rw [hkey]; rfl) hheld
        exact ⟨c, hkept, htask, hkey, hmode, hheld⟩
      claims := fun c hc htask => h.claims c (hsub c hc htask) htask }
  cases phase with
  | idle | dropping => exact fun c hc htask => h c (hsub c hc htask) htask
  | gating =>
    intro c hc htask
    obtain ⟨hgate, honly⟩ := h c (hsub c hc htask) htask
    exact ⟨hgate, fun c' hc' htask' => honly c' (hsub c' hc' htask') htask'⟩
  | acquiring | waiting | holding => exact h.imp fun _ => hprogress

/-- A task that refers to the same locks stays as it is. -/
theorem PhaseInv.frame (hsame : ∀ c : Claim, c.task = task → (c ∈ claims' ↔ c ∈ claims)) :
    PhaseInv digest claims' task phase :=
  h.mono (fun c hc htask => (hsame c htask).mp hc) fun c hc htask _ _ => (hsame c htask).mpr hc

theorem PhaseInv.filter {keep : Claim → Bool}
    (hkeep : ∀ c : Claim, c.task = task → c.resource.isGate = false → c.stage = .held →
      keep c = true) :
    PhaseInv digest (claims.filter keep) task phase :=
  h.mono (fun _ hc _ => (List.mem_filter.mp hc).1) fun c hc htask hgate hheld =>
    List.mem_filter.mpr ⟨hc, hkeep c htask hgate hheld⟩

/-- A reference that is not held yet is the one its task waits for. -/
theorem PhaseInv.pending (hc : c ∈ claims) (htask : c.task = task)
    (hstage : c.stage ≠ .held) :
    phase = .gating ∨ ∃ scope key rest, phase = .waiting scope key c.mode rest ∧
      c.resource = .key key := by
  have hprogress : ∀ {scope taken current rest},
      Progress digest claims task scope taken current rest →
      ∃ e ∈ current, c.resource = .key e.1 ∧ c.mode = e.2 := fun h =>
    ((h.claims c hc htask).resolve_left fun hheld => hstage hheld.1).resolve_left fun hheld =>
      hstage hheld.1
  cases phase with
  | idle => exact absurd (h c hc htask).1 hstage
  | gating => exact .inl rfl
  | acquiring | holding =>
    obtain ⟨taken, hp⟩ := h
    obtain ⟨e, he, -⟩ := hprogress hp
    cases he
  | waiting scope key mode rest =>
    obtain ⟨taken, hp⟩ := h
    obtain ⟨e, he, hresource, hmode⟩ := hprogress hp
    rw [List.mem_singleton.mp he] at hresource hmode
    exact .inr ⟨scope, key, rest, by rw [hmode], hresource⟩
  | dropping => exact absurd (h c hc htask) hstage

/-- The reference a task waits for comes to another stage. -/
theorem PhaseInv.restaged {stage : Stage} (hrestaged : Restaged claims c stage claims')
    (hstage : c.stage ≠ .held) : PhaseInv digest claims' task phase := by
  obtain ⟨hc, hmem⟩ := hrestaged
  by_cases htask : c.task = task
  · rcases h.pending hc htask hstage with rfl | ⟨scope, key, rest, rfl, hresource⟩
    · obtain ⟨hgate, honly⟩ := h c hc htask
      have hnew : ∀ d ∈ claims', d.task = task → d = { c with stage } := fun d hd hdtask =>
        ((hmem d).mp hd).resolve_left fun hold => hold.2 (honly d hold.1 hdtask)
      intro d hd hdtask
      refine ⟨?_, fun d' hd' hdtask' => (hnew d' hd' hdtask').trans (hnew d hd hdtask).symm⟩
      rw [hnew d hd hdtask]
      exact hgate
    · obtain ⟨taken, hp⟩ := h
      refine ⟨taken, hp.split, fun e he => ?_, fun d hd hdtask => ?_⟩
      · obtain ⟨d, hd, hdtask, hdresource, hmode, hheld⟩ := hp.holds e he
        exact ⟨d, (hmem d).mpr (.inl ⟨hd, fun heq => hstage (heq ▸ hheld)⟩), hdtask, hdresource,
          hmode, hheld⟩
      · rcases (hmem d).mp hd with ⟨hold, -⟩ | rfl
        · exact hp.claims d hold hdtask
        · exact .inr (.inr ⟨_, List.mem_singleton_self _, hresource, rfl⟩)
  · refine h.frame fun d hd =>
      (hmem d).trans ⟨?_, fun hold => .inl ⟨hold, fun heq => htask (heq ▸ hd)⟩⟩
    rintro (⟨hold, -⟩ | rfl)
    · exact hold
    · exact absurd hd htask

end

/-- A task without locks starts to wait for a gate. -/
theorem phaseInv_gating (hnew : ∀ c' ∈ claims, c'.task ≠ task) (hgate : c.resource.isGate = true) :
    PhaseInv digest (claims ++ [c]) task .gating := by
  have honly : ∀ c' ∈ claims ++ [c], c'.task = task → c' = c := fun c' hc' htask =>
    List.mem_singleton.mp ((List.mem_append.mp hc').resolve_left fun hold => hnew c' hold htask)
  intro c' hc' htask
  rw [honly c' hc' htask]
  exact ⟨hgate, honly⟩

theorem Progress.add (h : Progress digest claims task scope taken current rest)
    (hnew : c.stage = .held ∧ c.resource.isGate = true ∨ ∃ e ∈ current, c.resource = .key e.1 ∧
      c.mode = e.2) :
    Progress digest (claims ++ [c]) task scope taken current rest where
  split := h.split
  holds e he := by
    obtain ⟨c', hc', hrest⟩ := h.holds e he
    exact ⟨c', List.mem_append_left _ hc', hrest⟩
  claims := List.forall_mem_append.mpr
    ⟨h.claims, List.forall_mem_singleton.mpr fun _ => hnew.imp_right .inr⟩

variable {e : Int64 × LockMode}

/-- The next key becomes the current one. -/
theorem Progress.next (h : Progress digest claims task scope taken [] (e :: rest)) :
    Progress digest claims task scope taken [e] rest where
  split := by rw [h.split]; simp
  holds := h.holds
  claims c hc htask := by
    rcases h.claims c hc htask with hgate | hkey | ⟨e, he, -⟩
    · exact .inl hgate
    · exact .inr (.inl hkey)
    · cases he

/-- The keys taken are smaller than the others. -/
theorem Progress.taken_lt {e' : Int64 × LockMode}
    (h : Progress digest claims task scope taken current rest)
    (he : e ∈ taken) (he' : e' ∈ current ++ rest) : e.1 < e'.1 := by
  have hsorted := (scope.lockSet digest).sorted
  rw [h.split, List.append_assoc] at hsorted
  exact (List.pairwise_append.mp hsorted).2.2 e he e' he'

/-- The current key is held, so it is taken. -/
theorem Progress.resume (h : Progress digest claims task scope taken [e] rest)
    (hclaims : ClaimInv claims) (hc : c ∈ claims) (htask : c.task = task)
    (hresource : c.resource = .key e.1)
    (hstage : c.stage = .held) : Progress digest claims task scope (taken ++ [e]) [] rest where
  split := by rw [h.split]; simp
  holds := by
    refine List.forall_mem_append.mpr
      ⟨h.holds, List.forall_mem_singleton.mpr ⟨c, hc, htask, hresource, ?_, hstage⟩⟩
    rcases h.claims c hc htask with ⟨-, hgate⟩ | ⟨-, e', he', hkey⟩ | ⟨e', he', -, hmode⟩
    · rw [hresource] at hgate
      cases hgate
    · have hlt := h.taken_lt he' (List.mem_append_left _ (List.mem_singleton_self e))
      rw [← Resource.key.inj (hresource.symm.trans hkey)] at hlt
      exact absurd hlt Int64.lt_irrefl
    · rw [hmode, List.mem_singleton.mp he']
  claims d hd hdtask := by
    rcases h.claims d hd hdtask with hgate | ⟨hheld, e', he', hkey⟩ | ⟨e', he', hkey, -⟩
    · exact .inl hgate
    · exact .inr (.inl ⟨hheld, e', List.mem_append_left _ he', hkey⟩)
    · rw [List.mem_singleton.mp he'] at hkey
      have hsame :=
        hclaims.eq_of_resource hd hc (hdtask.trans htask.symm) (hkey.trans hresource.symm)
      exact .inr (.inl ⟨by rw [hsame, hstage], e, List.mem_concat_self .., hkey⟩)

end Phases

/-! ## Steps -/

section Steps
variable {world : World} {task : Nat} {c : Claim} {phase : Phase}

variable (h : Inv digest world)
include h

theorem Inv.phaseInv (hphase : world.phase task = phase) :
    PhaseInv digest world.claims task phase :=
  hphase ▸ h.phases task

theorem Inv.setPhase (hphase : PhaseInv digest world.claims task phase) :
    Inv digest (world.setPhase task phase) where
  tables := h.tables
  claims := h.claims
  phases t := by
    dsimp only [World.setPhase]
    split
    next heq => exact heq ▸ hphase
    next => exact h.phases t

theorem Inv.dropClaims (task : Nat) {drop : Claim → Bool}
    (hother : ∀ c : Claim, c.task ≠ task → drop c = false)
    (hown : PhaseInv digest (world.claims.filter fun c => !drop c) task (world.phase task)) :
    Inv digest (Compute.dropClaims world drop) where
  tables := h.tables.mono fun c hc => ⟨c, (List.mem_filter.mp hc).1, rfl, rfl⟩
  claims := h.claims.filter _
  phases t := by
    by_cases ht : t = task
    · exact ht ▸ hown
    · refine (h.phases t).filter fun c hc _ _ => ?_
      rw [hother c (hc ▸ ht)]
      rfl

/-- A task looks a lock up. -/
theorem Inv.append {keys : LockTable} {made : Nat}
    {phases : Nat → Phase} (htables : TableInv gates keys (world.claims ++ [c]))
    (hnew : ∀ c' ∈ world.claims, c'.task = c.task → c'.resource ≠ c.resource)
    (hheld : c.stage = .held → ∀ c' ∈ world.claims, c'.resource = c.resource → c'.lock = c.lock →
      c'.stage ≠ .held)
    (hother : ∀ t, t ≠ c.task → phases t = world.phase t)
    (hown : PhaseInv digest (world.claims ++ [c]) c.task (phases c.task)) :
    Inv digest ⟨gates, keys, made, world.claims ++ [c], phases⟩ where
  tables := htables
  claims := h.claims.append hnew hheld
  phases t := by
    by_cases ht : t = c.task
    · exact ht ▸ hown
    · dsimp only
      rw [hother t ht]
      refine (h.phases t).frame fun c' hc' => ?_
      have hne : c' ≠ c := fun heq => ht (by rw [← hc', heq])
      simp [hne]

omit h in
theorem live_append (h : live (claims ++ [c]) resource lock = true) :
    live claims resource lock = true ∨ c.resource = resource ∧ c.lock = lock := by
  obtain ⟨d, hd, hsame⟩ := live_eq_true.mp h
  rcases List.mem_append.mp hd with hd | hd
  · exact .inl (live_eq_true.mpr ⟨d, hd, hsame⟩)
  · rw [List.mem_singleton.mp hd] at hsame
    exact .inr hsame

theorem Inv.tables_gateFor {sandboxId : String} (hresource : c.resource = .gate sandboxId)
    (hlock : c.lock =
      (gateFor world.gates (fun id => live world.claims (.gate id)) sandboxId world.made).2) :
    TableInv (gateFor world.gates (fun id => live world.claims (.gate id))
      sandboxId world.made).1 world.keys
      (world.claims ++ [c]) where
  gates := by
    refine gateFor_tracks h.tables.gates fun id lock hlive => ?_
    rcases live_append hlive with hold | ⟨hsame, rfl⟩
    · exact .inl hold
    · exact .inr ⟨Resource.gate.inj (hsame.symm.trans hresource), hlock⟩
  keys := by
    refine h.tables.keys.mono fun key lock hlive =>
      (live_append hlive).resolve_right fun hsame => ?_
    cases hresource.symm.trans hsame.1

theorem Inv.tables_lockFor (hresource : c.resource = .key key)
    (hlock : c.lock = (world.keys.lockFor (fun k => live world.claims (.key k)) key world.made).2) :
    TableInv world.gates (world.keys.lockFor (fun k => live world.claims (.key k)) key world.made).1
      (world.claims ++ [c]) where
  gates := by
    refine h.tables.gates.mono fun id lock hlive =>
      (live_append hlive).resolve_right fun hsame => ?_
    cases hresource.symm.trans hsame.1
  keys := by
    refine LockTable.lockFor_tracks h.tables.keys fun k lock hlive => ?_
    rcases live_append hlive with hold | ⟨hsame, rfl⟩
    · exact .inl hold
    · exact .inr ⟨Resource.key.inj (hsame.symm.trans hresource), hlock⟩

theorem Inv.restaged (stage : Stage)
    (hrestaged : Restaged world.claims c stage claims) (hstage : c.stage ≠ .held)
    (hdistinct : claims.Pairwise fun c c' => ¬ (c.task = c'.task ∧ c.resource = c'.resource))
    (hheld : stage = .held → ∀ d ∈ world.claims, d.resource = c.resource → d.lock = c.lock →
      d.stage = .held →
      d.mode = .shared ∧ c.mode = .shared) : Inv digest { world with claims } where
  tables := hrestaged.tables h.tables
  claims := hrestaged.exclusion h.claims hdistinct hheld
  phases t := (h.phases t).restaged hrestaged hstage

theorem Inv.queue (task : Nat) : Inv digest (queue world task) := by
  unfold Compute.queue
  split
  next c hfind =>
    obtain ⟨hc, -, hstage⟩ := of_find?_eq_some hfind
    refine h.restaged .queued ⟨hc, fun d => ?_⟩ (by simp [hstage]) ?_ fun hheld => by cases hheld
    · simp [and_comm]
    · refine List.pairwise_append.mpr
        ⟨h.claims.distinct.filter _, List.pairwise_singleton .., fun d hd d' hd' => ?_⟩
      rw [List.mem_singleton.mp hd']
      obtain ⟨hd, hne⟩ := List.mem_filter.mp hd
      exact fun hsame => of_decide_eq_true hne (h.claims.eq_of_resource hd hc hsame.1 hsame.2)
  next => exact h

theorem Inv.handOver (resource : Resource) (lock : Nat) :
    Inv digest (handOver world resource lock) := by
  unfold Compute.handOver
  split
  next request hfind =>
    obtain ⟨hc, -, -, hstage⟩ := of_find?_eq_some hfind
    split
    next hadmits =>
      refine h.restaged .held ⟨hc, fun d => ?_⟩ (by simp [hstage]) ?_
        fun _ d hd hresource hlock hheld => ?_
      · rw [List.mem_map]
        constructor
        · rintro ⟨d, hd, rfl⟩
          split
          next => exact .inr (by simp [*])
          next hne => exact .inl ⟨hd, hne⟩
        · rintro (⟨hd, hne⟩ | rfl)
          · exact ⟨d, hd, if_neg hne⟩
          · exact ⟨request, hc, if_pos rfl⟩
      · refine List.pairwise_map.mpr (h.claims.distinct.imp fun {d d'} hne => ?_)
        split <;> split <;> exact hne
      · have := List.all_eq_true.mp hadmits d hd
        simpa [hresource, hlock, hheld] using this
    next => exact h
  next => exact h

/-- A gate that is tried is taken if it is free. -/
theorem Inv.tryGate (sandboxId : String)
    (hphase : world.phase task = .idle ∨ ∃ scope, world.phase task = .holding scope) :
    Inv digest (tryGate world task sandboxId) := by
  unfold Compute.tryGate
  dsimp only
  split
  next =>
    exact ⟨⟨gateFor_tracks h.tables.gates fun _ _ hlive => .inl hlive, h.tables.keys⟩,
      h.claims, h.phases⟩
  next hbusy =>
    have hfree : ∀ c' ∈ world.claims, c'.resource = .gate sandboxId →
        c'.lock = (gateFor world.gates (fun id => live world.claims (.gate id))
          sandboxId world.made).2 →
        c'.stage = .found := by
      intro c' hc' hresource hlock
      by_contra hstage
      exact hbusy (List.any_eq_true.mpr ⟨c', hc', decide_eq_true ⟨hresource, hlock, hstage⟩⟩)
    have htables := h.tables_gateFor (c := ⟨.gate sandboxId, _, task, .exclusive, .held⟩) rfl rfl
    have hheld : ∀ c' ∈ world.claims, c'.task = task → c'.stage = .held := by
      intro c' hc' htask
      by_contra hstage
      have hpending := (h.phases task).pending hc' htask hstage
      rcases hphase with hphase | ⟨scope, hphase⟩ <;> simp [hphase] at hpending
    have hnew : ∀ c' ∈ world.claims, c'.task = task → c'.resource ≠ .gate sandboxId := by
      intro c' hc' htask hresource
      have hlock := htables.lock_eq (List.mem_append_left _ hc') (List.mem_concat_self ..) hresource
      cases (hheld c' hc' htask).symm.trans (hfree c' hc' hresource hlock)
    refine h.append htables hnew (fun _ c' hc' hresource hlock hstage => ?_) (fun _ _ => rfl) ?_
    · rw [hfree c' hc' hresource hlock] at hstage
      cases hstage
    · have hown := h.phases task
      dsimp only
      rcases hphase with hphase | ⟨scope, hphase⟩ <;> rw [hphase] at hown ⊢
      · exact List.forall_mem_append.mpr ⟨hown, List.forall_mem_singleton.mpr fun _ => ⟨rfl, rfl⟩⟩
      · exact hown.imp fun _ hp => hp.add (.inl ⟨rfl, rfl⟩)

theorem Inv.step (call : Call) : Inv digest (step digest world call) := by
  cases call with
  | waitGate task sandboxId =>
    dsimp only [Compute.step]
    split
    next =>
      split
      next hnone =>
        have hnew : ∀ c' ∈ world.claims, c'.task ≠ task := fun c' hc' => by
          simpa using List.all_eq_true.mp hnone c' hc'
        refine h.append (h.tables_gateFor rfl rfl) (fun c' hc' htask => absurd htask (hnew c' hc'))
          (fun hheld => by cases hheld) (fun t ht => if_neg ht) ?_
        dsimp only
        rw [if_pos rfl]
        exact phaseInv_gating hnew rfl
      next => exact h
    next => exact h
  | tryGate task sandboxId =>
    dsimp only [Compute.step]
    split
    next hphase => exact h.tryGate sandboxId (.inl hphase)
    next scope hphase => exact h.tryGate sandboxId (.inr ⟨scope, hphase⟩)
    next => exact h
  | dropGate task sandboxId =>
    have hdrop : Inv digest
        (Compute.dropClaims world fun claim => claim.task = task ∧
          claim.resource = .gate sandboxId) := by
      refine h.dropClaims task (fun c hc => by simp [hc])
        ((h.phases task).filter fun c _ hgate _ => ?_)
      have : c.resource ≠ .gate sandboxId := fun heq => by rw [heq] at hgate; cases hgate
      simp [this]
    dsimp only [Compute.step]
    split
    next => exact h
    next => exact hdrop
  | acquire task scope =>
    dsimp only [Compute.step]
    split
    next hphase =>
      have hidle := h.phaseInv hphase
      refine h.setPhase
        ⟨[], by simp, List.forall_mem_nil _, fun c hc htask => .inl (hidle c hc htask)⟩
    next => exact h
  | next task =>
    dsimp only [Compute.step]
    split
    next scope key mode rest hphase =>
      obtain ⟨taken, hp⟩ := h.phaseInv hphase
      have hnew : ∀ c' ∈ world.claims, c'.task = task → c'.resource ≠ .key key := by
        intro c' hc' htask hresource
        rcases hp.claims c' hc' htask with ⟨-, hgate⟩ | ⟨-, e, he, hkey⟩ | ⟨e, he, -⟩
        · rw [hresource] at hgate
          cases hgate
        · obtain rfl := Resource.key.inj (hresource.symm.trans hkey)
          have hlt := hp.taken_lt he List.mem_cons_self
          exact Int64.lt_irrefl hlt
        · cases he
      refine h.append (h.tables_lockFor rfl rfl) hnew (fun hheld => by cases hheld)
        (fun t ht => if_neg ht) ?_
      dsimp only
      rw [if_pos rfl]
      exact ⟨taken, hp.next.add (.inr ⟨_, List.mem_singleton_self _, rfl, rfl⟩)⟩
    next scope hphase =>
      have hacquiring := h.phaseInv hphase
      exact h.setPhase hacquiring
    next => exact h
  | poll task => exact h.queue task
  | grant resource lock => exact h.handOver resource lock
  | resume task =>
    dsimp only [Compute.step]
    split
    next hphase =>
      have hgating := h.phaseInv hphase
      split
      next hheld =>
        obtain ⟨c, hc, hcheld⟩ := List.any_eq_true.mp hheld
        obtain ⟨htask, hstage⟩ := of_decide_eq_true hcheld
        obtain ⟨hgate, honly⟩ := hgating c hc htask
        refine h.setPhase fun c' hc' htask' => ?_
        rw [honly c' hc' htask']
        exact ⟨hstage, hgate⟩
      next => exact h
    next scope key mode rest hphase =>
      obtain ⟨taken, hp⟩ := h.phaseInv hphase
      split
      next hheld =>
        obtain ⟨c, hc, hcheld⟩ := List.any_eq_true.mp hheld
        obtain ⟨htask, hresource, hstage⟩ := of_decide_eq_true hcheld
        exact h.setPhase ⟨_, hp.resume h.claims hc htask hresource hstage⟩
      next => exact h
    next => exact h
  | cancel task =>
    have hdropped : Inv digest
        (Compute.dropClaims world fun claim => claim.task = task ∧ claim.stage ≠ .held) :=
      h.dropClaims task (fun c hc => by simp [hc])
        ((h.phases task).filter fun c _ _ hheld => by simp [hheld])
    have hheld : PhaseInv digest
        (Compute.dropClaims world fun claim => claim.task = task ∧ claim.stage ≠ .held).claims task
        .dropping := by
      intro c hc htask
      have hkept := (List.mem_filter.mp hc).2
      simpa [htask] using hkept
    dsimp only [Compute.step]
    split
    next hphase =>
      have hnone : ∀ c ∈ world.claims.filter fun c => !decide (c.task = task), c.task ≠ task :=
        fun c hc => by
        simpa using (List.mem_filter.mp hc).2
      refine (h.dropClaims task (fun c hc => by simp [hc]) ?_).setPhase fun c hc htask =>
        absurd htask (hnone c hc)
      rw [hphase]
      exact fun c hc htask => absurd htask (hnone c hc)
    next => exact hdropped.setPhase hheld
    next => exact hdropped.setPhase hheld
    next => exact h
  | dropGuard task =>
    dsimp only [Compute.step]
    split
    next scope hphase =>
      obtain ⟨taken, hp⟩ := h.phaseInv hphase
      refine h.setPhase fun c hc htask => ?_
      rcases hp.claims c hc htask with hheld | hheld | ⟨e, he, -⟩
      · exact hheld.1
      · exact hheld.1
      · cases he
    next => exact h
  | release task key =>
    dsimp only [Compute.step]
    split
    next hphase =>
      refine h.dropClaims task (fun c hc => by simp [hc]) ?_
      have hdropping := h.phases task
      rw [hphase] at hdropping ⊢
      exact fun c hc => hdropping c (List.mem_filter.mp hc).1
    next => exact h
  | released task =>
    dsimp only [Compute.step]
    split
    next hphase =>
      have hdropping := h.phaseInv hphase
      split
      next hgates =>
        refine h.setPhase fun c hc htask => ⟨hdropping c hc htask, ?_⟩
        have := List.all_eq_true.mp hgates c hc
        simpa [htask] using this
      next => exact h
    next => exact h

end Steps

theorem inv_initial : Inv digest World.initial where
  tables := ⟨fun _ _ hlive => (by cases hlive), fun _ _ hlive => (by cases hlive)⟩
  claims := ⟨.nil, List.forall_mem_nil _⟩
  phases _ := List.forall_mem_nil _

theorem inv_worldAfter (calls : List Call) : Inv digest (worldAfter digest calls) :=
  List.foldlRecOn calls (step digest) inv_initial fun _ h call _ => h.step call

/-! ## Conflicts -/

def GuardScope.sandboxId : GuardScope → Option String
  | .mutation (.sandbox _ sandboxId) | .lifecycle sandboxId => some sandboxId
  | _ => none

/-- The scopes whose guards must not be held together. -/
inductive Conflicts : GuardScope → GuardScope → Prop
  | global (scope : GuardScope) : Conflicts (.mutation .global) scope
  | workspace (name : String) :
      Conflicts (.mutation (.workspace name)) (.mutation (.workspace name))
  | member {name workspace : String} (sandboxId : String)
      (hname : sandboxWorkspaceKey workspace = name) :
      Conflicts (.mutation (.workspace name)) (.mutation (.sandbox workspace sandboxId))
  | sandbox {scope scope' : GuardScope} {sandboxId : String} (h : scope.sandboxId = some sandboxId)
      (h' : scope'.sandboxId = some sandboxId) : Conflicts scope scope'
  | symm {scope scope' : GuardScope} (h : Conflicts scope scope') : Conflicts scope' scope

/-- A set has a key, exclusively if that is asked for. -/
def MutationLockSet.Covers (set : MutationLockSet) (key : Int64) (mode : LockMode) : Prop :=
  ∃ m, (key, m) ∈ set.entries ∧ (mode = .exclusive → m = .exclusive)

section Covers
variable {set : MutationLockSet} {k : Int64} {m : LockMode}

theorem mem_insertEntry_self {key : Int64} {mode : LockMode} :
    ∀ (entries : List (Int64 × LockMode)), ∃ m, (key, m) ∈ insertEntry key mode entries ∧
      (mode = .exclusive → m = .exclusive)
  | [] => ⟨mode, List.mem_singleton_self _, id⟩
  | (k, m) :: rest => by
    unfold insertEntry
    split
    next => exact ⟨mode, List.mem_cons_self, id⟩
    next =>
      split
      next heq =>
        subst heq
        refine ⟨m.max mode, List.mem_cons_self, fun hmode => ?_⟩
        rw [hmode]
        cases m <;> rfl
      next =>
        obtain ⟨m', hmem, hmode⟩ := mem_insertEntry_self rest
        exact ⟨m', List.mem_cons_of_mem _ hmem, hmode⟩

theorem mem_insertEntry_of_mem {key k : Int64} {mode m : LockMode} :
    ∀ {entries : List (Int64 × LockMode)}, (k, m) ∈ entries →
      ∃ m', (k, m') ∈ insertEntry key mode entries ∧ (m = .exclusive → m' = .exclusive)
  | (k', m'') :: rest, h => by
    unfold insertEntry
    split
    next => exact ⟨m, List.mem_cons_of_mem _ h, id⟩
    next =>
      rcases List.mem_cons.mp h with heq | h
      · cases heq
        split
        next =>
          refine ⟨m.max mode, List.mem_cons_self, fun hmode => ?_⟩
          rw [hmode]
          cases mode <;> rfl
        next => exact ⟨m, List.mem_cons_self, id⟩
      · split
        next => exact ⟨m, List.mem_cons_of_mem _ h, id⟩
        next =>
          obtain ⟨m', hmem, hmode⟩ := mem_insertEntry_of_mem h
          exact ⟨m', List.mem_cons_of_mem _ hmem, hmode⟩

theorem MutationLockSet.covers_insert (key : MutationLockKey) (mode : LockMode) :
    (set.insert digest key mode).Covers (key.advisoryKey digest) mode := mem_insertEntry_self _

theorem MutationLockSet.Covers.insert (h : set.Covers k m) (key : MutationLockKey)
    (mode : LockMode) :
    (set.insert digest key mode).Covers k m := by
  obtain ⟨m', hmem, hmode⟩ := h
  obtain ⟨m'', hmem', hmode'⟩ := mem_insertEntry_of_mem hmem
  exact ⟨m'', hmem', fun hm => hmode' (hmode hm)⟩

theorem MutationLockSet.Covers.shared (h : set.Covers k .exclusive) : set.Covers k .shared :=
  h.imp fun _ h => ⟨h.1, nofun⟩

end Covers

/-- Every guard has the global key. -/
theorem GuardScope.covers_global (scope : GuardScope) :
    (scope.lockSet digest).Covers globalMutationLockKey .shared := by
  have hshared : (MutationLockSet.empty.insert digest .global .shared).Covers
      globalMutationLockKey .shared :=
    MutationLockSet.covers_insert .global .shared
  have hexclusive : (MutationLockSet.empty.insert digest .global .exclusive).Covers
      globalMutationLockKey .shared :=
    (MutationLockSet.covers_insert .global .exclusive).shared
  cases scope with
  | lifecycle sandboxId => exact hshared.insert _ _
  | mutation scope =>
    cases scope with
    | global => exact hexclusive
    | workspace name =>
      dsimp only [GuardScope.lockSet, MutationScope.lockSet]
      split
      next => exact hexclusive
      next => exact hshared.insert _ _
    | sandbox workspace sandboxId => exact (hshared.insert _ _).insert _ _

variable {scope : GuardScope}

/-- Guards of one sandbox have its key exclusively. -/
theorem GuardScope.covers_sandbox {sandboxId : String} (h : scope.sandboxId = some sandboxId) :
    (scope.lockSet digest).Covers ((MutationLockKey.sandbox sandboxId).advisoryKey digest)
      .exclusive := by
  cases scope with
  | lifecycle id =>
    cases h
    exact MutationLockSet.covers_insert _ _
  | mutation scope =>
    cases scope with
    | global | workspace => cases h
    | sandbox workspace id =>
      cases h
      exact MutationLockSet.covers_insert _ _

theorem sandboxWorkspaceKey_ne_empty (workspace : String) :
    ¬ (sandboxWorkspaceKey workspace).isEmpty = true := by
  unfold sandboxWorkspaceKey
  split
  next => decide
  next hne => exact hne

variable {scope' : GuardScope}

/-- Scopes that conflict share a key that one of them has exclusively. -/
theorem Conflicts.covers (h : Conflicts scope scope') :
    ∃ key, (scope.lockSet digest).Covers key .exclusive ∧
      (scope'.lockSet digest).Covers key .shared ∨ (scope.lockSet digest).Covers key .shared ∧
        (scope'.lockSet digest).Covers key .exclusive := by
  induction h with
  | global scope =>
    exact ⟨globalMutationLockKey,
      .inl ⟨MutationLockSet.covers_insert .global .exclusive, scope.covers_global⟩⟩
  | workspace name =>
    dsimp only [GuardScope.lockSet, MutationScope.lockSet]
    split
    next =>
      have hglobal : (MutationLockSet.empty.insert digest .global .exclusive).Covers
          globalMutationLockKey .exclusive :=
        MutationLockSet.covers_insert .global .exclusive
      exact ⟨_, .inl ⟨hglobal, hglobal.shared⟩⟩
    next => exact ⟨_,
      .inl ⟨MutationLockSet.covers_insert _ _, (MutationLockSet.covers_insert _ _).shared⟩⟩
  | @member name workspace sandboxId hname =>
    dsimp only [GuardScope.lockSet, MutationScope.lockSet]
    rw [← hname, if_neg (sandboxWorkspaceKey_ne_empty workspace)]
    exact ⟨_, .inl ⟨MutationLockSet.covers_insert _ _,
      (MutationLockSet.covers_insert _ _).insert _ _⟩⟩
  | sandbox h h' =>
    exact ⟨_, .inl ⟨GuardScope.covers_sandbox h, (GuardScope.covers_sandbox h').shared⟩⟩
  | symm _ ih =>
    obtain ⟨key, hcovers⟩ := ih
    exact ⟨key, hcovers.symm.imp And.symm And.symm⟩

/-! ## Safety -/

/-- A task waits for a lock that another task holds or is queued for ahead of it. -/
def WaitsFor (world : World) (task other : Nat) : Prop :=
  ∃ (i j : Nat) (c c' : Claim), world.claims[j]? = some c ∧ c.task = task ∧ c.stage = .queued ∧
    world.claims[i]? = some c' ∧ c'.task = other ∧ c'.resource = c.resource ∧ c'.lock = c.lock ∧
      (c'.stage = .held ∨ c'.stage = .queued ∧ i < j)

structure Safe (world : World) : Prop where
  exclusive : ∀ task task' scope scope', task ≠ task' → world.phase task = .holding scope →
    world.phase task' = .holding scope' → ¬ Conflicts scope scope'
  unique : ∀ c ∈ world.claims, ∀ c' ∈ world.claims, c.resource = c'.resource → c.lock = c'.lock
  acyclic : ∀ tasks : Finset Nat, tasks.Nonempty →
    ¬ ∀ task ∈ tasks, ∃ other ∈ tasks, other ≠ task ∧ WaitsFor world task other

/-- Where a resource stands in the order of acquisition; gates come first. -/
def Resource.rank : Resource → WithBot Int
  | .gate _ => ⊥
  | .key value => value.toInt

section Safe
variable {world : World} (h : Inv digest world)
include h

theorem Inv.exclusive {task task' : Nat} (hne : task ≠ task')
    (hphase : world.phase task = .holding scope) (hphase' : world.phase task' = .holding scope') :
    ¬ Conflicts scope scope' := by
  intro hconflict
  have hholds : ∀ {task scope}, world.phase task = .holding scope →
      ∀ e ∈ (scope.lockSet digest).entries,
      ∃ c ∈ world.claims, c.task = task ∧ c.resource = .key e.1 ∧ c.mode = e.2 ∧
      c.stage = .held := by
    intro task scope hphase e he
    obtain ⟨taken, hp⟩ := h.phaseInv hphase
    rw [hp.split, List.append_nil, List.append_nil] at he
    exact hp.holds e he
  have hshared : ∀ {key m m'}, (key, m) ∈ (scope.lockSet digest).entries →
      (key, m') ∈ (scope'.lockSet digest).entries → m = .shared ∧ m' = .shared := by
    intro key m m' hm hm'
    obtain ⟨c, hc, htask, hresource, hmode, hheld⟩ := hholds hphase _ hm
    obtain ⟨c', hc', htask', hresource', hmode', hheld'⟩ := hholds hphase' _ hm'
    have hsame : c.resource = c'.resource := hresource.trans hresource'.symm
    have hmodes := h.claims.exclusion c hc c' hc' (by rw [htask, htask']; exact hne) hsame
      (h.tables.lock_eq hc hc' hsame) hheld hheld'
    exact ⟨hmode.symm.trans hmodes.1, hmode'.symm.trans hmodes.2⟩
  obtain ⟨key, ⟨⟨m, hm, hmode⟩, m', hm', -⟩ | ⟨⟨m, hm, -⟩, m', hm', hmode⟩⟩ := hconflict.covers
  · cases (hshared hm hm').1.symm.trans (hmode rfl)
  · cases (hshared hm hm').2.symm.trans (hmode rfl)

variable {c c' : Claim}

/-- A task that waits holds only what comes before. -/
theorem Inv.rank_lt (hc : c ∈ world.claims) (hc' : c' ∈ world.claims)
    (htask : c.task = c'.task) (hstage : c.stage ≠ .held) (hheld : c'.stage = .held) :
    c'.resource.rank < c.resource.rank := by
  have hphase := h.phases c.task
  have hne : c' ≠ c := fun heq => hstage (heq ▸ hheld)
  rcases hphase.pending hc rfl hstage with hgating | ⟨scope, key, rest, hwaiting, hresource⟩
  · rw [hgating] at hphase
    exact absurd ((hphase c hc rfl).2 c' hc' htask.symm) hne
  · rw [hwaiting] at hphase
    obtain ⟨taken, hp⟩ := hphase
    rw [hresource]
    rcases hp.claims c' hc' htask.symm with ⟨-, hgate⟩ | ⟨-, e, he, hkey⟩ | ⟨e, he, hkey, -⟩
    · cases hcase : c'.resource with
      | gate id => exact WithBot.bot_lt_coe _
      | key k =>
        rw [hcase] at hgate
        cases hgate
    · rw [hkey]
      have hlt := hp.taken_lt he List.mem_cons_self
      exact WithBot.coe_lt_coe.mpr (Int64.lt_iff_toInt_lt.mp hlt)
    · rw [List.mem_singleton.mp he] at hkey
      exact absurd (h.claims.eq_of_resource hc' hc htask.symm (hkey.trans hresource.symm)) hne

/-- A task has one reference that is not held. -/
theorem Inv.pending_eq (hc : c ∈ world.claims) (hc' : c' ∈ world.claims)
    (htask : c.task = c'.task) (hstage : c.stage ≠ .held) (hstage' : c'.stage ≠ .held) :
    c = c' := by
  have hphase := h.phases c.task
  rcases hphase.pending hc rfl hstage with hgating | ⟨scope, key, rest, hwaiting, hresource⟩
  · rw [hgating] at hphase
    exact ((hphase c hc rfl).2 c' hc' htask.symm).symm
  · rcases hphase.pending hc' htask.symm hstage' with hgating | ⟨scope', key', rest',
      hwaiting', hresource'⟩
    · rw [hgating] at hwaiting
      cases hwaiting
    · rw [hwaiting] at hwaiting'
      injection hwaiting' with _ hkey
      exact h.claims.eq_of_resource hc hc' htask (by rw [hresource, hresource', hkey])

/-- How far a waiting task has come in the order of acquisition. -/
def World.rank (world : World) (task : Nat) : WithBot Int :=
  ((world.claims.find? fun c => c.task = task ∧ c.stage = .queued).map (·.resource.rank)).getD ⊥

theorem Inv.rank_eq (hc : c ∈ world.claims) (hstage : c.stage = .queued) :
    world.rank c.task = c.resource.rank := by
  have hfind : world.claims.find? (fun d => d.task = c.task ∧ d.stage = .queued) = some c := by
    refine (find?_eq_some_iff_of_unique fun x hx y hy hx' hy' => ?_).mpr ⟨hc, rfl, hstage⟩
    exact h.pending_eq hx hy (hx'.1.trans hy'.1.symm) (by rw [hx'.2]; decide)
      (by rw [hy'.2]; decide)
  rw [World.rank, hfind]
  rfl

theorem Inv.acyclic (tasks : Finset Nat) (hsome : tasks.Nonempty) :
    ¬ ∀ task ∈ tasks, ∃ other ∈ tasks, other ≠ task ∧ WaitsFor world task other := by
  intro hwait
  obtain ⟨last, hmember, hlast⟩ := Finset.exists_max_image tasks world.rank hsome
  have hnodup : world.claims.Nodup := h.claims.distinct.imp fun {c c'} hne (heq : c = c') =>
    hne (heq ▸ ⟨rfl, rfl⟩)
  -- of the tasks that wait for the last lock, the first in its queue waits for none of them
  have hqueue : ∀ (j : Nat) (c : Claim), world.claims[j]? = some c → c.task ∈ tasks →
      c.stage = .queued → ¬ world.rank last ≤ c.resource.rank := by
    intro j
    induction j using Nat.strong_induction_on with
    | _ j ih =>
      intro c hc htask hstage hrank
      have hmem := List.mem_of_getElem? hc
      obtain ⟨other, hother, -, i, j', c₁, c', hc₁, htask₁, hstage₁, hc', rfl, hresource, -,
          hahead⟩ := hwait c.task htask
      have hmem₁ := List.mem_of_getElem? hc₁
      have hmem' := List.mem_of_getElem? hc'
      obtain rfl : c₁ = c :=
        h.pending_eq hmem₁ hmem htask₁ (by simp [hstage₁]) (by simp [hstage])
      obtain rfl : j' = j := (List.getElem?_inj (List.getElem?_eq_some_iff.mp hc₁).1 hnodup).mp
        (hc₁.trans hc.symm)
      rcases hahead with hheld | ⟨hqueued, hlt⟩
      · obtain ⟨-, -, -, i', k, d, -, hd, hdtask, hdstage, -⟩ := hwait c'.task hother
        have hmemd := List.mem_of_getElem? hd
        have hbelow := h.rank_lt hmemd hmem' hdtask (by simp [hdstage]) hheld
        have habove := hlast d.task (hdtask ▸ hother)
        rw [h.rank_eq hmemd hdstage] at habove
        rw [hresource] at hbelow
        exact absurd (hrank.trans_lt hbelow) (not_lt.mpr habove)
      · exact ih i hlt c' hc' hother hqueued (hresource ▸ hrank)
  obtain ⟨-, -, -, -, j, c, -, hc, rfl, hstage, -⟩ := hwait last hmember
  exact hqueue j c hc hmember hstage (h.rank_eq (List.mem_of_getElem? hc) hstage).le

end Safe

/-- After any calls in any order, guards of conflicting scopes are not held together, a resource has
one lock, and no set of tasks waits for itself. -/
theorem safe_worldAfter (calls : List Call) : Safe (worldAfter digest calls) where
  exclusive _ _ _ _ := (inv_worldAfter calls).exclusive
  unique _ hc _ hc' := (inv_worldAfter calls).tables.lock_eq hc hc'
  acyclic := (inv_worldAfter calls).acyclic

/-- A task waits for a lock that another task holds or is queued for anywhere. -/
def ContendsWith (world : World) (task other : Nat) : Prop :=
  ∃ c ∈ world.claims, ∃ c' ∈ world.claims, c.task = task ∧ c.stage = .queued ∧ c'.task = other ∧
    c'.resource = c.resource ∧ c'.lock = c.lock ∧ c'.stage ≠ .found

instance (world : World) (task other : Nat) : Decidable (ContendsWith world task other) :=
  inferInstanceAs (Decidable (∃ c ∈ world.claims, _))

/-- One global guard is held and two more are waited for. -/
def queuedCalls : List Call :=
  [.acquire 0 (.mutation .global), .next 0, .poll 0, .grant (.key globalMutationLockKey) 0,
    .resume 0, .next 0,
    .acquire 1 (.mutation .global), .next 1, .poll 1, .acquire 2 (.mutation .global),
    .next 2, .poll 2]

theorem contendsWith_queuedCalls : ∃ tasks : Finset Nat, tasks.Nonempty ∧
    ∀ task ∈ tasks, ∃ other ∈ tasks, other ≠ task ∧
      ContendsWith (worldAfter (fun _ _ => 0) queuedCalls) task other :=
  ⟨{1, 2}, ⟨1, by simp⟩, by decide⟩

end OpenShell.Compute
