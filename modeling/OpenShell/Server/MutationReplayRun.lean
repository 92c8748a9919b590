import OpenShell.Server.MutationReplaySafe

/-!
# Runs of the admission fence

What the steps of the tasks add up to over a run: an execution of a key follows
another one only after the claim of the first was removed with its success
recorded and expired.
-/

namespace OpenShell.Server.MutationReplay

open Persistence (Objects ObjectRecord)

variable {S : Type}

def events (calls : List (Call S)) : List (Event (World S) (Call S) (Reply S)) :=
  Run.trace step .initial calls

def worldAfter (calls : List (Call S)) : World S := Run.after step .initial calls

/-- The task that acts in an event. -/
def taskOf (e : Event (World S) (Call S) (Reply S)) : Option (Task S) :=
  e.call.task.bind (e.before.tasks[·]?)

/-- The caller and key an event is about. -/
def keyOf (e : Event (World S) (Call S) (Reply S)) : Option (String × String) :=
  (taskOf e).map fun task => (task.bucket, task.key)

/-- Between two executions for one key the claim of the first is removed, with a success
that was recorded and has expired on the clock of the remover. -/
def ExecutesOnce (expiry : Int → Int) (calls : List (Call S)) : Prop :=
  ∀ before between after e e' claimId claimId',
    events calls = before ++ e :: (between ++ e' :: after) → e.outcome = .executes claimId →
    e'.outcome = .executes claimId' → keyOf e = keyOf e' →
      ∃ r ∈ between, ∃ clockMs, r.outcome = .removed claimId clockMs ∧
        ∃ row ∈ r.before.store.rows, row.id = claimId ∧ ∃ success completedAtMs,
          row.payload.success = some success ∧ row.payload.completedAtMs = some completedAtMs ∧
            expiry completedAtMs ≤ clockMs

structure RunSafe (calls : List (Call S)) : Prop where
  once : ExecutesOnce expiryMs calls
  /-- A claim without a success is never removed. -/
  unresolved : ∀ e ∈ events calls, ∀ row ∈ e.before.store.rows, row.payload.success = none →
    ∃ row' ∈ e.after.store.rows, row'.id = row.id
  /-- A replay answers a call whose key and fingerprint are those of a recorded success. -/
  replay : ∀ before after e success, events calls = before ++ e :: after →
    e.outcome = .replayed success →
    ∃ r ∈ before, ∃ claimId, r.outcome = .recorded claimId ∧ keyOf r = keyOf e ∧
      (taskOf r).map (·.fingerprint) = (taskOf e).map (·.fingerprint)
  /-- A success is recorded by the task whose execution the claim admitted. -/
  owner : ∀ before after e claimId, events calls = before ++ e :: after →
    e.outcome = .recorded claimId →
    ∃ c ∈ before, c.outcome = .executes claimId ∧ c.call.task = e.call.task
  /-- Nothing else completes a claim. -/
  completed : ∀ e ∈ events calls, ∀ row ∈ e.before.store.rows, ∀ row' ∈ e.after.store.rows,
    row'.id = row.id →
    row.payload.success = none → row'.payload.success.isSome = true → e.outcome = .recorded row.id
  /-- A caller has a bounded number of claims. -/
  quota : ∀ bucket, (worldAfter calls).store.count bucket ≤ maxAdmissionsPerCaller

section Run
variable {world world' : World S} {call : Call S} {reply : Reply S} {calls : List (Call S)}
  {e : Event (World S) (Call S) (Reply S)}

theorem worldInv_after (h : WorldInv world) (calls : List (Call S)) :
    WorldInv (Run.after step world calls) :=
  Run.after_of_step (fun _ call h => h.took (step_took h call)) h calls

/-- The invariants and the step of an event. -/
theorem took_of_mem_trace (h : WorldInv world) (he : e ∈ Run.trace step world calls) :
    WorldInv e.before ∧ Took e.before e.call e.after e.outcome := by
  obtain ⟨pre, -, -, hbefore, -⟩ := Run.mem_trace he
  have hinv : WorldInv e.before := hbefore ▸ worldInv_after h pre
  exact ⟨hinv, (Run.of_mem_trace he (step_took hinv _)).2⟩

theorem keyOf_eq {task : Task S} (h : taskOf e = some task) :
    keyOf e = some (task.bucket, task.key) := by
  unfold keyOf
  rw [h, Option.map_some]

theorem Admission.isExpired_iff {admission : Admission S} {nowMs : Int} :
    admission.isExpired nowMs = true ↔ ∃ success completedAtMs, admission.success = some success ∧
      admission.completedAtMs = some completedAtMs ∧ expiryMs completedAtMs ≤ nowMs := by
  unfold Admission.isExpired
  cases admission.success <;> cases admission.completedAtMs <;> simp

/-- What a step leaves recorded was there before, or the step says so. -/
theorem Took.recorded (htook : Took world call world' reply)
    {row : ObjectRecord (Admission S)} (hrow : row ∈ world'.store.rows)
    (hsuccess : row.payload.success.isSome = true) :
    row ∈ world.store.rows ∨ reply = .recorded row.id ∧
      ∃ task, call.task.bind (world.tasks[·]?) = some task ∧
      row.workspace = task.bucket ∧ row.name = task.key ∧
        row.payload.fingerprint = task.fingerprint := by
  cases htook with
  | idle | started => exact .inl hrow
  | stepped hcall htask hspec =>
    rcases hspec.recorded row hrow hsuccess with hold | ⟨hreply, hkey⟩
    · exact .inl hold
    · exact .inr ⟨hreply, _, by rw [hcall, Option.bind_some, htask], hkey⟩

variable {claimId : String}

/-- A task that owns a claim after a step owned it before, or the step admits it. -/
theorem Took.owns (htook : Took world call world' reply)
    {index : Nat} {task : Task S} (htask : world'.tasks[index]? = some task)
    (hclaim : task.phase.claim = some claimId) :
    (∃ task, world.tasks[index]? = some task ∧ task.phase.claim = some claimId) ∨
      reply = .executes claimId ∧ call.task = some index := by
  cases htook with
  | idle => exact .inl ⟨task, htask, hclaim⟩
  | @started new hidle =>
    rcases Nat.lt_or_ge index world.tasks.length with hlt | hge
    · exact .inl ⟨task, by rwa [List.getElem?_append_left hlt] at htask, hclaim⟩
    · rw [List.getElem?_append_right hge] at htask
      obtain rfl := List.mem_singleton.mp (List.mem_of_getElem? htask)
      cases hphase : task.phase <;> rw [hphase] at hidle hclaim <;>
        first | cases hidle; done | cases hclaim
  | @stepped index' task' _ _ phase _ hcall htask' hspec =>
    by_cases hindex : index' = index
    · subst hindex
      have hlt := (List.getElem?_eq_some_iff.mp htask').1
      rw [List.getElem?_set_self hlt] at htask
      cases htask
      rcases hspec.owns claimId hclaim with hold | hreply
      · exact .inl ⟨task', htask', hold⟩
      · exact .inr ⟨hreply, hcall⟩
    · rw [List.getElem?_set_ne hindex] at htask
      exact .inl ⟨task, htask, hclaim⟩

/-- A recorded success in the store was recorded in the run. -/
theorem recorded_of_mem_rows (h : WorldInv world) {row : ObjectRecord (Admission S)}
    (hrow : row ∈ (Run.after step world calls).store.rows)
    (hsuccess : row.payload.success.isSome = true) :
    row ∈ world.store.rows ∨ ∃ r ∈ Run.trace step world calls, r.outcome = .recorded row.id ∧
      ∃ task, taskOf r = some task ∧ row.workspace = task.bucket ∧ row.name = task.key ∧
        row.payload.fingerprint = task.fingerprint :=
  Run.of_after (P := fun world => row ∈ world.store.rows)
    (fun _ he hrow => (took_of_mem_trace h he).2.recorded hrow hsuccess) hrow

/-- The owner of a claim was admitted in the run. -/
theorem executes_of_claim (h : WorldInv world) {index : Nat} {task : Task S}
    (htask : (Run.after step world calls).tasks[index]? = some task)
    (hclaim : task.phase.claim = some claimId) :
    (∃ task, world.tasks[index]? = some task ∧ task.phase.claim = some claimId) ∨
      ∃ c ∈ Run.trace step world calls, c.outcome = .executes claimId ∧ c.call.task = some index :=
  Run.of_after
    (P := fun world => ∃ task, world.tasks[index]? = some task ∧ task.phase.claim = some claimId)
    (fun _ he ⟨_, htask, hclaim⟩ => (took_of_mem_trace h he).2.owns htask hclaim)
      ⟨task, htask, hclaim⟩

/-- A claim is in the store until it is removed with its success expired. -/
theorem kept_or_removed (calls : List (Call S)) (h : WorldInv world) {claimId bucket key : String}
    (hrow : ∃ row ∈ world.store.rows, row.id = claimId ∧ row.name = key ∧ row.workspace = bucket) :
    (∃ row ∈ (Run.after step world calls).store.rows, row.id = claimId ∧ row.name = key ∧
      row.workspace = bucket) ∨
      ∃ r ∈ Run.trace step world calls, ∃ clockMs, r.outcome = .removed claimId clockMs ∧
        ∃ row ∈ r.before.store.rows, row.id = claimId ∧ row.payload.isExpired clockMs = true := by
  induction calls generalizing world with
  | nil => exact .inl hrow
  | cons call calls ih =>
    have htook := step_took h call
    obtain ⟨row, hmem, hid, hname, hworkspace⟩ := hrow
    rcases htook.kept hmem with ⟨row', hmem', hid', hname', hworkspace'⟩ | ⟨clockMs,
      hreply, hexpired⟩
    · have hnext : ∃ row ∈ (step world call).1.store.rows, row.id = claimId ∧ row.name = key ∧
          row.workspace = bucket :=
        ⟨row', hmem', hid'.trans hid, hname'.trans hname, hworkspace'.trans hworkspace⟩
      rcases ih (h.took htook) hnext with hkept | ⟨r, hr, hremoved⟩
      · exact .inl hkept
      · exact .inr ⟨r, List.mem_cons_of_mem _ hr, hremoved⟩
    · exact .inr ⟨_, List.mem_cons_self, clockMs, hid ▸ hreply, row, hmem, hid, hexpired⟩

/-- An execution is admitted for a key without a row, and leaves its claim under the key. -/
theorem Took.executes (htook : Took world call world' reply)
    (hreply : reply = .executes claimId) : ∃ task, call.task.bind (world.tasks[·]?) = some task ∧
      (∀ row ∈ world.store.rows, ¬ (row.workspace = task.bucket ∧ row.name = task.key)) ∧
      ∃ row ∈ world'.store.rows, row.id = claimId ∧ row.name = task.key ∧
        row.workspace = task.bucket := by
  cases htook with
  | idle | started => cases hreply
  | stepped hcall htask hspec =>
    exact ⟨_, by rw [hcall, Option.bind_some, htask], hspec.executes claimId hreply⟩

theorem Took.replayed (htook : Took world call world' reply) {success : S}
    (hreply : reply = .replayed success) :
    ∃ task, call.task.bind (world.tasks[·]?) = some task ∧ ∃ row ∈ world.store.rows,
      row.workspace = task.bucket ∧ row.name = task.key ∧ row.payload.success = some success ∧
        row.payload.fingerprint = task.fingerprint := by
  cases htook with
  | idle | started => cases hreply
  | stepped hcall htask hspec =>
    exact ⟨_, by rw [hcall, Option.bind_some, htask], hspec.replayed success hreply⟩

theorem Took.completes (htook : Took world call world' reply)
    (hreply : reply = .recorded claimId) : ∃ index task, call.task = some index ∧
      world.tasks[index]? = some task ∧ task.phase.claim = some claimId := by
  cases htook with
  | idle | started => cases hreply
  | stepped hcall htask hspec => exact ⟨_, _, hcall, htask, hspec.completes claimId hreply⟩

end Run

/-- Every run executes a key once, replays only what was recorded for the key, and keeps to the
quota, whatever the order of claims, executions, records and removals. -/
theorem runSafe (calls : List (Call S)) : RunSafe calls where
  once before between after e e' claimId claimId' hevents hfirst hsecond hkey := by
    have hmem : e ∈ events calls := by rw [hevents]; simp
    have hmem' : e' ∈ events calls := by rw [hevents]; simp
    obtain ⟨first, second, rfl, -, hbefore, hstep, hrest⟩ := Run.trace_eq_append_cons hevents
    obtain ⟨middle, last, rfl, rfl, hbefore', -⟩ := Run.trace_eq_append_cons hrest.symm
    obtain ⟨hinv, htook⟩ := took_of_mem_trace worldInv_initial hmem
    obtain ⟨-, htook'⟩ := took_of_mem_trace worldInv_initial hmem'
    obtain ⟨task, htask, -, hclaim⟩ := htook.executes hfirst
    obtain ⟨task', htask', hfree, -⟩ := htook'.executes hsecond
    have hsame : task.bucket = task'.bucket ∧ task.key = task'.key := by
      rw [keyOf_eq htask, keyOf_eq htask', Option.some.injEq, Prod.mk.injEq] at hkey
      exact hkey
    rcases kept_or_removed middle (hinv.took htook) hclaim with
      ⟨row, hrow, -, hname, hworkspace⟩ | ⟨r, hr, clockMs, hremoved, row, hrow, hid, hexpired⟩
    · rw [← hbefore'] at hrow
      exact absurd ⟨hworkspace.trans hsame.1, hname.trans hsame.2⟩ (hfree row hrow)
    · exact ⟨r, hr, clockMs, hremoved, row, hrow, hid, Admission.isExpired_iff.mp hexpired⟩
  unresolved e he row hrow hnone := by
    obtain ⟨-, htook⟩ := took_of_mem_trace worldInv_initial he
    rcases htook.kept hrow with ⟨row', hrow', hid, -⟩ | ⟨clockMs, -, hexpired⟩
    · exact ⟨row', hrow', hid⟩
    · obtain ⟨success, -, hsome, -⟩ := Admission.isExpired_iff.mp hexpired
      rw [hnone] at hsome
      cases hsome
  replay before after e success hevents hreply := by
    have hmem : e ∈ events calls := by rw [hevents]; simp
    obtain ⟨first, second, rfl, rfl, hbefore, -⟩ := Run.trace_eq_append_cons hevents
    obtain ⟨-, htook⟩ := took_of_mem_trace worldInv_initial hmem
    obtain ⟨task, htask, row, hrow, hworkspace, hname, hsuccess, hfingerprint⟩ :=
      htook.replayed hreply
    rw [hbefore] at hrow
    rcases recorded_of_mem_rows worldInv_initial hrow (by rw [hsuccess]; rfl) with
      hold | ⟨r, hr, hrecorded, task', htask', hworkspace', hname', hfingerprint'⟩
    · exact absurd hold List.not_mem_nil
    · refine ⟨r, hr, row.id, hrecorded, ?_, ?_⟩
      · rw [keyOf_eq htask, keyOf_eq htask', ← hworkspace, ← hname, ← hworkspace', ← hname']
      · rw [show taskOf e = some task from htask, htask', Option.map_some, Option.map_some,
          ← hfingerprint, ← hfingerprint']
  owner before after e claimId hevents hreply := by
    have hmem : e ∈ events calls := by rw [hevents]; simp
    obtain ⟨first, second, rfl, rfl, hbefore, -⟩ := Run.trace_eq_append_cons hevents
    obtain ⟨-, htook⟩ := took_of_mem_trace worldInv_initial hmem
    obtain ⟨index, task, hcall, htask, hclaim⟩ := htook.completes hreply
    rw [hbefore] at htask
    rcases executes_of_claim worldInv_initial htask hclaim with ⟨task', htask', -⟩ | ⟨c, hc,
      hexecutes, hindex⟩
    · cases htask'
    · exact ⟨c, hc, hexecutes, hindex.trans hcall.symm⟩
  completed e he row hrow row' hrow' hid hnone hsome := by
    obtain ⟨-, htook⟩ := took_of_mem_trace worldInv_initial he
    rcases htook.recorded hrow' hsome with hold | ⟨hreply, -⟩
    · rw [Objects.eq_of_id hold hrow hid, hnone] at hsome
      cases hsome
    · rw [hreply, hid]
  quota := (worldInv_after worldInv_initial calls).store.quota

/-- A success stamped with the last millisecond of the clock can be removed at once. -/
def saturatedCalls : List (Call Unit) :=
  let fingerprint : Fingerprint := ⟨"hash", none, none, none⟩
  [.start "caller" "request" fingerprint false, .look 0 0 true, .create 0 "first" 0 .none,
    .executed 0 true,
    .complete 0 () (2 ^ 63 - 1) 0 false .none, .start "caller" "request" fingerprint false,
    .look 1 (2 ^ 63 - 1) true, .remove 1 .none, .look 1 (2 ^ 63 - 1) true,
    .create 1 "second" 0 .none]

theorem not_executesOnce_saturatedCalls : ¬ ExecutesOnce (· + successTtlMs) saturatedCalls := by
  intro h
  obtain ⟨r, hr, clockMs, hremoved, row, hrow, -, -, completedAtMs, -, hcompleted, hpassed⟩ :=
    h ((events saturatedCalls).take 2) (((events saturatedCalls).drop 3).take 6)
      [] _ _ "first" "second" rfl rfl rfl rfl
  have hcheck : (((events saturatedCalls).drop 3).take 6).all fun r =>
      match r.outcome with
      | .removed _ clockMs => r.before.store.rows.all fun row =>
          row.payload.completedAtMs.all fun completedAtMs => clockMs < completedAtMs + successTtlMs
      | _ => true := by decide
  have hrow' := List.all_eq_true.mp hcheck r hr
  rw [hremoved] at hrow'
  have hlt := List.all_eq_true.mp hrow' row hrow
  rw [hcompleted, Option.all_some, decide_eq_true_eq] at hlt
  exact absurd hpassed (Int.not_le.mpr hlt)

end OpenShell.Server.MutationReplay
