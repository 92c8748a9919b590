import OpenShell.Server.SupervisorOwnerRun

/-!
# The terms of successive owners

Along a run in which no record is stale or released, a known term is followed by a
lower one only across a session of unknown term. With what a version names
(`Fenced`), this settles which sets of sessions are safe: the runs of all of them
move ownership by supersession and never lower a known term.
-/

namespace OpenShell.Server.SupervisorOwner

open Persistence (Objects ObjectRecord)

variable {session old : Session} {nowMs : Int} {term : Nat}

section Terms
variable {sandboxId : String} {ttlMs : Nat} {sessions : Set Session} {world world' : World}
  {call : Call} {reply : Reply}

theorem CredentialEpoch.new_getD (authEpoch : Option CredentialEpoch) :
    CredentialEpoch.new ((authEpoch.map (·.value)).getD 0) = authEpoch := by
  cases authEpoch with
  | none => rfl
  | some epoch => exact dif_neg epoch.ne_zero

theorem recordOf_authEpoch {row : ObjectRecord OwnerPayload} {connectedAtMs : Int}
    (h : row.payload = session.payload sandboxId connectedAtMs) :
    (recordOf row).authEpoch = session.authEpoch := by
  rw [recordOf, h]
  exact CredentialEpoch.new_getD session.authEpoch

/-- Nothing is fresh for no time. -/
theorem ne_zero_of_isFresh {record : OwnerRecord} (h : record.isFresh ttlMs nowMs = true) :
    ttlMs ≠ 0 := by
  have hlt := of_decide_eq_true h
  omega

variable {existing : OwnerRecord}

/-- A fresh record is replaced by a later term, or by a reconnect of its own supervisor instance
whose term is not an earlier one. -/
theorem canSupersede_fresh
    (h : canSupersede existing session ttlMs nowMs = true)
    (hfresh : existing.isFresh ttlMs nowMs = true) :
    (∀ claimed current, session.authEpoch = some claimed → existing.authEpoch = some current →
      current.value ≤ claimed.value) ∧
    (session.authEpoch = none ∨ existing.authEpoch = none →
      existing.supervisorInstanceId = session.supervisorInstanceId ∧
        existing.connectionEpoch < session.connectionEpoch) := by
  rw [canSupersede, if_neg (by simp [hfresh])] at h
  constructor
  · intro claimed current hclaimed hcurrent
    rw [hclaimed, hcurrent, termOrder] at h
    by_contra hlt
    rw [Nat.compare_eq_lt.mpr (Nat.lt_of_not_le hlt)] at h
    cases h
  · intro hunknown
    have hnone : termOrder session.authEpoch existing.authEpoch = none := by
      rcases hunknown with hnone | hnone
      · rw [hnone]
        rfl
      · rw [hnone]
        cases session.authEpoch with
        | none => rfl
        | some claimed => rfl
    rw [hnone] at h
    exact of_decide_eq_true h

/-- A session and the known terms before it: its own term is no lower, or it is of unknown term
and came after a session of its instance whose term is no lower. -/
def Session.AtLeast (sessions : Set Session) (session : Session) (term : Nat) : Prop :=
  (∃ epoch, session.authEpoch = some epoch ∧ term ≤ epoch.value) ∨
  (session.authEpoch = none ∧ ∃ known ∈ sessions, ∃ epoch, known.authEpoch = some epoch ∧
    term ≤ epoch.value ∧ known.supervisorInstanceId = session.supervisorInstanceId ∧
    known.connectionEpoch < session.connectionEpoch)

/-- No session of unknown term stands between a session and a later one of a lower term. -/
def NoUnknownBetween (sessions : Set Session) : Prop :=
  ∀ first ∈ sessions, ∀ unknown ∈ sessions, ∀ last ∈ sessions,
    first.supervisorInstanceId = unknown.supervisorInstanceId →
    unknown.supervisorInstanceId = last.supervisorInstanceId →
    first.connectionEpoch < unknown.connectionEpoch →
    unknown.connectionEpoch < last.connectionEpoch →
    unknown.authEpoch = none → ∀ high low, first.authEpoch = some high → last.authEpoch = some low →
    high.value ≤ low.value

/-- Replacing a fresh record keeps the bound. -/
theorem atLeast_of_supersede {new : Session}
    (hbetween : ttlMs ≠ 0 → NoUnknownBetween sessions) (hold : old ∈ sessions)
    (hnew : new ∈ sessions) (hauth : existing.authEpoch = old.authEpoch)
    (hinstance : existing.supervisorInstanceId = old.supervisorInstanceId)
    (hepoch : existing.connectionEpoch = old.connectionEpoch)
    (h : canSupersede existing new ttlMs nowMs = true)
    (hfresh : existing.isFresh ttlMs nowMs = true) (hleast : old.AtLeast sessions term) :
    new.AtLeast sessions term := by
  obtain ⟨hterms, hreconnect⟩ := canSupersede_fresh h hfresh
  have hbetween := hbetween (ne_zero_of_isFresh hfresh)
  rw [hauth, hinstance, hepoch] at hreconnect
  rw [hauth] at hterms
  cases hn : new.authEpoch with
  | some claimed =>
    refine .inl ⟨claimed, hn, ?_⟩
    obtain ⟨epoch, ho, hle⟩ | ⟨ho, known, hknown, epoch, hk, hle, hsame, hlt⟩ := hleast
    · exact Nat.le_trans hle (hterms claimed epoch hn ho)
    · obtain ⟨hsame', hlt'⟩ := hreconnect (.inr ho)
      exact Nat.le_trans hle
        (hbetween known hknown old hold new hnew hsame hsame' hlt hlt' ho epoch claimed hk hn)
  | none =>
    obtain ⟨hsame', hlt'⟩ := hreconnect (.inl hn)
    refine .inr ⟨hn, ?_⟩
    obtain ⟨epoch, ho, hle⟩ | ⟨-, known, hknown, epoch, hk, hle, hsame, hlt⟩ := hleast
    · exact ⟨old, hold, epoch, ho, hle, hsame', hlt'⟩
    · exact ⟨known, hknown, epoch, hk, hle, hsame.trans hsame', Nat.lt_trans hlt hlt'⟩

/-- The stored record is that of a session bounded from below. -/
def TermAtLeast (sandboxId : String) (sessions : Set Session) (term : Nat) (world : World) : Prop :=
  ∃ row, world.stored sandboxId = some row ∧ ∃ session ∈ sessions, ∃ connectedAtMs,
    row.payload = session.payload sandboxId connectedAtMs ∧ session.AtLeast sessions term

/-- The records that tasks are about to replace were fresh when they were read. -/
def FreshlyRead (ttlMs : Nat) (world : World) : Prop :=
  ∀ session connectedAtMs attempts record readAtMs,
    .writing session connectedAtMs attempts (some record) readAtMs ∈ world.tasks →
    record.isFresh ttlMs readAtMs = true

/-- No record is found stale. -/
def FindsFresh (sandboxId : String) (ttlMs : Nat) (world : World) (call : Call) : Prop :=
  ∀ task nowMs, call = .readOwner task nowMs → ∀ row, world.stored sandboxId = some row →
    (recordOf row).isFresh ttlMs nowMs = true

theorem FreshlyRead.become (h : FreshlyRead ttlMs world) {task : Nat} {next : Task}
    (hnext : ∀ session connectedAtMs attempts record readAtMs,
      next = .writing session connectedAtMs attempts (some record) readAtMs →
        record.isFresh ttlMs readAtMs = true) :
    FreshlyRead ttlMs (world.become task next) := by
  intro session connectedAtMs attempts record readAtMs ht
  rcases mem_become ht with ht | ht
  · exact h session connectedAtMs attempts record readAtMs ht
  · exact hnext session connectedAtMs attempts record readAtMs ht.symm

theorem FreshlyRead.took (h : FreshlyRead ttlMs world)
    (htook : Took sandboxId ttlMs world call world' reply)
    (hfinds : FindsFresh sandboxId ttlMs world call) : FreshlyRead ttlMs world' := by
  cases htook with
  | started session connectedAtMs =>
    intro session' _ _ record readAtMs ht
    rcases List.mem_append.mp ht with ht | ht
    · exact h _ _ _ _ _ ht
    · cases List.mem_singleton.mp ht
  | decided htask hread =>
    refine h.become fun session _ _ record _ heq => ?_
    cases heq
    obtain ⟨-, row, hget, hrecord⟩ := decideRead_eq_ok hread rfl
    rw [← hrecord]
    exact hfinds _ _ rfl row hget
  | published | renewed | ownRead | deleted => exact FreshlyRead.become h nofun
  | quiet htask hquiet hwritten hdeletes =>
    cases hquiet with
    | failed | retry | keep => exact h.become nofun
  | idle hwritten hdeletes => exact h

/-- A call that deletes nothing keeps the bound on the owner. -/
theorem TermAtLeast.took (h : TermAtLeast sandboxId sessions term world)
    (hbetween : ttlMs ≠ 0 → NoUnknownBetween sessions)
    (hmembers : Members sandboxId ttlMs sessions world)
    (hfenced : Fenced sandboxId world) (hfresh : FreshlyRead ttlMs world)
    (htook : Took sandboxId ttlMs world call world' reply) (hkept : reply.deletes = false) :
    TermAtLeast sandboxId sessions term world' := by
  obtain ⟨row, hrow, owner, howner, connected, hpayload, hleast⟩ := h
  have hsame : ∀ {task : Nat} {next : Task},
      TermAtLeast sandboxId sessions term (world.become task next) :=
    fun {_ _} => ⟨row, hrow, owner, howner, connected, hpayload, hleast⟩
  cases htook with
  | started | idle => exact ⟨row, hrow, owner, howner, connected, hpayload, hleast⟩
  | decided | ownRead | quiet => exact hsame
  | @published _ session connectedAtMs _ existing readAtMs _ _ _ htask hwrite =>
    have hsession : session ∈ sessions := hmembers.tasks _ (List.mem_of_getElem? htask) session rfl
    cases existing with
    | none =>
      have hnone : world.stored sandboxId = none := (writePayload_create hwrite).1
      cases hnone.symm.trans hrow
    | some record =>
      obtain ⟨⟨old, new, hold, hversion, hnew, hnewPayload, -⟩, -⟩ := writePayload_match hwrite
      obtain rfl := Option.mem_unique hrow hold
      obtain rfl := replaced_of_published hfenced htask hrow hversion
      refine ⟨new, hnew, session, hsession, connectedAtMs, hnewPayload, ?_⟩
      exact atLeast_of_supersede hbetween howner hsession (recordOf_authEpoch hpayload)
        (by rw [recordOf, hpayload]; rfl)
        (by rw [recordOf, hpayload]; rfl) (hmembers.accepted _ _ _ _ _ (List.mem_of_getElem? htask))
        (hfresh _ _ _ _ _ (List.mem_of_getElem? htask)) hleast
  | renewed htask hwrite =>
    -- the owner writes its own payload again
    obtain ⟨⟨old, new, hold, hversion, hnew, hnewPayload, -⟩, -⟩ := writePayload_match hwrite
    obtain rfl := Option.mem_unique hrow hold
    have hown := owner_of_renewed hfenced htask hrow hversion
    exact ⟨new, hnew, owner, howner, connected,
      hnewPayload.trans (hown.symm.trans hpayload), hleast⟩
  | deleted htask hdelete => cases hkept

end Terms

/-! ## Runs -/

section Runs
variable {sandboxId : String} {ttlMs : Nat} {sessions : Set Session} {mayRelease : Bool}
  {calls : List Call}

/-- The known term a successful write leaves. -/
def Reply.knownTerm (reply : Reply) : Option Nat :=
  reply.written.bind fun session => session.authEpoch.map (·.value)

def events (sandboxId : String) (ttlMs : Nat) (calls : List Call) : List (Event World Call Reply) :=
  Run.trace (step sandboxId ttlMs) .initial calls

/-- Ownership moves by supersession only, and where no record is stale or released, the known
terms of the owners do not go down. -/
structure SupersedesOnly (sandboxId : String) (ttlMs : Nat) (calls : List Call) : Prop where
  supersedes : ∀ e ∈ events sandboxId ttlMs calls, Supersedes sandboxId ttlMs e.before e.outcome
  terms : (∀ e ∈ events sandboxId ttlMs calls,
      FindsFresh sandboxId ttlMs e.before e.call ∧ e.outcome.deletes = false) →
    ((events sandboxId ttlMs calls).filterMap fun e => e.outcome.knownTerm).Pairwise (· ≤ ·)

def Call.releases : Call → Bool
  | .readOwn _ | .deleteOwn _ _ => true
  | _ => false

/-- Calls for some sessions, which release their records or do not. -/
def OfKind (sessions : Set Session) (mayRelease : Bool) (calls : List Call) : Prop :=
  ∀ call ∈ calls, call.Of sessions ∧ (call.releases = true → mayRelease = true)

variable {e : Event World Call Reply}

theorem took_of_mem_events (h : e ∈ events sandboxId ttlMs calls) :
    e.call ∈ calls ∧ Took sandboxId ttlMs e.before e.call e.after e.outcome :=
  Run.of_mem_trace h (step_took ..)

theorem members_of_mem_events (hof : ∀ call ∈ calls, call.Of sessions)
    (h : e ∈ events sandboxId ttlMs calls) : Members sandboxId ttlMs sessions e.before := by
  have hinitial : Members sandboxId ttlMs sessions .initial := ⟨nofun, nofun, nofun⟩
  refine ((Run.trace_invariant hinitial fun e he hbefore => ?_).1 e h).1
  obtain ⟨hcall, htook⟩ := took_of_mem_events he
  exact hbefore.took htook (hof e.call hcall)

theorem fenced_of_mem_events (hkept : ∀ e ∈ events sandboxId ttlMs calls, e.outcome.deletes = false)
    (h : e ∈ events sandboxId ttlMs calls) : Fenced sandboxId e.before := by
  have hinitial : Fenced sandboxId .initial := nofun
  refine ((Run.trace_invariant hinitial fun e he hbefore => ?_).1 e h).1
  exact hbefore.took (took_of_mem_events he).2 (hkept e he)

theorem freshlyRead_of_mem_events
    (hfinds : ∀ e ∈ events sandboxId ttlMs calls, FindsFresh sandboxId ttlMs e.before e.call)
    (h : e ∈ events sandboxId ttlMs calls) : FreshlyRead ttlMs e.before := by
  have hinitial : FreshlyRead ttlMs .initial := nofun
  refine ((Run.trace_invariant hinitial fun e he hbefore => ?_).1 e h).1
  exact hbefore.took (took_of_mem_events he).2 (hfinds e he)

variable {world world' : World} {call : Call} {reply : Reply}

theorem releases_of_deletes
    (htook : Took sandboxId ttlMs world call world' reply) (h : reply.deletes = true) :
    call.releases = true := by
  cases htook with
  | deleted htask hdelete => rfl
  | quiet _ _ _ hdeletes
  | idle _ hdeletes => cases hdeletes.symm.trans h
  | _ => cases h

/-- What is written is stored. -/
theorem stored_of_written
    (hmembers : Members sandboxId ttlMs sessions world)
    (htook : Took sandboxId ttlMs world call world' reply)
    (hwritten : reply.written = some session) :
    session ∈ sessions ∧ ∃ row, world'.stored sandboxId = some row ∧
      ∃ connectedAtMs, row.payload = session.payload sandboxId connectedAtMs := by
  cases htook with
  | started | decided | ownRead | deleted => cases hwritten
  | @published _ _ connectedAtMs _ existing _ _ _ _ htask hwrite =>
    cases hwritten
    refine ⟨hmembers.tasks _ (List.mem_of_getElem? htask) _ rfl, ?_⟩
    cases existing with
    | none =>
      obtain ⟨-, row, hget, hpayload, -⟩ := writePayload_create hwrite
      exact ⟨row, hget, connectedAtMs, hpayload⟩
    | some record =>
      obtain ⟨⟨-, row, -, -, hget, hpayload, -⟩, -⟩ := writePayload_match hwrite
      exact ⟨row, hget, connectedAtMs, hpayload⟩
  | renewed htask hwrite =>
    cases hwritten
    refine ⟨hmembers.tasks _ (List.mem_of_getElem? htask) _ rfl, ?_⟩
    obtain ⟨⟨-, row, -, -, hget, hpayload, -⟩, -⟩ := writePayload_match hwrite
    exact ⟨row, hget, _, hpayload⟩
  | quiet _ _ hnone
  | idle hnone => cases hnone.symm.trans hwritten

/-- The session behind a known term. -/
theorem knownTerm_eq_some (h : reply.knownTerm = some term) :
    ∃ session epoch, reply.written = some session ∧ session.authEpoch = some epoch ∧
      epoch.value = term := by
  obtain ⟨session, hwritten, hterm⟩ := Option.bind_eq_some_iff.mp h
  obtain ⟨epoch, hepoch, rfl⟩ := Option.map_eq_some_iff.mp hterm
  exact ⟨session, epoch, hwritten, hepoch, rfl⟩

theorem terms_nondecreasing (hbetween : ttlMs ≠ 0 → NoUnknownBetween sessions)
    (hof : ∀ call ∈ calls, call.Of sessions)
    (hrun : ∀ e ∈ events sandboxId ttlMs calls,
      FindsFresh sandboxId ttlMs e.before e.call ∧ e.outcome.deletes = false) :
    ((events sandboxId ttlMs calls).filterMap fun e => e.outcome.knownTerm).Pairwise (· ≤ ·) := by
  have hstep : ∀ {term : Nat}, ∀ e ∈ events sandboxId ttlMs calls,
      TermAtLeast sandboxId sessions term e.before →
      TermAtLeast sandboxId sessions term e.after := by
    intro term e he hleast
    exact hleast.took hbetween (members_of_mem_events hof he)
      (fenced_of_mem_events (fun e he => (hrun e he).2) he)
      (freshlyRead_of_mem_events (fun e he => (hrun e he).1) he) (took_of_mem_events he).2
        (hrun e he).2
  -- every known term bounds the owner from when it is written on
  have hpairs : (events sandboxId ttlMs calls).Pairwise fun e e' =>
      ∀ term, e.outcome.knownTerm = some term → TermAtLeast sandboxId sessions term e'.before := by
    refine Run.pairwise_of_invariant
      (I := fun (e : Event World Call Reply) world => ∀ term, e.outcome.knownTerm = some term →
        TermAtLeast sandboxId sessions term world) ?_ ?_
    · intro e he term hterm
      obtain ⟨session, epoch, hwritten, hepoch, rfl⟩ := knownTerm_eq_some hterm
      obtain ⟨hsession, row, hrow, connectedAtMs, hpayload⟩ :=
        stored_of_written (members_of_mem_events hof he) (took_of_mem_events he).2 hwritten
      exact ⟨row, hrow, session, hsession, connectedAtMs, hpayload,
        .inl ⟨epoch, hepoch, Nat.le_refl _⟩⟩
    · intro e he e' he' hbefore term hterm
      exact hstep e' he' (hbefore term hterm)
  refine List.pairwise_filterMap.mpr
    (hpairs.imp_of_mem fun he he' hbefore term hterm term' hterm' => ?_)
  obtain ⟨row, hrow, owner, -, connected, hpayload, hleast⟩ := hstep _ he' (hbefore term hterm)
  obtain ⟨session, epoch, hwritten, hepoch, rfl⟩ := knownTerm_eq_some hterm'
  obtain ⟨-, row', hrow', connectedAtMs, hpayload'⟩ :=
    stored_of_written (members_of_mem_events hof he') (took_of_mem_events he').2 hwritten
  obtain rfl := Option.mem_unique hrow hrow'
  have hsame : owner.authEpoch = some epoch :=
    (recordOf_authEpoch hpayload).symm.trans ((recordOf_authEpoch hpayload').trans hepoch)
  obtain ⟨epoch', hepoch', hle⟩ | ⟨hnone, -⟩ := hleast
  · obtain rfl := Option.mem_unique hsame hepoch'
    exact hle
  · cases hsame.symm.trans hnone

/-- The sessions are safe: none releases its record or there is only one, and none of unknown
term stands between a term and a lower one. -/
theorem supersedesOnly_of_kind
    (hrelease : mayRelease = true → ∀ a ∈ sessions, ∀ b ∈ sessions, a.sessionId = b.sessionId)
    (hbetween : ttlMs ≠ 0 → NoUnknownBetween sessions) (hkind : OfKind sessions mayRelease calls) :
    SupersedesOnly sandboxId ttlMs calls := by
  have hof : ∀ call ∈ calls, call.Of sessions := fun call hcall => (hkind call hcall).1
  refine ⟨fun e he => ?_, fun hrun => terms_nondecreasing hbetween hof hrun⟩
  have hmembers := members_of_mem_events hof he
  cases mayRelease with
  | true => exact supersedes_of_took hmembers (.inr (hrelease rfl)) (took_of_mem_events he).2
  | false =>
    have hkept : ∀ e ∈ events sandboxId ttlMs calls, e.outcome.deletes = false := by
      intro e he
      obtain ⟨hcall, htook⟩ := took_of_mem_events he
      have hnot := mt (hkind e.call hcall).2 Bool.false_ne_true
      exact Bool.eq_false_iff.mpr fun hdeletes => hnot (releases_of_deletes htook hdeletes)
    exact supersedes_of_took hmembers (.inl ⟨fenced_of_mem_events hkept he, hkept e he⟩)
      (took_of_mem_events he).2

end Runs

/-! ## Unsafe sessions -/

section Unsafe
variable {sandboxId : String} {ttlMs : Nat}

/-- The row of a session, written at time zero. -/
def rowFor (sandboxId : String) (session : Session) (version : Nat) :
    ObjectRecord OwnerPayload where
  id := ownerObjectId sandboxId
  name := sandboxId
  workspace := ""
  payload := session.payload sandboxId 0
  createdAtMs := 0
  updatedAtMs := 0
  resourceVersion := version

/-- The table with the row of a session alone. -/
def storeOf (sandboxId : String) (session : Session) (version : Nat) : OwnerStore :=
  ⟨[rowFor sandboxId session version], List.pairwise_singleton .., List.pairwise_singleton ..⟩

theorem get_storeOf (session : Session) (version : Nat) :
    (storeOf sandboxId session version).get (ownerObjectId sandboxId) =
      some (rowFor sandboxId session version) :=
  Objects.get_eq_some_iff.mpr ⟨List.mem_singleton_self _, rfl⟩

theorem read_storeOf (session : Session) (version : Nat) :
    read (storeOf sandboxId session version) sandboxId = .ok
      (some (recordOf (rowFor sandboxId session version))) :=
  read_of_get (get_storeOf session version) rfl rfl

theorem create_empty (session : Session) :
    writePayload .empty sandboxId (session.payload sandboxId 0) 0 .mustCreate =
      (storeOf sandboxId session 1, .ok 1) := by
  rw [writePayload, Objects.insertNew, dif_pos (by simp [Objects.empty])]
  rfl

theorem replace_storeOf (old new : Session) (version : Nat) :
    writePayload (storeOf sandboxId old version) sandboxId (new.payload sandboxId 0) 0
      (.matchResourceVersion version) =
      (storeOf sandboxId new (version + 1), .ok (version + 1)) := by
  rw [writePayload, Objects.putIf, if_pos (by simp [storeOf, rowFor])]
  simp [storeOf, rowFor, Objects.update]

theorem delete_storeOf (session : Session) (version : Nat) :
    (storeOf sandboxId session version).deleteIf (ownerObjectId sandboxId) version =
      (.empty, true) := by
  simp [storeOf, rowFor, Objects.deleteIf, Objects.empty]

/-- A session publishes without being disturbed. -/
def publishCalls (session : Session) (task : Nat) (nowMs : Int) : List Call :=
  [.publish session 0, .readOwner task nowMs, .writeOwner task 0]

section Publish
variable {store store' : OwnerStore} {session : Session} {nowMs : Int}
  {existing : Option OwnerRecord} {version : Nat}
  (hread : decideRead store sandboxId session ttlMs nowMs = .ok existing)
  (hwrite : writePayload store sandboxId (session.payload sandboxId 0) 0 (conditionFor existing) =
    (store', .ok version))
include hread hwrite

theorem after_publish (tasks : List Task) :
    Run.after (step sandboxId ttlMs) ⟨store, tasks⟩ (publishCalls session tasks.length nowMs) =
      ⟨store', tasks ++ [.holding ⟨session, 0, version⟩]⟩ := by
  simp [publishCalls, Run.after, step, hread, World.become, World.publish, hwrite]

/-- It writes its own term, and finds a record stale only if it is. -/
theorem trace_publish (tasks : List Task)
    (hfresh : ∀ row, store.get (ownerObjectId sandboxId) = some row →
      (recordOf row).isFresh ttlMs nowMs = true) :
    (Run.trace (step sandboxId ttlMs) ⟨store, tasks⟩
      (publishCalls session tasks.length nowMs)).filterMap
        (fun e => e.outcome.knownTerm) = (session.authEpoch.map (·.value)).toList ∧
    ∀ e ∈ Run.trace (step sandboxId ttlMs) ⟨store, tasks⟩ (publishCalls session tasks.length nowMs),
      FindsFresh sandboxId ttlMs e.before e.call ∧ e.outcome.deletes = false := by
  have htrace : Run.trace (step sandboxId ttlMs) ⟨store, tasks⟩
      (publishCalls session tasks.length nowMs) = [⟨⟨store, tasks⟩, .publish session 0, .started,
        ⟨store, tasks ++ [Task.publishing session 0 0]⟩⟩,
        ⟨⟨store, tasks ++ [Task.publishing session 0 0]⟩, .readOwner tasks.length nowMs, .mayWrite,
          ⟨store, tasks ++ [Task.writing session 0 1 existing nowMs]⟩⟩,
        ⟨⟨store, tasks ++ [Task.writing session 0 1 existing nowMs]⟩, .writeOwner tasks.length 0,
          .published session existing nowMs,
          ⟨store', tasks ++ [Task.holding ⟨session, 0, version⟩]⟩⟩] := by
    simp [publishCalls, Run.trace, step, hread, World.become, World.publish, hwrite]
  rw [htrace]
  constructor
  · cases hauth : session.authEpoch with
    | none => simp [Reply.knownTerm, Reply.written, hauth]
    | some epoch => simp [Reply.knownTerm, Reply.written, hauth]
  · intro e he
    rcases List.mem_cons.mp he with rfl | he
    · refine ⟨fun task readAtMs hcall => ?_, rfl⟩
      cases hcall
    rcases List.mem_cons.mp he with rfl | he
    · refine ⟨?_, rfl⟩
      rintro _ _ ⟨⟩ row hrow
      exact hfresh row hrow
    · obtain rfl := List.mem_singleton.mp he
      refine ⟨fun task readAtMs hcall => ?_, rfl⟩
      cases hcall

end Publish

theorem decideRead_empty (session : Session) (nowMs : Int) :
    decideRead .empty sandboxId session ttlMs nowMs = .ok none := rfl

variable {version : Nat}

theorem decideRead_storeOf
    (h : canSupersede (recordOf (rowFor sandboxId old version)) session ttlMs nowMs = true) :
    decideRead (storeOf sandboxId old version) sandboxId session ttlMs nowMs =
      .ok (some (recordOf (rowFor sandboxId old version))) := by
  rw [decideRead, read_storeOf]
  exact if_pos h

/-- At the end of time every record is stale. -/
def late : Int := 2 ^ 63 - 1

theorem canSupersede_late (old session : Session) (version : Nat) :
    canSupersede (recordOf (rowFor sandboxId old version)) session ttlMs late = true := by
  have hstale : (recordOf (rowFor sandboxId old version)).isFresh ttlMs late = false := by
    refine decide_eq_false ?_
    simp only [recordOf, rowFor, Lease.saturatingSub, late]
    omega
  rw [canSupersede, hstale]
  rfl

theorem after_first (first : Session) :
    Run.after (step sandboxId ttlMs) .initial (publishCalls first 0 0) =
    ⟨storeOf sandboxId first 1, [.holding ⟨first, 0, 1⟩]⟩ :=
  after_publish (decideRead_empty first 0) (create_empty first) []

theorem after_second {first second : Session} {nowMs : Int}
    (h : canSupersede (recordOf (rowFor sandboxId first 1)) second ttlMs nowMs = true) :
    Run.after (step sandboxId ttlMs) ⟨storeOf sandboxId first 1, [.holding ⟨first, 0, 1⟩]⟩
      (publishCalls second 1 nowMs) =
      ⟨storeOf sandboxId second 2, [.holding ⟨first, 0, 1⟩, .holding ⟨second, 0, 2⟩]⟩ :=
  after_publish (decideRead_storeOf h) (replace_storeOf first second 1) [.holding ⟨first, 0, 1⟩]

/-- The owner is superseded, its successor releases the record, and another session publishes. -/
def staleGuardCalls (first second third : Session) : List Call :=
  publishCalls first 0 0 ++
    (publishCalls second 1 late ++ ([.readOwn 1, .deleteOwn 1 false] ++ publishCalls third 2 0))

theorem after_staleGuardCalls (first second third : Session) :
    Run.after (step sandboxId ttlMs) .initial (staleGuardCalls first second third) =
      ⟨storeOf sandboxId third 1,
        [.holding ⟨first, 0, 1⟩, .holding ⟨second, 0, 2⟩, .holding ⟨third, 0, 1⟩]⟩ := by
  have hthird : Run.after (step sandboxId ttlMs)
      ⟨.empty, [.holding ⟨first, 0, 1⟩, .holding ⟨second, 0, 2⟩]⟩
      (publishCalls third 2 0) =
      ⟨storeOf sandboxId third 1,
        [.holding ⟨first, 0, 1⟩, .holding ⟨second, 0, 2⟩, .holding ⟨third, 0, 1⟩]⟩ :=
    after_publish (decideRead_empty third 0) (create_empty third)
      [.holding ⟨first, 0, 1⟩, .holding ⟨second, 0, 2⟩]
  have hown : ownRecord (storeOf sandboxId second 2) sandboxId ⟨second, 0, 2⟩ =
      .ok (some (recordOf (rowFor sandboxId second 2))) := by
    rw [ownRecord, read_storeOf]
    exact if_neg (by simp [recordOf, rowFor, Session.payload])
  have hrelease : Run.after (step sandboxId ttlMs)
      ⟨storeOf sandboxId second 2, [.holding ⟨first, 0, 1⟩, .holding ⟨second, 0, 2⟩]⟩
      [.readOwn 1, .deleteOwn 1 false] =
      ⟨.empty, [.holding ⟨first, 0, 1⟩, .holding ⟨second, 0, 2⟩]⟩ := by
    have hversion : (recordOf (rowFor sandboxId second 2)).resourceVersion = 2 := rfl
    simp [Run.after, step, hown, World.become, World.delete, hversion, delete_storeOf]
  rw [staleGuardCalls, Run.after_append, Run.after_append, Run.after_append, after_first,
    after_second (canSupersede_late first second 1), hrelease, hthird]

/-- The first owner, long superseded, writes over the record of another session. -/
theorem not_supersedesOnly_staleGuard {first third : Session} (second : Session)
    (h : first.sessionId ≠ third.sessionId) :
    ¬SupersedesOnly sandboxId ttlMs (staleGuardCalls first second third ++ [.renew 0 0]) := by
  intro hsafe
  have hrenew :
      (step sandboxId ttlMs
        (Run.after (step sandboxId ttlMs) .initial (staleGuardCalls first second third))
      (.renew 0 0)).2 = .renewed first := by
    have hwrite : writePayload (storeOf sandboxId third 1) sandboxId (first.payload sandboxId 0) 0
        (.matchResourceVersion 1) = (storeOf sandboxId first 2, .ok 2) :=
          replace_storeOf third first 1
    simp [after_staleGuardCalls, step, World.renew, hwrite]
  obtain ⟨e, he, hbefore, -, hreply⟩ :=
    @Run.exists_last _ _ _ (step sandboxId ttlMs) .initial (staleGuardCalls first second third)
      (.renew 0 0)
  rw [hrenew] at hreply
  obtain ⟨row, hrow, hsame⟩ := (hsafe.supersedes e he).renewed first hreply
  rw [hbefore, after_staleGuardCalls] at hrow
  cases (get_storeOf third 1).symm.trans hrow
  exact h hsame.symm

/-- Three sessions publish one after the other. -/
def descendingCalls (first unknown last : Session) : List Call :=
  publishCalls first 0 0 ++ (publishCalls unknown 1 0 ++ publishCalls last 2 0)

theorem isFresh_rowFor (session : Session) (version : Nat) (httl : ttlMs ≠ 0) :
    (recordOf (rowFor sandboxId session version)).isFresh ttlMs 0 = true := by
  refine decide_eq_true ?_
  simp only [recordOf, rowFor, Lease.saturatingSub]
  omega

theorem canSupersede_reconnect (hunknown : old.authEpoch = none ∨ session.authEpoch = none)
    (hsame : old.supervisorInstanceId = session.supervisorInstanceId)
    (hlt : old.connectionEpoch < session.connectionEpoch) :
    canSupersede (recordOf (rowFor sandboxId old version)) session ttlMs nowMs = true := by
  have hauth : (recordOf (rowFor sandboxId old version)).authEpoch = old.authEpoch :=
    recordOf_authEpoch rfl
  have hnone : termOrder session.authEpoch old.authEpoch = none := by
    rcases hunknown with hnone | hnone
    · rw [hnone]
      cases session.authEpoch with
      | none => rfl
      | some epoch => rfl
    · rw [hnone]
      rfl
  rw [canSupersede, hauth, hnone]
  split
  · rfl
  · exact decide_eq_true ⟨hsame, hlt⟩

theorem not_supersedesOnly_descending {first unknown last : Session} {high low : CredentialEpoch}
    (httl : ttlMs ≠ 0) (hsame : first.supervisorInstanceId = unknown.supervisorInstanceId)
    (hsame' : unknown.supervisorInstanceId = last.supervisorInstanceId)
    (hlt : first.connectionEpoch < unknown.connectionEpoch)
    (hlt' : unknown.connectionEpoch < last.connectionEpoch)
    (hnone : unknown.authEpoch = none) (hhigh : first.authEpoch = some high)
    (hlow : last.authEpoch = some low) (hdown : low.value < high.value) :
    ¬SupersedesOnly sandboxId ttlMs (descendingCalls first unknown last) := by
  intro hsafe
  have hread : decideRead (storeOf sandboxId first 1) sandboxId unknown ttlMs 0 =
      .ok (some (recordOf (rowFor sandboxId first 1))) :=
    decideRead_storeOf (canSupersede_reconnect (.inr hnone) hsame hlt)
  have hread' : decideRead (storeOf sandboxId unknown 2) sandboxId last ttlMs 0 =
      .ok (some (recordOf (rowFor sandboxId unknown 2))) :=
    decideRead_storeOf (canSupersede_reconnect (.inl hnone) hsame' hlt')
  have hevents : events sandboxId ttlMs (descendingCalls first unknown last) =
      Run.trace (step sandboxId ttlMs) .initial (publishCalls first 0 0) ++
      (Run.trace (step sandboxId ttlMs) ⟨storeOf sandboxId first 1, [.holding ⟨first, 0, 1⟩]⟩
        (publishCalls unknown 1 0) ++ Run.trace (step sandboxId ttlMs)
          ⟨storeOf sandboxId unknown 2, [.holding ⟨first, 0, 1⟩, .holding ⟨unknown, 0, 2⟩]⟩
          (publishCalls last 2 0)) := by
    rw [events, descendingCalls, Run.trace_append, Run.trace_append, after_first,
      after_second (canSupersede_reconnect (.inr hnone) hsame hlt)]
  have hfresh : ∀ (session : Session) (version : Nat) row,
      (storeOf sandboxId session version).get (ownerObjectId sandboxId) = some row →
      (recordOf row).isFresh ttlMs 0 = true := by
    intro session version row hrow
    cases (get_storeOf session version).symm.trans hrow
    exact isFresh_rowFor session version httl
  obtain ⟨hterms, hfound⟩ := trace_publish (decideRead_empty first 0) (create_empty first) [] nofun
  obtain ⟨hterms', hfound'⟩ :=
    trace_publish hread (replace_storeOf first unknown 1) [.holding ⟨first, 0, 1⟩] (hfresh _ _)
  obtain ⟨hterms'', hfound''⟩ := trace_publish hread' (replace_storeOf unknown last 2)
    [.holding ⟨first, 0, 1⟩, .holding ⟨unknown, 0, 2⟩] (hfresh _ _)
  have hsorted := hsafe.terms fun e he => by
    rw [hevents] at he
    rcases List.mem_append.mp he with he | he
    · exact hfound e he
    rcases List.mem_append.mp he with he | he
    · exact hfound' e he
    · exact hfound'' e he
  have hall : ((events sandboxId ttlMs (descendingCalls first unknown last)).filterMap fun e =>
      e.outcome.knownTerm) = [high.value, low.value] := by
    rw [hevents, List.filterMap_append, List.filterMap_append]
    refine (congrArg₂ (· ++ ·) hterms (congrArg₂ (· ++ ·) hterms' hterms'')).trans ?_
    simp [hhigh, hnone, hlow]
  rw [hall] at hsorted
  have hle : high.value ≤ low.value :=
    (List.pairwise_cons.mp hsorted).1 _ (List.mem_singleton_self _)
  omega

variable {sessions : Set Session} {mayRelease : Bool}

theorem ofKind_publishCalls (h : session ∈ sessions)
    (task : Nat) (nowMs : Int) : OfKind sessions mayRelease (publishCalls session task nowMs) := by
  intro call hcall
  simp only [publishCalls, List.mem_cons, List.not_mem_nil, or_false] at hcall
  rcases hcall with rfl | rfl | rfl
  · exact ⟨h, nofun⟩
  · exact ⟨trivial, nofun⟩
  · exact ⟨trivial, nofun⟩

theorem OfKind.append {calls calls' : List Call}
    (h : OfKind sessions mayRelease calls) (h' : OfKind sessions mayRelease calls') :
    OfKind sessions mayRelease (calls ++ calls') :=
  fun call hcall => (List.mem_append.mp hcall).elim (h call) (h' call)

theorem ofKind_staleGuardCalls {first second third : Session} (h : first ∈ sessions)
    (h' : second ∈ sessions) (h'' : third ∈ sessions) :
    OfKind sessions true (staleGuardCalls first second third ++ [.renew 0 0]) := by
  have hrelease : OfKind sessions true [.readOwn 1, .deleteOwn 1 false] :=
    List.forall_mem_cons.mpr
      ⟨⟨trivial, fun _ => rfl⟩, List.forall_mem_singleton.mpr ⟨trivial, fun _ => rfl⟩⟩
  have hrenew : OfKind sessions true [.renew 0 0] :=
    List.forall_mem_singleton.mpr ⟨trivial, fun _ => rfl⟩
  exact (((ofKind_publishCalls h 0 0).append ((ofKind_publishCalls h' 1 late).append
    (hrelease.append (ofKind_publishCalls h'' 2 0))))).append hrenew

end Unsafe

/-- Which sessions are safe: whatever the replicas do, ownership moves by supersession and known
terms do not go down. -/
theorem supersedesOnly_iff (sandboxId : String) (ttlMs : Nat) (sessions : Set Session)
    (mayRelease : Bool) :
    (∀ calls, OfKind sessions mayRelease calls → SupersedesOnly sandboxId ttlMs calls) ↔
      (mayRelease = false ∨ ∀ a ∈ sessions, ∀ b ∈ sessions, a.sessionId = b.sessionId) ∧
      (ttlMs = 0 ∨ NoUnknownBetween sessions) := by
  constructor
  · intro hsafe
    constructor
    · cases mayRelease with
      | false => exact .inl rfl
      | true =>
        refine .inr fun a ha b hb => ?_
        by_contra hne
        exact not_supersedesOnly_staleGuard b hne (hsafe _ (ofKind_staleGuardCalls ha hb hb))
    · by_cases httl : ttlMs = 0
      · exact .inl httl
      · refine .inr
          fun first hf unknown hu last hl hsame hsame' hlt hlt' hnone high low hhigh hlow => ?_
        by_contra hdown
        refine not_supersedesOnly_descending httl hsame hsame' hlt hlt' hnone hhigh hlow
          (Nat.lt_of_not_le hdown) (hsafe _ ?_)
        exact (ofKind_publishCalls hf 0 0).append
          ((ofKind_publishCalls hu 1 0).append (ofKind_publishCalls hl 2 0))
  · rintro ⟨hrelease, hterms⟩ calls hkind
    refine supersedesOnly_of_kind (fun hmay => ?_) (fun httl => hterms.resolve_left httl) hkind
    refine hrelease.resolve_left fun hnot => ?_
    cases hmay.symm.trans hnot

def ownerTtlMs : Nat := 45000

/-- Sessions of one supervisor process, reconnecting; the second to a gateway that does not record
terms. -/
def reconnects (connectionEpoch : Nat) (sessionId : String) (authEpoch : Option CredentialEpoch) :
    Session where
  sessionId := sessionId
  supervisorInstanceId := "supervisor"
  connectionEpoch := connectionEpoch
  authEpoch := authEpoch
  ownerReplicaId := "gateway"
  ownerPeerEndpoint := ""

/-- A guard of a deleted record rewrites the record of another session, and a term goes down. -/
theorem not_supersedesOnly_reconnects :
    ¬SupersedesOnly "sandbox" ownerTtlMs
      (staleGuardCalls (reconnects 1 "first" none) (reconnects 2 "second" none)
        (reconnects 3 "third" none) ++ [.renew 0 0]) ∧
    ¬SupersedesOnly "sandbox" ownerTtlMs
      (descendingCalls (reconnects 1 "first" (some ⟨5, by decide⟩)) (reconnects 2 "second" none)
        (reconnects 3 "third" (some ⟨3, by decide⟩))) := by
  constructor
  · exact not_supersedesOnly_staleGuard _ (by decide)
  · exact not_supersedesOnly_descending (by decide) rfl rfl (by decide)
      (by decide) rfl rfl rfl (by decide)

end OpenShell.Server.SupervisorOwner
