import OpenShell.Sandbox.ConnectionRegistry

/-!
# Ownership of a runtime only moves up

Runs of the registry: any calls, by any connections, epochs, processes and verified
grants. The registry does not keep which process attached a connection, so a run
notes it beside the state. One invariant says who the active and the pending
connection belong to; what holds of every run follows from it and from what one call
can do to the epoch and the pin.
-/

namespace OpenShell.Sandbox

/-- By whom and with which grant a connection was attached. -/
structure Attachment where
  process : Nat
  grant : Option VerifiedSupervisorTakeover
  deriving DecidableEq

structure World where
  state : ConnectionState
  activeBy : Option Attachment
  pendingBy : Option Attachment
  deriving DecidableEq

inductive Call
  | attach (principal : SandboxProtocolPrincipal) (supervisorInstanceId : Nat)
      (takeover : Option VerifiedSupervisorTakeover)
  | confirm (principal : SandboxProtocolPrincipal)
  | disconnect (connectionId : Nat)
  | markTerminal

/-- Whether a call was accepted; the other calls are not requests. -/
inductive Outcome
  | accepted
  | refused (error : SandboxAuthError)
  | done

def Outcome.of {α : Type} : Except SandboxAuthError α → Outcome
  | .ok _ => .accepted
  | .error error => .refused error

section
variable (parse : String → Option Nat)

/-- A grant for this process at this epoch, above the one in force. -/
def HigherGrant (state : ConnectionState) (epoch process : Nat)
    (grant : VerifiedSupervisorTakeover) : Prop :=
  state.acceptedEpoch < epoch ∧ grant.authEpoch = epoch ∧
    parse grant.supervisorInstance = some process

def AttachPlan.stages : AttachPlan → Bool
  | .unchanged => false
  | .stage _ => true

def World.attach (w : World) (principal : SandboxProtocolPrincipal) (process : Nat)
    (takeover : Option VerifiedSupervisorTakeover) : World where
  state := (Sandbox.attach parse w.state principal process takeover).1
  activeBy := w.activeBy
  pendingBy :=
    if (planAttach parse w.state principal process takeover).toOption.any (·.stages) then
      some ⟨process, takeover⟩
    else w.pendingBy

/-- Whether confirming makes the pending connection the active one. -/
def promotes (state : ConnectionState) (principal : SandboxProtocolPrincipal) : Bool :=
  !state.terminal && !state.active.any (·.isFor principal) && state.pending.any (·.isFor principal)

def World.confirm (w : World) (principal : SandboxProtocolPrincipal) : World where
  state := (Sandbox.confirm w.state principal).1
  activeBy := if promotes w.state principal then w.pendingBy else w.activeBy
  pendingBy := if promotes w.state principal then none else w.pendingBy

def World.disconnect (w : World) (connectionId : Nat) : World where
  state := (Sandbox.disconnect w.state connectionId).1
  activeBy := if w.state.active.any (·.id = connectionId) then none else w.activeBy
  pendingBy := if w.state.pending.any (·.id = connectionId) then none else w.pendingBy

/-- By whom the connection of a principal was attached. -/
def World.attachmentOf (w : World) (principal : SandboxProtocolPrincipal) : Option Attachment :=
  if w.state.active.any (·.isFor principal) then w.activeBy
  else if w.state.pending.any (·.isFor principal) then w.pendingBy
  else none

/-- A call on the registry, with the notes kept beside it. -/
def step (w : World) : Call → World × Outcome
  | .attach principal process takeover =>
    (w.attach parse principal process takeover,
      .of (Sandbox.attach parse w.state principal process takeover).2)
  | .confirm principal => (w.confirm principal, .of (Sandbox.confirm w.state principal).2)
  | .disconnect connectionId => (w.disconnect connectionId, .done)
  | .markTerminal => (⟨markTerminal w.state, none, none⟩, .done)

def World.new (launchAuthEpoch : Nat) : World :=
  ⟨ConnectionState.new launchAuthEpoch, none, none⟩

variable {parse}

/-! ## What a call can do -/

variable {state : ConnectionState} {process : Nat} {takeover : Option VerifiedSupervisorTakeover}

/-- Only the owner attaches without a takeover; a takeover is staged on a higher grant. -/
theorem takeoverToStage_ok {epoch : Nat}
    {staged : Option StagedTakeover} (hepoch : state.acceptedEpoch ≤ epoch)
    (h : takeoverToStage parse state epoch process takeover = .ok staged) :
    (staged = none ∧ epoch = state.acceptedEpoch ∧
      ∀ pinned, state.supervisorInstanceId = some pinned → pinned = process) ∨
    ∃ grant : VerifiedSupervisorTakeover, takeover = some grant ∧
      HigherGrant parse state epoch process grant ∧
      staged = some ⟨process, epoch, grant.owner, grant.tokenId⟩ := by
  cases takeover with
  | none =>
    rw [takeoverToStage] at h
    obtain ⟨hle, h⟩ := else_of_ite h nofun
    obtain ⟨hpin, h⟩ := else_of_ite h nofun
    refine .inl ⟨(Except.ok.inj h).symm, by omega, fun pinned hp => ?_⟩
    rw [hp] at hpin
    simpa using hpin
  | some grant =>
    rw [takeoverToStage] at h
    obtain ⟨bound, hbound, h⟩ := bind_eq_ok h
    split at h
    · next howner =>
      refine .inl ⟨(Except.ok.inj h).symm, howner.1, fun pinned hp => ?_⟩
      exact Option.mem_unique hp howner.2
    · obtain ⟨hlt, h⟩ := else_of_ite h nofun
      rw [stagedTakeover] at hbound
      cases hparse : parse grant.supervisorInstance with
      | none => simp [hparse] at hbound
      | some granted =>
        simp only [hparse] at hbound
        obtain ⟨hnames, ⟨⟩⟩ := else_of_ite hbound nofun
        rw [not_or, not_not, not_not] at hnames
        exact .inr
          ⟨grant, rfl, ⟨by omega, hnames.1, by rw [hparse, hnames.2]⟩, (Except.ok.inj h).symm⟩

/-- Who may attach: the owner at its own epoch, or the process of a higher grant. -/
def MayAttach (parse : String → Option Nat) (state : ConnectionState) (epoch process : Nat)
    (takeover : Option VerifiedSupervisorTakeover) : Prop :=
  (epoch = state.acceptedEpoch ∧ ∀ pinned, state.supervisorInstanceId = some pinned →
    pinned = process) ∨
  ∃ grant : VerifiedSupervisorTakeover, takeover = some grant ∧
  HigherGrant parse state epoch process grant

variable {principal : SandboxProtocolPrincipal} {plan : AttachPlan}

/-- A planned attach passed every check, and stages what its grant allows. -/
theorem planAttach_ok (h : planAttach parse state principal process takeover = .ok plan) :
    ∃ staged, state.acceptedEpoch ≤ principal.authEpoch ∧
      takeoverToStage parse state principal.authEpoch process takeover = .ok staged ∧
      ∀ staged', plan = .stage staged' → staged' = staged := by
  rw [planAttach, rejectIf_bind, rejectIf_bind] at h
  obtain ⟨-, hepoch, h⟩ := h
  obtain ⟨staged, hstaged, h⟩ := bind_eq_ok h
  refine ⟨staged, by omega, hstaged, ?_⟩
  rintro staged' rfl
  split at h
  · next decided hdecided =>
    -- the active connection decides on a replay or a refusal, never on staging
    subst h
    split at hdecided
    · rw [planByActive] at hdecided
      obtain ⟨active, -, hdecided⟩ := Option.bind_eq_some_iff.mp hdecided
      obtain ⟨-, hdecided⟩ := else_of_ite hdecided nofun
      obtain ⟨-, hdecided⟩ := else_of_ite hdecided nofun
      obtain ⟨-, ⟨⟩⟩ := else_of_ite hdecided nofun
    · cases hdecided
  · rw [planByPending] at h
    obtain ⟨-, h⟩ := else_of_ite h nofun
    split at h
    · exact (AttachPlan.stage.inj (Except.ok.inj h)).symm
    · obtain ⟨-, h⟩ := else_of_ite h nofun
      obtain ⟨-, ⟨⟩⟩ := else_of_ite h nofun
      rfl

theorem mayAttach_of_planAttach (h : planAttach parse state principal process takeover = .ok plan) :
    MayAttach parse state principal.authEpoch process takeover := by
  obtain ⟨staged, hepoch, hstaged, -⟩ := planAttach_ok h
  obtain ⟨-, howner⟩ | ⟨grant, htakeover, hgrant, -⟩ := takeoverToStage_ok hepoch hstaged
  · exact .inl howner
  · exact .inr ⟨grant, htakeover, hgrant⟩

/-- An attach goes through exactly when it is planned. -/
theorem attach_ok_iff :
    (∃ replaced, (attach parse state principal process takeover).2 = .ok replaced) ↔
      ∃ plan, planAttach parse state principal process takeover = .ok plan := by
  rw [attach]
  cases planAttach parse state principal process takeover with
  | error error => simp
  | ok plan =>
    cases plan with
    | unchanged => simp
    | stage staged => simp

theorem World.attach_cases (parse : String → Option Nat) (w : World)
    (principal : SandboxProtocolPrincipal) (process : Nat)
    (takeover : Option VerifiedSupervisorTakeover) :
    w.attach parse principal process takeover = w ∨
    ∃ staged : Option StagedTakeover, planAttach parse w.state principal process takeover = .ok
      (.stage staged) ∧ w.attach parse principal process takeover =
        ⟨stage w.state principal process staged, w.activeBy, some ⟨process, takeover⟩⟩ := by
  rw [World.attach, Sandbox.attach]
  cases planAttach parse w.state principal process takeover with
  | error error => exact .inl rfl
  | ok plan =>
    cases plan with
    | unchanged => exact .inl rfl
    | stage staged => exact .inr ⟨staged, rfl, rfl⟩

theorem promotes_iff :
    promotes state principal = true ↔
      state.terminal = false ∧ state.active.any (·.isFor principal) = false ∧
      ∃ pending, state.pending = some pending ∧ pending.isFor principal = true := by
  rw [promotes, Bool.and_eq_true, Bool.and_eq_true, Bool.not_eq_true', Bool.not_eq_true',
    Option.any_eq_true, and_assoc]

theorem World.confirm_cases (w : World) (principal : SandboxProtocolPrincipal) :
    w.confirm principal = w ∨
    ∃ pending : PendingConnection, promotes w.state principal = true ∧
      w.state.pending = some pending ∧ pending.isFor principal = true ∧
        w.confirm principal = ⟨promote w.state pending, w.pendingBy, none⟩ := by
  cases hp : promotes w.state principal with
  | true =>
    obtain ⟨hterminal, hactive, pending, hpending, hfor⟩ := promotes_iff.mp hp
    refine .inr ⟨pending, rfl, hpending, hfor, ?_⟩
    have hfilter : w.state.pending.filter (·.isFor principal) = some pending :=
      Option.filter_eq_some_iff.mpr ⟨hpending, hfor⟩
    simp [World.confirm, Sandbox.confirm, hp, hterminal, hactive, hfilter]
  | false =>
    refine .inl ?_
    have hstate : (Sandbox.confirm w.state principal).1 = w.state := by
      rw [Sandbox.confirm]
      split
      · rfl
      · split
        · rfl
        · next hterminal hactive =>
          split
          · rfl
          · next pending hpending =>
            obtain ⟨hpending, hfor⟩ := Option.filter_eq_some_iff.mp hpending
            have := promotes_iff.mpr
              ⟨by simpa using hterminal, by simpa using hactive, pending, hpending, hfor⟩
            rw [hp] at this
            cases this
    simp [World.confirm, hstate, hp]

/-! ## Whose connections they are -/

/-- The active connection is the owner's; a pending one is the owner's too, or that of a
process with a grant for a higher epoch. -/
structure Owned (parse : String → Option Nat) (w : World) : Prop where
  active : ∀ a, w.state.active = some a → a.epoch = w.state.acceptedEpoch ∧
    ∃ attached : Attachment, w.activeBy = some attached ∧
    w.state.supervisorInstanceId = some attached.process
  pending : ∀ p, w.state.pending = some p → p.takeover = none → p.epoch = w.state.acceptedEpoch ∧
    ∃ attached : Attachment, w.pendingBy = some attached ∧
    w.state.supervisorInstanceId = some attached.process
  takeover : ∀ p t, w.state.pending = some p → p.takeover = some t → t.authEpoch = p.epoch ∧
    ∃ grant : VerifiedSupervisorTakeover, w.pendingBy = some ⟨t.supervisorInstanceId, some grant⟩ ∧
      HigherGrant parse w.state p.epoch t.supervisorInstanceId grant

variable {w : World}

theorem owned_attach (h : Owned parse w) (principal : SandboxProtocolPrincipal) (process : Nat)
    (takeover : Option VerifiedSupervisorTakeover) :
    Owned parse (w.attach parse principal process takeover) := by
  obtain heq | ⟨staged, hplan, heq⟩ := w.attach_cases parse principal process takeover
  · rw [heq]
    exact h
  rw [heq]
  obtain ⟨staged', hepoch, hstaged, hsame⟩ := planAttach_ok hplan
  obtain rfl := hsame staged rfl
  obtain ⟨rfl, hat, hpin⟩ | ⟨grant, rfl, hgrant, rfl⟩ := takeoverToStage_ok hepoch hstaged
  · -- the owner attaches again, or the first process is pinned
    have hpinned : (stage w.state principal process none).supervisorInstanceId = some process := by
      cases hp : w.state.supervisorInstanceId with
      | none => simp [stage, hp]
      | some pinned => simp [stage, hp, hpin pinned hp]
    refine ⟨fun a ha => ?_, fun p hp _ => ?_, fun p t hp ht => ?_⟩
    · obtain ⟨hae, attached, hby, hp⟩ := h.active a ha
      exact ⟨hae, attached, hby, hpinned.trans (congrArg some (hpin _ hp).symm)⟩
    · cases hp
      exact ⟨hat, _, rfl, hpinned⟩
    · cases hp
      cases ht
  · refine ⟨h.active, fun p hp hnone => ?_, fun p t hp ht => ?_⟩
    · cases hp
      cases hnone
    · cases hp
      cases ht
      exact ⟨rfl, grant, rfl, hgrant⟩

theorem owned_confirm (h : Owned parse w) (principal : SandboxProtocolPrincipal) :
    Owned parse (w.confirm principal) := by
  obtain heq | ⟨pending, -, hpending, -, heq⟩ := w.confirm_cases principal
  · rw [heq]
    exact h
  rw [heq]
  refine ⟨fun a ha => ?_, nofun, nofun⟩
  cases ha
  cases ht : pending.takeover with
  | none =>
    obtain ⟨hepoch, attached, hby, hpin⟩ := h.pending pending hpending ht
    exact ⟨by simpa [promote, ht] using hepoch, attached, hby, by simpa [promote, ht] using hpin⟩
  | some t =>
    obtain ⟨hepoch, grant, hby, -⟩ := h.takeover pending t hpending ht
    exact ⟨by simp [promote, ht, hepoch], _, hby, by simp [promote, ht]⟩

theorem owned_disconnect (h : Owned parse w) (connectionId : Nat) :
    Owned parse (w.disconnect connectionId) := by
  have hactive : ∀ a, (w.disconnect connectionId).state.active = some a →
      w.state.active = some a ∧ (w.disconnect connectionId).activeBy = w.activeBy := by
    intro a ha
    obtain ⟨ha, hid⟩ := Option.filter_eq_some_iff.mp ha
    have hid : ¬a.id = connectionId := by simpa using hid
    exact ⟨ha, by simp [World.disconnect, ha, hid]⟩
  have hpending : ∀ p, (w.disconnect connectionId).state.pending = some p →
      w.state.pending = some p ∧ (w.disconnect connectionId).pendingBy = w.pendingBy := by
    intro p hp
    obtain ⟨hp, hid⟩ := Option.filter_eq_some_iff.mp hp
    have hid : ¬p.id = connectionId := by simpa using hid
    exact ⟨hp, by simp [World.disconnect, hp, hid]⟩
  refine ⟨fun a ha => ?_, fun p hp => ?_, fun p t hp => ?_⟩
  · rw [(hactive a ha).2]
    exact h.active a (hactive a ha).1
  · rw [(hpending p hp).2]
    exact h.pending p (hpending p hp).1
  · rw [(hpending p hp).2]
    exact h.takeover p t (hpending p hp).1

theorem owned_step (h : Owned parse w) (call : Call) : Owned parse (step parse w call).1 := by
  cases call with
  | attach principal process takeover => exact owned_attach h principal process takeover
  | confirm principal => exact owned_confirm h principal
  | disconnect connectionId => exact owned_disconnect h connectionId
  | markTerminal => exact ⟨nofun, nofun, nofun⟩

theorem owned_after (launchAuthEpoch : Nat) (calls : List Call) :
    Owned parse (Run.after (step parse) (World.new launchAuthEpoch) calls) :=
  Run.after_of_step (I := Owned parse) (s := World.new launchAuthEpoch)
    (fun _ call h => owned_step h call)
    ⟨nofun, nofun, nofun⟩ calls

/-! ## Epoch and pin -/

/-- The epoch in force does not go down, and while it stays so does the pin. -/
def Advances (w w' : World) : Prop :=
  w.state.acceptedEpoch ≤ w'.state.acceptedEpoch ∧
  (w.state.acceptedEpoch = w'.state.acceptedEpoch →
    ∀ pinned, w.state.supervisorInstanceId = some pinned →
    w'.state.supervisorInstanceId = some pinned)

theorem Advances.refl (w : World) : Advances w w :=
  ⟨Nat.le_refl _, fun _ _ h => h⟩

theorem Advances.trans {w' w'' : World} (h : Advances w w') (h' : Advances w' w'') :
    Advances w w'' := by
  refine ⟨Nat.le_trans h.1 h'.1, fun heq pinned hpin => ?_⟩
  have hfirst : w.state.acceptedEpoch = w'.state.acceptedEpoch := Nat.le_antisymm h.1 (heq ▸ h'.1)
  exact h'.2 (hfirst.symm.trans heq) pinned (h.2 hfirst pinned hpin)

/-- The call promoted a connection that was staged on a grant for its process and for the
epoch now in force. -/
def ConfirmsTakeover (parse : String → Option Nat) (w : World) (call : Call) (w' : World) : Prop :=
  ∃ (principal : SandboxProtocolPrincipal) (process : Nat) (grant : VerifiedSupervisorTakeover),
    call = .confirm principal ∧ w.attachmentOf principal = some ⟨process, some grant⟩ ∧
    principal.authEpoch = w'.state.acceptedEpoch ∧ grant.authEpoch = w'.state.acceptedEpoch ∧
    parse grant.supervisorInstance = some process ∧ w'.state.supervisorInstanceId = some process

theorem attachmentOf_pending (h : promotes w.state principal = true) :
    w.attachmentOf principal = w.pendingBy := by
  obtain ⟨-, hactive, pending, hpending, hfor⟩ := promotes_iff.mp h
  rw [World.attachmentOf, if_neg (by simp [hactive]), if_pos (by simp [hpending, hfor])]

theorem advances_attach (parse : String → Option Nat) (w : World)
    (principal : SandboxProtocolPrincipal) (process : Nat)
    (takeover : Option VerifiedSupervisorTakeover) :
    Advances w (w.attach parse principal process takeover) ∧
      (w.attach parse principal process takeover).state.acceptedEpoch = w.state.acceptedEpoch := by
  obtain heq | ⟨staged, -, heq⟩ := w.attach_cases parse principal process takeover
  · rw [heq]
    exact ⟨.refl w, rfl⟩
  · rw [heq]
    refine ⟨⟨Nat.le_refl _, fun _ pinned hpin => ?_⟩, rfl⟩
    simp [stage, hpin]

/-- A call keeps the epoch, or promotes a takeover to a higher one. -/
theorem advances_step (h : Owned parse w) (call : Call) :
    Advances w (step parse w call).1 ∧
      (w.state.acceptedEpoch < (step parse w call).1.state.acceptedEpoch →
        ConfirmsTakeover parse w call (step parse w call).1) := by
  cases call with
  | attach principal process takeover =>
    obtain ⟨hadvances, hepoch⟩ := advances_attach parse w principal process takeover
    exact ⟨hadvances, fun hlt => absurd hlt (by rw [step, hepoch]; exact Nat.lt_irrefl _)⟩
  | confirm principal =>
    rw [step]
    obtain heq | ⟨pending, hpromotes, hpending, hfor, heq⟩ := w.confirm_cases principal
    · rw [heq]
      exact ⟨.refl w, fun hlt => absurd hlt (Nat.lt_irrefl _)⟩
    rw [heq]
    cases ht : pending.takeover with
    | none =>
      refine ⟨⟨by simp [promote, ht], fun _ pinned hpin => by simp [promote, ht, hpin]⟩,
        fun hlt => ?_⟩
      simp [promote, ht] at hlt
    | some t =>
      obtain ⟨hepoch, grant, hby, hhigher, hgrant, hparse⟩ := h.takeover pending t hpending ht
      have hprincipal : pending.epoch = principal.authEpoch := (of_decide_eq_true hfor).2
      have hafter : (promote w.state pending).acceptedEpoch = pending.epoch :=
        by simp [promote, ht, hepoch]
      refine ⟨⟨by rw [hafter]; omega, fun heq => absurd heq (by rw [hafter]; omega)⟩, fun _ => ?_⟩
      refine ⟨principal, t.supervisorInstanceId, grant, rfl, ?_, ?_, ?_, hparse,
        by simp [promote, ht]⟩
      · rw [attachmentOf_pending hpromotes, hby]
      · rw [hafter, hprincipal]
      · rw [hafter, hgrant]
  | disconnect | markTerminal => exact ⟨.refl w, fun hlt => absurd hlt (Nat.lt_irrefl _)⟩

theorem advances_after (h : Owned parse w) (calls : List Call) :
    Advances w (Run.after (step parse) w calls) := by
  have hstart : Owned parse w ∧ Advances w w := ⟨h, .refl w⟩
  refine (Run.after_of_step (I := fun w' => Owned parse w' ∧ Advances w w') (fun w' call h' => ?_)
    hstart calls).2
  exact ⟨owned_step h'.1 call, h'.2.trans (advances_step h'.1 call).1⟩

/-! ## What is accepted -/

theorem requireActive_ok (h : requireActive state principal = .ok ()) :
    ∃ a, state.active = some a ∧ a.isFor principal = true := by
  rw [requireActive] at h
  obtain ⟨-, h⟩ := else_of_ite h nofun
  obtain ⟨-, h⟩ := else_of_ite h nofun
  obtain ⟨hactive, -⟩ := else_of_ite h nofun
  cases ha : state.active with
  | none => simp [ha] at hactive
  | some a => exact ⟨a, rfl, by simpa [ha] using hactive⟩

variable {promotion : Promotion}

theorem confirm_ok (h : (confirm state principal).2 = .ok promotion) :
    (∃ a, state.active = some a ∧ a.isFor principal = true) ∨ promotes state principal = true := by
  rw [confirm] at h
  split at h
  · cases h
  · next hterminal =>
    split at h
    · next hactive => exact .inl ((Option.any_eq_true ..).mp hactive)
    · next hactive =>
      split at h
      · cases h
      · next pending hpending =>
        obtain ⟨hpending, hfor⟩ := Option.filter_eq_some_iff.mp hpending
        exact .inr
          (promotes_iff.mpr ⟨by simpa using hterminal, by simpa using hactive, pending,
            hpending, hfor⟩)

/-- The owner's active connection, as the run noted it. -/
theorem attachmentOf_active (h : Owned parse w) {a : ActiveConnection}
    (ha : w.state.active = some a) (hfor : a.isFor principal = true) :
    principal.authEpoch = w.state.acceptedEpoch ∧
      ∃ attached : Attachment, w.attachmentOf principal = some attached ∧
        w.state.supervisorInstanceId = some attached.process := by
  obtain ⟨hepoch, attached, hby, hpin⟩ := h.active a ha
  have hprincipal : a.epoch = principal.authEpoch := (of_decide_eq_true hfor).2
  refine ⟨hprincipal.symm.trans hepoch, attached, ?_, hpin⟩
  rw [World.attachmentOf, if_pos (by simp [ha, hfor]), hby]

/-- The process of a principal is the pinned one, or was attached on a higher grant. -/
def MayConfirm (parse : String → Option Nat) (w : World)
    (principal : SandboxProtocolPrincipal) : Prop :=
  ∃ attached : Attachment, w.attachmentOf principal = some attached ∧
    (w.state.supervisorInstanceId = some attached.process ∨
      ∃ grant : VerifiedSupervisorTakeover, attached.grant = some grant ∧
        HigherGrant parse w.state principal.authEpoch attached.process grant)

theorem mayConfirm_of_confirm (h : Owned parse w)
    (hok : (confirm w.state principal).2 = .ok promotion) :
    w.state.acceptedEpoch ≤ principal.authEpoch ∧ MayConfirm parse w principal := by
  obtain ⟨a, ha, hfor⟩ | hpromotes := confirm_ok hok
  · obtain ⟨hepoch, attached, hby, hpin⟩ := attachmentOf_active h ha hfor
    exact ⟨Nat.le_of_eq hepoch.symm, attached, hby, .inl hpin⟩
  · obtain ⟨-, -, pending, hpending, hfor⟩ := promotes_iff.mp hpromotes
    have hprincipal : pending.epoch = principal.authEpoch := (of_decide_eq_true hfor).2
    have hnoted := attachmentOf_pending hpromotes
    cases ht : pending.takeover with
    | none =>
      obtain ⟨hepoch, attached, hby, hpin⟩ := h.pending pending hpending ht
      exact ⟨by omega, attached, hnoted.trans hby, .inl hpin⟩
    | some t =>
      obtain ⟨-, grant, hby, hgrant⟩ := h.takeover pending t hpending ht
      rw [hprincipal] at hgrant
      exact ⟨Nat.le_of_lt hgrant.1, _, hnoted.trans hby, .inr ⟨grant, rfl, hgrant⟩⟩

/-- A closed registry. -/
structure AcceptsNothing (parse : String → Option Nat) (state : ConnectionState) : Prop where
  attach : ∀ principal process takeover, (attach parse state principal process takeover).2 =
    .error .terminalSession
  checkAttach : ∀ principal process takeover, checkAttach parse state principal process takeover =
    .error .terminalSession
  confirm : ∀ principal, (confirm state principal).2 = .error .terminalSession
  requireAttached : ∀ principal, requireAttached state principal = .error .terminalSession
  requireActive : ∀ principal, requireActive state principal = .error .terminalSession

theorem acceptsNothing_of_terminal (h : state.terminal = true) :
    AcceptsNothing parse state := by
  have hplan : ∀ principal process takeover,
      planAttach parse state principal process takeover = .error .terminalSession := by
    intro principal process takeover
    rw [planAttach, rejectIf, if_pos h]
    rfl
  refine ⟨fun _ _ _ => ?_, fun _ _ _ => ?_, fun _ => ?_, fun _ => ?_, fun _ => ?_⟩
  · rw [attach, hplan]
  · rw [checkAttach, hplan]
    rfl
  · rw [confirm, if_pos h]
  · rw [requireAttached, if_pos h]
  · rw [requireActive, if_pos h]

theorem terminal_step (w : World) (call : Call) (h : w.state.terminal = true) :
    (step parse w call).1.state.terminal = true := by
  cases call with
  | attach principal process takeover =>
    rw [step]
    obtain heq | ⟨staged, -, heq⟩ := w.attach_cases parse principal process takeover
    · rw [heq]
      exact h
    · rw [heq]
      exact h
  | confirm principal =>
    rw [step]
    obtain heq | ⟨pending, -, -, -, heq⟩ := w.confirm_cases principal
    · rw [heq]
      exact h
    · rw [heq]
      exact h
  | disconnect connectionId => exact h
  | markTerminal => rfl

theorem terminal_after {calls : List Call} (h : .markTerminal ∈ calls) (w : World) :
    (Run.after (step parse) w calls).state.terminal = true := by
  obtain ⟨first, second, rfl⟩ := List.append_of_mem h
  rw [Run.after_append, Run.after]
  exact Run.after_of_step (I := fun w : World => w.state.terminal = true) terminal_step rfl second

/-! ## One owner -/

/-- What holds of a run of the registry. -/
structure OneOwner (parse : String → Option Nat) (launchAuthEpoch : Nat) (calls : List Call)
    (w : World) : Prop where
  rises : ∀ e ∈ Run.trace (step parse) (World.new launchAuthEpoch) calls,
    e.before.state.acceptedEpoch ≤ e.after.state.acceptedEpoch ∧
    (e.before.state.acceptedEpoch < e.after.state.acceptedEpoch →
      ConfirmsTakeover parse e.before e.call e.after)
  active : ∀ a, w.state.active = some a → a.epoch = w.state.acceptedEpoch ∧
    ∃ attached : Attachment, w.activeBy = some attached ∧
    w.state.supervisorInstanceId = some attached.process
  pinned : ∀ first second, calls = first ++ second → ∀ earlier : World,
    earlier = Run.after (step parse) (World.new launchAuthEpoch) first →
    earlier.state.acceptedEpoch = w.state.acceptedEpoch →
    ∀ process process', earlier.state.supervisorInstanceId = some process →
      w.state.supervisorInstanceId = some process' → process = process'
  admitted : ∀ principal, admitPrincipal w.state principal = .ok () →
    w.state.acceptedEpoch ≤ principal.authEpoch
  requireActive : ∀ principal, requireActive w.state principal = .ok () →
    principal.authEpoch = w.state.acceptedEpoch ∧
    ∃ attached : Attachment, w.attachmentOf principal = some attached ∧
    w.state.supervisorInstanceId = some attached.process
  attach : ∀ principal process takeover replaced,
    (attach parse w.state principal process takeover).2 = .ok replaced →
    w.state.acceptedEpoch ≤ principal.authEpoch ∧
    MayAttach parse w.state principal.authEpoch process takeover
  confirm : ∀ principal promotion, (confirm w.state principal).2 = .ok promotion →
    w.state.acceptedEpoch ≤ principal.authEpoch ∧ MayConfirm parse w principal
  checkAttach : ∀ principal process takeover,
    checkAttach parse w.state principal process takeover = .ok () →
    ∃ replaced, (Sandbox.attach parse w.state principal process takeover).2 = .ok replaced
  terminal : .markTerminal ∈ calls → AcceptsNothing parse w.state

/-- A runtime has one owner, and ownership only moves up. -/
theorem oneOwner_of_run (parse : String → Option Nat) (launchAuthEpoch : Nat) (calls : List Call) :
    OneOwner parse launchAuthEpoch calls
      (Run.after (step parse) (World.new launchAuthEpoch) calls) := by
  have howned : Owned parse _ := owned_after launchAuthEpoch calls
  refine ⟨fun e he => ?_, howned.active, ?_, fun principal h =>
    Nat.le_of_not_lt (rejectIf_eq_ok.mp h),
    fun principal h => ?_, fun principal process takeover replaced h => ?_,
    fun principal promotion h => mayConfirm_of_confirm howned h,
    fun principal process takeover h => ?_,
    fun h => acceptsNothing_of_terminal (terminal_after h _)⟩
  · obtain ⟨pre, post, -, hbefore, hstep⟩ := Run.mem_trace he
    have hcall :=
      advances_step (hbefore ▸ owned_after launchAuthEpoch pre : Owned parse e.before) e.call
    rw [hstep] at hcall
    exact ⟨hcall.1.1, hcall.2⟩
  · rintro first second rfl earlier rfl hepoch process process' hprocess hprocess'
    rw [Run.after_append] at hepoch hprocess'
    have hkept :=
      (advances_after (owned_after launchAuthEpoch first) second).2 hepoch process hprocess
    exact Option.mem_unique hkept hprocess'
  · obtain ⟨a, ha, hfor⟩ := requireActive_ok h
    exact attachmentOf_active howned ha hfor
  · obtain ⟨plan, hplan⟩ := attach_ok_iff.mp ⟨replaced, h⟩
    obtain ⟨-, hepoch, -⟩ := planAttach_ok hplan
    exact ⟨hepoch, mayAttach_of_planAttach hplan⟩
  · obtain ⟨plan, hplan, -⟩ := map_eq_ok h
    exact attach_ok_iff.mpr ⟨plan, hplan⟩

end

end OpenShell.Sandbox
