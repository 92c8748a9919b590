import Mathlib.Data.Set.Defs
import OpenShell.Server.ConfigSession
import OpenShell.Util.Run

/-!
# Suppressed deliveries

Runs of one push session: configurations are delivered, the supervisor answers the
update it has, the gateway finishes the update. The gateway keeps the fingerprint that
was acknowledged last, also when a later update was answered without acknowledging it.
So a configuration can be suppressed although the supervisor was given another one in
between, and either took it or rejected it. Which sessions cannot get there is
settled at the end.
-/

namespace OpenShell.Server.ConfigDelivery

open ConfigSessionState (completedOutcome Released)

/-- The gateway's session and what the supervisor was sent and answered. -/
structure World where
  session : ConfigSessionState
  nextId : Nat
  /-- Updates the supervisor was sent and has not answered. -/
  unanswered : List Nat
  /-- A result being recorded, and whether recording it succeeds. -/
  completing : Option (CompletedConfigUpdate × Bool)
  lastAnswered : Option (ConfigFingerprint × ConfigApplyOutcome)

/-- A session starts with its bootstrap in flight. -/
def World.start (bootstrap : SupervisorConfig) : World where
  session := { ConfigSessionState.new with inFlight := some ⟨0, .of bootstrap.sandboxConfig, true⟩ }
  nextId := 1
  unanswered := [0]
  completing := none
  lastAnswered := none

inductive Call
  | deliver (config : SupervisorConfig)
  /-- The supervisor answers an update; whether the answer will be recorded. -/
  | answer (updateId : Nat) (outcome : Int) (acknowledge : Bool)
  | finalize

inductive Reply
  | queued
  | refused (disposition : DeliveryDisposition)
  | completed
  /-- The answer answers no update in flight, and the session closes. -/
  | closed
  | released (released : Released)
  | idle

section
variable (messageLen : SandboxConfigSnapshot → ProviderEnvironmentSnapshot → Nat)

def World.deliver (world : World) (config : SupervisorConfig) : World × Reply :=
  match world.session.deliver messageLen world.nextId config with
  | (session, .ok update) =>
    ({ world with session, nextId := world.nextId + 1, unanswered := world.unanswered ++
      [update.updateId] }, .queued)
  | (session, .error disposition) => ({ world with session }, .refused disposition)

/-- Results are handled one at a time. -/
def World.answer (world : World) (updateId : Nat) (outcome : Int) (acknowledge : Bool) :
    World × Reply :=
  if world.completing.isSome then (world, .idle)
  else
    match world.session.complete updateId outcome with
    | none => (world, .closed)
    | some completed =>
      ({ world with
          unanswered := world.unanswered.erase updateId
          completing := some (completed, acknowledge)
          lastAnswered := some (completed.fingerprint, completed.outcome) }, .completed)

def World.finalize (world : World) : World × Reply :=
  match world.completing with
  | none => (world, .idle)
  | some (completed, acknowledge) =>
    match world.session.finalize messageLen world.nextId completed acknowledge with
    | (session, .sent update) =>
      ({ world with
          session, nextId := world.nextId + 1, unanswered := world.unanswered ++ [update.updateId],
            completing := none },
        .released (.sent update))
    | (session, released) => ({ world with session, completing := none }, .released released)

def step (world : World) : Call → World × Reply
  | .deliver config => world.deliver messageLen config
  | .answer updateId outcome acknowledge => world.answer updateId outcome acknowledge
  | .finalize => world.finalize messageLen

end

/-- The supervisor answered this configuration last, and acknowledged it. -/
def World.Has (world : World) (fingerprint : ConfigFingerprint) : Prop :=
  ∃ outcome, world.lastAnswered = some (fingerprint, outcome) ∧
    outcomeAcknowledgesRevision outcome = true

/-- The answers that acknowledge a configuration, and those that leave the last acknowledgement. -/
def Acknowledges (outcome : ConfigApplyOutcome) (acknowledge : Bool) : Prop :=
  acknowledge = true ∧ outcomeAcknowledgesRevision outcome = true ∧ outcome ≠ .degraded

def Keeps (outcome : ConfigApplyOutcome) (acknowledge : Bool) : Prop :=
  ¬(acknowledge = true ∧ outcomeAcknowledgesRevision outcome = true)

/-! ## What a call can do -/

variable {messageLen : SandboxConfigSnapshot → ProviderEnvironmentSnapshot → Nat}
  {world world' : World} {call : Call} {reply : Reply}

/-- Cutting a configuration down does not change which one it is. -/
theorem fingerprint_delivered (config : SupervisorConfig) :
    ConfigFingerprint.of (delivered messageLen config).sandboxConfig =
      .of config.sandboxConfig := by
  unfold delivered
  dsimp only
  split
  · rfl
  · rfl

variable {completed : CompletedConfigUpdate}

/-- What is acknowledged after an answer: its configuration, or the last one. -/
theorem acknowledge_eq_some {state : ConfigSessionState} {acknowledge : Bool}
    {fingerprint : ConfigFingerprint}
    (h : state.acknowledge completed acknowledge = some fingerprint) :
    (Acknowledges completed.outcome acknowledge ∧ fingerprint = completed.fingerprint) ∨
      (Keeps completed.outcome acknowledge ∧ state.acknowledged = some fingerprint) := by
  rw [ConfigSessionState.acknowledge] at h
  split at h
  next hboth =>
    rw [Bool.and_eq_true] at hboth
    split at h
    next hne => exact .inl ⟨⟨hboth.1, hboth.2, hne⟩, (Option.some.inj h).symm⟩
    next => cases h
  next hnot =>
    rw [Bool.and_eq_true] at hnot
    exact .inr ⟨hnot, h⟩

/-- What the gateway knows about the supervisor: the update in flight is the one update that is
not answered, or its answer is being recorded. -/
structure Tracked (world : World) : Prop where
  waiting : world.completing = none →
    world.unanswered = (world.session.inFlight.map (·.updateId)).toList
  completing : ∀ completed acknowledge, world.completing = some (completed, acknowledge) →
    world.unanswered = [] ∧
    (∃ update, world.session.inFlight = some update ∧ update.updateId = completed.updateId ∧
      update.fingerprint = completed.fingerprint) ∧
    world.lastAnswered = some (completed.fingerprint, completed.outcome)

variable (messageLen) in
inductive Took (world : World) : Call → World → Reply → Prop
  | suppressed (config : SupervisorConfig) (hidle : world.session.inFlight = none)
      (hack : world.session.acknowledged = some (.of config.sandboxConfig)) :
      Took world (.deliver config) world (.refused .suppressedUnchanged)
  | coalesced (config : SupervisorConfig) (hbusy : world.session.inFlight ≠ none) :
      Took world (.deliver config)
        { world with session := { world.session with pending := some config } }
          (.refused .coalesced)
  | queued (config : SupervisorConfig) (hidle : world.session.inFlight = none)
      (hnew : world.session.acknowledged ≠ some (.of config.sandboxConfig))
      (hfits : fits messageLen config = true) :
      Took world (.deliver config)
        { world with
          session :=
            { world.session with inFlight := some ⟨world.nextId, .of config.sandboxConfig, false⟩ }
          nextId := world.nextId + 1
          unanswered := world.unanswered ++ [world.nextId] } .queued
  | answered (outcome : Int) (acknowledge : Bool) (update : InFlightConfigUpdate)
      (completed : CompletedConfigUpdate)
      (hfree : world.completing = none) (hflight : world.session.inFlight = some update)
      (hid : completed.updateId = update.updateId)
        (hfingerprint : completed.fingerprint = update.fingerprint)
      (houtcome : completed.outcome = completedOutcome outcome) :
      Took world (.answer update.updateId outcome acknowledge)
        { world with
          unanswered := world.unanswered.erase update.updateId
          completing := some (completed, acknowledge)
          lastAnswered := some (completed.fingerprint, completed.outcome) } .completed
  /-- Nothing is sent: no configuration was held, or it was the acknowledged one or too large. -/
  | finished (completed : CompletedConfigUpdate) (acknowledge : Bool)
      (released : Released)
      (hcompleting : world.completing = some (completed, acknowledge))
      (hdropped : ∀ config, released = .unchanged config →
        world.session.acknowledge completed acknowledge = some (.of config.sandboxConfig)) :
      Took world .finalize
        { world with
          session := ⟨none, none, world.session.acknowledge completed acknowledge⟩
          completing := none } (.released released)
  | sent (completed : CompletedConfigUpdate) (acknowledge : Bool) (config : SupervisorConfig)
      (update : ConfigUpdate)
      (hcompleting : world.completing = some (completed, acknowledge))
      (hpending : world.session.pending = some config)
      (hnew : world.session.acknowledge completed acknowledge ≠ some (.of config.sandboxConfig))
      (hfits : fits messageLen config = true) :
      Took world .finalize
        { world with
          session := ⟨some ⟨world.nextId, .of config.sandboxConfig, false⟩, none,
            world.session.acknowledge completed acknowledge⟩
          nextId := world.nextId + 1
          unanswered := world.unanswered ++ [world.nextId]
          completing := none } (.released (.sent update))
  | unchanged (call : Call) (reply : Reply) (hsuppressed : reply ≠ .refused .suppressedUnchanged)
      (hdropped : ∀ config, reply ≠ .released (.unchanged config)) : Took world call world reply

variable {config : SupervisorConfig}

theorem send_fits (state : ConfigSessionState) (updateId : Nat)
    (h : fits messageLen config = true) :
    ∃ update : ConfigUpdate, update.updateId = updateId ∧ state.send messageLen updateId config =
      ({ state with inFlight := some ⟨updateId, .of config.sandboxConfig, false⟩ },
        .ok update) := by
  refine ⟨(buildConfigUpdate messageLen updateId config false).1, rfl, ?_⟩
  rw [ConfigSessionState.send]
  simp only [h, if_true, buildConfigUpdate, fingerprint_delivered]

theorem send_tooLarge {state : ConfigSessionState} {updateId : Nat}
    (h : fits messageLen config = false) :
    state.send messageLen updateId config = (state, .error .payloadTooLarge) := by
  rw [ConfigSessionState.send]
  simp only [h, Bool.false_eq_true, if_false]

theorem deliver_took (world : World) (config : SupervisorConfig) :
    Took messageLen world (.deliver config)
      (world.deliver messageLen config).1 (world.deliver messageLen config).2 := by
  rw [World.deliver, ConfigSessionState.deliver]
  rcases Option.eq_none_or_eq_some world.session.inFlight with hflight | ⟨update, hflight⟩
  · by_cases hack : world.session.acknowledged = some (.of config.sandboxConfig)
    · rw [if_pos ⟨by rw [hflight]; rfl, hack⟩]
      exact .suppressed config hflight hack
    · rw [if_neg fun hboth => hack hboth.2, if_neg (by simp [hflight])]
      cases hfits : fits messageLen config with
      | true =>
        obtain ⟨update, hid, hsend⟩ := send_fits world.session world.nextId hfits
        rw [hsend]
        dsimp only
        rw [hid]
        exact .queued config hflight hack hfits
      | false =>
        rw [send_tooLarge hfits]
        exact .unchanged _ _ nofun nofun
  · rw [if_neg (by simp [hflight]), if_pos (by simp [hflight])]
    exact .coalesced config (by simp [hflight])

theorem answer_took (world : World) (updateId : Nat) (outcome : Int) (acknowledge : Bool) :
    Took messageLen world (.answer updateId outcome acknowledge)
      (world.answer updateId outcome acknowledge).1
      (world.answer updateId outcome acknowledge).2 := by
  rw [World.answer]
  split
  next => exact .unchanged _ _ nofun nofun
  next hfree =>
    split
    next => exact .unchanged _ _ nofun nofun
    next completed hcomplete =>
      rw [ConfigSessionState.complete] at hcomplete
      obtain ⟨update, hflight, hmatch⟩ := Option.bind_eq_some_iff.mp hcomplete
      split at hmatch
      next => cases hmatch
      next hid =>
        rw [Classical.not_not] at hid
        subst hid
        cases hmatch
        exact .answered outcome acknowledge update _ (by simpa using hfree) hflight rfl rfl rfl

/-- Finishing the update in flight. -/
theorem finalize_took (h : Tracked world) :
    Took messageLen world .finalize (world.finalize messageLen).1
      (world.finalize messageLen).2 := by
  rw [World.finalize]
  cases hcompleting : world.completing with
  | none => exact .unchanged _ _ nofun nofun
  | some entry =>
    obtain ⟨completed, acknowledge⟩ := entry
    obtain ⟨-, ⟨update, hflight, hid, -⟩, -⟩ := h.completing completed acknowledge hcompleting
    have hmatch : world.session.inFlight.all (·.updateId ≠ completed.updateId) = false := by
      rw [hflight]
      simp [hid]
    dsimp only
    rw [ConfigSessionState.finalize, if_neg (by rw [hmatch]; exact Bool.false_ne_true)]
    cases hpending : world.session.pending with
    | none => exact .finished completed acknowledge _ hcompleting nofun
    | some config =>
      dsimp only
      by_cases hack : world.session.acknowledge completed acknowledge =
        some (.of config.sandboxConfig)
      · rw [if_pos hack]
        refine .finished completed acknowledge _ hcompleting fun config' hsame => ?_
        rw [hack, Released.unchanged.inj hsame]
      · rw [if_neg hack]
        cases hfits : fits messageLen config with
        | true =>
          obtain ⟨update, hid, hsend⟩ := send_fits
            ⟨none, none, world.session.acknowledge completed acknowledge⟩ world.nextId hfits
          rw [hsend]
          dsimp only
          rw [hid]
          exact .sent completed acknowledge config update hcompleting hpending hack hfits
        | false =>
          rw [send_tooLarge hfits]
          exact .finished completed acknowledge _ hcompleting nofun

theorem step_took (h : Tracked world) (call : Call) :
    Took messageLen world call (step messageLen world call).1 (step messageLen world call).2 := by
  cases call with
  | deliver config => exact deliver_took world config
  | answer updateId outcome acknowledge => exact answer_took world updateId outcome acknowledge
  | finalize => exact finalize_took h

/-- Step: a call keeps track of the supervisor. -/
theorem Tracked.took (h : Tracked world) (htook : Took messageLen world call world' reply) :
    Tracked world' := by
  cases htook with
  | suppressed | unchanged => exact h
  | coalesced => exact ⟨h.waiting, h.completing⟩
  | queued config hidle hnew hfits =>
    -- nothing is in flight, so no answer is being recorded
    have hfree : world.completing = none := by
      cases hc : world.completing with
      | none => rfl
      | some entry =>
        obtain ⟨-, ⟨update, hflight, -⟩, -⟩ := h.completing entry.1 entry.2 hc
        cases hidle.symm.trans hflight
    refine ⟨fun _ => ?_, fun completed acknowledge hc => ?_⟩
    · simp [h.waiting hfree, hidle]
    · cases hfree.symm.trans hc
  | answered outcome acknowledge update completed hfree hflight hid hfingerprint houtcome =>
    refine ⟨nofun, fun completed' acknowledge' hc => ?_⟩
    cases hc
    refine ⟨?_, ⟨update, hflight, hid.symm, hfingerprint.symm⟩, rfl⟩
    simp [h.waiting hfree, hflight]
  | finished completed acknowledge released hcompleting hdropped =>
    exact ⟨fun _ => (h.completing _ _ hcompleting).1, nofun⟩
  | sent completed acknowledge config update hcompleting hpending hnew hfits =>
    refine ⟨fun _ => ?_, nofun⟩
    simp [(h.completing _ _ hcompleting).1]

/-- One update at most is on its way. -/
theorem Tracked.unanswered_le (h : Tracked world) : world.unanswered.length ≤ 1 := by
  cases hc : world.completing with
  | none =>
    rw [h.waiting hc]
    cases world.session.inFlight with
    | none => exact Nat.zero_le _
    | some update => exact Nat.le_refl _
  | some entry =>
    rw [(h.completing entry.1 entry.2 hc).1]
    exact Nat.zero_le _

/-! ## Right suppressions -/

/-- The acknowledged configuration is the one answered last, and no answer being recorded leaves it
behind. -/
def Good (world : World) : Prop :=
  ∀ fingerprint, world.session.acknowledged = some fingerprint →
    (world.session.inFlight = none → world.Has fingerprint) ∧
    ∀ completed acknowledge, world.completing = some (completed, acknowledge) →
    ¬Keeps completed.outcome acknowledge

/-- A call that suppresses a configuration or drops a held one. -/
def Reply.Suppresses (call : Call) (reply : Reply) (config : SupervisorConfig) : Prop :=
  (call = .deliver config ∧ reply = .refused .suppressedUnchanged) ∨
    reply = .released (.unchanged config)

/-- In a good world, what is suppressed is what the supervisor has. -/
theorem has_of_suppresses (htracked : Tracked world) (hgood : Good world)
    (htook : Took messageLen world call world' reply)
    (h : Reply.Suppresses call reply config) : world.Has (.of config.sandboxConfig) := by
  cases htook with
  | suppressed config' hidle hack =>
    obtain ⟨hcall, -⟩ | hreply := h
    · obtain rfl : config' = config := Call.deliver.inj hcall
      exact (hgood _ hack).1 hidle
    · cases hreply
  | finished completed acknowledge released hcompleting hdropped =>
    obtain ⟨hcall, -⟩ | hreply := h
    · cases hcall
    · have hack := hdropped config (Reply.released.inj hreply)
      obtain ⟨hacks, hsame⟩ | ⟨hkeeps, hold⟩ := acknowledge_eq_some hack
      · rw [hsame]
        exact ⟨completed.outcome, (htracked.completing _ _ hcompleting).2.2, hacks.2.1⟩
      · exact absurd hkeeps ((hgood _ hold).2 completed acknowledge hcompleting)
  | unchanged call reply hsuppressed hdropped =>
    obtain ⟨-, hreply⟩ | hreply := h
    · exact absurd hreply hsuppressed
    · exact absurd hreply (hdropped config)
  | _ =>
    obtain ⟨-, hreply⟩ | hreply := h
    · cases hreply
    · cases hreply

/-! ### Every answer replaces the acknowledgement -/

/-- The acknowledgement is of the last answer. -/
structure Replacing (world : World) : Prop where
  completing : ∀ completed acknowledge, world.completing = some (completed, acknowledge) →
    ¬Keeps completed.outcome acknowledge
  acknowledged : world.session.inFlight = none →
    ∀ fingerprint, world.session.acknowledged = some fingerprint → world.Has fingerprint

theorem Replacing.good (h : Replacing world) : Good world :=
  fun fingerprint hack => ⟨fun hidle => h.acknowledged hidle fingerprint hack, h.completing⟩

/-- Step: no call leaves an acknowledgement behind, if every answer replaces it. -/
theorem Replacing.took (h : Replacing world) (htracked : Tracked world)
    (htook : Took messageLen world call world' reply)
    (hcall : ∀ updateId outcome acknowledge, call = .answer updateId outcome acknowledge →
      ¬Keeps (completedOutcome outcome) acknowledge) : Replacing world' := by
  cases htook with
  | suppressed | unchanged => exact h
  | coalesced config hbusy => exact ⟨h.completing, fun hidle => absurd hidle hbusy⟩
  | queued => exact ⟨h.completing, nofun⟩
  | answered outcome acknowledge update completed hfree hflight hid hfingerprint houtcome =>
    refine ⟨fun completed' acknowledge' hc => ?_, fun hidle => ?_⟩
    · cases hc
      rw [houtcome]
      exact hcall _ _ _ rfl
    · cases hidle.symm.trans hflight
  | sent => exact ⟨nofun, nofun⟩
  | finished completed acknowledge released hcompleting hdropped =>
    refine ⟨nofun, fun _ f hack => ?_⟩
    obtain ⟨hacks, rfl⟩ | ⟨hkeeps, -⟩ := acknowledge_eq_some hack
    · exact ⟨_, (htracked.completing _ _ hcompleting).2.2, hacks.2.1⟩
    · exact absurd hkeeps (h.completing _ _ hcompleting)

/-! ### No answer acknowledges -/

/-- Nothing was acknowledged, and nothing is about to be. -/
structure Unacknowledged (world : World) : Prop where
  completing : ∀ completed acknowledge, world.completing = some (completed, acknowledge) →
    ¬Acknowledges completed.outcome acknowledge
  acknowledged : world.session.acknowledged = none

theorem Unacknowledged.good (h : Unacknowledged world) : Good world := by
  intro fingerprint hack
  cases h.acknowledged.symm.trans hack

theorem Unacknowledged.acknowledge (h : Unacknowledged world) {acknowledge : Bool}
    (hcompleting : world.completing = some (completed, acknowledge)) :
    world.session.acknowledge completed acknowledge = none := by
  cases hack : world.session.acknowledge completed acknowledge with
  | none => rfl
  | some fingerprint =>
    obtain ⟨hacks, -⟩ | ⟨-, hold⟩ := acknowledge_eq_some hack
    · exact absurd hacks (h.completing _ _ hcompleting)
    · cases h.acknowledged.symm.trans hold

/-- Step: nothing gets acknowledged, if no answer acknowledges. -/
theorem Unacknowledged.took (h : Unacknowledged world)
    (htook : Took messageLen world call world' reply)
    (hcall : ∀ updateId outcome acknowledge, call = .answer updateId outcome acknowledge →
      ¬Acknowledges (completedOutcome outcome) acknowledge) :
    Unacknowledged world' := by
  cases htook with
  | suppressed | unchanged => exact h
  | coalesced | queued => exact ⟨h.completing, h.acknowledged⟩
  | answered outcome acknowledge update completed hfree hflight hid hfingerprint houtcome =>
    refine ⟨fun completed' acknowledge' hc => ?_, h.acknowledged⟩
    cases hc
    rw [houtcome]
    exact hcall _ _ _ rfl
  | finished _ _ _ hcompleting | sent _ _ _ _ hcompleting =>
    exact ⟨nofun, h.acknowledge hcompleting⟩

/-! ### One configuration -/

/-- Every update is of one configuration. Once it is acknowledged, nothing more is sent. -/
structure Single (fits : SupervisorConfig → Bool) (only : ConfigFingerprint)
    (world : World) : Prop where
  inFlight : ∀ update, world.session.inFlight = some update → update.fingerprint = only
  pending : ∀ config, world.session.pending = some config → fits config = true →
    .of config.sandboxConfig = only
  acknowledged : ∀ fingerprint, world.session.acknowledged = some fingerprint →
    world.session.inFlight = none ∧ fingerprint = only ∧ world.Has fingerprint

variable {only : ConfigFingerprint}

theorem Single.good {fits : SupervisorConfig → Bool} (h : Single fits only world)
    (htracked : Tracked world) : Good world := by
  intro fingerprint hack
  obtain ⟨hidle, -, hhas⟩ := h.acknowledged fingerprint hack
  refine ⟨fun _ => hhas, fun completed acknowledge hcompleting => ?_⟩
  obtain ⟨-, ⟨update, hflight, -⟩, -⟩ := htracked.completing completed acknowledge hcompleting
  cases hidle.symm.trans hflight

/-- Recording an answer, while nothing was acknowledged. -/
theorem Single.acknowledge {fits : SupervisorConfig → Bool} (h : Single fits only world)
    (htracked : Tracked world) {acknowledge : Bool} {fingerprint : ConfigFingerprint}
    (hcompleting : world.completing = some (completed, acknowledge))
    (hack : world.session.acknowledge completed acknowledge = some fingerprint) :
    fingerprint = only ∧ world.Has fingerprint := by
  obtain ⟨-, ⟨update, hflight, -, hsame⟩, hlast⟩ :=
    htracked.completing completed acknowledge hcompleting
  obtain ⟨hacks, rfl⟩ | ⟨-, hold⟩ := acknowledge_eq_some hack
  · exact ⟨hsame ▸ h.inFlight update hflight, completed.outcome, hlast, hacks.2.1⟩
  · cases (h.acknowledged fingerprint hold).1.symm.trans hflight

/-- Step: the updates stay of one configuration, if what is delivered and fits is. -/
theorem Single.took (h : Single (fits messageLen) only world) (htracked : Tracked world)
    (htook : Took messageLen world call world' reply)
    (hcall : ∀ config, call = .deliver config → fits messageLen config = true →
      .of config.sandboxConfig = only) :
    Single (fits messageLen) only world' := by
  cases htook with
  | suppressed | unchanged => exact h
  | coalesced config hbusy =>
    refine ⟨h.inFlight, fun config' hpending => ?_, h.acknowledged⟩
    cases hpending
    exact hcall config rfl
  | queued config hidle hnew hfits =>
    have honly := hcall config rfl hfits
    refine ⟨fun update hflight => ?_, h.pending, fun fingerprint hack => ?_⟩
    · rw [← Option.some.inj hflight]
      exact honly
    · rw [(h.acknowledged fingerprint hack).2.1, ← honly] at hack
      exact absurd hack hnew
  | answered outcome acknowledge update completed hfree hflight hid hfingerprint houtcome =>
    refine ⟨h.inFlight, h.pending, fun fingerprint hack => ?_⟩
    cases (h.acknowledged fingerprint hack).1.symm.trans hflight
  | finished completed acknowledge released hcompleting hdropped =>
    exact ⟨nofun, nofun, fun fingerprint hack => ⟨rfl, h.acknowledge htracked hcompleting hack⟩⟩
  | sent completed acknowledge config update hcompleting hpending hnew hfits =>
    have honly := h.pending config hpending hfits
    refine ⟨fun update hflight => ?_, nofun, fun fingerprint hack => ?_⟩
    · rw [← Option.some.inj hflight]
      exact honly
    · have hsame := (h.acknowledge htracked hcompleting hack).1
      rw [hsame, ← honly] at hack
      exact absurd hack hnew

/-! ## Runs -/

variable {bootstrap : SupervisorConfig} {configs : Set SupervisorConfig}
  {answers : Set (Int × Bool)} {calls : List Call}

variable (messageLen bootstrap calls) in
def events : List (Event World Call Reply) :=
  Run.trace (step messageLen) (World.start bootstrap) calls

variable (messageLen bootstrap calls) in
/-- One update is in flight, and what is suppressed is what the supervisor acknowledged last. -/
structure SuppressesSafely : Prop where
  inFlight : ∀ e ∈ events messageLen bootstrap calls, e.after.unanswered.length ≤ 1
  suppresses : ∀ e ∈ events messageLen bootstrap calls,
    ∀ config, Reply.Suppresses e.call e.outcome config → e.before.Has (.of config.sandboxConfig)

/-- Sessions that deliver the bootstrap and some configurations, and get some answers. -/
structure OfKind (bootstrap : SupervisorConfig) (configs : Set SupervisorConfig)
    (answers : Set (Int × Bool)) (calls : List Call) : Prop where
  deliver : ∀ config, .deliver config ∈ calls → config = bootstrap ∨ config ∈ configs
  answer : ∀ updateId outcome acknowledge, .answer updateId outcome acknowledge ∈ calls →
    (outcome, acknowledge) ∈ answers

theorem tracked_of_mem_events {e : Event World Call Reply}
    (h : e ∈ events messageLen bootstrap calls) :
    Tracked e.before ∧ Tracked e.after := by
  have hstart : Tracked (World.start bootstrap) := ⟨fun _ => rfl, nofun⟩
  exact (Run.trace_invariant hstart fun e he hbefore =>
    hbefore.took (Run.of_mem_trace he (step_took hbefore _)).2).1 e h

/-- Every call of a run does what a call can do. -/
theorem took_of_mem_events {e : Event World Call Reply}
    (h : e ∈ events messageLen bootstrap calls) :
    e.call ∈ calls ∧ Took messageLen e.before e.call e.after e.outcome :=
  Run.of_mem_trace h (step_took (tracked_of_mem_events h).1 _)

/-- A session in which the acknowledgement is never left behind is safe. -/
theorem suppressesSafely_of_good {I : World → Prop} (hstart : I (World.start bootstrap))
    (hgood : ∀ {world}, Tracked world → I world → Good world)
    (hstep : ∀ {e : Event World Call Reply}, e.call ∈ calls → Tracked e.before →
      Took messageLen e.before e.call e.after e.outcome → I e.before → I e.after) :
    SuppressesSafely messageLen bootstrap calls where
  inFlight _ he := (tracked_of_mem_events he).2.unanswered_le
  suppresses e he _ h := by
    have hinvariant := Run.trace_invariant hstart fun e he hbefore =>
      hstep (took_of_mem_events he).1 (tracked_of_mem_events he).1 (took_of_mem_events he).2 hbefore
    have htracked := (tracked_of_mem_events he).1
    exact has_of_suppresses htracked (hgood htracked (hinvariant.1 e he).1)
      (took_of_mem_events he).2 h

section
variable (hkind : OfKind bootstrap configs answers calls)
include hkind

theorem suppressesSafely_of_replacing
    (hreplaces : ∀ a ∈ answers, ¬Keeps (completedOutcome a.1) a.2) :
    SuppressesSafely messageLen bootstrap calls := by
  refine suppressesSafely_of_good (I := Replacing) ⟨nofun, nofun⟩ (fun _ h => h.good)
    fun hcall htracked htook h => ?_
  refine h.took htracked htook fun updateId outcome acknowledge heq => ?_
  exact hreplaces _ (hkind.answer updateId outcome acknowledge (heq ▸ hcall))

theorem suppressesSafely_of_unacknowledged
    (hnone : ∀ a ∈ answers, ¬Acknowledges (completedOutcome a.1) a.2) :
    SuppressesSafely messageLen bootstrap calls := by
  refine suppressesSafely_of_good (I := Unacknowledged) ⟨nofun, rfl⟩ (fun _ h => h.good)
    fun hcall _ htook h => ?_
  refine h.took htook fun updateId outcome acknowledge heq => ?_
  exact hnone _ (hkind.answer updateId outcome acknowledge (heq ▸ hcall))

theorem suppressesSafely_of_single (honly : ∀ config ∈ configs, fits messageLen config = true →
      ConfigFingerprint.of config.sandboxConfig = .of bootstrap.sandboxConfig) :
    SuppressesSafely messageLen bootstrap calls := by
  have hstart : Single (fits messageLen) (.of bootstrap.sandboxConfig) (World.start bootstrap) := by
    refine ⟨fun update hflight => ?_, nofun, nofun⟩
    rw [← Option.some.inj hflight]
  refine suppressesSafely_of_good hstart (fun htracked h => h.good htracked)
    fun hcall htracked htook h => ?_
  refine h.took htracked htook fun config heq hfits => ?_
  rcases hkind.deliver config (heq ▸ hcall) with rfl | hconfig
  · rfl
  · exact honly config hconfig hfits

end

/-! ## A suppressed configuration the supervisor does not have -/

/-- The bootstrap is acknowledged, another configuration is answered without being acknowledged,
and the session goes back to the bootstrap. -/
def goBack (config : SupervisorConfig) (first second : Int × Bool) : List Call :=
  [.answer 0 first.1 first.2, .finalize, .deliver config, .answer 1 second.1 second.2, .finalize]

section
variable {config : SupervisorConfig} {first second : Int × Bool}
  (hfits : fits messageLen config = true)
  (hother : ConfigFingerprint.of config.sandboxConfig ≠ .of bootstrap.sandboxConfig)
  (hfirst : Acknowledges (completedOutcome first.1) first.2)
  (hsecond : Keeps (completedOutcome second.1) second.2)
include hfits hother hfirst hsecond

theorem after_goBack :
    Run.after (step messageLen) (World.start bootstrap) (goBack config first second) =
      { session := ⟨none, none, some (.of bootstrap.sandboxConfig)⟩
        nextId := 2
        unanswered := []
        completing := none
        lastAnswered :=
          some (.of config.sandboxConfig, completedOutcome second.1) } := by
  obtain ⟨hrecorded, hacks, hnot⟩ := hfirst
  obtain ⟨update, hid, hsend⟩ := send_fits ⟨none, none, some (.of bootstrap.sandboxConfig)⟩ 1 hfits
  have hkeeps : (second.2 &&
      outcomeAcknowledgesRevision (completedOutcome second.1)) = false := by
    rw [← Bool.not_eq_true, Bool.and_eq_true]
    exact hsecond
  simp [goBack, Run.after, step, World.start, ConfigSessionState.new, World.answer, World.finalize,
    World.deliver, ConfigSessionState.complete, ConfigSessionState.finalize,
    ConfigSessionState.acknowledge, ConfigSessionState.deliver, hrecorded, hacks, hnot,
    hsend, hid, hkeeps, Ne.symm hother]

/-- The bootstrap is then suppressed, although another configuration was answered last. -/
theorem not_suppressesSafely_goBack :
    ¬SuppressesSafely messageLen bootstrap
      (goBack config first second ++ [.deliver bootstrap]) := by
  intro hsafe
  have hafter := after_goBack hfits hother hfirst hsecond
  obtain ⟨e, he, hbefore, hcall, hreply⟩ :=
    @Run.exists_last _ _ _ (step messageLen) (World.start bootstrap) (goBack config first second)
      (.deliver bootstrap)
  rw [hafter] at hbefore hreply
  have hsuppressed : e.outcome = .refused .suppressedUnchanged := by
    rw [hreply]
    simp [step, World.deliver, ConfigSessionState.deliver]
  obtain ⟨outcome, hlast, -⟩ := hsafe.suppresses e he bootstrap (.inl ⟨hcall, hsuppressed⟩)
  rw [hbefore] at hlast
  exact hother (Prod.mk.inj (Option.some.inj hlast)).1

end

/-- Which sessions suppress safely: those that have one configuration to deliver, those in which no
answer acknowledges one, and those in which every answer replaces the acknowledgement. -/
theorem suppressesSafely_iff
    (messageLen : SandboxConfigSnapshot → ProviderEnvironmentSnapshot → Nat)
    (bootstrap : SupervisorConfig) (configs : Set SupervisorConfig) (answers : Set (Int × Bool)) :
    (∀ calls, OfKind bootstrap configs answers calls →
      SuppressesSafely messageLen bootstrap calls) ↔
      (∀ config ∈ configs, fits messageLen config = true →
        ConfigFingerprint.of config.sandboxConfig = .of bootstrap.sandboxConfig) ∨
      (∀ a ∈ answers, ¬Acknowledges (completedOutcome a.1) a.2) ∨
      (∀ a ∈ answers, ¬Keeps (completedOutcome a.1) a.2) := by
  constructor
  · intro hsafe
    refine Classical.byContradiction fun hnot => ?_
    simp only [not_or, Classical.not_forall, Classical.not_not] at hnot
    obtain ⟨⟨config, hconfig, hfits, hother⟩, ⟨first, hfirst, hacks⟩, ⟨second, hsecond, hkeeps⟩⟩ :=
      hnot
    refine not_suppressesSafely_goBack hfits hother hacks hkeeps
      (hsafe _ ⟨fun config' h => ?_, fun id outcome ack h => ?_⟩)
    · simp [goBack] at h
      rcases h with rfl | rfl
      · exact .inr hconfig
      · exact .inl rfl
    · simp [goBack] at h
      rcases h with ⟨-, rfl, rfl⟩ | ⟨-, rfl, rfl⟩
      · exact hfirst
      · exact hsecond
  · rintro (honly | hnone | hreplaces) calls hkind
    · exact suppressesSafely_of_single hkind honly
    · exact suppressesSafely_of_unacknowledged hkind hnone
    · exact suppressesSafely_of_replacing hkind hreplaces

end OpenShell.Server.ConfigDelivery
