import OpenShell.Server.MutationReplay

/-!
# At most one execution per claim

A claim row is created under a fresh id and written once more, by the task that
created it, when the success is recorded. So the id and version of a row say which
of its two states it is in, and a task that read an expired row can only delete
that very row. From this follow the rules of admission over any interleaving.
-/

namespace OpenShell.Server.MutationReplay

open Persistence (Objects ObjectRecord)

variable {S : Type}

/-! ## Invariants -/

/-- The claim a task owns. -/
def Phase.claim : Phase S → Option String
  | .executing claimId | .completing claimId | .streaming claimId => some claimId
  | _ => none

/-- The row as its owner created it. -/
def Task.row (task : Task S) (claimId : String) (createdAtMs : Int) : ObjectRecord (Admission S) :=
  ⟨claimId, task.key, task.bucket, task.admission, createdAtMs, createdAtMs, 1⟩

/-- The rows a task has read are rows the store had. -/
structure TaskInv (store : Objects (Admission S)) (claims : List String)
    (task : Task S) : Prop where
  removing : ∀ attempts row clockMs, task.phase = .removing attempts row clockMs →
    store.Follows row ∧ row.id ∈ claims ∧ row.payload.isExpired clockMs = true
  pruning : ∀ attempts rows removed, task.phase = .pruning attempts rows removed →
    ∀ row ∈ rows, store.Follows row ∧ row.id ∈ claims
  owner : ∀ claimId, task.phase.claim = some claimId →
    claimId ∈ claims ∧ ∃ createdAtMs, store.Follows (task.row claimId createdAtMs)

/-- A row is a claim, or the record of a success. -/
structure RowInv (claims : List String) (row : ObjectRecord (Admission S)) : Prop where
  claimed : row.id ∈ claims
  versions : (row.resourceVersion = 1 ∧ row.payload.success = none) ∨
    (row.resourceVersion = 2 ∧ row.payload.success.isSome = true)

structure StoreInv (store : Objects (Admission S)) (claims : List String) : Prop where
  rows : ∀ row ∈ store.rows, RowInv claims row
  quota : ∀ bucket, store.count bucket ≤ maxAdmissionsPerCaller

/-- What a step of a task does to the store, and what its reply says. -/
structure StoreSpec (store : Objects (Admission S)) (claims : List String) (task : Task S)
    (store' : Objects (Admission S)) (claims' : List String) (reply : Reply S) : Prop where
  storeInv : StoreInv store' claims'
  follows : ∀ row : ObjectRecord (Admission S), row.id ∈ claims → store.Follows row →
    store'.Follows row
  kept : ∀ row ∈ store.rows,
    (∃ row' ∈ store'.rows, row'.id = row.id ∧ row'.name = row.name ∧
      row'.workspace = row.workspace) ∨
      ∃ clockMs, reply = .removed row.id clockMs ∧ row.payload.isExpired clockMs = true
  executes : ∀ claimId, reply = .executes claimId →
    (∀ row ∈ store.rows, ¬ (row.workspace = task.bucket ∧ row.name = task.key)) ∧
      ∃ row ∈ store'.rows, row.id = claimId ∧ row.name = task.key ∧ row.workspace = task.bucket
  recorded : ∀ row ∈ store'.rows, row.payload.success.isSome = true → row ∈ store.rows ∨
    (reply = .recorded row.id ∧ row.workspace = task.bucket ∧ row.name = task.key ∧
      row.payload.fingerprint = task.fingerprint)
  replayed : ∀ success, reply = .replayed success → ∃ row ∈ store.rows,
    row.workspace = task.bucket ∧ row.name = task.key ∧ row.payload.success = some success ∧
      row.payload.fingerprint = task.fingerprint
  completes : ∀ claimId, reply = .recorded claimId → task.phase.claim = some claimId

/-- What a step leaves of its task. -/
structure StepSpec (store : Objects (Admission S)) (claims : List String) (task : Task S)
    (store' : Objects (Admission S)) (claims' : List String) (phase : Phase S)
    (reply : Reply S) : Prop
    extends StoreSpec store claims task store' claims' reply where
  taskInv : TaskInv store' claims' { task with phase }
  owns : ∀ claimId, phase.claim = some claimId → task.phase.claim = some claimId ∨
    reply = .executes claimId

section Spec
variable {store store' : Objects (Admission S)} {claims claims' : List String} {task : Task S}
  {phase : Phase S} {reply : Reply S}

theorem StoreInv.mono (h : StoreInv store claims) (hclaims : claims ⊆ claims') :
    StoreInv store claims' :=
  ⟨fun row hrow => ⟨hclaims (h.rows row hrow).claimed, (h.rows row hrow).versions⟩, h.quota⟩

theorem TaskInv.mono (h : TaskInv store claims task) (hclaims : claims ⊆ claims')
    (hfollows : ∀ row : ObjectRecord (Admission S), row.id ∈ claims → store.Follows row →
      store'.Follows row) :
    TaskInv store' claims' task where
  removing attempts row clockMs hphase := by
    obtain ⟨hrow, hid, hexpired⟩ := h.removing attempts row clockMs hphase
    exact ⟨hfollows row hid hrow, hclaims hid, hexpired⟩
  pruning attempts rows removed hphase row hmem := by
    obtain ⟨hrow, hid⟩ := h.pruning attempts rows removed hphase row hmem
    exact ⟨hfollows row hid hrow, hclaims hid⟩
  owner claimId hphase := by
    obtain ⟨hid, createdAtMs, hrow⟩ := h.owner claimId hphase
    exact ⟨hclaims hid, createdAtMs, hfollows _ hid hrow⟩

/-- A phase that has read no row and owns no claim. -/
def Phase.isIdle : Phase S → Bool
  | .looking _ | .creating _ | .listing _ | .returned => true
  | _ => false

theorem taskInv_of_isIdle (h : task.phase.isIdle = true) : TaskInv store claims task where
  removing attempts row clockMs hphase := by
    rw [hphase] at h
    cases h
  pruning attempts rows removed hphase := by
    rw [hphase] at h
    cases h
  owner claimId hphase := by
    cases hcase : task.phase <;> rw [hcase] at h hphase <;> first | cases h; done | cases hphase

variable {row : ObjectRecord (Admission S)} {attempts : Nat}

theorem taskInv_removing {clockMs : Int} (hrow : store.Follows row)
    (hid : row.id ∈ claims) (hexpired : row.payload.isExpired clockMs = true) :
    TaskInv store claims { task with phase := .removing attempts row clockMs } where
  removing := by
    rintro _ _ _ ⟨⟩
    exact ⟨hrow, hid, hexpired⟩
  pruning _ _ _ hphase := by cases hphase
  owner _ hphase := by cases hphase

theorem taskInv_pruning {rows : List (ObjectRecord (Admission S))} {removed : Bool}
    (hrows : ∀ row ∈ rows, store.Follows row ∧ row.id ∈ claims) :
    TaskInv store claims { task with phase := .pruning attempts rows removed } where
  removing _ _ _ hphase := by cases hphase
  pruning := by
    rintro _ _ _ ⟨⟩
    exact hrows
  owner _ hphase := by cases hphase

theorem taskInv_owner {claimId : String} (hphase : phase.claim = some claimId)
    (hid : claimId ∈ claims) (hrow : ∃ createdAtMs, store.Follows (task.row claimId createdAtMs)) :
    TaskInv store claims { task with phase } where
  removing _ _ _ hremoving := by
    rw [show phase = _ from hremoving] at hphase
    cases hphase
  pruning _ _ _ hpruning := by
    rw [show phase = _ from hpruning] at hphase
    cases hphase
  owner id howner := by
    obtain rfl := Option.mem_unique hphase howner
    exact ⟨hid, hrow⟩

theorem isIdle_retry (attempts : Nat) : (retry attempts : Phase S).isIdle = true := by
  cases attempts <;> rfl

variable (h : StoreInv store claims)
include h

/-- The store is left alone and nothing is said. -/
theorem StoreSpec.of_same (hclaims : claims ⊆ claims') :
    StoreSpec store claims task store claims' .quiet where
  storeInv := h.mono hclaims
  follows _ _ hrow := hrow
  kept row hrow := .inl ⟨row, hrow, rfl, rfl, rfl⟩
  executes := fun _ hreply => by cases hreply
  recorded _ hrow _ := .inl hrow
  replayed := fun _ hreply => by cases hreply
  completes := fun _ hreply => by cases hreply

omit h in
theorem StoreSpec.idle (h : StoreSpec store claims task store' claims' reply)
    (hidle : phase.isIdle = true) :
    StepSpec store claims task store' claims' phase reply where
  toStoreSpec := h
  taskInv := taskInv_of_isIdle hidle
  owns claimId hphase := by
    cases phase <;> first | cases hidle; done | cases hphase

omit h in
/-- The task stays where it is. -/
theorem StoreSpec.stay (h : StoreSpec store claims task store' claims' reply)
    (hclaims : claims ⊆ claims') (htask : TaskInv store claims task) :
    StepSpec store claims task store' claims' task.phase reply where
  toStoreSpec := h
  taskInv := htask.mono hclaims h.follows
  owns _ hphase := .inl hphase

/-- A row read before is removed as it was read. -/
theorem removeRow_spec {clockMs : Int} (hrow : store.Follows row)
    (hexpired : row.payload.isExpired clockMs = true) (fault : Fault) :
    StoreSpec store claims task (removeRow store row clockMs fault).1 claims
      (removeRow store row clockMs fault).2.2 := by
  unfold removeRow
  by_cases hlost : fault = .lost
  · rw [if_pos hlost]
    exact .of_same h (List.Subset.refl _)
  rw [if_neg hlost]
  cases hdelete : store.deleteIf row.id row.resourceVersion with
  | mk store' deleted =>
    have hstore : (store.deleteIf row.id row.resourceVersion).1 = store' :=
      congrArg Prod.fst hdelete
    have hdeleted : (store.deleteIf row.id row.resourceVersion).2 = deleted :=
      congrArg Prod.snd hdelete
    cases deleted with
    | false =>
      rw [Objects.deleteIf_eq_self hdeleted] at hstore
      subst hstore
      exact .of_same h (List.Subset.refl _)
    | true =>
      subst hstore
      exact {
        storeInv := ⟨fun row' hrow' => h.rows row' (Objects.mem_deleteIf.mp hrow').1, fun bucket =>
          Nat.le_trans (List.filter_sublist.filter _).length_le (h.quota bucket)⟩
        follows := fun _ _ hfollows => hfollows.deleteIf
        kept := fun row' hrow' => by
          by_cases hmatch : row'.id = row.id ∧ row'.resourceVersion = row.resourceVersion
          · obtain rfl := (hrow row' hrow' hmatch.1).2 hmatch.2
            exact .inr ⟨clockMs, rfl, hexpired⟩
          · exact .inl ⟨row', Objects.mem_deleteIf.mpr ⟨hrow', hmatch⟩, rfl, rfl, rfl⟩
        executes := fun _ hreply => by cases hreply
        recorded := fun row' hrow' _ => .inl (Objects.mem_deleteIf.mp hrow').1
        replayed := fun _ hreply => by cases hreply
        completes := fun _ hreply => by cases hreply }

/-- A claim is created under a fresh id, where there was none. -/
theorem createClaim_spec {claimId : String} (hfresh : claimId ∉ claims)
    (nowMs : Int) (fault : Fault) :
    StepSpec store claims task (createClaim store task attempts claimId nowMs fault).1
      (claimId :: claims) (createClaim store task attempts claimId nowMs fault).2.1
      (createClaim store task attempts claimId nowMs fault).2.2 := by
  have hsub : claims ⊆ claimId :: claims := List.subset_cons_self ..
  unfold createClaim
  by_cases hlost : fault = .lost
  · rw [if_pos hlost]
    exact (StoreSpec.of_same h hsub).idle rfl
  rw [if_neg hlost]
  cases hcreate : store.createIfWorkspaceCountBelow claimId task.key task.bucket
    task.admission nowMs
    maxAdmissionsPerCaller with
  | none =>
    refine (StoreSpec.of_same h hsub).idle ?_
    dsimp only
    split
    next => exact isIdle_retry attempts
    next => rfl
  | some created =>
    cases created with
    | none =>
      refine (StoreSpec.of_same h hsub).idle ?_
      dsimp only
      split <;> rfl
    | some store' =>
      unfold Objects.createIfWorkspaceCountBelow at hcreate
      split at hcreate
      next => cases hcreate
      next hcount =>
        obtain ⟨_, hinsert, heq⟩ := Option.map_eq_some_iff.mp hcreate
        rw [Option.some.inj heq] at hinsert
        obtain ⟨habsent, hrows⟩ := Objects.insertNew_eq_some hinsert
        have hmem : task.row claimId nowMs ∈ store'.rows := by
          rw [hrows]
          exact List.mem_concat_self ..
        have hold : ∀ row ∈ store'.rows, row ∈ store.rows ∨ row = task.row claimId nowMs := by
          intro row hrow
          rw [hrows] at hrow
          exact (List.mem_append.mp hrow).imp_right List.mem_singleton.mp
        have hspec : ∀ reply : Reply S, (reply = .quiet ∨ reply = .executes claimId) →
            StoreSpec store claims task store' (claimId :: claims) reply := by
          intro reply hreply
          exact {
            storeInv := ⟨fun row hrow => by
              rcases hold row hrow with hrow | rfl
              · exact (h.mono hsub).rows row hrow
              · exact ⟨List.mem_cons_self, .inl ⟨rfl, rfl⟩⟩, fun bucket => by
              have hle := h.quota bucket
              rw [Objects.count_insertNew hinsert]
              split
              next hsame =>
                subst hsame
                omega
              next => exact hle⟩
            follows := fun row hid hfollows =>
            hfollows.insertNew (fun heq : row.id = claimId => hfresh (heq ▸ hid)) hinsert
            kept := fun row hrow => .inl ⟨row, hrows ▸ List.mem_append_left _ hrow, rfl, rfl, rfl⟩
            executes := fun id hid => by
              rcases hreply with rfl | rfl
              · cases hid
              · obtain rfl : claimId = id := by injection hid
                exact ⟨fun row hrow => (habsent row hrow).2, _, hmem, rfl, rfl, rfl⟩
            recorded := fun row hrow hsuccess => by
              rcases hold row hrow with hrow | rfl
              · exact .inl hrow
              · cases hsuccess
            replayed := fun _ hsuccess => by rcases hreply with rfl | rfl <;> cases hsuccess
            completes := fun _ hcompletes => by rcases hreply with rfl | rfl <;> cases hcompletes }
        by_cases hnone : fault = .none
        · dsimp only
          rw [if_pos hnone]
          refine ⟨hspec _ (.inr rfl),
            taskInv_owner rfl List.mem_cons_self ⟨nowMs, Objects.follows_of_mem hmem⟩, ?_⟩
          intro id hid
          obtain rfl : claimId = id := Option.some.inj hid
          exact .inr rfl
        · dsimp only
          rw [if_neg hnone]
          exact (hspec _ (.inl rfl)).idle rfl

/-- A success is recorded by the owner of the claim, once. -/
theorem recordSuccess_spec {claimId : String} (htask : TaskInv store claims task)
    (howner : task.phase.claim = some claimId) (success : S) (completedAtMs nowMs : Int)
    (tooLarge : Bool) (fault : Fault) :
    StoreSpec store claims task
      (recordSuccess store task claimId success completedAtMs nowMs tooLarge fault).1 claims
      (recordSuccess store task claimId success completedAtMs nowMs tooLarge fault).2 := by
  unfold recordSuccess
  by_cases hskip : tooLarge = true ∨ fault = .lost
  · rw [if_pos hskip]
    exact .of_same h (List.Subset.refl _)
  rw [if_neg hskip]
  cases hput : store.putIf claimId 1
      { task.admission with
          success := some success, completedAtMs := some completedAtMs } nowMs with
  | none => exact .of_same h (List.Subset.refl _)
  | some store' =>
    obtain ⟨old, hold, hid, hversion, hrows⟩ := Objects.mem_putIf hput
    obtain ⟨hclaimed, createdAtMs, hfollows⟩ := htask.owner claimId howner
    obtain rfl := (hfollows old hold hid).2 hversion
    exact {
      storeInv := ⟨fun row hrow => by
        rcases (hrows row).mp hrow with ⟨hrow, -⟩ | rfl
        · exact h.rows row hrow
        · exact ⟨hclaimed, .inr ⟨rfl, rfl⟩⟩, fun bucket => by
        rw [Objects.count_putIf hput]
        exact h.quota bucket⟩
      follows := fun _ _ hrow => hrow.putIf hput
      kept := fun row hrow => by
        by_cases hsame : row.id = claimId
        · obtain rfl := Objects.eq_of_id hrow hold (hsame.trans hid.symm)
          exact .inl ⟨_, (hrows _).mpr (.inr rfl), rfl, rfl, rfl⟩
        · exact .inl ⟨row, (hrows row).mpr (.inl ⟨hrow, hsame⟩), rfl, rfl, rfl⟩
      executes := fun _ hreply => by cases hreply
      recorded := fun row hrow hsuccess => by
        rcases (hrows row).mp hrow with ⟨hrow, -⟩ | rfl
        · exact .inl hrow
        · exact .inr ⟨rfl, rfl, rfl, rfl⟩
      replayed := fun _ hreply => by cases hreply
      completes := fun id hcompletes => by
        obtain rfl : claimId = id := by injection hcompletes
        exact howner }

/-- What a task makes of the row of its key. -/
theorem judgeRow_spec (hrow : row ∈ store.rows)
    (hkey : row.workspace = task.bucket ∧ row.name = task.key) (nowMs : Int) (restored : Bool) :
    StepSpec store claims task store claims (judgeRow task attempts row nowMs restored).1
      (judgeRow task attempts row nowMs restored).2 := by
  have hquiet : StoreSpec store claims task store claims .quiet := .of_same h (List.Subset.refl _)
  unfold judgeRow
  dsimp only
  split
  next => exact hquiet.idle rfl
  split
  next hexpired =>
    exact ⟨hquiet,
      taskInv_removing (Objects.follows_of_mem hrow) (h.rows row hrow).claimed hexpired,
      fun _ hphase => by cases hphase⟩
  split
  next => exact hquiet.idle rfl
  split
  next => exact hquiet.idle rfl
  next hpayload =>
    split
    next => exact hquiet.idle rfl
    next hbound =>
      cases hsuccess : row.payload.success with
      | none => exact hquiet.idle rfl
      | some success =>
        cases restored with
        | false => exact hquiet.idle rfl
        | true =>
          have hfingerprint : row.payload.fingerprint = task.fingerprint := by
            obtain ⟨hworkspace, hrest⟩ := not_or.mp hbound
            obtain ⟨htarget, hprotection⟩ := not_or.mp hrest
            exact Fingerprint.ext (Decidable.not_not.mp hpayload) (Decidable.not_not.mp hprotection)
              (Decidable.not_not.mp hworkspace) (Decidable.not_not.mp htarget)
          refine StoreSpec.idle ?_ rfl
          exact { hquiet with
            kept := fun row hrow => .inl ⟨row, hrow, rfl, rfl, rfl⟩
            executes := fun _ hreply => by cases hreply
            recorded := fun _ hrow _ => .inl hrow
            replayed := fun success' hreply => by
              injection hreply with hsame
              subst hsame
              exact ⟨row, hrow, hkey.1, hkey.2, hsuccess, hfingerprint⟩
            completes := fun _ hreply => by cases hreply }

theorem stepTask_spec (htask : TaskInv store claims task) (call : Call S)
    (hfresh : ∀ id ∈ call.claimIds, id ∉ claims) :
    StepSpec store claims task (stepTask store task call).1 (call.claimIds ++ claims)
      (stepTask store task call).2.1
      (stepTask store task call).2.2 := by
  have hsub : claims ⊆ call.claimIds ++ claims := List.subset_append_right ..
  -- in a phase the call is not for, the task stays
  have hstay : StepSpec store claims task store (call.claimIds ++ claims) task.phase .quiet :=
    (StoreSpec.of_same h hsub).stay hsub htask
  have hquiet : StoreSpec store claims task store claims .quiet := .of_same h (List.Subset.refl _)
  cases call with
  | start bucket key fingerprint deferred => exact hstay
  | stop index => exact hquiet.idle rfl
  | look index nowMs restored =>
    dsimp only [stepTask]
    split
    next attempts hphase =>
      cases hrow : store.getByName task.bucket task.key with
      | none => exact hquiet.idle rfl
      | some row =>
        obtain ⟨hmem, hkey⟩ := Objects.getByName_eq_some_iff.mp hrow
        exact judgeRow_spec h hmem hkey nowMs restored
    next => exact hstay
  | remove index fault =>
    dsimp only [stepTask]
    split
    next attempts row clockMs hphase =>
      obtain ⟨hrow, -, hexpired⟩ := htask.removing attempts row clockMs hphase
      refine (removeRow_spec h hrow hexpired fault).idle ?_
      split
      next => exact isIdle_retry attempts
      next => rfl
    next => exact hstay
  | create index claimId nowMs fault =>
    dsimp only [stepTask]
    split
    next attempts hphase =>
      exact createClaim_spec h (hfresh claimId (List.mem_singleton_self _)) nowMs fault
    next => exact hstay
  | list index =>
    dsimp only [stepTask]
    split
    next attempts hphase =>
      refine ⟨hquiet, taskInv_pruning fun row hrow => ?_, fun _ hphase => by cases hphase⟩
      have hmem := (List.mem_filter.mp (List.mem_of_mem_take hrow)).1
      exact ⟨Objects.follows_of_mem hmem, (h.rows row hmem).claimed⟩
    next => exact hstay
  | prune index nowMs fault =>
    dsimp only [stepTask]
    split
    next attempts removed hphase =>
      refine hquiet.idle ?_
      dsimp only
      split
      next => exact isIdle_retry attempts
      next => rfl
    next attempts row rows removed hphase =>
      have hrows := htask.pruning attempts (row :: rows) removed hphase
      have hrest : ∀ {store' : Objects (Admission S)} {reply : Reply S} (removed : Bool),
          StoreSpec store claims task store' claims reply →
            StepSpec store claims task store' claims (.pruning attempts rows removed) reply := by
        intro store' reply removed hspec
        refine ⟨hspec, taskInv_pruning fun row' hrow' => ?_, fun _ hphase => by cases hphase⟩
        obtain ⟨hfollows, hid⟩ := hrows row' (List.mem_cons_of_mem _ hrow')
        exact ⟨hspec.follows row' hid hfollows, hid⟩
      split
      next hexpired =>
        have hspec : StoreSpec store claims task _ claims _ :=
          removeRow_spec h (hrows row List.mem_cons_self).1 hexpired.2 fault
        dsimp only
        split
        next => exact hrest _ hspec
        next => exact hspec.idle rfl
      next => exact hrest removed hquiet
    next => exact hstay
  | executed index ok =>
    dsimp only [stepTask]
    split
    next claimId hphase =>
      have hclaim : task.phase.claim = some claimId := by rw [hphase]; rfl
      obtain ⟨hid, hrow⟩ := htask.owner claimId hclaim
      -- the claim passes on to the next phase
      have hkeep : ∀ phase : Phase S, phase.claim = some claimId →
          StepSpec store claims task store claims phase .quiet :=
        fun phase hsame => ⟨hquiet, taskInv_owner hsame hid hrow,
          fun _ hnext => .inl (hclaim.trans (hsame.symm.trans hnext))⟩
      dsimp only
      cases ok with
      | false => exact hquiet.idle rfl
      | true => cases task.deferred <;> exact hkeep _ rfl
    next => exact hstay
  | complete index success completedAtMs nowMs tooLarge fault =>
    have hspec : ∀ {claimId}, task.phase.claim = some claimId →
        StoreSpec store claims task _ claims _ := fun hclaim =>
      recordSuccess_spec h htask hclaim success completedAtMs nowMs tooLarge fault
    dsimp only [stepTask]
    split
    next claimId hphase => exact (hspec (by rw [hphase]; rfl)).idle rfl
    next claimId hphase =>
      exact hphase ▸ (hspec (by rw [hphase]; rfl)).stay (List.Subset.refl _) htask
    next claimId hphase =>
      split
      next => exact hphase ▸ (hspec (by rw [hphase]; rfl)).stay (List.Subset.refl _) htask
      next => exact hphase ▸ hstay
    next => exact hstay

end Spec

/-! ## Steps of the world -/

structure WorldInv (world : World S) : Prop where
  store : StoreInv world.store world.claims
  tasks : ∀ task ∈ world.tasks, TaskInv world.store world.claims task

/-- What a call can do. -/
inductive Took (world : World S) (call : Call S) : World S → Reply S → Prop
  | idle : Took world call world .quiet
  | started {task : Task S} (hidle : task.phase.isIdle = true) :
      Took world call { world with tasks := world.tasks ++ [task] } .quiet
  | stepped {index : Nat} {task : Task S} {store : Objects (Admission S)} {claims : List String}
      {phase : Phase S}
      {reply : Reply S} (hcall : call.task = some index) (htask : world.tasks[index]? = some task)
      (hspec : StepSpec world.store world.claims task store claims phase reply)
        (hclaims : world.claims ⊆ claims) :
      Took world call { store, tasks := world.tasks.set index { task with phase }, claims } reply

section World
variable {world world' : World S} {call : Call S} {reply : Reply S}

theorem step_took (h : WorldInv world) (call : Call S) :
    Took world call (step world call).1 (step world call).2 := by
  cases hcall : call.task with
  | none =>
    cases call with
    | start => exact .started rfl
    | _ => cases hcall
  | some index =>
    have hstep : step world call = match world.tasks[index]? with
        | none => (world, .quiet)
        | some task =>
          if call.claimIds.any (· ∈ world.claims) then (world, .quiet)
          else
            ({ store := (stepTask world.store task call).1
               tasks := world.tasks.set index
                 { task with phase := (stepTask world.store task call).2.1 }
               claims := call.claimIds ++ world.claims },
             (stepTask world.store task call).2.2) := by
      cases call with
      | start => cases hcall
      | _ =>
        dsimp only [step]
        rw [hcall, Option.bind_some]
        cases world.tasks[index]? <;> rfl
    rw [hstep]
    cases htask : world.tasks[index]? with
    | none => exact .idle
    | some task =>
      dsimp only
      split
      next => exact .idle
      next hfresh =>
        have hids : ∀ id ∈ call.claimIds, id ∉ world.claims := fun id hid hmem =>
          hfresh (List.any_eq_true.mpr ⟨id, hid, decide_eq_true hmem⟩)
        have hspec := stepTask_spec h.store (h.tasks task (List.mem_of_getElem? htask)) call hids
        exact .stepped hcall htask hspec (List.subset_append_right ..)

theorem WorldInv.took (h : WorldInv world) (htook : Took world call world' reply) :
    WorldInv world' := by
  cases htook with
  | idle => exact h
  | started hidle =>
    exact ⟨h.store,
      List.forall_mem_append.mpr ⟨h.tasks, List.forall_mem_singleton.mpr (taskInv_of_isIdle hidle)⟩⟩
  | stepped hcall htask hspec hclaims =>
    refine ⟨hspec.storeInv, fun other hother => ?_⟩
    rcases List.mem_or_eq_of_mem_set hother with hother | rfl
    · exact (h.tasks other hother).mono hclaims hspec.follows
    · exact hspec.taskInv

theorem worldInv_initial : WorldInv (World.initial : World S) where
  store := ⟨List.forall_mem_nil _, fun _ => by exact Nat.zero_le 1000⟩
  tasks := List.forall_mem_nil _

/-- A row stays, under its name, until it is removed with its success expired. -/
theorem Took.kept (htook : Took world call world' reply) {row : ObjectRecord (Admission S)}
    (hrow : row ∈ world.store.rows) :
    (∃ row' ∈ world'.store.rows, row'.id = row.id ∧ row'.name = row.name ∧
      row'.workspace = row.workspace) ∨
      ∃ clockMs, reply = .removed row.id clockMs ∧ row.payload.isExpired clockMs = true := by
  cases htook with
  | idle | started => exact .inl ⟨row, hrow, rfl, rfl, rfl⟩
  | stepped hcall htask hspec => exact hspec.kept row hrow

end World

end OpenShell.Server.MutationReplay
