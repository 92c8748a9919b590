import OpenShell.Policy.Types
import OpenShell.Util.Reads

/-!
# The revision of the provider environment

`compute_provider_env_revision_from_records_and_policy_bindings` of `grpc/policy.rs`
hashes the provider records and the credential bindings of a sandbox; its
supervisor fetches credentials again only when the hash changes. Here are the
bytes that are hashed. The hash itself, the bytes of a provider profile and the
hash of a policy are parameters.
-/

namespace OpenShell.Server.ProviderEnvRevision

open Policy (Map)

/-! ## Inputs -/

structure StaticCredentialEndpointBinding where
  host : String
  port : UInt32
  path : String
  deriving DecidableEq

structure RefreshMetadata where
  id : String
  resourceVersion : UInt64

structure StoredProviderCredentialRefreshState where
  credentialKey : String
  strategy : Int32
  authorizationEpoch : String
  metadata : Option RefreshMetadata
  additionalOutputKeys : Map String

structure Timestamp where
  seconds : Int64
  nanos : Int32
  deriving DecidableEq

structure Provider where
  type : String
  profileWorkspace : String
  credentials : Map String
  credentialExpirationTimes : Map Timestamp

structure ProviderEnvironmentRecord where
  name : String
  objectId : String
  resourceVersion : UInt64
  provider : Provider
  refreshStates : List StoredProviderCredentialRefreshState

structure Input (P : Type) where
  records : List ProviderEnvironmentRecord
  bindings : Map (List StaticCredentialEndpointBinding)
  globalPolicy : Option P

/-! ## Bindings of a policy -/

/-- `(&left.host, left.port, &left.path).cmp(..)` is not greater. -/
def bindingLe (left right : StaticCredentialEndpointBinding) : Bool :=
  ((compare left.host right.host).then
    ((compare left.port right.port).then (compare left.path right.path))) != .gt

/-- The loop body of `policy_static_credential_endpoint_bindings`. -/
def addEndpointBindings (bindings : Map (List StaticCredentialEndpointBinding))
    (endpoint : Policy.NetworkEndpoint) :
    Except String (Map (List StaticCredentialEndpointBinding)) :=
  match endpoint.credentialBinding with
  | none => .ok bindings
  | some binding => do
    let provider := trim binding.provider
    rejectIf (provider.isEmpty = true)
      s!"credential_binding.provider is required for endpoint '{endpoint.host}'"
    rejectIf (provider ≠ binding.provider)
      (s!"credential_binding.provider '{binding.provider}' " ++
        "must not contain leading or trailing whitespace")
    rejectIf ((trim endpoint.host).isEmpty = true)
      s!"credential-bound endpoint for provider '{provider}' must define a host"
    let ports := if endpoint.ports.isEmpty then [endpoint.port] else endpoint.ports
    rejectIf (ports.any (fun port => port == 0 || 65535 < port) = true)
      (s!"credential-bound endpoint '{endpoint.host}' for provider '{provider}' " ++
        "must define ports in range 1..=65535")
    let added := ports.foldl (fun (added : List StaticCredentialEndpointBinding) port =>
      let candidate := ⟨endpoint.host, UInt32.ofNat port, endpoint.path⟩
      if candidate ∈ added then added else added ++ [candidate]) (bindings.getD provider [])
    return bindings.insert provider added

def policyStaticCredentialEndpointBindings (policy : Option Policy.SandboxPolicy) :
    Except String (Map (List StaticCredentialEndpointBinding)) :=
  match policy with
  | none => .ok ∅
  | some policy => do
    let endpoints := policy.networkPolicies.toList.flatMap fun rule => rule.2.endpoints
    let bindings ← endpoints.foldlM addEndpointBindings ∅
    return bindings.map fun _ endpoints => endpoints.mergeSort bindingLe

/-! ## The hashed bytes -/

/-- The order of `hash_provider_refresh_states`. -/
def refreshStateLe (left right : StoredProviderCredentialRefreshState) : Bool :=
  ((compare left.credentialKey right.credentialKey).then
    (compare (left.metadata.map (·.id)) (right.metadata.map (·.id)))) != .gt

def effectiveAuthorizationEpoch (state : StoredProviderCredentialRefreshState) :
    Except String String :=
  if !state.authorizationEpoch.isEmpty then .ok state.authorizationEpoch
  else match (state.metadata.map (·.id)).filter (fun id => !id.isEmpty) with
    | some id => .ok id
    | none => .error "provider refresh state has no authorization epoch"

def hashProviderRefreshState (state : StoredProviderCredentialRefreshState) :
    Except String Bytes := do
  let epoch ← effectiveAuthorizationEpoch state
  let metadata := match state.metadata with
    | some metadata => utf8Bytes metadata.id ++ leBytes 8 metadata.resourceVersion.toNat
    | none => []
  return utf8Bytes "provider-refresh-state" ++ utf8Bytes state.credentialKey ++
    leBytes 4 state.strategy.toUInt32.toNat ++ utf8Bytes epoch ++ metadata ++
    state.additionalOutputKeys.toList.flatMap fun output => utf8Bytes output.1 ++ utf8Bytes output.2

def hashProviderRefreshStates (states : List StoredProviderCredentialRefreshState) :
    Except String Bytes := do
  let parts ← (states.mergeSort refreshStateLe).mapM hashProviderRefreshState
  return parts.flatten

def hashExpiration (expiration : String × Timestamp) : Bytes :=
  utf8Bytes expiration.1 ++ (leBytes 8 expiration.2.seconds.toUInt64.toNat ++
    leBytes 4 expiration.2.nanos.toUInt32.toNat)

def hashEndpointBinding (endpoint : StaticCredentialEndpointBinding) : Bytes :=
  utf8Bytes endpoint.host ++ (leBytes 4 endpoint.port.toNat ++ utf8Bytes endpoint.path)

/-- The bound endpoints of each provider, as they are hashed. -/
def sortedBindings (bindings : Map (List StaticCredentialEndpointBinding)) :
    List (String × List StaticCredentialEndpointBinding) :=
  bindings.toList.map fun entry => (entry.1, entry.2.mergeSort bindingLe)

def hashProviderBindings (entry : String × List StaticCredentialEndpointBinding) : Bytes :=
  utf8Bytes entry.1 ++ entry.2.flatMap hashEndpointBinding

def hashPolicyCredentialBindings (bindings : Map (List StaticCredentialEndpointBinding)) : Bytes :=
  (sortedBindings bindings).flatMap hashProviderBindings

section Preimage
variable {P : Type} (profileRevision : String → String → Bytes) (policyHash : P → String)

/-- The bytes of one record; `profileRevision` gives the bytes of the profile of its type. -/
def hashRecord (record : ProviderEnvironmentRecord) : Except String Bytes := do
  let refreshStates ← hashProviderRefreshStates record.refreshStates
  let provider := record.provider
  return utf8Bytes record.name ++
    (utf8Bytes record.objectId ++ (leBytes 8 record.resourceVersion.toNat ++
    ((refreshStates ++ utf8Bytes provider.type ++
      profileRevision provider.type provider.profileWorkspace) ++
      (provider.credentials.keys.flatMap utf8Bytes ++
        provider.credentialExpirationTimes.toList.flatMap hashExpiration))))

/-- What `compute_provider_env_revision_from_records_and_policy_bindings` feeds to the hash. -/
def preimage (input : Input P) : Except String Bytes := do
  let records ← input.records.mapM (hashRecord profileRevision)
  let policy := match input.globalPolicy with
    | some policy => utf8Bytes "global-token-grant-authority" ++ utf8Bytes (policyHash policy)
    | none => []
  return utf8Bytes "openshell-provider-env-revision-v4" ++ (records.flatten ++
    (hashPolicyCredentialBindings input.bindings ++ policy))

end Preimage

/-! ## What the bytes determine -/

/-- Texts of one length in bytes. -/
def SameLength (s t : String) : Prop := (utf8Bytes s).length = (utf8Bytes t).length

structure RecordLengths (record record' : ProviderEnvironmentRecord) : Prop where
  name : SameLength record.name record'.name
  objectId : SameLength record.objectId record'.objectId
  credentials : List.Forall₂ SameLength record.provider.credentials.keys
    record'.provider.credentials.keys
  expirations : List.Forall₂ (fun e e' => SameLength e.1 e'.1)
    record.provider.credentialExpirationTimes.toList
    record'.provider.credentialExpirationTimes.toList

structure BindingLengths (entry entry' : String × List StaticCredentialEndpointBinding) : Prop where
  provider : SameLength entry.1 entry'.1
  endpoints : List.Forall₂ (fun e e' => SameLength e.host e'.host ∧ SameLength e.path e'.path)
    entry.2 entry'.2

/-- The records, keys and bindings of two inputs are laid out alike. -/
structure SameLengths {P : Type} (x y : Input P) : Prop where
  records : List.Forall₂ RecordLengths x.records y.records
  bindings : List.Forall₂ BindingLengths (sortedBindings x.bindings) (sortedBindings y.bindings)

/-- The version of a provider, and the keys and expirations of its credentials. -/
def recordInputs (record : ProviderEnvironmentRecord) :
    (String × String × UInt64) × List String × Map Timestamp :=
  ((record.name, record.objectId, record.resourceVersion), record.provider.credentials.keys,
    record.provider.credentialExpirationTimes)

/-- The inputs a supervisor relies on. -/
structure SameInputs {P : Type} (x y : Input P) : Prop where
  records : x.records.map recordInputs = y.records.map recordInputs
  bindings : sortedBindings x.bindings = sortedBindings y.bindings

section Reads
variable {P : Type} {profileRevision : String → String → Bytes} {policyHash : P → String}

/-- The refresh states, type and profile of a record, as they are hashed. -/
def recordBlock (profileRevision : String → String → Bytes)
    (record : ProviderEnvironmentRecord) : Bytes :=
  match hashProviderRefreshStates record.refreshStates with
  | .ok refreshStates =>
    refreshStates ++ utf8Bytes record.provider.type ++
      profileRevision record.provider.type record.provider.profileWorkspace
  | .error _ => []

/-- The refresh states, types and profiles of two inputs take the same space. -/
def SameBlocks (profileRevision : String → String → Bytes) (x y : Input P) : Prop :=
  x.records.map (fun record => (recordBlock profileRevision record).length) =
    y.records.map fun record => (recordBlock profileRevision record).length

def recordBytes (profileRevision : String → String → Bytes)
    (record : ProviderEnvironmentRecord) : Bytes :=
  utf8Bytes record.name ++ (utf8Bytes record.objectId ++ (leBytes 8 record.resourceVersion.toNat ++
    (recordBlock profileRevision record ++
      (record.provider.credentials.keys.flatMap utf8Bytes ++
        record.provider.credentialExpirationTimes.toList.flatMap hashExpiration))))

theorem hashRecord_eq_ok {record : ProviderEnvironmentRecord} {bytes : Bytes}
    (h : hashRecord profileRevision record = .ok bytes) :
    bytes = recordBytes profileRevision record := by
  obtain ⟨refreshStates, hstates, rfl⟩ := bind_ok_eq_ok h
  unfold recordBytes recordBlock
  rw [hstates]

theorem preimage_eq_ok {input : Input P} {bytes : Bytes}
    (h : preimage profileRevision policyHash input = .ok bytes) :
    ∃ policy, bytes = utf8Bytes "openshell-provider-env-revision-v4" ++
      (input.records.flatMap (recordBytes profileRevision) ++
        (hashPolicyCredentialBindings input.bindings ++ policy)) := by
  obtain ⟨parts, hparts, rfl⟩ := bind_ok_eq_ok h
  exact ⟨_, by rw [mapM_eq_map (fun _ _ => hashRecord_eq_ok) hparts, List.flatMap_def]⟩

theorem reads_expiration : Reads hashExpiration (fun e e' => SameLength e.1 e'.1) id := by
  have hseconds : Reads (fun e : String × Timestamp => leBytes 8 e.2.seconds.toUInt64.toNat)
      (fun _ _ => True) (·.2.seconds) :=
    reads_leBytes 8 _ _ (fun e => e.2.seconds.toUInt64.toNat_lt)
      fun ⟨_, ⟨⟨_⟩, _⟩⟩ ⟨_, ⟨⟨_⟩, _⟩⟩ h =>
      congrArg Int64.ofUInt64 (UInt64.toNat_inj.mp h)
  have hnanos : Reads (fun e : String × Timestamp => leBytes 4 e.2.nanos.toUInt32.toNat)
      (fun _ _ => True) (·.2.nanos) :=
    reads_leBytes 4 _ _ (fun e => e.2.nanos.toUInt32.toNat_lt) fun ⟨_, ⟨_, ⟨_⟩⟩⟩ ⟨_, ⟨_, ⟨_⟩⟩⟩ h =>
      congrArg Int32.ofUInt32 (UInt32.toNat_inj.mp h)
  have hfields := (reads_utf8Bytes.comap (Prod.fst : String × Timestamp → String)).append
    (hseconds.append hnanos)
  unfold hashExpiration
  refine hfields.imp (fun _ _ h => ⟨h, trivial, trivial⟩) ?_
  rintro ⟨key, seconds, nanos⟩ ⟨key', seconds', nanos'⟩ h
  obtain ⟨hkey, htime⟩ := Prod.mk.inj h
  obtain ⟨hseconds, hnanos⟩ := Prod.mk.inj htime
  exact Prod.ext hkey (by rw [Timestamp.mk.injEq]; exact ⟨hseconds, hnanos⟩)

theorem reads_endpoint : Reads hashEndpointBinding
    (fun e e' => SameLength e.host e'.host ∧ SameLength e.path e'.path) id := by
  have hport : Reads (fun e : StaticCredentialEndpointBinding => leBytes 4 e.port.toNat)
      (fun _ _ => True) (·.port) :=
    reads_leBytes 4 _ _ (fun e => e.port.toNat_lt) fun _ _ h => UInt32.toNat_inj.mp h
  have hfields := (reads_utf8Bytes.comap StaticCredentialEndpointBinding.host).append
    (hport.append (reads_utf8Bytes.comap StaticCredentialEndpointBinding.path))
  unfold hashEndpointBinding
  refine hfields.imp (fun _ _ h => ⟨h.1, trivial, h.2⟩) ?_
  rintro ⟨host, port, path⟩ ⟨host', port', path'⟩ h
  obtain ⟨hhost, h⟩ := Prod.mk.inj h
  obtain ⟨hport, hpath⟩ := Prod.mk.inj h
  exact StaticCredentialEndpointBinding.mk.injEq .. ▸ ⟨hhost, hport, hpath⟩

theorem reads_bindings : Reads (fun entries => entries.flatMap hashProviderBindings)
    (List.Forall₂ BindingLengths) id := by
  have hentry : Reads hashProviderBindings BindingLengths id := by
    have hfields := (reads_utf8Bytes.comap Prod.fst).append (reads_endpoint.flatMap.comap Prod.snd)
    unfold hashProviderBindings
    refine hfields.imp (fun _ _ h => ⟨h.provider, h.endpoints⟩) fun e e' h => ?_
    obtain ⟨hprovider, hendpoints⟩ := Prod.mk.inj h
    rw [List.map_id, List.map_id] at hendpoints
    exact Prod.ext hprovider hendpoints
  exact hentry.flatMap.imp (fun _ _ h => h) fun _ _ h => by simpa using h

theorem reads_record : Reads (recordBytes profileRevision)
    (fun r r' => RecordLengths r r' ∧ (recordBlock profileRevision r).length =
      (recordBlock profileRevision r').length)
    recordInputs := by
  have hversion : Reads (fun r : ProviderEnvironmentRecord => leBytes 8 r.resourceVersion.toNat)
      (fun _ _ => True) (·.resourceVersion) :=
    reads_leBytes 8 _ _ (fun r => r.resourceVersion.toNat_lt) fun _ _ h => UInt64.toNat_inj.mp h
  have hblock : Reads (recordBlock profileRevision)
      (fun r r' => (recordBlock profileRevision r).length = (recordBlock profileRevision r').length)
      (fun _ => ()) :=
    .of_length (fun _ _ h => h) fun _ _ _ => rfl
  have hkeys := reads_utf8Bytes.flatMap.comap fun r : ProviderEnvironmentRecord =>
    r.provider.credentials.keys
  have hexpirations := reads_expiration.flatMap.comap fun r : ProviderEnvironmentRecord =>
    r.provider.credentialExpirationTimes.toList
  have hfields := (reads_utf8Bytes.comap ProviderEnvironmentRecord.name).append
    ((reads_utf8Bytes.comap ProviderEnvironmentRecord.objectId).append
      (hversion.append (hblock.append (hkeys.append hexpirations))))
  unfold recordBytes
  refine hfields.imp
    (fun r r' h => ⟨h.1.name, h.1.objectId, trivial, h.2, h.1.credentials, h.1.expirations⟩)
    fun r r' h => ?_
  simp only [Prod.mk.injEq, List.map_id, true_and] at h
  obtain ⟨hname, hid, hversion, hkeys, hexpirations⟩ := h
  unfold recordInputs
  rw [hversion, hkeys, Std.ExtTreeMap.toList_inj.mp hexpirations, show r.name = r'.name from hname,
    show r.objectId = r'.objectId from hid]

theorem SameInputs.sameLengths {x y : Input P} (h : SameInputs x y) : SameLengths x y where
  records := by
    have hall := List.forall₂_map_left_iff.mp
      (List.forall₂_map_right_iff.mp (List.forall₂_eq_eq_eq ▸ h.records))
    refine hall.imp fun r r' hr => ?_
    simp only [recordInputs, Prod.mk.injEq] at hr
    obtain ⟨⟨hname, hid, -⟩, hkeys, hexpirations⟩ := hr
    refine ⟨by rw [hname]; rfl, by rw [hid]; rfl, ?_, ?_⟩
    · rw [hkeys]
      exact List.forall₂_same.mpr fun _ _ => rfl
    · rw [hexpirations]
      exact List.forall₂_same.mpr fun _ _ => rfl
  bindings := by
    rw [h.bindings]
    exact List.forall₂_same.mpr fun entry _ => ⟨rfl, List.forall₂_same.mpr fun _ _ => ⟨rfl, rfl⟩⟩

/-- Equal bytes come from equal inputs exactly if the fields are laid out alike. -/
theorem sameInputs_iff {x y : Input P} {bytes : Bytes}
    (hx : preimage profileRevision policyHash x = .ok bytes)
    (hy : preimage profileRevision policyHash y = .ok bytes)
    (hblocks : SameBlocks profileRevision x y) :
    SameInputs x y ↔ SameLengths x y := by
  refine ⟨SameInputs.sameLengths, fun h => ?_⟩
  obtain ⟨policy, hx⟩ := preimage_eq_ok hx
  obtain ⟨policy', hy⟩ := preimage_eq_ok hy
  have hbytes := List.append_cancel_left (hx.symm.trans hy)
  obtain ⟨houts, hrest⟩ :=
    reads_record.flatMap _ _ _ _ (forall₂_and_of_map_eq h.records hblocks) hbytes
  obtain ⟨hbindings, -⟩ := reads_bindings _ _ _ _ h.bindings hrest
  exact ⟨houts, hbindings⟩

end Reads

/-- A policy that binds one host to the credentials of a provider. -/
def boundPolicy (provider host : String) : Policy.SandboxPolicy :=
  { networkPolicies := (∅ : Map Policy.NetworkPolicyRule).insert "rule"
      { endpoints := [{ host, port := 443, credentialBinding := some ⟨provider⟩ }] } }

/-- The bindings of `boundPolicy`. -/
def boundEndpoints (provider host : String) : Map (List StaticCredentialEndpointBinding) :=
  (∅ : Map (List StaticCredentialEndpointBinding)).insert provider [⟨host, 443, ""⟩]

/-- A provider with a credential that expires and is bound to a host; its profile is looked up
in a workspace. -/
def workspaceInput (workspace : String) : Input Unit where
  records := [⟨"git", "9f3c", 1, ⟨"git", workspace, (∅ : Map String).insert "GIT_TOKEN" "",
    (∅ : Map Timestamp).insert "GIT_TOKEN" ⟨1700000000, 0⟩⟩, []⟩]
  bindings := boundEndpoints "git" "api.example.com"
  globalPolicy := none

/-- The profile is looked up in another workspace and is missing in both. -/
theorem sameInputs_iff_workspace :
    SameInputs (workspaceInput "") (workspaceInput "default") ↔
      SameLengths (workspaceInput "") (workspaceInput "default") := by
  let missing : String → String → Bytes := fun _ _ => utf8Bytes "missing"
  let bytes := (preimage missing (fun _ => "") (workspaceInput "")).toOption.getD []
  have hx : preimage missing (fun _ => "") (workspaceInput "") = .ok bytes := by decide +kernel
  have hy : preimage missing (fun _ => "") (workspaceInput "default") = .ok bytes :=
    by decide +kernel
  exact sameInputs_iff hx hy rfl

/-! ## Inputs with the same bytes -/

/-- Two providers that are attached in either case. -/
def attachedRecords : List ProviderEnvironmentRecord :=
  [⟨"git", "9f3c", 1, ⟨"git", "", (∅ : Map String).insert "GIT_TOKEN" "", ∅⟩, []⟩,
    ⟨"github", "c41a", 1, ⟨"github", "", (∅ : Map String).insert "GITHUB_TOKEN" "", ∅⟩, []⟩]

/-- The credentials of another provider are bound to another host, and the bytes stay the same. -/
theorem not_sameInputs_boundEndpoints :
    let missing : String → String → Bytes := fun _ _ => utf8Bytes "missing"
    let x : Input Unit := ⟨attachedRecords, boundEndpoints "github" "api.example.com", none⟩
    let y : Input Unit := ⟨attachedRecords, boundEndpoints "git" "hubapi.example.com", none⟩
    policyStaticCredentialEndpointBindings (some (boundPolicy "github" "api.example.com")) =
      .ok x.bindings ∧
    policyStaticCredentialEndpointBindings (some (boundPolicy "git" "hubapi.example.com")) =
    .ok y.bindings ∧ (preimage missing (fun _ => "") x).toOption.isSome ∧
    preimage missing (fun _ => "") x = preimage missing (fun _ => "") y ∧ ¬ SameInputs x y := by
  refine ⟨by decide +kernel, by decide +kernel, by decide +kernel, by decide +kernel, fun h => ?_⟩
  exact absurd h.bindings (by decide)

section Collision
variable {P : Type} {profileRevision : String → String → Bytes} {policyHash : P → String}

/-- The name of a provider may as well be the start of its id: every input with a named record
has the bytes of another one. -/
theorem exists_collision {x : Input P} {record : ProviderEnvironmentRecord}
    (hrecord : record ∈ x.records) (hname : record.name ≠ "") :
    ∃ y, preimage profileRevision policyHash y = preimage profileRevision policyHash x ∧
      ¬ SameInputs x y := by
  obtain ⟨before, after, hsplit⟩ := List.append_of_mem hrecord
  let renamed := { record with name := "", objectId := record.name ++ record.objectId }
  have hbytes : hashRecord profileRevision renamed = hashRecord profileRevision record := by
    unfold hashRecord
    dsimp only [renamed]
    cases hashProviderRefreshStates record.refreshStates with
    | error _ => rfl
    | ok refreshStates =>
      refine congrArg Except.ok ?_
      rw [utf8Bytes_append, List.append_assoc]
      rfl
  refine ⟨{ x with records := before ++ renamed :: after }, ?_, fun h => ?_⟩
  · unfold preimage
    rw [hsplit, List.mapM_append, List.mapM_append, List.mapM_cons, List.mapM_cons, hbytes]
  · have hmap := h.records
    rw [hsplit, List.map_append, List.map_append, List.append_cancel_left_eq, List.map_cons,
      List.map_cons, List.cons.injEq] at hmap
    exact hname (congrArg (fun inputs => inputs.1.1) hmap.1)

end Collision

theorem exists_collision_attachedRecords :
    let x : Input Unit := ⟨attachedRecords, ∅, none⟩
    ∃ y, preimage (fun _ _ => []) (fun _ => "") y = preimage (fun _ _ => []) (fun _ => "") x ∧
      ¬ SameInputs x y :=
  exists_collision List.mem_cons_self (by decide)

end OpenShell.Server.ProviderEnvRevision
