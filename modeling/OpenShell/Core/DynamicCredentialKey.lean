import OpenShell.Util.Decimal
import OpenShell.Util.Result

/-!
# Keys of endpoint-bound credentials

The gateway encodes a credential, the endpoint selector it is bound to and the
endpoint that owns it in one key, after `dynamic_credential_key.rs`. The fields
are separated by tabs and end with `provider:credential`.
-/

namespace OpenShell.Core

structure DynamicCredentialKey where
  host : String
  port : Nat
  path : String
  owner : String
  providerName : String
  credentialName : String
  deriving DecidableEq

/-- The endpoint selector at the front of a key, as written in the key. -/
structure EndpointSelector where
  host : String
  port : String
  path : String
  deriving DecidableEq

def hasControl (value : String) : Bool := value.toList.any isControl

def checkKeyField (field value : String) : Except String Unit := do
  rejectIf (hasControl value) s!"dynamic credential key {field} contains a control character"
  rejectIf (field ≠ "path" ∧ isEmptyStr value = true) s!"dynamic credential key {field} is empty"

def DynamicCredentialKey.new (host : String) (port : Nat)
    (path owner providerName credentialName : String) :
    Except String DynamicCredentialKey := do
  checkKeyField "host" host
  checkKeyField "path" path
  checkKeyField "owner" owner
  checkKeyField "provider name" providerName
  checkKeyField "credential name" credentialName
  rejectIf (containsChar providerName ':' = true ∨ ¬ (1 ≤ port ∧ port ≤ 65535))
    "dynamic credential key has an invalid provider name or port"
  return { host, port, path, owner, providerName, credentialName }

/-- The trailing identity of a key. -/
def identityOf (providerName credentialName : String) : String :=
  providerName ++ ":" ++ credentialName

def DynamicCredentialKey.encode (key : DynamicCredentialKey) : String :=
  joinWith "\t" [toAsciiLowercase key.host, toString key.port, key.path, key.owner,
    identityOf key.providerName key.credentialName]

def validRevision (value : String) : Bool :=
  (stripPre value "rev:").any fun revision => (parseU64 revision).isSome

def validInstallation (value : String) : Bool :=
  (stripPre value "installation:").any fun id => !isEmptyStr id

/-- What may follow an endpoint selector: nothing, an owner, the generation of a cache key, or
both. -/
def validSuffix : List String → Bool
  | [] => true
  | [ownerOrRevision] => !isEmptyStr ownerOrRevision
  | [revision, installation] => validRevision revision && validInstallation installation
  | [owner, revision, installation] =>
    !isEmptyStr owner && validRevision revision && validInstallation installation
  | _ => false

/-- The selector in the fields before the identity. -/
def decodeSelector : List String → Option (Option EndpointSelector)
  | [] => some none
  | [revision, installation] =>
    if validRevision revision && validInstallation installation then some none else none
  | host :: port :: path :: rest =>
    if isEmptyStr host || (parseU16 port).all (· == 0) || !validSuffix rest then none
    else some (some ⟨host, port, path⟩)
  | _ => none

def decode (key : String) : Option (Option EndpointSelector × String) :=
  let fields := splitChar key '\t'
  if 7 < fields.length || fields.any hasControl then none
  else do
    let identity ← fields.getLast?
    let (provider, credential) ← splitOnceChar identity ':'
    if isEmptyStr provider || isEmptyStr credential then none
    else
      let selector ← decodeSelector fields.dropLast
      return (selector, identity)

/-- The part of a credential snapshot that names its generation. -/
@[ext]
structure ProviderCredentialSnapshot where
  revision : UInt64
  installationId : String

def ProviderCredentialSnapshot.scopedKey (snapshot : ProviderCredentialSnapshot)
    (key : String) : String :=
  let revision := "rev:" ++ toString snapshot.revision.toNat
  let installation := "installation:" ++ snapshot.installationId
  match rsplitOnceChar key '\t' with
  | some (selector, identity) =>
    selector ++ "\t" ++ revision ++ "\t" ++ installation ++ "\t" ++ identity
  | none => revision ++ "\t" ++ installation ++ "\t" ++ key

def endpointSelector (key : String) : Option EndpointSelector := (decode key).bind (·.1)

def credentialIdentity (key : String) : Option String := (decode key).map (·.2)

/-! ## Reading back -/

/-- The fields the constructor accepts. -/
structure DynamicCredentialKey.Valid (key : DynamicCredentialKey) : Prop where
  plain : ∀ value ∈ [key.host, key.path, key.owner, key.providerName, key.credentialName],
    hasControl value = false
  filled : ∀ value ∈ [key.host, key.owner, key.providerName, key.credentialName],
    isEmptyStr value = false
  provider : containsChar key.providerName ':' = false
  port : 1 ≤ key.port ∧ key.port ≤ 65535

theorem checkKeyField_bind {β : Type} {field value : String} {f : Unit → Except String β} {y : β} :
    (checkKeyField field value >>= f) = .ok y ↔
      hasControl value = false ∧ (field ≠ "path" → isEmptyStr value = false) ∧ f () = .ok y := by
  unfold checkKeyField
  rw [bind_assoc, rejectIf_bind, rejectIf_bind]
  simp

variable {credentialName host owner path providerName : String} {key : DynamicCredentialKey}

theorem DynamicCredentialKey.new_eq_ok {port : Nat}
    (h : new host port path owner providerName credentialName = .ok key) :
    key = ⟨host, port, path, owner, providerName, credentialName⟩ ∧ key.Valid := by
  obtain ⟨hhost, hhost', h⟩ := checkKeyField_bind.mp h
  obtain ⟨hpath, -, h⟩ := checkKeyField_bind.mp h
  obtain ⟨howner, howner', h⟩ := checkKeyField_bind.mp h
  obtain ⟨hprovider, hprovider', h⟩ := checkKeyField_bind.mp h
  obtain ⟨hcredential, hcredential', h⟩ := checkKeyField_bind.mp h
  obtain ⟨hrange, h⟩ := rejectIf_bind.mp h
  cases h
  rw [not_or, Bool.not_eq_true, not_not] at hrange
  refine ⟨rfl, ?_, ?_, hrange.1, hrange.2⟩
  · simp [hhost, hpath, howner, hprovider, hcredential]
  · simp [hhost' (by decide), howner' (by decide), hprovider' (by decide), hcredential' (by decide)]

theorem isControl_toLower (c : Char) : isControl c.toLower = isControl c := by
  by_cases hc : c.toNat < 128
  · exact forall_ascii (P := fun c => isControl c.toLower = isControl c) (by decide) hc
  · rw [toLower_of_le (Nat.le_of_not_lt hc)]

theorem hasControl_toString (n : Nat) : hasControl (toString n) = false := by
  rw [hasControl, List.any_eq_false]
  intro c hc
  have hdigit : 48 ≤ c.toNat ∧ c.toNat ≤ 57 := by
    have := isDigit_of_mem_toString hc
    simpa [Char.isDigit, UInt32.le_iff_toNat_le] using this
  simp [isControl]
  omega

theorem hasControl_append (a b : String) :
    hasControl (a ++ b) = (hasControl a || hasControl b) := by
  simp [hasControl]

theorem hasControl_identityOf (hp : hasControl providerName = false)
    (hc : hasControl credentialName = false) :
    hasControl (identityOf providerName credentialName) = false := by
  rw [identityOf, hasControl_append, hasControl_append, hp, hc]
  decide

theorem splitOnceChar_identityOf (h : containsChar providerName ':' = false)
    (credentialName : String) :
    splitOnceChar (identityOf providerName credentialName) ':' =
      some (providerName, credentialName) := by
  have hnot : ':' ∉ providerName.toList := by simpa [containsChar] using h
  have hall : ∀ c ∈ providerName.toList, (c != ':') = true := by
    intro c hc
    rw [bne_iff_ne]
    rintro rfl
    exact hnot hc
  unfold splitOnceChar identityOf
  rw [if_pos (by simp)]
  simp [List.takeWhile_append_of_pos hall, List.dropWhile_append_of_pos hall]

theorem notMem_of_hasControl {value : String} (h : hasControl value = false) :
    '\t' ∉ value.toList := by
  intro hmem
  have := List.any_eq_false.mp h '\t' hmem
  exact this (by decide)

/-- Clean fields that end with an identity decode to what the fields before it say. -/
theorem decode_of_fields {text identity provider credential : String} {before : List String}
    {selector : Option EndpointSelector} (hfields : splitChar text '\t' = before ++ [identity])
    (hlength : before.length < 7)
    (hclean : ∀ field ∈ before ++ [identity], hasControl field = false)
    (hselector : decodeSelector before = some selector)
    (hsplit : splitOnceChar identity ':' = some (provider, credential))
    (hprovider : isEmptyStr provider = false) (hcredential : isEmptyStr credential = false) :
    decode text = some (selector, identity) := by
  have hbounded : ¬ (decide (7 < (before ++ [identity]).length) ||
      (before ++ [identity]).any hasControl) = true := by
    rw [Bool.or_eq_true, not_or, List.any_eq_true]
    refine ⟨by simpa using hlength, ?_⟩
    rintro ⟨field, hfield, hcontrol⟩
    rw [hclean field hfield] at hcontrol
    cases hcontrol
  unfold decode
  rw [hfields]
  dsimp only
  rw [if_neg hbounded]
  simp [hsplit, hprovider, hcredential, hselector]

/-- The fields of a key before its identity. -/
def DynamicCredentialKey.fields (key : DynamicCredentialKey) : List String :=
  [toAsciiLowercase key.host, toString key.port, key.path, key.owner]

theorem DynamicCredentialKey.Valid.clean (h : key.Valid) :
    ∀ field ∈ key.fields ++ [identityOf key.providerName key.credentialName],
      hasControl field = false := by
  have hplain := h.plain
  simp only [fields, List.cons_append, List.nil_append, List.mem_cons, List.not_mem_nil, or_false,
    forall_eq_or_imp, forall_eq] at hplain ⊢
  obtain ⟨hhost, hpath, howner, hname, hcredential⟩ := hplain
  exact ⟨by simpa [hasControl, toAsciiLowercase, Function.comp_def, isControl_toLower] using hhost,
    hasControl_toString _, hpath, howner, hasControl_identityOf hname hcredential⟩

theorem splitChar_encode (h : key.Valid) :
    splitChar key.encode '\t' = key.fields ++ [identityOf key.providerName key.credentialName] :=
  splitChar_joinWith (by decide) (List.cons_ne_nil _ _) fun field hfield =>
    notMem_of_hasControl (h.clean field hfield)

/-- The selector is that of the key, whatever generation follows. -/
theorem decodeSelector_fields (h : key.Valid) {suffix : List String}
    (hsuffix : validSuffix (key.owner :: suffix) = true) :
    decodeSelector (key.fields ++ suffix) =
      some (some ⟨toAsciiLowercase key.host, toString key.port, key.path⟩) := by
  have hhost : isEmptyStr (toAsciiLowercase key.host) = false :=
    (isEmptyStr_toAsciiLowercase _).trans (h.filled _ List.mem_cons_self)
  have hparse : parseU16 (toString key.port) = some key.port :=
    parseUnsigned_toString (Nat.lt_succ_of_le h.port.2)
  have hport : (parseU16 (toString key.port)).all (· == 0) = false := by
    rw [hparse]
    exact beq_false_of_ne (Nat.ne_of_gt h.port.1)
  simp only [DynamicCredentialKey.fields, List.cons_append, List.nil_append, decodeSelector, hhost,
    hport, hsuffix]
  rfl

/-- A key reads back as its selector, with the host in lower case, and its identity. -/
theorem decode_encode (h : key.Valid) :
    decode key.encode = some (some ⟨toAsciiLowercase key.host, toString key.port, key.path⟩,
      identityOf key.providerName key.credentialName) := by
  have hfilled := h.filled
  simp only [List.mem_cons, List.not_mem_nil, or_false, forall_eq_or_imp, forall_eq] at hfilled
  obtain ⟨-, howner, hname, hcredential⟩ := hfilled
  have hsuffix : validSuffix [key.owner] = true := by simp [validSuffix, howner]
  have hselector := decodeSelector_fields h hsuffix
  rw [List.append_nil] at hselector
  exact decode_of_fields (splitChar_encode h) (Nat.lt_of_sub_eq_succ rfl) h.clean hselector
    (splitOnceChar_identityOf h.provider _) hname
    hcredential

theorem endpointSelector_encode (h : key.Valid) :
    endpointSelector key.encode =
      some ⟨toAsciiLowercase key.host, toString key.port, key.path⟩ := by
  rw [endpointSelector, decode_encode h, Option.bind_some]

theorem credentialIdentity_encode (h : key.Valid) :
    credentialIdentity key.encode = some (identityOf key.providerName key.credentialName) := by
  rw [credentialIdentity, decode_encode h, Option.map_some]

/-- Identities tell credentials apart. -/
theorem identityOf_inj {p p' c c' : String} (hp : containsChar p ':' = false)
    (hp' : containsChar p' ':' = false)
    (h : identityOf p c = identityOf p' c') : p = p' ∧ c = c' := by
  have hsplit := splitOnceChar_identityOf hp c
  rw [h, splitOnceChar_identityOf hp'] at hsplit
  obtain ⟨hname, hcredential⟩ := Prod.mk.inj (Option.some.inj hsplit)
  exact ⟨hname.symm, hcredential.symm⟩

/-! ## Scoped keys -/

variable {snapshot snapshot' : ProviderCredentialSnapshot}

/-- The generation stands before the identity. -/
theorem splitChar_scopedKey (h : hasControl snapshot.installationId = false) (key : String) :
    ∃ before identity, splitChar key '\t' = before ++ [identity] ∧
      splitChar (snapshot.scopedKey key) '\t' = before ++
        ["rev:" ++ toString snapshot.revision.toNat, "installation:" ++ snapshot.installationId,
          identity] := by
  have hrevision : '\t' ∉ ("rev:" ++ toString snapshot.revision.toNat).toList := by
    simpa using notMem_of_hasControl (hasControl_toString snapshot.revision.toNat)
  have hinstallation : '\t' ∉ ("installation:" ++ snapshot.installationId).toList := by
    simpa using notMem_of_hasControl h
  have htab : ∀ a b : String, splitChar (a ++ "\t" ++ b) '\t' = splitChar a '\t' ++
      splitChar b '\t' := fun a b =>
    splitChar_append (by simp)
  unfold ProviderCredentialSnapshot.scopedKey
  cases hsplit : rsplitOnceChar key '\t' with
  | some parts =>
    obtain ⟨hkey, hidentity⟩ := rsplitOnceChar_eq_some hsplit
    refine ⟨splitChar parts.1 '\t', parts.2, ?_, ?_⟩
    · rw [splitChar_append hkey, splitChar_of_notMem hidentity]
    · simp only [htab, splitChar_of_notMem hidentity, splitChar_of_notMem hrevision,
        splitChar_of_notMem hinstallation, List.append_assoc, List.cons_append, List.nil_append]
  | none =>
    have hkey := splitChar_of_notMem (rsplitOnceChar_eq_none hsplit)
    refine ⟨[], key, hkey, ?_⟩
    simp only [htab, hkey, splitChar_of_notMem hrevision, splitChar_of_notMem hinstallation,
      List.cons_append, List.nil_append]

/-- A scoped key names the key and the generation. -/
theorem scopedKey_inj {key key' : String} (h : hasControl snapshot.installationId = false)
    (h' : hasControl snapshot'.installationId = false)
    (heq : snapshot.scopedKey key = snapshot'.scopedKey key') :
    key = key' ∧ snapshot = snapshot' := by
  obtain ⟨before, identity, hkey, hscoped⟩ := splitChar_scopedKey h key
  obtain ⟨before', identity', hkey', hscoped'⟩ := splitChar_scopedKey h' key'
  rw [heq, hscoped'] at hscoped
  obtain ⟨rfl, htail⟩ := List.append_inj' hscoped rfl
  simp only [List.cons.injEq, String.append_right_inj, and_true] at htail
  obtain ⟨hrevision, hinstallation, rfl⟩ := htail
  have hnumber := UInt64.toNat_inj.mp (toString_inj hrevision)
  exact ⟨joined_of_splitChar (hkey.trans hkey'.symm),
    ProviderCredentialSnapshot.ext hnumber.symm hinstallation.symm⟩

theorem stripPre_append (pre rest : String) : stripPre (pre ++ rest) pre = some rest := by
  simp [stripPre, startsWith]

/-- Scoping keeps what a key reads back as. -/
theorem decode_scopedKey (h : key.Valid) (hplain : hasControl snapshot.installationId = false)
    (hid : isEmptyStr snapshot.installationId = false) :
    decode (snapshot.scopedKey key.encode) = decode key.encode := by
  obtain ⟨before, identity, hkey, hscoped⟩ := splitChar_scopedKey hplain key.encode
  rw [splitChar_encode h] at hkey
  obtain ⟨rfl, hidentity⟩ := List.append_inj' hkey rfl
  obtain rfl := (List.cons.inj hidentity).1
  have hfilled := h.filled
  have hclean := h.clean
  simp only [List.mem_append, List.mem_cons, List.not_mem_nil, or_false, or_imp, forall_and,
    forall_eq] at hfilled hclean
  have hparse : parseU64 (toString snapshot.revision.toNat) = some snapshot.revision.toNat :=
    parseUnsigned_toString snapshot.revision.toNat_lt
  have hsuffix : validSuffix [key.owner, "rev:" ++ toString snapshot.revision.toNat,
      "installation:" ++ snapshot.installationId] = true := by
    simp only [validSuffix, validRevision, validInstallation, stripPre_append, Option.any_some,
      hparse, hid, hfilled]
    rfl
  rw [decode_encode h]
  refine decode_of_fields (by rw [hscoped, List.append_assoc]; rfl) (Nat.lt_of_sub_eq_succ rfl) ?_
    (decodeSelector_fields h hsuffix)
    (splitOnceChar_identityOf h.provider _) hfilled.2.2.1 hfilled.2.2.2
  simp only [List.mem_append, List.mem_cons, List.not_mem_nil, or_false, or_imp, forall_and,
    forall_eq, hasControl_append, hasControl_toString, hplain]
  exact ⟨⟨hclean.1, by decide, by decide⟩, hclean.2⟩

/-- Keys tell component tuples apart, up to the case of the host. -/
theorem encode_inj {key' : DynamicCredentialKey} (h : key.Valid) (h' : key'.Valid)
    (heq : key.encode = key'.encode) :
    ({ key with host := toAsciiLowercase key.host } : DynamicCredentialKey) =
      { key' with host := toAsciiLowercase key'.host } := by
  have hfields := splitChar_encode h
  rw [heq, splitChar_encode h'] at hfields
  simp only [DynamicCredentialKey.fields, List.cons_append, List.nil_append, List.cons.injEq,
    and_true] at hfields
  obtain ⟨hhost, hport, hpath, howner, hidentity⟩ := hfields
  obtain ⟨hname, hcredential⟩ := identityOf_inj h'.provider h.provider hidentity
  rw [hhost, toString_inj hport, hpath, howner, hname, hcredential]

/-- What the key of accepted components says, by itself and scoped to a generation. -/
theorem dynamicCredentialKey_decodes {host' path' owner' providerName' credentialName' : String}
    {port port' : Nat} {key' : DynamicCredentialKey}
    (h : DynamicCredentialKey.new host port path owner providerName credentialName = .ok key)
    (h' : DynamicCredentialKey.new host' port' path' owner' providerName'
      credentialName' = .ok key')
    (hplain : hasControl snapshot.installationId = false)
    (hplain' : hasControl snapshot'.installationId = false) :
    endpointSelector key.encode = some ⟨toAsciiLowercase host, toString port, path⟩ ∧
      credentialIdentity key.encode = some (providerName ++ ":" ++ credentialName) ∧
      (key.encode = key'.encode → eqIgnoreAsciiCase host host' = true ∧ port = port' ∧
        path = path' ∧ owner = owner' ∧
        providerName = providerName' ∧ credentialName = credentialName') ∧
      (isEmptyStr snapshot.installationId = false →
        endpointSelector (snapshot.scopedKey key.encode) = endpointSelector key.encode ∧
          credentialIdentity (snapshot.scopedKey key.encode) = credentialIdentity key.encode) ∧
      ∀ text text', snapshot.scopedKey text = snapshot'.scopedKey text' →
        text = text' ∧ snapshot = snapshot' := by
  obtain ⟨rfl, hvalid⟩ := DynamicCredentialKey.new_eq_ok h
  obtain ⟨rfl, hvalid'⟩ := DynamicCredentialKey.new_eq_ok h'
  refine ⟨endpointSelector_encode hvalid, credentialIdentity_encode hvalid,
    fun heq => ?_, fun hid => ?_, fun _ _ =>
    scopedKey_inj hplain hplain'⟩
  · have hsame := encode_inj hvalid hvalid' heq
    injection hsame with hhost hport hpath howner hname hcredential
    exact ⟨eqIgnoreAsciiCase_iff.mpr hhost, hport, hpath, howner, hname, hcredential⟩
  · have hscoped := decode_scopedKey hvalid hplain hid
    rw [endpointSelector, credentialIdentity, hscoped, endpointSelector, credentialIdentity]
    exact ⟨rfl, rfl⟩

def exampleCredentialKey : DynamicCredentialKey := ⟨"API", 443, "", "o", "p", "c"⟩

theorem dynamicCredentialKey_decodes_example :
    DynamicCredentialKey.new "API" 443 "" "o" "p" "c" = .ok exampleCredentialKey ∧
      endpointSelector
        ((⟨7, "i"⟩ : ProviderCredentialSnapshot).scopedKey exampleCredentialKey.encode) =
        endpointSelector exampleCredentialKey.encode := by
  have hnew : DynamicCredentialKey.new "API" 443 "" "o" "p" "c" = .ok exampleCredentialKey :=
    by decide
  have hid : hasControl (⟨7, "i"⟩ : ProviderCredentialSnapshot).installationId = false := by decide
  exact ⟨hnew, ((dynamicCredentialKey_decodes hnew hnew hid hid).2.2.2.1 (by decide)).1⟩

/-- An empty installation id leaves a key that no longer decodes. -/
theorem not_scopedKey_emptyInstallation :
    DynamicCredentialKey.new "API" 443 "" "o" "p" "c" = .ok exampleCredentialKey ∧
      endpointSelector exampleCredentialKey.encode = some ⟨"api", "443", ""⟩ ∧
      endpointSelector
        ((⟨7, ""⟩ : ProviderCredentialSnapshot).scopedKey exampleCredentialKey.encode) = none := by
  decide

end OpenShell.Core
