import Mathlib.Data.Finset.Basic
import Std.Data.ExtTreeMap
import OpenShell.Secrets.Token

/-!
# The secret resolver

A resolver maps issued placeholders to secret values, and checks where in a
request a placeholder stands before it gives its value out. The clock is a
parameter (`now`, in milliseconds): one call reads one time.
-/

namespace OpenShell.Secrets

/-- A map keyed by text. -/
abbrev TextMap (α : Type) := Std.ExtTreeMap Bytes α

/-! ## Errors -/

inductive UnresolvedPlaceholderReason where
  | unavailable
  | endpointMismatch
  | placementMismatch
  deriving DecidableEq, Repr

structure UnresolvedPlaceholderError where
  location : String
  reason : UnresolvedPlaceholderReason
  deriving DecidableEq, Repr

def unresolved (location : String) : UnresolvedPlaceholderError := ⟨location, .unavailable⟩

/-- A call that rewrites request text: it may panic, or report a placeholder that
it cannot resolve. -/
abbrev Rewrite (α : Type) := Except (Fault UnresolvedPlaceholderError) α

/-! ## Resolver data -/

/-- Credential-specific destinations authorized by the provider profile. -/
inductive CredentialPlacement where
  | header (name : Bytes)
  | queryParam (name : Bytes)
  | pathTemplate (template : Bytes)
  deriving DecidableEq

/-- The actual destination of a workload-provided credential placeholder. -/
inductive RequestCredentialLocation where
  | header (name : Bytes)
  | queryParam (name : Bytes)
  | path (path : Bytes)
  | body
  | webSocket
  deriving DecidableEq

structure SecretValue where
  value : Bytes
  expiresAtMs : Int
  deriving DecidableEq

/-- Every key is a canonical placeholder, whichever way the resolver was made. -/
structure SecretResolver where
  byPlaceholder : TextMap SecretValue
  policyRedactionOnly : Bool
  placements : TextMap CredentialPlacement
  requestLocation : Option RequestCredentialLocation
  deniedEnvKeys : Finset Bytes
  identityBoundEnvKeys : Finset Bytes
  revisionFallbackAllowedRevisions : TextMap (Finset Nat)
  canonical : ∀ placeholder, placeholder ∈ byPlaceholder → placeholderPrefix <+: placeholder

/-- A resolver over a map of placeholders, with nothing else attached. -/
def SecretResolver.ofPlaceholders (byPlaceholder : TextMap SecretValue)
    (canonical : ∀ placeholder, placeholder ∈ byPlaceholder → placeholderPrefix <+: placeholder) :
    SecretResolver where
  byPlaceholder := byPlaceholder
  policyRedactionOnly := false
  placements := ∅
  requestLocation := none
  deniedEnvKeys := ∅
  identityBoundEnvKeys := ∅
  revisionFallbackAllowedRevisions := ∅
  canonical := canonical

theorem placeholderPrefix_of_mem_empty (placeholder : Bytes)
    (h : placeholder ∈ (∅ : TextMap SecretValue)) :
    placeholderPrefix <+: placeholder :=
  absurd h Std.ExtTreeMap.not_mem_empty

/-- `SecretResolver::default()`. -/
def SecretResolver.empty : SecretResolver :=
  .ofPlaceholders ∅ placeholderPrefix_of_mem_empty

/-! ## Scoping -/

namespace SecretResolver

variable (r : SecretResolver)

def withPlacements (placements : TextMap CredentialPlacement) : SecretResolver :=
  { r with placements := placements }

def withRequestLocation (location : RequestCredentialLocation) : SecretResolver :=
  { r with requestLocation := some location }

/-! ## Tokens the resolver knows -/

/-- `Iterator::max_by_key` with the length of the text for a key: the last of the longest. -/
def longest : List Bytes → Option Bytes
  | [] => none
  | first :: rest =>
    some (rest.foldl (fun best p => if best.length ≤ p.length then p else best) first)

def longestKnownTokenMatch (text : Bytes) (absStart : Nat) : Option (Nat × Bytes) :=
  (longest (r.byPlaceholder.keys.filter fun placeholder =>
    placeholder.isPrefixOf (text.drop absStart) &&
      tokenBoundaryOk text absStart (absStart + placeholder.length) placeholder)).map
    fun placeholder => (absStart + placeholder.length, placeholder)

def credentialTokenAt (text : Bytes) (absStart : Nat) : Option (Nat × Bytes) :=
  r.longestKnownTokenMatch text absStart <|> canonicalTokenAt text absStart <|>
    aliasTokenAt text absStart

/-! ## Placement -/

/-- `u8::to_ascii_lowercase`. -/
def lowerByte (b : UInt8) : UInt8 := if 0x41 ≤ b && b ≤ 0x5A then b + 0x20 else b

/-- `str::eq_ignore_ascii_case`. -/
def eqIgnoreAsciiCase (a b : Bytes) : Bool := a.map lowerByte == b.map lowerByte

/-- What the template check of a path puts for the token at a start: the slot, or
the token as it stands. -/
def slotToken (key actual : Bytes) (start : Nat) : Except (Fault Unit) (Nat × Bytes × Nat) :=
  match r.credentialTokenAt actual start with
  | none => .error (.failed ())
  | some (stop, token) =>
    .ok (stop, if placeholderEnvKey token = some key then (utf8Bytes "\x7bcredential\x7d", 1)
      else (token, 0))

def slotScanner (key actual : Bytes) : Scanner (Bytes × Nat) Unit where
  text := actual
  next := nextStart actual
  token := r.slotToken key actual

/-- Normalize only this credential's slot; all other path text must match. -/
def pathPermits (key expected actual : Bytes) {ε : Type} : Except (Fault ε) Bool :=
  match (r.slotScanner key actual).loop (fun st text => (st.1 ++ text, st.2))
      (fun st slot => (st.1 ++ slot.1, st.2 + slot.2)) actual.length 0 (([] : Bytes), 0) with
  | .ok (normalized, slots) => .ok (slots == 1 && normalized == expected)
  | .error (.failed ()) => .ok false
  | .error .panicked => .error .panicked
  | .error .diverged => .error .diverged

def isAuthorizationHeader : Option RequestCredentialLocation → Bool
  | some (.header name) => eqIgnoreAsciiCase name (utf8Bytes "authorization")
  | _ => false

def placementPermits (placeholder : Bytes) {ε : Type} : Except (Fault ε) Bool :=
  if r.policyRedactionOnly then .ok true
  else
    match placeholderEnvKey placeholder with
    | none => .ok true
    | some key =>
      if r.requestLocation.isNone && !decide (key ∈ r.identityBoundEnvKeys) &&
          !r.placements.contains key then .ok true
      else if r.requestLocation = some .body || r.requestLocation = some .webSocket then .ok true
      else
        match r.placements[key]?, r.requestLocation with
        | none, location => .ok (isAuthorizationHeader location)
        | some (.header expected), some (.header actual) => .ok (eqIgnoreAsciiCase expected actual)
        | some (.queryParam expected), some (.queryParam actual) => .ok (expected == actual)
        | some (.pathTemplate expected), some (.path actual) => r.pathPermits key expected actual
        | some _, _ => .ok false

/-! ## Resolution -/

def resolveSecretValue (now : Int) (secret : SecretValue) : Option Bytes :=
  if secret.expiresAtMs > 0 && secret.expiresAtMs ≤ now then none
  else if validateResolvedSecret secret.value then some secret.value
  else none

/-- The entry a placeholder reads: its own, or, for a revision that is no longer
retained, the one of its key. -/
def secretFor (value : Bytes) : Option SecretValue :=
  r.byPlaceholder[value]? <|> do
    let (revision, key) ← revisionedPlaceholderParts value
    if decide (key ∈ r.identityBoundEnvKeys) &&
        !(r.revisionFallbackAllowedRevisions[key]?.any fun revisions =>
          decide (revision ∈ revisions)) then none
    r.byPlaceholder[placeholderForEnvKey key]?

/-- The canonical spelling of an alias; any other text as it stands. -/
def normalizeAlias (value : Bytes) : Bytes :=
  match aliasEnvKey value with
  | some key => placeholderForEnvKey key
  | none => value

/-- A bound key is named without a revision or a stable handle. -/
def identityless (value : Bytes) : Bool :=
  ((placeholderEnvKey value).any fun key => decide (key ∈ r.identityBoundEnvKeys)) &&
    (revisionedPlaceholderParts value).isNone && (stablePlaceholderParts value).isNone

def resolvePlaceholder (now : Int) (value : Bytes) {ε : Type} :
    Except (Fault ε) (Option Bytes) := do
  let value := normalizeAlias value
  if !(← r.placementPermits value) then return none
  if r.identityless value then return none
  return (r.secretFor value).bind (resolveSecretValue now)

def unresolvedFor (location : String) (placeholder : Bytes) :
    Rewrite UnresolvedPlaceholderError := do
  if (placeholderEnvKey placeholder).any fun key => decide (key ∈ r.deniedEnvKeys) then
    return ⟨location, .endpointMismatch⟩
  else if !(← r.placementPermits placeholder) then
    return ⟨location, .placementMismatch⟩
  else
    return ⟨location, .unavailable⟩

end SecretResolver

end OpenShell.Secrets
