import Mathlib
import OpenShell.Secrets.Resolver

/-!
# The body guard

A request body whose credential rewrite is disabled is streamed through a guard.
It looks through percent escapes for reserved tokens, asks a secret-free
classifier whether each may be forwarded as it stands, and holds back what may
still become a token. The classifier knows which keys there are, never a value.
-/

namespace OpenShell.Secrets

/-! ## The classifier -/

/-- Why a reserved body token cannot be forwarded. -/
inductive BodyCredentialError where
  | knownUnavailable
  | classificationUnavailable
  | invalidToken
  | tokenTooLong
  | trailer
  deriving DecidableEq, Repr

structure ValueStatus where
  valid : Bool
  expiresAtMs : Int
  deriving DecidableEq

structure BodyCredentialClassifier where
  values : TextMap ValueStatus
  known : Finset Bytes
  bound : Finset Bytes
  revisions : TextMap (Finset Nat)

namespace BodyCredentialClassifier

variable (c : BodyCredentialClassifier) (now : Int)

/-- Revision syntax with a number that does not fit. -/
def overflowsRevision (token : Bytes) : Bool :=
  ((stripBytes placeholderPrefix token).any fun suffix => (splitRevisionedEnvKey suffix).isSome) &&
    (revisionedPlaceholderParts token).isNone

/-- A known key behind something that only looks like an identity. -/
def shadowsKnownKey (token : Bytes) : Bool :=
  ((stripBytes placeholderPrefix token).any fun suffix =>
    (splitOnce 0x5F suffix).any fun (identity, underlying) =>
      (identity.head? == some 0x76 || identity.head? == some 0x73) &&
      decide (underlying ∈ c.known)) &&
    (revisionedPlaceholderParts token).isNone && (stablePlaceholderParts token).isNone

/-- The status of the value a token would read. -/
def valueFor (token key : Bytes) : Option ValueStatus :=
  c.values[token]? <|>
    (revisionedPlaceholderParts token).bind fun _ => c.values[placeholderForEnvKey key]?

/-- A revision of the key that is not one of those still allowed. -/
def revisionRefused (token key : Bytes) : Bool :=
  (revisionedPlaceholderParts token).any fun (revision, _) =>
    !(c.revisions[key]?.any fun allowed => decide (revision ∈ allowed))

def isUsable (status : ValueStatus) : Bool :=
  status.valid && !(status.expiresAtMs > 0 && status.expiresAtMs ≤ now)

/-- The check of a token that is not an alias. -/
def checkCanonical (token : Bytes) : Except BodyCredentialError Unit :=
  match placeholderEnvKey token with
  | none => .error .invalidToken
  | some key =>
    if key.isEmpty || !key.all isEnvKeyChar then .error .invalidToken
    else if overflowsRevision token then .error .invalidToken
    else if c.shadowsKnownKey token then .error .knownUnavailable
    else if key ∉ c.known then .ok ()
    else if key ∉ c.bound then .error .knownUnavailable
    else if (revisionedPlaceholderParts token).isNone && (stablePlaceholderParts token).isNone then
      .error .knownUnavailable
    else if c.revisionRefused token key then .error .knownUnavailable
    else if (c.valueFor token key).any (isUsable now) then .ok ()
    else .error .knownUnavailable

/-- Authorize forwarding a complete token unchanged. An alias is checked under its
canonical spelling, which is never an alias again (`aliasEnvKey_placeholderForEnvKey`). -/
def check (token : Bytes) : Except BodyCredentialError Unit :=
  match aliasEnvKey token with
  | some key => c.checkCanonical now (placeholderForEnvKey key)
  | none => c.checkCanonical now token

end BodyCredentialClassifier

/-! ## Decoding the wire -/

/-- The longest wire form of a marker: every byte percent-encoded. -/
def credentialMarkerScanTailBytes : Nat :=
  3 * max placeholderPrefix.length providerAliasMarker.length

/-- Maximum retained candidate on the wire, including percent encoding. -/
def maxBodyTokenBytes : Nat := 4096

/-- The bytes a wire text decodes to, each with the number of wire bytes it takes. A
percent sign with fewer than two bytes behind it is undecided before the end of
the body. -/
def decodeUnits (eof : Bool) : Bytes → List (UInt8 × Nat)
  | [] => []
  | [b] => if b == 0x25 && !eof then [] else [(b, 1)]
  | [b, c] =>
    if b == 0x25 && !eof then []
    else (b, 1) :: (if c == 0x25 && !eof then [] else [(c, 1)])
  | b :: high :: low :: rest =>
    if b == 0x25 then
      match hexPair high low with
      | some value => (value, 3) :: decodeUnits eof rest
      | none => (b, 1) :: decodeUnits eof (high :: low :: rest)
    else (b, 1) :: decodeUnits eof (high :: low :: rest)

/-- Wire bytes of a list of units. -/
def wireLength (units : List (UInt8 × Nat)) : Nat := (units.map (·.2)).sum

/-- The wire offset of a decoded position. -/
def wireOffset (units : List (UInt8 × Nat)) (i : Nat) : Nat := wireLength (units.take i)

/-! ## The guard -/

structure BodyPlaceholderGuard where
  pending : Bytes
  classifier : Option BodyCredentialClassifier
  previousDecoded : Option UInt8

/-- The end of the key of a token: the first byte that is no key character, or the
next canonical reference. -/
def bodyKeyEnd (decoded : Bytes) (keyStart : Nat) : Nat → Nat → Nat
  | 0, stop => stop
  | fuel + 1, stop =>
    if decoded[stop]?.any isEnvKeyChar &&
        !(stop > keyStart && placeholderPrefix.isPrefixOf (decoded.drop stop)) then
      bodyKeyEnd decoded keyStart fuel (stop + 1)
    else stop

namespace BodyPlaceholderGuard

variable (g : BodyPlaceholderGuard) (now : Int)

/-- The text that is checked for the token between two decoded positions; an alias
is given a one-letter word. -/
def bodyToken (decoded : Bytes) (start stop : Nat) (isAlias : Bool) : Bytes :=
  (if isAlias then [0x78] else []) ++ (decoded.drop start).take (stop - start)

/-- The byte before a decoded position, possibly released earlier. -/
def byteBefore (decoded : Bytes) (start : Nat) : Option UInt8 :=
  if start = 0 then g.previousDecoded else decoded[start - 1]?

/-- The checks on a complete token. -/
def checkToken (decoded : Bytes) (start stop : Nat) (isAlias : Bool) :
    Except BodyCredentialError Unit :=
  if isAlias && decoded[stop]?.any isAliasTokenChar then .error .invalidToken
  else if isAlias && !(g.byteBefore decoded start).any isAliasTokenChar then .error .invalidToken
  else
    match g.classifier with
    | none => .error .classificationUnavailable
    | some classifier => classifier.check now (bodyToken decoded start stop isAlias)

/-- The scan of `release` from a decoded position: how many wire bytes may go. -/
def scan (units : List (UInt8 × Nat)) (eof : Bool) :
    Nat → Nat → Nat → Except BodyCredentialError Nat
  | 0, _, safe => .ok safe
  | fuel + 1, pos, safe =>
    let decoded := units.map (·.1)
    if pos < decoded.length then
      let canonical := placeholderPrefix.isPrefixOf (decoded.drop pos)
      let isAlias := providerAliasMarker.isPrefixOf (decoded.drop pos)
      if !canonical && !isAlias then scan units eof fuel (pos + 1) safe
      else
        let keyStart :=
          pos + if canonical then placeholderPrefix.length else providerAliasMarker.length
        let stop := bodyKeyEnd decoded keyStart decoded.length keyStart
        if wireOffset units stop - wireOffset units pos > maxBodyTokenBytes then
          .error .tokenTooLong
        else if stop = decoded.length && !eof then
          if g.classifier.isNone then .error .classificationUnavailable
          else .ok (min safe (wireOffset units pos))
        else if stop = keyStart then .error .invalidToken
        else do
          g.checkToken now decoded pos stop isAlias
          scan units eof fuel stop (max safe (wireOffset units stop))
    else .ok safe

/-- The last unit boundary at or before a wire offset. -/
def unitsBefore (units : List (UInt8 × Nat)) (safe : Nat) : Nat :=
  ((List.range (units.length + 1)).filter fun i => wireOffset units i ≤ safe).length - 1

/-- The released bytes and the guard that keeps the rest. -/
def release (eof : Bool) : Except BodyCredentialError (Bytes × BodyPlaceholderGuard) := do
  let units := decodeUnits eof g.pending
  let wire := wireLength units
  let safe ← g.scan now units eof units.length 0
      (if eof then wire else wire - credentialMarkerScanTailBytes)
  let index := unitsBefore units safe
  let safe := wireOffset units index
  return (g.pending.take safe,
    { g with
      pending := g.pending.drop safe
      previousDecoded := if index > 0 then (units.map (·.1))[index - 1]? else g.previousDecoded })

end BodyPlaceholderGuard

end OpenShell.Secrets
