import Mathlib
import OpenShell.Util.Scan
import OpenShell.Util.Utf8

/-!
# Credential placeholders

The two reserved spellings of a credential reference in request text: the
canonical one, a fixed lead-in and an environment key, and the provider-shaped
alias, whose marker stands inside a word. Text is bytes throughout: a `&str` is
its UTF-8 encoding.
-/

namespace OpenShell.Secrets

def placeholderPrefix : Bytes := utf8Bytes "openshell:resolve:env:"

def providerAliasMarker : Bytes := utf8Bytes "OPENSHELL-RESOLVE-ENV-"

def isEnvKeyChar (b : UInt8) : Bool := isAsciiAlphanumeric b || b == 0x5F

/-- Letters, digits and `_ - . ~`. -/
def isAliasTokenChar (b : UInt8) : Bool :=
  isAsciiAlphanumeric b || b == 0x5F || b == 0x2D || b == 0x2E || b == 0x7E

def containsRawReservedMarker (value : Bytes) : Bool :=
  containsSub placeholderPrefix value || containsSub providerAliasMarker value

/-! ## Percent coding -/

/-- `u8::from_str_radix` of two bytes in base 16, which takes a plus sign for a
first digit. -/
def fromHexPair (high low : UInt8) : Option UInt8 :=
  if high == 0x2B then hexDigit low else hexPair high low

/-- The byte loop of `percent_decode`: the two bytes after a percent sign are
consumed with it even when they are no hex digits. -/
def percentDecodeBytes : Bytes → Bytes
  | [] => []
  | [b] => [b]
  | [b, c] => [b, c]
  | b :: high :: low :: rest =>
    if b == 0x25 then
      match fromHexPair high low with
      | some value => value :: percentDecodeBytes rest
      | none => b :: high :: low :: percentDecodeBytes rest
    else b :: percentDecodeBytes (high :: low :: rest)

def percentDecode (input : Bytes) : Bytes := fromUtf8Lossy (percentDecodeBytes input)

def containsReservedCredentialMarker (value : Bytes) : Bool :=
  containsRawReservedMarker value || containsRawReservedMarker (percentDecode value)

/-- An upper-case hex digit. -/
def upperHexDigit (n : UInt8) : UInt8 := if n < 10 then 0x30 + n else 0x37 + n

/-- `format!("%{byte:02X}")`. -/
def percentEncodeByte (b : UInt8) : Bytes := [0x25, upperHexDigit (b / 16), upperHexDigit (b % 16)]

/-- Percent-encode every byte but those kept. -/
def percentEncode (keep : UInt8 → Bool) (input : Bytes) : Bytes :=
  input.flatMap fun b => if keep b then [b] else percentEncodeByte b

/-- RFC 3986 unreserved: letters, digits and `- . _ ~`. -/
def isUnreserved (b : UInt8) : Bool :=
  isAsciiAlphanumeric b || b == 0x2D || b == 0x2E || b == 0x5F || b == 0x7E

def percentEncodeQuery : Bytes → Bytes := percentEncode isUnreserved

/-- Unreserved, the sub-delimiters, colon and at sign. -/
def isPathChar (b : UInt8) : Bool := isUnreserved b || (utf8Bytes "!$&'()*+,;=:@").contains b

def percentEncodePathSegment : Bytes → Bytes := percentEncode isPathChar

/-! ## Tokens in a text -/

/-- Walk back from a marker over alias characters. -/
def aliasStartForMarker (text : Bytes) : Nat → Nat
  | 0 => 0
  | start + 1 =>
    if text[start]?.any isAliasTokenChar then aliasStartForMarker text start else start + 1

/-- The end of the run of environment-key characters from a position. -/
def envKeyEnd (text : Bytes) (keyStart : Nat) : Nat :=
  keyStart + ((text.drop keyStart).takeWhile isEnvKeyChar).length

def canonicalTokenAt (text : Bytes) (absStart : Nat) : Option (Nat × Bytes) :=
  if placeholderPrefix.isPrefixOf (text.drop absStart) then
    let keyStart := absStart + placeholderPrefix.length
    let keyEnd := envKeyEnd text keyStart
    if keyEnd > keyStart then some (keyEnd, (text.drop absStart).take (keyEnd - absStart)) else none
  else none

/-- No alias character stands directly before the position. -/
def aliasBeforeOk (text : Bytes) (start : Nat) : Bool :=
  start == 0 || !(text[start - 1]?.any isAliasTokenChar)

/-- No alias character stands at the position. -/
def aliasAfterOk (text : Bytes) (stop : Nat) : Bool :=
  stop == text.length || !(text[stop]?.any isAliasTokenChar)

def aliasTokenAt (text : Bytes) (absStart : Nat) : Option (Nat × Bytes) := do
  let markerRel ← findSub providerAliasMarker (text.drop absStart)
  if markerRel == 0 then none
  let keyStart := absStart + markerRel + providerAliasMarker.length
  let keyEnd := envKeyEnd text keyStart
  if keyEnd == keyStart then none
  if aliasBeforeOk text absStart && aliasAfterOk text keyEnd then
    some (keyEnd, (text.drop absStart).take (keyEnd - absStart))
  else none

/-- Whether a known placeholder may end where it does. -/
def tokenBoundaryOk (text : Bytes) (absStart tokenEnd : Nat) (token : Bytes) : Bool :=
  if placeholderPrefix.isPrefixOf token then
    tokenEnd == text.length || !(text[tokenEnd]?.any isEnvKeyChar) ||
      placeholderPrefix.isPrefixOf (text.drop tokenEnd)
  else aliasBeforeOk text absStart && aliasAfterOk text tokenEnd

/-- `[canonical, alias].into_iter().flatten().min()`. -/
def earlier : Option Nat → Option Nat → Option Nat
  | some a, some b => some (min a b)
  | some a, none => some a
  | none, b => b

/-- Where the next reference starts, scanning from a position. -/
def nextStart (text : Bytes) (pos : Nat) : Option Nat :=
  earlier ((findSub placeholderPrefix (text.drop pos)).map (pos + ·))
    ((findSub providerAliasMarker (text.drop pos)).map fun markerPos =>
      aliasStartForMarker text (pos + markerPos))

/-! ## The key of a token -/

/-- `str::strip_prefix`. -/
def stripBytes (lead text : Bytes) : Option Bytes :=
  if lead.isPrefixOf text then some (text.drop lead.length) else none

def aliasEnvKey (token : Bytes) : Option Bytes := do
  let markerStart ← findSub providerAliasMarker token
  if markerStart == 0 then none
  if !(token.take markerStart).all isAliasTokenChar then none
  let key := token.drop (markerStart + providerAliasMarker.length)
  if key.all isEnvKeyChar && !key.isEmpty then some key else none

/-- The number a run of decimal digits writes. -/
def decimalValue (digits : Bytes) : Nat := digits.foldl (fun n b => n * 10 + (b - 0x30).toNat) 0

def isAsciiDigit (b : UInt8) : Bool := 0x30 ≤ b && b ≤ 0x39

/-- `str::parse::<u64>` of a non-empty run of digits. -/
def parseU64 (digits : Bytes) : Option Nat :=
  if decimalValue digits < 2 ^ 64 then some (decimalValue digits) else none

/-- An identity-marked key: a letter, an identity, an underscore, a key of
environment characters. -/
def splitIdentityEnvKey (letter : UInt8) (isIdentity : Bytes → Bool) (key : Bytes) :
    Option (Bytes × Bytes) := do
  let suffix ← stripBytes [letter] key
  let (identity, envKey) ← splitOnce 0x5F suffix
  if !isIdentity identity || envKey.isEmpty || !envKey.all isEnvKeyChar then none
  else some (identity, envKey)

/-- `v<revision>_<key>`. -/
def splitRevisionedEnvKey : Bytes → Option (Bytes × Bytes) :=
  splitIdentityEnvKey 0x76 fun revision => !revision.isEmpty && revision.all isAsciiDigit

/-- `s<handle>_<key>`, the handle 64 lower-case hex digits. -/
def splitStableEnvKey : Bytes → Option (Bytes × Bytes) :=
  splitIdentityEnvKey 0x73 fun handle =>
    handle.length == 64 && handle.all fun b => isAsciiDigit b || (0x61 ≤ b && b ≤ 0x66)

def revisionedPlaceholderParts (token : Bytes) : Option (Nat × Bytes) := do
  let suffix ← stripBytes placeholderPrefix token
  let (revision, key) ← splitRevisionedEnvKey suffix
  return (← parseU64 revision, key)

def revisionedPlaceholderEnvKey (token : Bytes) : Option Bytes :=
  (revisionedPlaceholderParts token).map (·.2)

def stablePlaceholderParts (token : Bytes) : Option (Bytes × Bytes) := do
  let suffix ← stripBytes placeholderPrefix token
  splitStableEnvKey suffix

/-- The key an alias suffix names, without its identity. -/
def aliasSuffixKey (suffix : Bytes) : Bytes :=
  match splitStableEnvKey suffix <|> splitRevisionedEnvKey suffix with
  | some (_, key) => key
  | none => suffix

def placeholderEnvKey (token : Bytes) : Option Bytes :=
  (stablePlaceholderParts token).map (·.2) <|> revisionedPlaceholderEnvKey token <|>
    stripBytes placeholderPrefix token <|> (aliasEnvKey token).map aliasSuffixKey

def usesReservedRevisionNamespace (key : Bytes) : Bool :=
  (splitRevisionedEnvKey key).isSome || (splitStableEnvKey key).isSome

def placeholderForEnvKey (key : Bytes) : Bytes := placeholderPrefix ++ key

/-- CR, LF and NUL are refused. -/
def validateResolvedSecret (value : Bytes) : Bool :=
  !value.any fun b => b == 0x0D || b == 0x0A || b == 0

/-! ## Reading the parts of a token -/

theorem stripBytes_eq_some {lead text rest : Bytes} :
    stripBytes lead text = some rest ↔ text = lead ++ rest := by
  unfold stripBytes
  constructor
  · intro h
    obtain ⟨hlead, h⟩ := then_of_ite h nofun
    obtain ⟨tail, rfl⟩ := List.isPrefixOf_iff_prefix.mp hlead
    rw [List.drop_left] at h
    rw [Option.some.inj h]
  · rintro rfl
    rw [if_pos (List.isPrefixOf_iff_prefix.mpr (List.prefix_append ..)), List.drop_left]

/-- A letter, an identity and a key of environment characters, with `_` between the two. -/
theorem splitIdentityEnvKey_eq_some {letter : UInt8} {isIdentity : Bytes → Bool}
    {key identity envKey : Bytes}
    (h : splitIdentityEnvKey letter isIdentity key = some (identity, envKey)) :
    isIdentity identity = true ∧ envKey ≠ [] ∧ envKey.all isEnvKeyChar = true ∧
      stripBytes [letter] key >>= splitOnce 0x5F = some (identity, envKey) := by
  unfold splitIdentityEnvKey at h
  obtain ⟨suffix, hsuffix, h⟩ := Option.bind_eq_some_iff.mp h
  obtain ⟨⟨identity', envKey'⟩, hsplit, h⟩ := Option.bind_eq_some_iff.mp h
  dsimp only at h
  obtain ⟨hok, ⟨⟩⟩ := else_of_ite h nofun
  simp only [Bool.or_eq_true, not_or, Bool.not_eq_true', Bool.not_eq_false] at hok
  refine ⟨hok.1.1, fun hnil => hok.1.2 (by rw [hnil]; rfl), hok.2, ?_⟩
  rw [hsuffix]
  exact hsplit

variable {token key : Bytes}

/-- A revisioned token is the prefix, the revision in digits and the key. -/
theorem revisionedPlaceholderParts_eq_some {revision : Nat}
    (h : revisionedPlaceholderParts token = some (revision, key)) :
    ∃ suffix digits, token = placeholderPrefix ++ suffix ∧
      splitRevisionedEnvKey suffix = some (digits, key) ∧ parseU64 digits = some revision := by
  obtain ⟨suffix, hsuffix, h⟩ := Option.bind_eq_some_iff.mp h
  obtain ⟨⟨digits, key'⟩, hsplit, h⟩ := Option.bind_eq_some_iff.mp h
  obtain ⟨n, hn, h⟩ := Option.bind_eq_some_iff.mp h
  cases h
  exact ⟨suffix, digits, stripBytes_eq_some.mp hsuffix, hsplit, hn⟩

/-- The key of an alias is not empty and has environment characters only. -/
theorem aliasEnvKey_eq_some (h : aliasEnvKey token = some key) :
    key ≠ [] ∧ key.all isEnvKeyChar = true := by
  unfold aliasEnvKey at h
  obtain ⟨marker, -, h⟩ := Option.bind_eq_some_iff.mp h
  dsimp only at h
  obtain ⟨-, h⟩ := else_of_ite h nofun
  obtain ⟨-, h⟩ := else_of_ite h nofun
  obtain ⟨hok, ⟨⟩⟩ := then_of_ite h nofun
  rw [Bool.and_eq_true] at hok
  exact ⟨fun hnil => by rw [hnil] at hok; exact absurd hok.2 (by decide), hok.1⟩

/-- The four ways a token names a key. -/
theorem placeholderEnvKey_eq_some :
    placeholderEnvKey token = some key ↔
      (∃ handle, stablePlaceholderParts token = some (handle, key)) ∨
      stablePlaceholderParts token = none ∧
        ((∃ revision, revisionedPlaceholderParts token = some (revision, key)) ∨
        revisionedPlaceholderParts token = none ∧
          (stripBytes placeholderPrefix token = some key ∨
          stripBytes placeholderPrefix token = none ∧
            ∃ suffix, aliasEnvKey token = some suffix ∧ aliasSuffixKey suffix = key)) := by
  simp only [placeholderEnvKey, revisionedPlaceholderEnvKey, Option.orElse_eq_orElse,
    Option.orElse_eq_or,
    Option.or_eq_some_iff, Option.map_eq_some_iff, Option.map_eq_none_iff, Prod.exists,
    exists_eq_right]

theorem percentDecodeBytes_cons_of_ne {b : UInt8} (h : b ≠ 0x25) (s : Bytes) :
    percentDecodeBytes (b :: s) = b :: percentDecodeBytes s := by
  match s with
  | [] => rfl
  | [_] => rfl
  | _ :: _ :: _ => rw [percentDecodeBytes, if_neg (by simpa using h)]

theorem percentDecode_isUtf8 (input : Bytes) : isUtf8 (percentDecode input) = true :=
  isUtf8_fromUtf8Lossy _

/-! ## Markers -/

/-- A reserved marker stands at a position. -/
def MarkerAt (text : Bytes) (i : Nat) : Prop :=
  placeholderPrefix <+: text.drop i ∨ providerAliasMarker <+: text.drop i

/-- Both markers have this many bytes. -/
def markerLength : Nat := 22

theorem placeholderPrefix_length : placeholderPrefix.length = markerLength := by decide

theorem providerAliasMarker_length : providerAliasMarker.length = markerLength := by decide

theorem placeholderPrefix_ne_nil : placeholderPrefix ≠ [] := by decide

theorem providerAliasMarker_ne_nil : providerAliasMarker ≠ [] := by decide

theorem placeholderPrefix_ascii : ∀ b ∈ placeholderPrefix, b < 0x80 :=
  forall_mem_byte (by decide)

theorem providerAliasMarker_ascii : ∀ b ∈ providerAliasMarker, b < 0x80 :=
  forall_mem_byte (by decide)

theorem providerAliasMarker_alias : ∀ b ∈ providerAliasMarker, isAliasTokenChar b = true :=
  forall_mem_byte (by decide)

set_option maxRecDepth 8000 in
theorem isAliasTokenChar_ascii : ∀ b, isAliasTokenChar b = true → b < 0x80 :=
  forall_byte (by decide)

set_option maxRecDepth 8000 in
theorem isEnvKeyChar_ascii : ∀ b, isEnvKeyChar b = true → b < 0x80 :=
  forall_byte (by decide)

theorem MarkerAt.add_le {text : Bytes} {i : Nat} (h : MarkerAt text i) :
    i + markerLength ≤ text.length := by
  rcases h with h | h
  · exact placeholderPrefix_length ▸ add_length_le_of_prefix_drop placeholderPrefix_ne_nil h
  · exact providerAliasMarker_length ▸ add_length_le_of_prefix_drop providerAliasMarker_ne_nil h

/-- A text has a marker if the marker stands somewhere in it. -/
theorem containsRawReservedMarker_iff {text : Bytes} :
    containsRawReservedMarker text = true ↔ ∃ i, MarkerAt text i := by
  rw [containsRawReservedMarker, Bool.or_eq_true, containsSub_iff, containsSub_iff, ← exists_or]
  rfl

/-- Replacing invalid UTF-8 makes no marker and breaks none. -/
theorem containsRawReservedMarker_fromUtf8Lossy (s : Bytes) :
    containsRawReservedMarker (fromUtf8Lossy s) = containsRawReservedMarker s := by
  rw [containsRawReservedMarker, containsRawReservedMarker,
    containsSub_fromUtf8Lossy placeholderPrefix_ascii placeholderPrefix_ne_nil,
    containsSub_fromUtf8Lossy providerAliasMarker_ascii providerAliasMarker_ne_nil]

end OpenShell.Secrets
