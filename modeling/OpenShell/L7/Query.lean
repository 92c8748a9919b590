import Std.Data.ExtTreeMap
import OpenShell.Util.Result
import OpenShell.Util.Utf8Decode

/-!
# Query strings and form fields

How the supervisor decodes the components of a query string for the policy, and
the fields of a form body for rewriting. Both read a plus sign as a space. The
query decoder refuses a malformed escape, the form decoder keeps it.
-/

namespace OpenShell.L7

/-- The byte loop of `form_url_decode`. -/
def formUrlDecodeBytes : Bytes → Bytes
  | [] => []
  | [b] => [if b == 0x2B then 0x20 else b]
  | [b, c] => [if b == 0x2B then 0x20 else b, if c == 0x2B then 0x20 else c]
  | b :: high :: low :: rest =>
    if b == 0x2B then 0x20 :: formUrlDecodeBytes (high :: low :: rest)
    else if b == 0x25 then
      match hexPair high low with
      | some value => value :: formUrlDecodeBytes rest
      | none => b :: formUrlDecodeBytes (high :: low :: rest)
    else b :: formUrlDecodeBytes (high :: low :: rest)

/-! ## Query parameters -/

/-- What `decode_query_component` reports. -/
inductive QueryError where
  | invalidPercentEncoding
  | invalidUtf8
  deriving DecidableEq, Repr

/-- The byte loop of `decode_query_component`. -/
def decodeQueryBytes : Bytes → Option Bytes
  | [] => some []
  | b :: rest =>
    if b == 0x2B then (decodeQueryBytes rest).map (0x20 :: ·)
    else if b != 0x25 then (decodeQueryBytes rest).map (b :: ·)
    else
      match rest with
      | high :: low :: rest =>
        (hexPair high low).bind fun value => (decodeQueryBytes rest).map (value :: ·)
      | _ => none

theorem decodeQueryBytes_literal {b : UInt8} (hplus : b ≠ 0x2B) (hpercent : b ≠ 0x25)
    (rest : Bytes) :
    decodeQueryBytes (b :: rest) = (decodeQueryBytes rest).map (b :: ·) := by
  rw [decodeQueryBytes.eq_def]
  dsimp only
  rw [if_neg (by simpa using hplus), if_pos (by simpa using hpercent)]

theorem decodeQueryBytes_escape (high low : UInt8) (rest : Bytes) :
    decodeQueryBytes (0x25 :: high :: low :: rest) =
      (hexPair high low).bind fun value => (decodeQueryBytes rest).map (value :: ·) := by
  simp [decodeQueryBytes]

/-- What a successful decoding starts with. -/
theorem decodeQueryBytes_cases {b : UInt8} {rest out : Bytes}
    (h : decodeQueryBytes (b :: rest) = some out) :
    (b = 0x2B ∧ ∃ out', decodeQueryBytes rest = some out' ∧ out = 0x20 :: out') ∨
    (b ≠ 0x2B ∧ b ≠ 0x25 ∧ ∃ out', decodeQueryBytes rest = some out' ∧ out = b :: out') ∨
    (b = 0x25 ∧ ∃ high low tail value out', rest = high :: low :: tail ∧
      hexPair high low = some value ∧ decodeQueryBytes tail = some out' ∧ out = value :: out') := by
  by_cases hplus : b = 0x2B
  · rw [hplus, decodeQueryBytes.eq_def] at h
    obtain ⟨out', hout', rfl⟩ := Option.map_eq_some_iff.mp h
    exact Or.inl ⟨hplus, out', hout', rfl⟩
  by_cases hpercent : b = 0x25
  · refine Or.inr (Or.inr ⟨hpercent, ?_⟩)
    match rest, h with
    | [], h | [_], h =>
      rw [hpercent] at h
      exact absurd h (by simp [decodeQueryBytes])
    | high :: low :: tail, h =>
      rw [hpercent, decodeQueryBytes_escape] at h
      obtain ⟨value, hvalue, h⟩ := Option.bind_eq_some_iff.mp h
      obtain ⟨out', hout', rfl⟩ := Option.map_eq_some_iff.mp h
      exact ⟨high, low, tail, value, out', rfl, hvalue, hout', rfl⟩
  · rw [decodeQueryBytes_literal hplus hpercent] at h
    obtain ⟨out', hout', rfl⟩ := Option.map_eq_some_iff.mp h
    exact Or.inr (Or.inl ⟨hplus, hpercent, out', hout', rfl⟩)

def decodeQueryComponent (input : Bytes) : Except QueryError Bytes :=
  match decodeQueryBytes input with
  | none => .error .invalidPercentEncoding
  | some decoded => if isUtf8 decoded then .ok decoded else .error .invalidUtf8

/-- Parameter names, each with its values in order. -/
abbrev QueryParams := Std.ExtTreeMap Bytes (List Bytes)

/-- `params.entry(key).or_default().push(value)`. -/
def pushParam (params : QueryParams) (entry : Bytes × Bytes) : QueryParams :=
  params.insert entry.1 (params[entry.1]?.getD [] ++ [entry.2])

def decodePair (pair : Bytes) : Except QueryError (Bytes × Bytes) := do
  let raw := (splitOnce 0x3D pair).getD (pair, [])
  return (← decodeQueryComponent raw.1, ← decodeQueryComponent raw.2)

theorem decodePair_of_split {pair rawKey rawValue key value : Bytes}
    (h : splitOnce 0x3D pair = some (rawKey, rawValue)) :
    decodePair pair = .ok (key, value) ↔
      decodeQueryComponent rawKey = .ok key ∧ decodeQueryComponent rawValue = .ok value := by
  unfold decodePair
  rw [h]
  dsimp only [Option.getD_some]
  constructor
  · intro hpair
    obtain ⟨key', hkey, hpair⟩ := bind_eq_ok hpair
    obtain ⟨value', hvalue, ⟨⟩⟩ := bind_ok_eq_ok hpair
    exact ⟨hkey, hvalue⟩
  · rintro ⟨hkey, hvalue⟩
    rw [hkey, hvalue]
    rfl

/-- The decoded pairs of a query, in order; an empty one is skipped. -/
def queryEntries (query : Bytes) : Except QueryError (List (Bytes × Bytes)) :=
  ((query.splitOn 0x26).filter fun pair => !pair.isEmpty).mapM decodePair

def parseQueryParams (query : Bytes) : Except QueryError QueryParams := do
  if query.isEmpty then return ∅
  return (← queryEntries query).foldl pushParam ∅

/-- The values a name has in a list of pairs. -/
def valuesOf (key : Bytes) (entries : List (Bytes × Bytes)) : List Bytes :=
  (entries.filter fun entry => entry.1 == key).map Prod.snd

theorem valuesOf_cons (key : Bytes) (entry : Bytes × Bytes) (entries : List (Bytes × Bytes)) :
    valuesOf key (entry :: entries) = if entry.1 = key then entry.2 :: valuesOf key entries else
      valuesOf key entries := by
  by_cases h : entry.1 = key <;> simp [valuesOf, h]

theorem getElem?_pushParam (params : QueryParams) (entry : Bytes × Bytes) (key : Bytes) :
    (pushParam params entry)[key]? =
      if entry.1 = key then some (params[key]?.getD [] ++ [entry.2]) else params[key]? := by
  unfold pushParam
  rw [Std.ExtTreeMap.getElem?_insert]
  by_cases hkey : entry.1 = key
  · rw [if_pos hkey, if_pos (by rw [hkey]; exact Std.ReflCmp.compare_self), hkey]
  · rw [if_neg hkey, if_neg fun h => hkey (Std.LawfulEqCmp.eq_of_compare h)]

/-- What a name finds after a list of pairs was pushed. -/
theorem getElem?_foldl_pushParam (key : Bytes) :
    ∀ (entries : List (Bytes × Bytes)) (params : QueryParams),
      (entries.foldl pushParam params)[key]? =
        if valuesOf key entries = [] then params[key]? else
          some (params[key]?.getD [] ++ valuesOf key entries)
  | [], params => rfl
  | entry :: entries, params => by
    rw [List.foldl_cons, getElem?_foldl_pushParam key entries, getElem?_pushParam, valuesOf_cons]
    by_cases hkey : entry.1 = key
    · rw [if_pos hkey, if_pos hkey, if_neg (List.cons_ne_nil _ _)]
      split
      next hnil => rw [hnil]
      next => rw [Option.getD_some, List.append_assoc, List.singleton_append]
    · rw [if_neg hkey, if_neg hkey]

/-- The parameters of a query are its pairs, grouped by name. -/
theorem parseQueryParams_eq_ok {query : Bytes} {params : QueryParams}
    (h : parseQueryParams query = .ok params) :
    ∃ entries, queryEntries query = .ok entries ∧ ∀ key,
      params[key]? = if valuesOf key entries = [] then none else some (valuesOf key entries) := by
  unfold parseQueryParams at h
  split at h
  next hempty =>
    cases h
    rw [List.isEmpty_iff.mp hempty]
    exact ⟨[], rfl, fun _ => rfl⟩
  next =>
    obtain ⟨entries, hentries, rfl⟩ := bind_ok_eq_ok h
    exact ⟨entries, hentries, fun key => getElem?_foldl_pushParam key entries ∅⟩

theorem exists_parseQueryParams {query : Bytes} {entries : List (Bytes × Bytes)}
    (h : queryEntries query = .ok entries) : ∃ params, parseQueryParams query = .ok params := by
  unfold parseQueryParams
  split
  · exact ⟨∅, rfl⟩
  · rw [h]
    exact ⟨_, rfl⟩

end OpenShell.L7
