import Mathlib
import OpenShell.Util.Result

/-!
# JSON values and protobuf structs

Middleware configs are JSON objects in an authored policy and a
`google.protobuf.Struct` on the wire. A struct holds every number as a double,
so the conversion refuses integers that a double cannot hold; whatever it
accepts comes back unchanged (`jsonValueToProto_valueToJson`).

Objects and structs are kept as their entries in key order. A double is its bit
pattern: nothing here computes with one.
-/

namespace OpenShell.Core

/-- An IEEE 754 binary64 number, as its bits. -/
structure F64 where
  bits : UInt64
  deriving DecidableEq

def F64.isFinite (x : F64) : Bool := (x.bits >>> 52) &&& 0x7FF != 0x7FF

/-- The leading 53 bits of an integer. -/
def significand (magnitude : Nat) : Nat :=
  if magnitude.log2 ≤ 52 then magnitude <<< (52 - magnitude.log2)
  else magnitude >>> (magnitude.log2 - 52)

/-- The double of an integer with at most 53 significant bits. -/
def F64.ofInteger (negative : Bool) (magnitude : Nat) : F64 :=
  if magnitude = 0 then ⟨0⟩
  else ⟨UInt64.ofNat ((if negative then 2 ^ 63 else 0) + (1023 + magnitude.log2) * 2 ^ 52 +
    (significand magnitude - 2 ^ 52))⟩

/-- `serde_json::Number`. -/
inductive JsonNumber
  | posInt (value : UInt64)
  /-- A negative `i64`, by its absolute value. -/
  | negInt (magnitude : UInt64)
  | float (value : F64) (finite : value.isFinite = true)
  deriving DecidableEq

/-- `serde_json::Value`. -/
inductive Json
  | null
  | bool (value : Bool)
  | number (value : JsonNumber)
  | string (value : String)
  | array (values : List Json)
  | object (fields : List (String × Json))

/-- `prost_types::Value`, by its `kind`. -/
inductive PbValue
  | unset
  | nullValue (value : Int)
  | numberValue (value : F64)
  | stringValue (value : String)
  | boolValue (value : Bool)
  | structValue (fields : List (String × PbValue))
  | listValue (values : List PbValue)

/-- `prost_types::Struct`. -/
abbrev PbStruct := List (String × PbValue)

/-! ## Equality -/

mutual

/-- Structural comparison of JSON values. -/
def Json.beq : Json → Json → Bool
  | .null, .null => true
  | .bool a, .bool b => a == b
  | .number a, .number b => a == b
  | .string a, .string b => a == b
  | .array a, .array b => Json.beqList a b
  | .object a, .object b => Json.beqFields a b
  | _, _ => false

def Json.beqList : List Json → List Json → Bool
  | [], [] => true
  | x :: xs, y :: ys => Json.beq x y && Json.beqList xs ys
  | _, _ => false

def Json.beqFields : List (String × Json) → List (String × Json) → Bool
  | [], [] => true
  | (k, x) :: xs, (l, y) :: ys => k == l && Json.beq x y && Json.beqFields xs ys
  | _, _ => false

end

mutual

theorem Json.beq_iff : ∀ a b : Json, Json.beq a b = true ↔ a = b
  | .array a, b => by cases b <;> simp [Json.beq, Json.beqList_iff a]
  | .object a, b => by cases b <;> simp [Json.beq, Json.beqFields_iff a]
  | .null, b | .bool _, b | .number _, b | .string _, b => by cases b <;> simp [Json.beq]

theorem Json.beqList_iff : ∀ a b : List Json, Json.beqList a b = true ↔ a = b
  | [], b => by cases b <;> simp [Json.beqList]
  | x :: xs, b => by cases b <;> simp [Json.beqList, Json.beq_iff x, Json.beqList_iff xs]

theorem Json.beqFields_iff : ∀ a b : List (String × Json), Json.beqFields a b = true ↔ a = b
  | [], b => by cases b <;> simp [Json.beqFields]
  | (k, x) :: xs, b => by
    cases b <;> simp [Json.beqFields, Json.beq_iff x, Json.beqFields_iff xs, Prod.ext_iff]

end

instance : DecidableEq Json := fun a b => decidable_of_iff _ (Json.beq_iff a b)

mutual

/-- Structural comparison of protobuf values. -/
def PbValue.beq : PbValue → PbValue → Bool
  | .unset, .unset => true
  | .nullValue a, .nullValue b => a == b
  | .numberValue a, .numberValue b => a == b
  | .stringValue a, .stringValue b => a == b
  | .boolValue a, .boolValue b => a == b
  | .structValue a, .structValue b => PbValue.beqFields a b
  | .listValue a, .listValue b => PbValue.beqList a b
  | _, _ => false

def PbValue.beqList : List PbValue → List PbValue → Bool
  | [], [] => true
  | x :: xs, y :: ys => PbValue.beq x y && PbValue.beqList xs ys
  | _, _ => false

def PbValue.beqFields : PbStruct → PbStruct → Bool
  | [], [] => true
  | (k, x) :: xs, (l, y) :: ys => k == l && PbValue.beq x y && PbValue.beqFields xs ys
  | _, _ => false

end

mutual

theorem PbValue.beq_iff : ∀ a b : PbValue, PbValue.beq a b = true ↔ a = b
  | .listValue a, b => by cases b <;> simp [PbValue.beq, PbValue.beqList_iff a]
  | .structValue a, b => by cases b <;> simp [PbValue.beq, PbValue.beqFields_iff a]
  | .unset, b | .nullValue _, b | .numberValue _, b | .stringValue _, b | .boolValue _, b =>
    by cases b <;> simp [PbValue.beq]

theorem PbValue.beqList_iff : ∀ a b : List PbValue, PbValue.beqList a b = true ↔ a = b
  | [], b => by cases b <;> simp [PbValue.beqList]
  | x :: xs, b => by cases b <;> simp [PbValue.beqList, PbValue.beq_iff x, PbValue.beqList_iff xs]

theorem PbValue.beqFields_iff : ∀ a b : PbStruct, PbValue.beqFields a b = true ↔ a = b
  | [], b => by cases b <;> simp [PbValue.beqFields]
  | (k, x) :: xs, b => by
    cases b <;> simp [PbValue.beqFields, PbValue.beq_iff x, PbValue.beqFields_iff xs, Prod.ext_iff]

end

instance : DecidableEq PbValue := fun a b => decidable_of_iff _ (PbValue.beq_iff a b)

/-! ## JSON to protobuf -/

/-- `u64::trailing_zeros`. -/
def trailingZeros (n : Nat) : Nat := ((List.range 64).find? n.testBit).getD 64

def integerIsExactInF64 (integer : Nat) : Bool :=
  integer == 0 || integer.log2 + 1 - trailingZeros integer ≤ 53

/-- The number as a double, or the number itself if a double cannot hold it. -/
def numberToF64Exact : JsonNumber → Except JsonNumber F64
  | n@(.posInt value) =>
    if integerIsExactInF64 value.toNat then .ok (F64.ofInteger false value.toNat) else .error n
  | n@(.negInt magnitude) =>
    if integerIsExactInF64 magnitude.toNat then .ok (F64.ofInteger true magnitude.toNat)
    else .error n
  | .float value _ => .ok value

mutual

def jsonValueToProto : Json → Except JsonNumber PbValue
  | .null => .ok (.nullValue 0)
  | .bool value => .ok (.boolValue value)
  | .number value => PbValue.numberValue <$> numberToF64Exact value
  | .string value => .ok (.stringValue value)
  | .array values => PbValue.listValue <$> jsonValuesToProto values
  | .object object => PbValue.structValue <$> jsonObjectToStruct object

def jsonValuesToProto : List Json → Except JsonNumber (List PbValue)
  | [] => .ok []
  | value :: rest => do return (← jsonValueToProto value) :: (← jsonValuesToProto rest)

def jsonObjectToStruct : List (String × Json) → Except JsonNumber PbStruct
  | [] => .ok []
  | (key, value) :: rest => do
    return (key, ← jsonValueToProto value) :: (← jsonObjectToStruct rest)

end

/-! ## Protobuf to JSON -/

/-- `serde_json::Number::from_f64`, and JSON `null` where it fails. -/
def numberToJson (value : F64) : Json :=
  if h : value.isFinite = true then .number (.float value h) else .null

mutual

def valueToJson : PbValue → Json
  | .unset => .null
  | .nullValue _ => .null
  | .numberValue value => numberToJson value
  | .stringValue value => .string value
  | .boolValue value => .bool value
  | .structValue fields => .object (structToJsonObject fields)
  | .listValue values => .array (valuesToJson values)

def valuesToJson : List PbValue → List Json
  | [] => []
  | value :: rest => valueToJson value :: valuesToJson rest

def structToJsonObject : PbStruct → List (String × Json)
  | [] => []
  | (key, value) :: rest => (key, valueToJson value) :: structToJsonObject rest

end

/-! ## What was converted converts back -/

theorem significand_lt (magnitude : Nat) : significand magnitude < 2 ^ 53 := by
  unfold significand
  have hlt : magnitude < 2 ^ (magnitude.log2 + 1) := Nat.lt_log2_self
  split
  next he =>
    rw [Nat.shiftLeft_eq]
    calc magnitude * 2 ^ (52 - magnitude.log2)
        < 2 ^ (magnitude.log2 + 1) * 2 ^ (52 - magnitude.log2) :=
          Nat.mul_lt_mul_of_pos_right hlt (Nat.two_pow_pos _)
      _ = 2 ^ 53 := by rw [← Nat.pow_add]; congr 1; omega
  next he =>
    rw [Nat.shiftRight_eq_div_pow, Nat.div_lt_iff_lt_mul (Nat.two_pow_pos _), ← Nat.pow_add]
    have hexp : 53 + (magnitude.log2 - 52) = magnitude.log2 + 1 := by omega
    rwa [hexp]

theorem isFinite_ofInteger (negative : Bool) {magnitude : Nat} (h : magnitude < 2 ^ 64) :
    (F64.ofInteger negative magnitude).isFinite = true := by
  unfold F64.ofInteger
  split
  next => decide
  next hne =>
    have hlog : magnitude.log2 < 64 := (Nat.log2_lt hne).mpr h
    have hsig := significand_lt magnitude
    rw [F64.isFinite, bne_iff_ne]
    intro he
    have hbits := congrArg UInt64.toNat he
    rw [UInt64.toNat_and, UInt64.toNat_shiftRight, UInt64.toNat_ofNat'] at hbits
    have hmask : (0x7FF : UInt64).toNat = 2 ^ 11 - 1 := rfl
    rw [hmask, Nat.and_two_pow_sub_one_eq_mod, Nat.shiftRight_eq_div_pow] at hbits
    have hshift : (52 : UInt64).toNat % 64 = 52 := rfl
    rw [hshift] at hbits
    cases negative <;> simp only [Bool.false_eq_true, if_false, if_true] at hbits <;> omega

/-- A double that stands for a JSON number is finite. -/
theorem isFinite_of_numberToF64Exact {number : JsonNumber} {value : F64}
    (h : numberToF64Exact number = .ok value) : value.isFinite = true := by
  cases number with
  | posInt n =>
    rw [numberToF64Exact] at h
    obtain ⟨-, h⟩ := then_of_ite h nofun
    exact Except.ok.inj h ▸ isFinite_ofInteger false n.toNat_lt
  | negInt n =>
    rw [numberToF64Exact] at h
    obtain ⟨-, h⟩ := then_of_ite h nofun
    exact Except.ok.inj h ▸ isFinite_ofInteger true n.toNat_lt
  | float x hx => exact Except.ok.inj h ▸ hx

mutual

/-- **Converted values convert back to themselves.** -/
theorem jsonValueToProto_valueToJson :
    ∀ {json : Json} {value : PbValue}, jsonValueToProto json = .ok value →
      jsonValueToProto (valueToJson value) = .ok value
  | .null, _, h | .bool _, _, h | .string _, _, h => by cases h; rfl
  | .number number, _, h => by
    obtain ⟨value, hv, rfl⟩ := map_eq_ok h
    rw [valueToJson, numberToJson, dif_pos (isFinite_of_numberToF64Exact hv)]
    rfl
  | .array values, _, h => by
    obtain ⟨values', hv, rfl⟩ := map_eq_ok h
    rw [valueToJson, jsonValueToProto, jsonValuesToProto_valuesToJson hv]
    rfl
  | .object object, _, h => by
    obtain ⟨fields, hf, rfl⟩ := map_eq_ok h
    rw [valueToJson, jsonValueToProto, jsonObjectToStruct_structToJsonObject hf]
    rfl

theorem jsonValuesToProto_valuesToJson :
    ∀ {values : List Json} {converted : List PbValue}, jsonValuesToProto values = .ok converted →
      jsonValuesToProto (valuesToJson converted) = .ok converted
  | [], _, h => by cases h; rfl
  | value :: rest, _, h => by
    rw [jsonValuesToProto] at h
    obtain ⟨v, hv, h⟩ := bind_eq_ok h
    obtain ⟨vs, hvs, rfl⟩ := bind_ok_eq_ok h
    rw [valuesToJson, jsonValuesToProto, jsonValueToProto_valueToJson hv,
      jsonValuesToProto_valuesToJson hvs]
    rfl

theorem jsonObjectToStruct_structToJsonObject :
    ∀ {object : List (String × Json)} {fields : PbStruct}, jsonObjectToStruct object = .ok fields →
      jsonObjectToStruct (structToJsonObject fields) = .ok fields
  | [], _, h => by cases h; rfl
  | (key, value) :: rest, _, h => by
    rw [jsonObjectToStruct] at h
    obtain ⟨v, hv, h⟩ := bind_eq_ok h
    obtain ⟨vs, hvs, rfl⟩ := bind_ok_eq_ok h
    rw [structToJsonObject, jsonObjectToStruct, jsonValueToProto_valueToJson hv,
      jsonObjectToStruct_structToJsonObject hvs]
    rfl

end

end OpenShell.Core
