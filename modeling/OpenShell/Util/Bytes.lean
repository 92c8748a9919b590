import Mathlib.Data.List.Basic

/-!
# Byte strings

Text that a program handles bytewise is modelled as `Bytes`, a list of `UInt8`:
a Rust `&str` is the byte list of its UTF-8 encoding, and every statement about
all byte lists covers it. This file holds the byte-level classifiers of the
standard library; a statement about bytes may be checked on the 256 values
(`forall_byte`).
-/

namespace OpenShell

/-- A byte string. -/
abbrev Bytes := List UInt8

/-- Whether a check passes on all 256 bytes. -/
def allBytes (p : UInt8 → Bool) : Bool := (List.range 256).all fun n => p (UInt8.ofNat n)

/-- A decidable property of every byte, checked on the 256 values. -/
theorem forall_byte {P : UInt8 → Prop} [DecidablePred P]
    (h : allBytes (fun b => decide (P b)) = true) (b : UInt8) : P b := by
  have hb := List.all_eq_true.mp h b.toNat (List.mem_range.mpr b.toNat_lt)
  simpa using hb

/-- A decidable property of the bytes of a text, checked one by one. -/
theorem forall_mem_byte {P : UInt8 → Prop} [DecidablePred P] {s : Bytes}
    (h : (s.all fun b => decide (P b)) = true) : ∀ b ∈ s, P b :=
  fun b hb => of_decide_eq_true (List.all_eq_true.mp h b hb)

/-- `u8::is_ascii_alphanumeric`. -/
def isAsciiAlphanumeric (b : UInt8) : Bool :=
  (0x30 ≤ b && b ≤ 0x39) || (0x41 ≤ b && b ≤ 0x5A) || (0x61 ≤ b && b ≤ 0x7A)

/-- `u8::is_ascii_hexdigit`. -/
def isAsciiHexdigit (b : UInt8) : Bool :=
  (0x30 ≤ b && b ≤ 0x39) || (0x41 ≤ b && b ≤ 0x46) || (0x61 ≤ b && b ≤ 0x66)

/-- `u8::is_ascii_lowercase`. -/
def isAsciiLowercase (b : UInt8) : Bool := 0x61 ≤ b && b ≤ 0x7A

/-- `u8::is_ascii_control`. -/
def isAsciiControl (b : UInt8) : Bool := b < 0x20 || b == 0x7F

/-- `char::to_digit(16)`. -/
def hexDigit (b : UInt8) : Option UInt8 :=
  if 0x30 ≤ b && b ≤ 0x39 then some (b - 0x30)
  else if 0x41 ≤ b && b ≤ 0x46 then some (b - 0x41 + 10)
  else if 0x61 ≤ b && b ≤ 0x66 then some (b - 0x61 + 10)
  else none

/-- The byte two hex digits write. -/
def hexPair (high low : UInt8) : Option UInt8 := do return (← hexDigit high) * 16 + (← hexDigit low)

/-- `str::split_once` at a one-byte separator. -/
def splitOnce (sep : UInt8) : Bytes → Option (Bytes × Bytes)
  | [] => none
  | b :: rest =>
    if b == sep then some ([], rest)
    else (splitOnce sep rest).map fun p => (b :: p.1, p.2)

section SplitOnce
variable {sep : UInt8}

/-- The first separator ends the left part. -/
theorem splitOnce_append (right : Bytes) :
    ∀ {left : Bytes}, sep ∉ left → splitOnce sep (left ++ sep :: right) = some (left, right)
  | [], _ => by rw [List.nil_append, splitOnce, if_pos (beq_self_eq_true _)]
  | b :: left, h => by
    obtain ⟨hb, hleft⟩ := List.ne_and_not_mem_of_not_mem_cons h
    rw [List.cons_append, splitOnce, if_neg (by simpa using hb.symm), splitOnce_append right hleft]
    rfl

/-- The two parts and the separator are the text, and the separator is its first. -/
theorem splitOnce_eq_some :
    ∀ {s left right : Bytes}, splitOnce sep s = some (left, right) →
      s = left ++ sep :: right ∧ sep ∉ left
  | b :: rest, left, right, h => by
    rw [splitOnce] at h
    split at h
    next hb =>
      cases h
      exact ⟨by rw [beq_iff_eq.mp hb]; rfl, List.not_mem_nil⟩
    next hb =>
      obtain ⟨⟨before, after⟩, hsplit, heq⟩ := Option.map_eq_some_iff.mp h
      cases heq
      obtain ⟨rfl, hnot⟩ := splitOnce_eq_some hsplit
      exact ⟨rfl,
        List.not_mem_cons_of_ne_of_not_mem (fun heq => hb (heq ▸ beq_self_eq_true _)) hnot⟩

/-- No separator, nothing to split at. -/
theorem splitOnce_of_notMem {s : Bytes} (h : sep ∉ s) : splitOnce sep s = none := by
  refine Option.eq_none_iff_forall_ne_some.mpr fun parts hsplit => h ?_
  rw [(splitOnce_eq_some hsplit).1]
  simp

end SplitOnce

/-- `str::contains` for a two-byte needle. -/
def containsPair (x y : UInt8) : Bytes → Bool
  | [] => false
  | [_] => false
  | a :: b :: rest => (a == x && b == y) || containsPair x y (b :: rest)

theorem containsPair_cons_of_ne {x y a : UInt8} (h : a ≠ x) (rest : Bytes) :
    containsPair x y (a :: rest) = containsPair x y rest := by
  cases rest with
  | nil => rfl
  | cons b rest => rw [containsPair, beq_eq_false_iff_ne.mpr h, Bool.false_and, Bool.false_or]

theorem containsPair_append {x y : UInt8} (rest : Bytes) :
    ∀ {l : Bytes}, x ∉ l → containsPair x y (l ++ rest) = containsPair x y rest
  | [], _ => rfl
  | a :: l, h => by
    have ha : a ≠ x := fun e => h (e ▸ List.mem_cons_self)
    rw [List.cons_append, containsPair_cons_of_ne ha,
      containsPair_append rest fun hm => h (List.mem_cons_of_mem _ hm)]

theorem containsPair_of_append {x y : UInt8} (rest : Bytes) :
    ∀ l : Bytes, containsPair x y (l ++ x :: y :: rest) = true
  | [] => by simp [containsPair]
  | [a] => by simp [containsPair]
  | a :: b :: l => by
    have htail := containsPair_of_append (x := x) (y := y) rest (b :: l)
    rw [List.cons_append, List.cons_append, containsPair, ← List.cons_append, htail, Bool.or_true]

end OpenShell
