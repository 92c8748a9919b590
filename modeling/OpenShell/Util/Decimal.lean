import Mathlib
import OpenShell.Util.Text

/-!
# Decimal numbers in text

`str::parse` for the unsigned types, and that it reads back what `to_string` writes.
-/

namespace OpenShell

/-- `str::parse` for an unsigned type of `size` values: an optional `+`, then at least one digit. -/
def parseUnsigned (size : Nat) (s : String) : Option Nat :=
  let body := match s.toList with
    | '+' :: rest => rest
    | chars => chars
  if body.isEmpty || !body.all Char.isDigit then none
  else
    let value := Nat.ofDigitChars 10 body 0
    if value < size then some value else none

def parseU16 : String → Option Nat := parseUnsigned (2 ^ 16)

def parseU64 : String → Option Nat := parseUnsigned (2 ^ 64)

theorem isDigit_of_mem_toString {n : Nat} {c : Char} (h : c ∈ (toString n).toList) :
    c.isDigit = true := by
  rw [Nat.toString_eq_repr, Nat.toList_repr] at h
  exact Nat.isDigit_of_mem_toDigits (by decide) (by decide) h

theorem parseUnsigned_toString {size n : Nat} (h : n < size) :
    parseUnsigned size (toString n) = some n := by
  have hdigits : ∀ c ∈ (toString n).toList, c.isDigit = true :=
    fun c hc => isDigit_of_mem_toString hc
  rw [Nat.toString_eq_repr, Nat.toList_repr] at hdigits
  unfold parseUnsigned
  rw [Nat.toString_eq_repr, Nat.toList_repr]
  have hbody : (match Nat.toDigits 10 n with
      | '+' :: rest => rest
      | chars => chars) = Nat.toDigits 10 n := by
    split
    next rest heq =>
      have hplus := hdigits '+' (by rw [heq]; exact List.mem_cons_self)
      exact absurd hplus (by decide)
    next => rfl
  rw [hbody]
  have hall : (Nat.toDigits 10 n).all Char.isDigit = true := List.all_eq_true.mpr hdigits
  have hne : (Nat.toDigits 10 n).isEmpty = false :=
    List.isEmpty_eq_false_iff.mpr Nat.toDigits_ne_nil
  simp [hall, hne, Nat.ofDigitChars_ten_toDigits, h]

theorem toString_inj {n m : Nat} (h : toString n = toString m) : n = m := by
  have hparsed := parseUnsigned_toString (Nat.lt_succ_of_le (Nat.le_max_left n m))
  rw [h, parseUnsigned_toString (Nat.lt_succ_of_le (Nat.le_max_right n m))] at hparsed
  exact (Option.some.inj hparsed).symm

end OpenShell
