import OpenShell.Util.Bytes
import OpenShell.Util.Text

/-!
# UTF-8

The bytes of a text. Code that works on bytes reads the encoding of a `String`;
where all bytes are ASCII, text and bytes are the same thing
(`toList_eq_of_ascii`).
-/

namespace OpenShell

/-- `str::as_bytes`. -/
def utf8Bytes (s : String) : Bytes := s.toList.flatMap String.utf8EncodeChar

/-- The character an ASCII byte stands for. -/
def charOfByte (b : UInt8) : Char := Char.ofNat b.toNat

theorem utf8EncodeChar_of_lt {c : Char} (h : c.toNat < 128) :
    String.utf8EncodeChar c = [UInt8.ofNat c.toNat] := by
  have hle : c.val.toNat ≤ 0x7f := Nat.le_of_lt_succ h
  unfold String.utf8EncodeChar
  exact if_pos hle

/-- The first byte of a character past ASCII is not ASCII. -/
theorem lt_of_utf8EncodeChar_ascii {c : Char} (h : ∀ b ∈ String.utf8EncodeChar c, b < 0x80) :
    c.toNat < 128 := by
  by_contra hc
  have hle : ¬ c.val.toNat ≤ 0x7f := by
    intro h
    exact hc (Nat.lt_succ_of_le h)
  unfold String.utf8EncodeChar at h
  dsimp only at h
  rw [if_neg hle] at h
  have hfirst : ∀ n, 0x80 ≤ n → n < 256 → ¬ UInt8.ofNat n < 0x80 := by
    intro n hlow hhigh hlt
    have := UInt8.lt_iff_toNat_lt.mp hlt
    rw [UInt8.toNat_ofNat_of_lt' hhigh] at this
    exact absurd this (Nat.not_lt.mpr hlow)
  split at h
  next => exact hfirst _ (by omega) (by omega) (h _ List.mem_cons_self)
  next =>
    split at h
    next => exact hfirst _ (by omega) (by omega) (h _ List.mem_cons_self)
    next => exact hfirst _ (by omega) (by omega) (h _ List.mem_cons_self)

theorem toList_eq_of_ascii {s : String} (h : ∀ b ∈ utf8Bytes s, b < 0x80) :
    s.toList = (utf8Bytes s).map charOfByte := by
  unfold utf8Bytes at *
  generalize s.toList = cs at *
  induction cs with
  | nil => rfl
  | cons c cs ih =>
    rw [List.flatMap_cons] at h ⊢
    have hc : c.toNat < 128 :=
      lt_of_utf8EncodeChar_ascii fun b hb => h b (List.mem_append_left _ hb)
    rw [List.map_append, ← ih fun b hb => h b (List.mem_append_right _ hb), utf8EncodeChar_of_lt hc,
      List.map_singleton, charOfByte, UInt8.toNat_ofNat_of_lt' (Nat.lt_trans hc (by decide)),
      Char.ofNat_toNat]
    rfl

theorem toNat_charOfByte (b : UInt8) : (charOfByte b).toNat = b.toNat := by
  have hvalid : b.toNat.isValidChar := Or.inl (Nat.lt_trans b.toNat_lt (by decide))
  rw [charOfByte, Char.ofNat, dif_pos hvalid]
  rfl

theorem charOfByte_injective : Function.Injective charOfByte := by
  intro a b h
  rw [← UInt8.toNat_inj, ← toNat_charOfByte a, ← toNat_charOfByte b, h]

/-- An ASCII text inside an ASCII text is its bytes inside its bytes. -/
theorem exists_append_of_ascii {s : String} {pre rest : List Char} {needle : Bytes}
    (hs : s.toList = (utf8Bytes s).map charOfByte)
    (h : s.toList = pre ++ (needle.map charOfByte ++ rest)) :
    ∃ pre' rest', utf8Bytes s = pre' ++ (needle ++ rest') ∧ rest = rest'.map charOfByte := by
  rw [hs] at h
  obtain ⟨pre', tail, hbytes, -, htail⟩ := List.map_eq_append_iff.mp h
  obtain ⟨needle', rest', rfl, hneedle, hrest⟩ := List.map_eq_append_iff.mp htail
  obtain rfl := charOfByte_injective.list_map hneedle
  exact ⟨pre', rest', hbytes, hrest.symm⟩

end OpenShell
