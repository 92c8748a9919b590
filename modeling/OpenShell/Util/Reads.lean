import Mathlib
import OpenShell.Util.Utf8

/-!
# Concatenated fields

Fields written one after the other without marks between them can be read back
only if it is known where each ends. `Reads enc same out` says that two values
with the same layout, written before any two continuations, agree in what they
encode and leave the same continuation.
-/

namespace OpenShell

variable {α β γ δ : Type}

def Reads (enc : α → List β) (same : α → α → Prop) (out : α → γ) : Prop :=
  ∀ a a' rest rest', same a a' → enc a ++ rest = enc a' ++ rest' → out a = out a' ∧ rest = rest'

variable {enc : α → List β} {same same' : α → α → Prop} {out : α → γ}

/-- A field whose length is known. -/
theorem Reads.of_length (hlength : ∀ a a', same a a' → (enc a).length = (enc a').length)
    (hout : ∀ a a', enc a = enc a' → out a = out a') : Reads enc same out := by
  intro a a' rest rest' hsame h
  obtain ⟨henc, hrest⟩ := List.append_inj h (hlength a a' hsame)
  exact ⟨hout a a' henc, hrest⟩

theorem Reads.imp {out' : α → δ} (h : Reads enc same out) (hsame : ∀ a a', same' a a' → same a a')
    (hout : ∀ a a', out a = out a' → out' a = out' a') : Reads enc same' out' := by
  intro a a' rest rest' hs heq
  obtain ⟨ho, hrest⟩ := h a a' rest rest' (hsame a a' hs) heq
  exact ⟨hout a a' ho, hrest⟩

/-- One field after the other. -/
theorem Reads.append {enc' : α → List β} {out' : α → δ} (h : Reads enc same out)
    (h' : Reads enc' same' out') :
    Reads (fun a => enc a ++ enc' a) (fun a a' => same a a' ∧ same' a a')
      (fun a => (out a, out' a)) := by
  intro a a' rest rest' hsame heq
  rw [List.append_assoc, List.append_assoc] at heq
  obtain ⟨hout, heq⟩ := h a a' _ _ hsame.1 heq
  obtain ⟨hout', hrest⟩ := h' a a' rest rest' hsame.2 heq
  exact ⟨Prod.ext hout hout', hrest⟩

/-- A list of fields of a known number. -/
theorem Reads.flatMap (h : Reads enc same out) :
    Reads (fun l : List α => l.flatMap enc) (List.Forall₂ same) (fun l => l.map out) := by
  intro l l' rest rest' hsame heq
  dsimp only at heq ⊢
  induction hsame with
  | nil => exact ⟨rfl, heq⟩
  | @cons a a' l l' hhead _ ih =>
    rw [List.flatMap_cons, List.flatMap_cons, List.append_assoc, List.append_assoc] at heq
    obtain ⟨hout, heq⟩ := h a a' _ _ hhead heq
    obtain ⟨houts, hrest⟩ := ih heq
    exact ⟨by rw [List.map_cons, List.map_cons, hout, houts], hrest⟩

/-- A field of a larger value. -/
theorem Reads.comap (h : Reads enc same out) (f : δ → α) :
    Reads (fun d => enc (f d)) (fun d d' => same (f d) (f d')) (fun d => out (f d)) :=
  fun _ _ _ _ hsame heq => h _ _ _ _ hsame heq

/-- Two facts about corresponding elements at once. -/
theorem forall₂_and_of_map_eq {R : α → α → Prop} {f : α → β} {l l' : List α}
    (h : List.Forall₂ R l l')
    (hmap : l.map f = l'.map f) : List.Forall₂ (fun a a' => R a a' ∧ f a = f a') l l' := by
  induction h with
  | nil => exact .nil
  | cons hhead _ ih =>
    rw [List.map_cons, List.map_cons, List.cons.injEq] at hmap
    exact .cons ⟨hhead, hmap.1⟩ (ih hmap.2)

/-! ## Texts and numbers -/

theorem utf8Bytes_inj {s t : String} (h : utf8Bytes s = utf8Bytes t) : s = t := by
  have hbytes : s.toList.utf8Encode = t.toList.utf8Encode := congrArg List.toByteArray h
  rw [String.utf8Encode_toList, String.utf8Encode_toList] at hbytes
  exact String.toByteArray_inj.mp hbytes

theorem utf8Bytes_append (s t : String) : utf8Bytes (s ++ t) = utf8Bytes s ++ utf8Bytes t := by
  unfold utf8Bytes
  rw [String.toList_append, List.flatMap_append]

/-- `to_le_bytes` of a number of `width` bytes. -/
def leBytes : Nat → Nat → Bytes
  | 0, _ => []
  | width + 1, n => UInt8.ofNat (n % 256) :: leBytes width (n / 256)

theorem length_leBytes (width n : Nat) : (leBytes width n).length = width := by
  induction width generalizing n with
  | zero => rfl
  | succ width ih => rw [leBytes, List.length_cons, ih]

theorem leBytes_inj {width n m : Nat} (hn : n < 256 ^ width) (hm : m < 256 ^ width)
    (h : leBytes width n = leBytes width m) : n = m := by
  induction width generalizing n m with
  | zero =>
    rw [Nat.pow_zero, Nat.lt_one_iff] at hn hm
    rw [hn, hm]
  | succ width ih =>
    rw [leBytes, leBytes, List.cons.injEq] at h
    have hlow : n % 256 = m % 256 := by
      have := congrArg UInt8.toNat h.1
      simpa using this
    have hhigh : n / 256 = m / 256 := by
      refine ih ?_ ?_ h.2
      · rw [Nat.div_lt_iff_lt_mul (by decide), ← Nat.pow_succ]
        exact hn
      · rw [Nat.div_lt_iff_lt_mul (by decide), ← Nat.pow_succ]
        exact hm
    omega

theorem reads_utf8Bytes :
    Reads utf8Bytes (fun s t => (utf8Bytes s).length = (utf8Bytes t).length) id :=
  .of_length (fun _ _ h => h) fun _ _ h => utf8Bytes_inj h

theorem reads_leBytes (width : Nat) (value : α → Nat) (out : α → γ)
    (hbound : ∀ a, value a < 256 ^ width) (hvalue : ∀ a a', value a = value a' → out a = out a') :
    Reads (fun a => leBytes width (value a)) (fun _ _ => True) out :=
  .of_length (fun _ _ _ => by rw [length_leBytes, length_leBytes]) fun a a' h =>
    hvalue a a' (leBytes_inj (hbound a) (hbound a') h)

end OpenShell
