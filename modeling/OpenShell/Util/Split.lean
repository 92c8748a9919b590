import Mathlib.Data.List.Basic

/-!
# Splitting on a separator

`List.splitOn` cuts a list at every occurrence of a separator and
`List.intercalate` glues it back; core proves that the two are inverse. What is
missing there is what the pieces look like: their elements come from the list
and are never the separator (`mem_splitOn`).
-/

namespace OpenShell

variable {α : Type} [BEq α] [LawfulBEq α]

section
variable {sep x : α} {l piece : List α}

omit [BEq α] [LawfulBEq α] in
theorem infix_intercalate_of_mem {sep piece : List α} :
    ∀ {pieces : List (List α)}, piece ∈ pieces → piece <:+: sep.intercalate pieces
  | [p], h => by
    rw [List.intercalate_singleton]
    exact List.mem_singleton.mp h ▸ List.infix_rfl
  | p :: q :: pieces, h => by
    rw [List.intercalate_cons_cons]
    rcases List.mem_cons.mp h with rfl | h
    · rw [List.append_assoc]
      exact (List.prefix_append ..).isInfix
    · exact (infix_intercalate_of_mem h).trans (List.suffix_append ..).isInfix

/-- A piece stands in the list as it is. -/
theorem infix_of_mem_splitOn (h : piece ∈ l.splitOn sep) : piece <:+: l := by
  have hin := @infix_intercalate_of_mem _ [sep] _ _ h
  rwa [List.intercalate_splitOn] at hin

/-- A piece never contains the separator. -/
theorem notMem_of_mem_splitOn (h : piece ∈ l.splitOn sep) : sep ∉ piece := by
  induction l generalizing piece with
  | nil =>
    rw [List.splitOn_nil, List.mem_singleton] at h
    exact h ▸ List.not_mem_nil
  | cons a l ih =>
    obtain ⟨p, ps, hps⟩ := List.exists_cons_of_ne_nil (List.splitOn_ne_nil sep l)
    rw [List.splitOn_cons_eq_if_modifyHead, hps, List.modifyHead_cons] at h
    rw [hps] at ih
    split at h
    next =>
      obtain rfl | h := List.mem_cons.mp h
      · exact List.not_mem_nil
      · exact ih h
    next ha =>
      obtain rfl | h := List.mem_cons.mp h
      · exact List.not_mem_cons_of_ne_of_not_mem (fun heq => ha (heq ▸ beq_self_eq_true _))
          (ih List.mem_cons_self)
      · exact ih (List.mem_cons_of_mem _ h)

/-- An element of a piece is an element of the list other than the separator. -/
theorem mem_splitOn (h : piece ∈ l.splitOn sep) (hx : x ∈ piece) : x ∈ l ∧ x ≠ sep :=
  ⟨(infix_of_mem_splitOn h).subset hx, fun heq => notMem_of_mem_splitOn h (heq ▸ hx)⟩

end

/-- Splitting commutes with a map that sends exactly the separator to the new
separator. -/
theorem splitOn_map {β : Type} [BEq β] [LawfulBEq β] {f : α → β} {sep : α} {sep' : β}
    (hf : ∀ a, f a = sep' ↔ a = sep) :
    ∀ l : List α, (l.map f).splitOn sep' = (l.splitOn sep).map (List.map f)
  | [] => rfl
  | a :: l => by
    rw [List.map_cons, List.splitOn_cons_eq_if_modifyHead, List.splitOn_cons_eq_if_modifyHead,
      splitOn_map hf l]
    by_cases ha : a = sep
    · rw [if_pos (by simpa using (hf a).mpr ha), if_pos (by simpa using ha)]
      rfl
    · rw [if_neg (by simpa [hf a] using ha), if_neg (by simpa using ha)]
      cases l.splitOn sep <;> rfl

/-- A piece between two separators, or after the last one. -/
theorem mem_splitOn_of_sep {sep : α} (pre : List α) {piece rest : List α} (hpiece : sep ∉ piece)
    (hrest : rest = [] ∨ ∃ tail, rest = sep :: tail) :
    piece ∈ (pre ++ sep :: (piece ++ rest)).splitOn sep := by
  rw [List.splitOn_append_cons_self]
  refine List.mem_append_right _ ?_
  have hsingle : piece.splitOn sep = [piece] := List.splitOn_eq_singleton hpiece
  obtain rfl | ⟨tail, rfl⟩ := hrest
  · rw [List.append_nil, hsingle]
    exact List.mem_singleton_self _
  · rw [List.splitOn_append_cons_self, hsingle]
    exact List.mem_append_left _ (List.mem_singleton_self _)

omit [BEq α] [LawfulBEq α] in
theorem intercalate_cons_cons {sep : α} (l : List α) {ls : List (List α)} (h : ls ≠ []) :
    [sep].intercalate (l :: ls) = l ++ sep :: [sep].intercalate ls := by
  rw [List.intercalate_cons_of_ne_nil h, List.append_assoc, List.singleton_append]

omit [BEq α] [LawfulBEq α] in
/-- An element of a joined list is the separator or an element of a piece. -/
theorem mem_intercalate {sep x : α} :
    ∀ {ls : List (List α)}, x ∈ [sep].intercalate ls → x = sep ∨ ∃ l ∈ ls, x ∈ l
  | [], h => absurd h List.not_mem_nil
  | [l], h => Or.inr ⟨l, List.mem_singleton.mpr rfl, by simpa using h⟩
  | l :: l' :: ls, h => by
    rw [intercalate_cons_cons l (by simp)] at h
    rcases List.mem_append.mp h with h | h
    · exact Or.inr ⟨l, List.mem_cons_self, h⟩
    rcases List.mem_cons.mp h with h | h
    · exact Or.inl h
    rcases mem_intercalate h with h | ⟨m, hm, h⟩
    · exact Or.inl h
    · exact Or.inr ⟨m, List.mem_cons_of_mem _ hm, h⟩

end OpenShell
