import OpenShell.Util.Bytes
import OpenShell.Util.Search

/-!
# Lines that end in CR LF

A head of lines is the lines with their ends, then an empty line. Splitting at
CR LF and ending lines with it are inverse (`terminated_splitLines`), and the
first double CR LF of a text is where the first empty line behind its first line
stands (`splitLines_of_head`).
-/

namespace OpenShell

def crlf : Bytes := [0x0D, 0x0A]

/-- `str::split("\r\n")`. -/
def splitLines : Bytes → List Bytes
  | [] => [[]]
  | [b] => [[b]]
  | b :: c :: rest =>
    if b == 0x0D && c == 0x0A then [] :: splitLines rest
    else (splitLines (c :: rest)).modifyHead (b :: ·)

/-- Lines, each with its end. -/
def terminated (lines : List Bytes) : Bytes := lines.flatMap (· ++ crlf)

/-- No line ends inside. -/
def NoCrlf (l : Bytes) : Prop := ∀ i, ¬ crlf <+: l.drop i

theorem crlf_prefix_iff {l : Bytes} : crlf <+: l ↔ ∃ rest, l = 0x0D :: 0x0A :: rest := by
  constructor
  · rintro ⟨rest, rfl⟩
    exact ⟨rest, rfl⟩
  · rintro ⟨rest, rfl⟩
    exact ⟨rest, rfl⟩

/-! ## Splitting -/

theorem splitLines_ne_nil (s : Bytes) : splitLines s ≠ [] := by
  fun_induction splitLines s with
  | case1 | case2 | case3 => simp
  | case4 b c rest _ ih =>
    obtain ⟨l, ls, hl⟩ := List.exists_cons_of_ne_nil ih
    rw [hl]
    simp

theorem terminated_cons (l : Bytes) (ls : List Bytes) :
    terminated (l :: ls) = l ++ crlf ++ terminated ls :=
  List.flatMap_cons

theorem terminated_append (a b : List Bytes) : terminated (a ++ b) = terminated a ++ terminated b :=
  List.flatMap_append

/-- The lines of a text, ended, are the text and one more line end. -/
theorem terminated_splitLines (s : Bytes) : terminated (splitLines s) = s ++ crlf := by
  fun_induction splitLines s with
  | case1 | case2 => rfl
  | case3 b c rest hb ih =>
    rw [Bool.and_eq_true, beq_iff_eq, beq_iff_eq] at hb
    rw [terminated_cons, ih, hb.1, hb.2]
    rfl
  | case4 b c rest _ ih =>
    obtain ⟨l, ls, hl⟩ := List.exists_cons_of_ne_nil (splitLines_ne_nil (c :: rest))
    rw [hl] at ih ⊢
    rw [List.modifyHead_cons, terminated_cons, List.cons_append, List.cons_append,
      ← terminated_cons, ih]
    rfl

/-- A line of a text has no line end inside; it stays where it was. -/
theorem noCrlf_of_mem_splitLines {s l : Bytes} (h : l ∈ splitLines s) : NoCrlf l := by
  have hempty : NoCrlf [] :=
    fun i hi => absurd (List.prefix_nil.mp (List.drop_nil ▸ hi)) (by decide)
  fun_induction splitLines s generalizing l with
  | case1 => exact List.mem_singleton.mp h ▸ hempty
  | case2 b =>
    obtain rfl := List.mem_singleton.mp h
    intro i hi
    have hlen := hi.length_le
    simp [crlf] at hlen
    omega
  | case3 b c rest _ ih =>
    rcases List.mem_cons.mp h with rfl | h
    · exact hempty
    · exact ih h
  | case4 b c rest hb ih =>
    obtain ⟨first, ls, hl⟩ := List.exists_cons_of_ne_nil (splitLines_ne_nil (c :: rest))
    rw [hl, List.modifyHead_cons] at h
    rcases List.mem_cons.mp h with rfl | h
    · -- the first line starts with the next byte, or is empty
      have hfirst := ih (hl ▸ List.mem_cons_self)
      intro i hi
      cases i with
      | succ i => exact hfirst i hi
      | zero =>
        obtain ⟨tail, htail⟩ := crlf_prefix_iff.mp hi
        obtain ⟨hhead, htail⟩ := List.cons.inj htail
        have hjoin := terminated_splitLines (c :: rest)
        rw [hl, terminated_cons, htail] at hjoin
        have hc := (List.cons.inj hjoin).1
        exact hb (by simp [hhead, ← hc])
    · exact ih (hl ▸ List.mem_cons_of_mem _ h)

/-- Splitting goes piecewise at a line end. -/
theorem splitLines_append_crlf (rest : Bytes) (s : Bytes) :
    splitLines (s ++ crlf ++ rest) = splitLines s ++ splitLines rest := by
  fun_induction splitLines s with
  | case1 => rfl
  | case2 b =>
    show splitLines (b :: 0x0D :: 0x0A :: rest) = _
    rw [splitLines, if_neg (by simp)]
    rfl
  | case3 b c tail hb ih =>
    show splitLines (b :: c :: (tail ++ crlf ++ rest)) = _
    rw [splitLines, if_pos hb, ih]
    rfl
  | case4 b c tail hb ih =>
    obtain ⟨l, ls, hl⟩ := List.exists_cons_of_ne_nil (splitLines_ne_nil (c :: tail))
    show splitLines (b :: c :: (tail ++ crlf ++ rest)) = _
    rw [splitLines, if_neg hb, show c :: (tail ++ crlf ++ rest) = c :: tail ++ crlf ++ rest from
      rfl, ih, hl]
    rfl

/-! ## The end of a head -/

/-- An empty line behind the first one is a double line end. -/
theorem exists_double_of_empty (first : Bytes) {ls : List Bytes} (h : [] ∈ ls) :
    ∃ i, crlf ++ crlf <+: (terminated (first :: ls)).drop i := by
  obtain ⟨before, after, rfl⟩ := List.append_of_mem h
  obtain ⟨init, last, hlast⟩ : ∃ init last, first :: before = init ++ [last] :=
    ⟨_, _, (List.dropLast_append_getLast (List.cons_ne_nil first before)).symm⟩
  refine ⟨(terminated init ++ last).length, ?_⟩
  have hsplit : terminated (first :: (before ++ [] :: after)) =
      (terminated init ++ last) ++ (crlf ++ crlf ++ terminated after) := by
    rw [← List.cons_append, hlast, terminated_append, terminated_append, terminated_cons,
      terminated_cons]
    simp [terminated]
  rw [hsplit, List.drop_left]
  exact List.prefix_append ..

/-- The lines of a head: up to its double line end, none but the first is empty. -/
theorem splitLines_of_head {raw : Bytes} {stop : Nat} (h : findSub (crlf ++ crlf) raw = some stop) :
    ∃ first ls, splitLines (raw.take (stop + 4)) = first :: ls ++ [[], []] ∧
      NoCrlf first ∧ (∀ l ∈ ls, NoCrlf l ∧ l ≠ []) ∧
      raw.take (stop + 4) = terminated (first :: ls) ++ crlf := by
  obtain ⟨⟨tail, htail⟩, hfirst⟩ := findSub_eq_some.mp h
  have hle : stop ≤ raw.length := by
    have hlen := congrArg List.length htail
    simp [crlf] at hlen
    omega
  have hraw : raw = raw.take stop ++ (crlf ++ crlf ++ tail) := by rw [htail, List.take_append_drop]
  have htake : raw.take (stop + 4) = raw.take stop ++ crlf ++ (crlf ++ []) := by
    have hlen : (raw.take stop ++ crlf ++ crlf).length = stop + 4 := by simp [crlf, hle]
    calc raw.take (stop + 4) = (raw.take stop ++ crlf ++ crlf ++ tail).take (stop + 4) := by
          rw [List.append_assoc, List.append_assoc, ← List.append_assoc crlf, ← hraw]
      _ = raw.take stop ++ crlf ++ crlf := by rw [← hlen, List.take_left]
      _ = raw.take stop ++ crlf ++ (crlf ++ []) := by rw [List.append_nil]
  obtain ⟨first, ls, hlines⟩ := List.exists_cons_of_ne_nil (splitLines_ne_nil (raw.take stop))
  have hjoin := terminated_splitLines (raw.take stop)
  rw [hlines] at hjoin
  refine ⟨first, ls, ?_, ?_, fun l hl => ⟨?_, ?_⟩, ?_⟩
  · rw [htake, splitLines_append_crlf, hlines]
    rfl
  · exact noCrlf_of_mem_splitLines (hlines ▸ List.mem_cons_self)
  · exact noCrlf_of_mem_splitLines (hlines ▸ List.mem_cons_of_mem _ hl)
  · -- an empty line would be an earlier double line end
    rintro rfl
    obtain ⟨i, hi⟩ := exists_double_of_empty first hl
    rw [hjoin] at hi
    have hlen := hi.length_le
    simp [crlf, hle] at hlen
    refine hfirst i (by omega) ?_
    rw [hraw, List.append_assoc, ← List.append_assoc (raw.take stop),
      List.drop_append_of_le_length (by simp [crlf, hle]; omega)]
    exact hi.trans (List.prefix_append ..)
  · rw [htake, hjoin, List.append_nil]

end OpenShell
