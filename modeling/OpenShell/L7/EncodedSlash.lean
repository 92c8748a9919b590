import OpenShell.L7.PathForm

/-!
# Which encoded slashes survive

An encoded slash is the one byte whose presence in the canonical path is decided
by the rest of the request: it is written `%2F` when the endpoint allows it and
its segment is still there after parameters were cut and dot segments resolved.
`SurvivingEncodedSlash` says that of the raw path without running the stack: a
segment is gone exactly when a later `..` climbs above it, which is a matter of
counting. `resolveDotSegments_survivors` ties the count to the stack, position
by position from its top.
-/

namespace OpenShell.L7

/-! ## Encoded slashes of the raw path -/

/-- A character of a raw path: a byte written literally, or through an escape. -/
inductive PathChar
  | literal (b : UInt8)
  | escaped (b : UInt8)
  deriving DecidableEq, Repr

/-- The byte a path character stands for. -/
def PathChar.value : PathChar → UInt8
  | .literal b => b
  | .escaped b => b

/-- Read a raw path character by character; a `%` that starts no escape is read
as it stands. -/
def readPath : Bytes → List PathChar
  | [] => []
  | b :: rest =>
    if b == percent then
      match rest with
      | h :: l :: rest' =>
        match decodeHex h, decodeHex l with
        | some hi, some lo => .escaped ((hi <<< 4) ||| lo) :: readPath rest'
        | _, _ => .literal b :: readPath (h :: l :: rest')
      | rest => .literal b :: readPath rest
    else .literal b :: readPath rest

/-- The segments of the raw path, cut at their parameters where these are
stripped. -/
def readSegments (opts : CanonicalizeOptions) (raw : Bytes) : List (List PathChar) :=
  ((readPath raw).tail.splitOn (.literal slash)).map fun seg =>
    if opts.stripPathParameters then seg.takeWhile (·.value != semicolon) else seg

/-- Whether the segments that follow climb above the place reached `depth`
segments ago: each `..` goes one up, each ordinary segment one down. -/
def climbsAbove : Nat → List Bytes → Bool
  | _, [] => false
  | depth, seg :: rest =>
    if seg == [dot, dot] then
      match depth with
      | 0 => true
      | depth + 1 => climbsAbove depth rest
    else if seg == [dot] || seg.isEmpty then climbsAbove depth rest
    else climbsAbove (depth + 1) rest

/-- Some segment of the raw path holds an encoded slash, and no `..` behind it
takes the segment away. -/
def SurvivingEncodedSlash (opts : CanonicalizeOptions) (raw : Bytes) : Prop :=
  ∃ before seg after, readSegments opts raw = before ++ seg :: after ∧
    .escaped slash ∈ seg ∧ climbsAbove 0 (after.map (·.map PathChar.value)) = false

/-! ## Counting against the stack -/

/-- A split of `x :: l` is at `x` or a split of `l`. -/
theorem exists_split_cons {α : Type} {R : α → List α → Prop} {x : α} {l : List α} :
    (∃ before y after, x :: l = before ++ y :: after ∧ R y after) ↔
      R x l ∨ ∃ before y after, l = before ++ y :: after ∧ R y after := by
  constructor
  · rintro ⟨before, y, after, he, hR⟩
    cases before with
    | nil =>
      obtain ⟨rfl, rfl⟩ := List.cons.inj he
      exact Or.inl hR
    | cons z before => exact Or.inr ⟨before, y, after, (List.cons.inj he).2, hR⟩
  · rintro (hR | ⟨before, y, after, rfl, hR⟩)
    · exact ⟨[], x, l, rfl, hR⟩
    · exact ⟨x :: before, y, after, rfl, hR⟩

/-- Some segment of the stack that satisfies `Q`, counted from the top, is out
of reach of the segments that follow. -/
def OutOfReach (Q : Bytes → Prop) (stack segs : List Bytes) : Prop :=
  ∃ i s, stack.reverse[i]? = some s ∧ Q s ∧ climbsAbove i segs = false

theorem outOfReach_push {Q : Bytes → Prop} {stack segs : List Bytes} {x : Bytes} :
    OutOfReach Q (stack ++ [x]) segs ↔
      (Q x ∧ climbsAbove 0 segs = false) ∨
        ∃ i s, stack.reverse[i]? = some s ∧ Q s ∧ climbsAbove (i + 1) segs = false := by
  unfold OutOfReach
  rw [List.reverse_append, List.reverse_singleton, List.singleton_append, ← Nat.or_exists_add_one]
  simp only [List.getElem?_cons_zero, List.getElem?_cons_succ, Option.some.injEq,
    exists_eq_left']

theorem outOfReach_nil {Q : Bytes → Prop} {stack : List Bytes} :
    OutOfReach Q stack [] ↔ ∃ s ∈ stack, Q s := by
  constructor
  · rintro ⟨i, s, hs, hQ, -⟩
    exact ⟨s, List.mem_reverse.mp (List.mem_of_getElem? hs), hQ⟩
  · rintro ⟨s, hs, hQ⟩
    obtain ⟨i, hi⟩ := List.getElem?_of_mem (List.mem_reverse.mpr hs)
    exact ⟨i, s, hi, hQ, rfl⟩

section

variable {Q : Bytes → Prop} (hQ : ∀ s, Q s → s ≠ [] ∧ s ≠ [dot] ∧ s ≠ [dot, dot])

include hQ

/-- One turn of the loop: what is out of reach of the remaining segments is what
was out of reach before, and the segment just read if it is. -/
theorem resolveSegment_survivors {stack stack' rest : List Bytes} {seg : Bytes}
    (h : resolveSegment rest.isEmpty stack seg = .ok stack') :
    OutOfReach Q stack' rest ↔
      OutOfReach Q stack (seg :: rest) ∨ (Q seg ∧ climbsAbove 0 rest = false) := by
  have hnil : ¬ Q [] := fun h => (hQ [] h).1 rfl
  unfold resolveSegment at h
  split at h
  next hdd =>
    have hdd : seg = [dot, dot] := by simpa using hdd
    have hseg : ¬ Q seg := fun h => (hQ seg h).2.2 hdd
    obtain ⟨hne, h⟩ := else_of_ite h nofun
    -- `..` pops: position `i + 1` of the old stack is position `i` of the new one
    obtain ⟨low, top, rfl⟩ : ∃ low top, stack = low ++ [top] :=
      ⟨_, _, (List.dropLast_concat_getLast (by simpa using hne)).symm⟩
    have hstep : OutOfReach Q (low ++ [top]) (seg :: rest) ↔ OutOfReach Q low rest := by
      rw [outOfReach_push]
      simp [climbsAbove, hdd, OutOfReach]
    rw [hstep, or_iff_left (fun h => hseg h.1), ← Except.ok.inj h, List.dropLast_concat]
    split
    next hlast =>
      rw [List.isEmpty_iff.mp hlast, outOfReach_nil, outOfReach_nil]
      simp [hnil]
    next => rfl
  next hdd =>
    have hdd : seg ≠ [dot, dot] := by simpa using hdd
    have hskip : ∀ i, seg = [dot] ∨ seg = [] →
        climbsAbove i (seg :: rest) = climbsAbove i rest := by
      rintro i (rfl | rfl) <;> rfl
    split at h
    next hd =>
      have hd : seg = [dot] := by simpa using hd
      have hseg : ¬ Q seg := fun h => (hQ seg h).2.1 hd
      have hstep : OutOfReach Q stack (seg :: rest) ↔ OutOfReach Q stack rest := by
        unfold OutOfReach
        simp only [hskip _ (Or.inl hd)]
      rw [hstep, or_iff_left (fun h => hseg h.1), ← Except.ok.inj h]
      split
      next hlast =>
        rw [List.isEmpty_iff.mp hlast, outOfReach_nil, outOfReach_nil]
        simp [hnil]
      next => rfl
    next hd =>
      have hd : seg ≠ [dot] := by simpa using hd
      by_cases he : seg = []
      · have hseg : ¬ Q seg := fun h => (hQ seg h).1 he
        have hstep : OutOfReach Q stack (seg :: rest) ↔ OutOfReach Q stack rest := by
          unfold OutOfReach
          simp only [hskip _ (Or.inr he)]
        rw [hstep, or_iff_left (fun h => hseg h.1)]
        split at h
        next => rw [← Except.ok.inj h]
        next hlast =>
          have hrest : rest = [] := by simpa [he] using hlast
          rw [← Except.ok.inj h, hrest, outOfReach_nil, outOfReach_nil]
          simp [hseg]
      · -- an ordinary segment is pushed: every older position moves one down
        have hdown : ∀ i, climbsAbove i (seg :: rest) = climbsAbove (i + 1) rest := by
          intro i
          rw [climbsAbove.eq_def]
          dsimp only
          rw [if_neg (by simpa using hdd), if_neg (by simp [hd, he])]
        rw [if_neg (by simp [he])] at h
        rw [← Except.ok.inj h, outOfReach_push, OutOfReach]
        simp only [hdown]
        exact or_comm

/-- **What the loop keeps.** A segment with `Q` is in the result exactly when it
was on the stack or among the segments read and nothing behind it climbs above
it. -/
theorem resolveDotSegments_survivors :
    ∀ (segs : List Bytes) {stack out : List Bytes}, resolveDotSegments stack segs = .ok out →
      ((∃ s ∈ out, Q s) ↔ OutOfReach Q stack segs ∨
        ∃ before seg after, segs = before ++ seg :: after ∧
          (Q seg ∧ climbsAbove 0 after = false)) := by
  intro segs
  induction segs with
  | nil =>
    intro stack out h
    cases h
    rw [outOfReach_nil, or_iff_left]
    rintro ⟨before, seg, after, he, -⟩
    simp at he
  | cons seg rest ih =>
    intro stack out h
    obtain ⟨stack', hstep, hrest⟩ := bind_eq_ok h
    rw [ih hrest, exists_split_cons, resolveSegment_survivors hQ hstep, or_assoc]

end

/-! ## Reading the path and decoding it -/

/-- The decoded byte of a character: its value, with the sentinel for an escaped
slash. -/
def PathChar.decoded : PathChar → UInt8
  | .literal b => b
  | .escaped b => if b == slash then encodedSlashSentinel else b

theorem escapedByte_decoded {allow : Bool} {b c : UInt8} (h : escapedByte allow b = .ok c) :
    c = (PathChar.escaped b).decoded ∧ b ≠ encodedSlashSentinel := by
  unfold escapedByte at h
  split at h
  next hsl =>
    have hsl : b = slash := by simpa using hsl
    obtain ⟨-, h⟩ := else_of_ite h nofun
    exact ⟨by rw [← Except.ok.inj h, hsl]; rfl, by rw [hsl]; decide⟩
  next hsl =>
    obtain ⟨hctl, h⟩ := else_of_ite h nofun
    obtain ⟨-, h⟩ := else_of_ite h nofun
    refine ⟨by rw [← Except.ok.inj h, PathChar.decoded, if_neg hsl], ?_⟩
    rintro rfl
    exact hctl (by decide)

/-- An accepted path decodes character by character, and holds no control byte
that could be taken for the sentinel. -/
theorem decode_readPath {allow : Bool} :
    ∀ (raw : Bytes) {out : Bytes}, percentDecodeWithSentinel allow raw = .ok out →
      out = (readPath raw).map PathChar.decoded ∧
        ∀ u ∈ readPath raw, u.value ≠ encodedSlashSentinel := by
  intro raw
  fun_induction percentDecodeWithSentinel allow raw with
  | case1 =>
    intro out h
    cases h
    exact ⟨rfl, fun u hu => absurd hu List.not_mem_nil⟩
  | case3 b hsen hpct h l rest' hi lo hhi hlo ih =>
    intro out hok
    obtain ⟨c, hc, hok⟩ := bind_eq_ok hok
    obtain ⟨tail, htail, rfl⟩ := map_eq_ok hok
    obtain ⟨rfl, hne⟩ := escapedByte_decoded hc
    obtain ⟨rfl, hvals⟩ := ih htail
    have hread : readPath (b :: h :: l :: rest')
        = .escaped ((hi <<< 4) ||| lo) :: readPath rest' := by
      rw [readPath, if_pos hpct]
      simp only [hhi, hlo]
    rw [hread]
    exact ⟨rfl, List.forall_mem_cons.mpr ⟨hne, hvals⟩⟩
  | case6 c rest hsen hpct ih =>
    intro out hok
    obtain ⟨tail, htail, rfl⟩ := map_eq_ok hok
    obtain ⟨rfl, hvals⟩ := ih htail
    have hread : readPath (c :: rest) = .literal c :: readPath rest := by
      rw [readPath.eq_def]
      dsimp only
      rw [if_neg hpct]
    rw [hread]
    have hc : c ≠ encodedSlashSentinel := by simpa using hsen
    exact ⟨rfl, List.forall_mem_cons.mpr ⟨hc, hvals⟩⟩
  | case2 | case4 | case5 => intro out h; cases h

theorem decoded_eq_slash (u : PathChar) : u.decoded = slash ↔ u = .literal slash := by
  cases u with
  | literal b => simp [PathChar.decoded]
  | escaped b =>
    simp only [PathChar.decoded, reduceCtorEq, iff_false]
    split
    next => decide
    next hb => simpa using hb

/-- Away from the slash, decoding reads the value. -/
theorem decoded_eq_iff {b : UInt8} (hsl : b ≠ slash) (hsen : b ≠ encodedSlashSentinel)
    (u : PathChar) : u.decoded = b ↔ u.value = b := by
  cases u with
  | literal c => rfl
  | escaped c =>
    simp only [PathChar.decoded, PathChar.value]
    split
    next hc =>
      have hc : c = slash := by simpa using hc
      exact ⟨fun h => absurd h.symm hsen, fun h => absurd (h.symm.trans hc) hsl⟩
    next => rfl

/-- A decoded segment is a dot segment exactly when its values are. -/
theorem map_decoded_eq_dots (n : Nat) (seg : List PathChar) :
    seg.map PathChar.decoded = List.replicate n dot ↔
      seg.map PathChar.value = List.replicate n dot := by
  have hdot := decoded_eq_iff (b := dot) (by decide) (by decide)
  simp only [List.eq_replicate_iff, List.length_map, List.forall_mem_map, hdot]

theorem climbsAbove_decoded :
    ∀ (depth : Nat) (segs : List (List PathChar)),
      climbsAbove depth (segs.map (·.map PathChar.decoded))
        = climbsAbove depth (segs.map (·.map PathChar.value)) := by
  intro depth segs
  induction segs generalizing depth with
  | nil => rfl
  | cons seg rest ih =>
    have h2 : (seg.map PathChar.decoded == [dot, dot]) =
        (seg.map PathChar.value == [dot, dot]) := by
      rw [Bool.eq_iff_iff, beq_iff_eq, beq_iff_eq]
      exact map_decoded_eq_dots 2 seg
    have h1 : (seg.map PathChar.decoded == [dot]) = (seg.map PathChar.value == [dot]) := by
      rw [Bool.eq_iff_iff, beq_iff_eq, beq_iff_eq]
      exact map_decoded_eq_dots 1 seg
    have h0 : (seg.map PathChar.decoded).isEmpty = (seg.map PathChar.value).isEmpty := by simp
    simp only [List.map_cons, climbsAbove.eq_def depth (_ :: _), h2, h1, h0]
    cases depth with
    | zero => simp only [ih]
    | succ depth => simp only [ih]

variable {opts : CanonicalizeOptions}

/-- The segments the loop reads are the raw segments, decoded. -/
theorem decoded_segments {raw decoded : Bytes}
    (h : percentDecodeWithSentinel opts.allowEncodedSlash raw = .ok decoded) :
    (if opts.stripPathParameters = true
      then (splitPathSegments decoded).map stripPathParameters else splitPathSegments decoded)
      = (readSegments opts raw).map (·.map PathChar.decoded) := by
  obtain ⟨rfl, -⟩ := decode_readPath raw h
  have hsplit : splitPathSegments ((readPath raw).map PathChar.decoded)
      = ((readPath raw).tail.splitOn (.literal slash)).map (·.map PathChar.decoded) := by
    rw [splitPathSegments, ← List.map_tail, splitOn_map decoded_eq_slash]
  have hsemi : (fun u : PathChar => u.decoded != semicolon) = fun u => u.value != semicolon := by
    funext u
    rw [Bool.eq_iff_iff, bne_iff_ne, bne_iff_ne]
    exact not_congr (decoded_eq_iff (by decide) (by decide) u)
  rw [hsplit, readSegments, List.map_map, List.map_map]
  split
  next =>
    apply List.map_congr_left
    intro seg _
    rw [Function.comp_apply, Function.comp_apply, stripPathParameters, List.takeWhile_map,
      ← hsemi]
    rfl
  next => rfl

/-- A character of a segment is a character of the path. -/
theorem mem_readSegments {raw : Bytes} {seg : List PathChar}
    {u : PathChar} (hseg : seg ∈ readSegments opts raw) (hu : u ∈ seg) : u ∈ readPath raw := by
  obtain ⟨piece, hp, rfl⟩ := List.mem_map.mp hseg
  have hu : u ∈ piece := by
    split at hu
    next => exact List.takeWhile_subset _ hu
    next => exact hu
  exact List.mem_of_mem_tail (mem_splitOn hp hu).1

/-- **Survival.** The segments of an accepted path hold the sentinel exactly
when an encoded slash of the raw path survives. -/
theorem canonicalSegments_sentinel {raw : Bytes} {segs : List Bytes}
    (h : canonicalSegments opts raw = .ok segs) :
    (∃ seg ∈ segs, encodedSlashSentinel ∈ seg) ↔ SurvivingEncodedSlash opts raw := by
  obtain ⟨decoded, hdec, h⟩ := bind_eq_ok h
  obtain ⟨resolved, hres, h⟩ := bind_eq_ok h
  obtain ⟨-, h⟩ := rejectIf_bind.mp h
  cases h
  rw [decoded_segments hdec] at hres
  have hQ : ∀ s : Bytes, encodedSlashSentinel ∈ s → s ≠ [] ∧ s ≠ [dot] ∧ s ≠ [dot, dot] := by
    intro s hs
    refine ⟨?_, ?_, ?_⟩ <;> rintro rfl <;> exact absurd hs (by decide)
  have hmem : ∀ seg ∈ readSegments opts raw,
      (encodedSlashSentinel ∈ seg.map PathChar.decoded ↔ .escaped slash ∈ seg) := by
    intro seg hseg
    have hvals := (decode_readPath raw hdec).2
    constructor
    · intro hs
      obtain ⟨u, hu, hue⟩ := List.mem_map.mp hs
      have hval := hvals u (mem_readSegments hseg hu)
      cases u with
      | literal b => exact absurd hue hval
      | escaped b =>
        rw [PathChar.decoded] at hue
        split at hue
        next hb => rwa [beq_iff_eq.mp hb] at hu
        next => exact absurd hue hval
    · exact fun hs => List.mem_map.mpr ⟨_, hs, rfl⟩
  rw [resolveDotSegments_survivors hQ _ hres, or_iff_right (by rintro ⟨i, s, hs, -⟩; simp at hs)]
  constructor
  · rintro ⟨before, seg, after, he, hsen, hclimb⟩
    obtain ⟨before, rest, hread, rfl, hrest⟩ := List.map_eq_append_iff.mp he
    obtain ⟨seg, after, rfl, rfl, rfl⟩ := List.map_eq_cons_iff.mp hrest
    refine ⟨before, seg, after, hread, ?_, ?_⟩
    · exact (hmem seg (by rw [hread]; simp)).mp hsen
    · rw [← climbsAbove_decoded]
      exact hclimb
  · rintro ⟨before, seg, after, he, hsl, hclimb⟩
    refine ⟨before.map (·.map PathChar.decoded), seg.map PathChar.decoded,
      after.map (·.map PathChar.decoded), by rw [he]; simp, ?_, ?_⟩
    · exact (hmem seg (by rw [he]; simp)).mpr hsl
    · rw [climbsAbove_decoded]
      exact hclimb

end OpenShell.L7
