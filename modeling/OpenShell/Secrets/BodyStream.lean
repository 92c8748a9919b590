import OpenShell.Secrets.Decoders

/-!
# A body through its guard, piece by piece

A body arrives in pieces of any size. After each one the guard lets go what can no
longer belong to a token and keeps the rest. `Streamed` is what holds after every
piece: nothing is lost, changed or moved; what is kept is bounded by one token; and
no escape is cut, so the guard goes on exactly where the decoding of the whole body
stands, with the decoded byte before it. The last field is what makes the checks on
a piece speak about the body.
-/

namespace OpenShell.Secrets

/-! ## Pushing and finishing -/

/-- `slice::chunks(MAX_BODY_TOKEN_BYTES)`, at most `fuel` of them. -/
def bodyBlocks : Nat → Bytes → List Bytes
  | 0, _ => []
  | fuel + 1, bytes =>
    if bytes = [] then [] else bytes.take maxBodyTokenBytes :: bodyBlocks fuel
      (bytes.drop maxBodyTokenBytes)

namespace BodyPlaceholderGuard

def new (classifier : Option BodyCredentialClassifier) : BodyPlaceholderGuard :=
  ⟨[], classifier, none⟩

/-- One round of `push`: take in a block and append what is let go. -/
def pushBlock (now : Int) (out : Bytes × BodyPlaceholderGuard) (block : Bytes) :
    Except BodyCredentialError (Bytes × BodyPlaceholderGuard) := do
  let released ← release { out.2 with pending := out.2.pending ++ block } now false
  return (out.1 ++ released.1, released.2)

def push (g : BodyPlaceholderGuard) (now : Int) (bytes : Bytes) :
    Except BodyCredentialError (Bytes × BodyPlaceholderGuard) :=
  (bodyBlocks bytes.length bytes).foldlM (pushBlock now) ([], g)

def finish (g : BodyPlaceholderGuard) (now : Int) : Except BodyCredentialError Bytes := do
  let released ← g.release now true
  return released.1

/-- What went on and the guard, after the pieces of a body that have come so far, each
with the time of its arrival. -/
def pushAll (classifier : Option BodyCredentialClassifier) (pieces : List (Int × Bytes)) :
    Except BodyCredentialError (Bytes × BodyPlaceholderGuard) :=
  pieces.foldlM (fun out piece => do
    let released ← out.2.push piece.1 piece.2
    return (out.1 ++ released.1, released.2)) ([], new classifier)

end BodyPlaceholderGuard

/-- What a guard has let go and keeps, for what it has received. -/
structure Streamed (received released : Bytes) (g : BodyPlaceholderGuard) : Prop where
  whole : released ++ g.pending = received
  bounded : g.pending.length ≤ maxBodyTokenBytes + 4
  /-- Whatever still comes, the body decodes to what the guard has seen and the decoding of the
  rest. -/
  view : ∃ seen : Bytes, g.previousDecoded = seen.getLast? ∧
    ∀ rest, standardDecode (received ++ rest) = seen ++ standardDecode (g.pending ++ rest)

/-! ## Units of the wire -/

theorem standardDecode_cons_of_ne {b : UInt8} (h : b ≠ 0x25) (s : Bytes) :
    standardDecode (b :: s) = b :: standardDecode s := by
  rcases s with _ | ⟨c, _ | ⟨d, rest⟩⟩ <;> simp [standardDecode, h]

theorem wireOffset_cons (u : UInt8 × Nat) (units : List (UInt8 × Nat)) (i : Nat) :
    wireOffset (u :: units) (i + 1) = u.2 + wireOffset units i := rfl

variable {p : Bytes} {u : UInt8 × Nat} {units : List (UInt8 × Nat)}

/-- A cut between two units cuts the decoding, whatever comes later. -/
theorem standardDecode_cut (i : Nat) (rest : Bytes) :
    standardDecode (p ++ rest) = ((decodeUnits false p).take i).map Prod.fst ++
      standardDecode (p.drop (wireOffset (decodeUnits false p) i) ++ rest) := by
  fun_induction decodeUnits false p generalizing i with
  | case1 | case2 | case4 => simp [wireOffset, wireLength]
  | case3 b hb =>
    have hne : b ≠ 0x25 := by simpa using hb
    cases i <;> simp [wireOffset, wireLength, standardDecode_cons_of_ne hne]
  | case5 b c hb =>
    have hne : b ≠ 0x25 := by simpa using hb
    rcases i with _ | _ | i <;> split <;> simp_all
      [wireOffset, wireLength, standardDecode_cons_of_ne]
  | case6 b high low tail hb _ hpair ih
  | case7 b high low tail hb hpair ih =>
    cases i with
    | zero => rfl
    | succ i =>
      simpa [standardDecode, hb, hpair, wireOffset_cons, Nat.add_comm 3, Nat.add_comm 1] using ih i
  | case8 b high low tail hb ih =>
    cases i with
    | zero => rfl
    | succ i => simpa [standardDecode, hb, wireOffset_cons, Nat.add_comm 1] using ih i

/-- All but an undecided escape is in some unit. -/
theorem length_le_wireLength (eof : Bool) (p : Bytes) :
    p.length ≤ wireLength (decodeUnits eof p) + if eof then 0 else 2 := by
  fun_induction decodeUnits eof p with
  | _ => cases eof <;> simp_all [wireLength] <;> omega

theorem unit_size_le {eof : Bool} (h : u ∈ decodeUnits eof p) : u.2 ≤ 3 := by
  fun_induction decodeUnits eof p with
  | _ => grind

namespace BodyPlaceholderGuard

theorem unitsBefore_eq_count (units : List (UInt8 × Nat)) (safe : Nat) :
    unitsBefore units safe = Nat.count (fun i => wireOffset units (i + 1) ≤ safe) units.length := by
  rw [unitsBefore, ← List.countP_eq_length_filter]
  change Nat.count (fun i => wireOffset units i ≤ safe) (units.length + 1) - 1 = _
  rw [Nat.count_succ', if_pos (show wireOffset units 0 ≤ safe from Nat.zero_le safe),
    Nat.add_sub_cancel]

theorem unitsBefore_cons (u : UInt8 × Nat) (units : List (UInt8 × Nat)) (safe : Nat) :
    unitsBefore (u :: units) safe = if u.2 ≤ safe then unitsBefore units (safe - u.2) + 1
      else 0 := by
  rw [unitsBefore_eq_count]
  change Nat.count (fun i => u.2 + wireOffset units i ≤ safe) (units.length + 1) = _
  split
  next hle =>
    rw [Nat.count_succ', if_pos (show u.2 + wireOffset units 0 ≤ safe from hle),
      unitsBefore_eq_count]
    simp only [Nat.le_sub_iff_add_le' hle]
  next hlt => exact Nat.count_of_forall_not fun i _ hi => hlt (by omega)

/-- The boundary before an offset is the end, or at most two bytes away: an escape takes three. -/
theorem wireOffset_unitsBefore (safe : Nat) (hsize : ∀ u ∈ units, u.2 ≤ 3) :
    wireOffset units (unitsBefore units safe) = wireLength units ∨
      safe < wireLength units ∧ safe ≤ wireOffset units (unitsBefore units safe) + 2 := by
  induction units generalizing safe with
  | nil => exact Or.inl rfl
  | cons u units ih =>
    have hwire : wireLength (u :: units) = u.2 + wireLength units := rfl
    have hu := hsize u List.mem_cons_self
    rw [unitsBefore_cons]
    split
    · have hrest := ih (safe - u.2) fun v hv => hsize v (List.mem_cons_of_mem _ hv)
      rw [wireOffset_cons]
      omega
    · omega

/-! ## One release -/

variable {g : BodyPlaceholderGuard} {now : Int} {eof : Bool}

/-- The scan lets all go but an unfinished token, which is no longer than a token may be. -/
theorem scan_bounds {fuel pos safe result : Nat}
    (h : g.scan now units eof fuel pos safe = .ok result)
    (hsafe : wireLength units ≤ safe + maxBodyTokenBytes) :
    wireLength units ≤ result + maxBodyTokenBytes ∧ (eof = true → safe ≤ result) := by
  induction fuel generalizing pos safe with
  | zero =>
    cases h
    exact ⟨hsafe, fun _ => le_rfl⟩
  | succ fuel ih =>
    unfold scan at h
    dsimp only at h
    split at h
    next =>
      split at h
      next => exact ih h hsafe
      next =>
        obtain ⟨hshort, h⟩ := else_of_ite h nofun
        generalize (if placeholderPrefix.isPrefixOf ((units.map (·.1)).drop pos) = true then
          placeholderPrefix.length
          else providerAliasMarker.length) = markerLength at h hshort
        split at h
        next hend =>
          obtain ⟨-, h⟩ := else_of_ite h nofun
          cases h
          simp only [Bool.and_eq_true, decide_eq_true_eq, Bool.not_eq_true'] at hend
          rw [hend.1, List.length_map, wireOffset, List.take_length] at hshort
          exact ⟨by omega, fun heof => absurd heof (by simp [hend.2])⟩
        next =>
          obtain ⟨-, h⟩ := else_of_ite h nofun
          obtain ⟨_, -, h⟩ := bind_eq_ok h
          obtain ⟨hwire, hle⟩ := ih h (by omega)
          exact ⟨hwire, fun heof => le_trans (le_max_left _ _) (hle heof)⟩
    next =>
      cases h
      exact ⟨hsafe, fun _ => le_rfl⟩

variable {result : Bytes × BodyPlaceholderGuard}

/-- A release cuts what is pending between two units, at the end if the body has ended. -/
theorem release_eq_ok (h : g.release now eof = .ok result) :
    let units := decodeUnits eof g.pending
    ∃ index ≤ units.length,
      result = (g.pending.take (wireOffset units index),
        { g with
          pending := g.pending.drop (wireOffset units index)
          previousDecoded :=
            if index > 0 then (units.map (·.1))[index - 1]? else g.previousDecoded }) ∧
      g.pending.length ≤ wireOffset units index + if eof then 0 else maxBodyTokenBytes + 4 := by
  obtain ⟨safe, hscan, rfl⟩ := bind_ok_eq_ok h
  refine ⟨unitsBefore (decodeUnits eof g.pending) safe,
    unitsBefore_eq_count _ _ ▸ Nat.count_le _, rfl, ?_⟩
  have htail : credentialMarkerScanTailBytes ≤ maxBodyTokenBytes := by decide
  have hdecoded := length_le_wireLength eof g.pending
  have hboundary := wireOffset_unitsBefore safe fun u (hu : u ∈ decodeUnits eof g.pending) =>
    unit_size_le hu
  obtain ⟨hscanned, hend⟩ := scan_bounds hscan (by split <;> omega)
  -- at the end the boundary is the end; before it, a token and two incomplete escapes may be left
  cases eof <;> simp_all <;> omega

variable {received released : Bytes}

/-- In the middle of a body, the boundary a release stops at is one of the decoding. -/
theorem streamed_release {block : Bytes} (hg : Streamed received released g)
    (h : release { g with pending := g.pending ++ block } now false = .ok result) :
    Streamed (received ++ block) (released ++ result.1) result.2 := by
  obtain ⟨index, hindex, rfl, hkept⟩ := release_eq_ok h
  dsimp only at hindex hkept ⊢
  obtain ⟨seen, hprevious, hview⟩ := hg.view
  refine ⟨?_, ?_, seen ++ ((decodeUnits false (g.pending ++ block)).take index).map Prod.fst, ?_,
    fun rest => ?_⟩
  · rw [List.append_assoc, List.take_append_drop, ← List.append_assoc, hg.whole]
  · rw [List.length_drop, Nat.sub_le_iff_le_add, Nat.add_comm]
    exact hkept
  · cases index with
    | zero => simp [hprevious]
    | succ i =>
      have hi : i < (decodeUnits false (g.pending ++ block)).length := hindex
      simp [List.map_take, List.getLast?_append, List.getLast?_take, hi]
  · rw [List.append_assoc received, hview, ← List.append_assoc, standardDecode_cut index,
      List.append_assoc]

/-- At the end of the body all that was kept goes. -/
theorem finish_eq_pending {rest : Bytes} (h : g.finish now = .ok rest) : rest = g.pending := by
  obtain ⟨_, hrelease, rfl⟩ := bind_ok_eq_ok h
  obtain ⟨index, -, rfl, hall⟩ := release_eq_ok hrelease
  exact List.take_of_length_le hall

/-! ## The whole body -/

theorem flatten_bodyBlocks {fuel : Nat} {bytes : Bytes} (h : bytes.length ≤ fuel) :
    (bodyBlocks fuel bytes).flatten = bytes := by
  induction fuel generalizing bytes with
  | zero => rw [List.eq_nil_of_length_eq_zero (Nat.le_zero.mp h), bodyBlocks, List.flatten_nil]
  | succ fuel ih =>
    rw [bodyBlocks]
    split
    next hnil => exact hnil.symm
    next hne =>
      have hpos := List.length_pos_iff.mpr hne
      have hblock : 0 < maxBodyTokenBytes := by decide
      rw [List.flatten_cons, ih (by rw [List.length_drop]; omega), List.take_append_drop]

/-- What every round of a loop over parts of the body keeps, the loop keeps. -/
theorem streamed_foldlM {ι : Type} (bytesOf : ι → Bytes)
    {step : Bytes × BodyPlaceholderGuard → ι →
      Except BodyCredentialError (Bytes × BodyPlaceholderGuard)}
    (hstep : ∀ {received out item next}, Streamed received (released ++ out.1) out.2 →
      step out item = .ok next → Streamed (received ++ bytesOf item) (released ++ next.1) next.2)
    {items : List ι} {out : Bytes × BodyPlaceholderGuard}
    (hout : Streamed received (released ++ out.1) out.2) (h : items.foldlM step out = .ok result) :
    Streamed (received ++ (items.map bytesOf).flatten) (released ++ result.1) result.2 := by
  induction items generalizing received out with
  | nil =>
    cases h
    simpa using hout
  | cons item items ih =>
    rw [List.foldlM_cons] at h
    obtain ⟨next, hnext, h⟩ := bind_eq_ok h
    simpa using ih (hstep hout hnext) h

theorem streamed_push {bytes : Bytes} (hg : Streamed received released g)
    (h : g.push now bytes = .ok result) :
    Streamed (received ++ bytes) (released ++ result.1) result.2 := by
  have hblocks := streamed_foldlM id (fun hout hblock => ?_) (by simpa using hg) h
  · rwa [List.map_id, flatten_bodyBlocks le_rfl] at hblocks
  · obtain ⟨_, hrelease, rfl⟩ := bind_ok_eq_ok hblock
    simpa using streamed_release hout hrelease

/-- **Streaming is faithful.** However a body is cut and whenever its pieces arrive, as long
as no piece is refused: what went on and what is kept is the body so far, the rest is
bounded and starts where the decoding of the whole body stands, and a successful
end hands the body on byte for byte. -/
theorem streamed_pushAll {classifier : Option BodyCredentialClassifier}
    {pieces : List (Int × Bytes)}
    {out : Bytes × BodyPlaceholderGuard} (h : pushAll classifier pieces = .ok out) :
    Streamed (pieces.map (·.2)).flatten out.1 out.2 ∧
      ∀ now rest, out.2.finish now = .ok rest → out.1 ++ rest = (pieces.map (·.2)).flatten := by
  have hnew : Streamed [] ([] ++ []) (new classifier) := ⟨rfl, Nat.zero_le _, [], rfl, fun _ => rfl⟩
  have hall := streamed_foldlM Prod.snd (fun hout hpiece => ?_) hnew h
  · refine ⟨hall, fun now rest hrest => ?_⟩
    rw [finish_eq_pending hrest]
    exact hall.whole
  · obtain ⟨_, hpush, rfl⟩ := bind_ok_eq_ok hpiece
    simpa using streamed_push hout hpush

/-- An escape that arrives in two pieces. -/
theorem streamed_pushAll_escape :
    ∃ out, pushAll none [(0, [0x25]), (5, [0x34, 0x31])] = .ok out ∧
      Streamed [0x25, 0x34, 0x31] out.1 out.2 :=
  (exists_ok_of_isSome (by decide +kernel)).imp fun _ hout => ⟨hout, (streamed_pushAll hout).1⟩

end BodyPlaceholderGuard

end OpenShell.Secrets
