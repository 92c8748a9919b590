import Mathlib.Data.List.TakeWhile
import OpenShell.Util.Text

/-!
# IP addresses

`str::parse::<IpAddr>` with the address it returns, over the number reader of
`OpenShell.Util.Text`. The one fact proved about the texts it accepts is what
they are made of: without a colon, only digits and dots.
-/

namespace OpenShell

/-- `std::net::IpAddr`. -/
inductive IpAddr
  | v4 (bits : BitVec 32)
  | v6 (bits : BitVec 128)
  deriving DecidableEq

/-- `Parser::read_number` with the number it read. -/
def readNumberValue (radix maxDigits limit : Nat) (allowZeroPrefix : Bool) (cs : List Char) :
    Option (Nat × List Char) :=
  (readNumber radix maxDigits limit allowZeroPrefix cs).map fun rest =>
    (digitsValue radix ((cs.takeWhile fun c => (toDigit radix c).isSome).filterMap (toDigit radix)),
      rest)

/-- `Parser::read_separator` in front of a reader with a result. -/
def readAfter {α : Type} (sep : Char) (index : Nat) (inner : List Char → Option α)
    (cs : List Char) : Option α :=
  if index == 0 then inner cs
  else match cs with
    | c :: rest => if c == sep then inner rest else none
    | [] => none

/-- The octets of an IPv4 address still to be read, from position `index`. -/
def readOctets : Nat → Nat → List Char → Option (List Nat × List Char)
  | 0, _, cs => some ([], cs)
  | left + 1, index, cs => do
    let (octet, rest) ← readAfter '.' index (readNumberValue 10 3 256 false) cs
    let (octets, rest) ← readOctets left (index + 1) rest
    return (octet :: octets, rest)

/-- `Parser::read_ipv4_addr`. -/
def readIpv4Addr (cs : List Char) : Option (List Nat × List Char) := readOctets 4 0 cs

/-- `read_groups`: the groups read, whether the last two were an embedded IPv4
address, and the rest. -/
def readGroupValues (limit : Nat) : Nat → List Char → List Nat × Bool × List Char
  | 0, cs => ([], false, cs)
  | left + 1, cs =>
    let i := limit - (left + 1)
    match (if i + 1 < limit then readAfter ':' i readIpv4Addr cs else none) with
    | some (octets, rest) =>
      ([digitsValue 256 (octets.take 2), digitsValue 256 (octets.drop 2)], true, rest)
    | none =>
      match readAfter ':' i (readNumberValue 16 4 65536 true) cs with
      | some (group, rest) =>
        let (groups, ipv4, rest) := readGroupValues limit left rest
        (group :: groups, ipv4, rest)
      | none => ([], false, cs)

/-- `Parser::read_ipv6_addr`: groups, or groups around one `::`. -/
def readIpv6Addr (cs : List Char) : Option (List Nat × List Char) :=
  let (head, headIpv4, rest) := readGroupValues 8 8 cs
  if head.length == 8 then some (head, rest)
  else if headIpv4 then none
  else match rest with
    | ':' :: ':' :: rest =>
      let limit := 8 - (head.length + 1)
      let (tail, _, rest) := readGroupValues limit limit rest
      some (head ++ List.replicate (8 - head.length - tail.length) 0 ++ tail, rest)
    | _ => none

/-- `str::parse::<IpAddr>`. -/
def parseIpAddr (s : String) : Option IpAddr :=
  match readIpv4Addr s.toList with
  | some (octets, rest) =>
    if rest.isEmpty then some (.v4 (BitVec.ofNat 32 (digitsValue 256 octets))) else none
  | none =>
    match readIpv6Addr s.toList with
    | some (groups, rest) =>
      if rest.isEmpty then some (.v6 (BitVec.ofNat 128 (digitsValue 65536 groups))) else none
    | none => none

example : parseIpAddr "10.0.0.1" = some (.v4 0x0A000001#32) := by decide

example : parseIpAddr "fe80::1:2" = some (.v6 0xFE800000000000000000000000010002#128) := by decide

/-! ## What an address without a colon looks like -/

/-- A character of a dotted IPv4 address. -/
def isDottedDigit (c : Char) : Bool := ('0' ≤ c && c ≤ '9') || c == '.'

theorem isDottedDigit_of_toDigit {c : Char} (h : (toDigit 10 c).isSome = true) :
    isDottedDigit c = true := by
  unfold toDigit at h
  unfold isDottedDigit
  by_cases hd : ('0' ≤ c && c ≤ '9') = true
  · rw [hd, Bool.true_or]
  · exfalso
    rw [if_neg hd] at h
    split at h
    next hl =>
      have h97 : 97 ≤ c.toNat := of_decide_eq_true (Bool.and_eq_true_iff.mp hl).1
      simp at h
      omega
    next =>
      split at h
      next hu =>
        have h65 : 65 ≤ c.toNat := of_decide_eq_true (Bool.and_eq_true_iff.mp hu).1
        simp at h
        omega
      next => simp at h

/-- A number reader drops a run of digits. -/
theorem readNumber_eq {radix maxDigits limit : Nat} {allowZeroPrefix : Bool} {cs rest : List Char}
    (h : readNumber radix maxDigits limit allowZeroPrefix cs = some rest) :
    ∃ digits, cs = digits ++ rest ∧ ∀ c ∈ digits, (toDigit radix c).isSome = true := by
  unfold readNumber at h
  dsimp only at h
  obtain ⟨-, h⟩ := Option.ite_none_left_eq_some.mp h
  obtain ⟨-, h⟩ := Option.ite_none_left_eq_some.mp h
  obtain ⟨-, ⟨⟩⟩ := Option.ite_none_left_eq_some.mp h
  refine ⟨cs.take _, (List.take_append_drop _ _).symm, fun c hc => ?_⟩
  -- the digits are counted on the run that `takeWhile` found
  have hlen : ((cs.takeWhile fun c => (toDigit radix c).isSome).filterMap
      (toDigit radix)).length ≤ (cs.takeWhile fun c => (toDigit radix c).isSome).length :=
    List.length_filterMap_le ..
  have hpre := List.prefix_of_prefix_length_le (List.take_prefix _ cs)
    (List.takeWhile_prefix (l := cs) fun c => (toDigit radix c).isSome)
    ((List.length_take_le _ _).trans hlen)
  exact List.mem_takeWhile_imp (p := fun c => (toDigit radix c).isSome) (hpre.subset hc)

variable {cs : List Char}

theorem readAfter_eq {α : Type} {sep : Char} {index : Nat} {inner : List Char → Option α}
    {a : α} (h : readAfter sep index inner cs = some a) :
    inner cs = some a ∨ ∃ rest, cs = sep :: rest ∧ inner rest = some a := by
  unfold readAfter at h
  split at h
  next => exact Or.inl h
  next =>
    split at h
    next c rest =>
      obtain ⟨hc, h⟩ := Option.ite_none_right_eq_some.mp h
      exact Or.inr ⟨rest, by rw [eq_of_beq hc], h⟩
    next => cases h

theorem readOctets_eq {left : Nat} :
    ∀ {index : Nat} {cs rest : List Char} {octets : List Nat},
      readOctets left index cs = some (octets, rest) →
      ∃ text, cs = text ++ rest ∧ ∀ c ∈ text, isDottedDigit c = true := by
  induction left with
  | zero =>
    intro index cs rest octets h
    cases h
    exact ⟨[], rfl, fun c hc => absurd hc List.not_mem_nil⟩
  | succ left ih =>
    intro index cs rest octets h
    simp only [readOctets, bind, Option.bind_eq_some_iff] at h
    obtain ⟨⟨octet, middle⟩, hoctet, ⟨octets', rest'⟩, hoctets, hret⟩ := h
    cases hret
    obtain ⟨text, rfl, htext⟩ := ih hoctets
    have hnumber : ∀ {cs : List Char},
        readNumberValue 10 3 256 false cs = some (octet, text ++ rest') →
        ∃ digits, cs = digits ++ (text ++ rest') ∧ ∀ c ∈ digits, isDottedDigit c = true := by
      intro cs hcs
      obtain ⟨_, hread, hpair⟩ := Option.map_eq_some_iff.mp hcs
      cases hpair
      obtain ⟨digits, hdigits, hall⟩ := readNumber_eq hread
      exact ⟨digits, hdigits, fun c hc => isDottedDigit_of_toDigit (hall c hc)⟩
    obtain hcs | ⟨after, rfl, hcs⟩ := readAfter_eq hoctet
    · obtain ⟨digits, rfl, hall⟩ := hnumber hcs
      refine ⟨digits ++ text, (List.append_assoc ..).symm, fun c hc => ?_⟩
      exact (List.mem_append.mp hc).elim (hall c) (htext c)
    · obtain ⟨digits, rfl, hall⟩ := hnumber hcs
      refine ⟨'.' :: (digits ++ text), by simp, fun c hc => ?_⟩
      obtain rfl | hc := List.mem_cons.mp hc
      · decide
      · exact (List.mem_append.mp hc).elim (hall c) (htext c)

theorem readAfter_eq_none {α : Type} {sep : Char} {index : Nat} {inner : List Char → Option α}
    (hindex : index ≠ 0) (hsep : sep ∉ cs) : readAfter sep index inner cs = none := by
  cases h : readAfter sep index inner cs with
  | none => rfl
  | some a =>
    unfold readAfter at h
    rw [if_neg (by simpa using hindex)] at h
    cases cs with
    | nil => cases h
    | cons c rest =>
      have hc : ¬ (c == sep) = true := fun hc => hsep (eq_of_beq hc ▸ List.mem_cons_self)
      dsimp only at h
      rw [if_neg hc] at h
      cases h

/-- Past the first group, every group is read after a colon. -/
theorem readGroupValues_eq {left : Nat} (hleft : left < 8) (hcolon : ':' ∉ cs) :
    readGroupValues 8 left cs = ([], false, cs) := by
  cases left with
  | zero => rfl
  | succ left =>
    have hindex : 8 - (left + 1) ≠ 0 := by omega
    have hv4 : (if 8 - (left + 1) + 1 < 8 then readAfter ':' (8 - (left + 1)) readIpv4Addr cs
        else none) = none := by
      rw [readAfter_eq_none hindex hcolon, ite_self]
    unfold readGroupValues
    dsimp only
    rw [hv4, readAfter_eq_none hindex hcolon]

theorem readIpv6Addr_eq_none (hcolon : ':' ∉ cs) : readIpv6Addr cs = none := by
  have hmatch : ∀ {rest : List Char} {f : List Char → Option (List Nat × List Char)}, ':' ∉ rest →
      (match rest with | ':' :: ':' :: after => f after | _ => none) = none := by
    intro rest f hrest
    split
    next => exact absurd List.mem_cons_self hrest
    next => rfl
  unfold readIpv6Addr
  cases hv4 : readAfter ':' 0 readIpv4Addr cs with
  | some read => simp [readGroupValues, hv4]
  | none =>
    cases hgroup : readAfter ':' 0 (readNumberValue 16 4 65536 true) cs with
    | none =>
      have hhead : readGroupValues 8 8 cs = ([], false, cs) := by
        simp [readGroupValues, hv4, hgroup]
      simp only [hhead]
      exact hmatch hcolon
    | some read =>
      obtain ⟨group, rest⟩ := read
      have hrest : ':' ∉ rest := by
        obtain h | ⟨_, rfl, -⟩ := readAfter_eq hgroup
        · obtain ⟨_, hread, hpair⟩ := Option.map_eq_some_iff.mp h
          cases hpair
          obtain ⟨digits, rfl, -⟩ := readNumber_eq hread
          exact fun hmem => hcolon (List.mem_append_right _ hmem)
        · exact absurd List.mem_cons_self hcolon
      have hhead : readGroupValues 8 8 cs = ([group], false, rest) := by
        unfold readGroupValues
        simp only [Nat.sub_self, hv4, hgroup,
          readGroupValues_eq (by decide : 7 < 8) hrest, ite_self]
      simp only [hhead]
      exact hmatch hrest

/-- An address written without a colon is made of digits and dots. -/
theorem isDottedDigit_of_parseIpAddr {s : String} {ip : IpAddr} (h : parseIpAddr s = some ip)
    (hcolon : ':' ∉ s.toList) : ∀ c ∈ s.toList, isDottedDigit c = true := by
  unfold parseIpAddr at h
  rw [readIpv6Addr_eq_none hcolon] at h
  split at h
  next octets rest hread =>
    split at h
    next hrest =>
      obtain ⟨text, htext, hall⟩ := readOctets_eq hread
      rw [List.isEmpty_iff.mp hrest, List.append_nil] at htext
      rw [htext]
      exact hall
    next => cases h
  next => cases h

end OpenShell
