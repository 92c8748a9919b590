import Mathlib
import OpenShell.Util.Split

/-!
# Text

The `str` methods the policy code uses, over the list of characters of a Lean
`String`. ASCII case folding only touches `A`–`Z`; `isWhitespace` is Unicode's
`White_Space`, which is what `trim` and `char::is_whitespace` go by.
-/

namespace OpenShell

/-- `str::to_ascii_lowercase`. -/
def toAsciiLowercase (s : String) : String := String.ofList (s.toList.map Char.toLower)

/-- `str::to_ascii_uppercase`. -/
def toAsciiUppercase (s : String) : String := String.ofList (s.toList.map Char.toUpper)

/-- `str::eq_ignore_ascii_case`. -/
def eqIgnoreAsciiCase (a b : String) : Bool := toAsciiLowercase a == toAsciiLowercase b

/-- `char::is_whitespace`. -/
def isWhitespace (c : Char) : Bool :=
  let n := c.toNat
  (9 ≤ n && n ≤ 13) || n == 0x20 || n == 0x85 || n == 0xA0 || n == 0x1680 ||
    (0x2000 ≤ n && n ≤ 0x200A) || n == 0x2028 || n == 0x2029 || n == 0x202F || n == 0x205F ||
    n == 0x3000

/-- `char::is_control`. -/
def isControl (c : Char) : Bool := c.toNat ≤ 0x1F || (0x7F ≤ c.toNat && c.toNat ≤ 0x9F)

/-- `str::trim`. -/
def trim (s : String) : String :=
  String.ofList ((s.toList.dropWhile isWhitespace).reverse.dropWhile isWhitespace).reverse

/-- `str::is_empty`. -/
def isEmptyStr (s : String) : Bool := s.toList.isEmpty

/-- `str::len`: the bytes of the UTF-8 encoding. -/
def byteLen (s : String) : Nat := (s.toList.map Char.utf8Size).sum

/-- `str::contains` of a character. -/
def containsChar (s : String) (c : Char) : Bool := s.toList.contains c

/-- `str::contains` of a text. -/
def containsStr (s needle : String) : Bool := s.toList.tails.any needle.toList.isPrefixOf

/-- `str::starts_with`. -/
def startsWith (s pre : String) : Bool := pre.toList.isPrefixOf s.toList

/-- `str::ends_with`. -/
def endsWith (s suf : String) : Bool := suf.toList.isSuffixOf s.toList

/-- `str::strip_prefix`. -/
def stripPre (s pre : String) : Option String :=
  if startsWith s pre then some (String.ofList (s.toList.drop pre.toList.length)) else none

/-- `str::strip_suffix`. -/
def stripSuf (s suf : String) : Option String :=
  if endsWith s suf then
    some (String.ofList (s.toList.take (s.toList.length - suf.toList.length)))
  else none

/-- `str::split` at a character. -/
def splitChar (s : String) (c : Char) : List String := (s.toList.splitOn c).map String.ofList

/-- `str::split_once` at a character. -/
def splitOnceChar (s : String) (c : Char) : Option (String × String) :=
  if s.toList.contains c then
    some (String.ofList (s.toList.takeWhile (· != c)),
      String.ofList ((s.toList.dropWhile (· != c)).drop 1))
  else none

/-- `str::rsplit_once` at a character. -/
def rsplitOnceChar (s : String) (c : Char) : Option (String × String) :=
  if s.toList.contains c then
    some (String.ofList ((s.toList.reverse.dropWhile (· != c)).drop 1).reverse,
      String.ofList (s.toList.reverse.takeWhile (· != c)).reverse)
  else none

/-- `str::trim_end_matches` of a character. -/
def trimEndMatches (s : String) (c : Char) : String :=
  String.ofList (s.toList.reverse.dropWhile (· == c)).reverse

/-- `str::replace` of a character by a text. -/
def replaceChar (s : String) (c : Char) (by' : String) : String :=
  String.ofList (s.toList.flatMap fun x => if x == c then by'.toList else [x])

/-- `[String]::join`. -/
def joinWith (sep : String) (parts : List String) : String :=
  String.ofList (sep.toList.intercalate (parts.map String.toList))

/-! ## Case folding -/

variable {c : Char}

/-- A statement about every ASCII character is a statement about 128 of them. -/
theorem forall_ascii {P : Char → Prop} (h : ∀ n < 128, P (Char.ofNat n))
    (hc : c.toNat < 128) : P c := by
  have hP := h c.toNat hc
  rwa [Char.ofNat_toNat] at hP

/-- Case folding leaves everything past ASCII alone. -/
theorem toLower_of_le (hc : 128 ≤ c.toNat) : c.toLower = c := by
  unfold Char.toLower
  refine dif_neg fun h => ?_
  have hle : c.toNat ≤ 90 := UInt32.le_iff_toNat_le.mp h.2
  omega

theorem toAsciiLowercase_idem (s : String) :
    toAsciiLowercase (toAsciiLowercase s) = toAsciiLowercase s := by
  unfold toAsciiLowercase
  rw [String.toList_ofList, List.map_map]
  congr 1
  apply List.map_congr_left
  intro c _
  exact Char.toLower_toLower_eq_toLower c

/-- Case folding changes no character into one that is not a small letter. -/
theorem toLower_eq_iff {d : Char} (hd : d.val < 'a'.val ∨ 'z'.val < d.val)
    (hd' : d.val < 'A'.val ∨ 'Z'.val < d.val) : c.toLower = d ↔ c = d := by
  -- a folded letter is small, and a letter of `d`'s kind is not folded
  have hfold : c.toLower = c ∨ ('A'.val ≤ c.val ∧ c.val ≤ 'Z'.val ∧
      'a'.val ≤ c.toLower.val ∧ c.toLower.val ≤ 'z'.val) := by
    by_cases hc : c.toNat < 128
    · exact forall_ascii (P := fun c => c.toLower = c ∨ ('A'.val ≤ c.val ∧ c.val ≤ 'Z'.val ∧
        'a'.val ≤ c.toLower.val ∧ c.toLower.val ≤ 'z'.val)) (by decide) hc
    · exact Or.inl (toLower_of_le (by omega))
  obtain hsame | ⟨hA, hZ, ha, hz⟩ := hfold
  · rw [hsame]
  · constructor
    · rintro rfl
      exact (hd.elim (UInt32.not_lt.mpr ha) (UInt32.not_lt.mpr hz)).elim
    · rintro rfl
      exact (hd'.elim (UInt32.not_lt.mpr hA) (UInt32.not_lt.mpr hZ)).elim

theorem toList_toAsciiLowercase (s : String) :
    (toAsciiLowercase s).toList = s.toList.map Char.toLower :=
  String.toList_ofList

variable {s : String}

/-- Splitting at a character that is no letter commutes with case folding. -/
theorem splitChar_toAsciiLowercase
    (hd : c.val < 'a'.val ∨ 'z'.val < c.val) (hd' : c.val < 'A'.val ∨ 'Z'.val < c.val) :
    splitChar (toAsciiLowercase s) c = (splitChar s c).map toAsciiLowercase := by
  unfold splitChar
  rw [toList_toAsciiLowercase, splitOn_map (fun _ => toLower_eq_iff hd hd'), List.map_map,
    List.map_map]
  apply List.map_congr_left
  intro piece _
  simp [toAsciiLowercase]

variable {a b : String}

/-- Texts that differ in case only have one upper-case form. -/
theorem toAsciiUppercase_eq (h : toAsciiLowercase a = toAsciiLowercase b) :
    toAsciiUppercase a = toAsciiUppercase b := by
  have hfold : ∀ s, toAsciiUppercase (toAsciiLowercase s) = toAsciiUppercase s := by
    intro s
    unfold toAsciiUppercase
    rw [toList_toAsciiLowercase, List.map_map]
    exact congrArg String.ofList (List.map_congr_left fun c _ => Char.toUpper_toLower_eq_toUpper c)
  rw [← hfold a, h, hfold]

theorem isEmptyStr_iff : isEmptyStr s = true ↔ s = "" := by
  unfold isEmptyStr
  rw [List.isEmpty_iff, String.toList_eq_nil_iff]

theorem containsChar_iff : containsChar s c = true ↔ c ∈ s.toList :=
  List.contains_iff_mem

theorem isEmptyStr_toAsciiLowercase (s : String) :
    isEmptyStr (toAsciiLowercase s) = isEmptyStr s := by
  unfold isEmptyStr
  rw [toList_toAsciiLowercase, List.isEmpty_map]

theorem mem_toAsciiLowercase (hd : c.val < 'a'.val ∨ 'z'.val < c.val)
    (hd' : c.val < 'A'.val ∨ 'Z'.val < c.val) :
    c ∈ (toAsciiLowercase s).toList ↔ c ∈ s.toList := by
  rw [toList_toAsciiLowercase, List.mem_map]
  constructor
  · rintro ⟨x, hx, he⟩
    rwa [← (toLower_eq_iff hd hd').mp he]
  · exact fun h => ⟨c, h, (toLower_eq_iff hd hd').mpr rfl⟩

theorem containsChar_star_toAsciiLowercase (s : String) :
    containsChar (toAsciiLowercase s) '*' = containsChar s '*' := by
  rw [Bool.eq_iff_iff, containsChar_iff, containsChar_iff,
    mem_toAsciiLowercase (by decide) (by decide)]

/-- A piece of a split is made of the text's characters. -/
theorem mem_of_mem_splitChar {piece : String} {x : Char} (h : piece ∈ splitChar s c)
    (hx : x ∈ piece.toList) : x ∈ s.toList := by
  obtain ⟨chars, hc, rfl⟩ := List.mem_map.mp h
  rw [String.toList_ofList] at hx
  exact (mem_splitOn hc hx).1

theorem splitChar_ne_nil (s : String) (c : Char) : splitChar s c ≠ [] := by
  simp [splitChar, List.splitOn_ne_nil]

/-- A text is split at every occurrence of the character. -/
theorem splitChar_append (h : s.toList = a.toList ++ c :: b.toList) :
    splitChar s c = splitChar a c ++ splitChar b c := by
  simp [splitChar, h, List.splitOn_append_cons_self]

theorem splitChar_of_notMem (h : c ∉ s.toList) : splitChar s c = [s] := by
  simp [splitChar, List.splitOn_eq_singleton h]

variable {sep : String}

/-- Texts without the separator are found again in their joint text. -/
theorem splitChar_joinWith {parts : List String} (hsep : sep.toList = [c]) (hne : parts ≠ [])
    (h : ∀ part ∈ parts, c ∉ part.toList) : splitChar (joinWith sep parts) c = parts := by
  unfold splitChar joinWith
  rw [String.toList_ofList, hsep, List.splitOn_intercalate]
  · simp [Function.comp_def]
  · intro part hpart
    obtain ⟨text, htext, rfl⟩ := List.mem_map.mp hpart
    exact h text htext
  · simpa using hne

theorem joinWith_splitChar (hsep : sep.toList = [c]) (s : String) :
    joinWith sep (splitChar s c) = s := by
  have hpieces : (splitChar s c).map String.toList = s.toList.splitOn c := by
    simp [splitChar, Function.comp_def]
  unfold joinWith
  rw [hpieces, hsep]
  exact String.toList_inj.mp (by simp)

theorem joined_of_splitChar (h : splitChar a c = splitChar b c) :
    a = b := by
  have hmap : a.toList.splitOn c = b.toList.splitOn c := by
    have htoList := congrArg (List.map String.toList) h
    simpa [splitChar, Function.comp_def] using htoList
  have hlist : a.toList = b.toList := by
    have hjoin := congrArg [c].intercalate hmap
    rwa [List.intercalate_splitOn, List.intercalate_splitOn] at hjoin
  exact String.toList_inj.mp hlist

theorem startsWith_iff {pre : String} :
    startsWith s pre = true ↔ ∃ rest, s.toList = pre.toList ++ rest := by
  unfold startsWith
  rw [List.isPrefixOf_iff_prefix]
  exact ⟨fun ⟨rest, h⟩ => ⟨rest, h.symm⟩, fun ⟨rest, h⟩ => ⟨rest, h.symm⟩⟩

theorem stripPre_eq_some {pre rest : String} (h : stripPre s pre = some rest) :
    s.toList = pre.toList ++ rest.toList := by
  unfold stripPre at h
  obtain ⟨hs, ⟨⟩⟩ := Option.ite_none_right_eq_some.mp h
  obtain ⟨tail, htail⟩ := startsWith_iff.mp hs
  simp [htail]

theorem stripSuf_eq_some {suf rest : String} (h : stripSuf s suf = some rest) :
    s.toList = rest.toList ++ suf.toList := by
  unfold stripSuf endsWith at h
  obtain ⟨hs, ⟨⟩⟩ := Option.ite_none_right_eq_some.mp h
  obtain ⟨head, hhead⟩ := List.isSuffixOf_iff_suffix.mp hs
  simp [← hhead]

theorem rsplitOnceChar_eq_some (h : rsplitOnceChar s c = some (a, b)) :
    s.toList = a.toList ++ c :: b.toList ∧ c ∉ b.toList := by
  unfold rsplitOnceChar at h
  obtain ⟨hmem, ⟨⟩⟩ := Option.ite_none_right_eq_some.mp h
  have hlast := List.head?_dropWhile_not (· != c) s.toList.reverse
  have hparts := List.takeWhile_append_dropWhile (p := (· != c)) (l := s.toList.reverse)
  cases hdrop : s.toList.reverse.dropWhile (· != c) with
  | nil =>
    have hall :=
      List.dropWhile_eq_nil_iff.mp hdrop c (List.mem_reverse.mpr (List.contains_iff_mem.mp hmem))
    exact absurd rfl (bne_iff_ne.mp hall)
  | cons x rest =>
    rw [hdrop] at hlast hparts
    obtain rfl : x = c := bne_eq_false_iff_eq.mp hlast
    constructor
    · refine List.reverse_injective ?_
      simp [hparts]
    · rw [String.toList_ofList, List.mem_reverse]
      intro hx
      have hne : (x != x) = true := List.mem_takeWhile_imp (p := (· != x)) hx
      simp at hne

theorem rsplitOnceChar_eq_none (h : rsplitOnceChar s c = none) : c ∉ s.toList := by
  unfold rsplitOnceChar at h
  split at h
  next => cases h
  next hmem => exact fun hc => hmem (List.contains_iff_mem.mpr hc)

theorem eqIgnoreAsciiCase_iff :
    eqIgnoreAsciiCase a b = true ↔ toAsciiLowercase a = toAsciiLowercase b :=
  beq_iff_eq

/-! ## Numbers and addresses -/

/-- `char::to_digit`. -/
def toDigit (radix : Nat) (c : Char) : Option Nat :=
  let value :=
    if '0' ≤ c && c ≤ '9' then some (c.toNat - 48)
    else if 'a' ≤ c && c ≤ 'z' then some (c.toNat - 87)
    else if 'A' ≤ c && c ≤ 'Z' then some (c.toNat - 55)
    else none
  value.filter (· < radix)

/-- The value of a digit string, most significant digit first. -/
def digitsValue (radix : Nat) (digits : List Nat) : Nat :=
  digits.foldl (fun acc d => acc * radix + d) 0

/-- `str::parse::<u32>`: an optional `+`, then at least one decimal digit. -/
def parseU32 (s : String) : Option Nat :=
  let body := match s.toList with
    | '+' :: rest => rest
    | chars => chars
  let digits := body.map (toDigit 10)
  if body.isEmpty || digits.any Option.isNone then none
  else
    let value := digitsValue 10 (digits.filterMap id)
    if value < 2 ^ 32 then some value else none

/-- `Parser::read_number` of the address parser: at most `maxDigits` digits, and
no leading zero unless allowed. -/
def readNumber (radix maxDigits limit : Nat) (allowZeroPrefix : Bool) (cs : List Char) :
    Option (List Char) :=
  let digits := (cs.takeWhile fun c => (toDigit radix c).isSome).filterMap (toDigit radix)
  let count := digits.length
  if count == 0 || count > maxDigits then none
  else if digitsValue radix digits ≥ limit then none
  else if !allowZeroPrefix && digits.head? == some 0 && count > 1 then none
  else some (cs.drop count)

/-- `Parser::read_separator`. -/
def readSeparator (sep : Char) (index : Nat) (inner : List Char → Option (List Char))
    (cs : List Char) : Option (List Char) :=
  if index == 0 then inner cs
  else match cs with
    | c :: rest => if c == sep then inner rest else none
    | [] => none

/-- `Parser::read_ipv4_addr`: four groups. -/
def readIpv4 (cs : List Char) : Option (List Char) :=
  (List.range 4).foldlM (fun rest i => readSeparator '.' i (readNumber 10 3 256 false) rest) cs

/-- `read_groups`: the number of groups read, whether the last two were an
embedded IPv4 address, and the rest. -/
def readGroups (limit : Nat) (cs : List Char) : Nat × Bool × List Char :=
  let rec go : Nat → List Char → Nat × Bool × List Char
    | 0, cs => (limit, false, cs)
    | left + 1, cs =>
      let i := limit - (left + 1)
      let ipv4 := if i + 1 < limit then readSeparator ':' i readIpv4 cs else none
      match ipv4 with
      | some rest => (i + 2, true, rest)
      | none =>
        match readSeparator ':' i (readNumber 16 4 65536 true) cs with
        | some rest => go left rest
        | none => (i, false, cs)
  go limit cs

/-- `Parser::read_ipv6_addr`. -/
def readIpv6 (cs : List Char) : Option (List Char) :=
  let (headSize, headIpv4, rest) := readGroups 8 cs
  if headSize == 8 then some rest
  else if headIpv4 then none
  else match rest with
    | ':' :: ':' :: rest => some (readGroups (8 - (headSize + 1)) rest).2.2
    | _ => none

/-- Whether `str::parse::<IpAddr>` succeeds. -/
def isIpAddr (s : String) : Bool :=
  ((readIpv4 s.toList).or (readIpv6 s.toList)) == some []

end OpenShell
