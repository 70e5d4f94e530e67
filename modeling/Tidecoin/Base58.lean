import Mathlib.Data.List.TakeWhile
import Tidecoin.Crypto
import Tidecoin.Lib.Radix

/-!
Base58 with and without a checksum: `base58.cpp`. The bytes are a number in base 256, written in
base 58, with a `1` for each zero byte in front. Decoding skips spaces on either side, which is the
only freedom it leaves: apart from them, a string that decodes is the encoding of what it decodes
to.
-/

namespace Tidecoin

open Lib UInt8 List

namespace Base58

def pszBase58 : Bytes :=
  "123456789ABCDEFGHJKLMNPQRSTUVWXYZabcdefghijkmnopqrstuvwxyz".toList.map fun letter =>
    UInt8.ofNat letter.toNat

/-- `mapBase58`, the values of the characters below 128; the others have none. -/
def mapBase58Table : List Int :=
  [-1, -1, -1, -1, -1, -1, -1, -1, -1, -1, -1, -1, -1, -1, -1, -1,
   -1, -1, -1, -1, -1, -1, -1, -1, -1, -1, -1, -1, -1, -1, -1, -1,
   -1, -1, -1, -1, -1, -1, -1, -1, -1, -1, -1, -1, -1, -1, -1, -1,
   -1, 0, 1, 2, 3, 4, 5, 6, 7, 8, -1, -1, -1, -1, -1, -1,
   -1, 9, 10, 11, 12, 13, 14, 15, 16, -1, 17, 18, 19, 20, 21, -1,
   22, 23, 24, 25, 26, 27, 28, 29, 30, 31, 32, -1, -1, -1, -1, -1,
   -1, 33, 34, 35, 36, 37, 38, 39, 40, 41, 42, 43, -1, 44, 45, 46,
   47, 48, 49, 50, 51, 52, 53, 54, 55, 56, 57, -1, -1, -1, -1, -1]

/-- `mapBase58`, with `none` for -1. -/
def mapBase58 (c : UInt8) : Option Nat :=
  match mapBase58Table.getD c.toNat (-1) with
  | .ofNat value => some value
  | .negSucc _ => none

def isSpace (c : UInt8) : Bool :=
  c = 0x20 || c = 0x0c || c = 0x0a || c = 0x0d || c = 0x09 || c = 0x0b

/-- The character `1`, the digit zero. -/
def one : UInt8 := 0x31

/-- The loop of `DecodeBase58` over the characters, up to a space or the end: the bytes in use,
least significant first, and what follows. The assertion that no carry is left always holds, see
`convertDigits_eq`. -/
def decodeLoop (size zeroes maxRetLen : Nat) : (b256 : List Nat) → Bytes → Option (List Nat × Bytes)
  | b256, [] => some (b256, [])
  | b256, c :: psz =>
    if isSpace c then some (b256, c :: psz)
    else match mapBase58 c with
      | none => none
      | some carry =>
        let b256 := (mulAddDigits 58 256 size carry b256).1
        if b256.length + zeroes > maxRetLen then none
        else decodeLoop size zeroes maxRetLen b256 psz

def decodeBase58 (str : Bytes) (maxRetLen : Nat) : Option Bytes :=
  if str.contains 0 then none
  else
    let psz := str.dropWhile isSpace
    let zeroes := (psz.takeWhile (· = one)).length
    if zeroes > maxRetLen then none
    else
      let psz := psz.dropWhile (· = one)
      match decodeLoop (psz.length * 733 / 1000 + 1) zeroes maxRetLen [] psz with
      | none => none
      | some (b256, psz) =>
        if psz.dropWhile isSpace = [] then
          some (List.replicate zeroes 0 ++ b256.reverse.map UInt8.ofNat)
        else none

def encodeBase58 (input : Bytes) : Bytes :=
  let zeroes := (input.takeWhile (· = 0)).length
  let input := input.dropWhile (· = 0)
  let b58 := convertDigits 256 58 (input.length * 138 / 100 + 1) (input.map UInt8.toNat)
  List.replicate zeroes one ++ (b58.reverse.dropWhile (· = 0)).map fun digit =>
    pszBase58.getD digit 0

/-! ### The characters -/

/-- The character of a digit. -/
def char (digit : Nat) : UInt8 := pszBase58.getD digit 0

lemma char_spec (digit : Nat) (hdigit : digit < 58) :
    mapBase58 (char digit) = some digit ∧ isSpace (char digit) = false ∧ char digit ≠ 0 ∧
      (char digit = one ↔ digit = 0) := by
  have hall : ∀ digit < 58, mapBase58 (char digit) = some digit ∧ isSpace (char digit) = false ∧
      char digit ≠ 0 ∧ (char digit = one ↔ digit = 0) := by
    decide +kernel
  exact hall digit hdigit

lemma mapBase58_eq_some {c : UInt8} {digit : Nat} (hmap : mapBase58 c = some digit) :
    digit < 58 ∧ char digit = c := by
  have hall : ∀ code < 256, ∀ digit ∈ mapBase58 (UInt8.ofNat code),
      digit < 58 ∧ char digit = ofNat code := by
    decide +kernel
  have hspec := hall c.toNat c.toNat_lt digit
  rw [UInt8.ofNat_toNat] at hspec
  exact hspec hmap

/-! ### Encoding -/

lemma decode_room (count : Nat) : 58 ^ count < 256 ^ (count * 733 / 1000 + 1) :=
  pow_lt_pow_of_rate (by omega) 71 52 (by omega) (by omega) (by norm_num) (by omega) count

lemma encode_room (count : Nat) : 256 ^ count < 58 ^ (count * 138 / 100 + 1) :=
  pow_lt_pow_of_rate (by omega) 19 26 (by omega) (by omega) (by norm_num) (by omega) count

/-- The digits that stand for the bytes behind the zeroes. -/
def digitsOf (rest : Bytes) : List Nat :=
  (Nat.digits 58 (bigEndian 256 (rest.map UInt8.toNat))).reverse

lemma digitsOf_lt (rest : Bytes) : ∀ digit ∈ digitsOf rest, digit < 58 := by
  intro digit hdigit
  exact Nat.digits_lt_base (by omega) (mem_reverse.1 hdigit)

lemma toNat_lt_of_mem_map (bytes : Bytes) : ∀ digit ∈ bytes.map toNat, digit < 256 := by
  intro digit hdigit
  obtain ⟨byte, -, rfl⟩ := mem_map.1 hdigit
  exact byte.toNat_lt

variable (data : Bytes)

lemma exists_replicate_append :
    ∃ zeroes rest, data = replicate zeroes 0 ++ rest ∧ rest.head? ≠ some 0 := by
  induction data with
  | nil => exact ⟨0, [], rfl, by simp⟩
  | cons byte data ih =>
    by_cases hbyte : byte = 0
    · obtain ⟨zeroes, rest, rfl, hrest⟩ := ih
      exact ⟨zeroes + 1, rest, by rw [hbyte]; rfl, hrest⟩
    · exact ⟨0, byte :: data, rfl, by simpa using hbyte⟩

variable {rest : Bytes}

lemma span_replicate {c : UInt8} (hrest : rest.head? ≠ some c) (count : Nat) :
    (replicate count c ++ rest).takeWhile (· = c) = replicate count c ∧
      (replicate count c ++ rest).dropWhile (· = c) = rest := by
  induction count with
  | zero =>
    cases rest with
    | nil => simp
    | cons first rest => simp_all
  | succ count ih => simp [replicate_succ, ih.1, ih.2]

lemma encodeBase58_eq (hrest : rest.head? ≠ some 0) (zeroes : Nat) :
    encodeBase58 (replicate zeroes 0 ++ rest) = replicate zeroes one ++
      (digitsOf rest).map char := by
  obtain ⟨htake, hdrop⟩ := span_replicate hrest zeroes
  have hconvert : convertDigits 256 58 (rest.length * 138 / 100 + 1) (rest.map toNat) =
      Nat.digits 58 (bigEndian 256 (rest.map toNat)) := by
    apply convertDigits_eq (by omega) (by omega) (toNat_lt_of_mem_map rest)
    rw [length_map]
    exact (encode_room rest.length).le
  -- The digits have no zero in front, so none is skipped.
  have hskip : (digitsOf rest).dropWhile (· = 0) = digitsOf rest := by
    have hhead : (digitsOf rest).head? ≠ some 0 := head?_digits_reverse_ne_zero _
    cases hdigits : digitsOf rest with
    | nil => rfl
    | cons digit digits =>
      simp_all
  unfold encodeBase58
  simp only [htake, hdrop, hconvert, length_replicate]
  change _ ++ ((digitsOf rest).dropWhile (· = 0)).map char = _
  rw [hskip]

/-! ### Decoding -/

/-- The bytes for the digits read so far, least significant first. -/
def bytesOf (digits : List Nat) : List Nat := Nat.digits 256 (bigEndian 58 digits)

lemma bigEndian_append_singleton (base : Nat) (digits : List Nat) (digit : Nat) :
    bigEndian base (digits ++ [digit]) = base * bigEndian base digits + digit := by
  simp [bigEndian]

lemma bytesOf_length_mono (digits more : List Nat) :
    (bytesOf digits).length ≤ (bytesOf (digits ++ more)).length := by
  induction more using reverseRecOn with
  | nil => simp
  | append_singleton more digit ih =>
    apply le_trans ih
    rw [← append_assoc]
    apply Nat.le_length_digits_le
    rw [bigEndian_append_singleton]
    omega

lemma mulAddDigits_bytesOf {size digit : Nat} {read : List Nat}
    (hread : ∀ value ∈ read ++ [digit], value < 58)
    (hsize : 58 ^ (read ++ [digit]).length ≤ 256 ^ size) :
    (mulAddDigits 58 256 size digit (bytesOf read)).1 = bytesOf (read ++ [digit]) := by
  have hvalue := (bigEndian_lt_pow (by omega) hread).trans_le hsize
  rw [bigEndian_append_singleton] at hvalue
  unfold bytesOf
  rw [mulAddDigits_digits (by omega) (by omega) size _ _ hvalue, bigEndian_append_singleton]

variable {maxRetLen size zeroes : Nat}

lemma decodeLoop_digits (hrest : rest.head?.all isSpace) (digits : List Nat) :
    ∀ {read : List Nat}, (∀ digit ∈ read ++ digits, digit < 58) →
      58 ^ (read ++ digits).length ≤ 256 ^ size → (bytesOf read).length + zeroes ≤ maxRetLen →
      decodeLoop size zeroes maxRetLen (bytesOf read) (digits.map char ++ rest) =
        if (bytesOf (read ++ digits)).length + zeroes ≤ maxRetLen then
          some (bytesOf (read ++ digits), rest) else none := by
  induction digits with
  | nil =>
    intro read _ _ hlimit
    rw [append_nil, if_pos hlimit, map_nil, nil_append]
    cases rest with
    | nil => rfl
    | cons c rest =>
      have hspace : isSpace c := by simpa using hrest
      rw [decodeLoop, if_pos hspace]
  | cons digit digits ih =>
    intro read hdigits hsize hlimit
    rw [append_cons] at hdigits hsize ⊢
    obtain ⟨hmap, hspace, -⟩ := char_spec digit (hdigits digit (by simp))
    have hstep := mulAddDigits_bytesOf (forall_mem_append.1 hdigits).1
      ((Nat.pow_le_pow_right (by omega) (List.sublist_append_left ..).length_le).trans hsize)
    rw [map_cons, cons_append, decodeLoop, hspace, hmap]
    simp only [hstep, Bool.false_eq_true, if_false]
    split
    case isTrue hover =>
      -- The number does not get shorter with the digits that follow.
      have hmono := bytesOf_length_mono (read ++ [digit]) digits
      rw [if_neg (by omega)]
    case isFalse hunder => exact ih hdigits hsize (by omega)

lemma exists_digits_of_decodeLoop (psz : Bytes) :
    ∀ {b256 result}, decodeLoop size zeroes maxRetLen b256 psz = some result →
      ∃ (digits : List Nat) (rest : Bytes), psz = digits.map char ++ rest ∧
        (∀ digit ∈ digits, digit < 58) ∧
        rest.head?.all isSpace := by
  induction psz with
  | nil =>
    intro _ _ _
    exact ⟨[], [], rfl, by simp, rfl⟩
  | cons c psz ih =>
    intro b256 result hloop
    unfold decodeLoop at hloop
    split at hloop
    case isTrue hspace => exact ⟨[], c :: psz, rfl, by simp, by simpa using hspace⟩
    split at hloop
    · cases hloop
    rename_i carry hmap
    dsimp only at hloop
    split at hloop
    · cases hloop
    obtain ⟨digits, rest, rfl, hdigits, hrest⟩ := ih hloop
    obtain ⟨hcarry, rfl⟩ := mapBase58_eq_some hmap
    exact ⟨carry :: digits, rest, rfl, forall_mem_cons.2 ⟨hcarry, hdigits⟩, hrest⟩

lemma decodeLoop_start (hrest : rest.head?.all isSpace) {digits : List Nat}
    (hdigits : ∀ digit ∈ digits, digit < 58) (hzeroes : zeroes ≤ maxRetLen) :
    decodeLoop ((digits.map char ++ rest).length * 733 / 1000 + 1) zeroes maxRetLen []
        (digits.map char ++ rest) =
      if (bytesOf digits).length + zeroes ≤ maxRetLen then some (bytesOf digits, rest) else
        none := by
  have hroom : 58 ^ digits.length ≤ 256 ^ ((digits.map char ++ rest).length * 733 / 1000 + 1) :=
    (Nat.pow_le_pow_right (by omega) (by simp)).trans (decode_room _).le
  have hempty : bytesOf [] = [] := Nat.digits_zero 256
  rw [← hempty]
  refine decodeLoop_digits hrest digits hdigits hroom ?_
  rwa [hempty, length_nil, Nat.zero_add]

/-! ### The codec -/

lemma bytesOf_digitsOf (hrest : rest.head? ≠ some 0) :
    (bytesOf (digitsOf rest)).reverse.map ofNat = rest := by
  have hhead : (rest.map toNat).head? ≠ some 0 := by
    rw [head?_map]
    intro hzero
    obtain ⟨byte, hbyte, hvalue⟩ := Option.map_eq_some_iff.1 hzero
    apply hrest
    rw [hbyte, ← UInt8.toNat_inj.1 (hvalue.trans UInt8.toNat_zero.symm)]
  unfold bytesOf digitsOf
  rw [bigEndian_digits_reverse, digits_bigEndian (by omega) (toNat_lt_of_mem_map rest) hhead,
    reverse_reverse, map_map]
  have hid : UInt8.ofNat ∘ UInt8.toNat = id := funext fun byte => UInt8.ofNat_toNat
  rw [hid, map_id]

lemma digitsOf_bytesOf {digits : List Nat} (hdigits : ∀ digit ∈ digits, digit < 58)
    (hleading : digits.head? ≠ some 0) :
    digitsOf ((bytesOf digits).reverse.map ofNat) = digits := by
  have hbytes : ((bytesOf digits).reverse.map ofNat).map toNat = (bytesOf digits).reverse := by
    rw [map_map]
    conv_rhs => rw [← map_id (bytesOf digits).reverse]
    apply map_congr_left
    intro byte hbyte
    have hlt : byte < 256 := Nat.digits_lt_base (by omega) (mem_reverse.1 hbyte)
    exact toNat_ofNat_of_lt hlt
  unfold digitsOf
  rw [hbytes]
  unfold bytesOf
  rw [bigEndian_digits_reverse, digits_bigEndian (by omega) hdigits hleading, reverse_reverse]

lemma head?_bytesOf_ne_zero (digits : List Nat) :
    ((bytesOf digits).reverse.map ofNat).head? ≠ some 0 := by
  rw [head?_map]
  intro hzero
  obtain ⟨byte, hbyte, hvalue⟩ := Option.map_eq_some_iff.1 hzero
  have hmem : byte ∈ (bytesOf digits).reverse := mem_of_mem_head? hbyte
  have hlt : byte < 256 := Nat.digits_lt_base (by omega) (mem_reverse.1 hmem)
  have hbyteZero : byte = 0 := by
    have hid : (ofNat byte).toNat = byte := toNat_ofNat_of_lt hlt
    rw [← hid, hvalue]
    rfl
  have hleading : (bytesOf digits).reverse.head? ≠ some 0 := head?_digits_reverse_ne_zero _
  exact hleading (hbyteZero ▸ hbyte)

lemma encodeBase58_chars : ∀ c ∈ encodeBase58 data, isSpace c = false ∧ c ≠ 0 := by
  obtain ⟨zeroes, rest, rfl, hrest⟩ := exists_replicate_append data
  rw [encodeBase58_eq hrest]
  intro c hc
  rcases mem_append.1 hc with hc | hc
  · rw [eq_of_mem_replicate hc]
    decide
  · obtain ⟨digit, hdigit, rfl⟩ := mem_map.1 hc
    obtain ⟨-, hspace, hzero, -⟩ := char_spec digit (digitsOf_lt rest digit hdigit)
    exact ⟨hspace, hzero⟩

lemma encodeBase58_of_decodeBase58 {str data : Bytes}
    (hdecode : decodeBase58 str maxRetLen = some data) :
    data.length ≤ maxRetLen ∧ ∃ before after, (∀ c ∈ before, isSpace c) ∧ (∀ c ∈ after, isSpace c) ∧
        str = before ++ (encodeBase58 data ++ after) := by
  unfold decodeBase58 at hdecode
  dsimp only at hdecode
  split at hdecode
  · cases hdecode
  split at hdecode
  · cases hdecode
  rename_i hzeroes
  generalize hpsz : str.dropWhile isSpace = psz at hdecode hzeroes
  generalize hcount : (psz.takeWhile (· = one)).length = zeroes at hdecode hzeroes
  generalize hdigitsPart : psz.dropWhile (· = one) = digitsPart at hdecode
  split at hdecode
  · cases hdecode
  rename_i b256 rest hloop
  split at hdecode
  case isFalse => cases hdecode
  rename_i hspaces
  cases hdecode
  obtain ⟨digits, rest, hsplit, hdigits, hrest⟩ := exists_digits_of_decodeLoop digitsPart hloop
  rw [hsplit, decodeLoop_start hrest hdigits (by omega)] at hloop
  split at hloop
  case isFalse => cases hloop
  rename_i hlimit
  cases hloop
  -- The ones are all of them, so the first digit is not zero.
  have hones : psz = replicate zeroes one ++ digitsPart := by
    have htake : psz.takeWhile (· = one) = replicate zeroes one := by
      rw [← hcount, eq_replicate_iff]
      exact ⟨rfl, fun c hc => by simpa using mem_takeWhile_imp hc⟩
    rw [← htake, ← hdigitsPart, takeWhile_append_dropWhile]
  have hleading : digits.head? ≠ some 0 := by
    intro hzero
    obtain ⟨others, rfl⟩ := head?_eq_some_iff.1 hzero
    have hhead := head?_dropWhile_not (· = one) psz
    rw [hdigitsPart, hsplit, map_cons, cons_append, head?_cons] at hhead
    exact of_decide_eq_false hhead ((char_spec 0 (by omega)).2.2.2.2 rfl)
  refine ⟨by simpa [Nat.add_comm] using hlimit, str.takeWhile isSpace, rest, ?_, ?_, ?_⟩
  · intro c hc
    exact mem_takeWhile_imp hc
  · exact dropWhile_eq_nil_iff.1 hspaces
  · rw [encodeBase58_eq (head?_bytesOf_ne_zero digits), digitsOf_bytesOf hdigits hleading,
      append_assoc, ← hsplit, ← hones, ← hpsz, takeWhile_append_dropWhile]

lemma decodeBase58_encodeBase58 {data before after : Bytes} (hlength : data.length ≤ maxRetLen)
    (hbefore : ∀ c ∈ before, isSpace c) (hafter : ∀ c ∈ after, isSpace c) :
    decodeBase58 (before ++ (encodeBase58 data ++ after)) maxRetLen = some data := by
  have hnul : (before ++ (encodeBase58 data ++ after)).contains 0 = false := by
    rw [contains_eq_mem, decide_eq_false_iff_not]
    intro hmem
    simp only [mem_append] at hmem
    rcases hmem with hmem | hmem | hmem
    · exact absurd (hbefore 0 hmem) (by decide)
    · exact (encodeBase58_chars data 0 hmem).2 rfl
    · exact absurd (hafter 0 hmem) (by decide)
  obtain ⟨zeroes, rest, rfl, hrest⟩ := exists_replicate_append data
  -- What is left after the spaces in front: with no bytes at all, the spaces behind go as well.
  obtain ⟨left, hleft, hdrop⟩ : ∃ left : Bytes, (∀ c ∈ left, isSpace c) ∧
      (encodeBase58 (replicate zeroes 0 ++ rest) ++ after).dropWhile isSpace =
        replicate zeroes one ++ ((digitsOf rest).map char ++ left) := by
    have hchars := encodeBase58_chars (replicate zeroes 0 ++ rest)
    rw [encodeBase58_eq hrest] at hchars ⊢
    generalize hencoded : replicate zeroes one ++ (digitsOf rest).map char = encoded at hchars ⊢
    cases encoded with
    | nil =>
      refine ⟨[], by simp, ?_⟩
      rw [append_nil, hencoded, nil_append, ← append_nil after, dropWhile_append_of_pos hafter]
      rfl
    | cons c encoded =>
      refine ⟨after, hafter, ?_⟩
      rw [← append_assoc, hencoded, cons_append]
      exact dropWhile_cons_of_neg (by simp [(hchars c mem_cons_self).1])
  have hhead : ((digitsOf rest).map char ++ left).head? ≠ some one := by
    cases hdigits : digitsOf rest with
    | nil =>
      intro hone
      exact absurd (hleft one (mem_of_mem_head? hone)) (by decide)
    | cons digit digits =>
      have hnonzero : (digitsOf rest).head? ≠ some 0 := head?_digits_reverse_ne_zero _
      have hlt := digitsOf_lt rest digit (by simp [hdigits])
      rw [hdigits] at hnonzero
      have hne : char digit ≠ one := fun hone =>
        hnonzero (congrArg some ((char_spec digit hlt).2.2.2.1 hone))
      simpa using hne
  obtain ⟨htake, hdropOnes⟩ := span_replicate hhead zeroes
  have hlimit : zeroes + (bytesOf (digitsOf rest)).length ≤ maxRetLen := by
    have hbytes := congrArg length (bytesOf_digitsOf hrest)
    simp only [length_map, length_reverse] at hbytes
    simp only [length_append, length_replicate] at hlength
    omega
  unfold decodeBase58
  simp only [hnul, Bool.false_eq_true, if_false, dropWhile_append_of_pos hbefore, hdrop, htake,
    hdropOnes, length_replicate]
  rw [if_neg (by omega)]
  have hspace : left.head?.all isSpace := by
    cases left with
    | nil => rfl
    | cons c left => exact hleft c mem_cons_self
  rw [decodeLoop_start hspace (digitsOf_lt rest) (by omega), if_pos (by omega)]
  dsimp only
  rw [if_pos (dropWhile_eq_nil_iff.2 hleft), bytesOf_digitsOf hrest]

lemma encodeBase58_length : (encodeBase58 data).length ≤ data.length * 138 / 100 + 1 := by
  obtain ⟨zeroes, rest, rfl, hrest⟩ := exists_replicate_append data
  have hdigits : (digitsOf rest).length ≤ rest.length * 138 / 100 + 1 := by
    unfold digitsOf
    rw [length_reverse, Nat.digits_length_le_iff (by omega)]
    have hvalue := bigEndian_lt_pow (by omega) (toNat_lt_of_mem_map rest)
    rw [length_map] at hvalue
    exact hvalue.trans (encode_room rest.length)
  rw [encodeBase58_eq hrest]
  simp only [length_append, length_replicate, length_map]
  omega

/-! ### With a checksum -/

variable [Crypto]

/-- The four bytes of the checksum. -/
def checksum (data : Bytes) : Bytes := (hash256 data).take 4

def encodeBase58Check (input : Bytes) : Bytes := encodeBase58 (input ++ checksum input)

/-- `DecodeBase58Check`. The limit is never near the largest integer. -/
def decodeBase58Check (str : Bytes) (maxRetLen : Nat) : Option Bytes :=
  match decodeBase58 str (maxRetLen + 4) with
  | none => none
  | some vchRet =>
    if vchRet.length < 4 then none
    else
      let data := vchRet.take (vchRet.length - 4)
      if checksum data ≠ vchRet.drop (vchRet.length - 4) then none else some data

lemma checksum_length : (checksum data).length = 4 := by
  simp [checksum, hash256, Crypto.sha256Length]

/-- A string passes the check exactly if it is the encoding of the data with its checksum, with
spaces around it. -/
theorem decodeBase58Check_eq_some {str data : Bytes} :
    decodeBase58Check str maxRetLen = some data ↔ data.length ≤ maxRetLen ∧
      ∃ before after, (∀ c ∈ before, isSpace c) ∧ (∀ c ∈ after, isSpace c) ∧
        str = before ++ (encodeBase58Check data ++ after) := by
  have hlength := checksum_length data
  unfold decodeBase58Check
  constructor
  · intro hdecode
    split at hdecode
    · cases hdecode
    rename_i vchRet hbase58
    split at hdecode
    · cases hdecode
    dsimp only at hdecode
    split at hdecode
    · cases hdecode
    rename_i hshort hchecksum
    cases hdecode
    rw [ne_eq, Decidable.not_not] at hchecksum
    obtain ⟨hlimit, before, after, hbefore, hafter, hstr⟩ := encodeBase58_of_decodeBase58 hbase58
    refine ⟨?_, before, after, hbefore, hafter, ?_⟩
    · rw [length_take]
      omega
    · unfold encodeBase58Check
      rw [hchecksum, take_append_drop]
      exact hstr
  · rintro ⟨hlimit, before, after, hbefore, hafter, rfl⟩
    have hbytes : (data ++ checksum data).length ≤ maxRetLen + 4 := by
      rw [length_append]
      omega
    have hcut : (data ++ checksum data).length - 4 = data.length := by
      rw [length_append]
      omega
    unfold encodeBase58Check
    rw [decodeBase58_encodeBase58 hbytes hbefore hafter]
    simp only [hcut, take_left, drop_left]
    rw [if_neg (by rw [length_append]; omega), if_neg (by simp)]

lemma encodeBase58Check_length :
    (encodeBase58Check data).length ≤ (data.length + 4) * 138 / 100 + 1 := by
  have hbound := encodeBase58_length (data ++ checksum data)
  rw [length_append, checksum_length] at hbound
  exact hbound

end Base58

end Tidecoin
