import Mathlib.Data.List.TakeWhile
import Tidecoin.Bech32
import Tidecoin.Lib.Regroup

/-!
Strings in Bech32 and Bech32m, the rest of `bech32.cpp`, and the regrouping of bits for their data,
`ConvertBits` of `util/strencodings.h`. A string that decodes is the encoding of what it decodes to
up to the case of its letters, and a string that differs from an encoding in one to three characters
behind the separator does not decode with the same prefix and encoding.
-/

namespace Tidecoin

open Lib List

/-- `ConvertBits`, for symbols that are not negative. -/
def convertBits (frombits tobits : Nat) (pad : Bool) (input : List Nat) : Option (List Nat) :=
  let (out, waiting) := regroup frombits tobits ⟨0, 0⟩ input
  let last := (waiting.acc <<< (tobits - waiting.bits)) &&& (2 ^ tobits - 1)
  if pad then some (if waiting.bits ≠ 0 then out ++ [last] else out)
  else if frombits ≤ waiting.bits || last ≠ 0 then none
  else some out

lemma last_eq {tobits : Nat} {waiting : Waiting} (hbits : waiting.bits < tobits) :
    (waiting.acc <<< (tobits - waiting.bits)) &&& (2 ^ tobits - 1) =
      waiting.acc % 2 ^ waiting.bits * 2 ^ (tobits - waiting.bits) := by
  rw [Nat.and_two_pow_sub_one_eq_mod, Nat.shiftLeft_eq]
  conv_lhs => rw [← Nat.add_sub_cancel' hbits.le, pow_add]
  rw [Nat.add_sub_cancel_left, Nat.mul_mod_mul_right]

lemma convertBits_pad {data : List Nat} (hdata : ∀ byte ∈ data, byte < 2 ^ 8) :
    ∃ out padding, convertBits 8 5 true data = some out ∧ padding < 5 ∧
      5 * out.length = 8 * data.length + padding ∧ (∀ symbol ∈ out, symbol < 2 ^ 5) ∧
      bigEndian (2 ^ 5) out = bigEndian (2 ^ 8) data * 2 ^ padding := by
  obtain ⟨hcount, hbits, hsymbols, hvalue⟩ := regroup_spec 5 data ⟨0, 0⟩ (by norm_num) hdata
  unfold convertBits
  generalize regroup 8 5 ⟨0, 0⟩ data = run at hcount hbits hsymbols hvalue ⊢
  obtain ⟨out, waiting⟩ := run
  dsimp only at hcount hbits hsymbols hvalue ⊢
  rw [Nat.zero_mod, Nat.zero_mul, Nat.zero_add] at hvalue
  rw [if_pos rfl]
  by_cases hzero : waiting.bits = 0
  · rw [if_neg (by simpa using hzero)]
    refine ⟨out, 0, rfl, by omega, by omega, hsymbols, ?_⟩
    rw [hzero, pow_zero, Nat.mod_one, Nat.mul_one, Nat.add_zero] at hvalue
    rw [hvalue, pow_zero, Nat.mul_one]
  · rw [if_pos hzero, last_eq hbits]
    refine ⟨_, 5 - waiting.bits, rfl, by omega, ?_, ?_, ?_⟩
    · rw [length_append, length_singleton]
      omega
    · rw [forall_mem_append, forall_mem_singleton, ← last_eq hbits, Nat.and_two_pow_sub_one_eq_mod]
      exact ⟨hsymbols, Nat.mod_lt _ (by norm_num)⟩
    · -- The last symbol is the waiting bits moved up.
      have hplace : 2 ^ waiting.bits * 2 ^ (5 - waiting.bits) = 2 ^ 5 := by
        rw [← pow_add, Nat.add_sub_cancel' hbits.le]
      have hsingle : ∀ symbol : Nat, bigEndian (2 ^ 5) [symbol] = symbol := by
        simp [bigEndian]
      rw [bigEndian_append, hsingle, length_singleton, pow_one, ← hvalue, ← hplace]
      ring

lemma convertBits_eq_some {symbols data : List Nat}
    (hsymbols : ∀ symbol ∈ symbols, symbol < 2 ^ 5) :
    convertBits 5 8 false symbols = some data ↔
      (∀ byte ∈ data, byte < 2 ^ 8) ∧ convertBits 8 5 true data = some symbols := by
  obtain ⟨hcount, hbits, hbytes, hvalue⟩ := regroup_spec 8 symbols ⟨0, 0⟩ (by norm_num) hsymbols
  rw [convertBits]
  generalize regroup 5 8 ⟨0, 0⟩ symbols = run at hcount hbits hbytes hvalue ⊢
  obtain ⟨out, waiting⟩ := run
  dsimp only at hcount hbits hbytes hvalue ⊢
  rw [Nat.zero_mod, Nat.zero_mul, Nat.zero_add] at hvalue
  rw [if_neg nofun, last_eq hbits]
  constructor
  · intro hdecode
    split at hdecode
    · cases hdecode
    rename_i haccepted
    cases hdecode
    simp only [Bool.or_eq_true, decide_eq_true_eq, not_or, not_le, ne_eq, Decidable.not_not,
      Nat.mul_eq_zero, Nat.pow_eq_zero, OfNat.ofNat_ne_zero, false_and, or_false] at haccepted
    obtain ⟨padded, padding, hpadded, hpadding, hlength, hpaddedSymbols, hpaddedValue⟩ :=
      convertBits_pad hbytes
    refine ⟨hbytes, ?_⟩
    have hsame : padding = waiting.bits := by omega
    have hequal : padded = symbols := by
      apply bigEndian_injective (by omega) (by omega) hpaddedSymbols hsymbols
      rw [hpaddedValue, hsame, ← hvalue, haccepted.2, Nat.add_zero]
    rw [hpadded, hequal]
  · rintro ⟨hdata, hencode⟩
    obtain ⟨padded, padding, hpadded, hpadding, hlength, -, hpaddedValue⟩ := convertBits_pad hdata
    cases hpadded.symm.trans hencode
    have hsame : padding = waiting.bits := by omega
    have hrest : waiting.acc % 2 ^ waiting.bits < 2 ^ waiting.bits := Nat.mod_lt _ (by positivity)
    rw [hpaddedValue, hsame] at hvalue
    -- The waiting bits are the remainder of both sides.
    have hzero : waiting.acc % 2 ^ waiting.bits = 0 := by
      have hmod := congrArg (· % 2 ^ waiting.bits) hvalue
      simpa [Nat.mul_comm, Nat.mul_add_mod, Nat.mod_eq_of_lt hrest] using hmod
    have hequal : out = data := by
      apply bigEndian_injective (by omega) (by omega) hbytes hdata
      rw [hzero, Nat.add_zero] at hvalue
      exact Nat.eq_of_mul_eq_mul_right (by positivity) hvalue
    rw [hzero, Nat.zero_mul, hequal, if_neg]
    simp only [ne_eq, not_true_eq_false, decide_false, Bool.or_false, decide_eq_true_eq]
    omega

namespace Bech32

def charset : Bytes :=
  "qpzry9x8gf2tvdw0s3jn54khce6mua7l".toList.map fun letter => UInt8.ofNat letter.toNat

/-- `CHARSET_REV`. -/
def charsetRevTable : List Int :=
  [-1, -1, -1, -1, -1, -1, -1, -1, -1, -1, -1, -1, -1, -1, -1, -1,
   -1, -1, -1, -1, -1, -1, -1, -1, -1, -1, -1, -1, -1, -1, -1, -1,
   -1, -1, -1, -1, -1, -1, -1, -1, -1, -1, -1, -1, -1, -1, -1, -1,
   15, -1, 10, 17, 21, 20, 26, 30, 7, 5, -1, -1, -1, -1, -1, -1,
   -1, 29, -1, 24, 13, 25, 9, 8, 23, -1, 18, 22, 31, 27, 19, -1,
   1, 0, 3, 16, 11, 28, 12, 14, 6, 4, 2, -1, -1, -1, -1, -1,
   -1, 29, -1, 24, 13, 25, 9, 8, 23, -1, 18, 22, 31, 27, 19, -1,
   1, 0, 3, 16, 11, 28, 12, 14, 6, 4, 2, -1, -1, -1, -1, -1]

/-- `CHARSET_REV` at a character, with `none` for -1. `CheckCharacters` has refused the characters
beyond the table. -/
def charsetRev (c : UInt8) : Option Nat :=
  match charsetRevTable.getD c.toNat (-1) with
  | .ofNat value => some value
  | .negSucc _ => none

def separator : UInt8 := 0x31

def isLowerLetter (c : UInt8) : Bool := 0x61 ≤ c && c ≤ 0x7a

def isUpperLetter (c : UInt8) : Bool := 0x41 ≤ c && c ≤ 0x5a

def lowerCase (c : UInt8) : UInt8 := if isUpperLetter c then c - 0x41 + 0x61 else c

/-- `CheckCharacters`: whether there are no errors. The first error decides. -/
def checkCharacters : (lower upper : Bool) → Bytes → Bool
  | _, _, [] => true
  | lower, upper, c :: str =>
    if isLowerLetter c then !upper && checkCharacters true upper str
    else if isUpperLetter c then !lower && checkCharacters lower true str
    else if c < 33 || c > 126 then false
    else checkCharacters lower upper str

def preparePolynomialCoefficients (hrp : Bytes) (values : List Nat) : List Nat :=
  hrp.map (fun c => c.toNat >>> 5) ++ [0] ++ hrp.map (fun c => c.toNat &&& 0x1f) ++ values

def verifyChecksum (hrp : Bytes) (values : List Nat) : Option Encoding :=
  let check := polyMod (preparePolynomialCoefficients hrp values)
  if check = encodingConstant .bech32 then some .bech32
  else if check = encodingConstant .bech32m then some .bech32m
  else none

def createChecksum (encoding : Encoding) (hrp : Bytes) (values : List Nat) : List Nat :=
  let enc := preparePolynomialCoefficients hrp values ++ List.replicate 6 0
  let mod := polyMod enc ^^^ encodingConstant encoding
  (List.range 6).map fun i => (mod >>> (5 * (5 - i))) &&& 31

def encode (encoding : Encoding) (hrp : Bytes) (values : List Nat) : Bytes :=
  hrp ++ separator :: (values ++ createChecksum encoding hrp values).map fun i => charset.getD i 0

/-- `rfind` of the separator: what stands before the last one, and behind it. -/
def splitSeparator (str : Bytes) : Option (Bytes × Bytes) :=
  let behind := (str.reverse.takeWhile (· ≠ separator)).reverse
  if behind.length < str.length then some (str.take (str.length - behind.length - 1), behind)
    else none

/-- `DecodeResult` of a string that decodes. -/
structure DecodeResult where
  encoding : Encoding
  hrp : Bytes
  data : List Nat
deriving DecidableEq, Repr

def decode (str : Bytes) (limit : Nat) : Option DecodeResult :=
  if !checkCharacters false false str then none
  else if str.length > limit then none
  else match splitSeparator str with
    | none => none
    | some (front, behind) =>
      if front.length = 0 || front.length + 6 ≥ str.length then none
      else match behind.mapM charsetRev with
        | none => none
        | some values =>
          let hrp := front.map lowerCase
          match verifyChecksum hrp values with
          | none => none
          | some encoding => some ⟨encoding, hrp, values.take (values.length - 6)⟩

/-! ### The checksum -/

lemma foldl_polyModStep (start : Nat) (symbols : List Nat) :
    symbols.foldl polyModStep start = mulX^[symbols.length] start ^^^ syndrome symbols := by
  induction symbols using reverseRecOn with
  | nil => simp [syndrome]
  | append_singleton symbols symbol ih =>
    rw [foldl_append, foldl_cons, foldl_nil, polyModStep_eq, ih, mulX_linear,
      syndrome_append_singleton, length_append, length_singleton,
      Function.iterate_succ_apply', Nat.xor_assoc]

variable (first second : List Nat) (encoding : Encoding) (hrp : Bytes)

lemma polyMod_append :
    polyMod (first ++ second) = mulX^[second.length] (polyMod first) ^^^ syndrome second := by
  unfold polyMod
  rw [foldl_append, foldl_polyModStep]

lemma syndrome_eq_bigEndian (symbols : List Nat) (hlength : symbols.length ≤ 6)
    (hsymbols : ∀ symbol ∈ symbols, symbol < 32) : syndrome symbols = bigEndian 32 symbols := by
  induction symbols using reverseRecOn with
  | nil => rfl
  | append_singleton symbols symbol ih =>
    rw [length_append, length_singleton] at hlength
    have hbefore : ∀ symbol ∈ symbols, symbol < 32 :=
      (forall_mem_append.1 hsymbols).1
    have hsymbol : symbol < 2 ^ 5 := hsymbols symbol (by simp)
    have hsmall : bigEndian 32 symbols < 2 ^ 25 := by
      apply lt_of_lt_of_le (bigEndian_lt_pow (by norm_num) hbefore)
      calc 32 ^ symbols.length ≤ 32 ^ 5 := Nat.pow_le_pow_right (by norm_num) (by omega)
        _ = 2 ^ 25 := by norm_num
    have hshift : mulX (bigEndian 32 symbols) = bigEndian 32 symbols * 2 ^ 5 := by
      have htop : bigEndian 32 symbols >>> 25 = 0 := by
        rw [Nat.shiftRight_eq_div_pow]
        exact Nat.div_eq_of_lt hsmall
      have hmask : bigEndian 32 symbols &&& 0x1ffffff = bigEndian 32 symbols := by
        have hand := Nat.and_two_pow_sub_one_eq_mod (bigEndian 32 symbols) 25
        rw [Nat.mod_eq_of_lt hsmall] at hand
        exact hand
      unfold mulX
      rw [htop, hmask, reduction_linear.zero, Nat.xor_zero, Nat.shiftLeft_eq]
    rw [syndrome_append_singleton, ih (by omega) hbefore, hshift, bigEndian_append,
      ← mul_two_pow_add_eq_xor hsymbol]
    simp [bigEndian]

lemma bigEndian_groups {mod : Nat} (hmod : mod < 2 ^ 30) :
    bigEndian 32 ((range 6).map fun i => (mod >>> (5 * (5 - i))) &&& 31) = mod := by
  have hgroup : ∀ shift, (mod >>> shift) &&& 31 = mod / 2 ^ shift % 32 := by
    intro shift
    have hand := Nat.and_two_pow_sub_one_eq_mod (mod >>> shift) 5
    rw [Nat.shiftRight_eq_div_pow] at hand
    rw [Nat.shiftRight_eq_div_pow]
    exact hand
  simp only [hgroup]
  simp [bigEndian, range_succ]
  omega

lemma polyMod_lt (symbols : List Nat) (hsymbols : ∀ symbol ∈ symbols, symbol < 32) :
    polyMod symbols < 2 ^ 30 := by
  have hfold := foldl_polyModStep 1 symbols
  unfold polyMod
  rw [hfold]
  exact Nat.xor_lt_two_pow (mulX_iterate_lt _ (by norm_num)) (syndrome_lt symbols hsymbols)

lemma preparePolynomialCoefficients_append (values more : List Nat) :
    preparePolynomialCoefficients hrp (values ++ more) =
      preparePolynomialCoefficients hrp values ++ more :=
  (append_assoc _ values more).symm

variable {values : List Nat}

lemma preparePolynomialCoefficients_lt (hvalues : ∀ value ∈ values, value < 32) :
    ∀ value ∈ preparePolynomialCoefficients hrp values, value < 32 := by
  intro value hmem
  simp only [preparePolynomialCoefficients, mem_append, mem_map, mem_singleton] at hmem
  rcases hmem with ((⟨c, -, rfl⟩ | rfl) | ⟨c, -, rfl⟩) | hmem
  · have hlt := c.toNat_lt
    omega
  · norm_num
  · exact Nat.lt_of_le_of_lt Nat.and_le_right (by norm_num)
  · exact hvalues value hmem

lemma createChecksum_length (values : List Nat) :
    (createChecksum encoding hrp values).length = 6 := by
  simp [createChecksum]

lemma createChecksum_lt (values : List Nat) :
    ∀ symbol ∈ createChecksum encoding hrp values, symbol < 32 := by
  intro symbol hmem
  obtain ⟨i, -, rfl⟩ := mem_map.1 hmem
  exact Nat.lt_of_le_of_lt Nat.and_le_right (by norm_num)

lemma encodingConstant_lt : encodingConstant encoding < 2 ^ 30 := by
  cases encoding <;> norm_num [encodingConstant]

variable {encoding : Encoding} {hrp : Bytes}

/-- The symbols behind the values make the remainder the constant exactly if they are the
checksum. -/
theorem polyMod_eq_constant_iff {checksum : List Nat} (hvalues : ∀ value ∈ values, value < 32)
    (hchecksum : ∀ symbol ∈ checksum, symbol < 32) (hlength : checksum.length = 6) :
    polyMod (preparePolynomialCoefficients hrp (values ++ checksum)) = encodingConstant encoding ↔
      checksum = createChecksum encoding hrp values := by
  have hprepared := preparePolynomialCoefficients_lt hrp hvalues
  generalize hfront : preparePolynomialCoefficients hrp values = front at hprepared
  have hzeros : syndrome (replicate 6 0) = 0 := rfl
  have hmod : polyMod (front ++ replicate 6 0) = mulX^[6] (polyMod front) := by
    rw [polyMod_append, hzeros, Nat.xor_zero, length_replicate]
  have hvalue : bigEndian 32 (createChecksum encoding hrp values) =
      mulX^[6] (polyMod front) ^^^ encodingConstant encoding := by
    rw [createChecksum, hfront, hmod]
    apply bigEndian_groups
    apply Nat.xor_lt_two_pow (mulX_iterate_lt 6 (polyMod_lt front hprepared))
    exact encodingConstant_lt encoding
  rw [preparePolynomialCoefficients_append, hfront, polyMod_append, hlength,
    syndrome_eq_bigEndian checksum hlength.le hchecksum]
  constructor
  · intro hconstant
    apply bigEndian_injective (by omega) (by rw [hlength, createChecksum_length]) hchecksum
      (createChecksum_lt encoding hrp values)
    rw [hvalue, ← hconstant, ← Nat.xor_assoc, Nat.xor_self, Nat.zero_xor]
  · rintro rfl
    rw [hvalue, ← Nat.xor_assoc, Nat.xor_self, Nat.zero_xor]

lemma verifyChecksum_eq_some : verifyChecksum hrp values = some encoding ↔
      polyMod (preparePolynomialCoefficients hrp values) = encodingConstant encoding := by
  unfold verifyChecksum
  cases encoding
  · dsimp only
    split
    · simp_all
    · split <;> simp_all
  · dsimp only
    split
    case isTrue h =>
      rw [h]
      decide
    case isFalse h =>
      split <;> simp_all

/-! ### The characters -/

/-- The character of a symbol. -/
def char (symbol : Nat) : UInt8 := charset.getD symbol 0

/-- A character that may stand in a string and is no upper case letter. -/
def isPlain (c : UInt8) : Bool := 33 ≤ c && c ≤ 126 && !isUpperLetter c

lemma char_spec {symbol : Nat} (hsymbol : symbol < 32) :
    charsetRev (char symbol) = some symbol ∧ isPlain (char symbol) ∧ char symbol ≠ separator := by
  have hall : ∀ symbol < 32, charsetRev (char symbol) = some symbol ∧
      isPlain (char symbol) ∧ char symbol ≠ separator := by
    decide +kernel
  exact hall symbol hsymbol

lemma charsetRev_eq_some {c : UInt8} {symbol : Nat} (hrev : charsetRev c = some symbol) :
    symbol < 32 ∧ lowerCase c = char symbol := by
  have hall : ∀ code < 256, ∀ symbol ∈ charsetRev (UInt8.ofNat code),
      symbol < 32 ∧ lowerCase (UInt8.ofNat code) = char symbol := by
    decide +kernel
  have hspec := hall c.toNat c.toNat_lt symbol
  rw [UInt8.ofNat_toNat] at hspec
  exact hspec hrev

lemma lowerCase_of_not_upper {c : UInt8} (hc : isUpperLetter c = false) : lowerCase c = c := by
  unfold lowerCase
  rw [hc]
  rfl

lemma isUpperLetter_of_isPlain {c : UInt8} (hplain : isPlain c) : isUpperLetter c = false := by
  unfold isPlain at hplain
  simp only [Bool.and_eq_true, Bool.not_eq_true'] at hplain
  exact hplain.2

lemma mapM_charsetRev_map_char {symbols : List Nat} (hsymbols : ∀ symbol ∈ symbols, symbol < 32) :
    (symbols.map char).mapM charsetRev = some symbols := by
  induction symbols with
  | nil => rfl
  | cons symbol symbols ih =>
    rw [map_cons, mapM_cons, (char_spec (hsymbols symbol mem_cons_self)).1,
      ih (forall_mem_cons.1 hsymbols).2]
    rfl

variable {behind : Bytes}

lemma mapM_charsetRev_eq_some : ∀ {symbols : List Nat}, behind.mapM charsetRev = some symbols →
      (∀ symbol ∈ symbols, symbol < 32) ∧ behind.map lowerCase = symbols.map char ∧
        symbols.length = behind.length := by
  induction behind with
  | nil =>
    intro symbols hmap
    cases hmap
    simp
  | cons c behind ih =>
    intro symbols hmap
    rw [mapM_cons] at hmap
    obtain ⟨symbol, hsymbol, hrest⟩ := Option.bind_eq_some_iff.1 hmap
    obtain ⟨others, hothers, hpure⟩ := Option.bind_eq_some_iff.1 hrest
    cases hpure
    obtain ⟨hlt, hlower⟩ := charsetRev_eq_some hsymbol
    obtain ⟨hothersLt, hothersLower, hlength⟩ := ih hothers
    refine ⟨forall_mem_cons.2 ⟨hlt, hothersLt⟩, ?_, ?_⟩
    · rw [map_cons, map_cons, hlower, hothersLower]
    · rw [length_cons, length_cons, hlength]

variable {str : Bytes}

lemma checkCharacters_of_isPlain (hstr : ∀ c ∈ str, isPlain c) :
    ∀ lower, checkCharacters lower false str := by
  induction str with
  | nil => exact fun _ => rfl
  | cons c str ih =>
    intro lower
    have hc := hstr c mem_cons_self
    have hrest := ih (forall_mem_cons.1 hstr).2
    unfold isPlain at hc
    simp only [Bool.and_eq_true, Bool.not_eq_true', decide_eq_true_eq] at hc
    unfold checkCharacters
    rw [hc.2, hrest true, hrest lower]
    have hbounds : (c < 33 || c > 126) = false := by
      simp only [Bool.or_eq_false_iff, decide_eq_false_iff_not, gt_iff_lt]
      exact ⟨UInt8.not_lt.2 hc.1.1, UInt8.not_lt.2 hc.1.2⟩
    simp [hbounds]

lemma cases_of_checkCharacters : ∀ {lower upper : Bool}, checkCharacters lower upper str →
      str.Pairwise (fun c d => isLowerLetter c → isUpperLetter d = false) ∧
        (lower → ∀ c ∈ str, isUpperLetter c = false) := by
  induction str with
  | nil => simp
  | cons c str ih =>
    intro lower upper hcheck
    rw [pairwise_cons, forall_mem_cons]
    unfold checkCharacters at hcheck
    split at hcheck
    case isTrue hc =>
      obtain ⟨hpairs, hrest⟩ := ih (Bool.and_eq_true_iff.1 hcheck).2
      have hall : ∀ code < 256, isLowerLetter (UInt8.ofNat code) →
          isUpperLetter (UInt8.ofNat code) = false := by
        decide +kernel
      have hspec := hall c.toNat c.toNat_lt
      rw [UInt8.ofNat_toNat] at hspec
      exact ⟨⟨fun d hd _ => hrest rfl d hd, hpairs⟩, fun _ => ⟨hspec hc, hrest rfl⟩⟩
    case isFalse hc =>
      split at hcheck
      · obtain ⟨hlower, hrest⟩ := Bool.and_eq_true_iff.1 hcheck
        refine ⟨⟨fun _ _ h => absurd h hc, (ih hrest).1⟩, ?_⟩
        rintro rfl
        cases hlower
      rename_i hupper
      split at hcheck
      · cases hcheck
      exact ⟨⟨fun _ _ h => absurd h hc, (ih hcheck).1⟩,
        fun hlower => ⟨by simpa using hupper, (ih hcheck).2 hlower⟩⟩

/-! ### The separator -/

lemma splitSeparator_append (front : Bytes) (hnotMem : separator ∉ behind) :
    splitSeparator (front ++ separator :: behind) = some (front, behind) := by
  have htake :
      (front ++ separator :: behind).reverse.takeWhile (· ≠ separator) = behind.reverse := by
    rw [reverse_append, reverse_cons, append_assoc, takeWhile_append_of_pos]
    · simp
    · intro c hmem
      have hne : c ≠ separator := fun heq => hnotMem (heq ▸ mem_reverse.1 hmem)
      simpa using hne
  have hcount : (front ++ separator :: behind).length - behind.length - 1 = front.length := by
    rw [length_append, length_cons]
    omega
  simp only [splitSeparator, htake, reverse_reverse, hcount, take_left]
  rw [if_pos]
  rw [length_append, length_cons]
  omega

lemma splitSeparator_eq_some {front : Bytes} : splitSeparator str = some (front, behind) ↔
      str = front ++ separator :: behind ∧ separator ∉ behind := by
  constructor
  · intro hsplit
    by_cases hmem : separator ∈ str.reverse
    · obtain ⟨after, before, hrev, hnotMem⟩ := eq_append_cons_of_mem hmem
      have hstr : str = before.reverse ++ separator :: after.reverse := by
        rw [← reverse_reverse str, hrev]
        simp
      rw [← mem_reverse] at hnotMem
      rw [hstr, splitSeparator_append _ hnotMem] at hsplit
      cases hsplit
      exact ⟨hstr, hnotMem⟩
    · have hall : str.reverse.takeWhile (· ≠ separator) = str.reverse := by
        refine takeWhile_eq_self_iff.2 fun c hc => ?_
        have hne : c ≠ separator := fun heq => hmem (heq ▸ hc)
        simpa using hne
      simp only [splitSeparator, hall, length_reverse, lt_irrefl, if_false] at hsplit
      cases hsplit
  · rintro ⟨rfl, hnotMem⟩
    exact splitSeparator_append front hnotMem

/-! ### Round trips -/

lemma encode_eq (encoding : Encoding) (hrp : Bytes) (values : List Nat) :
    encode encoding hrp values =
      hrp ++ separator :: (values ++ createChecksum encoding hrp values).map char := rfl

lemma append_createChecksum_lt (encoding : Encoding) (hrp : Bytes)
    (hvalues : ∀ value ∈ values, value < 32) :
    ∀ symbol ∈ values ++ createChecksum encoding hrp values, symbol < 32 :=
  forall_mem_append.2 ⟨hvalues, createChecksum_lt encoding hrp values⟩

lemma encode_length (encoding : Encoding) (hrp : Bytes) (values : List Nat) :
    (encode encoding hrp values).length = hrp.length + values.length + 7 := by
  rw [encode_eq, length_append, length_cons, length_map, length_append, createChecksum_length]
  omega

variable {limit : Nat}

lemma decode_encode (hnonempty : hrp ≠ []) (hhrp : ∀ c ∈ hrp, isPlain c)
    (hvalues : ∀ value ∈ values, value < 32) (hlimit : hrp.length + values.length + 7 ≤ limit) :
    decode (encode encoding hrp values) limit = some ⟨encoding, hrp, values⟩ := by
  have hsymbols := append_createChecksum_lt encoding hrp hvalues
  have hplain : ∀ c ∈ encode encoding hrp values, isPlain c := by
    intro c hmem
    rcases mem_append.1 hmem with hmem | hmem
    · exact hhrp c hmem
    rcases mem_cons.1 hmem with rfl | hmem
    · decide
    · obtain ⟨symbol, hsymbol, rfl⟩ := mem_map.1 hmem
      exact (char_spec (hsymbols symbol hsymbol)).2.1
  have hsplit : splitSeparator (encode encoding hrp values) =
      some (hrp, (values ++ createChecksum encoding hrp values).map char) := by
    apply splitSeparator_eq_some.2
    refine ⟨rfl, ?_⟩
    intro hmem
    obtain ⟨symbol, hsymbol, heq⟩ := mem_map.1 hmem
    exact (char_spec (hsymbols symbol hsymbol)).2.2 heq
  have hlower : hrp.map lowerCase = hrp := by
    conv_rhs => rw [← map_id hrp]
    apply map_congr_left
    intro c hmem
    exact lowerCase_of_not_upper (isUpperLetter_of_isPlain (hhrp c hmem))
  have hverify :
      verifyChecksum hrp (values ++ createChecksum encoding hrp values) = some encoding :=
    verifyChecksum_eq_some.2 ((polyMod_eq_constant_iff hvalues
      (createChecksum_lt encoding hrp values) (createChecksum_length encoding hrp values)).2 rfl)
  have hcut : (values ++ createChecksum encoding hrp values).length - 6 = values.length := by
    rw [length_append, createChecksum_length]
    omega
  have hpositive : hrp.length ≠ 0 := fun hzero => hnonempty (length_eq_zero_iff.1 hzero)
  unfold decode
  rw [checkCharacters_of_isPlain hplain false, encode_length, if_neg (by simp),
    if_neg (by omega), hsplit]
  dsimp only
  rw [if_neg (by simp only [Bool.or_eq_true, decide_eq_true_eq]; omega), mapM_charsetRev_map_char
    hsymbols]
  dsimp only
  rw [hlower, hverify]
  rw [hcut, take_left]

variable {result : DecodeResult}

lemma decode_eq_some (hdecode : decode str limit = some result) : checkCharacters false false str ∧
      str.length ≤ limit ∧ ∃ front behind symbols, str = front ++ separator :: behind ∧
        separator ∉ behind ∧ front ≠ [] ∧ 6 ≤ symbols.length ∧
        behind.mapM charsetRev = some symbols ∧ result.hrp = front.map lowerCase ∧
        result.data = symbols.take (symbols.length - 6) ∧
        polyMod (preparePolynomialCoefficients result.hrp symbols) =
          encodingConstant result.encoding := by
  unfold decode at hdecode
  split at hdecode
  · cases hdecode
  rename_i hcheck
  split at hdecode
  · cases hdecode
  split at hdecode
  · cases hdecode
  rename_i front behind hsplit
  split at hdecode
  · cases hdecode
  rename_i hsize
  split at hdecode
  · cases hdecode
  rename_i symbols hsymbols
  dsimp only at hdecode
  split at hdecode
  · cases hdecode
  rename_i encoding hverify
  cases hdecode
  obtain ⟨rfl, hnotMem⟩ := splitSeparator_eq_some.1 hsplit
  obtain ⟨-, -, hcount⟩ := mapM_charsetRev_eq_some hsymbols
  simp only [Bool.or_eq_true, decide_eq_true_eq, not_or, length_append, length_cons] at hsize
  refine ⟨by simpa using hcheck, by omega, front, behind, symbols, rfl, hnotMem, ?_, by omega,
    hsymbols,
    rfl, rfl, verifyChecksum_eq_some.1 hverify⟩
  rintro rfl
  exact hsize.1 rfl

lemma encode_of_decode (hdecode : decode str limit = some result) :
    (∀ value ∈ result.data, value < 32) ∧
      str.map lowerCase = encode result.encoding result.hrp result.data := by
  obtain ⟨-, -, front, behind, symbols, rfl, -, -, hsize, hsymbols, hhrp, hdata, hmod⟩ :=
    decode_eq_some hdecode
  obtain ⟨hlt, hlower, -⟩ := mapM_charsetRev_eq_some hsymbols
  -- The last six symbols are the checksum of the others.
  have hjoin : symbols = result.data ++ symbols.drop (symbols.length - 6) := by
    rw [hdata, take_append_drop]
  have hdataLt : ∀ value ∈ result.data, value < 32 := by
    intro value hmem
    rw [hdata] at hmem
    exact hlt value (mem_of_mem_take hmem)
  have hchecksum : symbols.drop (symbols.length - 6) =
      createChecksum result.encoding result.hrp result.data := by
    apply (polyMod_eq_constant_iff hdataLt _ _).1
    · rw [← hjoin]
      exact hmod
    · intro symbol hmem
      exact hlt symbol (mem_of_mem_drop hmem)
    · rw [length_drop]
      omega
  refine ⟨hdataLt, ?_⟩
  rw [encode_eq, ← hchecksum, ← hjoin, ← hlower, hhrp, map_append, map_cons]
  rfl

/-! ### Substituted characters -/

/-- The number of places at which two sequences of the same length differ. -/
def differences {α : Type} [DecidableEq α] (first second : List α) : Nat :=
  (first.zip second).countP fun entry => entry.1 ≠ entry.2

/-- The change that leads from one sequence of symbols to another. -/
def change (first second : List Nat) : List Nat := List.zipWith (· ^^^ ·) first second

lemma weight_change : weight (change first second) = differences first second := by
  rw [weight, change, differences, ← map_uncurry_zip_eq_zipWith, countP_map]
  refine countP_congr fun entry _ => ?_
  simp [Function.uncurry]

lemma change_lt {first second : List Nat} (hfirst : ∀ symbol ∈ first, symbol < 32)
    (hsecond : ∀ symbol ∈ second, symbol < 32) : ∀ symbol ∈ change first second, symbol < 32 := by
  intro symbol hmem
  obtain ⟨index, hindex⟩ := mem_iff_getElem?.1 hmem
  obtain ⟨left, right, hleft, hright, rfl⟩ := getElem?_zipWith_eq_some.1 hindex
  have hleftLt := hfirst left (mem_of_getElem? hleft)
  have hrightLt := hsecond right (mem_of_getElem? hright)
  exact Nat.xor_lt_two_pow (n := 5) hleftLt hrightLt

lemma foldl_change (hlength : first.length = second.length) :
    ∀ start start' : Nat, (change first second).foldl polyModStep (start ^^^ start') =
      first.foldl polyModStep start ^^^ second.foldl polyModStep start' := by
  induction first generalizing second with
  | nil =>
    intro start start'
    rw [length_eq_zero_iff.1 hlength.symm]
    rfl
  | cons symbol first ih =>
    intro start start'
    cases second with
    | nil => cases hlength
    | cons other second =>
      have hstep : polyModStep (start ^^^ start') (symbol ^^^ other) =
          polyModStep start symbol ^^^ polyModStep start' other := by
        rw [polyModStep_eq, polyModStep_eq, polyModStep_eq, mulX_linear]
        simp [Nat.xor_assoc, Nat.xor_left_comm]
      simp only [change, zipWith_cons_cons, foldl_cons, hstep]
      exact ih second (by simpa using hlength) _ _

lemma eq_map_char {symbols : List Nat} (hsymbols : behind.mapM charsetRev = some symbols)
    (hlower : ∀ c ∈ behind, isUpperLetter c = false) : behind = symbols.map char := by
  have hmap := (mapM_charsetRev_eq_some hsymbols).2.1
  rw [← hmap]
  conv_lhs => rw [← map_id behind]
  apply map_congr_left
  intro c hmem
  exact (lowerCase_of_not_upper (hlower c hmem)).symm

lemma differences_map_char {first second : List Nat} (hfirst : ∀ symbol ∈ first, symbol < 32)
    (hsecond : ∀ symbol ∈ second, symbol < 32) :
    differences (first.map char) (second.map char) = differences first second := by
  rw [differences, zip_map, countP_map]
  refine countP_congr fun entry hentry => ?_
  obtain ⟨hleft, hright⟩ := of_mem_zip hentry
  have hinjective : char entry.1 = char entry.2 → entry.1 = entry.2 := by
    intro heq
    have hrev := (char_spec (hfirst _ hleft)).1
    rw [heq, (char_spec (hsecond _ hright)).1] at hrev
    exact (Option.some.inj hrev).symm
  simp only [Function.comp_apply, Prod.map_fst, Prod.map_snd, ne_eq, decide_eq_true_eq]
  exact not_congr ⟨hinjective, congrArg char⟩

/-- With one to three of its characters behind the separator substituted, an encoding does not
decode with the same prefix and encoding any more. -/
theorem decode_substituted {letter : UInt8} (hletter : letter ∈ hrp) (hlower : isLowerLetter letter)
    (hvalues : ∀ value ∈ values, value < 32) (hshort : values.length ≤ 104)
    (hlength : behind.length = values.length + 6)
    (hpos : 0 < differences ((values ++ createChecksum encoding hrp values).map char) behind)
    (hfew : differences ((values ++ createChecksum encoding hrp values).map char) behind ≤ 3)
    (hdecode : decode (hrp ++ separator :: behind) limit = some result) :
    result.hrp ≠ hrp ∨ result.encoding ≠ encoding := by
  by_contra hsame
  rw [not_or, not_ne_iff, not_ne_iff] at hsame
  obtain ⟨hresultHrp, hresultEncoding⟩ := hsame
  obtain ⟨hcheck, -, front, rest, symbols, hstr, hnotMem, -, -, hsymbols, hfront, -, hmod⟩ :=
    decode_eq_some hdecode
  -- The prefix has kept its length, so the separator is the same one.
  have hfrontLength : front.length = hrp.length := by
    rw [← hresultHrp, hfront, length_map]
  obtain ⟨rfl, hbehind⟩ := append_inj hstr.symm hfrontLength
  obtain rfl : rest = behind := (cons.inj hbehind).2
  have hnotUpper : ∀ c ∈ rest, isUpperLetter c = false := by
    intro c hc
    exact (pairwise_append.1 (cases_of_checkCharacters hcheck).1).2.2 letter hletter c
      (mem_cons_of_mem _ hc) hlower
  obtain ⟨hsymbolsLt, -, hcount⟩ := mapM_charsetRev_eq_some hsymbols
  have horiginalLt := append_createChecksum_lt encoding front hvalues
  rw [eq_map_char hsymbols hnotUpper, differences_map_char horiginalLt hsymbolsLt] at hpos hfew
  generalize horiginal : values ++ createChecksum encoding front values =
    original at hpos hfew horiginalLt
  have horiginalLength : original.length = symbols.length := by
    rw [← horiginal, length_append, createChecksum_length, hcount, hlength]
  have horiginalMod : polyMod (preparePolynomialCoefficients front original) =
      encodingConstant encoding := by
    rw [← horiginal]
    exact (polyMod_eq_constant_iff hvalues (createChecksum_lt encoding front values)
      (createChecksum_length encoding front values)).2 rfl
  -- Both have the same remainder, so the change between them has remainder zero.
  have hzero : syndrome (change original symbols) = 0 := by
    rw [hresultHrp, hresultEncoding, ← horiginalMod] at hmod
    have hprepare : ∀ symbols : List Nat, preparePolynomialCoefficients front symbols =
        preparePolynomialCoefficients front [] ++ symbols := by
      intro symbols
      exact preparePolynomialCoefficients_append front [] symbols
    rw [hprepare symbols, hprepare original, polyMod_append, polyMod_append,
      horiginalLength] at hmod
    have hsyndromes : syndrome symbols = syndrome original := Nat.xor_right_inj.1 hmod
    have hchange := foldl_change original symbols horiginalLength 0 0
    have hsplit : syndrome (change original symbols) = syndrome original ^^^ syndrome symbols :=
      hchange
    rw [hsplit, hsyndromes, Nat.xor_self]
  refine syndrome_ne_zero (change original symbols) (change_lt horiginalLt hsymbolsLt) ?_ ?_
    ?_ hzero
  · unfold change
    rw [length_zipWith, horiginalLength, Nat.min_self, hcount]
    omega
  · rw [weight_change]
    exact hpos
  · rw [weight_change]
    exact hfew

end Bech32

end Tidecoin
