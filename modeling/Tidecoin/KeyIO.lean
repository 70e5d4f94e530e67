import Tidecoin.Base58
import Tidecoin.Bech32.Codec
import Tidecoin.Script.Solver

/-!
Addresses: `EncodeDestination` and `DecodeDestination` of `key_io.cpp`. Hashes of keys and scripts
have Base58 addresses with a checksum, witness programs have Bech32 addresses, and the programs of
64 bytes have Bech32m addresses with a prefix of their own. A string is first tried as Base58.

Decoding inverts encoding. A string that decodes differs from the address of its destination at most
in the case of its letters, in the other prefix for script hashes or in spaces around a Base58
address, and no witness address decodes after one to three of its data characters were substituted.
-/

namespace Tidecoin

open Lib List Base58 Bech32 Uint160

/-- The text of a string literal. -/
def asciiBytes (text : String) : Bytes := text.toList.map fun letter => UInt8.ofNat letter.toNat

/-- A prefix of Bech32 addresses: lower case, with a letter. -/
def ValidHrp (hrp : Bytes) : Prop :=
  (∀ c ∈ hrp, Bech32.isPlain c = true) ∧ ∃ letter ∈ hrp, Bech32.isLowerLetter letter = true

lemma ValidHrp.of_check {hrp : Bytes} (hcheck : (hrp.all isPlain && hrp.any isLowerLetter)) :
    ValidHrp hrp := by
  rw [Bool.and_eq_true, all_eq_true, any_eq_true] at hcheck
  exact hcheck

/-- The part of `CChainParams` that addresses depend on. -/
structure AddressParams where
  pubkeyAddress : Bytes
  scriptAddress : Bytes
  scriptAddress2 : Bytes
  bech32Hrp : Bytes
  bech32PqHrp : Bytes
  base58Length : pubkeyAddress.length = 1 ∧ scriptAddress.length = 1 ∧ scriptAddress2.length = 1
  base58Distinct : pubkeyAddress ≠ scriptAddress ∧ pubkeyAddress ≠ scriptAddress2
  hrp_valid : ValidHrp bech32Hrp ∧ ValidHrp bech32PqHrp
  hrpShort : bech32Hrp.length ≤ 4 ∧ bech32PqHrp.length ≤ 4
  hrpApart : ¬ bech32Hrp <+: bech32PqHrp ∧ ¬ bech32PqHrp <+: bech32Hrp

namespace AddressParams

/-- The addresses of `CMainParams`. -/
def main : AddressParams where
  pubkeyAddress := [33]
  scriptAddress := [70]
  scriptAddress2 := [65]
  bech32Hrp := asciiBytes "tbc"
  bech32PqHrp := asciiBytes "q"
  base58Length := by decide
  base58Distinct := by decide
  hrp_valid := ⟨ValidHrp.of_check (by decide +kernel), ValidHrp.of_check (by decide +kernel)⟩
  hrpShort := by decide
  hrpApart := by decide

/-- The addresses of `CTestNetParams`. -/
def testnet : AddressParams where
  pubkeyAddress := [92]
  scriptAddress := [132]
  scriptAddress2 := [127]
  bech32Hrp := asciiBytes "ttbc"
  bech32PqHrp := asciiBytes "tq"
  base58Length := by decide
  base58Distinct := by decide
  hrp_valid := ⟨ValidHrp.of_check (by decide +kernel), ValidHrp.of_check (by decide +kernel)⟩
  hrpShort := by decide
  hrpApart := by decide

/-- The addresses of `CRegTestParams`. -/
def regtest : AddressParams where
  pubkeyAddress := [117]
  scriptAddress := [186]
  scriptAddress2 := [122]
  bech32Hrp := asciiBytes "rtbc"
  bech32PqHrp := asciiBytes "rq"
  base58Length := by decide
  base58Distinct := by decide
  hrp_valid := ⟨ValidHrp.of_check (by decide +kernel), ValidHrp.of_check (by decide +kernel)⟩
  hrpShort := by decide
  hrpApart := by decide

end AddressParams

/-- The texts of `DecodeDestination` for a string that is no address. The last one stands for what
`LocateErrors` says about a string that is not even Bech32. -/
inductive AddressError where
  | base58Length
  | base58Unsupported
  | encoding
  | base58Checksum
  | emptyData
  | unsupportedHrp (legacyHrp pqHrp hrp : Bytes)
  | witnessVersion
  | version0Checksum
  | pqChecksum
  | pqVersion
  | legacyVersion
  | version0Size (size : Nat)
  | version1Size (size : Nat)
  | padding
  | located
deriving DecidableEq, Repr

namespace AddressError

def showBytes (bytes : Bytes) : String := String.ofList (bytes.map fun c => Char.ofNat c.toNat)

def showSize (size : Nat) : String := toString size ++ (if size = 1 then " byte" else " bytes")

/-- `error_str`, where `LocateErrors` does not write it. -/
def text : AddressError → Option String
  | base58Length => some "Invalid length for Base58 address (P2PKH or P2SH)"
  | base58Unsupported => some "Invalid or unsupported Base58-encoded address."
  | encoding => some "Invalid or unsupported Segwit (Bech32) or Base58 encoding."
  | base58Checksum => some "Invalid checksum or length of Base58 address (P2PKH or P2SH)"
  | emptyData => some "Empty Bech32 data section"
  | unsupportedHrp legacyHrp pqHrp hrp =>
    some ("Invalid or unsupported prefix for Segwit (Bech32) address (expected " ++
      showBytes legacyHrp ++ " or " ++ showBytes pqHrp ++ ", got " ++ showBytes hrp ++ ").")
  | witnessVersion => some "Invalid Bech32 address witness version"
  | version0Checksum => some "Version 0 witness address must use Bech32 checksum"
  | pqChecksum => some "PQ witness v1 address must use Bech32m checksum"
  | pqVersion => some "Unsupported PQ witness version"
  | legacyVersion => some "Unsupported Segwit witness version"
  | version0Size size =>
    some ("Invalid Bech32 v0 address program size (" ++ showSize size ++ "), per BIP141")
  | version1Size size =>
    some ("Invalid Bech32 v1 address program size (" ++ showSize size ++ "), expected 64 bytes")
  | padding => some "Invalid padding in Bech32 data section"
  | located => none

end AddressError

namespace AddressParams

variable (params : AddressParams)

/-- The symbols of a witness program behind its version. -/
def programSymbols (version : Nat) (program : Bytes) : List Nat :=
  version :: ((convertBits 8 5 true (program.map UInt8.toNat)).getD [])

section

variable [Crypto]

/-- `DestinationEncoder`. -/
def encodeDestination : CTxDestination → Bytes
  | .pkHash id => Base58.encodeBase58Check (params.pubkeyAddress ++ id.toBytes)
  | .scriptHash id => Base58.encodeBase58Check (params.scriptAddress2 ++ id.toBytes)
  | .witnessV0KeyHash id =>
    Bech32.encode .bech32 params.bech32Hrp (programSymbols 0 id.toBytes)
  | .witnessV0ScriptHash id =>
    Bech32.encode .bech32 params.bech32Hrp (programSymbols 0 id.toBytes)
  | .witnessV1ScriptHash512 id =>
    Bech32.encode .bech32m params.bech32PqHrp (programSymbols 1 id.toBytes)
  | .noDestination _ => []
  | .pubKeyDestination _ => []

end

/-- Whether the string starts with the prefix, in either case. -/
def hrpMatches (hrp str : Bytes) : Bool :=
  str.length ≥ hrp.length && (str.take hrp.length).map Bech32.lowerCase = hrp

/-- Data that passed the Base58 checksum. -/
def decodeBase58Data (data : Bytes) : Except AddressError CTxDestination :=
  if data.length = 20 + params.pubkeyAddress.length && params.pubkeyAddress.isPrefixOf data then
    .ok (.pkHash (Uint160.ofBytes (data.drop params.pubkeyAddress.length)))
  else if data.length = 20 + params.scriptAddress.length &&
      params.scriptAddress.isPrefixOf data then
    .ok (.scriptHash (Uint160.ofBytes (data.drop params.scriptAddress.length)))
  else if data.length = 20 + params.scriptAddress2.length &&
      params.scriptAddress2.isPrefixOf data then
    .ok (.scriptHash (Uint160.ofBytes (data.drop params.scriptAddress2.length)))
  else if params.scriptAddress.isPrefixOf data || params.scriptAddress2.isPrefixOf data ||
      params.pubkeyAddress.isPrefixOf data then
    .error .base58Length
  else .error .base58Unsupported

/-- The witness program of a string that decoded as Bech32. -/
def decodeProgram (isPq : Bool) (data : Bytes) : Except AddressError CTxDestination :=
  if isPq then
    if data.length = 64 then .ok (.witnessV1ScriptHash512 (Uint512.ofBytes data))
    else .error (.version1Size data.length)
  else if data.length = 20 then .ok (.witnessV0KeyHash (Uint160.ofBytes data))
  else if data.length = 32 then .ok (.witnessV0ScriptHash (Uint256.ofBytes data))
  else .error (.version0Size data.length)

/-- A string that decoded as Bech32. The version is 1 for a post-quantum prefix and 0 else, once it
was checked. -/
def decodeBech32Data (dec : Bech32.DecodeResult) : Except AddressError CTxDestination :=
  match dec.data with
  | [] => .error .emptyData
  | version :: symbols =>
    if dec.hrp ≠ params.bech32Hrp ∧ dec.hrp ≠ params.bech32PqHrp then
      .error (.unsupportedHrp params.bech32Hrp params.bech32PqHrp dec.hrp)
    else
      let isPq : Bool := dec.hrp = params.bech32PqHrp
      if version > 16 then .error .witnessVersion
      else if !isPq && dec.encoding = .bech32m && version = 0 then .error .version0Checksum
      else if isPq && dec.encoding ≠ .bech32m then .error .pqChecksum
      else if isPq && version ≠ 1 then .error .pqVersion
      else if !isPq && version ≠ 0 then .error .legacyVersion
      else match convertBits 5 8 false symbols with
        | none => .error .padding
        | some data => decodeProgram isPq (data.map UInt8.ofNat)

/-- `bech32_limit`, the character limit for a string: `BECH32_PQ` or `BECH32`. -/
def limitFor (str : Bytes) : Nat := if hrpMatches params.bech32PqHrp str then 120 else 90

/-- The second half of `DecodeDestination`, for a string with one of the prefixes. -/
def decodeBech32 (str : Bytes) : Except AddressError CTxDestination :=
  match Bech32.decode str (params.limitFor str) with
  | none => .error .located
  | some dec => params.decodeBech32Data dec

variable [Crypto]

/-- `DecodeDestination`, with the error it reports. -/
def decodeDestinationChecked (str : Bytes) : Except AddressError CTxDestination :=
  match Base58.decodeBase58Check str 21 with
  | some data => params.decodeBase58Data data
  | none =>
    if !(hrpMatches params.bech32Hrp str || hrpMatches params.bech32PqHrp str) then
      if (Base58.decodeBase58 str 100).isNone then .error .encoding else .error .base58Checksum
    else params.decodeBech32 str

def decodeDestination (str : Bytes) : CTxDestination :=
  match params.decodeDestinationChecked str with
  | .ok destination => destination
  | .error _ => .noDestination []

end AddressParams

/-! ### Programs and their symbols -/

lemma ofNat_leToNat_natToLE {bits width : Nat} (hbits : 8 * width = bits) (blob : BitVec bits) :
    BitVec.ofNat bits (leToNat (natToLE width blob.toNat)) = blob := by
  rw [leToNat_natToLE_toNat hbits, BitVec.ofNat_toNat, BitVec.setWidth_eq]

lemma natToLE_toNat_ofNat {bits width : Nat} (hbits : 8 * width = bits) {bytes : Bytes}
    (hlength : bytes.length = width) :
    natToLE width (BitVec.ofNat bits (leToNat bytes)).toNat = bytes := by
  have hlt : leToNat bytes < 2 ^ bits := by
    have hbound := leToNat_lt bytes
    rw [hlength] at hbound
    rw [← hbits, Nat.pow_mul]
    exact hbound
  rw [BitVec.toNat_ofNat, Nat.mod_eq_of_lt hlt, ← hlength, natToLE_leToNat]

lemma map_ofNat_map_toNat (bytes : Bytes) : (bytes.map UInt8.toNat).map UInt8.ofNat = bytes := by
  rw [map_map]
  have hid : UInt8.ofNat ∘ UInt8.toNat = id := funext fun byte => UInt8.ofNat_toNat
  rw [hid, map_id]

lemma map_toNat_map_ofNat {values : List Nat} (hvalues : ∀ value ∈ values, value < 2 ^ 8) :
    (values.map UInt8.ofNat).map UInt8.toNat = values := by
  rw [map_map]
  conv_rhs => rw [← map_id values]
  apply map_congr_left
  intro value hmem
  exact UInt8.toNat_ofNat_of_lt (hvalues value hmem)

namespace AddressParams

lemma programSymbols_spec {version : Nat} (hversion : version < 32) (program : Bytes) :
    ∃ symbols padding, programSymbols version program = version :: symbols ∧ padding < 5 ∧
      5 * symbols.length = 8 * program.length + padding ∧
      (∀ symbol ∈ version :: symbols, symbol < 32) ∧
      convertBits 5 8 false symbols = some (program.map UInt8.toNat) := by
  have hbytes : ∀ byte ∈ program.map UInt8.toNat, byte < 2 ^ 8 := toNat_lt_of_mem_map program
  obtain ⟨symbols, padding, hconvert, hpadding, hlength, hsymbols, -⟩ := convertBits_pad hbytes
  refine ⟨symbols, padding, ?_, hpadding, by simpa using hlength,
    forall_mem_cons.2 ⟨hversion, hsymbols⟩, ?_⟩
  · rw [programSymbols, hconvert, Option.getD_some]
  · exact (convertBits_eq_some hsymbols).2 ⟨hbytes, hconvert⟩

lemma programSymbols_of_convertBits {version : Nat} {symbols data : List Nat}
    (hsymbols : ∀ symbol ∈ symbols, symbol < 32)
    (hconvert : convertBits 5 8 false symbols = some data) :
    programSymbols version (data.map UInt8.ofNat) = version :: symbols := by
  obtain ⟨hdata, hback⟩ := (convertBits_eq_some hsymbols).1 hconvert
  rw [programSymbols, map_toNat_map_ofNat hdata, hback, Option.getD_some]

/-! ### Strings that are not Base58 -/

lemma isSpace_of_isPlain {c : UInt8} (hplain : isPlain c) : isSpace c = false := by
  have hall : ∀ code < 256, isPlain (UInt8.ofNat code) → isSpace (UInt8.ofNat code) = false := by
    decide +kernel
  have hspec := hall c.toNat c.toNat_lt
  rw [UInt8.ofNat_toNat] at hspec
  exact hspec hplain

variable [Crypto]

lemma decodeBase58Check_eq_none {hrp : Bytes} {behind : List UInt8} (hhrp : ValidHrp hrp)
    (hspaces : behind.countP isSpace ≤ 3) (hlong : 38 ≤ behind.length) :
    decodeBase58Check (hrp ++ separator :: behind) 21 = none := by
  rw [Option.eq_none_iff_forall_ne_some]
  intro data hdecode
  obtain ⟨hlength, before, after, hbefore, hafter, hstr⟩ := decodeBase58Check_eq_some.1 hdecode
  have hnone : hrp.countP isSpace = 0 := by
    rw [countP_eq_zero]
    intro c hmem
    rw [isSpace_of_isPlain (hhrp.1 c hmem)]
    exact nofun
  -- The spaces around the encoding are among those of the string.
  have hcount : before.length + after.length ≤ 3 := by
    have htotal := congrArg (countP isSpace) hstr
    rw [countP_append, countP_cons, countP_append, countP_append, hnone,
      countP_eq_length.2 hbefore, countP_eq_length.2 hafter] at htotal
    have hseparator : isSpace separator = false := by decide
    rw [hseparator, if_neg nofun] at htotal
    omega
  have hencoded := encodeBase58Check_length data
  have htotal := congrArg length hstr
  simp only [length_append, length_cons] at htotal
  omega

/-! ### Base58 addresses -/

omit [Crypto] in
lemma not_isPrefixOf_append {first second : Bytes} (hlength : first.length = second.length)
    (hne : first ≠ second) (rest : Bytes) : first.isPrefixOf (second ++ rest) = false := by
  rw [Bool.eq_false_iff]
  intro hstarts
  obtain ⟨more, hmore⟩ := isPrefixOf_iff_prefix.1 hstarts
  exact hne (append_inj hmore hlength).1

omit [Crypto] in
lemma isPrefixOf_append_self (first rest : Bytes) : first.isPrefixOf (first ++ rest) :=
  isPrefixOf_iff_prefix.2 (prefix_append first rest)

variable (params : AddressParams)

omit [Crypto] in
lemma decodeBase58Data_pubkey {hash : Bytes} (hhash : hash.length = 20) :
    params.decodeBase58Data (params.pubkeyAddress ++ hash) = .ok (.pkHash (ofBytes hash)) := by
  unfold decodeBase58Data
  rw [isPrefixOf_append_self, drop_left, length_append, hhash, if_pos]
  simp [Nat.add_comm]

omit [Crypto] in
lemma decodeBase58Data_script {hash : Bytes} (hhash : hash.length = 20) :
    params.decodeBase58Data (params.scriptAddress2 ++ hash) =
      .ok (.scriptHash (ofBytes hash)) := by
  obtain ⟨hpubkey, hscript, hscript2⟩ := params.base58Length
  have hnot := not_isPrefixOf_append (hpubkey.trans hscript2.symm) params.base58Distinct.2 hash
  unfold decodeBase58Data
  rw [hnot, Bool.and_false, if_neg nofun, hscript, hscript2, length_append, hhash,
    hscript2, isPrefixOf_append_self]
  -- Both prefixes for script hashes are one byte, so the hash is the same.
  have hdrop : (params.scriptAddress2 ++ hash).drop 1 = hash := by
    rw [← hscript2, drop_left]
  rw [hdrop]
  split
  · rfl
  · rfl

variable {destination : CTxDestination}

omit [Crypto] in
lemma decodeBase58Data_eq_ok {data : Bytes}
    (hdecode : params.decodeBase58Data data = .ok destination) :
    (∃ id, destination = .pkHash id ∧ data = params.pubkeyAddress ++ id.toBytes) ∨
      ∃ id, destination = .scriptHash id ∧
        (data = params.scriptAddress ++ id.toBytes ∨ data = params.scriptAddress2 ++
          id.toBytes) := by
  have hsplit : ∀ start : Bytes, (data.length = 20 + start.length && start.isPrefixOf data) →
      data = start ++ (ofBytes (data.drop start.length)).toBytes := by
    intro start hstart
    rw [Bool.and_eq_true, decide_eq_true_eq] at hstart
    obtain ⟨rest, rfl⟩ := isPrefixOf_iff_prefix.1 hstart.2
    have hrest : rest.length = 20 := by
      have hlength := hstart.1
      rw [length_append] at hlength
      omega
    rw [drop_left]
    exact congrArg (start ++ ·) (natToLE_toNat_ofNat (by norm_num) hrest).symm
  unfold decodeBase58Data at hdecode
  split at hdecode
  case isTrue hpubkey =>
    cases hdecode
    exact .inl ⟨_, rfl, hsplit _ hpubkey⟩
  split at hdecode
  case isTrue hscript =>
    cases hdecode
    exact .inr ⟨_, rfl, .inl (hsplit _ hscript)⟩
  split at hdecode
  case isTrue hscript2 =>
    cases hdecode
    exact .inr ⟨_, rfl, .inr (hsplit _ hscript2)⟩
  split at hdecode <;> cases hdecode

lemma decodeDestination_base58 {data : Bytes} (hlength : data.length ≤ 21)
    (hdata : params.decodeBase58Data data = .ok destination) :
    params.decodeDestination (encodeBase58Check data) = destination := by
  have hcheck : decodeBase58Check (encodeBase58Check data) 21 = some data := by
    apply decodeBase58Check_eq_some.2
    exact ⟨hlength, [], [], by simp, by simp, by simp⟩
  unfold decodeDestination decodeDestinationChecked
  rw [hcheck]
  dsimp only
  rw [hdata]

/-! ### Bech32 addresses -/

omit [Crypto] in
lemma map_lowerCase {hrp : Bytes} (hhrp : ValidHrp hrp) : hrp.map lowerCase = hrp := by
  conv_rhs => rw [← map_id hrp]
  apply map_congr_left
  intro c hmem
  exact lowerCase_of_not_upper (isUpperLetter_of_isPlain (hhrp.1 c hmem))

omit [Crypto] in
lemma hrpMatches_append {hrp : Bytes} (hhrp : ValidHrp hrp) (rest : Bytes) :
    hrpMatches hrp (hrp ++ rest) := by
  unfold hrpMatches
  rw [take_left, map_lowerCase hhrp, length_append]
  simp

lemma decodeDestinationChecked_bech32 {hrp : Bytes} {behind : List UInt8}
    (hhrp : hrp = params.bech32Hrp ∨ hrp = params.bech32PqHrp)
    (hspaces : behind.countP isSpace ≤ 3) (hlong : 38 ≤ behind.length) :
    params.decodeDestinationChecked (hrp ++ separator :: behind) =
      params.decodeBech32 (hrp ++ separator :: behind) := by
  have hvalid : ValidHrp hrp := by
    rcases hhrp with rfl | rfl
    · exact params.hrp_valid.1
    · exact params.hrp_valid.2
  have hmatches : (hrpMatches params.bech32Hrp (hrp ++ separator :: behind) ||
      hrpMatches params.bech32PqHrp (hrp ++ separator :: behind)) := by
    rcases hhrp with rfl | rfl
    · rw [hrpMatches_append params.hrp_valid.1, Bool.true_or]
    · rw [hrpMatches_append params.hrp_valid.2, Bool.or_true]
  unfold decodeDestinationChecked
  rw [decodeBase58Check_eq_none hvalid hspaces hlong]
  rw [hmatches, Bool.not_true, if_neg nofun]

/-- The prefix of witness addresses of either kind. -/
def hrpFor (isPq : Bool) : Bytes := if isPq then params.bech32PqHrp else params.bech32Hrp

/-- The encoding of witness addresses of either kind. -/
def encodingFor (isPq : Bool) : Bech32.Encoding := if isPq then .bech32m else .bech32

/-- The version of witness programs of either kind. -/
def versionFor (isPq : Bool) : Nat := if isPq then 1 else 0

omit [Crypto] in
lemma decodeBech32Data_eq_ok {dec : DecodeResult}
    (hok : params.decodeBech32Data dec = .ok destination) :
    ∃ isPq symbols data, dec.data = versionFor isPq :: symbols ∧ dec.hrp = params.hrpFor isPq ∧
      dec.encoding = encodingFor isPq ∧ convertBits 5 8 false symbols = some data ∧
      decodeProgram isPq (data.map UInt8.ofNat) = .ok destination := by
  unfold decodeBech32Data at hok
  split at hok
  · cases hok
  rename_i version symbols hdata
  split at hok
  · cases hok
  rename_i hknown
  dsimp only at hok
  split at hok
  · cases hok
  split at hok
  · cases hok
  rename_i hchecksum0
  split at hok
  · cases hok
  rename_i hchecksum1
  split at hok
  · cases hok
  rename_i hversion1
  split at hok
  · cases hok
  rename_i hversion0
  split at hok
  · cases hok
  rename_i data hconvert
  by_cases hpq : dec.hrp = params.bech32PqHrp
  · simp only [hpq, decide_true, Bool.true_and, decide_eq_true_eq, ne_eq, Decidable.not_not]
      at hchecksum1 hversion1 hok
    exact ⟨true, symbols, data, by rw [hdata, hversion1]; rfl, hpq, hchecksum1, hconvert, hok⟩
  · simp only [hpq, decide_false, Bool.not_false, Bool.true_and, decide_eq_true_eq, ne_eq,
      Decidable.not_not] at hversion0 hchecksum0 hok
    have hlegacy : dec.hrp = params.bech32Hrp := by
      by_contra hne
      exact hknown ⟨hne, hpq⟩
    have hencoding : dec.encoding = .bech32 := by
      cases henc : dec.encoding with
      | bech32 => rfl
      | bech32m => simp [henc, hversion0] at hchecksum0
    exact ⟨false, symbols, data, by rw [hdata, hversion0]; rfl, hlegacy, hencoding, hconvert, hok⟩

/-- A witness address: a prefix with its encoding, the version and the program. -/
structure WitnessAddress where
  isPq : Bool
  program : Bytes
  sized : if isPq then program.length = 64 else program.length = 20 ∨ program.length = 32

namespace WitnessAddress

variable (address : WitnessAddress)

def version : Nat := versionFor address.isPq

def encoding : Bech32.Encoding := encodingFor address.isPq

def hrp : Bytes := params.hrpFor address.isPq

/-- The version, the program and the checksum. -/
def symbols : List Nat :=
  programSymbols address.version address.program ++
    Bech32.createChecksum address.encoding (address.hrp params)
      (programSymbols address.version address.program)

/-- The characters behind the separator. -/
def dataCharacters : Bytes := (address.symbols params).map Bech32.char

def str : Bytes := address.hrp params ++ Bech32.separator :: address.dataCharacters params

section

omit [Crypto]

lemma hrp_eq : address.hrp params = params.bech32Hrp ∨ address.hrp params = params.bech32PqHrp := by
  unfold hrp hrpFor
  cases address.isPq
  · exact .inl rfl
  · exact .inr rfl

lemma hrp_valid : ValidHrp (address.hrp params) := by
  rcases address.hrp_eq params with heq | heq
  · rw [heq]
    exact params.hrp_valid.1
  · rw [heq]
    exact params.hrp_valid.2

lemma hrp_ne_nil : address.hrp params ≠ [] := by
  obtain ⟨letter, hmem, -⟩ := (address.hrp_valid params).2
  exact ne_nil_of_mem hmem

lemma hrp_eq_pq_iff : address.hrp params = params.bech32PqHrp ↔ address.isPq := by
  unfold hrp hrpFor
  cases address.isPq
  · simp only [Bool.false_eq_true, if_false, iff_false]
    intro heq
    exact params.hrpApart.1 (heq ▸ prefix_refl _)
  · simp

lemma version_lt : address.version < 32 := by
  unfold version versionFor
  split <;> norm_num

lemma programSymbols_bounds : 33 ≤ (programSymbols address.version address.program).length ∧
      (programSymbols address.version address.program).length ≤ 104 ∧
      (address.isPq = false → (programSymbols address.version address.program).length ≤ 53) ∧
      ∀ symbol ∈ programSymbols address.version address.program, symbol < 32 := by
  obtain ⟨symbols, padding, heq, hpadding, hlength, hlt, -⟩ :=
    programSymbols_spec address.version_lt address.program
  have hsized := address.sized
  rw [heq, length_cons]
  cases hpq : address.isPq with
  | true =>
    rw [hpq, if_pos rfl] at hsized
    exact ⟨by omega, by omega, by simp, hlt⟩
  | false =>
    rw [hpq, if_neg nofun] at hsized
    exact ⟨by omega, by omega, fun _ => by omega, hlt⟩

lemma symbols_lt : ∀ symbol ∈ address.symbols params, symbol < 32 :=
  append_createChecksum_lt _ _ address.programSymbols_bounds.2.2.2

lemma dataCharacters_length : (address.dataCharacters params).length =
    (programSymbols address.version address.program).length + 6 := by
  rw [dataCharacters, length_map, symbols, length_append, createChecksum_length]

lemma dataCharacters_isSpace : ∀ c ∈ address.dataCharacters params, isSpace c = false := by
  intro c hmem
  obtain ⟨symbol, hsymbol, rfl⟩ := mem_map.1 hmem
  exact isSpace_of_isPlain (char_spec (address.symbols_lt params symbol hsymbol)).2.1

lemma length_le_limitFor :
    (address.hrp params).length + (programSymbols address.version address.program).length + 7 ≤
      params.limitFor (address.str params) := by
  obtain ⟨-, hlong, hshort, -⟩ := address.programSymbols_bounds
  have hhrp := params.hrpShort
  unfold limitFor
  cases hpq : address.isPq with
  | true =>
    have heq := (address.hrp_eq_pq_iff params).2 hpq
    have hmatches : hrpMatches params.bech32PqHrp (address.str params) := by
      rw [str, heq]
      exact hrpMatches_append params.hrp_valid.2 _
    rw [hmatches, if_pos rfl, heq]
    omega
  | false =>
    have hfew := hshort hpq
    have hlegacy : (address.hrp params).length ≤ 4 := by
      rcases address.hrp_eq params with heq | heq <;> rw [heq] <;> omega
    split <;> omega

lemma decodeBech32Data_address : params.decodeBech32Data
      ⟨address.encoding, address.hrp params, programSymbols address.version address.program⟩ =
    decodeProgram address.isPq address.program := by
  obtain ⟨symbols, padding, heq, -, -, -, hconvert⟩ :=
    programSymbols_spec address.version_lt address.program
  have hknown : ¬(address.hrp params ≠ params.bech32Hrp ∧
      address.hrp params ≠ params.bech32PqHrp) := by
    rcases address.hrp_eq params with heq | heq
    · exact fun hboth => hboth.1 heq
    · exact fun hboth => hboth.2 heq
  unfold decodeBech32Data
  rw [heq]
  dsimp only
  rw [if_neg hknown, hconvert]
  dsimp only
  rw [map_ofNat_map_toNat]
  unfold version encoding versionFor encodingFor
  cases hpq : address.isPq with
  | true => simp [(address.hrp_eq_pq_iff params).2 hpq]
  | false =>
    have hne := mt (address.hrp_eq_pq_iff params).1 (by simp [hpq])
    simp [hne]

end

lemma decodeDestinationChecked_str :
    params.decodeDestinationChecked (address.str params) =
      decodeProgram address.isPq address.program := by
  have hbounds := address.programSymbols_bounds
  have hlength := address.dataCharacters_length params
  have hspaces : (address.dataCharacters params).countP isSpace = 0 :=
    countP_eq_zero.2 fun c hmem => by simp [address.dataCharacters_isSpace params c hmem]
  have hroute := params.decodeDestinationChecked_bech32 (address.hrp_eq params)
    (by omega : (address.dataCharacters params).countP isSpace ≤ 3) (by omega)
  have hdecode : decode (address.str params) (params.limitFor (address.str params)) =
      some ⟨address.encoding, address.hrp params, programSymbols address.version address.program⟩ :=
    decode_encode (address.hrp_ne_nil params) (address.hrp_valid params).1 hbounds.2.2.2
      (address.length_le_limitFor params)
  apply hroute.trans
  change params.decodeBech32 (address.str params) = _
  rw [decodeBech32, hdecode]
  exact address.decodeBech32Data_address params

/-! ### Substituted characters -/

omit [Crypto] in
lemma countP_isSpace_le {first second : List UInt8} (hlength : first.length = second.length)
    (hfirst : ∀ c ∈ first, isSpace c = false) :
    second.countP isSpace ≤ differences first second := by
  rw [← map_snd_zip hlength.ge, countP_map, differences, map_snd_zip hlength.ge]
  refine countP_mono_left fun entry hentry hspace => decide_eq_true fun hsame => ?_
  have hplain := hfirst _ (of_mem_zip hentry).1
  rw [hsame] at hplain
  exact absurd hspace (by simp [hplain])

omit [Crypto] in
/-- The prefix of what a string decodes to starts with what stands before any of its separators. -/
theorem hrp_prefix_of_decode {hrp behind : Bytes} {limit : Nat} {dec : DecodeResult}
    (hhrp : ValidHrp hrp) (hdecode : decode (hrp ++ separator :: behind) limit = some dec) :
    hrp <+: dec.hrp := by
  obtain ⟨-, -, front, rest, -, hstr, hnotMem, -, -, -, hfront, -⟩ := decode_eq_some hdecode
  have hstarts : hrp <+: front := by
    rcases append_eq_append_iff.1 hstr with ⟨more, hmore, -⟩ | ⟨more, hmore, hbehind⟩
    · exact ⟨more, hmore.symm⟩
    · -- The last separator cannot stand inside the prefix.
      cases more with
      | nil => exact ⟨[], by rw [append_nil, hmore, append_nil]⟩
      | cons c more =>
        exfalso
        rw [cons_append, cons.injEq] at hbehind
        apply hnotMem
        rw [hbehind.2]
        simp
  rw [hfront, ← map_lowerCase hhrp]
  exact hstarts.map lowerCase

lemma decodeDestination_substituted {behind : List UInt8}
    (hlength : behind.length = (address.dataCharacters params).length)
    (hpos : 0 < differences (address.dataCharacters params) behind)
    (hfew : differences (address.dataCharacters params) behind ≤ 3) :
    params.decodeDestination (address.hrp params ++ separator :: behind) = .noDestination [] := by
  have hbounds := address.programSymbols_bounds
  have hdataLength := address.dataCharacters_length params
  have hspaces := countP_isSpace_le hlength.symm (address.dataCharacters_isSpace params)
  have hroute := params.decodeDestinationChecked_bech32 (address.hrp_eq params)
    (by omega : behind.countP isSpace ≤ 3) (by omega)
  unfold decodeDestination
  rw [hroute, decodeBech32]
  split
  case h_2 => rfl
  rename_i destination hok
  exfalso
  split at hok
  · cases hok
  rename_i dec hdecode
  obtain ⟨letter, hletter, hlower⟩ := (address.hrp_valid params).2
  have hchanged := decode_substituted hletter hlower hbounds.2.2.2 hbounds.2.1
    (by omega) hpos hfew hdecode
  have hstarts := hrp_prefix_of_decode (address.hrp_valid params) hdecode
  obtain ⟨isPq, -, -, -, hhrp, hencoding, -, -⟩ := params.decodeBech32Data_eq_ok hok
  -- The prefix cannot have become the other one, so the encoding is the one of the address too.
  have hkind : isPq = address.isPq := by
    rw [hhrp] at hstarts
    unfold hrp hrpFor at hstarts
    cases isPq <;> cases haddress : address.isPq
    · rfl
    · rw [haddress] at hstarts
      exact absurd hstarts params.hrpApart.2
    · rw [haddress] at hstarts
      exact absurd hstarts params.hrpApart.1
    · rfl
  subst hkind
  rcases hchanged with hne | hne
  · exact hne hhrp
  · exact hne hencoding

end WitnessAddress

end AddressParams

/-! ### The codec -/

/-- The destinations that have addresses. -/
def CTxDestination.hasAddress : CTxDestination → Bool
  | .noDestination _ => false
  | .pubKeyDestination _ => false
  | _ => true

/-- The witness address of a destination. -/
def CTxDestination.witnessAddress : CTxDestination → Option AddressParams.WitnessAddress
  | .witnessV0KeyHash id => some ⟨false, id.toBytes, Or.inl (natToLE_length 20 id.toNat)⟩
  | .witnessV0ScriptHash id => some ⟨false, id.toBytes, Or.inr id.toBytes_length⟩
  | .witnessV1ScriptHash512 id => some ⟨true, id.toBytes, id.toBytes_length⟩
  | _ => none

namespace AddressParams

variable [Crypto] (params : AddressParams)

variable {destination : CTxDestination}

lemma encodeDestination_witness {address : WitnessAddress}
    (haddress : destination.witnessAddress = some address) :
    params.encodeDestination destination = address.str params ∧
      decodeProgram address.isPq address.program = .ok destination := by
  cases destination with
  | noDestination script => cases haddress
  | pubKeyDestination pubkey => cases haddress
  | pkHash hash => cases haddress
  | scriptHash hash => cases haddress
  | witnessV0KeyHash id =>
    cases haddress
    refine ⟨rfl, ?_⟩
    have hlength : id.toBytes.length = 20 := natToLE_length 20 id.toNat
    have hid : .ofBytes id.toBytes = id := ofNat_leToNat_natToLE (by norm_num) id
    simp [decodeProgram, hlength, hid]
  | witnessV0ScriptHash id =>
    cases haddress
    refine ⟨rfl, ?_⟩
    simp [decodeProgram]
  | witnessV1ScriptHash512 id =>
    cases haddress
    refine ⟨rfl, ?_⟩
    have hid : .ofBytes id.toBytes = id := ofNat_leToNat_natToLE (by norm_num) id
    simp [decodeProgram, hid]

lemma decodeDestination_encodeDestination (hdestination : destination.hasAddress) :
    params.decodeDestination (params.encodeDestination destination) = destination := by
  have hwitness : ∀ address, destination.witnessAddress = some address →
      params.decodeDestination (params.encodeDestination destination) = destination := by
    intro address haddress
    obtain ⟨hencode, hprogram⟩ := params.encodeDestination_witness haddress
    unfold decodeDestination
    rw [hencode, address.decodeDestinationChecked_str params, hprogram]
  have hbytes : ∀ id : Uint160, id.toBytes.length = 20 := fun id => natToLE_length 20 id.toNat
  have hid : ∀ id : Uint160, .ofBytes id.toBytes = id :=
    fun id => ofNat_leToNat_natToLE (by norm_num) id
  obtain ⟨hpubkey, -, hscript2⟩ := params.base58Length
  cases destination with
  | noDestination script => cases hdestination
  | pubKeyDestination pubkey => cases hdestination
  | pkHash id =>
    apply params.decodeDestination_base58
    · rw [length_append, hpubkey, hbytes]
    · rw [params.decodeBase58Data_pubkey (hbytes id), hid]
  | scriptHash id =>
    apply params.decodeDestination_base58
    · rw [length_append, hscript2, hbytes]
    · rw [params.decodeBase58Data_script (hbytes id), hid]
  | witnessV0KeyHash id => exact hwitness _ rfl
  | witnessV0ScriptHash id => exact hwitness _ rfl
  | witnessV1ScriptHash512 id => exact hwitness _ rfl

/-- The string is the text with spaces around it. -/
def Spaced (str text : Bytes) : Prop :=
  ∃ before after, (∀ c ∈ before, Base58.isSpace c = true) ∧
    (∀ c ∈ after, Base58.isSpace c = true) ∧ str = before ++ (text ++ after)

/-- The string is the address of the destination up to the case of its letters, for a witness
program; else up to spaces around it and, for a script hash, with either prefix. -/
def Spells (str : Bytes) : CTxDestination → Prop
  | .pkHash id => Spaced str (params.encodeDestination (.pkHash id))
  | .scriptHash id => Spaced str (params.encodeDestination (.scriptHash id)) ∨
      Spaced str (Base58.encodeBase58Check (params.scriptAddress ++ id.toBytes))
  | destination => str.map Bech32.lowerCase = params.encodeDestination destination

lemma encodeDestination_of_decodeProgram {isPq : Bool} {program : Bytes}
    (hok : decodeProgram isPq program = .ok destination) :
    params.encodeDestination destination = encode (encodingFor isPq) (params.hrpFor isPq)
          (programSymbols (versionFor isPq) program) ∧
      ∀ str, str.map lowerCase = params.encodeDestination destination →
        params.Spells str destination := by
  unfold decodeProgram at hok
  split at hok
  case isTrue hpq =>
    split at hok
    case isTrue hlength =>
      cases hok
      subst hpq
      have hbytes : (Uint512.ofBytes program).toBytes = program :=
        natToLE_toNat_ofNat (by norm_num) hlength
      exact ⟨by simp only [encodeDestination, hbytes]; rfl, fun _ hstr => hstr⟩
    case isFalse => cases hok
  case isFalse hpq =>
    obtain rfl : isPq = false := by simpa using hpq
    split at hok
    case isTrue hlength =>
      cases hok
      have hbytes : (ofBytes program).toBytes = program := natToLE_toNat_ofNat (by norm_num) hlength
      exact ⟨by simp only [encodeDestination, hbytes]; rfl, fun _ hstr => hstr⟩
    split at hok
    case isTrue hlength =>
      cases hok
      have hbytes := Uint256.toBytes_ofBytes hlength
      exact ⟨by simp only [encodeDestination, hbytes]; rfl, fun _ hstr => hstr⟩
    case isFalse => cases hok

lemma spells_of_decodeDestination {str : Bytes} (hdestination : destination.hasAddress)
    (hdecode : params.decodeDestination str = destination) : params.Spells str destination := by
  have hok : params.decodeDestinationChecked str = .ok destination := by
    unfold decodeDestination at hdecode
    split at hdecode
    case h_1 hok =>
      rw [hok, hdecode]
    case h_2 =>
      rw [← hdecode] at hdestination
      cases hdestination
  unfold decodeDestinationChecked at hok
  split at hok
  case h_1 data hcheck =>
    obtain ⟨-, hspaced⟩ := decodeBase58Check_eq_some.1 hcheck
    rcases params.decodeBase58Data_eq_ok hok with ⟨id, rfl, rfl⟩ | ⟨id, rfl, rfl | rfl⟩
    · exact hspaced
    · exact .inr hspaced
    · exact .inl hspaced
  case h_2 =>
    split at hok
    · split at hok <;> cases hok
    rw [decodeBech32] at hok
    split at hok
    · cases hok
    rename_i dec hdec
    obtain ⟨hlt, hlower⟩ := encode_of_decode hdec
    obtain ⟨isPq, symbols, data, hdata, hhrp, hencoding, hconvert, hprogram⟩ :=
      params.decodeBech32Data_eq_ok hok
    obtain ⟨hencode, hspells⟩ := params.encodeDestination_of_decodeProgram hprogram
    rw [hdata, forall_mem_cons] at hlt
    apply hspells
    rw [hencode, programSymbols_of_convertBits hlt.2 hconvert, hlower, hdata, hhrp, hencoding]

/-- The codec of addresses: decoding inverts encoding, a string that decodes spells the address of
its destination, and witness addresses with up to three data characters substituted do not decode.
-/
theorem address_codec : (∀ destination : CTxDestination, destination.hasAddress = true →
      params.decodeDestination (params.encodeDestination destination) = destination) ∧
    (∀ (str : Bytes) (destination : CTxDestination), destination.hasAddress = true →
      params.decodeDestination str = destination → params.Spells str destination) ∧
    ∀ (destination : CTxDestination) (address : WitnessAddress),
      destination.witnessAddress = some address → params.encodeDestination destination =
        address.hrp params ++ Bech32.separator :: address.dataCharacters params ∧
      ∀ behind : Bytes, behind.length = (address.dataCharacters params).length →
        0 < Bech32.differences (address.dataCharacters params) behind →
        Bech32.differences (address.dataCharacters params) behind ≤ 3 →
        params.decodeDestination (address.hrp params ++ Bech32.separator :: behind) =
          .noDestination [] := by
  refine ⟨?_, ?_, ?_⟩
  · intro destination hdestination
    exact params.decodeDestination_encodeDestination hdestination
  · intro str destination hdestination hdecode
    exact params.spells_of_decodeDestination hdestination hdecode
  · intro destination address haddress
    refine ⟨(params.encodeDestination_witness haddress).1, ?_⟩
    intro behind hlength hpos hfew
    exact address.decodeDestination_substituted params hlength hpos hfew

end AddressParams

namespace AddressParams

/-- A space in front of an address is skipped, but not written again, and no letter case or other
prefix makes up for it. -/
theorem decodeDestination_space : ∃ (str : Bytes) (id : Uint160),
      @decodeDestination main Crypto.digits str = .pkHash id ∧ str.map Bech32.lowerCase ≠
        (@encodeDestination main Crypto.digits (.pkHash id)).map Bech32.lowerCase := by
  let _ := Crypto.digits
  refine ⟨0x20 :: main.encodeDestination (.pkHash 7), 7, ?_, ?_⟩
  · decide +kernel
  · intro heq
    have hlength := congrArg length heq
    simp at hlength

/-- The theorem at the address of a 64-byte program, with its last character substituted. -/
theorem address_codec_sample : @decodeDestination main Crypto.digits
      (@encodeDestination main Crypto.digits (.witnessV1ScriptHash512 5)) =
        .witnessV1ScriptHash512 5 ∧
    @Spells Crypto.digits main (@encodeDestination main Crypto.digits (.pkHash 7)) (.pkHash 7) ∧
    ∃ behind : Bytes, @decodeDestination main Crypto.digits
      (main.bech32PqHrp ++ Bech32.separator :: behind) = .noDestination [] := by
  let _ := Crypto.digits
  obtain ⟨hround, hspells, hsubstituted⟩ := main.address_codec
  refine ⟨hround _ rfl, hspells _ _ rfl (hround _ rfl), ?_⟩
  obtain ⟨-, hsub⟩ := hsubstituted (.witnessV1ScriptHash512 5) _ rfl
  refine ⟨_, hsub (((CTxDestination.witnessV1ScriptHash512 5).witnessAddress.get rfl).dataCharacters
    main |>.set 109 0x71) ?_ ?_ ?_⟩
  · decide +kernel
  · decide +kernel
  · decide +kernel

end AddressParams

end Tidecoin
