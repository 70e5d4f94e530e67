import Tidecoin.Crypto

/-!
Public keys and signature verification: `pubkey.h`, `pubkey.cpp`, and the scheme tables, key
encodings and dispatchers of `pq/pq_scheme.h` and `pq/pq_api.h`. The verification algorithms of the
five schemes are parameters of the model.
-/

namespace Tidecoin

open Lib Option

abbrev Uint512 := BitVec 512

/-- The 64 bytes of a blob, in memory order. -/
def Uint512.toBytes (blob : Uint512) : Bytes := natToLE 64 blob.toNat

@[simp] lemma Uint512.toBytes_length (blob : Uint512) : blob.toBytes.length = 64 := by
  simp [Uint512.toBytes]

lemma Uint512.toBytes_injective : Function.Injective Uint512.toBytes := by
  intro left right heq
  have hread : ∀ blob : Uint512, leToNat blob.toBytes = blob.toNat := leToNat_natToLE_toNat rfl
  apply BitVec.eq_of_toNat_eq
  rw [← hread left, heq, hread right]

inductive SchemeId where
  | falcon512
  | falcon1024
  | mldsa44
  | mldsa65
  | mldsa87
deriving DecidableEq, Repr

/-- The size of a raw public key of the scheme. -/
def SchemeId.pubkeyBytes : SchemeId → Nat
  | .falcon512 => 897
  | .falcon1024 => 1793
  | .mldsa44 => 1312
  | .mldsa65 => 1952
  | .mldsa87 => 2592

/-- `SchemeFromPrefix`: the scheme of the first byte of a serialized key. -/
def schemeFromPrefix (byte : UInt8) : Option SchemeId :=
  if byte = 0x07 then some .falcon512
  else if byte = 0x08 then some .falcon1024
  else if byte = 0x09 then some .mldsa44
  else if byte = 0x0a then some .mldsa65
  else if byte = 0x0b then some .mldsa87
  else none

/-- The verification algorithms, for a signature, a message and a raw key. Only Falcon-512 has a
legacy mode. -/
class PqVerify where
  falcon512 : (sig msg pk : Bytes) → (legacyMode : Bool) → Bool
  falcon1024 : (sig msg pk : Bytes) → Bool
  mldsa44 : (sig msg pk : Bytes) → Bool
  mldsa65 : (sig msg pk : Bytes) → Bool
  mldsa87 : (sig msg pk : Bytes) → Bool

/-- `CPubKey::GetLen`: zero for an unknown scheme. -/
def pubKeyLen (chHeader : UInt8) : Nat :=
  match schemeFromPrefix chHeader with
  | some scheme => scheme.pubkeyBytes + 1
  | none => 0

/-- `CPubKey::ValidSize`. The maximum size is the one of the largest scheme. -/
def validPubKeySize (vch : Bytes) : Bool :=
  match vch with
  | [] => false
  | chHeader :: _ =>
    vch.length ≤ SchemeId.mldsa87.pubkeyBytes + 1 && pubKeyLen chHeader = vch.length

/-- `CPubKey`: an invalid key is empty, a valid one has the size its first byte says. -/
@[ext] structure CPubKey where
  vch : Bytes
  sized : vch = [] ∨ validPubKeySize vch = true
deriving DecidableEq, Repr

namespace CPubKey

def set (bytes : Bytes) : CPubKey :=
  if hsize : validPubKeySize bytes = true then ⟨bytes, Or.inr hsize⟩ else ⟨[], Or.inl rfl⟩

def isValid (pubkey : CPubKey) : Bool := !pubkey.vch.isEmpty

end CPubKey

section

variable [PqVerify]

/-- The dispatcher of `pq::Verify` and `pq::Verify64`, which differ in the size of the message. -/
def pqVerifySized (size : Nat) (scheme : SchemeId) (msg sig pk : Bytes) (legacyMode : Bool) :
    Bool :=
  if msg.length ≠ size ∨ pk.length ≠ scheme.pubkeyBytes then false
  else match scheme with
    | .falcon512 => PqVerify.falcon512 sig msg pk legacyMode
    | .falcon1024 => PqVerify.falcon1024 sig msg pk
    | .mldsa44 => PqVerify.mldsa44 sig msg pk
    | .mldsa65 => PqVerify.mldsa65 sig msg pk
    | .mldsa87 => PqVerify.mldsa87 sig msg pk

def pqVerify : (scheme : SchemeId) → (msg32 sig pk : Bytes) → (legacyMode : Bool) → Bool :=
  pqVerifySized 32

def pqVerify64 : (scheme : SchemeId) → (msg64 sig pk : Bytes) → (legacyMode : Bool) → Bool :=
  pqVerifySized 64

/-- `DecodePubKey`: the scheme and the raw key. -/
def decodePubKey (raw : Bytes) : Option (SchemeId × Bytes) :=
  match raw with
  | [] => none
  | chHeader :: pk =>
    match schemeFromPrefix chHeader with
    | none => none
    | some scheme => if raw.length ≠ scheme.pubkeyBytes + 1 then none else some (scheme, pk)

def verifyPrefixed (msg32 sig prefixedPubkey : Bytes) (legacyMode : Bool) : Bool :=
  match decodePubKey prefixedPubkey with
  | none => false
  | some (scheme, raw) => pqVerify scheme msg32 sig raw legacyMode

def verifyPrefixed64 (msg64 sig prefixedPubkey : Bytes) (legacyMode : Bool) : Bool :=
  match decodePubKey prefixedPubkey with
  | none => false
  | some (scheme, raw) => pqVerify64 scheme msg64 sig raw legacyMode

namespace CPubKey

def verify (pubkey : CPubKey) (hash : Uint256) (vchSig : Bytes) (legacyMode : Bool) : Bool :=
  pubkey.isValid && verifyPrefixed hash.toBytes vchSig pubkey.vch legacyMode

def verify512 (pubkey : CPubKey) (hash : Uint512) (vchSig : Bytes) (legacyMode : Bool) : Bool :=
  pubkey.isValid && verifyPrefixed64 hash.toBytes vchSig pubkey.vch legacyMode

end CPubKey

end

/-- The first byte of a valid key gives its length, so a key followed by other bytes can be told
from another one. -/
theorem CPubKey.append_injective {left right : CPubKey} (hleft : left.isValid)
    (hright : right.isValid) {rest rest' : Bytes} (heq : left.vch ++ rest = right.vch ++ rest') :
    left.vch = right.vch ∧ rest = rest' := by
  have hlength : ∀ {pubkey : CPubKey}, pubkey.isValid →
      ∃ chHeader pk, pubkey.vch = chHeader :: pk ∧ pubkey.vch.length = pubKeyLen chHeader := by
    intro pubkey hvalid
    cases hvch : pubkey.vch with
    | nil => simp [isValid, hvch] at hvalid
    | cons chHeader pk =>
      refine ⟨chHeader, pk, rfl, ?_⟩
      rcases pubkey.sized with hempty | hsize
      · rw [hvch] at hempty
        cases hempty
      · rw [hvch] at hsize
        simp only [validPubKeySize, Bool.and_eq_true, decide_eq_true_eq] at hsize
        exact hsize.2.symm
  obtain ⟨first, pk, hvch, hlen⟩ := hlength hleft
  obtain ⟨first', pk', hvch', hlen'⟩ := hlength hright
  have hfirst : first = first' := by
    rw [hvch, hvch', List.cons_append, List.cons_append] at heq
    exact (List.cons.inj heq).1
  exact List.append_inj heq (by rw [hlen, hlen', hfirst])

/-- The size of a raw secret key of the scheme. -/
def SchemeId.seckeyBytes : SchemeId → Nat
  | .falcon512 => 1281
  | .falcon1024 => 2305
  | .mldsa44 => 2560
  | .mldsa65 => 4032
  | .mldsa87 => 4896

/-- The first byte of a serialized key of the scheme. -/
def SchemeId.prefixByte : SchemeId → UInt8
  | .falcon512 => 0x07
  | .falcon1024 => 0x08
  | .mldsa44 => 0x09
  | .mldsa65 => 0x0a
  | .mldsa87 => 0x0b

def encodePubKey (scheme : SchemeId) (pk : Bytes) : Option Bytes :=
  if pk.length ≠ scheme.pubkeyBytes then none else some (scheme.prefixByte :: pk)

def isSecretKeyEncodingValid (scheme : SchemeId) (sk : Bytes) : Bool :=
  if sk.length ≠ scheme.seckeyBytes then false
  else match scheme with
    | .falcon512 => sk.head? = some (0x50 + 9)
    | .falcon1024 => sk.head? = some (0x50 + 10)
    | .mldsa44 | .mldsa65 | .mldsa87 => true

def identifySecretKey (sk : Bytes) : Option SchemeId :=
  [.falcon512, .falcon1024, .mldsa44, .mldsa65, .mldsa87].find? (isSecretKeyEncodingValid · sk)

/-- `DecodeSecretKey`: the scheme and the raw key. The legacy form is the raw key alone. -/
def decodeSecretKey (input : Bytes) (allowLegacy : Bool) : Option (SchemeId × Bytes) :=
  match input with
  | [] => none
  | first :: raw =>
    match (schemeFromPrefix first).filter fun prefixed => input.length =
      prefixed.seckeyBytes + 1 with
    | some prefixed => if isSecretKeyEncodingValid prefixed raw then some (prefixed, raw) else none
    | none =>
      if !allowLegacy then none
      else (identifySecretKey input).map fun info => (info, input)

def encodeSecretKey (scheme : SchemeId) (raw : Bytes) (includePrefix : Bool) : Option Bytes :=
  if !isSecretKeyEncodingValid scheme raw then none
  else some (if includePrefix then scheme.prefixByte :: raw else raw)

section

variable {scheme : SchemeId} {raw : Bytes}

lemma schemeFromPrefix_eq_some {byte : UInt8} :
    schemeFromPrefix byte = some scheme ↔ byte = scheme.prefixByte := by
  constructor
  · unfold schemeFromPrefix
    split_ifs with h h h h h <;> rintro ⟨⟩ <;> exact h
  · rintro rfl
    cases scheme <;> rfl

lemma decodePubKey_eq_some {pk : Bytes} :
    decodePubKey raw = some (scheme, pk) ↔ encodePubKey scheme pk = some raw := by
  cases raw with
  | nil => simp [decodePubKey, encodePubKey]
  | cons first rest =>
    have hfirst := @schemeFromPrefix_eq_some scheme first
    cases hprefix : schemeFromPrefix first with
    | none => grind [decodePubKey, encodePubKey]
    | some other => grind [decodePubKey, encodePubKey]

/-- The size of a secret key determines its scheme, and no secret key behind a prefix has the size
of another one. -/
theorem SchemeId.seckeyBytes_inj (scheme other : SchemeId) :
    (scheme.seckeyBytes = other.seckeyBytes → scheme = other) ∧
      scheme.seckeyBytes ≠ other.seckeyBytes + 1 := by
  cases scheme <;> cases other <;> decide

lemma length_of_isSecretKeyEncodingValid (hvalid : isSecretKeyEncodingValid scheme raw) :
    raw.length = scheme.seckeyBytes := by
  by_contra hlength
  simp [isSecretKeyEncodingValid, hlength] at hvalid

lemma identifySecretKey_eq_some :
    identifySecretKey raw = some scheme ↔ isSecretKeyEncodingValid scheme raw := by
  have hsound :
      ∀ {found}, identifySecretKey raw = some found → isSecretKeyEncodingValid found raw :=
    fun hfind => @List.find?_some _ (isSecretKeyEncodingValid · raw) _ _ hfind
  refine ⟨hsound, fun hvalid => ?_⟩
  cases hfind : identifySecretKey raw with
  | none =>
    rw [identifySecretKey, List.find?_eq_none] at hfind
    exact absurd hvalid (hfind scheme (by cases scheme <;> simp))
  | some other =>
    have hlength := length_of_isSecretKeyEncodingValid hvalid
    rw [length_of_isSecretKeyEncodingValid (hsound hfind)] at hlength
    rw [(SchemeId.seckeyBytes_inj _ _).1 hlength]

/-- What is accepted is exactly what `EncodeSecretKey` can return for the result. -/
theorem decodeSecretKey_eq_some {input : Bytes} {allowLegacy : Bool} :
    decodeSecretKey input allowLegacy = some (scheme, raw) ↔ ∃ includePrefix : Bool,
      (includePrefix || allowLegacy) ∧ encodeSecretKey scheme raw includePrefix = some input := by
  constructor
  · intro hdecode
    unfold decodeSecretKey at hdecode
    split at hdecode
    · cases hdecode
    split at hdecode
    case h_1 prefixed hprefixed =>
      rw [ite_none_right_eq_some] at hdecode
      obtain ⟨hvalid, ⟨⟩⟩ := hdecode
      have hbyte := schemeFromPrefix_eq_some.1 (filter_eq_some_iff.1 hprefixed).1
      exact ⟨true, rfl, by simp [encodeSecretKey, hvalid, hbyte]⟩
    case h_2 =>
      cases allowLegacy with
      | false => cases hdecode
      | true =>
        obtain ⟨info, hinfo, ⟨⟩⟩ := map_eq_some_iff.1 hdecode
        exact ⟨false, rfl, by simp [encodeSecretKey, identifySecretKey_eq_some.1 hinfo]⟩
  · rintro ⟨includePrefix, hallowed, hencode⟩
    simp only [encodeSecretKey, Bool.not_eq_true', ite_none_left_eq_some, Bool.not_eq_false,
      some_inj] at hencode
    obtain ⟨hvalid, rfl⟩ := hencode
    have hlength := length_of_isSecretKeyEncodingValid hvalid
    cases includePrefix with
    | true => simp [decodeSecretKey, schemeFromPrefix_eq_some.2 rfl, Option.filter, hlength, hvalid]
    | false =>
      cases raw with
      | nil => cases scheme <;> cases hlength
      | cons first rest =>
        -- The raw key has no scheme's prefixed length, whatever its first byte is.
        have hraw : (schemeFromPrefix first).filter
            (fun prefixed => (first :: rest).length = prefixed.seckeyBytes + 1) = none := by
          rw [filter_eq_none_iff, hlength]
          intro other _
          simpa using (SchemeId.seckeyBytes_inj scheme other).2
        rw [Bool.false_or] at hallowed
        subst hallowed
        change decodeSecretKey (first :: rest) true = _
        rw [decodeSecretKey, hraw, identifySecretKey_eq_some.2 hvalid]
        rfl

end

/-- The decoders invert the encoders and accept nothing else, so that no bytes encode two keys, and
a raw secret key is decoded as itself under the one scheme it is valid for. -/
theorem keyEncodings_unambiguous : (∀ scheme pk, pk.length = scheme.pubkeyBytes →
      (encodePubKey scheme pk).bind decodePubKey = some (scheme, pk)) ∧
    (∀ raw scheme pk, decodePubKey raw = some (scheme, pk) ↔ encodePubKey scheme pk = some raw) ∧
    (∀ input allowLegacy scheme raw, decodeSecretKey input allowLegacy = some (scheme, raw) ↔
      ∃ includePrefix : Bool, (includePrefix || allowLegacy) = true ∧
        encodeSecretKey scheme raw includePrefix = some input) ∧
    (∀ scheme raw, isSecretKeyEncodingValid scheme raw = true ↔
      identifySecretKey raw = some scheme) ∧
    ∀ scheme raw, isSecretKeyEncodingValid scheme raw = true →
      decodeSecretKey raw true = some (scheme, raw) ∧
      ∀ allowLegacy, (encodeSecretKey scheme raw true).bind (decodeSecretKey · allowLegacy) =
        some (scheme, raw) := by
  refine ⟨fun scheme pk hlength => ?_, fun _ _ _ => decodePubKey_eq_some,
    fun _ _ _ _ => decodeSecretKey_eq_some, fun _ _ => identifySecretKey_eq_some.symm,
    fun scheme raw hvalid => ⟨?_, fun allowLegacy => ?_⟩⟩
  · have hencode : encodePubKey scheme pk = some (scheme.prefixByte :: pk) := by
      simp [encodePubKey, hlength]
    rw [hencode]
    exact decodePubKey_eq_some.2 hencode
  · exact decodeSecretKey_eq_some.2 ⟨false, rfl, by simp [encodeSecretKey, hvalid]⟩
  · have hencode : encodeSecretKey scheme raw true = some (scheme.prefixByte :: raw) := by
      simp [encodeSecretKey, hvalid]
    rw [hencode]
    exact decodeSecretKey_eq_some.2 ⟨true, rfl, hencode⟩

end Tidecoin
