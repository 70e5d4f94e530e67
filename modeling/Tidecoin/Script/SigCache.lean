import Tidecoin.CuckooCache
import Tidecoin.PubKey

/-!
The signature cache of `script/sigcache.cpp`, shared by the caching signature checkers. An entry is
the hash of everything the verification reads, and an entry is stored only after a successful
verification; so a hit means that the same verification succeeded before.
-/

namespace Tidecoin

open Lib List Uint256

/-- `SignatureCache`: the two salted hashers differ in the padding that follows the nonce. -/
structure SignatureCache where
  nonce : Uint256
  setValid : CuckooCache Uint256

/-- `PADDING_PQ`: the letter P. -/
def paddingPQ : Bytes := 0x50 :: List.replicate 31 0

/-- `PADDING_PQ512`: the characters P512. -/
def paddingPQ512 : Bytes := [0x50, 0x35, 0x31, 0x32] ++ List.replicate 28 0

/-- `SignatureCacheHasher`: four bytes of the entry. -/
def signatureCacheHasher (hashSelect : Nat) (key : Uint256) : UInt32 :=
  UInt32.ofNat (leToNat ((key.toBytes.drop (4 * hashSelect)).take 4))

/-- The bytes `ComputeEntryPQ` hashes. -/
def entryBytesPQ (nonce hash : Uint256) (vchSig : Bytes) (pubkey : CPubKey) (allowLegacy : Bool) :
    Bytes :=
  nonce.toBytes ++ paddingPQ ++ hash.toBytes ++ [if allowLegacy then 1 else 0] ++
    pubkey.vch ++ vchSig

/-- The bytes `ComputeEntryPQ512` hashes: there is no tag, the verification is always strict. -/
def entryBytesPQ512 (nonce : Uint256) (hash : Uint512) (vchSig : Bytes) (pubkey : CPubKey) :
    Bytes :=
  nonce.toBytes ++ paddingPQ512 ++ hash.toBytes ++ pubkey.vch ++ vchSig

namespace SignatureCache

/-- The constructor, for a table of `num_elems` slots. -/
def new (nonce : Uint256) (numElems depthLimit : Nat) : SignatureCache where
  nonce := nonce
  setValid := CuckooCache.setup 0 numElems depthLimit

def get (cache : SignatureCache) (entry : Uint256) (erase : Bool) : Bool × SignatureCache :=
  let (found, setValid) := cache.setValid.contains signatureCacheHasher entry erase
  (found, { cache with setValid })

def set (cache : SignatureCache) (entry : Uint256) : SignatureCache :=
  { cache with setValid := cache.setValid.insert signatureCacheHasher entry }

variable [Crypto]

variable (cache : SignatureCache)

def computeEntryPQ (hash : Uint256) (vchSig : Bytes) (pubkey : CPubKey) (allowLegacy : Bool) :
    Uint256 :=
  Uint256.ofBytes (Crypto.sha256 (entryBytesPQ cache.nonce hash vchSig pubkey allowLegacy))

def computeEntryPQ512 (hash : Uint512) (vchSig : Bytes) (pubkey : CPubKey) : Uint256 :=
  Uint256.ofBytes (Crypto.sha256 (entryBytesPQ512 cache.nonce hash vchSig pubkey))

/-- The body the two caching verifications share: look the entry up, verify when it is absent and
store it after a success. -/
def verifyCached (store : Bool) (entry : Uint256) (verified : Bool) : Bool × SignatureCache :=
  let (found, cache) := cache.get entry (!store)
  if found then (true, cache)
  else if !verified then (false, cache)
  else (true, if store then cache.set entry else cache)

end SignatureCache

/-- The settings of a `TransactionSignatureChecker` and of the caching one derived from it. -/
structure CachingSignatureChecker where
  allowLegacy : Bool
  store : Bool
deriving DecidableEq, Repr

namespace CachingSignatureChecker

variable [PqVerify]

/-- `GenericTransactionSignatureChecker::VerifyPostQuantumSignature`. -/
def verifyUncached (checker : CachingSignatureChecker) (vchSig : Bytes) (pubkey : CPubKey)
    (sighash : Uint256) : Bool :=
  pubkey.verify sighash vchSig checker.allowLegacy

/-- `GenericTransactionSignatureChecker::VerifyPostQuantumSignature512`: strict for every
checker. -/
def verifyUncached512 (_checker : CachingSignatureChecker) (vchSig : Bytes) (pubkey : CPubKey)
    (sighash : Uint512) : Bool :=
  pubkey.verify512 sighash vchSig false

variable [Crypto]

variable (checker : CachingSignatureChecker) (cache : SignatureCache) (vchSig : Bytes)
  (pubkey : CPubKey)

def verifyPostQuantumSignature (sighash : Uint256) : Bool × SignatureCache :=
  cache.verifyCached checker.store
    (cache.computeEntryPQ sighash vchSig pubkey checker.allowLegacy)
    (checker.verifyUncached vchSig pubkey sighash)

def verifyPostQuantumSignature512 (sighash : Uint512) : Bool × SignatureCache :=
  cache.verifyCached checker.store (cache.computeEntryPQ512 sighash vchSig pubkey)
    (checker.verifyUncached512 vchSig pubkey sighash)

end CachingSignatureChecker

/-- The hash a call verifies a signature of. -/
inductive SigHash where
  | hash256 (sighash : Uint256)
  | hash512 (sighash : Uint512)
deriving DecidableEq, Repr

/-- A call of one of the two verification functions. -/
structure VerifyCall where
  checker : CachingSignatureChecker
  vchSig : Bytes
  pubkey : CPubKey
  sighash : SigHash
deriving DecidableEq, Repr

namespace VerifyCall

/-- The bytes the cache hashes for the call. -/
def entryBytes (nonce : Uint256) (call : VerifyCall) : Bytes :=
  match call.sighash with
  | .hash256 sighash =>
    entryBytesPQ nonce sighash call.vchSig call.pubkey call.checker.allowLegacy
  | .hash512 sighash => entryBytesPQ512 nonce sighash call.vchSig call.pubkey

section

variable [PqVerify]

/-- The answer without a cache. -/
def uncached (call : VerifyCall) : Bool :=
  match call.sighash with
  | .hash256 sighash => call.checker.verifyUncached call.vchSig call.pubkey sighash
  | .hash512 sighash => call.checker.verifyUncached512 call.vchSig call.pubkey sighash

/-- The signature is valid under the strict rules. -/
def StrictlyValid (call : VerifyCall) : Prop :=
  match call.sighash with
  | .hash256 sighash => call.pubkey.verify sighash call.vchSig false = true
  | .hash512 sighash => call.pubkey.verify512 sighash call.vchSig false = true

variable [Crypto]

/-- The answer of the caching checker. -/
def run (call : VerifyCall) (cache : SignatureCache) : Bool × SignatureCache :=
  match call.sighash with
  | .hash256 sighash =>
    call.checker.verifyPostQuantumSignature cache call.vchSig call.pubkey sighash
  | .hash512 sighash =>
    call.checker.verifyPostQuantumSignature512 cache call.vchSig call.pubkey sighash

/-- The answers of a sequence of calls on one cache. -/
def runAll : List VerifyCall → SignatureCache → List Bool × SignatureCache
  | [], cache => ([], cache)
  | call :: calls, cache =>
    let (answer, cache) := call.run cache
    let (answers, cache) := runAll calls cache
    (answer :: answers, cache)

end

section

variable [Crypto]

/-- The cache entry of the call. -/
def entry (nonce : Uint256) (call : VerifyCall) : Uint256 :=
  Uint256.ofBytes (Crypto.sha256 (call.entryBytes nonce))

/-- SHA-256 has no collision among the inputs the calls hash. -/
def CollisionFree (nonce : Uint256) (calls : List VerifyCall) : Prop :=
  Set.InjOn Crypto.sha256 {bytes | ∃ call ∈ calls, call.entryBytes nonce = bytes}

lemma collisionFree_iff {nonce : Uint256} {calls : List VerifyCall} :
    CollisionFree nonce calls ↔ ∀ call ∈ calls, ∀ other ∈ calls,
      Crypto.sha256 (call.entryBytes nonce) = Crypto.sha256 (other.entryBytes nonce) →
        call.entryBytes nonce = other.entryBytes nonce := by
  constructor
  · intro hfree call hcall other hother heq
    exact hfree ⟨call, hcall, rfl⟩ ⟨other, hother, rfl⟩ heq
  · rintro hfree _ ⟨call, hcall, rfl⟩ _ ⟨other, hother, rfl⟩ heq
    exact hfree call hcall other hother heq

lemma entryBytes_eq_of_entry_eq {nonce : Uint256} {calls : List VerifyCall}
    (hfree : CollisionFree nonce calls) {call other : VerifyCall} (hcall : call ∈ calls)
    (hother : other ∈ calls) (heq : call.entry nonce = other.entry nonce) :
    call.entryBytes nonce = other.entryBytes nonce := by
  have hbytes := congrArg toBytes heq
  rw [entry, entry, toBytes_ofBytes (Crypto.sha256Length _),
    toBytes_ofBytes (Crypto.sha256Length _)] at hbytes
  exact collisionFree_iff.1 hfree call hcall other hother hbytes

end

lemma entryBytesPQ_ne_entryBytesPQ512 (nonce hash : Uint256) (hash' : Uint512)
    (vchSig vchSig' : Bytes) (pubkey pubkey' : CPubKey) (allowLegacy : Bool) :
    entryBytesPQ nonce hash vchSig pubkey allowLegacy ≠ entryBytesPQ512 nonce hash' vchSig'
      pubkey' := by
  intro heq
  simp only [entryBytesPQ, entryBytesPQ512, append_assoc] at heq
  have hafter := (append_inj heq rfl).2
  have hpadding : paddingPQ = paddingPQ512 := (append_inj hafter rfl).1
  revert hpadding
  decide

variable [PqVerify]

variable {call : VerifyCall}

/-- Calls with valid keys that hash the same bytes get the same answer: every field is read back
from the bytes, the end of the key from its first byte. -/
theorem uncached_eq_of_entryBytes_eq {nonce : Uint256} {other : VerifyCall}
    (hvalid : call.pubkey.isValid) (hvalid' : other.pubkey.isValid)
    (heq : call.entryBytes nonce = other.entryBytes nonce) : call.uncached = other.uncached := by
  obtain ⟨⟨allowLegacy, store⟩, vchSig, pubkey, sighash⟩ := call
  obtain ⟨⟨allowLegacy', store'⟩, vchSig', pubkey', sighash'⟩ := other
  cases sighash with
  | hash256 sighash =>
    cases sighash' with
    | hash256 sighash' =>
      simp only [entryBytes, entryBytesPQ, append_assoc] at heq
      have hafter := (append_inj heq rfl).2
      have hafter := (append_inj hafter rfl).2
      obtain ⟨hhash, hafter⟩ := append_inj hafter (by simp)
      obtain ⟨htag, hafter⟩ := append_inj hafter rfl
      obtain ⟨hkey, hsig⟩ := CPubKey.append_injective hvalid hvalid' hafter
      have hlegacy : allowLegacy = allowLegacy' := by
        cases allowLegacy <;> cases allowLegacy' <;> simp at htag ⊢
      have hpubkey : pubkey = pubkey' := CPubKey.ext hkey
      subst hlegacy hpubkey hsig
      simp [uncached, CachingSignatureChecker.verifyUncached, toBytes_injective hhash]
    | hash512 sighash' => exact (entryBytesPQ_ne_entryBytesPQ512 _ _ _ _ _ _ _ _ heq).elim
  | hash512 sighash =>
    cases sighash' with
    | hash256 sighash' => exact (entryBytesPQ_ne_entryBytesPQ512 _ _ _ _ _ _ _ _ heq.symm).elim
    | hash512 sighash' =>
      simp only [entryBytes, entryBytesPQ512, append_assoc] at heq
      have hafter := (append_inj heq rfl).2
      have hafter := (append_inj hafter rfl).2
      obtain ⟨hhash, hafter⟩ := append_inj hafter (by simp)
      obtain ⟨hkey, hsig⟩ := CPubKey.append_injective hvalid hvalid' hafter
      have hpubkey : pubkey = pubkey' := CPubKey.ext hkey
      subst hpubkey hsig
      simp [uncached, CachingSignatureChecker.verifyUncached512, Uint512.toBytes_injective hhash]

lemma uncached_strict (hstrict : call.checker.allowLegacy = false) (haccepted : call.uncached) :
    call.StrictlyValid := by
  unfold uncached CachingSignatureChecker.verifyUncached at haccepted
  rw [hstrict] at haccepted
  unfold StrictlyValid
  cases hsighash : call.sighash with
  | hash256 sighash =>
    rw [hsighash] at haccepted
    exact haccepted
  | hash512 sighash =>
    rw [hsighash] at haccepted
    exact haccepted

variable [Crypto]

/-- Every slot of the cache holds zero, which it starts with, or the entry of one of the calls
whose verification succeeds. -/
def Sound (nonce : Uint256) (calls : List VerifyCall) (cache : SignatureCache) : Prop :=
  cache.nonce = nonce ∧ cache.setValid.Holds fun entry =>
    entry = 0 ∨ ∃ call ∈ calls, call.entry nonce = entry ∧ call.uncached = true

lemma Sound.new (nonce : Uint256) (calls : List VerifyCall) (numElems depthLimit : Nat) :
    Sound nonce calls (SignatureCache.new nonce numElems depthLimit) :=
  ⟨rfl, fun _ => .inl rfl⟩

variable {cache : SignatureCache}

lemma run_eq_verifyCached {nonce : Uint256} (hnonce : cache.nonce = nonce) (call : VerifyCall) :
    call.run cache = cache.verifyCached call.checker.store (call.entry nonce) call.uncached := by
  subst hnonce
  unfold run entry entryBytes uncached
  cases call.sighash with
  | hash256 sighash => rfl
  | hash512 sighash => rfl

variable {nonce : Uint256} {calls : List VerifyCall}

variable (hsound : Sound nonce calls cache) (hvalid : ∀ call ∈ calls, call.pubkey.isValid)
    (hfree : CollisionFree nonce calls) (hzero : ∀ call ∈ calls, call.entry nonce ≠ 0)
include hsound hvalid hfree hzero

lemma Sound.run (hcall : call ∈ calls) :
    (call.run cache).1 = call.uncached ∧ Sound nonce calls (call.run cache).2 := by
  obtain ⟨hnonce, hholds⟩ := hsound
  obtain ⟨hfound, hlooked⟩ :=
    hholds.contains signatureCacheHasher (call.entry nonce) (!call.checker.store)
  rw [run_eq_verifyCached hnonce, SignatureCache.verifyCached, SignatureCache.get]
  dsimp only
  split
  case isTrue hhit =>
    -- A hit: the entry is the one of an earlier call, which hashed the same bytes.
    rcases hfound hhit with hempty | ⟨other, hother, hentry, hverified⟩
    · exact absurd hempty (hzero call hcall)
    · have hbytes := entryBytes_eq_of_entry_eq hfree hother hcall hentry
      have hanswer := uncached_eq_of_entryBytes_eq (hvalid other hother) (hvalid call hcall) hbytes
      exact ⟨by rw [← hanswer, hverified], hnonce, hlooked⟩
  case isFalse =>
    cases hverified : call.uncached with
    | false => exact ⟨rfl, hnonce, hlooked⟩
    | true =>
      refine ⟨rfl, ?_⟩
      simp only [Bool.not_true, Bool.false_eq_true, if_false]
      split
      · exact ⟨hnonce, hlooked.insert signatureCacheHasher (.inr ⟨call, hcall, rfl, hverified⟩)⟩
      · exact ⟨hnonce, hlooked⟩

lemma Sound.runAll {rest : List VerifyCall} (hrest : rest ⊆ calls) :
    (VerifyCall.runAll rest cache).1 = rest.map VerifyCall.uncached := by
  induction rest generalizing cache with
  | nil => rfl
  | cons call rest ih =>
    obtain ⟨hcall, hrest⟩ := cons_subset.1 hrest
    obtain ⟨hanswer, hsound⟩ := hsound.run hvalid hfree hzero hcall
    rw [VerifyCall.runAll]
    dsimp only
    rw [hanswer, ih hsound hrest, map_cons]

end VerifyCall

open VerifyCall

/-- The cache changes no answer: calls with syntactically valid keys, on checkers of any settings
that share one cache, are answered as without a cache. It is assumed that SHA-256 has no collision
among the entries of the calls and maps none of them to zero, the element of an empty slot. In
particular a strict checker never accepts a signature that only the legacy rules accept. -/
theorem runAll_eq_uncached [Crypto] [PqVerify] (nonce : Uint256) (numElems depthLimit : Nat)
    (calls : List VerifyCall) (hvalid : ∀ call ∈ calls, call.pubkey.isValid = true)
    (hfree : CollisionFree nonce calls) (hzero : ∀ call ∈ calls, call.entry nonce ≠ 0) :
    let answers := (runAll calls (SignatureCache.new nonce numElems depthLimit)).1
    answers = calls.map VerifyCall.uncached ∧
      ∀ call answer, (call, answer) ∈ calls.zip answers → call.checker.allowLegacy = false →
        answer = true → call.StrictlyValid := by
  intro answers
  have hanswers : answers = calls.map VerifyCall.uncached :=
    (Sound.new nonce calls numElems depthLimit).runAll hvalid hfree hzero (Subset.refl calls)
  refine ⟨hanswers, ?_⟩
  intro call answer hmem hstrict haccepted
  rw [hanswers, zip_eq_zipWith, zipWith_map_right, zipWith_self] at hmem
  obtain ⟨other, _, hpair⟩ := mem_map.1 hmem
  obtain ⟨rfl, hanswer⟩ := Prod.mk.inj hpair
  exact uncached_strict hstrict (hanswer.trans haccepted)

/-- Verification algorithms that can be evaluated: Falcon-512 accepts every signature in legacy
mode, and the signature `[1]` alone otherwise. -/
@[reducible] def PqVerify.legacyLax : PqVerify where
  falcon512 sig _ _ legacyMode := legacyMode || sig = [1]
  falcon1024 _ _ _ := false
  mldsa44 _ _ _ := false
  mldsa65 _ _ _ := false
  mldsa87 _ _ _ := false

/-- A syntactically valid Falcon-512 key. -/
def sampleKey : CPubKey := CPubKey.set (0x07 :: List.replicate 897 0)

/-- A lax signature accepted and stored by a checker of the legacy rules, and then looked up by a
strict checker. -/
theorem runAll_eq_uncached_legacy : let calls : List VerifyCall :=
      [⟨⟨true, true⟩, [2], sampleKey, .hash256 7⟩, ⟨⟨false, true⟩, [2], sampleKey, .hash256 7⟩]
    (@runAll .legacyLax .digits calls (.new 5 16 4)).1 =
        calls.map (@VerifyCall.uncached .legacyLax) ∧
      calls.map (@VerifyCall.uncached .legacyLax) = [true, false] := by
  intro calls
  refine ⟨?_, by decide +kernel⟩
  refine (@runAll_eq_uncached .digits PqVerify.legacyLax 5 16 4 calls ?_ ?_ ?_).1
  · decide +kernel
  · apply (@collisionFree_iff .digits 5 calls).2
    decide +kernel
  · decide +kernel

/-- Neither restriction can be dropped. An invalid key is empty, so its entry for the signature
`key ++ [1]` is the one of the valid key for `[1]`: after the second was stored the first is
accepted. And an entry that hashes to zero is found in an empty cache. SHA-256 has no collision
among the entries of either run. -/
theorem runAll_ne_uncached : (let calls : List VerifyCall :=
      [⟨⟨false, true⟩, [1], sampleKey, .hash256 7⟩,
        ⟨⟨false, true⟩, sampleKey.vch ++ [1], CPubKey.set [], .hash256 7⟩]
    @CollisionFree .digits 5 calls ∧
      (@runAll .legacyLax .digits calls (.new 5 16 4)).1 = [true, true] ∧
      calls.map (@VerifyCall.uncached .legacyLax) = [true, false]) ∧
    (let crypto : Crypto :=
      { Crypto.digits with
        sha256 := fun _ => natToLE 32 0
        sha256Length := fun _ => natToLE_length 32 0 }
    let calls : List VerifyCall := [⟨⟨false, true⟩, [2], sampleKey, .hash256 7⟩]
    @CollisionFree crypto 5 calls ∧ (@runAll .legacyLax crypto calls (.new 5 16 4)).1 = [true] ∧
      calls.map (@VerifyCall.uncached .legacyLax) = [false]) := by
  constructor
  · intro calls
    refine ⟨(@collisionFree_iff .digits 5 calls).2 ?_, ?_, ?_⟩
    · decide +kernel
    · decide +kernel
    · decide +kernel
  · intro crypto calls
    refine ⟨(@collisionFree_iff crypto 5 calls).2 ?_, ?_, ?_⟩
    · intro call hcall other hother _
      rw [mem_singleton.1 hcall, mem_singleton.1 hother]
    · decide +kernel
    · decide +kernel

end Tidecoin
