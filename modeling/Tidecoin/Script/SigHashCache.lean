import Tidecoin.Script.SignatureHash

/-!
`SigHashCache` of `script/interpreter.h`, and `SignatureHash` with it. A midstate is modelled as the
bytes that were written so far.
-/

namespace Tidecoin

open Lib Script

/-- `SigHashCache::CacheIndex`. -/
def cacheIndex (hashType : BitVec 32) : Nat :=
  3 * (anyoneCanPay hashType).toNat + 2 * (hashSingle hashType).toNat + (hashNone hashType).toNat

/-- For each mode a script code and the midstate just before the hash type is added. -/
abbrev SigHashCache := Nat → Option (Bytes × Bytes)

namespace SigHashCache

def load (entries : SigHashCache) (hashType : BitVec 32) (scriptCode : Bytes) : Option Bytes :=
  match entries (cacheIndex hashType) with
  | none => none
  | some (script, writer) => if scriptCode = script then some writer else none

def store (entries : SigHashCache) (hashType : BitVec 32) (scriptCode writer : Bytes) :
    SigHashCache :=
  Function.update entries (cacheIndex hashType) (some (scriptCode, writer))

end SigHashCache

lemma hashSingle_and_hashNone (hashType : BitVec 32) :
    (hashSingle hashType && hashNone hashType) = false := by
  simp only [hashSingle, hashNone, Bool.and_eq_false_iff, decide_eq_false_iff_not]
  by_contra hboth
  push Not at hboth
  exact absurd (hboth.1.symm.trans hboth.2) (by decide)

/-- The index is one of the six entries of the source. -/
theorem cacheIndex_lt (hashType : BitVec 32) : cacheIndex hashType < 6 := by
  have hmode := hashSingle_and_hashNone hashType
  unfold cacheIndex
  revert hmode
  generalize anyoneCanPay hashType = a, hashSingle hashType = s, hashNone hashType = n
  revert a s n
  decide

/-- Hash types with the same index have the same mode. -/
theorem mode_eq_of_cacheIndex {nHashType other : BitVec 32}
    (heq : cacheIndex nHashType = cacheIndex other) :
    anyoneCanPay nHashType = anyoneCanPay other ∧ hashSingle nHashType = hashSingle other ∧
      hashNone nHashType = hashNone other := by
  have hall : ∀ a s n a' s' n' : Bool, (s && n) = false → (s' && n') = false →
      3 * a.toNat + 2 * s.toNat + n.toNat = 3 * a'.toNat + 2 * s'.toNat + n'.toNat →
      a = a' ∧ s = s' ∧ n = n' := by
    decide
  exact hall _ _ _ _ _ _ (hashSingle_and_hashNone _) (hashSingle_and_hashNone _) heq

namespace TransactionSignatureChecker

variable [Crypto] (checker : TransactionSignatureChecker) (sigversion : SigVersion)

/-- What `SignatureHash` writes before the hash type. -/
def writtenBytes (scriptCode : Bytes) (nHashType : BitVec 32) : Bytes :=
  if sigversion = .witnessV0 then
    witnessV0Bytes scriptCode checker.txTo checker.nIn nHashType checker.amount checker.txdata
  else serializeForSignature checker.txTo scriptCode checker.nIn nHashType

/-- `SignatureHash` with a cache of midstates. -/
def signatureHashCached (sighashCache : SigHashCache) (scriptCode : Bytes) (nHashType : BitVec 32) :
    Uint256 × SigHashCache :=
  if sigversion ≠ .witnessV0 ∧ hashSingle nHashType = true ∧ checker.txTo.vout.length ≤
    checker.nIn.val then
    (1, sighashCache)
  else match sighashCache.load nHashType scriptCode with
    | some ss => (hashBytes (ss ++ serHashType nHashType), sighashCache)
    | none =>
      let ss := checker.writtenBytes sigversion scriptCode nHashType
      (hashBytes (ss ++ serHashType nHashType), sighashCache.store nHashType scriptCode ss)

/-- The hashes of one call after the other, each for a script code and a hash type. -/
def signatureHashes (sighashCache : SigHashCache) :
    (calls : List (Bytes × BitVec 32)) → List Uint256
  | [] => []
  | (scriptCode, nHashType) :: calls =>
    let called := checker.signatureHashCached sigversion sighashCache scriptCode nHashType
    called.1 :: signatureHashes called.2 calls

lemma writtenBytes_congr {nHashType other : BitVec 32}
    (heq : cacheIndex nHashType = cacheIndex other)
    (scriptCode : Bytes) : checker.writtenBytes sigversion scriptCode nHashType =
      checker.writtenBytes sigversion scriptCode other := by
  obtain ⟨hanyone, hsingle, hnone⟩ := mode_eq_of_cacheIndex heq
  have hinput : serializeInput checker.txTo scriptCode checker.nIn nHashType =
      serializeInput checker.txTo scriptCode checker.nIn other := by
    funext nInput
    rw [serializeInput, serializeInput, hsingle, hnone]
  simp only [writtenBytes, witnessV0Bytes, serializeForSignature, serializeInputs, serializeOutputs,
    hanyone, hsingle, hnone, hinput]

lemma signatureHash_eq (scriptCode : Bytes) (nHashType : BitVec 32) :
    signatureHash scriptCode checker.txTo checker.nIn nHashType checker.amount checker.txdata
      sigversion =
      if sigversion ≠ .witnessV0 ∧ hashSingle nHashType ∧ checker.txTo.vout.length ≤
        checker.nIn.val then 1
      else hashBytes (checker.writtenBytes sigversion scriptCode nHashType ++
        serHashType nHashType) := by
  unfold signatureHash writtenBytes
  cases sigversion <;> simp

/-- An entry is what would be written for its script code, under every hash type that finds it. -/
def CacheValid (sighashCache : SigHashCache) : Prop :=
  ∀ nHashType scriptCode ss, sighashCache.load nHashType scriptCode = some ss →
    ss = checker.writtenBytes sigversion scriptCode nHashType

variable {checker sigversion} {sighashCache : SigHashCache}

section

variable (hvalid : checker.CacheValid sigversion sighashCache)
include hvalid

lemma CacheValid.store (nHashType : BitVec 32) (scriptCode : Bytes) : checker.CacheValid sigversion
      (sighashCache.store nHashType scriptCode (checker.writtenBytes sigversion scriptCode
        nHashType)) := by
  intro other script ss hload
  by_cases hindex : cacheIndex other = cacheIndex nHashType
  · rw [SigHashCache.load, SigHashCache.store, hindex, Function.update_self] at hload
    simp only [Option.ite_none_right_eq_some, Option.some_inj] at hload
    rw [← hload.2, hload.1]
    exact checker.writtenBytes_congr sigversion hindex.symm scriptCode
  · rw [SigHashCache.load, SigHashCache.store, Function.update_of_ne hindex] at hload
    exact hvalid other script ss hload

/-- One call: the hash is the one computed without the cache, and the cache stays valid. -/
theorem signatureHashCached_valid (scriptCode : Bytes) (nHashType : BitVec 32) :
    let called := checker.signatureHashCached sigversion sighashCache scriptCode nHashType
    called.1 = signatureHash scriptCode checker.txTo checker.nIn nHashType checker.amount
      checker.txdata
        sigversion ∧ checker.CacheValid sigversion called.2 := by
  rw [signatureHash_eq, signatureHashCached]
  split
  · exact ⟨rfl, hvalid⟩
  · cases hload : sighashCache.load nHashType scriptCode with
    | some ss => exact ⟨by rw [hvalid _ _ _ hload], hvalid⟩
    | none => exact ⟨rfl, hvalid.store nHashType scriptCode⟩

lemma signatureHashes_eq (calls : List (Bytes × BitVec 32)) :
    checker.signatureHashes sigversion sighashCache calls =
      calls.map fun call => signatureHash call.1 checker.txTo checker.nIn call.2 checker.amount
        checker.txdata sigversion := by
  induction calls generalizing sighashCache with
  | nil => rfl
  | cons call calls ih =>
    obtain ⟨hhash, hnext⟩ := signatureHashCached_valid hvalid call.1 call.2
    rw [signatureHashes, hhash, ih hnext, List.map_cons]

end

/-- The cache changes no hash, in any sequence of calls for one input under one version. With the
data precomputed for the transaction the hashes are those computed without any cache. -/
theorem signatureHashes_eq_uncached (checker : TransactionSignatureChecker)
    (sigversion : SigVersion)
    (calls : List (Bytes × BitVec 32)) :
    (checker.signatureHashes sigversion (fun _ => none) calls = calls.map fun call =>
      signatureHash call.1 checker.txTo checker.nIn call.2 checker.amount checker.txdata
        sigversion) ∧
    ∀ spentOutputs force, signatureHashes ⟨checker.txTo, checker.nIn, checker.amount,
          some (.init checker.txTo spentOutputs force), checker.allowLegacy⟩
        sigversion (fun _ => none) calls = calls.map fun call =>
        signatureHash call.1 checker.txTo checker.nIn call.2 checker.amount none sigversion := by
  have hstart :
      ∀ checker : TransactionSignatureChecker, checker.CacheValid sigversion fun _ => none :=
    fun _ _ _ _ hload => nomatch hload
  constructor
  · exact signatureHashes_eq (hstart checker) calls
  · intro spentOutputs force
    rw [signatureHashes_eq (hstart _)]
    simp only [signatureHash_init]

end TransactionSignatureChecker

end Tidecoin
