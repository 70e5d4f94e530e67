import Tidecoin.Script.Interpreter

/-!
What `OP_CHECKMULTISIG` decides. Its loop is greedy: a signature is taken by the first key that
verifies it. No other choice of keys in the same order does better.
-/

namespace Tidecoin

open Lib List

/-- Each signature has its key among `keys`, in the order of the signatures. -/
def Matching (checks : (vchSig vchPubKey : Bytes) → Bool) (sigs keys : List Bytes) : Prop :=
  ∃ chosen, List.Sublist chosen keys ∧
    List.Forall₂ (fun vchSig vchPubKey => checks vchSig vchPubKey = true) sigs chosen

section

variable {checks : (vchSig vchPubKey : Bytes) → Bool} {vchSig vchPubKey : Bytes}
  {sigs keys : List Bytes}

lemma Matching.length_le (hmatching : Matching checks sigs keys) : sigs.length ≤ keys.length := by
  obtain ⟨chosen, hsublist, hchecks⟩ := hmatching
  rw [hchecks.length_eq]
  exact hsublist.length_le

/-- The exchange: the key of the first signature can be the first key, if that verifies it. -/
theorem matching_cons_of_checks (hcheck : checks vchSig vchPubKey) :
    Matching checks (vchSig :: sigs) (vchPubKey :: keys) ↔ Matching checks sigs keys := by
  constructor
  · rintro ⟨_ | ⟨_, chosen⟩, hsublist, hchecks⟩
    · cases hchecks
    · exact ⟨chosen, hsublist.tail, (forall₂_cons.1 hchecks).2⟩
  · rintro ⟨chosen, hsublist, hchecks⟩
    exact ⟨vchPubKey :: chosen, hsublist.cons_cons _, .cons hcheck hchecks⟩

lemma matching_cons_of_not_checks (hcheck : checks vchSig vchPubKey ≠ true) :
    Matching checks (vchSig :: sigs) (vchPubKey :: keys) ↔
      Matching checks (vchSig :: sigs) keys := by
  constructor
  · rintro ⟨chosen, hsublist, hchecks⟩
    cases hsublist with
    | cons _ hsublist => exact ⟨chosen, hsublist, hchecks⟩
    | cons_cons _ _ => exact absurd (forall₂_cons.1 hchecks).1 hcheck
  · rintro ⟨chosen, hsublist, hchecks⟩
    exact ⟨chosen, hsublist.cons _, hchecks⟩

lemma matchSignatures_iff : matchSignatures checks sigs keys ↔ Matching checks sigs keys := by
  induction keys generalizing sigs with
  | nil =>
    cases sigs with
    | nil => simp [matchSignatures, Matching]
    | cons vchSig sigs => simp [matchSignatures, Matching]
  | cons vchPubKey keys ih =>
    cases sigs with
    | nil => simp [matchSignatures, Matching]
    | cons vchSig sigs =>
      -- Leaving the loop early changes nothing: with fewer keys than signatures there is no
      -- matching.
      have hexit : ∀ left : List Bytes,
          (if left.length > keys.length then false else matchSignatures checks left keys) ↔
            Matching checks left keys := by
        intro left
        rw [← ih]
        split
        · simpa [ih] using fun hmatching : Matching checks left keys =>
            absurd hmatching.length_le (by omega)
        · rfl
      rw [matchSignatures, hexit]
      split
      case isTrue hcheck => exact (matching_cons_of_checks hcheck).symm
      case isFalse hcheck => exact (matching_cons_of_not_checks hcheck).symm

/-- A matching by positions. -/
theorem matching_iff_strictMono : Matching checks sigs keys ↔
    ∃ position : Fin sigs.length → Fin keys.length, StrictMono position ∧
      ∀ i, checks (sigs.get i) (keys.get (position i)) := by
  constructor
  · rintro ⟨chosen, hsublist, hchecks⟩
    obtain ⟨position, hget⟩ := sublist_iff_exists_fin_orderEmbedding_get_eq.1 hsublist
    obtain ⟨hlength, hchecks⟩ := forall₂_iff_get.1 hchecks
    refine ⟨fun i => position (i.cast hlength), fun i j hlt => position.strictMono hlt, fun i => ?_⟩
    rw [← hget]
    exact hchecks i i.isLt (hlength ▸ i.isLt)
  · rintro ⟨position, hmono, hchecks⟩
    have hlength := length_ofFn (f := fun i => keys.get (position i))
    refine ⟨ofFn fun i => keys.get (position i), sublist_iff_exists_fin_orderEmbedding_get_eq.2
        ⟨.ofStrictMono (fun i => position (i.cast hlength)) fun i j hlt => hmono hlt, fun i =>
          by simp; rfl⟩, ?_⟩
    refine forall₂_iff_get.2 ⟨hlength.symm, fun i hi _ => ?_⟩
    simpa using hchecks ⟨i, hi⟩

end

variable {flags : ScriptFlags} {sigversion : SigVersion} {state : EvalState}
  {top count dummy scriptCode : Bytes} {keys sigs rest : List Bytes}

lemma whenFlag_require_eq (flag : ScriptFlag) (condition : Prop) [Decidable condition]
    (invalid : ScriptError) : whenFlag flags flag (require condition invalid) =
      if flags.has flag ∧ ¬condition then .error invalid else .ok () := by
  simp only [whenFlag, require]
  split_ifs <;> tauto

/-- `OP_CHECKMULTISIG` on a stack that holds its arguments, keys and signatures from the top down,
with encodings that pass the checks before the loop: the arguments are replaced by one boolean,
which says whether the keys can be matched to the signatures in order. -/
theorem evalCheckMultisig_matching (checker : SignatureChecker)
    (hstack : state.stack = top :: (keys ++ count :: (sigs ++ dummy :: rest)))
    (hkeys : argumentCount flags top maxPubkeysPerMultisig .pubkeyCount = .ok keys.length)
    (hsigs : argumentCount flags count keys.length .sigCount = .ok sigs.length)
    (hops : state.nOpCount + keys.length ≤ maxOpsPerScript)
    (hencoding : sigs.foldlM (fun scriptCode vchSig => do
      checkSignatureHashType flags sigversion vchSig
      dropSignature flags sigversion scriptCode vchSig) state.codehash = .ok scriptCode)
    (hdummy : flags.has .nulldummy = true → dummy = []) : ∃ fSuccess : Bool,
      (fSuccess = true ↔ ∃ position : Fin sigs.length → Fin keys.length, StrictMono position ∧
        ∀ i, checker.checkPostQuantumSignature (sigs.get i) (keys.get (position i)) scriptCode
          sigversion = true) ∧ evalCheckMultisig flags checker sigversion false state =
        if flags.has .nullfail = true ∧ ¬(fSuccess = true ∨ ∀ vchSig ∈ sigs, vchSig = []) then
          .error .sigNullFail else .ok { state with
          stack := boolBytes fSuccess :: rest
          nOpCount := state.nOpCount + keys.length } := by
  refine ⟨matchSignatures (checker.checkPostQuantumSignature · · scriptCode sigversion) sigs keys,
    matchSignatures_iff.trans matching_iff_strictMono, ?_⟩
  simp only [bind, Except.bind] at hencoding
  have hempty : ¬(flags.has .nulldummy ∧ ¬dummy = []) := fun hfilled => hfilled.2 (hdummy hfilled.1)
  simp only [evalCheckMultisig, hstack, hkeys, hsigs, require_pos hops, hencoding,
    whenFlag_require_eq,
    if_neg hempty, drop_left, take_left, bind, Except.bind]
  split_ifs
  · rfl
  · rfl

/-- A signature that only the second of two keys verifies. -/
theorem evalCheckMultisig_matching_second_key :
    evalCheckMultisig ⟨∅, by decide, by decide⟩
        ⟨fun vchSig vchPubKey _ _ => vchSig = vchPubKey, fun _ => true, fun _ => true⟩ .witnessV0
        false ⟨[[2], [5], [1], [1], [1], [], [9]], [], ⟨0, none⟩, 0, []⟩ =
      .ok ⟨[[1], [9]], [], ⟨0, none⟩, 2, []⟩ := by
  obtain ⟨fSuccess, hmatching, hresult⟩ := @evalCheckMultisig_matching ⟨∅, by decide, by decide⟩
    .witnessV0 ⟨[[2], [5], [1], [1], [1], [], [9]], [], ⟨0, none⟩, 0, []⟩ [2] [1] [] [] [[5], [1]]
    [[1]] [[9]] ⟨fun vchSig vchPubKey _ _ => vchSig = vchPubKey, fun _ => true, fun _ => true⟩
    rfl rfl rfl (by decide) rfl (by decide)
  have hsuccess : fSuccess = true :=
    hmatching.2 ⟨fun _ => 1, Subsingleton.strictMono (α := Fin 1) _, Fin.forall_fin_one.2 rfl⟩
  rw [hresult, hsuccess]
  rfl

end Tidecoin
