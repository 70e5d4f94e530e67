import Tidecoin.Script.Verify

/-!
More script flags only make the interpreter stricter, as long as the flags of the activation rules
stay the same. Every step of the loop under the larger set either fails or does what it does under
the smaller one, so a whole script does. `verifyScript` is different: without the witness flag it
does not look at the witness, and then the two runs end with different stacks. There the smaller set
has no check left that reads them.
-/

namespace Tidecoin

open Lib

namespace ScriptFlags.Relaxes

variable {flags flags' : ScriptFlags} (hflags : flags.Relaxes flags')

include hflags

variable (checker : SignatureChecker) (sigversion : SigVersion) (vch : Bytes)

lemma scriptNum (nMaxNumSize : Nat) :
    Restricts (scriptNum flags' vch nMaxNumSize) (scriptNum flags vch nMaxNumSize) :=
  .bind (.refl _) fun _ => .bind (hflags.whenFlag _ (.refl _)) fun _ => .refl _

lemma getint (nMaxNumSize : Nat) :
    Restricts (CScriptNum.getint <$> Tidecoin.scriptNum flags' vch nMaxNumSize)
      (CScriptNum.getint <$> Tidecoin.scriptNum flags vch nMaxNumSize) := by
  exact .bind (hflags.scriptNum _ _) fun _ => .refl _

lemma stackOp (op : StackOp) (stack altstack : List Bytes) :
    Restricts (op.apply flags' stack altstack) (op.apply flags stack altstack) := by
  -- Only the two opcodes that read a number depend on the flags.
  unfold StackOp.apply
  split
  case h_16 | h_17 => exact .bind (hflags.getint _ _) fun _ => .refl _
  all_goals exact .refl _

lemma checkSignatureHashType (version : SigVersion) (signature : Bytes) :
    Restricts (checkSignatureHashType flags' version signature)
      (checkSignatureHashType flags version signature) := by
  unfold Tidecoin.checkSignatureHashType
  split
  · exact .refl _
  · exact .ite (.refl _) (hflags.whenFlag _ (.refl _))

lemma dropSignature (scriptCode vchSig : Bytes) :
    Restricts (dropSignature flags' sigversion scriptCode vchSig)
      (dropSignature flags sigversion scriptCode vchSig) :=
  .ite (.bind (hflags.whenFlag _ (.refl _)) fun _ => .refl _) (.refl _)

lemma evalChecksig (vchSig vchPubKey codehash : Bytes) :
    Restricts (evalChecksig flags' checker sigversion vchSig vchPubKey codehash)
      (evalChecksig flags checker sigversion vchSig vchPubKey codehash) :=
  .bind (hflags.dropSignature _ _ _) fun _ => .bind (hflags.checkSignatureHashType _ _) fun _ =>
    .bind (hflags.whenFlag _ (.refl _)) fun _ => .refl _

lemma argumentCount (limit : Nat) (invalid : ScriptError) :
    Restricts (argumentCount flags' vch limit invalid) (argumentCount flags vch limit invalid) :=
  .bind (hflags.getint _ _) fun _ => .refl _

lemma evalCheckMultisig (verifies : Bool) (state : EvalState) :
    Restricts (evalCheckMultisig flags' checker sigversion verifies state)
      (evalCheckMultisig flags checker sigversion verifies state) := by
  unfold Tidecoin.evalCheckMultisig
  split
  · exact .refl _
  · refine .bind (hflags.argumentCount _ _ _) fun nKeysCount => .bind (.refl _) fun _ => ?_
    split
    · exact .refl _
    · refine .bind (hflags.argumentCount _ _ _) fun nSigsCount => ?_
      split
      · exact .refl _
      · refine .bind (.foldlM (fun _ _ => ?_) _ _) fun _ => ?_
        · exact .bind (hflags.checkSignatureHashType _ _) fun _ => hflags.dropSignature _ _ _
        · exact .bind (hflags.whenFlag _ (.refl _)) fun _ =>
            .bind (hflags.whenFlag _ (.refl _)) fun _ => .refl _

lemma evalCheckLockTime (stack : List Bytes) :
    Restricts (evalCheckLockTime flags' checker stack) (evalCheckLockTime flags checker stack) := by
  cases stack with
  | nil => exact .refl _
  | cons top stack => exact .bind (hflags.scriptNum _ _) fun _ => .refl _

lemma evalCheckSequence (stack : List Bytes) :
    Restricts (evalCheckSequence flags' checker stack) (evalCheckSequence flags checker stack) := by
  cases stack with
  | nil => exact .refl _
  | cons top stack => exact .bind (hflags.scriptNum _ _) fun _ => .refl _

lemma checkMinimalIf :
    Restricts (checkMinimalIf flags' sigversion vch) (checkMinimalIf flags sigversion vch) :=
  .ite (hflags.whenFlag _ (.refl _)) (.refl _)

lemma checkCodeSeparator (opcode : UInt8) :
    Restricts (checkCodeSeparator flags' sigversion opcode) (checkCodeSeparator flags sigversion
      opcode) :=
  .ite (hflags.whenFlag _ (.refl _)) (.refl _)

lemma evalBranch (negated : Bool) (state : EvalState) :
    Restricts (evalBranch flags' sigversion negated state) (evalBranch flags sigversion negated
      state) := by
  refine .ite ?_ (.refl _)
  split
  · exact .refl _
  · exact .bind (hflags.checkMinimalIf _ _) fun _ => .refl _

section

variable [Crypto] (checker : SignatureChecker) (sigversion : SigVersion)

/-- One case of the switch. `OP_SHA512` is the only one where a flag does more than add a check. -/
theorem execute (pc : Bytes) (state : EvalState) (op : Opcode) :
    Restricts (execute flags' checker sigversion pc state op)
      (execute flags checker sigversion pc state op) := by
  cases op with
  | pushValue | nop | otherwise | endIf | verify | fail | equal | hash | codeSeparator | bad =>
    exact .refl _
  | checkLockTimeVerify =>
    exact .bind (hflags.whenFlag _ (hflags.evalCheckLockTime _ _)) fun _ => .refl _
  | checkSequenceVerify =>
    exact .bind (hflags.whenFlag _ (hflags.evalCheckSequence _ _)) fun _ => .refl _
  | upgradableNop => exact .bind (hflags.whenFlag _ (.refl _)) fun _ => .refl _
  | branch negated => exact hflags.evalBranch _ _ _
  | stack op => exact .bind (hflags.stackOp _ _ _) fun _ => .refl _
  | unary op =>
    rw [Tidecoin.execute, Tidecoin.execute]
    split
    · exact .refl _
    · exact .bind (hflags.scriptNum _ _) fun _ => .refl _
  | binary op =>
    rw [Tidecoin.execute, Tidecoin.execute]
    split
    · exact .bind (hflags.scriptNum _ _) fun _ => .bind (hflags.scriptNum _ _) fun _ => .refl _
    · exact .refl _
  | within =>
    rw [Tidecoin.execute, Tidecoin.execute]
    split
    · exact .bind (hflags.scriptNum _ _) fun _ => .bind (hflags.scriptNum _ _) fun _ =>
        .bind (hflags.scriptNum _ _) fun _ => .refl _
    · exact .refl _
  | sha512 =>
    rw [Tidecoin.execute, Tidecoin.execute]
    rw [hflags.has_activation (by decide)]
    exact .ite (.refl _) (.bind (hflags.whenFlag _ (.refl _)) fun _ => .refl _)
  | checkSig verifies =>
    rw [Tidecoin.execute, Tidecoin.execute]
    split
    · exact .bind (hflags.evalChecksig _ _ _ _ _) fun _ => .refl _
    · exact .refl _
  | checkMultisig verifies => exact hflags.evalCheckMultisig _ _ _ _

variable (state : EvalState) (op : ScriptOp)

lemma evalInstruction : Restricts (evalInstruction flags' checker sigversion state op)
      (evalInstruction flags checker sigversion state op) :=
  .ite (.bind (hflags.whenFlag _ (.refl _)) fun _ =>
    .refl _) (.ite (hflags.execute _ _ _ _ _) (.refl _))

lemma evalStep :
    Restricts (evalStep flags' checker sigversion state op) (evalStep flags checker sigversion
      state op) :=
  .bind (.refl _) fun _ => .bind (.refl _) fun _ => .bind (.refl _) fun _ =>
    .bind (hflags.checkCodeSeparator _ _) fun _ =>
      .bind (hflags.evalInstruction _ _ _ _) fun _ => .refl _

lemma evalScript (script : Bytes) (stack : List Bytes) :
    Restricts (evalScript flags' checker sigversion script stack)
      (evalScript flags checker sigversion script stack) :=
  .bind (.refl _) fun _ => .bind (.foldlM (hflags.evalStep _ _) _ _) fun _ => .refl _

lemma executeWitnessScript (stack : List Bytes) (execScript : Bytes) :
    Restricts (executeWitnessScript flags' checker sigversion stack execScript)
      (executeWitnessScript flags checker sigversion stack execScript) :=
  .bind (.refl _) fun _ => .bind (hflags.evalScript _ _ _ _) fun _ => .refl _

lemma executeScriptHash (hash : Bytes → Bytes) (witness : List Bytes) (program : Bytes) :
    Restricts (executeScriptHash flags' checker sigversion hash witness program)
      (executeScriptHash flags checker sigversion hash witness program) := by
  unfold Tidecoin.executeScriptHash
  split
  · exact .refl _
  · exact .bind (.refl _) fun _ => hflags.executeWitnessScript _ _ _ _

lemma verifyWitnessProgram (witness : List Bytes) (witversion : Nat) (program : Bytes) :
    Restricts (verifyWitnessProgram flags' checker witness witversion program)
      (verifyWitnessProgram flags checker witness witversion program) := by
  unfold Tidecoin.verifyWitnessProgram
  rw [hflags.has_activation (by decide)]
  refine .ite (.ite ?_ (.ite ?_ (.refl _))) (.ite ?_ (hflags.whenFlag _ (.refl _)))
  · exact hflags.executeScriptHash _ _ _ _ _
  · exact .bind (.refl _) fun _ => hflags.executeWitnessScript _ _ _ _
  · exact .bind (.refl _) fun _ => hflags.executeScriptHash _ _ _ _ _

omit [Crypto] in
lemma isWitnessProgramForFlags (script : Bytes) :
    isWitnessProgramForFlags flags' script = isWitnessProgramForFlags flags script := by
  unfold Tidecoin.isWitnessProgramForFlags
  rw [hflags.has_activation (by decide)]

end

variable [Crypto] (checker : SignatureChecker)

section

variable (hwitness : flags.has .witness)
include hwitness

omit [Crypto] in
lemma p2sh_of_witness : flags.has .p2sh ∧ flags'.has .p2sh := by
  have hp2sh : flags.has .p2sh := decide_eq_true (flags.witnessRule (of_decide_eq_true hwitness))
  exact ⟨hp2sh, hflags.has hp2sh⟩

lemma verifyIfWitnessProgram (script : Bytes) (exactScriptSig : Prop)
    [Decidable exactScriptSig] (malleated : ScriptError) (witness : List Bytes) :
    Restricts (verifyIfWitnessProgram flags' checker script exactScriptSig malleated witness)
      (verifyIfWitnessProgram flags checker script exactScriptSig malleated witness) := by
  unfold Tidecoin.verifyIfWitnessProgram
  rw [if_pos hwitness, if_pos (hflags.has hwitness), hflags.isWitnessProgramForFlags]
  split
  · exact .refl _
  · exact .bind (.refl _) fun _ => .bind (hflags.verifyWitnessProgram _ _ _ _) fun _ => .refl _

lemma verifyScriptHash (scriptSig : Bytes) (stackCopy witness : List Bytes) :
    Restricts (verifyScriptHash flags' checker scriptSig stackCopy witness)
      (verifyScriptHash flags checker scriptSig stackCopy witness) := by
  refine .bind (.refl _) fun _ => ?_
  cases stackCopy with
  | nil => exact .refl _
  | cons pubKey2 stack =>
    exact .bind (hflags.evalScript _ _ _ _) fun _ => .bind (.refl _) fun _ =>
      .bind (hflags.verifyIfWitnessProgram _ hwitness _ _ _ _) fun _ => .refl _

lemma verifyNested (scriptSig scriptPubKey : Bytes)
    (stackCopy witness : List Bytes) (bareWitness : Bool) (stack : List Bytes) :
    Restricts (verifyNested flags' checker scriptSig scriptPubKey stackCopy witness
      bareWitness stack)
      (verifyNested flags checker scriptSig scriptPubKey stackCopy witness bareWitness stack) := by
  obtain ⟨hp2sh, hp2sh'⟩ := hflags.p2sh_of_witness hwitness
  unfold Tidecoin.verifyNested
  rw [hp2sh, hp2sh']
  exact .ite (.bind (hflags.verifyScriptHash _ hwitness _ _ _) fun _ => .refl _) (.refl _)

end

omit hflags in
lemma verifyIfWitnessProgram_off (hwitness : ¬flags.has .witness) (script : Bytes)
    (exactScriptSig : Prop) [Decidable exactScriptSig] (malleated : ScriptError)
    (witness : List Bytes) :
    Tidecoin.verifyIfWitnessProgram flags checker script exactScriptSig malleated witness =
      .ok false :=
  if_neg hwitness

section

variable {scriptSig : Bytes} {stackCopy witness : List Bytes} {result : Bool × List Bytes}

/-- Without the witness flag a script hash is still accepted, though the final stack may differ. -/
theorem verifyScriptHash_off (hwitness : ¬flags.has .witness)
    (hstrict : Tidecoin.verifyScriptHash flags' checker scriptSig stackCopy witness = .ok result) :
    ∃ result', Tidecoin.verifyScriptHash flags checker scriptSig stackCopy witness =
      .ok result' := by
  obtain ⟨⟨⟩, hpush, hstrict⟩ := bind_eq_ok.1 hstrict
  cases stackCopy with
  | nil => cases hstrict
  | cons pubKey2 stack =>
    obtain ⟨final, heval, hstrict⟩ := bind_eq_ok.1 hstrict
    obtain ⟨⟨⟩, htrue, -⟩ := bind_eq_ok.1 hstrict
    refine ⟨(false, final), bind_eq_ok.2 ⟨(), hpush, ?_⟩⟩
    refine bind_eq_ok.2 ⟨final, hflags.evalScript _ _ _ _ _ heval, ?_⟩
    refine bind_eq_ok.2 ⟨(), htrue, ?_⟩
    rw [verifyIfWitnessProgram_off checker hwitness]
    rfl

lemma verifyNested_off (hwitness : ¬flags.has .witness) {scriptPubKey : Bytes} {stack : List Bytes}
    {bareWitness : Bool}
    (hstrict : Tidecoin.verifyNested flags' checker scriptSig scriptPubKey stackCopy witness
      bareWitness stack = .ok result) :
    ∃ result', Tidecoin.verifyNested flags checker scriptSig scriptPubKey stackCopy witness false
      stack = .ok result' := by
  unfold Tidecoin.verifyNested at hstrict ⊢
  by_cases hhash : flags.has .p2sh = true ∧ Script.isPayToScriptHash scriptPubKey = true
  · rw [if_pos ⟨hflags.has hhash.1, hhash.2⟩] at hstrict
    obtain ⟨nested, hnested, -⟩ := bind_eq_ok.1 hstrict
    obtain ⟨result', hlenient⟩ := hflags.verifyScriptHash_off checker hwitness hnested
    rw [if_pos hhash, hlenient]
    exact ⟨_, rfl⟩
  · rw [if_neg hhash]
    exact ⟨_, rfl⟩

end

lemma verifyScript (scriptSig scriptPubKey : Bytes) (witness : List Bytes) :
    Restricts (verifyScript flags' checker scriptSig scriptPubKey witness)
      (verifyScript flags checker scriptSig scriptPubKey witness) := by
  refine .bind (hflags.whenFlag _ (.refl _)) fun _ => .bind (hflags.evalScript _ _ _ _) fun _ =>
    .bind (hflags.evalScript _ _ _ _) fun _ => .bind (.refl _) fun _ => ?_
  by_cases hwitness : flags.has .witness = true
  · exact .bind (hflags.verifyIfWitnessProgram _ hwitness _ _ _ _) fun _ =>
      .bind (hflags.verifyNested _ hwitness _ _ _ _ _ _) fun _ =>
        .bind (hflags.whenFlag _ (.refl _)) fun _ => hflags.whenFlag _ (.refl _)
  · -- The checks that read the final stack and the witness both need the witness flag.
    have hclean : ¬flags.has .cleanstack := fun hclean =>
      hwitness (decide_eq_true (flags.cleanstackRule (of_decide_eq_true hclean)).2)
    intro value hstrict
    obtain ⟨_, -, hstrict⟩ := bind_eq_ok.1 hstrict
    obtain ⟨_, hnested, -⟩ := bind_eq_ok.1 hstrict
    obtain ⟨result, hlenient⟩ := hflags.verifyNested_off checker hwitness hnested
    refine bind_eq_ok.2 ⟨false, verifyIfWitnessProgram_off checker hwitness _ _ _ _, ?_⟩
    refine bind_eq_ok.2 ⟨result, hlenient, ?_⟩
    refine bind_eq_ok.2 ⟨(), if_neg hclean, ?_⟩
    exact if_neg hwitness

end ScriptFlags.Relaxes

end Tidecoin
