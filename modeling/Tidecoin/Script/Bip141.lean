import Tidecoin.Script.Programs

/-!
The interpreter of BIP141, as a reference. A witness program is a version opcode and one direct push
of 2 to 40 bytes, only version 0 has a meaning, and `OP_NOP4` is a NOP that may be upgraded. The
instructions themselves are those of the program. Before the activation flags are set the program's
interpreter and its count of signature operations are these.
-/

namespace Tidecoin

open Lib

namespace Bip141

/-- `OP_NOP4`, which the program calls `OP_SHA512`. -/
def opNop4 : UInt8 := 0xb3

def decode (opcode : UInt8) : Opcode :=
  if opcode = opNop4 then .upgradableNop else Opcode.decode opcode

/-- The version and the program of a script that is a witness program. -/
def isWitnessProgram (script : Bytes) : Option (Nat × Bytes) :=
  match script with
  | version :: size :: program =>
    if (version = op0 ∨ op1 ≤ version ∧ version ≤ op16) ∧ size.toNat = program.length ∧
        2 ≤ program.length ∧ program.length ≤ 40 then
      some (Script.decodeOpN version, program)
    else none
  | _ => none

section

variable [Crypto] (flags : ScriptFlags) (checker : SignatureChecker)

section

variable (sigversion : SigVersion) (state : EvalState) (op : ScriptOp)

def evalInstruction : Except ScriptError EvalState :=
  if state.vfExec.allTrue = true ∧ op.opcode ≤ opPushdata4 then do
    whenFlag flags .minimaldata (require (Script.checkMinimalPush op.data op.opcode =
      true) .minimalData)
    return { state with stack := op.data :: state.stack }
  else if state.vfExec.allTrue = true ∨ (opIf ≤ op.opcode ∧ op.opcode ≤ opEndif) then
    execute flags checker sigversion op.rest state (decode op.opcode)
  else .ok state

def evalStep :
    Except ScriptError EvalState := do
  require (op.data.length ≤ maxScriptElementSize) .pushSize
  let nOpCount := if op.opcode > op16 then state.nOpCount + 1 else state.nOpCount
  require (op.opcode > op16 → nOpCount ≤ maxOpsPerScript) .opCount
  require (isDisabled op.opcode = false) .disabledOpcode
  checkCodeSeparator flags sigversion op.opcode
  let next ← evalInstruction flags checker sigversion { state with nOpCount } op
  require (next.stack.length + next.altstack.length ≤ maxStackSize) .stackSize
  return next

end

def evalScript (sigversion : SigVersion) (script : Bytes) (stack : List Bytes) :
    Except ScriptError (List Bytes) := do
  require (script.length ≤ maxScriptSize) .scriptSize
  let final ← (scriptOps script).1.foldlM (evalStep flags checker sigversion)
    ⟨stack, [], .initial, 0, script⟩
  require ((scriptOps script).2 = true) .badOpcode
  require (final.vfExec.empty = true) .unbalancedConditional
  return final.stack

/-- A version 0 script is run on the witness items, last item on top, and leaves one true item. -/
def executeWitnessScript (stack : List Bytes) (witnessScript : Bytes) : Except ScriptError Unit :=
  do
  require (∀ item ∈ stack, item.length ≤ maxScriptElementSize) .pushSize
  let stack ← evalScript flags checker .witnessV0 witnessScript stack
  require (stack.length = 1) .cleanStack
  require (topIsTrue stack = true) .evalFalse

/-- Version 0 has a meaning for 20 and 32 bytes; the other versions succeed, unless discouraged. -/
def verifyWitnessProgram (witness : List Bytes) (version : Nat) (program : Bytes) :
    Except ScriptError Unit :=
  if version = 0 then
    if program.length = 32 then
      match witness.reverse with
      | [] => .error .witnessProgramWitnessEmpty
      | witnessScript :: stack => do
          require (Crypto.sha256 witnessScript = program) .witnessProgramMismatch
          executeWitnessScript flags checker stack witnessScript
    else if program.length = 20 then do
      require (witness.length = 2) .witnessProgramMismatch
      executeWitnessScript flags checker witness.reverse (keyHashScript program)
    else .error .witnessProgramWrongLength
  else whenFlag flags .discourageUpgradableWitnessProgram
    (.error .discourageUpgradableWitnessProgram)

/-- Whether a script was a witness program, verified with the given condition on the scriptSig. -/
def verifyIfWitnessProgram (script : Bytes) (exactScriptSig : Prop) [Decidable exactScriptSig]
    (malleated : ScriptError) (witness : List Bytes) : Except ScriptError Bool :=
  if flags.has .witness = true then
    match isWitnessProgram script with
    | none => .ok false
    | some (version, program) => do
        require exactScriptSig malleated
        verifyWitnessProgram flags checker witness version program
        return true
  else .ok false

def verifyScriptHash (scriptSig : Bytes) (stackCopy witness : List Bytes) :
    Except ScriptError (Bool × List Bytes) := do
  require (Script.isPushOnly scriptSig = true) .sigPushOnly
  match stackCopy with
  | [] => .error .unknownError
  | redeemScript :: stack => do
      let stack ← evalScript flags checker .base redeemScript stack
      require (topIsTrue stack = true) .evalFalse
      let hadWitness ← verifyIfWitnessProgram flags checker redeemScript
        (scriptSig = Script.pushData redeemScript) .witnessMalleatedP2sh witness
      return (hadWitness, if hadWitness then resizeOne stack else stack)

def verifyNested (scriptSig scriptPubKey : Bytes) (stackCopy witness : List Bytes)
    (bareWitness : Bool) (stack : List Bytes) : Except ScriptError (Bool × List Bytes) :=
  if flags.has .p2sh = true ∧ Script.isPayToScriptHash scriptPubKey = true then do
    let (nestedWitness, stack) ← verifyScriptHash flags checker scriptSig stackCopy witness
    return (bareWitness || nestedWitness, stack)
  else .ok (bareWitness, if bareWitness then resizeOne stack else stack)

def verifyScript (scriptSig scriptPubKey : Bytes) (witness : List Bytes) :
    Except ScriptError Unit := do
  whenFlag flags .sigpushonly (require (Script.isPushOnly scriptSig = true) .sigPushOnly)
  let stackCopy ← evalScript flags checker .base scriptSig []
  let stack ← evalScript flags checker .base scriptPubKey stackCopy
  require (topIsTrue stack = true) .evalFalse
  let bareWitness ← verifyIfWitnessProgram flags checker scriptPubKey (scriptSig = [])
    .witnessMalleated witness
  let (hadWitness, stack) ← verifyNested flags checker scriptSig scriptPubKey stackCopy witness
    bareWitness stack
  whenFlag flags .cleanstack (require (stack.length = 1) .cleanStack)
  whenFlag flags .witness (require (hadWitness = true ∨ witness = []) .witnessUnexpected)

end

/-- A key hash counts one signature operation, a script hash those of its script. -/
def witnessSigOps (version : Nat) (program : Bytes) (witness : List Bytes) : Nat :=
  if version = 0 ∧ program.length = 20 then 1
  else if version = 0 ∧ program.length = 32 then lastItemSigOps witness
  else 0

def countWitnessSigOps (flags : ScriptFlags) (scriptSig scriptPubKey : Bytes)
    (witness : List Bytes) : Nat :=
  if flags.has .witness = true then
    match isWitnessProgram scriptPubKey with
    | some (version, program) => witnessSigOps version program witness
    | none =>
      if Script.isPayToScriptHash scriptPubKey = true ∧ Script.isPushOnly scriptSig = true then
        match isWitnessProgram (Script.lastPush scriptSig) with
        | some (version, program) => witnessSigOps version program witness
        | none => 0
      else 0
  else 0

/-! Before the activation. -/

variable {flags : ScriptFlags}

lemma isWitnessProgramForFlags_eq (hv1512 : flags.has .witnessV1512 = false) (script : Bytes) :
    isWitnessProgramForFlags flags script = isWitnessProgram script := by
  unfold isWitnessProgramForFlags isWitnessProgram
  rcases script with - | ⟨version, - | ⟨size, program⟩⟩
  · rfl
  · rfl
  · have hversion : ¬(version ≠ op0 ∧ (version < op1 ∨ version > op16)) ↔
        (version = op0 ∨ op1 ≤ version ∧ version ≤ op16) := by
      rw [not_and_or, not_ne_iff, not_or, UInt8.not_lt, UInt8.not_lt]
    dsimp only [Script.isWitnessProgram, List.length_cons]
    by_cases hprogram : (version = op0 ∨ op1 ≤ version ∧ version ≤ op16) ∧
        size.toNat = program.length ∧ 2 ≤ program.length ∧ program.length ≤ 40
    · obtain ⟨hfirst, hsize, hlow, hhigh⟩ := hprogram
      have hlength : ¬(program.length + 1 + 1 < 4 ∨ program.length + 1 + 1 > 66) := by omega
      have hpush : ¬size.toNat + 2 ≠ program.length + 1 + 1 := by omega
      have hextended : program.length ≠ witnessV1Scripthash512Size := by
        have hsixtyfour : witnessV1Scripthash512Size = 64 := rfl
        omega
      rw [if_neg hlength, if_neg (hversion.2 hfirst), if_neg hpush, if_pos ⟨hlow, hhigh⟩,
        if_pos (show _ ∧ _ from ⟨hfirst, hsize, hlow, hhigh⟩)]
      exact if_pos (.inr (.inl hextended))
    · split_ifs with hlength hfirst hsize hshort hlong
      · rfl
      · rfl
      · rfl
      · exact absurd ⟨hversion.1 hfirst, by omega, hshort⟩ hprogram
      · -- The 64-byte program of version 1.
        apply if_neg
        rintro (hother | hother | hactive)
        · exact hother hlong.1
        · exact hother hlong.2
        · rw [hv1512] at hactive
          cases hactive
      · rfl

lemma programForFlags_eq (hv1512 : flags.has .witnessV1512 = false) (script : Bytes) :
    programForFlags flags script =
      if flags.has .witness then isWitnessProgram script else none := by
  rw [programForFlags, isWitnessProgramForFlags_eq hv1512]

section

variable {script : Bytes} {version : Nat} {program : Bytes}
    (hprogram : isWitnessProgram script = some (version, program))
include hprogram

lemma isWitnessProgram_length : program.length ≤ 40 := by
  unfold isWitnessProgram at hprogram
  split at hprogram
  · split at hprogram
    case isTrue hfits =>
      cases hprogram
      exact hfits.2.2.2
    case isFalse => cases hprogram
  · cases hprogram

lemma witnessSigOps_eq (witness : List Bytes) :
    Tidecoin.witnessSigOps version program witness = witnessSigOps version program witness := by
  have hlength := isWitnessProgram_length hprogram
  have hextended : program.length ≠ witnessV1Scripthash512Size := by
    have hsixtyfour : witnessV1Scripthash512Size = 64 := rfl
    omega
  unfold Tidecoin.witnessSigOps witnessSigOps
  by_cases hversion : version = 0
  · simp only [hversion, if_true, true_and]
    rfl
  · simp [hversion, hextended]

end

lemma countWitnessSigOps_eq (hv1512 : flags.has .witnessV1512 = false)
    (scriptSig scriptPubKey : Bytes) (witness : List Bytes) :
    Tidecoin.countWitnessSigOps flags scriptSig scriptPubKey witness =
      countWitnessSigOps flags scriptSig scriptPubKey witness := by
  unfold Tidecoin.countWitnessSigOps countedProgram countWitnessSigOps
  rw [programForFlags_eq hv1512, programForFlags_eq hv1512]
  by_cases hwitness : flags.has .witness = true
  case neg => simp [if_neg hwitness]
  simp only [if_pos hwitness]
  cases hbare : isWitnessProgram scriptPubKey with
  | some found => exact witnessSigOps_eq hbare witness
  | none =>
    by_cases hhash : Script.isPayToScriptHash scriptPubKey = true ∧
      Script.isPushOnly scriptSig = true
    · simp only [if_pos hhash]
      cases hnested : isWitnessProgram (Script.lastPush scriptSig) with
      | some found => exact witnessSigOps_eq hnested witness
      | none => rfl
    · simp [if_neg hhash]

variable [Crypto] (checker : SignatureChecker)

section

variable (hsha512 : flags.has .sha512 = false) (sigversion : SigVersion)
include hsha512

lemma execute_decode (pc : Bytes) (state : EvalState) (opcode : UInt8) :
    execute flags checker sigversion pc state (Opcode.decode opcode) =
      execute flags checker sigversion pc state (decode opcode) := by
  unfold decode
  split
  case isTrue hopcode =>
    subst hopcode
    change execute flags checker sigversion pc state .sha512 = _
    rw [execute, execute, hsha512]
    exact if_neg nofun
  case isFalse => rfl

lemma evalInstruction_eq (state : EvalState) (op : ScriptOp) :
    Tidecoin.evalInstruction flags checker sigversion state op =
      evalInstruction flags checker sigversion state op := by
  unfold Tidecoin.evalInstruction evalInstruction
  rw [execute_decode checker hsha512]

lemma evalScript_eq (script : Bytes) (stack : List Bytes) :
    Tidecoin.evalScript flags checker sigversion script stack =
      evalScript flags checker sigversion script stack := by
  have hstep : Tidecoin.evalStep flags checker sigversion = evalStep flags checker sigversion := by
    unfold Tidecoin.evalStep evalStep
    simp [evalInstruction_eq checker hsha512]
  unfold Tidecoin.evalScript evalScript
  rw [hstep]

end

lemma executeWitnessScript_eq (hsha512 : flags.has .sha512 = false) (stack : List Bytes)
    (witnessScript : Bytes) :
    Tidecoin.executeWitnessScript flags checker .witnessV0 stack witnessScript =
      executeWitnessScript flags checker stack witnessScript := by
  unfold Tidecoin.executeWitnessScript executeWitnessScript
  rw [evalScript_eq checker hsha512]

variable (hv1512 : flags.has .witnessV1512 = false) (hsha512 : flags.has .sha512 = false)
include hv1512 hsha512

lemma verifyWitnessProgram_eq (witness : List Bytes) (version : Nat) (program : Bytes) :
    Tidecoin.verifyWitnessProgram flags checker witness version program =
      verifyWitnessProgram flags checker witness version program := by
  unfold Tidecoin.verifyWitnessProgram verifyWitnessProgram executeScriptHash
  simp only [executeWitnessScript_eq checker hsha512, hv1512, Bool.false_eq_true, and_false,
    if_false]
  rfl

lemma verifyIfWitnessProgram_eq (script : Bytes) (exactScriptSig : Prop)
    [Decidable exactScriptSig] (malleated : ScriptError) (witness : List Bytes) :
    Tidecoin.verifyIfWitnessProgram flags checker script exactScriptSig malleated witness =
      verifyIfWitnessProgram flags checker script exactScriptSig malleated witness := by
  unfold Tidecoin.verifyIfWitnessProgram verifyIfWitnessProgram
  rw [isWitnessProgramForFlags_eq hv1512]
  obtain _ | ⟨version, program⟩ := isWitnessProgram script
  · rfl
  · simp [verifyWitnessProgram_eq checker hv1512 hsha512]

lemma verifyScript_eq (scriptSig scriptPubKey : Bytes) (witness : List Bytes) :
    Tidecoin.verifyScript flags checker scriptSig scriptPubKey witness =
      verifyScript flags checker scriptSig scriptPubKey witness := by
  have hhash : ∀ stackCopy, Tidecoin.verifyScriptHash flags checker scriptSig stackCopy witness =
      verifyScriptHash flags checker scriptSig stackCopy witness := by
    intro stackCopy
    unfold Tidecoin.verifyScriptHash verifyScriptHash
    cases stackCopy with
    | nil => rfl
    | cons redeemScript stack =>
      simp [evalScript_eq checker hsha512, verifyIfWitnessProgram_eq checker hv1512 hsha512]
  have hnested : ∀ stackCopy bareWitness stack,
      Tidecoin.verifyNested flags checker scriptSig scriptPubKey stackCopy witness bareWitness
        stack = verifyNested flags checker scriptSig scriptPubKey stackCopy witness bareWitness
          stack := by
    intro stackCopy bareWitness stack
    unfold Tidecoin.verifyNested verifyNested
    rw [hhash]
  unfold Tidecoin.verifyScript verifyScript
  simp [evalScript_eq checker hsha512, verifyIfWitnessProgram_eq checker hv1512 hsha512, hnested]

end Bip141

/-- Before the activation the interpreter and the count are those of BIP141. Under every set of
flags `VerifyScript` decides without the witness how it treats a script, and when it comes that far,
a program is counted exactly if it is the one that is verified. -/
theorem preactivation_equivalence [Crypto] :
    (∀ flags : ScriptFlags, flags.has .witnessV1512 = false → flags.has .sha512 = false →
      ∀ (checker : SignatureChecker) (scriptSig scriptPubKey : Bytes) (witness : List Bytes),
        verifyScript flags checker scriptSig scriptPubKey witness =
          Bip141.verifyScript flags checker scriptSig scriptPubKey witness ∧
        countWitnessSigOps flags scriptSig scriptPubKey witness =
          Bip141.countWitnessSigOps flags scriptSig scriptPubKey witness) ∧
    ∀ (flags : ScriptFlags) (checker : SignatureChecker) (scriptSig scriptPubKey : Bytes),
      (∀ witness, verifyScript flags checker scriptSig scriptPubKey witness =
        (treatment flags checker scriptSig scriptPubKey >>= Treatment.finish flags checker
          witness)) ∧
      ∀ treated, treatment flags checker scriptSig scriptPubKey = .ok treated →
        ∀ version program, countedProgram flags scriptSig scriptPubKey = some (version, program) ↔
          ∃ exactScriptSig malleated, treated =
            .program version program exactScriptSig malleated := by
  constructor
  · intro flags hv1512 hsha512 checker scriptSig scriptPubKey witness
    exact ⟨Bip141.verifyScript_eq checker hv1512 hsha512 scriptSig scriptPubKey witness,
      Bip141.countWitnessSigOps_eq hv1512 scriptSig scriptPubKey witness⟩
  · intro flags checker scriptSig scriptPubKey
    refine ⟨verifyScript_eq_treatment scriptSig scriptPubKey, ?_⟩
    intro treated htreated version program
    rw [countedProgram_eq_asProgram htreated]
    cases treated with
    | program version' program' exactScriptSig malleated =>
      simp [Treatment.asProgram]
    | plain stack => simp [Treatment.asProgram]

/-- Fixed flags with witness verification and no activation rule. -/
def witnessFlags : ScriptFlags := ⟨{.p2sh, .witness}, by decide, by decide⟩

theorem preactivation_equivalence_extendedProgram :
    let spent : Bytes := [op1, 64] ++ List.replicate 64 7
    let checker : SignatureChecker := ⟨fun _ _ _ _ => false, fun _ => false, fun _ => false⟩
    @verifyScript .digits witnessFlags checker [] spent [] = .ok () ∧
      @Bip141.verifyScript .digits witnessFlags checker [] spent [] = .ok () ∧
      Bip141.countWitnessSigOps witnessFlags [] spent [] = 0 ∧
      countedProgram witnessFlags [] spent = none := by
  intro spent checker
  have hplain : @verifyScript .digits witnessFlags checker [] spent [] = .ok () := by
    decide +kernel
  have hreference := (@preactivation_equivalence .digits).1 witnessFlags (by decide)
    (by decide) checker [] spent []
  have htreated : @treatment .digits witnessFlags checker [] spent =
      .ok (.plain [List.replicate 64 7, [1]]) := by decide +kernel
  have hcounted :=
    ((@preactivation_equivalence .digits).2 witnessFlags checker [] spent).2 _ htreated
  refine ⟨hplain, hreference.1.symm.trans hplain, hreference.2.symm.trans ?_, ?_⟩
  · decide +kernel
  · rw [Option.eq_none_iff_forall_ne_some]
    rintro ⟨version, program⟩ hsome
    obtain ⟨_, _, hprogram⟩ := (hcounted version program).1 hsome
    cases hprogram

end Tidecoin
