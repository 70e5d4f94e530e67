import Tidecoin.Script.Verify
import Mathlib.Tactic.IntervalCases

/-!
Where a script is taken as a witness program. `VerifyScript` decides it for the spent script and for
a redeem script on the stack, `CountWitnessSigOps` for the spent script and for the last bytes the
scriptSig pushes. `treatment` is how far `VerifyScript` comes without looking at the witness: it
ends with a program or with a plain script, and the two functions agree on which.
-/

namespace Tidecoin

open Lib

/-- The bytes the last instruction of a script pushes, as a loop over `GetOp` leaves them. -/
def Script.lastPush (script : Bytes) : Bytes :=
  match (scriptOps script).1.getLast? with
  | none => []
  | some op => op.data

/-- The witness program a script is under its flags, if witnesses are verified at all. -/
def programForFlags (flags : ScriptFlags) (script : Bytes) : Option (Nat × Bytes) :=
  if flags.has .witness = true then isWitnessProgramForFlags flags script else none

/-- The signature operations of the script at the end of a witness. -/
def lastItemSigOps (witness : List Bytes) : Nat :=
  match witness.getLast? with
  | none => 0
  | some subscript => Script.getSigOpCount subscript true

def witnessSigOps (witversion : Nat) (witprogram : Bytes) (witness : List Bytes) : Nat :=
  if witversion = 0 then
    if witprogram.length = witnessV0KeyhashSize then 1
    else if witprogram.length = witnessV0ScripthashSize then lastItemSigOps witness
    else 0
  else if witversion = 1 then
    if witprogram.length = witnessV1Scripthash512Size then lastItemSigOps witness else 0
  else 0

section

variable (flags : ScriptFlags) (scriptSig scriptPubKey : Bytes)

/-- The program `CountWitnessSigOps` counts, bare or in a script hash. -/
def countedProgram : Option (Nat × Bytes) :=
  match programForFlags flags scriptPubKey with
  | some program => some program
  | none =>
    if Script.isPayToScriptHash scriptPubKey = true ∧ Script.isPushOnly scriptSig = true then
      programForFlags flags (Script.lastPush scriptSig)
    else none

def countWitnessSigOps (witness : List Bytes) : Nat :=
  match countedProgram flags scriptSig scriptPubKey with
  | none => 0
  | some (version, program) => witnessSigOps version program witness

end

/-- What a spent script is taken as: a witness program, with the condition on the scriptSig and the
error if it does not hold, or a plain script that left a stack. -/
inductive Treatment where
  | program (version : Nat) (program : Bytes) (exactScriptSig : Bool) (malleated : ScriptError)
  | plain (stack : List Bytes)
deriving DecidableEq, Repr

/-- The witness program a treatment verifies. -/
def Treatment.asProgram : Treatment → Option (Nat × Bytes)
  | .program version witprogram _ _ => some (version, witprogram)
  | .plain _ => none

section

variable [Crypto] (flags : ScriptFlags) (checker : SignatureChecker)

/-- The treatment of a redeem script, from the stack the scriptSig left. -/
def redeemTreatment (scriptSig : Bytes) (stackCopy : List Bytes) : Except ScriptError Treatment :=
  do
  require (Script.isPushOnly scriptSig = true) .sigPushOnly
  match stackCopy with
  | [] => .error .unknownError
  | pubKey2 :: stack => do
      let stack ← evalScript flags checker .base pubKey2 stack
      require (topIsTrue stack = true) .evalFalse
      match programForFlags flags pubKey2 with
      | some (version, program) =>
        .ok (.program version program (scriptSig = Script.pushData pubKey2) .witnessMalleatedP2sh)
      | none => .ok (.plain stack)

/-- The treatment of a spent script, once both scripts were run. -/
def spentTreatment (scriptSig scriptPubKey : Bytes) (stackCopy stack : List Bytes) :
    Except ScriptError Treatment :=
  match programForFlags flags scriptPubKey with
  | some (version, program) =>
    .ok (.program version program (scriptSig = []) .witnessMalleated)
  | none =>
    if flags.has .p2sh = true ∧ Script.isPayToScriptHash scriptPubKey = true then
      redeemTreatment flags checker scriptSig stackCopy
    else .ok (.plain stack)

/-- `VerifyScript` up to the point where it looks at the witness. -/
def treatment (scriptSig scriptPubKey : Bytes) : Except ScriptError Treatment := do
  whenFlag flags .sigpushonly (require (Script.isPushOnly scriptSig = true) .sigPushOnly)
  let stackCopy ← evalScript flags checker .base scriptSig []
  let stack ← evalScript flags checker .base scriptPubKey stackCopy
  require (topIsTrue stack = true) .evalFalse
  spentTreatment flags checker scriptSig scriptPubKey stackCopy stack

/-- `VerifyScript` from that point on. -/
def Treatment.finish (witness : List Bytes) : Treatment → Except ScriptError Unit
  | .program version witprogram exactScriptSig malleated => do
      require (exactScriptSig = true) malleated
      verifyWitnessProgram flags checker witness version witprogram
  | .plain stack => do
      whenFlag flags .cleanstack (require (stack.length = 1) .cleanStack)
      whenFlag flags .witness (require (witness = []) .witnessUnexpected)

variable {flags checker}

lemma verifyIfWitnessProgram_of_program {script : Bytes} {version : Nat} {program : Bytes}
    (hprogram : programForFlags flags script = some (version, program)) (exactScriptSig : Prop)
    [Decidable exactScriptSig] (malleated : ScriptError) (witness : List Bytes) :
    verifyIfWitnessProgram flags checker script exactScriptSig malleated witness =
      (require exactScriptSig malleated >>= fun _ =>
        verifyWitnessProgram flags checker witness version program >>= fun _ => .ok true) := by
  unfold programForFlags at hprogram
  unfold verifyIfWitnessProgram
  by_cases hwitness : flags.has .witness = true
  · rw [if_pos hwitness] at hprogram ⊢
    rw [hprogram]
    rfl
  · rw [if_neg hwitness] at hprogram
    cases hprogram

lemma verifyIfWitnessProgram_of_none {script : Bytes}
    (hprogram : programForFlags flags script = none)
    (exactScriptSig : Prop) [Decidable exactScriptSig] (malleated : ScriptError)
    (witness : List Bytes) :
    verifyIfWitnessProgram flags checker script exactScriptSig malleated witness = .ok false := by
  unfold programForFlags at hprogram
  unfold verifyIfWitnessProgram
  by_cases hwitness : flags.has .witness = true
  · rw [if_pos hwitness] at hprogram ⊢
    rw [hprogram]
  · rw [if_neg hwitness]

variable {stack : List Bytes}

section

omit [Crypto]

lemma resizeOne_length (htrue : topIsTrue stack) : (resizeOne stack).length = 1 := by
  cases stack with
  | nil => cases htrue
  | cons top stack =>
    rw [resizeOne, List.length_drop, List.length_cons]
    omega

lemma isPayToScriptHash_of_program {script : Bytes} {program : Nat × Bytes}
    (hprogram : programForFlags flags script = some program) :
    ¬Script.isPayToScriptHash script := by
  intro hp2sh
  unfold programForFlags isWitnessProgramForFlags at hprogram
  cases script with
  | nil => cases hp2sh
  | cons opcode pc =>
    have hopcode : opcode = opHash160 := by
      simp only [Script.isPayToScriptHash, Bool.and_eq_true, decide_eq_true_eq] at hp2sh
      exact Option.some.inj hp2sh.1.1.2
    subst hopcode
    have hnone : Script.isWitnessProgram (opHash160 :: pc) = none := by
      cases pc with
      | nil => rfl
      | cons size rest =>
        unfold Script.isWitnessProgram
        dsimp only
        split
        · rfl
        · exact if_pos (by decide)
    rw [hnone] at hprogram
    split at hprogram
    · cases hprogram
    · cases hprogram

lemma whenFlag_require {condition : Prop} [Decidable condition] (hcondition : condition)
    (flag : ScriptFlag)
    (invalid : ScriptError) : whenFlag flags flag (require condition invalid) = .ok () := by
  rw [whenFlag, require_pos hcondition, ite_self]

end

/-- The checks at the end of `VerifyScript`, on the final stack. -/
def finalChecks (flags : ScriptFlags) (witness : List Bytes) (result : Bool × List Bytes) :
    Except ScriptError Unit := do
  whenFlag flags .cleanstack (require (result.2.length = 1) .cleanStack)
  whenFlag flags .witness (require (result.1 = true ∨ witness = []) .witnessUnexpected)

omit [Crypto] in
lemma finalChecks_resizeOne (htrue : topIsTrue stack) (witness : List Bytes) :
    finalChecks flags witness (true, resizeOne stack) = .ok () := by
  unfold finalChecks
  rw [whenFlag_require (resizeOne_length htrue), whenFlag_require (Or.inl rfl)]
  rfl

lemma finalChecks_plain (witness stack : List Bytes) (checker : SignatureChecker) :
    finalChecks flags witness (false, stack) =
      Treatment.finish flags checker witness (.plain stack) := by
  simp [finalChecks, Treatment.finish]

lemma finish_program_eq (htrue : topIsTrue stack) (exactScriptSig : Prop) [Decidable exactScriptSig]
    (malleated : ScriptError) (witness : List Bytes) (version : Nat) (program : Bytes) :
    (require exactScriptSig malleated >>= fun _ =>
        verifyWitnessProgram flags checker witness version program >>= fun _ =>
          finalChecks flags witness (true, resizeOne stack)) =
      Treatment.finish flags checker witness
        (.program version program (decide exactScriptSig) malleated) := by
  have hcondition :
      require (decide exactScriptSig) malleated = require exactScriptSig malleated := by
    by_cases hexact : exactScriptSig
    · rw [require_pos hexact, require_pos (decide_eq_true hexact)]
    · rw [require_neg hexact, require_neg (by rwa [decide_eq_true_iff])]
  rw [Treatment.finish, hcondition, finalChecks_resizeOne htrue]
  exact bind_congr fun _ => bind_pure (verifyWitnessProgram flags checker witness version program)

lemma verifyScriptHash_eq (scriptSig : Bytes) (stackCopy witness : List Bytes) :
    (verifyScriptHash flags checker scriptSig stackCopy witness >>= finalChecks flags witness) =
      (redeemTreatment flags checker scriptSig stackCopy >>= Treatment.finish flags checker
        witness) := by
  unfold verifyScriptHash redeemTreatment
  rw [bind_assoc, bind_assoc]
  refine bind_congr_ok fun _ _ => ?_
  cases stackCopy with
  | nil => rfl
  | cons pubKey2 stack =>
    rw [bind_assoc, bind_assoc]
    refine bind_congr_ok fun final _ => ?_
    rw [bind_assoc, bind_assoc, bind_assoc]
    refine bind_congr_ok fun _ htrue => ?_
    have htrue := require_eq_ok.1 htrue
    cases hprogram : programForFlags flags pubKey2 with
    | none =>
      rw [verifyIfWitnessProgram_of_none hprogram]
      exact finalChecks_plain witness final checker
    | some found =>
      obtain ⟨version, program⟩ := found
      rw [verifyIfWitnessProgram_of_program hprogram, bind_assoc]
      refine .trans (bind_congr_ok fun _ _ => ?_)
        (finish_program_eq htrue (scriptSig = Script.pushData pubKey2) .witnessMalleatedP2sh
          witness version program)
      rw [bind_assoc]
      rfl

lemma verifySpent_eq (htrue : topIsTrue stack) (scriptSig scriptPubKey : Bytes)
    (stackCopy witness : List Bytes) :
    (verifyIfWitnessProgram flags checker scriptPubKey (scriptSig = []) .witnessMalleated witness
      >>= fun bareWitness =>
        verifyNested flags checker scriptSig scriptPubKey stackCopy witness bareWitness stack >>=
          finalChecks flags witness) =
      (spentTreatment flags checker scriptSig scriptPubKey stackCopy stack >>=
        Treatment.finish flags checker witness) := by
  unfold spentTreatment
  cases hprogram : programForFlags flags scriptPubKey with
  | none =>
    rw [verifyIfWitnessProgram_of_none hprogram]
    change verifyNested _ _ _ _ _ _ false _ >>= _ = _
    unfold verifyNested
    by_cases hhash : flags.has .p2sh = true ∧ Script.isPayToScriptHash scriptPubKey = true
    · rw [if_pos hhash, if_pos hhash, ← verifyScriptHash_eq, bind_assoc]
      rfl
    · rw [if_neg hhash, if_neg hhash]
      exact finalChecks_plain witness stack checker
  | some found =>
    obtain ⟨version, program⟩ := found
    rw [verifyIfWitnessProgram_of_program hprogram, bind_assoc]
    refine .trans (bind_congr_ok fun _ _ => ?_)
      (finish_program_eq htrue (scriptSig = []) .witnessMalleated witness version program)
    rw [bind_assoc]
    refine bind_congr_ok fun _ _ => ?_
    have hnested : verifyNested flags checker scriptSig scriptPubKey stackCopy witness true
        stack = .ok (true, resizeOne stack) :=
      if_neg fun hhash => isPayToScriptHash_of_program hprogram hhash.2
    change verifyNested flags checker scriptSig scriptPubKey stackCopy witness true stack >>=
      finalChecks flags witness = _
    rw [hnested]
    rfl

lemma verifyScript_eq_treatment (scriptSig scriptPubKey : Bytes) (witness : List Bytes) :
    verifyScript flags checker scriptSig scriptPubKey witness =
      (treatment flags checker scriptSig scriptPubKey >>= Treatment.finish flags checker
        witness) := by
  unfold treatment
  rw [bind_assoc]
  refine bind_congr_ok fun _ _ => ?_
  rw [bind_assoc]
  refine bind_congr_ok fun stackCopy _ => ?_
  rw [bind_assoc]
  refine bind_congr_ok fun stack _ => ?_
  rw [bind_assoc]
  refine bind_congr_ok fun _ htrue => ?_
  exact verifySpent_eq (require_eq_ok.1 htrue) scriptSig scriptPubKey stackCopy witness

end

/-! The last bytes a script pushes and the top of the stack it leaves. -/

lemma getScriptOp_data {pc : Bytes} {op : ScriptOp} (hop : getScriptOp pc = some op)
    (hopcode : ¬op.opcode ≤ opPushdata4) : op.data = [] := by
  cases pc with
  | nil => cases hop
  | cons opcode pc =>
    rw [getScriptOp] at hop
    split at hop
    case isTrue hpush =>
      split at hop
      · cases hop
      · split at hop
        · cases hop
        · cases hop
          exact absurd hpush hopcode
    case isFalse =>
      cases hop
      rfl

lemma readOps_data (fuel : Nat) (pc : Bytes) :
    ∀ op ∈ (readOps fuel pc).1, ¬op.opcode ≤ opPushdata4 → op.data = [] := by
  induction fuel generalizing pc with
  | zero =>
    intro op hop
    cases pc with
    | nil => cases hop
    | cons byte bytes => cases hop
  | succ fuel ih =>
    intro op hop hopcode
    cases pc with
    | nil => cases hop
    | cons byte bytes =>
      rw [readOps] at hop
      · cases hread : getScriptOp (byte :: bytes) with
        | none =>
          rw [hread] at hop
          cases hop
        | some first =>
          rw [hread] at hop
          rcases List.mem_cons.1 hop with rfl | hrest
          · exact getScriptOp_data hread hopcode
          · exact ih first.rest op hrest hopcode
      · exact List.cons_ne_nil _ _

lemma decode_number {opcode : UInt8} (hhigh : opcode ≤ op16) : Opcode.decode opcode = .bad ∨
      ∃ n, Opcode.decode opcode = .pushValue n ∧ (CScriptNum.serialize n).length ≤ 1 := by
  have hhigh : opcode.toNat ≤ 0x60 := UInt8.le_iff_toNat_le.1 hhigh
  unfold Opcode.decode
  generalize opcode.toNat = value at hhigh
  interval_cases value
  all_goals first
    | exact .inr ⟨_, rfl, by decide⟩
    | exact .inl rfl

variable [Crypto] {flags : ScriptFlags} {checker : SignatureChecker}

lemma evalStep_push {sigversion : SigVersion} {state next : EvalState} {op : ScriptOp}
    (hexec : state.vfExec.allTrue) (hopcode : op.opcode ≤ op16)
    (hdata : ¬op.opcode ≤ opPushdata4 → op.data = [])
    (hstep : evalStep flags checker sigversion state op = .ok next) :
    next.vfExec = state.vfExec ∧ ∃ value, next.stack = value :: state.stack ∧
      (value = op.data ∨ op.data = [] ∧ value.length ≤ 1) := by
  obtain ⟨⟨⟩, -, hstep⟩ := bind_eq_ok.1 hstep
  obtain ⟨⟨⟩, -, hstep⟩ := bind_eq_ok.1 hstep
  obtain ⟨⟨⟩, -, hstep⟩ := bind_eq_ok.1 hstep
  obtain ⟨⟨⟩, -, hstep⟩ := bind_eq_ok.1 hstep
  obtain ⟨pushed, hinstruction, hstep⟩ := bind_eq_ok.1 hstep
  obtain ⟨⟨⟩, -, hstep⟩ := bind_eq_ok.1 hstep
  cases hstep
  unfold evalInstruction at hinstruction
  by_cases hpush : op.opcode ≤ opPushdata4
  · rw [if_pos ⟨hexec, hpush⟩] at hinstruction
    obtain ⟨⟨⟩, -, hpushed⟩ := bind_eq_ok.1 hinstruction
    cases hpushed
    exact ⟨rfl, op.data, rfl, .inl rfl⟩
  · rw [if_neg fun hboth => hpush hboth.2, if_pos (.inl hexec)] at hinstruction
    rcases decode_number hopcode with hbad | ⟨n, hnumber, hlength⟩
    · rw [hbad] at hinstruction
      cases hinstruction
    · rw [hnumber] at hinstruction
      cases hinstruction
      exact ⟨rfl, CScriptNum.serialize n, rfl, .inr ⟨hdata hpush, hlength⟩⟩

/-- After a run of push instructions the data of the last one is on top, or a number of one byte if
it has none. -/
theorem foldlM_evalStep_push {sigversion : SigVersion} (ops : List ScriptOp)
    (hops : ∀ op ∈ ops, op.opcode ≤ op16 ∧ (¬op.opcode ≤ opPushdata4 → op.data = []))
    {state final : EvalState} (hexec : state.vfExec.allTrue)
    (hrun : ops.foldlM (evalStep flags checker sigversion) state = .ok final) :
    final.vfExec = state.vfExec ∧ ∀ last ∈ ops.getLast?, ∃ value rest,
      final.stack = value :: rest ∧ (value = last.data ∨ last.data = [] ∧ value.length ≤ 1) := by
  induction ops generalizing state with
  | nil =>
    cases hrun
    exact ⟨rfl, fun last hlast => (nomatch hlast)⟩
  | cons op ops ih =>
    obtain ⟨next, hstep, hrun⟩ := bind_eq_ok.1 hrun
    obtain ⟨hopcode, hdata⟩ := hops op List.mem_cons_self
    obtain ⟨hvfExec, value, hstack, hvalue⟩ := evalStep_push hexec hopcode hdata hstep
    have hnext := ih (List.forall_mem_cons.1 hops).2
      (by rwa [hvfExec]) hrun
    refine ⟨hnext.1.trans hvfExec, fun last hlast => ?_⟩
    cases ops with
    | nil =>
      cases hrun
      cases hlast
      exact ⟨value, state.stack, hstack, hvalue⟩
    | cons second ops =>
      exact hnext.2 last hlast

omit [Crypto] in
lemma programForFlags_of_short {script : Bytes} (hshort : script.length < 4) :
    programForFlags flags script = none := by
  have hprogram : Script.isWitnessProgram script = none := by
    unfold Script.isWitnessProgram
    split
    · exact if_pos (.inl hshort)
    · rfl
  unfold programForFlags isWitnessProgramForFlags
  rw [hprogram, ite_self]

variable {scriptSig : Bytes}

/-- The redeem script on the stack and the last bytes pushed are the same witness program, or both
are none. -/
theorem programForFlags_lastPush {redeem : Bytes} {stack : List Bytes}
    (hpush : Script.isPushOnly scriptSig)
    (heval : evalScript flags checker .base scriptSig [] = .ok (redeem :: stack)) :
    programForFlags flags (Script.lastPush scriptSig) = programForFlags flags redeem := by
  obtain ⟨⟨⟩, -, heval⟩ := bind_eq_ok.1 heval
  obtain ⟨final, hrun, heval⟩ := bind_eq_ok.1 heval
  obtain ⟨⟨⟩, -, heval⟩ := bind_eq_ok.1 heval
  obtain ⟨⟨⟩, -, heval⟩ := bind_eq_ok.1 heval
  have hfinal : final.stack = redeem :: stack := Except.ok.inj heval
  have hall : ∀ op ∈ (scriptOps scriptSig).1, op.opcode ≤ op16 := by
    intro op hop
    have hall := (Bool.and_eq_true_iff.1 hpush).2
    exact of_decide_eq_true (List.all_eq_true.1 hall op hop)
  have hlast := (foldlM_evalStep_push (scriptOps scriptSig).1
    (fun op hop => ⟨hall op hop, readOps_data _ _ op hop⟩) rfl hrun).2
  unfold Script.lastPush
  cases hget : (scriptOps scriptSig).1.getLast? with
  | none =>
    rw [List.getLast?_eq_none_iff.1 hget] at hrun
    cases hrun
    cases hfinal
  | some last =>
    obtain ⟨value, rest, hstack, hvalue⟩ := hlast last hget
    rw [hfinal] at hstack
    cases hstack
    rcases hvalue with rfl | ⟨hempty, hlength⟩
    · rfl
    · dsimp only
      rw [hempty, programForFlags_of_short (by decide), programForFlags_of_short (by omega)]

omit [Crypto] in
lemma programForFlags_of_no_p2sh (hp2sh : ¬flags.has .p2sh) (script : Bytes) :
    programForFlags flags script = none :=
  if_neg fun hwitness =>
    hp2sh (decide_eq_true (flags.witnessRule (of_decide_eq_true hwitness)))

lemma redeemTreatment_asProgram {stackCopy : List Bytes} {treated : Treatment}
    (heval : evalScript flags checker .base scriptSig [] = .ok stackCopy)
    (htreated : redeemTreatment flags checker scriptSig stackCopy = .ok treated) :
    Script.isPushOnly scriptSig ∧
      programForFlags flags (Script.lastPush scriptSig) = treated.asProgram := by
  obtain ⟨⟨⟩, hpush, htreated⟩ := bind_eq_ok.1 htreated
  have hpush := require_eq_ok.1 hpush
  refine ⟨hpush, ?_⟩
  cases stackCopy with
  | nil => cases htreated
  | cons pubKey2 stack =>
    obtain ⟨final, -, htreated⟩ := bind_eq_ok.1 htreated
    obtain ⟨⟨⟩, -, htreated⟩ := bind_eq_ok.1 htreated
    rw [programForFlags_lastPush hpush heval]
    cases hprogram : programForFlags flags pubKey2 with
    | none =>
      rw [hprogram] at htreated
      cases htreated
      rfl
    | some found =>
      rw [hprogram] at htreated
      cases htreated
      rfl

/-- The program that is counted is the one `VerifyScript` verifies, whenever it comes to verify
one or none. -/
theorem countedProgram_eq_asProgram {scriptPubKey : Bytes} {treated : Treatment}
    (htreated : treatment flags checker scriptSig scriptPubKey = .ok treated) :
    countedProgram flags scriptSig scriptPubKey = treated.asProgram := by
  obtain ⟨⟨⟩, -, htreated⟩ := bind_eq_ok.1 htreated
  obtain ⟨stackCopy, heval, htreated⟩ := bind_eq_ok.1 htreated
  obtain ⟨stack, -, htreated⟩ := bind_eq_ok.1 htreated
  obtain ⟨⟨⟩, -, htreated⟩ := bind_eq_ok.1 htreated
  unfold spentTreatment at htreated
  unfold countedProgram
  cases hprogram : programForFlags flags scriptPubKey with
  | some found =>
    rw [hprogram] at htreated
    cases htreated
    rfl
  | none =>
    rw [hprogram] at htreated
    dsimp only at htreated ⊢
    by_cases hhash : flags.has .p2sh = true ∧ Script.isPayToScriptHash scriptPubKey = true
    · rw [if_pos hhash] at htreated
      obtain ⟨hpush, hredeem⟩ := redeemTreatment_asProgram heval htreated
      rw [if_pos ⟨hhash.2, hpush⟩, hredeem]
    · rw [if_neg hhash] at htreated
      cases htreated
      split
      case isTrue hcounted =>
        exact programForFlags_of_no_p2sh (fun hp2sh => hhash ⟨hp2sh, hcounted.1⟩) _
      case isFalse => rfl

end Tidecoin
