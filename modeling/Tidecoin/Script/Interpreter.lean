import Tidecoin.Crypto
import Tidecoin.Script.Flags
import Tidecoin.Script.Script

/-!
The script interpreter of `script/interpreter.cpp`. Stacks are lists with the top first. A failed
run returns the error the source sets; the exceptions of the script numbers are its unknown error.
The signature checker is a parameter, as in the source, and the loop of `EvalScript` goes over the
instructions of the script.
-/

namespace Tidecoin

open Lib

inductive ScriptError where
  | unknownError
  | evalFalse
  | opReturn
  | scriptSize
  | pushSize
  | opCount
  | stackSize
  | sigCount
  | pubkeyCount
  | verify
  | equalVerify
  | checkMultisigVerify
  | checkSigVerify
  | numEqualVerify
  | badOpcode
  | disabledOpcode
  | invalidStackOperation
  | invalidAltstackOperation
  | unbalancedConditional
  | negativeLocktime
  | unsatisfiedLocktime
  | sigHashtype
  | minimalData
  | sigPushOnly
  | sigNullDummy
  | cleanStack
  | minimalIf
  | sigNullFail
  | discourageUpgradableNops
  | discourageUpgradableWitnessProgram
  | witnessProgramWrongLength
  | witnessProgramWitnessEmpty
  | witnessProgramMismatch
  | witnessMalleated
  | witnessMalleatedP2sh
  | witnessUnexpected
  | opCodeseparator
  | sigFindAndDelete
deriving DecidableEq, Repr

inductive SigVersion where
  | base
  | witnessV0
  | witnessV1512
deriving DecidableEq, Repr

/-- `BaseSignatureChecker`. -/
structure SignatureChecker where
  checkPostQuantumSignature : (vchSig vchPubKey scriptCode : Bytes) → SigVersion → Bool
  checkLockTime : Int → Bool
  checkSequence : Int → Bool

/-- `ConditionStack`: the size of the implied stack of booleans and the position of its first false
value; no position stands for `NO_FALSE`. -/
structure ConditionStack where
  stackSize : Nat
  firstFalsePos : Option Nat
deriving DecidableEq, Repr

namespace ConditionStack

def initial : ConditionStack := ⟨0, none⟩

variable (vfExec : ConditionStack)

def empty : Bool := vfExec.stackSize = 0

def allTrue : Bool := vfExec.firstFalsePos = none

def pushBack (f : Bool) : ConditionStack where
  stackSize := vfExec.stackSize + 1
  firstFalsePos :=
    if vfExec.firstFalsePos = none ∧ f = false then some vfExec.stackSize else vfExec.firstFalsePos

def popBack : ConditionStack where
  stackSize := vfExec.stackSize - 1
  firstFalsePos :=
    if vfExec.firstFalsePos = some (vfExec.stackSize - 1) then none else vfExec.firstFalsePos

def toggleTop : ConditionStack where
  stackSize := vfExec.stackSize
  firstFalsePos :=
    if vfExec.firstFalsePos = none then some (vfExec.stackSize - 1)
    else if vfExec.firstFalsePos = some (vfExec.stackSize - 1) then none
    else vfExec.firstFalsePos

end ConditionStack

/-- `CastToBool`: some byte is not zero, apart from the sign bit of the last one. -/
def castToBool : Bytes → Bool
  | [] => false
  | [byte] => byte ≠ 0 && byte ≠ 0x80
  | byte :: bytes => byte ≠ 0 || castToBool bytes

/-- `vchTrue` and `vchFalse`. -/
def boolBytes (value : Bool) : Bytes := if value then [1] else []

/-- The opcodes that only move stack elements. -/
inductive StackOp where
  | toAltStack | fromAltStack | drop2 | dup2 | dup3 | over2 | rot2 | swap2 | ifDup | depth
  | drop | dup | nip | over | pick | roll | rot | swap | tuck | size
deriving DecidableEq, Repr

/-- The numeric opcodes of one argument. -/
inductive UnaryOp where
  | add1 | sub1 | negate | abs | not | notEqual0
deriving DecidableEq, Repr

/-- The numeric opcodes of two arguments. -/
inductive BinaryOp where
  | add | sub | boolAnd | boolOr | numEqual | numEqualVerify | numNotEqual | lessThan | greaterThan
  | lessThanOrEqual | greaterThanOrEqual | min | max
deriving DecidableEq, Repr

/-- The hash opcodes that no flag selects. -/
inductive HashOp where
  | ripemd160 | sha1 | sha256 | hash160 | hash256
deriving DecidableEq, Repr

/-- The cases of the switch in `EvalScript`. The flag of a pair of opcodes says that it is the
verifying one, or for `OP_IF` the negated one. -/
inductive Opcode where
  | pushValue (n : Int)
  | nop
  | checkLockTimeVerify
  | checkSequenceVerify
  | upgradableNop
  | branch (negated : Bool)
  | otherwise
  | endIf
  | verify
  | fail
  | stack (op : StackOp)
  | equal (verifies : Bool)
  | unary (op : UnaryOp)
  | binary (op : BinaryOp)
  | within
  | hash (op : HashOp)
  | sha512
  | codeSeparator
  | checkSig (verifies : Bool)
  | checkMultisig (verifies : Bool)
  | bad
deriving DecidableEq, Repr

/-- The case of an opcode above `OP_PUSHDATA4`. The opcodes that are refused everywhere, such as
`OP_VERIF`, `OP_RESERVED` or `OP_CHECKSIGADD`, are the default case. -/
def Opcode.decode (opcode : UInt8) : Opcode :=
  match opcode.toNat with
  | 0x61 => .nop
  | 0x63 => .branch false
  | 0x64 => .branch true
  | 0x67 => .otherwise
  | 0x68 => .endIf
  | 0x69 => .verify
  | 0x6a => .fail
  | 0x6b => .stack .toAltStack
  | 0x6c => .stack .fromAltStack
  | 0x6d => .stack .drop2
  | 0x6e => .stack .dup2
  | 0x6f => .stack .dup3
  | 0x70 => .stack .over2
  | 0x71 => .stack .rot2
  | 0x72 => .stack .swap2
  | 0x73 => .stack .ifDup
  | 0x74 => .stack .depth
  | 0x75 => .stack .drop
  | 0x76 => .stack .dup
  | 0x77 => .stack .nip
  | 0x78 => .stack .over
  | 0x79 => .stack .pick
  | 0x7a => .stack .roll
  | 0x7b => .stack .rot
  | 0x7c => .stack .swap
  | 0x7d => .stack .tuck
  | 0x82 => .stack .size
  | 0x87 => .equal false
  | 0x88 => .equal true
  | 0x8b => .unary .add1
  | 0x8c => .unary .sub1
  | 0x8f => .unary .negate
  | 0x90 => .unary .abs
  | 0x91 => .unary .not
  | 0x92 => .unary .notEqual0
  | 0x93 => .binary .add
  | 0x94 => .binary .sub
  | 0x9a => .binary .boolAnd
  | 0x9b => .binary .boolOr
  | 0x9c => .binary .numEqual
  | 0x9d => .binary .numEqualVerify
  | 0x9e => .binary .numNotEqual
  | 0x9f => .binary .lessThan
  | 0xa0 => .binary .greaterThan
  | 0xa1 => .binary .lessThanOrEqual
  | 0xa2 => .binary .greaterThanOrEqual
  | 0xa3 => .binary .min
  | 0xa4 => .binary .max
  | 0xa5 => .within
  | 0xa6 => .hash .ripemd160
  | 0xa7 => .hash .sha1
  | 0xa8 => .hash .sha256
  | 0xa9 => .hash .hash160
  | 0xaa => .hash .hash256
  | 0xab => .codeSeparator
  | 0xac => .checkSig false
  | 0xad => .checkSig true
  | 0xae => .checkMultisig false
  | 0xaf => .checkMultisig true
  | 0xb1 => .checkLockTimeVerify
  | 0xb2 => .checkSequenceVerify
  | 0xb3 => .sha512
  | 0xb0 | 0xb4 | 0xb5 | 0xb6 | 0xb7 | 0xb8 | 0xb9 => .upgradableNop
  | value =>
    if value = 0x4f ∨ (op1.toNat ≤ value ∧ value ≤ op16.toNat) then
      .pushValue ((value : Int) - (op1.toNat - 1))
    else .bad

/-- The disabled opcodes, which fail even in a branch that is not executed. -/
def isDisabled (opcode : UInt8) : Bool :=
  opcode ∈ ([0x7e, 0x7f, 0x80, 0x81, 0x83, 0x84, 0x85, 0x86, 0x8d, 0x8e, 0x95, 0x96, 0x97, 0x98,
    0x99] : List UInt8)

/-- `CScriptNum(vch, fRequireMinimal, nMaxNumSize)`. -/
def scriptNum (flags : ScriptFlags) (vch : Bytes) (nMaxNumSize : Nat) : Except ScriptError Int := do
  require (vch.length ≤ nMaxNumSize) .unknownError
  whenFlag flags .minimaldata (require (CScriptNum.isMinimal vch) .unknownError)
  return CScriptNum.setVch vch

/-- `CScriptNum::nDefaultMaxNumSize`. -/
def defaultMaxNumSize : Nat := 4

/-- The stack and the alternative stack after an opcode that only moves elements. -/
def StackOp.apply (flags : ScriptFlags) :
    StackOp → (stack altstack : List Bytes) → Except ScriptError (List Bytes × List Bytes)
  | .toAltStack, x :: stack, altstack => .ok (stack, x :: altstack)
  | .fromAltStack, stack, x :: altstack => .ok (x :: stack, altstack)
  | .fromAltStack, _, [] => .error .invalidAltstackOperation
  | .drop2, _ :: _ :: stack, altstack => .ok (stack, altstack)
  | .dup2, x2 :: x1 :: stack, altstack => .ok (x2 :: x1 :: x2 :: x1 :: stack, altstack)
  | .dup3, x3 :: x2 :: x1 :: stack, altstack =>
    .ok (x3 :: x2 :: x1 :: x3 :: x2 :: x1 :: stack, altstack)
  | .over2, x4 :: x3 :: x2 :: x1 :: stack, altstack =>
    .ok (x2 :: x1 :: x4 :: x3 :: x2 :: x1 :: stack, altstack)
  | .rot2, x6 :: x5 :: x4 :: x3 :: x2 :: x1 :: stack, altstack =>
    .ok (x2 :: x1 :: x6 :: x5 :: x4 :: x3 :: stack, altstack)
  | .swap2, x4 :: x3 :: x2 :: x1 :: stack, altstack =>
    .ok (x2 :: x1 :: x4 :: x3 :: stack, altstack)
  | .ifDup, x :: stack, altstack =>
    .ok (if castToBool x then x :: x :: stack else x :: stack, altstack)
  | .depth, stack, altstack => .ok (CScriptNum.serialize stack.length :: stack, altstack)
  | .drop, _ :: stack, altstack => .ok (stack, altstack)
  | .dup, x :: stack, altstack => .ok (x :: x :: stack, altstack)
  | .nip, x2 :: _ :: stack, altstack => .ok (x2 :: stack, altstack)
  | .over, x2 :: x1 :: stack, altstack => .ok (x1 :: x2 :: x1 :: stack, altstack)
  | .pick, top :: x0 :: stack, altstack => do
      let n ← CScriptNum.getint <$> scriptNum flags top defaultMaxNumSize
      require (0 ≤ n ∧ n < (x0 :: stack).length) .invalidStackOperation
      return ((x0 :: stack).getD n.toNat [] :: x0 :: stack, altstack)
  | .roll, top :: x0 :: stack, altstack => do
      let n ← CScriptNum.getint <$> scriptNum flags top defaultMaxNumSize
      require (0 ≤ n ∧ n < (x0 :: stack).length) .invalidStackOperation
      return ((x0 :: stack).getD n.toNat [] :: (x0 :: stack).eraseIdx n.toNat, altstack)
  | .rot, x3 :: x2 :: x1 :: stack, altstack => .ok (x1 :: x3 :: x2 :: stack, altstack)
  | .swap, x2 :: x1 :: stack, altstack => .ok (x1 :: x2 :: stack, altstack)
  | .tuck, x2 :: x1 :: stack, altstack => .ok (x2 :: x1 :: x2 :: stack, altstack)
  | .size, x :: stack, altstack => .ok (CScriptNum.serialize x.length :: x :: stack, altstack)
  | _, _, _ => .error .invalidStackOperation

def UnaryOp.eval : UnaryOp → Int → Int
  | .add1, bn => bn + 1
  | .sub1, bn => bn - 1
  | .negate, bn => -bn
  | .abs, bn => if bn < 0 then -bn else bn
  | .not, bn => if bn = 0 then 1 else 0
  | .notEqual0, bn => if bn ≠ 0 then 1 else 0

def BinaryOp.eval : BinaryOp → Int → Int → Int
  | .add, bn1, bn2 => bn1 + bn2
  | .sub, bn1, bn2 => bn1 - bn2
  | .boolAnd, bn1, bn2 => if bn1 ≠ 0 ∧ bn2 ≠ 0 then 1 else 0
  | .boolOr, bn1, bn2 => if bn1 ≠ 0 ∨ bn2 ≠ 0 then 1 else 0
  | .numEqual, bn1, bn2 => if bn1 = bn2 then 1 else 0
  | .numEqualVerify, bn1, bn2 => if bn1 = bn2 then 1 else 0
  | .numNotEqual, bn1, bn2 => if bn1 ≠ bn2 then 1 else 0
  | .lessThan, bn1, bn2 => if bn1 < bn2 then 1 else 0
  | .greaterThan, bn1, bn2 => if bn1 > bn2 then 1 else 0
  | .lessThanOrEqual, bn1, bn2 => if bn1 ≤ bn2 then 1 else 0
  | .greaterThanOrEqual, bn1, bn2 => if bn1 ≥ bn2 then 1 else 0
  | .min, bn1, bn2 => if bn1 < bn2 then bn1 else bn2
  | .max, bn1, bn2 => if bn1 > bn2 then bn1 else bn2

def HashOp.eval [Crypto] : HashOp → Bytes → Bytes
  | .ripemd160 => Crypto.ripemd160
  | .sha1 => Crypto.sha1
  | .sha256 => Crypto.sha256
  | .hash160 => Tidecoin.hash160
  | .hash256 => Tidecoin.hash256

/-- The stack after the result of a comparison is pushed, or checked and popped again. -/
def pushResult (verifies : Bool) (invalid : ScriptError) (value : Bool) (stack : List Bytes) :
    Except ScriptError (List Bytes) :=
  if verifies then do
    require (value = true) invalid
    return stack
  else .ok (boolBytes value :: stack)

def checkSignatureHashType (flags : ScriptFlags) (version : SigVersion) (signature : Bytes) :
    Except ScriptError Unit :=
  match signature.getLast? with
  | none => .ok ()
  | some hashType =>
    let check := require (hashType ∈ ([0x01, 0x02, 0x03, 0x81, 0x82, 0x83] : List UInt8))
      ScriptError.sigHashtype
    if version = .witnessV1512 then check else whenFlag flags .definedHashtype check

/-- The signature is dropped from the script code, in scripts that are not witness scripts. -/
def dropSignature (flags : ScriptFlags) (sigversion : SigVersion) (scriptCode vchSig : Bytes) :
    Except ScriptError Bytes :=
  if sigversion = .base then do
    let (scriptCode, found) := Script.findAndDelete scriptCode (Script.pushData vchSig)
    whenFlag flags .constScriptcode (require (found = 0) .sigFindAndDelete)
    return scriptCode
  else .ok scriptCode

/-- `EvalChecksig`, which is `EvalChecksigPreTapscript` for every version. -/
def evalChecksig (flags : ScriptFlags) (checker : SignatureChecker) (sigversion : SigVersion)
    (vchSig vchPubKey codehash : Bytes) : Except ScriptError Bool := do
  let scriptCode ← dropSignature flags sigversion codehash vchSig
  checkSignatureHashType flags sigversion vchSig
  let fSuccess := checker.checkPostQuantumSignature vchSig vchPubKey scriptCode sigversion
  whenFlag flags .nullfail (require (fSuccess = true ∨ vchSig = []) .sigNullFail)
  return fSuccess

/-- The matching loop of `OP_CHECKMULTISIG`: each key is tried on the first signature that is left,
until there are more signatures than keys. -/
def matchSignatures (checks : (vchSig vchPubKey : Bytes) → Bool) : (sigs keys : List Bytes) → Bool
  | [], _ => true
  | _ :: _, [] => false
  | vchSig :: sigs, vchPubKey :: keys =>
    let left := if checks vchSig vchPubKey then sigs else vchSig :: sigs
    if left.length > keys.length then false else matchSignatures checks left keys

/-- The state of the loop of `EvalScript`. `codehash` is the script from `pbegincodehash` on. -/
structure EvalState where
  stack : List Bytes
  altstack : List Bytes
  vfExec : ConditionStack
  nOpCount : Nat
  codehash : Bytes
deriving DecidableEq, Repr

section

variable (flags : ScriptFlags)

/-- A number of arguments on the stack, between zero and a limit. -/
def argumentCount (vch : Bytes) (limit : Nat) (invalid : ScriptError) :
    Except ScriptError Nat := do
  let count ← CScriptNum.getint <$> scriptNum flags vch defaultMaxNumSize
  require (0 ≤ count ∧ count ≤ limit) invalid
  return count.toNat

/-- `OP_CHECKMULTISIG`: the number of keys, the keys, the number of signatures, the signatures and
one extra argument are replaced by the result. -/
def evalCheckMultisig (checker : SignatureChecker) (sigversion : SigVersion)
    (verifies : Bool) (state : EvalState) : Except ScriptError EvalState :=
  match state.stack with
  | [] => .error .invalidStackOperation
  | top :: stack => do
      let nKeysCount ← argumentCount flags top maxPubkeysPerMultisig .pubkeyCount
      let nOpCount := state.nOpCount + nKeysCount
      require (nOpCount ≤ maxOpsPerScript) .opCount
      match stack.drop nKeysCount with
      | [] => .error .invalidStackOperation
      | count :: stack' => do
          let nSigsCount ← argumentCount flags count nKeysCount .sigCount
          match stack'.drop nSigsCount with
          | [] => .error .invalidStackOperation
          | dummy :: rest => do
              let keys := stack.take nKeysCount
              let sigs := stack'.take nSigsCount
              let scriptCode ← sigs.foldlM (fun scriptCode vchSig => do
                checkSignatureHashType flags sigversion vchSig
                dropSignature flags sigversion scriptCode vchSig) state.codehash
              let fSuccess := matchSignatures
                (checker.checkPostQuantumSignature · · scriptCode sigversion) sigs keys
              whenFlag flags .nullfail
                (require (fSuccess = true ∨ ∀ vchSig ∈ sigs, vchSig = []) .sigNullFail)
              whenFlag flags .nulldummy (require (dummy = []) .sigNullDummy)
              let stack ← pushResult verifies .checkMultisigVerify fSuccess rest
              return { state with stack, nOpCount }

/-- `OP_CHECKLOCKTIMEVERIFY` when it is enabled. -/
def evalCheckLockTime (checker : SignatureChecker) (stack : List Bytes) : Except ScriptError Unit :=
  match stack with
  | [] => .error .invalidStackOperation
  | top :: _ => do
      let nLockTime ← scriptNum flags top 5
      require (0 ≤ nLockTime) .negativeLocktime
      require (checker.checkLockTime nLockTime = true) .unsatisfiedLocktime

/-- `OP_CHECKSEQUENCEVERIFY` when it is enabled. An operand with the disable flag passes. -/
def evalCheckSequence (checker : SignatureChecker) (stack : List Bytes) : Except ScriptError Unit :=
  match stack with
  | [] => .error .invalidStackOperation
  | top :: _ => do
      let nSequence ← scriptNum flags top 5
      require (0 ≤ nSequence) .negativeLocktime
      require (nSequence.toNat.testBit 31 = true ∨ checker.checkSequence nSequence = true)
        .unsatisfiedLocktime

/-- The condition of a branch in a witness script is empty or one, under its flag. -/
def checkMinimalIf (sigversion : SigVersion) (vch : Bytes) : Except ScriptError Unit :=
  if sigversion = .witnessV0 ∨ sigversion = .witnessV1512 then
    whenFlag flags .minimalif (require (vch = [] ∨ vch = [1]) .minimalIf)
  else .ok ()

/-- `OP_IF` and `OP_NOTIF`. In a branch that is not executed they only open a nested one. -/
def evalBranch (sigversion : SigVersion) (negated : Bool) (state : EvalState) :
    Except ScriptError EvalState :=
  if state.vfExec.allTrue then
    match state.stack with
    | [] => .error .unbalancedConditional
    | vch :: stack => do
        checkMinimalIf flags sigversion vch
        let fValue := castToBool vch
        let vfExec := state.vfExec.pushBack (if negated then !fValue else fValue)
        return { state with stack, vfExec }
  else .ok { state with vfExec := state.vfExec.pushBack false }

/-- `OP_CODESEPARATOR` in a script that is not a witness script, even in a branch that is not
executed. -/
def checkCodeSeparator (sigversion : SigVersion) (opcode : UInt8) : Except ScriptError Unit :=
  if opcode = opCodeseparator ∧ sigversion = .base then
    whenFlag flags .constScriptcode (.error .opCodeseparator)
  else .ok ()

end

variable [Crypto] (flags : ScriptFlags) (checker : SignatureChecker) (sigversion : SigVersion)

/-- The switch of `EvalScript`, at an instruction that is followed by `pc`. -/
def execute (pc : Bytes) (state : EvalState) : Opcode → Except ScriptError EvalState
  | .pushValue n => .ok { state with stack := CScriptNum.serialize n :: state.stack }
  | .nop => .ok state
  | .checkLockTimeVerify => do
      whenFlag flags .checklocktimeverify (evalCheckLockTime flags checker state.stack)
      return state
  | .checkSequenceVerify => do
      whenFlag flags .checksequenceverify (evalCheckSequence flags checker state.stack)
      return state
  | .upgradableNop => do
      whenFlag flags .discourageUpgradableNops (.error .discourageUpgradableNops)
      return state
  | .branch negated => evalBranch flags sigversion negated state
  | .otherwise => do
      require (state.vfExec.empty = false) .unbalancedConditional
      return { state with vfExec := state.vfExec.toggleTop }
  | .endIf => do
      require (state.vfExec.empty = false) .unbalancedConditional
      return { state with vfExec := state.vfExec.popBack }
  | .verify =>
    match state.stack with
    | [] => .error .invalidStackOperation
    | top :: stack => do
        require (castToBool top = true) .verify
        return { state with stack }
  | .fail => .error .opReturn
  | .stack op => do
      let (stack, altstack) ← op.apply flags state.stack state.altstack
      return { state with stack, altstack }
  | .equal verifies =>
    match state.stack with
    | vch2 :: vch1 :: stack => do
        let stack ← pushResult verifies .equalVerify (vch1 = vch2) stack
        return { state with stack }
    | _ => .error .invalidStackOperation
  | .unary op =>
    match state.stack with
    | [] => .error .invalidStackOperation
    | top :: stack => do
        let bn ← scriptNum flags top defaultMaxNumSize
        return { state with stack := CScriptNum.serialize (op.eval bn) :: stack }
  | .binary op =>
    match state.stack with
    | vch2 :: vch1 :: stack => do
        let bn1 ← scriptNum flags vch1 defaultMaxNumSize
        let bn2 ← scriptNum flags vch2 defaultMaxNumSize
        let result := CScriptNum.serialize (op.eval bn1 bn2)
        if op = .numEqualVerify then do
          require (castToBool result = true) .numEqualVerify
          return { state with stack }
        else return { state with stack := result :: stack }
    | _ => .error .invalidStackOperation
  | .within =>
    match state.stack with
    | vch3 :: vch2 :: vch1 :: stack => do
        let bn1 ← scriptNum flags vch1 defaultMaxNumSize
        let bn2 ← scriptNum flags vch2 defaultMaxNumSize
        let bn3 ← scriptNum flags vch3 defaultMaxNumSize
        return { state with stack := boolBytes (bn2 ≤ bn1 ∧ bn1 < bn3) :: stack }
    | _ => .error .invalidStackOperation
  | .hash op =>
    match state.stack with
    | [] => .error .invalidStackOperation
    | vch :: stack => .ok { state with stack := op.eval vch :: stack }
  | .sha512 =>
    if flags.has .sha512 then
      match state.stack with
      | [] => .error .invalidStackOperation
      | vch :: stack => .ok { state with stack := Crypto.sha512 vch :: stack }
    else do
      whenFlag flags .discourageUpgradableNops (.error .discourageUpgradableNops)
      return state
  | .codeSeparator => .ok { state with codehash := pc }
  | .checkSig verifies =>
    match state.stack with
    | vchPubKey :: vchSig :: stack => do
        let fSuccess ← evalChecksig flags checker sigversion vchSig vchPubKey state.codehash
        let stack ← pushResult verifies .checkSigVerify fSuccess stack
        return { state with stack }
    | _ => .error .invalidStackOperation
  | .checkMultisig verifies => evalCheckMultisig flags checker sigversion verifies state
  | .bad => .error .badOpcode

/-- The instruction pushes its data or goes to the switch. In a branch that is not executed only the
opcodes from `OP_IF` to `OP_ENDIF` do anything. -/
def evalInstruction (state : EvalState) (op : ScriptOp) : Except ScriptError EvalState :=
  if state.vfExec.allTrue = true ∧ op.opcode ≤ opPushdata4 then do
    whenFlag flags .minimaldata (require (Script.checkMinimalPush op.data op.opcode =
      true) .minimalData)
    return { state with stack := op.data :: state.stack }
  else if state.vfExec.allTrue = true ∨ (opIf ≤ op.opcode ∧ op.opcode ≤ opEndif) then
    execute flags checker sigversion op.rest state (Opcode.decode op.opcode)
  else .ok state

/-- The body of the loop of `EvalScript` for an instruction that was read. -/
def evalStep (state : EvalState) (op : ScriptOp) : Except ScriptError EvalState := do
  require (op.data.length ≤ maxScriptElementSize) .pushSize
  let nOpCount := if op.opcode > op16 then state.nOpCount + 1 else state.nOpCount
  require (op.opcode > op16 → nOpCount ≤ maxOpsPerScript) .opCount
  require (isDisabled op.opcode = false) .disabledOpcode
  checkCodeSeparator flags sigversion op.opcode
  let next ← evalInstruction flags checker sigversion { state with nOpCount } op
  require (next.stack.length + next.altstack.length ≤ maxStackSize) .stackSize
  return next

/-- `EvalScript`: the stack after the script. -/
def evalScript (script : Bytes) (stack : List Bytes) : Except ScriptError (List Bytes) := do
  require (script.length ≤ maxScriptSize) .scriptSize
  let final ← (scriptOps script).1.foldlM (evalStep flags checker sigversion)
    ⟨stack, [], .initial, 0, script⟩
  require ((scriptOps script).2 = true) .badOpcode
  require (final.vfExec.empty = true) .unbalancedConditional
  return final.stack

end Tidecoin
