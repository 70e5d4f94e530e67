import Tidecoin.Script.Interpreter

/-!
`VerifyScript` and the witness programs of `script/interpreter.cpp`. The witness is the list of its
stack items in the order they are sent, so its last item is on top.
-/

namespace Tidecoin

open Lib

def witnessV0ScripthashSize : Nat := 32

def witnessV0KeyhashSize : Nat := 20

def witnessV1Scripthash512Size : Nat := 64

/-- The top of the stack is there and true. -/
def topIsTrue : List Bytes → Bool
  | [] => false
  | top :: _ => castToBool top

/-- `stack.resize(1)` for a stack that is not empty: the element at the bottom stays. -/
def resizeOne (stack : List Bytes) : List Bytes := stack.drop (stack.length - 1)

def isWitnessProgramForFlags (flags : ScriptFlags) (script : Bytes) : Option (Nat × Bytes) :=
  match Script.isWitnessProgram script with
  | none => none
  | some (version, program) =>
    if version ≠ 1 ∨ program.length ≠ witnessV1Scripthash512Size ∨
        flags.has .witnessV1512 = true then
      some (version, program)
    else none

variable [Crypto] (flags : ScriptFlags) (checker : SignatureChecker)

/-- `ExecuteWitnessScript`, on a stack with the top first. -/
def executeWitnessScript (sigversion : SigVersion) (stack : List Bytes) (execScript : Bytes) :
    Except ScriptError Unit := do
  require (∀ elem ∈ stack, elem.length ≤ maxScriptElementSize) .pushSize
  let stack ← evalScript flags checker sigversion execScript stack
  require (stack.length = 1) .cleanStack
  require (topIsTrue stack = true) .evalFalse

/-- The two kinds of script-hash programs: the last witness item is the script, and its hash is the
program. -/
def executeScriptHash (sigversion : SigVersion) (hash : Bytes → Bytes) (witness : List Bytes)
    (program : Bytes) : Except ScriptError Unit :=
  match witness.reverse with
  | [] => .error .witnessProgramWitnessEmpty
  | execScript :: stack => do
      require (hash execScript = program) .witnessProgramMismatch
      executeWitnessScript flags checker sigversion stack execScript

/-- The script a key-hash program stands for. -/
def keyHashScript (program : Bytes) : Bytes :=
  [opDup, opHash160] ++ Script.pushData program ++ [opEqualverify, opChecksig]

def verifyWitnessProgram (witness : List Bytes) (witversion : Nat) (program : Bytes) :
    Except ScriptError Unit :=
  if witversion = 0 then
    if program.length = witnessV0ScripthashSize then
      executeScriptHash flags checker .witnessV0 Crypto.sha256 witness program
    else if program.length = witnessV0KeyhashSize then do
      require (witness.length = 2) .witnessProgramMismatch
      executeWitnessScript flags checker .witnessV0 witness.reverse (keyHashScript program)
    else .error .witnessProgramWrongLength
  else if witversion = 1 ∧ flags.has .witnessV1512 = true then do
    require (program.length = witnessV1Scripthash512Size) .witnessProgramWrongLength
    executeScriptHash flags checker .witnessV1512 Crypto.sha512 witness program
  else whenFlag flags .discourageUpgradableWitnessProgram
    (.error .discourageUpgradableWitnessProgram)

/-- A script that may be a witness program, bare or in a script hash: whether it was one. The
condition says that the scriptSig is exactly what such a program asks for. -/
def verifyIfWitnessProgram (script : Bytes) (exactScriptSig : Prop) [Decidable exactScriptSig]
    (malleated : ScriptError) (witness : List Bytes) : Except ScriptError Bool :=
  if flags.has .witness = true then
    match isWitnessProgramForFlags flags script with
    | none => .ok false
    | some (version, program) => do
        require exactScriptSig malleated
        verifyWitnessProgram flags checker witness version program
        return true
  else .ok false

/-- The additional validation of a script hash, from the stack the scriptSig left: the final stack
and whether the redeem script was a witness program. -/
def verifyScriptHash (scriptSig : Bytes) (stackCopy witness : List Bytes) :
    Except ScriptError (Bool × List Bytes) := do
  require (Script.isPushOnly scriptSig = true) .sigPushOnly
  match stackCopy with
  -- Asserted not to happen: on an empty stack `HASH160` has failed before.
  | [] => .error .unknownError
  | pubKey2 :: stack => do
      let stack ← evalScript flags checker .base pubKey2 stack
      require (topIsTrue stack = true) .evalFalse
      let hadWitness ← verifyIfWitnessProgram flags checker pubKey2
        (scriptSig = Script.pushData pubKey2) .witnessMalleatedP2sh witness
      return (hadWitness, if hadWitness then resizeOne stack else stack)

/-- The validation that follows the two scripts: the final stack and whether there was a witness
program. -/
def verifyNested (scriptSig scriptPubKey : Bytes) (stackCopy witness : List Bytes)
    (bareWitness : Bool) (stack : List Bytes) : Except ScriptError (Bool × List Bytes) :=
  if flags.has .p2sh = true ∧ Script.isPayToScriptHash scriptPubKey = true then do
    let (nestedWitness, stack) ← verifyScriptHash flags checker scriptSig stackCopy witness
    return (bareWitness || nestedWitness, stack)
  else .ok (bareWitness, if bareWitness then resizeOne stack else stack)

def verifyScript (scriptSig scriptPubKey : Bytes) (witness : List Bytes) :
    Except ScriptError Unit := do
  whenFlag flags .sigpushonly (require (Script.isPushOnly scriptSig = true) .sigPushOnly)
  let stackCopy ← evalScript flags checker .base scriptSig []
  let stack ← evalScript flags checker .base scriptPubKey stackCopy
  require (topIsTrue stack = true) .evalFalse
  let bareWitness ← verifyIfWitnessProgram flags checker scriptPubKey (scriptSig = [])
    .witnessMalleated witness
  let (hadWitness, stack) ← verifyNested flags checker scriptSig scriptPubKey stackCopy witness
    bareWitness stack
  whenFlag flags .cleanstack (require (stack.length = 1) .cleanStack)
  whenFlag flags .witness (require (hadWitness = true ∨ witness = []) .witnessUnexpected)

end Tidecoin
