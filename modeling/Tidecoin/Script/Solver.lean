import Tidecoin.PubKey
import Tidecoin.Script.Verify

/-!
The standard scripts: `script/solver.cpp` and `addresstype.cpp`. `solver` names the template a
script has and takes out its parts, `getScriptForDestination` writes the script of a destination.
-/

namespace Tidecoin

open Lib Script

abbrev Uint160 := BitVec 160

def Uint160.toBytes (blob : Uint160) : Bytes := natToLE 20 blob.toNat

def Uint160.ofBytes (bytes : Bytes) : Uint160 := BitVec.ofNat 160 (leToNat bytes)

def Uint512.ofBytes (bytes : Bytes) : Uint512 := BitVec.ofNat 512 (leToNat bytes)

inductive TxoutType where
  | nonstandard
  | pubkey
  | pubkeyhash
  | scripthash
  | multisig
  | nullData
  | witnessV0Scripthash
  | witnessV0Keyhash
  | witnessV1Scripthash512
deriving DecidableEq, Repr

def isPushdataOp (opcode : UInt8) : Bool := opcode > op0 && opcode ≤ opPushdata4

/-- `MatchPayToPubkey`: exactly a key and `OP_CHECKSIG`. -/
def matchPayToPubkey (script : Bytes) : Option Bytes := do
  let key ← getScriptOp script
  guard (isPushdataOp key.opcode && validPubKeySize key.data)
  let check ← getScriptOp key.rest
  guard (check.opcode = opChecksig && check.rest.isEmpty)
  return key.data

def matchPayToPubkeyHash (script : Bytes) : Option Bytes :=
  if script.length = 25 ∧ script[0]? = some opDup ∧ script[1]? = some opHash160 ∧
      script[2]? = some 20 ∧ script[23]? = some opEqualverify ∧ script[24]? = some opChecksig then
    some ((script.drop 3).take 20)
  else none

def isSmallInteger (opcode : UInt8) : Bool := opcode ≥ op1 && opcode ≤ op16

/-- `GetScriptNumber`: a number in `[min, max]`, as an opcode or as a minimal push. -/
def getScriptNumber (opcode : UInt8) (data : Bytes) (min max : Int) : Option Int := do
  let count ←
    if isSmallInteger opcode then some (decodeOpN opcode : Int)
    else if isPushdataOp opcode then
      if !checkMinimalPush data opcode || data.length > 4 || !CScriptNum.isMinimal data then none
      else some (CScriptNum.getint (CScriptNum.setVch data))
    else none
  guard (min ≤ count && count ≤ max)
  return count

/-- `MatchMultisig`: the number of signatures and the keys. The keys are the instructions up to the
first that does not push one, which has to be their number. -/
def matchMultisig (script : Bytes) : Option (Int × List Bytes) := do
  guard (script.getLast? = some opCheckmultisig)
  let first ← (scriptOps script).1.head?
  let requiredSigs ← getScriptNumber first.opcode first.data 1 maxPubkeysPerMultisig
  let (keys, others) := (scriptOps script).1.tail.span fun op => validPubKeySize op.data
  let last ← others.head?
  let numKeys ← getScriptNumber last.opcode last.data requiredSigs maxPubkeysPerMultisig
  guard (keys.length = numKeys && last.rest.length = 1)
  return (requiredSigs, keys.map ScriptOp.data)

/-- `Solver`: the template of the script and its parts. -/
def solver (scriptPubKey : Bytes) : TxoutType × List Bytes :=
  if isPayToScriptHash scriptPubKey then (.scripthash, [(scriptPubKey.drop 2).take 20])
  else match isWitnessProgram scriptPubKey with
  | some (witnessversion, witnessprogram) =>
    if witnessversion = 0 ∧ witnessprogram.length = witnessV0KeyhashSize then
      (.witnessV0Keyhash, [witnessprogram])
    else if witnessversion = 0 ∧ witnessprogram.length = witnessV0ScripthashSize then
      (.witnessV0Scripthash, [witnessprogram])
    else if witnessversion = 1 ∧ witnessprogram.length = witnessV1Scripthash512Size then
      (.witnessV1Scripthash512, [witnessprogram])
    else (.nonstandard, [])
  | none =>
    if scriptPubKey.head? = some opReturn ∧ isPushOnly scriptPubKey.tail then (.nullData, [])
    else match matchPayToPubkey scriptPubKey with
    | some data => (.pubkey, [data])
    | none => match matchPayToPubkeyHash scriptPubKey with
      | some data => (.pubkeyhash, [data])
      | none => match matchMultisig scriptPubKey with
        | some (required, keys) =>
          (.multisig, [UInt8.ofNat required.toNat] :: keys ++ [[UInt8.ofNat keys.length]])
        | none => (.nonstandard, [])

inductive CTxDestination where
  | noDestination (script : Bytes)
  | pubKeyDestination (pubkey : CPubKey)
  | pkHash (hash : Uint160)
  | scriptHash (hash : Uint160)
  | witnessV0ScriptHash (hash : Uint256)
  | witnessV0KeyHash (hash : Uint160)
  | witnessV1ScriptHash512 (hash : Uint512)
deriving DecidableEq, Repr

/-- `ExtractDestination`: the destination, and whether it has an address. -/
def extractDestination (scriptPubKey : Bytes) : CTxDestination × Bool :=
  match solver scriptPubKey with
  | (.pubkey, [data]) =>
    let pubKey := CPubKey.set data
    (if pubKey.isValid then .pubKeyDestination pubKey else .noDestination scriptPubKey, false)
  | (.pubkeyhash, [data]) => (.pkHash (Uint160.ofBytes data), true)
  | (.scripthash, [data]) => (.scriptHash (Uint160.ofBytes data), true)
  | (.witnessV0Keyhash, [data]) => (.witnessV0KeyHash (Uint160.ofBytes data), true)
  | (.witnessV0Scripthash, [data]) => (.witnessV0ScriptHash (Uint256.ofBytes data), true)
  | (.witnessV1Scripthash512, [data]) => (.witnessV1ScriptHash512 (Uint512.ofBytes data), true)
  | _ => (.noDestination scriptPubKey, false)

def getScriptForRawPubKey (pubKey : CPubKey) : Bytes := pushData pubKey.vch ++ [opChecksig]

def getScriptForDestination : CTxDestination → Bytes
  | .noDestination script => script
  | .pubKeyDestination pubkey => pushData pubkey.vch ++ [opChecksig]
  | .pkHash keyID =>
    [opDup, opHash160] ++ pushData keyID.toBytes ++ [opEqualverify, opChecksig]
  | .scriptHash scriptID => [opHash160] ++ pushData scriptID.toBytes ++ [opEqual]
  | .witnessV0KeyHash id => [op0] ++ pushData id.toBytes
  | .witnessV0ScriptHash id => [op0] ++ pushData id.toBytes
  | .witnessV1ScriptHash512 id => [op1] ++ pushData id.toBytes

def getScriptForMultisig (nRequired : Nat) (keys : List CPubKey) : Bytes :=
  pushInt64 nRequired ++ keys.flatMap (fun key => pushData key.vch) ++ pushInt64 keys.length ++
    [opCheckmultisig]

section

variable [Crypto]

def CPubKey.getID (pubkey : CPubKey) : Uint160 := Uint160.ofBytes (hash160 pubkey.vch)

def CPubKey.getHash (pubkey : CPubKey) : Uint256 := hashBytes pubkey.vch

/-- `CScriptID(script)`, which is also the hash of `ScriptHash(script)`. -/
def scriptID (script : Bytes) : Uint160 := Uint160.ofBytes (hash160 script)

/-- `WitnessV0ScriptHash(script)`. -/
def witnessV0ScriptHash (script : Bytes) : Uint256 := Uint256.ofBytes (Crypto.sha256 script)

/-- `WitnessV1ScriptHash512(script)`. -/
def witnessV1ScriptHash512 (script : Bytes) : Uint512 := Uint512.ofBytes (Crypto.sha512 script)

end

inductive OutputType where
  | legacy
  | p2shSegwit
  | bech32
  | bech32pq
  | unknown
deriving DecidableEq, Repr

def outputTypes : List OutputType := [.legacy, .p2shSegwit, .bech32, .bech32pq]

def outputTypeFromDestination : CTxDestination → Option OutputType
  | .pkHash _ | .scriptHash _ => some .legacy
  | .witnessV0KeyHash _ | .witnessV0ScriptHash _ => some .bech32
  | .witnessV1ScriptHash512 _ => some .bech32pq
  | _ => none

end Tidecoin
