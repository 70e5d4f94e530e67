import Tidecoin.Lib.Bytes

/-!
Scripts as byte strings: `script/script.h` and `script/script.cpp`. `getScriptOp` reads one
instruction; the loops of the source that read a script to its end go over `scriptOps`, the list of
its instructions up to the end or to the first one that cannot be read, since reading never depends
on what the instructions do.
-/

namespace Tidecoin

open Lib List

def maxScriptElementSize : Nat := 8192

def maxOpsPerScript : Nat := 201

def maxPubkeysPerMultisig : Nat := 20

def maxScriptSize : Nat := 65536

def maxStackSize : Nat := 1000

/-- The opcodes the source compares with by value. The others are named by `Opcode.decode`. -/
def op0 : UInt8 := 0x00
def opPushdata1 : UInt8 := 0x4c
def opPushdata2 : UInt8 := 0x4d
def opPushdata4 : UInt8 := 0x4e
def op1 : UInt8 := 0x51
def op16 : UInt8 := 0x60
def opIf : UInt8 := 0x63
def opEndif : UInt8 := 0x68
def opReturn : UInt8 := 0x6a
def opDup : UInt8 := 0x76
def opEqual : UInt8 := 0x87
def opEqualverify : UInt8 := 0x88
def opHash160 : UInt8 := 0xa9
def opCodeseparator : UInt8 := 0xab
def opChecksig : UInt8 := 0xac
def opChecksigverify : UInt8 := 0xad
def opCheckmultisig : UInt8 := 0xae
def opCheckmultisigverify : UInt8 := 0xaf
def opInvalidopcode : UInt8 := 0xff

/-- An instruction that was read: its opcode, the bytes it pushes, and the script after it. -/
structure ScriptOp where
  opcode : UInt8
  data : Bytes
  rest : Bytes
deriving DecidableEq, Repr

/-- The number of bytes an instruction pushes, and the script after the size. -/
def pushSize (opcode : UInt8) (pc : Bytes) : Option (Nat × Bytes) :=
  if opcode < opPushdata1 then some (opcode.toNat, pc)
  else
    let width := if opcode = opPushdata1 then 1 else if opcode = opPushdata2 then 2 else 4
    if pc.length < width then none else some (leToNat (pc.take width), pc.drop width)

def getScriptOp : Bytes → Option ScriptOp
  | [] => none
  | opcode :: pc =>
    if opcode ≤ opPushdata4 then
      match pushSize opcode pc with
      | none => none
      | some (nSize, pc) =>
        if pc.length < nSize then none
        else some ⟨opcode, pc.take nSize, pc.drop nSize⟩
    else some ⟨opcode, [], pc⟩

lemma pushSize_length_le {opcode : UInt8} {pc rest : Bytes} {nSize : Nat}
    (hsize : pushSize opcode pc = some (nSize, rest)) : rest.length ≤ pc.length := by
  rw [pushSize] at hsize
  split at hsize
  · cases hsize
    exact le_rfl
  · dsimp only at hsize
    generalize (if opcode = opPushdata1 then 1 else if opcode = opPushdata2 then 2 else 4) =
      width at hsize
    split at hsize
    · cases hsize
    · cases hsize
      rw [length_drop]
      exact Nat.sub_le _ _

lemma getScriptOp_length_lt {pc : Bytes} {op : ScriptOp} (hop : getScriptOp pc = some op) :
    op.rest.length < pc.length := by
  cases pc with
  | nil => cases hop
  | cons opcode pc =>
    rw [getScriptOp] at hop
    split at hop
    · cases hsize : pushSize opcode pc with
      | none =>
        rw [hsize] at hop
        cases hop
      | some sized =>
        have hle := pushSize_length_le hsize
        rw [hsize] at hop
        dsimp only at hop
        split at hop
        · cases hop
        · cases hop
          rw [length_drop, length_cons]
          omega
    · cases hop
      exact Nat.lt_succ_self _

/-- The instructions of a script that is read with a bound on their number, and whether the end was
reached. -/
def readOps : Nat → Bytes → List ScriptOp × Bool
  | _, [] => ([], true)
  | 0, _ => ([], false)
  | fuel + 1, pc =>
    match getScriptOp pc with
    | none => ([], false)
    | some op =>
      let (ops, complete) := readOps fuel op.rest
      (op :: ops, complete)

/-- The instructions of a script up to its end, or up to the first that cannot be read; the flag
says which. -/
def scriptOps (script : Bytes) : List ScriptOp × Bool := readOps script.length script

lemma readOps_eq_scriptOps {fuel : Nat} {script : Bytes} (hfuel : script.length ≤ fuel) :
    readOps fuel script = scriptOps script := by
  have hread : ∀ fuel fuel' : Nat, ∀ pc : Bytes, pc.length ≤ fuel → pc.length ≤ fuel' →
      readOps fuel pc = readOps fuel' pc := by
    intro fuel
    induction fuel with
    | zero =>
      intro fuel' pc hle _
      rw [length_eq_zero_iff.1 (Nat.le_zero.1 hle), readOps, readOps]
    | succ fuel ih =>
      intro fuel' pc hle hle'
      cases pc with
      | nil => rw [readOps, readOps]
      | cons byte bytes =>
        cases fuel' with
        | zero => exact absurd hle' (Nat.not_succ_le_zero _)
        | succ fuel' =>
          rw [readOps, readOps]
          · cases hop : getScriptOp (byte :: bytes) with
            | none => rfl
            | some op =>
              have hlt := getScriptOp_length_lt hop
              have hrest := ih fuel' op.rest (by omega) (by omega)
              simp [hrest]
          · exact cons_ne_nil _ _
          · exact cons_ne_nil _ _
  exact hread fuel script.length script hfuel le_rfl

lemma scriptOps_of_getScriptOp {script : Bytes} {op : ScriptOp}
    (hop : getScriptOp script = some op) :
    scriptOps script = (op :: (scriptOps op.rest).1, (scriptOps op.rest).2) := by
  have hlt := getScriptOp_length_lt hop
  cases script with
  | nil => cases hop
  | cons byte bytes =>
    have hrest : readOps bytes.length op.rest = scriptOps op.rest :=
      readOps_eq_scriptOps (by rw [length_cons] at hlt; omega)
    rw [scriptOps, length_cons, readOps, hop]
    · simp [hrest]
    · exact cons_ne_nil _ _

namespace Script

/-- `DecodeOP_N`, for the opcodes it is called with. -/
def decodeOpN (opcode : UInt8) : Nat :=
  if opcode = op0 then 0 else opcode.toNat - (op1.toNat - 1)

/-- The loop of `GetSigOpCount`. -/
def sigOpCountLoop (fAccurate : Bool) : (lastOpcode : UInt8) → List ScriptOp → Nat
  | _, [] => 0
  | lastOpcode, op :: ops =>
    (if op.opcode = opChecksig ∨ op.opcode = opChecksigverify then 1
      else if op.opcode = opCheckmultisig ∨ op.opcode = opCheckmultisigverify then
        if fAccurate ∧ lastOpcode ≥ op1 ∧ lastOpcode ≤ op16 then decodeOpN lastOpcode
        else maxPubkeysPerMultisig
      else 0) + sigOpCountLoop fAccurate op.opcode ops

section

variable (script : Bytes)

/-- `GetSigOpCount(fAccurate)`, as an `unsigned int`. -/
def getSigOpCount (fAccurate : Bool) : Nat :=
  sigOpCountLoop fAccurate opInvalidopcode (scriptOps script).1 % 2 ^ 32

def isPayToScriptHash : Bool :=
  script.length = 23 && script[0]? = some opHash160 && script[1]? = some 0x14 &&
    script[22]? = some opEqual

/-- `IsWitnessProgram`: the version and the program. -/
def isWitnessProgram : Option (Nat × Bytes) :=
  match script with
  | version :: size :: program =>
    if script.length < 4 ∨ script.length > 66 then none
    else if version ≠ op0 ∧ (version < op1 ∨ version > op16) then none
    else if size.toNat + 2 ≠ script.length then none
    else if 2 ≤ program.length ∧ program.length ≤ 40 then some (decodeOpN version, program)
    else if decodeOpN version = 1 ∧ program.length = 64 then some (decodeOpN version, program)
    else none
  | _ => none

/-- `IsUnspendable`: no script that fails at once or is too long can be satisfied. -/
def isUnspendable : Bool := script.head? = some opReturn || script.length > maxScriptSize

def isPushOnly : Bool := (scriptOps script).2 && (scriptOps script).1.all fun op => op.opcode ≤ op16

end

/-- `CScript() << data`: the size of the data and the data. -/
def pushData (data : Bytes) : Bytes :=
  (if data.length < opPushdata1.toNat then [UInt8.ofNat data.length]
    else if data.length ≤ 0xff then [opPushdata1, UInt8.ofNat data.length]
    else if data.length ≤ 0xffff then opPushdata2 :: natToLE 2 data.length
    else opPushdata4 :: natToLE 4 data.length) ++ data

def checkMinimalPush (data : Bytes) (opcode : UInt8) : Bool :=
  match data with
  | [] => opcode = op0
  | first :: rest =>
    if rest = [] ∧ first ≥ 1 ∧ first ≤ 16 then false
    else if rest = [] ∧ first = 0x81 then false
    else if data.length ≤ 75 then opcode.toNat = data.length
    else if data.length ≤ 255 then opcode = opPushdata1
    else if data.length ≤ 65535 then opcode = opPushdata2
    else true

/-- The inner loop of `FindAndDelete`: the copies of `b` at the front of the script. -/
def stripCopies (b : Bytes) : (fuel : Nat) → Bytes → Bytes × Nat
  | 0, pc => (pc, 0)
  | fuel + 1, pc =>
    if b <+: pc then
      let (rest, found) := stripCopies b fuel (pc.drop b.length)
      (rest, found + 1)
    else (pc, 0)

/-- The outer loop of `FindAndDelete`: the script without the copies of `b` that start at an
instruction, and their number. `chunk` is the instruction read last. -/
def findAndDeleteLoop (b : Bytes) : (fuel : Nat) → (chunk pc : Bytes) → Bytes × Nat
  | 0, chunk, pc => (chunk ++ pc, 0)
  | fuel + 1, chunk, pc =>
    let (stripped, found) := stripCopies b pc.length pc
    match getScriptOp stripped with
    | none => (chunk ++ stripped, found)
    | some op =>
      let read := stripped.take (stripped.length - op.rest.length)
      let (result, more) := findAndDeleteLoop b fuel read op.rest
      (chunk ++ result, found + more)

/-- `FindAndDelete`: the script after the deletion and the number of copies found. -/
def findAndDelete (script b : Bytes) : Bytes × Nat :=
  if b = [] then (script, 0)
  else
    let (result, nFound) := findAndDeleteLoop b (script.length + 1) [] script
    if nFound > 0 then (result, nFound) else (script, nFound)

end Script

namespace CScriptNum

/-- The bytes of an unsigned 64-bit value without leading zeros, least significant first. -/
def absBytes : (fuel : Nat) → Nat → Bytes
  | 0, _ => []
  | fuel + 1, absvalue =>
    if absvalue = 0 then [] else UInt8.ofNat (absvalue % 256) :: absBytes fuel (absvalue / 256)

def serialize (value : Int) : Bytes :=
  let result := absBytes 8 value.natAbs
  match result.getLast? with
  | none => []
  | some last =>
    if last &&& 0x80 ≠ 0 then result ++ [if value < 0 then 0x80 else 0]
    else if value < 0 then result.dropLast ++ [last ||| 0x80]
    else result

def setVch (vch : Bytes) : Int :=
  match vch.getLast? with
  | none => 0
  | some last =>
    if last &&& 0x80 ≠ 0 then -((leToNat vch - 0x80 * 256 ^ (vch.length - 1) : Nat) : Int)
    else leToNat vch

/-- The number is encoded with as few bytes as possible. -/
def isMinimal (vch : Bytes) : Bool :=
  match vch.getLast? with
  | none => true
  | some last =>
    last &&& 0x7f ≠ 0 ||
      match vch.dropLast.getLast? with
      | none => false
      | some second => second &&& 0x80 ≠ 0

/-- `getint`: the value clamped to an `int`. -/
def getint (value : Int) : Int := max (-2 ^ 31) (min value (2 ^ 31 - 1))

end CScriptNum

namespace Script

/-- `CScript() << n` for an integer. -/
def pushInt64 (n : Int) : Bytes :=
  if n = -1 ∨ (n ≥ 1 ∧ n ≤ 16) then [UInt8.ofNat (n + (op1.toNat - 1)).toNat]
  else if n = 0 then [op0]
  else pushData (CScriptNum.serialize n)

end Script

end Tidecoin
