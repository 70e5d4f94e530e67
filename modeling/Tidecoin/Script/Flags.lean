import Tidecoin.Lib.Except
import Mathlib.Data.Finset.Lattice.Basic
import Mathlib.Data.Finset.Insert

/-!
The script verification flags of `script/interpreter.h` and the flag sets of `policy/policy.h` and
`validation.cpp`. A flag word is the set of its flags. The interpreter asserts two rules about the
sets it is called with; `ScriptFlags` carries them, so that the assertions cannot fail.
-/

namespace Tidecoin

open Lib

/-- `SCRIPT_VERIFY_...`, in the order of their bits. -/
inductive ScriptFlag where
  | p2sh
  | nulldummy
  | sigpushonly
  | minimaldata
  | discourageUpgradableNops
  | cleanstack
  | checklocktimeverify
  | checksequenceverify
  | witness
  | discourageUpgradableWitnessProgram
  | minimalif
  | nullfail
  | constScriptcode
  | pqStrict
  | witnessV1512
  | sha512
  | definedHashtype
deriving DecidableEq, Repr

def mandatoryScriptVerifyFlags : Finset ScriptFlag :=
  {.p2sh, .nulldummy, .checklocktimeverify, .checksequenceverify, .witness}

def standardScriptVerifyFlags : Finset ScriptFlag :=
  mandatoryScriptVerifyFlags ∪
    {.minimaldata, .discourageUpgradableNops, .cleanstack, .minimalif, .nullfail,
      .discourageUpgradableWitnessProgram, .constScriptcode}

/-- `AUXPOW_SCRIPT_FLAGS`: the flags that select the rules of an activation. -/
def auxpowScriptFlags : Finset ScriptFlag := {.pqStrict, .witnessV1512, .sha512}

/-- A set of flags the interpreter can be called with: `CLEANSTACK` needs `P2SH` and `WITNESS`, and
`WITNESS` needs `P2SH`. -/
structure ScriptFlags where
  flags : Finset ScriptFlag
  cleanstackRule : .cleanstack ∈ flags → .p2sh ∈ flags ∧ .witness ∈ flags
  witnessRule : .witness ∈ flags → .p2sh ∈ flags

/-- `flags & flag`. -/
def ScriptFlags.has (flags : ScriptFlags) (flag : ScriptFlag) : Bool := flag ∈ flags.flags

/-- The first set has fewer flags than the second and the same activation rules. -/
structure ScriptFlags.Relaxes (flags flags' : ScriptFlags) : Prop where
  subset : flags.flags ⊆ flags'.flags
  activation : ∀ flag ∈ auxpowScriptFlags, flag ∈ flags'.flags → flag ∈ flags.flags

namespace ScriptFlags.Relaxes

variable {flags flags' : ScriptFlags}

lemma has (hflags : flags.Relaxes flags') {flag : ScriptFlag} (hflag : flags.has flag) :
    flags'.has flag :=
  decide_eq_true (hflags.subset (of_decide_eq_true hflag))

lemma has_activation (hflags : flags.Relaxes flags') {flag : ScriptFlag}
    (hflag : flag ∈ auxpowScriptFlags) : flags'.has flag = flags.has flag := by
  rw [Bool.eq_iff_iff]
  refine ⟨fun hstrict => ?_, hflags.has⟩
  exact decide_eq_true (hflags.activation flag hflag (of_decide_eq_true hstrict))

end ScriptFlags.Relaxes

/-- A check that is only made under a flag. -/
def whenFlag {ε : Type} (flags : ScriptFlags) (flag : ScriptFlag) (check : Except ε Unit) :
    Except ε Unit :=
  if flags.has flag then check else .ok ()

lemma ScriptFlags.Relaxes.whenFlag {flags flags' : ScriptFlags} (hflags : flags.Relaxes flags')
    {ε : Type}
    (flag : ScriptFlag) {check check' : Except ε Unit} (hcheck : Restricts check' check) :
    Restricts (whenFlag flags' flag check') (whenFlag flags flag check) := by
  intro value hstrict
  rw [Tidecoin.whenFlag] at hstrict ⊢
  split
  case isTrue hflag =>
    rw [if_pos (hflags.has hflag)] at hstrict
    exact hcheck value hstrict
  case isFalse => rfl

end Tidecoin
