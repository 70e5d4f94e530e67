import Tidecoin.Script.Interpreter

/-!
The stack of conditions against a plain stack of booleans. The two values that are kept depend only
on the booleans on the stack, as if these had just been pushed one after the other.
-/

namespace Tidecoin

namespace ConditionStack

/-- A use of the stack. -/
inductive Op where
  | pushBack (f : Bool)
  | popBack
  | toggleTop
deriving DecidableEq, Repr

/-- What is left of the values in fields of 32 bits: the size wraps around, and the last position is
`NO_FALSE`. -/
def stored (vfExec : ConditionStack) : ConditionStack :=
  ⟨vfExec.stackSize % 2 ^ 32, vfExec.firstFalsePos.filter (· ≠ 2 ^ 32 - 1)⟩

/-- One operation; two of them assert that the stack is not empty. -/
def step (vfExec : ConditionStack) : Op → Option ConditionStack
  | .pushBack f => some (vfExec.pushBack f).stored
  | .popBack => if vfExec.empty then none else some vfExec.popBack.stored
  | .toggleTop => if vfExec.empty then none else some vfExec.toggleTop.stored

def run (vfExec : ConditionStack) (ops : List Op) : Option ConditionStack := ops.foldlM step vfExec

/-- One operation on a plain stack, the bottom first. -/
def plainStep (stack : List Bool) : Op → Option (List Bool)
  | .pushBack f => some (stack ++ [f])
  | .popBack => stack.getLast?.map fun _ => stack.dropLast
  | .toggleTop => stack.getLast?.map fun top => stack.dropLast ++ [!top]

def plainRun (stack : List Bool) (ops : List Op) : Option (List Bool) := ops.foldlM plainStep stack

/-- The two values for a plain stack. -/
def ofPlain (stack : List Bool) : ConditionStack := stack.foldl pushBack initial

lemma ofPlain_concat (stack : List Bool) (top : Bool) :
    ofPlain (stack ++ [top]) = (ofPlain stack).pushBack top :=
  List.foldl_concat ..

lemma stackSize_ofPlain (stack : List Bool) : (ofPlain stack).stackSize = stack.length := by
  induction stack using List.reverseRecOn with
  | nil => rfl
  | append_singleton stack top ih => simp [ofPlain_concat, pushBack, ih]

lemma firstFalsePos_ofPlain (stack : List Bool) :
    (∃ pos < stack.length, (ofPlain stack).firstFalsePos = some pos ∧ stack.all id = false) ∨
      (ofPlain stack).firstFalsePos = none ∧ stack.all id := by
  induction stack using List.reverseRecOn with
  | nil => exact .inr ⟨rfl, rfl⟩
  | append_singleton stack top ih =>
    rw [ofPlain_concat, List.length_append, List.all_append]
    rcases ih with ⟨pos, hlt, hpos, hall⟩ | ⟨hpos, hall⟩
    · exact .inl ⟨pos, by omega, by simp [pushBack, hpos], by simp [hall]⟩
    · cases top with
      | true => exact .inr ⟨by simp [pushBack, hpos], by simp [hall]⟩
      | false =>
        exact .inl ⟨stack.length, by simp, by simp [pushBack, hpos, stackSize_ofPlain], by simp⟩

lemma stored_ofPlain {stack : List Bool} (hlength : stack.length < 2 ^ 32) :
    (ofPlain stack).stored = ofPlain stack := by
  have hsize : (ofPlain stack).stackSize % 2 ^ 32 = (ofPlain stack).stackSize := by
    rw [stackSize_ofPlain, Nat.mod_eq_of_lt hlength]
  have hpos :
      (ofPlain stack).firstFalsePos.filter (· ≠ 2 ^ 32 - 1) = (ofPlain stack).firstFalsePos := by
    rcases firstFalsePos_ofPlain stack with ⟨pos, hlt, hpos, -⟩ | ⟨hpos, -⟩
    · have hne : pos ≠ 2 ^ 32 - 1 := by omega
      rw [hpos, Option.filter_some, if_pos (decide_eq_true hne)]
    · rw [hpos, Option.filter_none]
  rw [stored, hsize, hpos]

lemma firstFalsePos_ne (stack : List Bool) :
    (ofPlain stack).firstFalsePos ≠ some (ofPlain stack).stackSize := by
  rw [stackSize_ofPlain]
  rcases firstFalsePos_ofPlain stack with ⟨pos, hlt, hpos, -⟩ | ⟨hpos, -⟩
  · simpa [hpos] using hlt.ne
  · simp [hpos]

lemma popBack_ofPlain (stack : List Bool) (top : Bool) :
    (ofPlain (stack ++ [top])).popBack = ofPlain stack := by
  have hne := firstFalsePos_ne stack
  rw [ofPlain_concat]
  generalize ofPlain stack = vfExec at hne ⊢
  obtain ⟨size, _ | pos⟩ := vfExec
  · cases top <;> simp [pushBack, popBack]
  · simp_all [pushBack, popBack]

lemma toggleTop_ofPlain (stack : List Bool) (top : Bool) :
    (ofPlain (stack ++ [top])).toggleTop = ofPlain (stack ++ [!top]) := by
  have hne := firstFalsePos_ne stack
  rw [ofPlain_concat, ofPlain_concat]
  generalize ofPlain stack = vfExec at hne ⊢
  obtain ⟨size, _ | pos⟩ := vfExec
  · cases top <;> simp [pushBack, toggleTop]
  · simp_all [pushBack, toggleTop]

lemma step_ofPlain {stack next : List Bool} {op : Op} (hlength : next.length < 2 ^ 32)
    (hnext : plainStep stack op = some next) : (ofPlain stack).step op = some (ofPlain next) := by
  rw [← stored_ofPlain hlength]
  cases op with
  | pushBack f =>
    cases hnext
    rw [ofPlain_concat]
    rfl
  | popBack | toggleTop =>
    obtain ⟨top, htop, rfl⟩ := Option.map_eq_some_iff.1 hnext
    obtain ⟨front, rfl⟩ := List.getLast?_eq_some_iff.1 htop
    have hnonempty : (ofPlain (front ++ [top])).empty = false := by
      simp [empty, stackSize_ofPlain]
    rw [step, hnonempty, List.dropLast_concat]
    simp [popBack_ofPlain, toggleTop_ofPlain]

/-- None of the operations leaves `2 ^ 32` values on the stack. -/
def Bounded : List Bool → List Op → Prop
  | _, [] => True
  | stack, op :: ops => ∀ next ∈ plainStep stack op, next.length < 2 ^ 32 ∧ Bounded next ops

lemma run_ofPlain {stack last : List Bool} {ops : List Op} (hbounded : Bounded stack ops)
    (hlast : plainRun stack ops = some last) : (ofPlain stack).run ops = some (ofPlain last) := by
  induction ops generalizing stack with
  | nil =>
    cases hlast
    rfl
  | cons op ops ih =>
    obtain ⟨next, hnext, hrest⟩ := Option.bind_eq_some_iff.1 hlast
    obtain ⟨hlength, hbounded⟩ := hbounded next hnext
    exact Option.bind_eq_some_iff.2 ⟨_, step_ofPlain hlength hnext, ih hbounded hrest⟩

/-- `empty` and `all_true` are those of the plain stack after every sequence of operations that
never makes it hold `2 ^ 32` values. -/
theorem refines_plain (ops : List Op) (stack : List Bool) (hbounded : Bounded [] ops)
    (hrun : plainRun [] ops = some stack) :
    ∃ vfExec, initial.run ops = some vfExec ∧ vfExec.empty = stack.isEmpty ∧
      vfExec.allTrue = stack.all id := by
  refine ⟨_, run_ofPlain hbounded hrun, ?_, ?_⟩
  · rw [empty, stackSize_ofPlain]
    cases stack <;> rfl
  · rcases firstFalsePos_ofPlain stack with ⟨pos, -, hpos, hall⟩ | ⟨hpos, hall⟩
    · rw [allTrue, hpos, hall]
      rfl
    · rw [allTrue, hpos, hall]
      rfl

theorem refines_plain_nested :
    ∃ vfExec, initial.run [.pushBack true, .pushBack false, .toggleTop, .toggleTop, .popBack] =
      some vfExec ∧ vfExec.empty = false ∧ vfExec.allTrue = true :=
  refines_plain [.pushBack true, .pushBack false, .toggleTop, .toggleTop, .popBack] [true]
    (by simp [Bounded, plainStep]) rfl

lemma run_replicate (count : Nat) : plainRun [] (.replicate count (.pushBack true)) =
      some (.replicate count true) ∧
    initial.run (.replicate count (.pushBack true)) = some ⟨count % 2 ^ 32, none⟩ := by
  induction count with
  | zero => exact ⟨rfl, rfl⟩
  | succ count ih =>
    rw [List.replicate_succ', plainRun, run, List.foldlM_append, List.foldlM_append]
    change (plainRun [] _).bind _ = _ ∧ (initial.run _).bind _ = _
    rw [ih.1, ih.2]
    simp [plainStep, step, pushBack, stored, List.replicate_succ']

/-- A stack of `2 ^ 32` values seems empty. -/
theorem size_wraps : ∃ ops stack vfExec, plainRun [] ops = some stack ∧
    initial.run ops = some vfExec ∧ vfExec.empty = true ∧ stack.isEmpty = false := by
  obtain ⟨hplain, hrun⟩ := run_replicate (2 ^ 32)
  refine ⟨_, _, _, hplain, hrun, rfl, ?_⟩
  rw [List.isEmpty_eq_false_iff, ne_eq, List.replicate_eq_nil_iff]
  norm_num

end ConditionStack

end Tidecoin
