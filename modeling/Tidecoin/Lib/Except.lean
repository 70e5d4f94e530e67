import Mathlib.Logic.Basic
import Mathlib.Tactic.Basic

/-!
Two runs of a computation that can fail, side by side. `Restricts` says that one run adds checks to
the other: where it succeeds the other one gives the same value. `Inherits` says that a firm failure
of one run cannot be a success of the other, which may fail for any reason. Both relations are
closed under sequencing, so a property of a long computation follows from its single checks.
-/

namespace Tidecoin.Lib

universe u

variable {ε : Type} {α β : Type u}

/-- A check that fails with the given error when the condition does not hold. -/
def require {ε : Type} (condition : Prop) [Decidable condition] (invalid : ε) : Except ε Unit :=
  if condition then .ok () else .error invalid

variable {condition : Prop} [Decidable condition]

lemma require_pos (hcondition : condition) (invalid : ε) :
    require condition invalid = .ok () :=
  if_pos hcondition

lemma require_neg (hcondition : ¬condition) (invalid : ε) :
    require condition invalid = .error invalid :=
  if_neg hcondition

lemma require_eq_ok {invalid : ε} {value : Unit} :
    require condition invalid = .ok value ↔ condition := by
  by_cases hcondition : condition
  · rw [require_pos hcondition]
    exact ⟨fun _ => hcondition, fun _ => rfl⟩
  · rw [require_neg hcondition]
    exact ⟨fun hok => (nomatch hok), fun hholds => absurd hholds hcondition⟩

lemma isOk_iff {run : Except ε Unit} : run.isOk ↔ run = .ok () := by
  cases run with
  | error invalid => simp [Except.toBool]
  | ok value => simp [Except.toBool]

variable {run : Except ε α} {next next' : α → Except ε β}

lemma exists_of_isOk (hrun : run.isOk) : ∃ value, run = .ok value := by
  cases run with
  | error invalid => cases hrun
  | ok value => exact ⟨value, rfl⟩

lemma bind_eq_ok {value : β} :
    run >>= next = .ok value ↔ ∃ first, run = .ok first ∧ next first = .ok value := by
  cases run with
  | error invalid => exact ⟨fun hbind => (nomatch hbind), fun ⟨_, hrun, _⟩ => (nomatch hrun)⟩
  | ok first =>
    constructor
    · exact fun hbind => ⟨first, rfl, hbind⟩
    · rintro ⟨_, hrun, hnext⟩
      cases hrun
      exact hnext

lemma bind_congr_ok
    (hnext : ∀ value, run = .ok value → next value = next' value) :
    run >>= next = run >>= next' := by
  cases run with
  | error invalid => rfl
  | ok value => exact hnext value rfl

lemma mapError_eq_ok {ε' : Type} {f : ε → ε'} {value : α} :
    run.mapError f = .ok value ↔ run = .ok value := by
  cases run with
  | error invalid => exact ⟨fun hmap => (nomatch hmap), fun hrun => (nomatch hrun)⟩
  | ok first => exact ⟨fun hmap => congrArg _ (Except.ok.inj hmap), fun hrun => by rw [hrun]; rfl⟩

/-- Where the strict run succeeds, the lenient one gives the same value. -/
def Restricts (strict lenient : Except ε α) : Prop :=
  ∀ value, strict = .ok value → lenient = .ok value

namespace Restricts

lemma refl (run : Except ε α) : Restricts run run := fun _ hrun => hrun

variable {strict lenient : Except ε α}

section

variable (hrun : Restricts strict lenient)
include hrun

lemma bind_of_ok
    (hnext : ∀ value, strict = .ok value → Restricts (next value) (next' value)) :
    Restricts (strict >>= next) (lenient >>= next') := by
  intro value hbind
  obtain ⟨first, hfirst, hlast⟩ := bind_eq_ok.1 hbind
  exact bind_eq_ok.2 ⟨first, hrun first hfirst, hnext first hfirst value hlast⟩

lemma bind (hnext : ∀ value, Restricts (next value) (next' value)) :
    Restricts (strict >>= next) (lenient >>= next') :=
  hrun.bind_of_ok fun value _ => hnext value

lemma mapError {ε' : Type} (f : ε → ε') : Restricts (strict.mapError f) (lenient.mapError f) := by
  intro value hmap
  exact mapError_eq_ok.2 (hrun value (mapError_eq_ok.1 hmap))

end

lemma ite {strict' lenient' : Except ε α}
    (hpos : Restricts strict lenient) (hneg : Restricts strict' lenient') :
    Restricts (if condition then strict else strict') (if condition then lenient else
      lenient') := by
  split
  · exact hpos
  · exact hneg

variable {γ : Type} {step step' : α → γ → Except ε α}

lemma foldlM_of_invariant (invariant : α → Prop)
    (hstep : ∀ state item, invariant state → Restricts (step state item) (step' state item))
    (hkeep : ∀ state item next, invariant state → step state item = .ok next → invariant next)
    (items : List γ) {state : α} (hstate : invariant state) :
    Restricts (items.foldlM step state) (items.foldlM step' state) := by
  induction items generalizing state with
  | nil => exact refl _
  | cons item items ih =>
    apply bind_of_ok (hstep state item hstate)
    intro next hnext
    exact ih (hkeep state item next hstate hnext)

lemma foldlM (hstep : ∀ state item, Restricts (step state item) (step' state item)) (items : List γ)
    (state : α) : Restricts (items.foldlM step state) (items.foldlM step' state) :=
  foldlM_of_invariant (fun _ => True) (fun state item _ => hstep state item) (fun _ _ _ _ _ =>
    trivial)
    items trivial

end Restricts

variable {firm : ε → Prop}

/-- A failure of the first run that is firm is a failure, firm or not, of the second. -/
def Inherits (firm : ε → Prop) (run run' : Except ε α) : Prop :=
  ∀ invalid, run = .error invalid → firm invalid → ∃ invalid', run' = .error invalid'

namespace Inherits

lemma refl (run : Except ε α) : Inherits firm run run := fun invalid hrun _ => ⟨invalid, hrun⟩

lemma bind {run' : Except ε α} (hrun : Inherits firm run run')
    (hnext : ∀ value value', run = .ok value → run' = .ok value' →
      Inherits firm (next value) (next' value')) :
    Inherits firm (run >>= next) (run' >>= next') := by
  intro invalid hbind hfirm
  cases hsecond : run' with
  | error invalid' => exact ⟨invalid', rfl⟩
  | ok value' =>
    cases hfirst : run with
    | error reason =>
      rw [hfirst] at hbind
      cases hbind
      obtain ⟨_, hfails⟩ := hrun invalid hfirst hfirm
      rw [hsecond] at hfails
      cases hfails
    | ok value =>
      rw [hfirst] at hbind
      exact hnext value value' hfirst hsecond invalid hbind hfirm

lemma require {condition' : Prop} [Decidable condition']
    (hweaker : condition' → condition) (invalid invalid' : ε) :
    Inherits firm (Lib.require condition invalid) (Lib.require condition' invalid') := by
  intro reason hrun _
  by_cases hcondition : condition
  · rw [require_pos hcondition] at hrun
    cases hrun
  · exact ⟨invalid', require_neg (fun hholds => hcondition (hweaker hholds)) invalid'⟩

end Inherits

/-- The run fails for no firm reason. -/
def Soft (firm : ε → Prop) (run : Except ε α) : Prop :=
  ∀ invalid, run = .error invalid → ¬firm invalid

namespace Soft

lemma inherits (hsoft : Soft firm run) (run' : Except ε α) : Inherits firm run run' :=
  fun invalid hrun hfirm => absurd hfirm (hsoft invalid hrun)

lemma require {invalid : ε} (hfirm : ¬firm invalid) (condition : Prop) [Decidable condition] :
    Soft firm (Lib.require condition invalid) := by
  intro reason hrun
  by_cases hcondition : condition
  · rw [require_pos hcondition] at hrun
    cases hrun
  · rw [require_neg hcondition] at hrun
    cases hrun
    exact hfirm

lemma ok (value : α) : Soft firm (.ok value) := fun _ hrun => (nomatch hrun)

lemma error {invalid : ε} (hfirm : ¬firm invalid) : Soft firm (.error invalid : Except ε α) := by
  intro reason hrun
  cases hrun
  exact hfirm

lemma bind_of_ok (hrun : Soft firm run)
    (hnext : ∀ value, run = .ok value → Soft firm (next value)) : Soft firm (run >>= next) := by
  cases hfirst : run with
  | error reason =>
    rw [hfirst] at hrun
    intro invalid hbind
    cases hbind
    exact hrun reason rfl
  | ok value => exact hnext value hfirst

lemma bind (hrun : Soft firm run) (hnext : ∀ value, Soft firm (next value)) :
    Soft firm (run >>= next) :=
  hrun.bind_of_ok fun value _ => hnext value

lemma ite {run' : Except ε α} (hpos : Soft firm run)
    (hneg : Soft firm run') : Soft firm (if condition then run else run') := by
  split
  · exact hpos
  · exact hneg

lemma mapError {ε' : Type} {firm' : ε' → Prop} (hrun : Soft firm run) {f : ε → ε'}
    (hf : ∀ invalid, firm' (f invalid) → firm invalid) : Soft firm' (run.mapError f) := by
  intro invalid hmap
  cases hfirst : run with
  | error reason =>
    rw [hfirst] at hmap
    cases hmap
    exact fun hfirm => hrun reason hfirst (hf reason hfirm)
  | ok value =>
    rw [hfirst] at hmap
    cases hmap

end Soft

/-- The run fails for no firm reason, and gives a value of `Q` if it succeeds. -/
def Yields (firm : ε → Prop) (run : Except ε α) (Q : α → Prop) : Prop :=
  Soft firm run ∧ ∀ value, run = .ok value → Q value

lemma Soft.yields (hsoft : Soft firm run) : Yields firm run fun value => run = .ok value :=
  ⟨hsoft, fun _ => id⟩

namespace Yields

variable {Q : α → Prop}

lemma ok {value : α} (hvalue : Q value) : Yields firm (.ok value) Q :=
  ⟨.ok value, fun _ hrun => Except.ok.inj hrun ▸ hvalue⟩

lemma imp {S : α → Prop} (h : Yields firm run Q) (himp : ∀ value, Q value → S value) :
    Yields firm run S :=
  ⟨h.1, fun value hrun => himp value (h.2 value hrun)⟩

lemma bind {S : β → Prop} (h : Yields firm run Q)
    (hnext : ∀ value, Q value → Yields firm (next value) S) : Yields firm (run >>= next) S := by
  refine ⟨h.1.bind_of_ok fun value hrun => (hnext value (h.2 value hrun)).1, fun last hbind => ?_⟩
  obtain ⟨value, hrun, hlast⟩ := bind_eq_ok.1 hbind
  exact (hnext value (h.2 value hrun)).2 last hlast

end Yields

end Tidecoin.Lib
