import Mathlib.Data.List.Basic

/-!
Functions that are defined at some places only, laid over each other: where both are defined the
first one wins. For functions that agree, the result of laying over a list of them is defined
exactly where one of them is, so it depends on which functions are in the list and on nothing else.

A check that looks at two values at a time passes for the result if it passes for any two of the
functions.
-/

namespace Tidecoin.Lib

variable {σ : Type} {ν : σ → Type}

/-- The first function where it is defined, and else the second. -/
def overlay (first second : (s : σ) → Option (ν s)) : (s : σ) → Option (ν s) :=
  fun s => (first s).or (second s)

/-- Where both functions are defined they have the same value. -/
def Agree (first second : (s : σ) → Option (ν s)) : Prop :=
  ∀ s value other, first s = some value → second s = some other → value = other

/-- Any two values of the two functions are as the rule has it. -/
def Passes (rule : (s : σ) → ν s → (t : σ) → ν t → Prop) (first second : (s : σ) → Option (ν s)) :
    Prop :=
  ∀ s value t other, (first s = some value ∨ second s = some value) →
    (first t = some other ∨ second t = some other) → rule s value t other

/-- The function has exactly the values of the functions in the list. -/
def Covers (functions : List ((s : σ) → Option (ν s))) (total : (s : σ) → Option (ν s)) : Prop :=
  ∀ s value, total s = some value ↔ ∃ function ∈ functions, function s = some value

variable {first second total : (s : σ) → Option (ν s)} {functions : List ((s : σ) → Option (ν s))}

lemma overlay_eq_some {s : σ} {value : ν s} : overlay first second s = some value ↔
      first s = some value ∨ first s = none ∧ second s = some value := by
  unfold overlay
  cases first s <;> simp

lemma Agree.overlay_eq_some (hagree : Agree first second) {s : σ} {value : ν s} :
    overlay first second s = some value ↔ first s = some value ∨ second s = some value := by
  rw [Lib.overlay_eq_some]
  constructor
  · rintro (hfirst | ⟨-, hsecond⟩)
    · exact .inl hfirst
    · exact .inr hsecond
  · rintro (hfirst | hsecond)
    · exact .inl hfirst
    · cases hfirst : first s with
      | none => exact .inr ⟨rfl, hsecond⟩
      | some other => exact .inl (congrArg some (hagree s other value hfirst hsecond))

@[simp] lemma overlay_self : overlay first first = first := by
  funext s
  unfold overlay
  cases first s <;> rfl

lemma Covers.singleton : Covers [first] first := by
  intro s value
  simp

variable (hcovers : Covers functions total) (hagree : ∀ function ∈ functions, Agree function second)

include hcovers hagree in
lemma Covers.overlay : Covers (second :: functions) (overlay total second) := by
  intro s value
  rw [overlay_eq_some, List.exists_mem_cons_iff, hcovers]
  constructor
  · rintro (hfirst | ⟨-, hsecond⟩)
    · exact .inr hfirst
    · exact .inl hsecond
  · rintro (hsecond | hfirst)
    · cases htotal : total s with
      | none => exact .inr ⟨rfl, hsecond⟩
      | some other =>
        obtain ⟨function, hmem, hfunction⟩ := (hcovers s other).1 htotal
        have hsame := hagree function hmem s other value hfunction hsecond
        subst hsame
        exact .inl ⟨function, hmem, hfunction⟩
    · exact .inl hfirst

lemma Covers.unique {others : List ((s : σ) → Option (ν s))} {other : (s : σ) → Option (ν s)}
    (hcovers : Covers functions total) (hother : Covers others other)
    (hsame : ∀ function, function ∈ functions ↔ function ∈ others) : total = other := by
  funext s
  apply Option.ext
  intro value
  rw [hcovers s value, hother s value]
  simp [hsame]

lemma Agree.symm (hagree : Agree first second) : Agree second first :=
  fun s value other hvalue hother => (hagree s other value hother hvalue).symm

include hcovers hagree in
lemma Covers.agree : Agree total second := by
  intro s value other hvalue hother
  obtain ⟨function, hmem, hfunction⟩ := (hcovers s value).1 hvalue
  exact hagree function hmem s value other hfunction hother

variable {rule : (s : σ) → ν s → (t : σ) → ν t → Prop}

lemma Passes.symm (hpasses : Passes rule first second) : Passes rule second first :=
  fun s value t other hvalue hother => hpasses s value t other hvalue.symm hother.symm

lemma Covers.passes (hcovers : Covers functions total)
    (hpasses : ∀ function ∈ second :: functions, ∀ other ∈ second :: functions,
      Passes rule function other) :
    Passes rule total second := by
  -- Each value on either side is one of a function in the list, or of the second function.
  have hfrom : ∀ s value, (total s = some value ∨ second s = some value) →
      ∃ function ∈ second :: functions, function s = some value := by
    rintro s value (htotal | hsecond)
    · obtain ⟨function, hmem, hfunction⟩ := (hcovers s value).1 htotal
      exact ⟨function, List.mem_cons_of_mem _ hmem, hfunction⟩
    · exact ⟨second, List.mem_cons_self, hsecond⟩
  intro s value t other hvalue hother
  obtain ⟨function, hmem, hfunction⟩ := hfrom s value hvalue
  obtain ⟨function', hmem', hfunction'⟩ := hfrom t other hother
  exact hpasses function hmem function' hmem' s value t other (.inl hfunction) (.inr hfunction')

end Tidecoin.Lib
