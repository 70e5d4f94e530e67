import Mathlib.Data.Nat.Bitwise
import Mathlib.Dynamics.PeriodicPts.Defs

/-!
Vectors of bits packed in a number, added by exclusive or. A map that respects the addition is
determined by its values at the single bits, so that an equation between two such maps is checked at
finitely many places.
-/

namespace Tidecoin.Lib

/-- Numbers without a common bit are added by exclusive or. -/
lemma mul_two_pow_add_eq_xor {width b : Nat} (hb : b < 2 ^ width) (a : Nat) :
    a * 2 ^ width + b = a * 2 ^ width ^^^ b := by
  apply Nat.eq_of_testBit_eq
  intro bit
  rw [Nat.mul_comm, Nat.testBit_two_pow_mul_add a hb, Nat.testBit_xor, Nat.testBit_two_pow_mul]
  by_cases hbit : bit < width
  · simp [hbit, Nat.not_le.2 hbit]
  · have hhigh : b.testBit bit = false :=
      Nat.testBit_eq_false_of_lt (hb.trans_le (Nat.pow_le_pow_right Nat.two_pos (not_lt.1 hbit)))
    simp [hbit, hhigh, not_lt.1 hbit]

/-- The map respects exclusive or. -/
def XorLinear (map : Nat → Nat) : Prop := ∀ a b, map (a ^^^ b) = map a ^^^ map b

namespace XorLinear

variable {map other : Nat → Nat}

lemma zero (hmap : XorLinear map) : map 0 = 0 := by
  have hself := hmap 0 0
  rwa [Nat.xor_self, Nat.xor_self] at hself

variable (hmap : XorLinear map) (hother : XorLinear other)

include hmap hother in
lemma comp : XorLinear (map ∘ other) := by
  intro a b
  change map (other (a ^^^ b)) = map (other a) ^^^ map (other b)
  rw [hother a b, hmap]

include hmap hother in
lemma add : XorLinear fun word => map word ^^^ other word := by
  intro a b
  simp [hmap a b, hother a b, Nat.xor_assoc, Nat.xor_left_comm]

lemma ofBit (bit addend : Nat) :
    XorLinear fun word => if word &&& 2 ^ bit ≠ 0 then addend else 0 := by
  have hbit : ∀ word : Nat, word &&& 2 ^ bit ≠ 0 ↔ word.testBit bit := by
    intro word
    rw [Nat.and_two_pow]
    cases word.testBit bit <;> simp
  intro a b
  simp only [hbit, Nat.testBit_xor]
  cases a.testBit bit <;> cases b.testBit bit <;> simp

lemma shiftRight (count : Nat) : XorLinear fun word => word >>> count :=
  fun _ _ => Nat.shiftRight_xor_distrib

lemma shiftLeft (count : Nat) : XorLinear fun word => word <<< count :=
  fun _ _ => Nat.shiftLeft_xor_distrib

lemma and (mask : Nat) : XorLinear fun word => word &&& mask := fun _ _ => Nat.and_xor_distrib_right

lemma iterate (hmap : XorLinear map) (count : Nat) : XorLinear map^[count] := by
  induction count with
  | zero => exact fun _ _ => rfl
  | succ count ih =>
    exact ih.comp hmap

include hmap hother in
lemma ext {width : Nat}
    (hbits : ∀ bit < width, map (2 ^ bit) = other (2 ^ bit)) :
    ∀ word < 2 ^ width, map word = other word := by
  induction width with
  | zero =>
    intro word hword
    have hzero : word = 0 := by simpa using hword
    rw [hzero, hmap.zero, hother.zero]
  | succ width ih =>
    intro word hword
    have hlow := ih fun bit hbit => hbits bit (by omega)
    by_cases hsmall : word < 2 ^ width
    · exact hlow word hsmall
    · -- Without its highest bit the word is smaller.
      have hrest : word - 2 ^ width < 2 ^ width := by
        omega
      have hword' : word = 2 ^ width ^^^ (word - 2 ^ width) := by
        have hsum := mul_two_pow_add_eq_xor hrest 1
        rw [Nat.one_mul] at hsum
        omega
      rw [hword', hmap, hother, hbits width (by omega), hlow _ hrest]

end XorLinear

lemma ite_xor (p : Prop) [Decidable p] (c addend : Nat) :
    (if p then c ^^^ addend else c) = c ^^^ (if p then addend else 0) := by
  split
  · rfl
  · rw [Nat.xor_zero]

lemma xor_eq_iff {a b c : Nat} : a ^^^ b = c ↔ a = c ^^^ b := by
  constructor
  · rintro rfl
    rw [Nat.xor_assoc, Nat.xor_self, Nat.xor_zero]
  · rintro rfl
    rw [Nat.xor_assoc, Nat.xor_self, Nat.xor_zero]

end Tidecoin.Lib
