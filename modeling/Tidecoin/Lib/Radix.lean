import Mathlib.Data.Nat.Digits.Lemmas

/-!
Conversion between bases, one digit at a time: the digits of a number are multiplied by the old base
and the next digit comes in as a carry. The digits stand least significant first, in an array of
fixed size of which the loop touches what is in use.
-/

namespace Tidecoin.Lib

open List

/-- The digits in use after `value = mul * value + carry`, and the carry that found no room. -/
def mulAddDigits (mul base : Nat) : (room carry : Nat) → List Nat → List Nat × Nat
  | 0, carry, _ => ([], carry)
  | room + 1, carry, [] =>
    if carry = 0 then ([], 0)
    else
      let next := mulAddDigits mul base room (carry / base) []
      (carry % base :: next.1, next.2)
  | room + 1, carry, digit :: digits =>
    let total := carry + mul * digit
    let next := mulAddDigits mul base room (total / base) digits
    (total % base :: next.1, next.2)

variable {mul base : Nat}

lemma mulAddDigits_digits (hmul : 0 < mul) (hbase : 1 < base) (room : Nat) :
    ∀ carry value, mul * value + carry < base ^ room →
      mulAddDigits mul base room carry (Nat.digits base value) =
        (Nat.digits base (mul * value + carry), 0) := by
  induction room with
  | zero =>
    intro carry value hroom
    have hzero : mul * value + carry = 0 := by simpa using hroom
    have hcarry : carry = 0 := by omega
    rw [hzero, hcarry, Nat.digits_zero, mulAddDigits]
  | succ room ih =>
    intro carry value hroom
    rcases Nat.eq_zero_or_pos value with rfl | hvalue
    · rcases Nat.eq_zero_or_pos carry with rfl | hcarry
      · simp [mulAddDigits]
      · have hrest : mul * 0 + carry / base < base ^ room := by
          rw [Nat.mul_zero, Nat.zero_add] at hroom ⊢
          apply Nat.div_lt_of_lt_mul
          rw [← Nat.pow_succ']
          exact hroom
        have hnext := ih (carry / base) 0 hrest
        rw [Nat.digits_zero, Nat.mul_zero, Nat.zero_add] at hnext
        rw [Nat.digits_zero, Nat.mul_zero, Nat.zero_add, Nat.digits_def' hbase hcarry]
        simp [mulAddDigits, Nat.ne_of_gt hcarry, hnext]
    · -- The lowest digit goes into the carry, the others are those of the quotient.
      have htotal : mul * value + carry = base * (mul * (value / base)) +
          (carry + mul * (value % base)) := by
        have hdivision := Nat.div_add_mod value base
        nlinarith
      have hmod : (mul * value + carry) % base = (carry + mul * (value % base)) % base := by
        rw [htotal, Nat.mul_add_mod]
      have hdiv : (mul * value + carry) / base =
          mul * (value / base) + (carry + mul * (value % base)) / base := by
        rw [htotal, Nat.mul_add_div (by omega)]
      have hrest : mul * (value / base) + (carry + mul * (value % base)) / base < base ^ room := by
        rw [← hdiv]
        apply Nat.div_lt_of_lt_mul
        rw [← Nat.pow_succ']
        exact hroom
      have hpos : 0 < mul * value + carry := by positivity
      rw [Nat.digits_def' hbase hvalue, Nat.digits_def' hbase hpos, hmod, hdiv]
      simp [mulAddDigits, ih _ _ hrest]

/-- A rate of new digits for old ones that is enough for one block of digits is enough for any
number of them, rounded up. -/
theorem pow_lt_pow_of_rate {old new num den : Nat} (hnew : 1 < new) (block blockRoom : Nat)
    (hblock : 0 < block) (hden : 0 < den) (henough : old ^ block ≤ new ^ blockRoom)
    (hrate : blockRoom * den ≤ num * block) (count : Nat) :
    old ^ count < new ^ (count * num / den + 1) := by
  have hroom : blockRoom * count < (count * num / den + 1) * block := by
    have hquotient : count * num < den * (count * num / den + 1) := Nat.lt_mul_div_succ _ hden
    apply Nat.lt_of_mul_lt_mul_left (a := den)
    calc den * (blockRoom * count) = blockRoom * den * count := by ring
      _ ≤ num * block * count := Nat.mul_le_mul_right count hrate
      _ = count * num * block := by ring
      _ < den * (count * num / den + 1) * block := Nat.mul_lt_mul_of_pos_right hquotient hblock
      _ = den * ((count * num / den + 1) * block) := by ring
  apply lt_of_pow_lt_pow_left₀ block (Nat.zero_le _)
  calc (old ^ count) ^ block = (old ^ block) ^ count := pow_right_comm old count block
    _ ≤ (new ^ blockRoom) ^ count := Nat.pow_le_pow_left henough count
    _ = new ^ (blockRoom * count) := (pow_mul new blockRoom count).symm
    _ < new ^ ((count * num / den + 1) * block) := Nat.pow_lt_pow_right hnew hroom
    _ = (new ^ (count * num / den + 1)) ^ block := pow_mul new _ block

/-- The number whose digits the list has, most significant first. -/
def bigEndian (base : Nat) (digits : List Nat) : Nat :=
  digits.foldl (fun value digit => base * value + digit) 0

lemma bigEndian_eq_ofDigits (digits : List Nat) :
    bigEndian base digits = Nat.ofDigits base digits.reverse := by
  induction digits using reverseRecOn with
  | nil => rfl
  | append_singleton digits digit ih =>
    rw [reverse_append, reverse_singleton, singleton_append, Nat.ofDigits_cons, ← ih]
    simp [bigEndian, Nat.add_comm]

section

variable {digits : List Nat} (hbase : 1 < base) (hdigits : ∀ digit ∈ digits, digit < base)
include hbase hdigits

lemma bigEndian_lt_pow : bigEndian base digits < base ^ digits.length := by
  rw [bigEndian_eq_ofDigits, ← length_reverse]
  apply Nat.ofDigits_lt_base_pow_length hbase
  intro digit hdigit
  exact hdigits digit (mem_reverse.1 hdigit)

lemma digits_bigEndian (hleading : digits.head? ≠ some 0) :
    Nat.digits base (bigEndian base digits) = digits.reverse := by
  rw [bigEndian_eq_ofDigits]
  apply Nat.digits_ofDigits base hbase
  · intro digit hdigit
    exact hdigits digit (mem_reverse.1 hdigit)
  · intro hnonempty hlast
    apply hleading
    rw [getLast_reverse] at hlast
    rw [head?_eq_some_head (reverse_ne_nil_iff.1 hnonempty), hlast]

end

lemma bigEndian_digits_reverse (value : Nat) :
    bigEndian base (Nat.digits base value).reverse = value := by
  rw [bigEndian_eq_ofDigits, reverse_reverse, Nat.ofDigits_digits]

lemma head?_digits_reverse_ne_zero (value : Nat) :
    (Nat.digits base value).reverse.head? ≠ some 0 := by
  rw [head?_reverse]
  intro hlast
  rcases Nat.eq_zero_or_pos value with rfl | hvalue
  · simp at hlast
  · have hnonempty : Nat.digits base value ≠ [] :=
      Nat.digits_ne_nil_iff_ne_zero.2 (Nat.ne_of_gt hvalue)
    rw [getLast?_eq_some_getLast hnonempty] at hlast
    exact Nat.getLast_digit_ne_zero base (Nat.ne_of_gt hvalue) (Option.some.inj hlast)

/-- The loop over the digits of a number in one base, in an array for digits in another. -/
def convertDigits (mul base room : Nat) (digits : List Nat) : List Nat :=
  digits.foldl (fun converted digit => (mulAddDigits mul base room digit converted).1) []

lemma convertDigits_eq (hmul : 1 < mul) (hbase : 1 < base) {room : Nat} {digits : List Nat}
    (hdigits : ∀ digit ∈ digits, digit < mul) (hroom : mul ^ digits.length ≤ base ^ room) :
    convertDigits mul base room digits = Nat.digits base (bigEndian mul digits) := by
  induction digits using reverseRecOn with
  | nil => simp [convertDigits, bigEndian]
  | append_singleton digits digit ih =>
    have hsmaller : mul ^ digits.length ≤ base ^ room := by
      apply le_trans _ hroom
      apply Nat.pow_le_pow_right (by omega)
      simp
    have hprevious := ih (forall_mem_append.1 hdigits).1 hsmaller
    have hvalue : mul * bigEndian mul digits + digit < base ^ room := by
      have hlt := bigEndian_lt_pow hmul hdigits
      simp only [bigEndian, foldl_append, foldl_cons, foldl_nil] at hlt ⊢
      omega
    unfold convertDigits at hprevious ⊢
    rw [foldl_append, foldl_cons, foldl_nil, hprevious,
      mulAddDigits_digits (by omega) hbase room _ _ hvalue]
    simp [bigEndian]

end Tidecoin.Lib
