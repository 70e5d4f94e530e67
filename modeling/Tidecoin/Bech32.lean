import Tidecoin.Lib.Bytes
import Tidecoin.Lib.Radix
import Tidecoin.Lib.XorLinear

/-!
Bech32 and Bech32m: `bech32.cpp`. The characters are symbols of five bits. The checksum is the
remainder of a polynomial over the field with 32 elements, its six coefficients packed in a number
of 30 bits, so that changing symbols changes the checksum by the remainder of the change alone.

Within 110 symbols no change of one to three of them has remainder zero. Up to a power of `x` and a
factor such a change is `a x^d + b x^e + 1`, and it cannot vanish because the multiples of two
powers of `x` differ in a coefficient above the lowest one.
-/

namespace Tidecoin

open Lib Function List XorLinear

namespace Bech32

/-- `Encoding`, without `INVALID`. -/
inductive Encoding where
  | bech32
  | bech32m
deriving DecidableEq, Repr

def encodingConstant : Encoding → Nat
  | .bech32 => 1
  | .bech32m => 0x2bc830a3

/-- One turn of the loop of `PolyMod`. -/
def polyModStep (c v_i : Nat) : Nat :=
  let c0 := c >>> 25
  let c := ((c &&& 0x1ffffff) <<< 5) ^^^ v_i
  let c := if c0 &&& 1 ≠ 0 then c ^^^ 0x3b6a57b2 else c
  let c := if c0 &&& 2 ≠ 0 then c ^^^ 0x26508e6d else c
  let c := if c0 &&& 4 ≠ 0 then c ^^^ 0x1ea119fa else c
  let c := if c0 &&& 8 ≠ 0 then c ^^^ 0x3d4233dd else c
  if c0 &&& 16 ≠ 0 then c ^^^ 0x2a1462b3 else c

def polyMod (v : List Nat) : Nat := v.foldl polyModStep 1

/-! ### The remainder is linear -/

/-- The multiple of the generator that the loop adds for the highest coefficient. -/
def reduction (c0 : Nat) : Nat :=
  (if c0 &&& 2 ^ 0 ≠ 0 then 0x3b6a57b2 else 0) ^^^ (if c0 &&& 2 ^ 1 ≠ 0 then 0x26508e6d else 0) ^^^
    (if c0 &&& 2 ^ 2 ≠ 0 then 0x1ea119fa else 0) ^^^ (if c0 &&& 2 ^ 3 ≠ 0 then
      0x3d4233dd else 0) ^^^
    (if c0 &&& 2 ^ 4 ≠ 0 then 0x2a1462b3 else 0)

lemma reduction_linear : XorLinear reduction :=
  ((((ofBit 0 _).add (ofBit 1 _)).add (ofBit 2 _)).add
    (ofBit 3 _)).add (ofBit 4 _)

/-- Multiplication by `x`. -/
def mulX (c : Nat) : Nat := ((c &&& 0x1ffffff) <<< 5) ^^^ reduction (c >>> 25)

lemma mulX_linear : XorLinear mulX := ((shiftLeft 5).comp (and 0x1ffffff)).add
    (reduction_linear.comp (shiftRight 25))

lemma polyModStep_eq (c v_i : Nat) : polyModStep c v_i = mulX c ^^^ v_i := by
  simp only [polyModStep, ite_xor]
  unfold mulX reduction
  simp only [Nat.xor_assoc, Nat.xor_comm v_i]
  rfl

lemma mulX_lt (c : Nat) (hc : c < 2 ^ 30) : mulX c < 2 ^ 30 := by
  have hreduction : ∀ c0 < 32, reduction c0 < 2 ^ 30 := by decide +kernel
  apply Nat.xor_lt_two_pow
  · have hand : c &&& 0x1ffffff ≤ 0x1ffffff := Nat.and_le_right
    omega
  · apply hreduction
    omega

variable {c : Nat}

/-- No multiple is added without the highest coefficient, and only then the lowest one stays zero.
-/
theorem eq_zero_of_mulX_eq_zero (hc : c < 2 ^ 30) (hzero : mulX c = 0) : c = 0 := by
  have hlow : ∀ c0 < 32, reduction c0 % 32 = 0 → c0 = 0 := by decide +kernel
  have hsame : (c &&& 0x1ffffff) <<< 5 = reduction (c >>> 25) := by
    have heq := xor_eq_iff.1 hzero
    rwa [Nat.zero_xor] at heq
  have htop : c >>> 25 = 0 := by
    apply hlow
    · omega
    · omega
  have hand : c &&& 0x1ffffff = c % 2 ^ 25 := Nat.and_two_pow_sub_one_eq_mod c 25
  rw [htop, hand, Nat.shiftLeft_eq] at hsame
  have hreduction : reduction 0 = 0 := rfl
  omega

/-! ### Scaling -/

/-- The field elements `{2} c` of all coefficients at once: a shift in each group of five bits, with
the bit that leaves its group reduced by `a^5 = a^3 + 1`. -/
def scale (c : Nat) : Nat :=
  ((c &&& 0x1ef7bdef) <<< 1) ^^^ ((((c &&& 0x21084210) >>> 4) <<< 3) ^^^ ((c &&& 0x21084210) >>> 4))

lemma scale_linear : XorLinear scale := by
  have hcarry : XorLinear fun c => (c &&& 0x21084210) >>> 4 :=
    (shiftRight 4).comp (and 0x21084210)
  exact ((shiftLeft 1).comp (and 0x1ef7bdef)).add
    (((shiftLeft 3).comp hcarry).add hcarry)

lemma mulX_scale (c : Nat) (hc : c < 2 ^ 30) : mulX (scale c) = scale (mulX c) :=
  (mulX_linear.comp scale_linear).ext (scale_linear.comp mulX_linear) (by decide +kernel) c hc

lemma scale_period (c : Nat) (hc : c < 2 ^ 30) : scale^[31] c = c := by
  have hid : XorLinear (id : Nat → Nat) := fun _ _ => rfl
  exact (scale_linear.iterate 31).ext hid (by decide +kernel) c hc

lemma scale_lt (c : Nat) : scale c < 2 ^ 30 := by
  have hlow : c &&& 0x1ef7bdef ≤ 0x1ef7bdef := Nat.and_le_right
  have hhigh : c &&& 0x21084210 ≤ 0x21084210 := Nat.and_le_right
  apply Nat.xor_lt_two_pow
  · omega
  · apply Nat.xor_lt_two_pow
    · omega
    · omega

variable (count : Nat) (errors : List Nat)

lemma mulX_iterate_lt (hc : c < 2 ^ 30) : mulX^[count] c < 2 ^ 30 := by
  induction count with
  | zero => exact hc
  | succ count ih =>
    rw [iterate_succ_apply']
    exact mulX_lt _ ih

lemma scale_iterate_lt (hc : c < 2 ^ 30) : scale^[count] c < 2 ^ 30 := by
  cases count with
  | zero => exact hc
  | succ count =>
    rw [iterate_succ_apply']
    exact scale_lt _

lemma mulX_iterate_scale (times : Nat) (hc : c < 2 ^ 30) :
    mulX^[count] (scale^[times] c) = scale^[times] (mulX^[count] c) := by
  have hone : ∀ c < 2 ^ 30, mulX (scale^[times] c) = scale^[times] (mulX c) := by
    intro c hc
    induction times with
    | zero => rfl
    | succ times ih =>
      rw [iterate_succ_apply', iterate_succ_apply', mulX_scale _ (scale_iterate_lt times hc), ih]
  induction count generalizing c with
  | zero => rfl
  | succ count ih =>
    rw [iterate_succ_apply, iterate_succ_apply, hone c hc, ih (mulX_lt c hc)]

/-- The coefficients above the lowest one. -/
def upper (c : Nat) : Nat := c >>> 5

lemma upper_linear : XorLinear upper := .shiftRight 5

lemma upper_scale_iterate (times : Nat) (hc : c < 2 ^ 30) :
    upper (scale^[times] c) = scale^[times] (upper c) := by
  have hone : ∀ c < 2 ^ 30, upper (scale c) = scale (upper c) :=
    (upper_linear.comp scale_linear).ext (scale_linear.comp upper_linear) (by decide +kernel)
  induction times with
  | zero => rfl
  | succ times ih =>
    rw [iterate_succ_apply', iterate_succ_apply', hone _ (scale_iterate_lt times hc), ih]

lemma upper_lt (hc : c < 2 ^ 30) : upper c < 2 ^ 30 := by
  unfold upper
  omega

lemma upper_of_lt (hc : c < 32) : upper c = 0 := by
  unfold upper
  omega

/-! ### The multiples of a vector -/

/-- The multiples of a vector by the 31 elements of the field that are not zero. -/
def multiples (c : Nat) : List Nat := (List.range 31).map fun times => scale^[times] c

lemma mem_multiples {other : Nat} (hc : c < 2 ^ 30) :
    other ∈ multiples c ↔ ∃ times, scale^[times] c = other := by
  unfold multiples
  rw [mem_map]
  constructor
  · rintro ⟨times, -, heq⟩
    exact ⟨times, heq⟩
  · rintro ⟨times, rfl⟩
    refine ⟨times % 31, mem_range.2 (Nat.mod_lt _ (by omega)), ?_⟩
    have hperiodic : IsPeriodicPt scale 31 c := scale_period c hc
    exact hperiodic.iterate_mod_apply times

/-- The least multiple stands for all of them. -/
def normal (c : Nat) : Nat := (multiples c).foldr min (2 ^ 30)

lemma le_foldr_min {bound start : Nat} {words : List Nat} :
    bound ≤ words.foldr min start ↔ bound ≤ start ∧ ∀ word ∈ words, bound ≤ word := by
  induction words with
  | nil => simp
  | cons word words ih =>
    rw [foldr_cons, le_min_iff, ih, forall_mem_cons]
    tauto

lemma normal_eq_of_scale_eq {a b times times' : Nat} (ha : a < 2 ^ 30) (hb : b < 2 ^ 30)
    (heq : scale^[times] a = scale^[times'] b) : normal a = normal b := by
  -- One vector is a multiple of the other, so that they have the same multiples.
  have hmultiple : ∀ {a b times times' : Nat}, b < 2 ^ 30 → scale^[times] a = scale^[times'] b →
      ∃ more, scale^[more] a = b := by
    intro a b times times' hb heq
    refine ⟨31 * times' - times' + times, ?_⟩
    rw [iterate_add_apply, heq, ← iterate_add_apply, Nat.sub_add_cancel (by omega)]
    have hperiodic : IsPeriodicPt scale 31 b := scale_period b hb
    exact hperiodic.mul_const times'
  have hsame : ∀ other, other ∈ multiples a ↔ other ∈ multiples b := by
    intro other
    rw [mem_multiples ha, mem_multiples hb]
    constructor
    · rintro ⟨count, rfl⟩
      obtain ⟨more, rfl⟩ := hmultiple ha heq.symm
      exact ⟨count + more, iterate_add_apply scale count more b⟩
    · rintro ⟨count, rfl⟩
      obtain ⟨more, rfl⟩ := hmultiple hb heq
      exact ⟨count + more, iterate_add_apply scale count more a⟩
  apply le_antisymm
  · unfold normal
    rw [le_foldr_min]
    have hall := le_foldr_min.1 (le_refl (normal a))
    exact ⟨hall.1, fun word hword => hall.2 word ((hsame word).2 hword)⟩
  · unfold normal
    rw [le_foldr_min]
    have hall := le_foldr_min.1 (le_refl (normal b))
    exact ⟨hall.1, fun word hword => hall.2 word ((hsame word).1 hword)⟩

/-- The powers of `x` in use, each up to a factor and without its lowest coefficient. -/
def normalPowers : List Nat := (List.range 109).map fun index => normal (upper (mulX^[index + 1] 1))

lemma normalPowers_nodup : normalPowers.Nodup := by decide +kernel

lemma normal_zero_notMem : normal 0 ∉ normalPowers := by decide +kernel

lemma exists_scale_eq {symbol : Nat} (hsymbol : symbol < 32) (hnonzero : symbol ≠ 0) :
    ∃ times, scale^[times] 1 = symbol := by
  have hall : ∀ symbol < 32, symbol ≠ 0 → ∃ times < 31, scale^[times] 1 = symbol := by
    decide +kernel
  obtain ⟨times, -, htimes⟩ := hall symbol hsymbol hnonzero
  exact ⟨times, htimes⟩

/-- The upper coefficients of a multiple of a power of `x` are a multiple of those of the power. -/
theorem exists_upper_eq {symbol : Nat} (hsymbol : symbol < 32) (hnonzero : symbol ≠ 0)
    (count : Nat) :
    ∃ times, upper (mulX^[count] symbol) = scale^[times] (upper (mulX^[count] 1)) := by
  obtain ⟨times, rfl⟩ := exists_scale_eq hsymbol hnonzero
  refine ⟨times, ?_⟩
  rw [mulX_iterate_scale count times (by norm_num),
    upper_scale_iterate times (mulX_iterate_lt count (by norm_num))]

lemma normal_mem_normalPowers {count : Nat} (hpos : 0 < count) (hcount : count < 110) :
    normal (upper (mulX^[count] 1)) ∈ normalPowers := by
  refine mem_map.2 ⟨count - 1, mem_range.2 (by omega), ?_⟩
  rw [Nat.sub_add_cancel hpos]

lemma mulX_iterate_ne_symbol {count symbol last : Nat} (hpos : 0 < count) (hcount : count < 110)
    (hsymbol : symbol < 32) (hnonzero : symbol ≠ 0) (hlast : last < 32) :
    mulX^[count] symbol ≠ last := by
  intro heq
  obtain ⟨times, hupper⟩ := exists_upper_eq hsymbol hnonzero count
  rw [heq, upper_of_lt hlast] at hupper
  have hzero : scale^[times] (upper (mulX^[count] 1)) = scale^[0] 0 := hupper.symm
  have hnormal :=
    normal_eq_of_scale_eq (upper_lt (mulX_iterate_lt count (by norm_num))) (by norm_num) hzero
  apply normal_zero_notMem
  rw [← hnormal]
  exact normal_mem_normalPowers hpos hcount

lemma mulX_iterate_xor_ne_symbol {high low first second last : Nat} (hlow : 0 < low)
    (hlt : low < high)
    (hhigh : high < 110) (hfirst : first < 32) (hfirst0 : first ≠ 0) (hsecond : second < 32)
    (hsecond0 : second ≠ 0) (hlast : last < 32) :
    mulX^[high] first ^^^ mulX^[low] second ≠ last := by
  intro heq
  obtain ⟨times, hupper⟩ := exists_upper_eq hfirst hfirst0 high
  obtain ⟨times', hupper'⟩ := exists_upper_eq hsecond hsecond0 low
  have hsame : scale^[times] (upper (mulX^[high] 1)) = scale^[times'] (upper (mulX^[low] 1)) := by
    have hsum := congrArg upper heq
    rw [upper_linear, upper_of_lt hlast, hupper, hupper'] at hsum
    have hmoved := xor_eq_iff.1 hsum
    rwa [Nat.zero_xor] at hmoved
  have hnormal := normal_eq_of_scale_eq (upper_lt (mulX_iterate_lt high (by norm_num)))
    (upper_lt (mulX_iterate_lt low (by norm_num))) hsame
  have hinjective := inj_on_of_nodup_map normalPowers_nodup
  have hindex := hinjective (x := high - 1) (mem_range.2 (by omega))
    (y := low - 1) (mem_range.2 (by omega)) (by
      rw [Nat.sub_add_cancel (by omega), Nat.sub_add_cancel hlow]
      exact hnormal)
  omega

/-! ### Errors -/

/-- The remainder of a change of symbols. -/
def syndrome (errors : List Nat) : Nat := errors.foldl polyModStep 0

lemma syndrome_append_singleton (symbol : Nat) :
    syndrome (errors ++ [symbol]) = mulX (syndrome errors) ^^^ symbol := by
  rw [syndrome, foldl_append, foldl_cons, foldl_nil, polyModStep_eq]
  rfl

/-- The number of symbols that change. -/
def weight (errors : List Nat) : Nat := errors.countP (· ≠ 0)

lemma weight_append_singleton (symbol : Nat) :
    weight (errors ++ [symbol]) = weight errors + if symbol = 0 then 0 else 1 := by
  unfold weight
  by_cases hzero : symbol = 0 <;> simp [hzero]

lemma syndrome_of_weight_zero (hweight : weight errors = 0) : syndrome errors = 0 := by
  induction errors using reverseRecOn with
  | nil => rfl
  | append_singleton errors symbol ih =>
    rw [weight_append_singleton] at hweight
    have hzero : symbol = 0 := by
      by_contra hnonzero
      rw [if_neg hnonzero] at hweight
      omega
    rw [syndrome_append_singleton, ih (by omega), hzero]
    rfl

/-- Behind the last symbol that changes the remainder is only multiplied by `x`. -/
lemma syndrome_last (hpos : 0 < weight errors) :
    ∃ front symbol count, errors = front ++ symbol :: replicate count 0 ∧ symbol ≠ 0 ∧
      weight errors = weight front + 1 ∧
      syndrome errors = mulX^[count] (mulX (syndrome front) ^^^ symbol) := by
  induction errors using reverseRecOn with
  | nil => simp [weight] at hpos
  | append_singleton errors symbol ih =>
    rw [weight_append_singleton] at hpos
    rw [syndrome_append_singleton, weight_append_singleton]
    by_cases hzero : symbol = 0
    · rw [if_pos hzero] at hpos
      obtain ⟨front, last, count, rfl, hlast, hweight, hsyndrome⟩ := ih hpos
      refine ⟨front, last, count + 1, ?_, hlast, by simpa [hzero] using hweight, ?_⟩
      · rw [hzero, replicate_succ', append_assoc, cons_append]
      · rw [hsyndrome, hzero, Nat.xor_zero, iterate_succ_apply']
    · exact ⟨errors, symbol, 0, rfl, hzero, by rw [if_neg hzero], rfl⟩

variable (hsymbols : ∀ symbol ∈ errors, symbol < 32)
include hsymbols

lemma syndrome_of_weight_one (hweight : weight errors = 1) :
    ∃ count symbol, count < errors.length ∧ symbol < 32 ∧
      symbol ≠ 0 ∧ syndrome errors = mulX^[count] symbol := by
  obtain ⟨front, symbol, count, rfl, hsymbol, hfront, hsyndrome⟩ := syndrome_last errors (by omega)
  refine ⟨count, symbol, by simp; omega, hsymbols symbol (by simp), hsymbol, ?_⟩
  rw [hsyndrome, syndrome_of_weight_zero front (by omega), mulX_linear.zero, Nat.zero_xor]

lemma syndrome_of_weight_two (hweight : weight errors = 2) :
    ∃ high low first second, low < high ∧ high < errors.length ∧
      first < 32 ∧ first ≠ 0 ∧ second < 32 ∧ second ≠ 0 ∧
      syndrome errors = mulX^[high] first ^^^ mulX^[low] second := by
  obtain ⟨front, second, low, rfl, hsecond0, hfront, hsyndrome⟩ := syndrome_last errors (by omega)
  rw [forall_mem_append, forall_mem_cons] at hsymbols
  obtain ⟨count, first, hcount, hfirst, hfirst0, hrest⟩ :=
    syndrome_of_weight_one front hsymbols.1 (by omega)
  refine ⟨low + (count + 1), low, first, second, by omega, by simp; omega, hfirst, hfirst0,
    hsymbols.2.1, hsecond0, ?_⟩
  rw [hsyndrome, hrest, mulX_linear.iterate low, iterate_add_apply, iterate_succ_apply']

lemma syndrome_lt : syndrome errors < 2 ^ 30 := by
  induction errors using reverseRecOn with
  | nil => norm_num [syndrome]
  | append_singleton errors symbol ih =>
    rw [forall_mem_append, forall_mem_singleton] at hsymbols
    rw [syndrome_append_singleton]
    exact Nat.xor_lt_two_pow (mulX_lt _ (ih hsymbols.1)) (hsymbols.2.trans (by norm_num))

lemma syndrome_ne_zero (hlength : errors.length ≤ 110)
    (hpos : 0 < weight errors) (hweight : weight errors ≤ 3) : syndrome errors ≠ 0 := by
  obtain ⟨front, symbol, count, rfl, hzero, hfront, hsyndrome⟩ := syndrome_last errors hpos
  rw [forall_mem_append, forall_mem_cons] at hsymbols
  obtain ⟨hbefore, hsymbol, -⟩ := hsymbols
  have hreach := syndrome_lt front hbefore
  rw [length_append, length_cons, length_replicate] at hlength
  -- Multiplication by `x` is injective, so the last change meets the others, which reach above it.
  intro hnone
  rw [hsyndrome] at hnone
  have hsum : mulX (syndrome front) ^^^ symbol = 0 := by
    have hstart : mulX (syndrome front) ^^^ symbol < 2 ^ 30 :=
      Nat.xor_lt_two_pow (mulX_lt _ hreach) (hsymbol.trans (by norm_num))
    clear hsyndrome hlength hpos hweight hfront
    induction count with
    | zero => exact hnone
    | succ count ih =>
      rw [iterate_succ_apply'] at hnone
      exact ih (eq_zero_of_mulX_eq_zero (mulX_iterate_lt count hstart) hnone)
  have hlast : mulX (syndrome front) = symbol := by
    have hmoved := xor_eq_iff.1 hsum
    rwa [Nat.zero_xor] at hmoved
  have hcases : weight front = 0 ∨ weight front = 1 ∨ weight front = 2 := by omega
  rcases hcases with hnone | hone | htwo
  · rw [syndrome_of_weight_zero front hnone, mulX_linear.zero] at hlast
    exact hzero hlast.symm
  · obtain ⟨count, first, hcount, hfirst, hfirst0, hsyndrome⟩ :=
      syndrome_of_weight_one front hbefore hone
    rw [hsyndrome, ← iterate_succ_apply' mulX] at hlast
    exact mulX_iterate_ne_symbol (by omega) (by omega) hfirst hfirst0 hsymbol hlast
  · obtain ⟨high, low, first, second, hlt, hhigh, hfirst, hfirst0, hsecond, hsecond0,
      hsyndrome⟩ := syndrome_of_weight_two front hbefore htwo
    rw [hsyndrome, mulX_linear, ← iterate_succ_apply' mulX, ← iterate_succ_apply' mulX] at hlast
    exact mulX_iterate_xor_ne_symbol (by omega) (by omega) (by omega) hfirst hfirst0 hsecond
      hsecond0 hsymbol hlast

end Bech32

end Tidecoin
