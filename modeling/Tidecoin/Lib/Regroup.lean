import Mathlib.Data.Nat.Bitwise
import Tidecoin.Lib.Radix

/-!
Regrouping the bits of a sequence of symbols: symbols of one width come in, symbols of another width
go out as soon as their bits are there, and the bits that wait are kept in an accumulator. At each
moment the symbols that went out, followed by the waiting bits, are the symbols that came in, read
as one number.
-/

namespace Tidecoin.Lib

open List

/-- The bits that wait, and how many they are. -/
structure Waiting where
  acc : Nat
  bits : Nat

variable (frombits tobits : Nat)

/-- The inner loop: the symbols that can go out, most significant first. -/
def emit (acc : Nat) : (fuel bits : Nat) → List Nat × Nat
  | 0, bits => ([], bits)
  | fuel + 1, bits =>
    if tobits ≤ bits then
      let bits := bits - tobits
      let next := emit acc fuel bits
      (((acc >>> bits) &&& (2 ^ tobits - 1)) :: next.1, next.2)
    else ([], bits)

/-- One turn of the outer loop. Each turn of the inner one takes a bit at least. -/
def regroupStep (waiting : Waiting) (symbol : Nat) : List Nat × Waiting :=
  let acc := ((waiting.acc <<< frombits) ||| symbol) &&& (2 ^ (frombits + tobits - 1) - 1)
  let out := emit tobits acc (waiting.bits + frombits) (waiting.bits + frombits)
  (out.1, ⟨acc, out.2⟩)

/-- The outer loop. -/
def regroup : Waiting → List Nat → List Nat × Waiting
  | waiting, [] => ([], waiting)
  | waiting, symbol :: symbols =>
    let step := regroupStep frombits tobits waiting symbol
    let next := regroup step.2 symbols
    (step.1 ++ next.1, next.2)

variable {frombits tobits}

lemma bigEndian_append (base : Nat) (first second : List Nat) : bigEndian base (first ++ second) =
      bigEndian base first * base ^ second.length + bigEndian base second := by
  simp only [bigEndian_eq_ofDigits, reverse_append, Nat.ofDigits_append, length_reverse]
  ring

lemma bigEndian_cons (base digit : Nat) (digits : List Nat) : bigEndian base (digit :: digits) =
      digit * base ^ digits.length + bigEndian base digits := by
  rw [← singleton_append, bigEndian_append]
  simp [bigEndian]

lemma bigEndian_injective {base : Nat} (hbase : 1 < base) {first second : List Nat}
    (hlength : first.length = second.length) (hfirst : ∀ digit ∈ first, digit < base)
    (hsecond : ∀ digit ∈ second, digit < base)
    (heq : bigEndian base first = bigEndian base second) :
    first = second := by
  rw [bigEndian_eq_ofDigits, bigEndian_eq_ofDigits] at heq
  refine reverse_injective (Nat.ofDigits_inj_of_len_eq hbase (by simpa using hlength) ?_ ?_ heq)
  · exact fun digit hdigit => hfirst digit (mem_reverse.1 hdigit)
  · exact fun digit hdigit => hsecond digit (mem_reverse.1 hdigit)

/-- The symbols that went out and the bits that wait make up a number of so many bits. -/
structure Splits (tobits width value : Nat) (out : List Nat) (waiting : Waiting) : Prop where
  count : width = tobits * out.length + waiting.bits
  bits : waiting.bits < tobits
  symbols : ∀ symbol ∈ out, symbol < 2 ^ tobits
  value : bigEndian (2 ^ tobits) out * 2 ^ waiting.bits + waiting.acc % 2 ^ waiting.bits = value

lemma emit_spec (htobits : 0 < tobits) (acc : Nat) (fuel : Nat) : ∀ bits, bits ≤ fuel →
      Splits tobits bits (acc % 2 ^ bits) (emit tobits acc fuel bits).1
        ⟨acc, (emit tobits acc fuel bits).2⟩ := by
  induction fuel with
  | zero =>
    intro bits hbits
    obtain rfl : bits = 0 := by omega
    exact ⟨rfl, htobits, by simp [emit], by simp [emit, bigEndian]⟩
  | succ fuel ih =>
    intro bits hbits
    unfold emit
    split
    case isTrue henough =>
      obtain ⟨hcount, hrest, hsymbols, hvalue⟩ := ih (bits - tobits) (by omega)
      generalize hnext : emit tobits acc fuel (bits - tobits) = next at hcount hrest hsymbols hvalue
      have hsymbol : (acc >>> (bits - tobits)) &&& (2 ^ tobits - 1) =
          acc / 2 ^ (bits - tobits) % 2 ^ tobits := by
        rw [Nat.and_two_pow_sub_one_eq_mod, Nat.shiftRight_eq_div_pow]
      simp only [hnext, hsymbol] at hcount hvalue ⊢
      refine ⟨?_, hrest, forall_mem_cons.2 ⟨Nat.mod_lt _ (by positivity), hsymbols⟩, ?_⟩
      · change bits = tobits * (next.1.length + 1) + next.2
        rw [Nat.mul_add]
        omega
      · -- The symbol stands above the bits that are left.
        have hplace : (2 ^ tobits) ^ next.1.length * 2 ^ next.2 = 2 ^ (bits - tobits) := by
          rw [← pow_mul, ← pow_add, ← hcount]
        have hsplit : acc % 2 ^ bits = acc % 2 ^ (bits - tobits) +
            2 ^ (bits - tobits) * (acc / 2 ^ (bits - tobits) % 2 ^ tobits) := by
          rw [← Nat.mod_mul, ← pow_add, Nat.sub_add_cancel henough]
        dsimp only
        rw [bigEndian_cons, hsplit, ← hvalue, ← hplace]
        ring
    case isFalse hfew => exact ⟨by simp, not_le.1 hfew, by simp, by simp [bigEndian]⟩

lemma regroupStep_acc {waiting : Waiting} {symbol : Nat} (hbits : waiting.bits < tobits)
    (hsymbol : symbol < 2 ^ frombits) :
    (((waiting.acc <<< frombits) ||| symbol) &&& (2 ^ (frombits + tobits - 1) - 1)) %
        2 ^ (waiting.bits + frombits) = waiting.acc % 2 ^ waiting.bits * 2 ^ frombits + symbol := by
  have hjoin : (waiting.acc <<< frombits) ||| symbol = waiting.acc * 2 ^ frombits + symbol := by
    rw [Nat.shiftLeft_eq, Nat.mul_comm]
    exact (Nat.two_pow_add_eq_or_of_lt hsymbol waiting.acc).symm
  have hdvd : 2 ^ (waiting.bits + frombits) ∣ 2 ^ (frombits + tobits - 1) :=
    pow_dvd_pow 2 (by omega)
  rw [Nat.and_two_pow_sub_one_eq_mod, Nat.mod_mod_of_dvd _ hdvd, hjoin, pow_add, Nat.mul_comm
    (2 ^ waiting.bits), Nat.mod_mul, Nat.mul_comm waiting.acc, Nat.mul_add_mod,
    Nat.mod_eq_of_lt hsymbol, Nat.mul_add_div (by positivity), Nat.div_eq_of_lt hsymbol,
    Nat.add_zero, Nat.mul_comm, Nat.add_comm]

lemma regroup_spec (tobits : Nat) (symbols : List Nat) :
    ∀ waiting : Waiting, waiting.bits < tobits → (∀ symbol ∈ symbols, symbol < 2 ^ frombits) →
      Splits tobits (waiting.bits + frombits * symbols.length)
        (waiting.acc % 2 ^ waiting.bits * (2 ^ frombits) ^ symbols.length +
          bigEndian (2 ^ frombits) symbols)
        (regroup frombits tobits waiting symbols).1 (regroup frombits tobits waiting
          symbols).2 := by
  induction symbols with
  | nil =>
    intro waiting hbits _
    exact ⟨by simp [regroup], hbits, by simp [regroup], by simp [regroup, bigEndian]⟩
  | cons symbol symbols ih =>
    intro waiting hbits hsymbols
    rw [forall_mem_cons] at hsymbols
    have hacc := regroupStep_acc hbits hsymbols.1
    unfold regroup
    generalize hstep : regroupStep frombits tobits waiting symbol = step
    unfold regroupStep at hstep
    generalize ((waiting.acc <<< frombits) ||| symbol) &&& (2 ^ (frombits + tobits - 1) - 1) = acc
      at hacc hstep
    obtain ⟨hcount, hrest, houtSymbols, hvalue⟩ :=
      emit_spec (by omega : 0 < tobits) acc (waiting.bits + frombits) _ le_rfl
    generalize hemit : emit tobits acc (waiting.bits + frombits) (waiting.bits + frombits) = out
      at hcount hrest houtSymbols hvalue hstep
    subst hstep
    obtain ⟨hcountRest, hbitsRest, hsymbolsRest, hvalueRest⟩ := ih ⟨acc, out.2⟩ hrest hsymbols.2
    generalize hnext : regroup frombits tobits ⟨acc, out.2⟩ symbols = next
      at hcountRest hbitsRest hsymbolsRest hvalueRest
    dsimp only at hcount hvalue hcountRest hvalueRest ⊢
    rw [hemit, hnext]
    refine ⟨?_, hbitsRest, forall_mem_append.2 ⟨houtSymbols, hsymbolsRest⟩, ?_⟩
    · rw [length_cons, length_append, Nat.mul_add, Nat.mul_add]
      omega
    · have hplace : (2 ^ tobits) ^ next.1.length * 2 ^ next.2.bits =
          2 ^ out.2 * (2 ^ frombits) ^ symbols.length := by
        rw [← pow_mul, ← pow_mul, ← pow_add, ← pow_add, hcountRest]
      rw [bigEndian_append, bigEndian_cons, length_cons, pow_succ]
      calc (bigEndian (2 ^ tobits) out.1 * (2 ^ tobits) ^ next.1.length +
              bigEndian (2 ^ tobits) next.1) * 2 ^ next.2.bits + next.2.acc % 2 ^ next.2.bits
          = bigEndian (2 ^ tobits) out.1 * ((2 ^ tobits) ^ next.1.length * 2 ^ next.2.bits) +
              (bigEndian (2 ^ tobits) next.1 * 2 ^ next.2.bits + next.2.acc % 2 ^ next.2.bits) := by
                ring
        _ = (bigEndian (2 ^ tobits) out.1 * 2 ^ out.2 + acc % 2 ^ out.2) *
              (2 ^ frombits) ^ symbols.length + bigEndian (2 ^ frombits) symbols := by
            rw [hplace, hvalueRest]
            ring
        _ = _ := by
            rw [hvalue, hacc]
            ring

end Tidecoin.Lib
