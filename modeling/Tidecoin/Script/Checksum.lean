import Tidecoin.Bech32.Codec

/-!
The checksum of a descriptor: `DescriptorChecksum` of `script/descriptor.cpp`. Every character gives
the register a symbol of five bits, its place in a group of the character set, and every three
characters give it one more symbol for the groups they are in.

A step of the register loses nothing, since the lowest symbol tells what was reduced. So two texts
that differ in one character have different registers, at the latest when the symbol of the groups
comes: until then the registers differ only in the symbols of these characters.
-/

namespace Tidecoin.DescriptorChecksum

open Lib List Bech32

/-- `PolyMod`. The register has 40 bits. -/
def polyMod (c val : Nat) : Nat :=
  let c0 := c >>> 35
  let c := ((c &&& 0x7ffffffff) <<< 5) ^^^ val
  let c := if c0 &&& 1 ≠ 0 then c ^^^ 0xf5dee51989 else c
  let c := if c0 &&& 2 ≠ 0 then c ^^^ 0xa9fdca3312 else c
  let c := if c0 &&& 4 ≠ 0 then c ^^^ 0x1bab10e32d else c
  let c := if c0 &&& 8 ≠ 0 then c ^^^ 0x3706b1677a else c
  if c0 &&& 16 ≠ 0 then c ^^^ 0x644d626ffd else c

def shift (c : Nat) : Nat := polyMod c 0

/-- `INPUT_CHARSET`. -/
def inputCharset : Bytes :=
  ("0123456789()[],'/*abcdefgh@:$%\x7b\x7d" ++ "IJKLMNOPQRSTUVWXYZ&+-.;<=>?!^_|~" ++
    "ijklmnopqrstuvwxyzABCDEFGH`#\"\\ ").toList.map fun letter => UInt8.ofNat letter.toNat

/-- The variables of the loop. -/
structure State where
  c : Nat
  cls : Nat
  clscount : Nat

namespace State

/-- The symbol of a character, and its group. -/
def push (s : State) (pos : Nat) : State :=
  ⟨polyMod s.c (pos &&& 31), s.cls * 3 + (pos >>> 5), s.clscount + 1⟩

/-- After three characters the symbol of their groups follows. -/
def close (s : State) : State := if s.clscount = 3 then ⟨polyMod s.c s.cls, 0, 0⟩ else s

/-- The register after the loop. -/
def finish (s : State) : Nat :=
  shift^[8] (if s.clscount > 0 then polyMod s.c s.cls else s.c) ^^^ 1

end State

/-- The loop. It stops at a character that is not in the set. -/
def loop (span : Bytes) (s : State) : Option State :=
  span.foldlM (fun s ch =>
    let pos := inputCharset.idxOf ch
    if pos < inputCharset.length then some (s.push pos).close else none) s

def descriptorChecksum (span : Bytes) : Bytes :=
  (loop span ⟨1, 0, 0⟩).elim [] fun s =>
    (List.range 8).map fun j => Bech32.charset.getD ((s.finish >>> (5 * (7 - j))) &&& 31) 0

/-! ### The register -/

/-- What a step adds for the highest symbol. -/
def reduction (c0 : Nat) : Nat :=
  (if c0 &&& 1 ≠ 0 then 0xf5dee51989 else 0) ^^^ (if c0 &&& 2 ≠ 0 then 0xa9fdca3312 else 0) ^^^
    (if c0 &&& 4 ≠ 0 then 0x1bab10e32d else 0) ^^^ (if c0 &&& 8 ≠ 0 then 0x3706b1677a else 0) ^^^
    (if c0 &&& 16 ≠ 0 then 0x644d626ffd else 0)

lemma reduction_spec : ∀ c0 < 32, reduction c0 < 2 ^ 40 ∧ ∀ c0' < 32, reduction c0 % 32 =
    reduction c0' % 32 → c0 = c0' := by
  decide +kernel

lemma polyMod_eq (c val : Nat) :
    polyMod c val = ((c % 2 ^ 35) <<< 5 ^^^ reduction (c >>> 35)) ^^^ val := by
  have hand : c &&& 0x7ffffffff = c % 2 ^ 35 := Nat.and_two_pow_sub_one_eq_mod c 35
  simp only [polyMod, ite_xor, hand]
  unfold reduction
  simp only [Nat.xor_assoc, Nat.xor_comm val]

variable {c c' val val' : Nat}

lemma polyMod_lt (hc : c < 2 ^ 40) (hval : val < 32) : polyMod c val < 2 ^ 40 := by
  rw [polyMod_eq]
  refine Nat.xor_lt_two_pow (Nat.xor_lt_two_pow ?_ (reduction_spec _ ?_).1) ?_ <;> omega

lemma polyMod_mod (hval : val < 32) : polyMod c val % 32 = reduction (c >>> 35) % 32 ^^^ val := by
  have hxor : ∀ a b : Nat, (a ^^^ b) % 32 = a % 32 ^^^ b % 32 :=
    fun a b => Nat.xor_mod_two_pow (n := 5)
  have hshift : ((c % 2 ^ 35) <<< 5) % 32 = 0 := by omega
  rw [polyMod_eq, hxor, hxor, hshift, Nat.zero_xor, Nat.mod_eq_of_lt hval]

/-- The lowest symbol tells the reduction, and with it everything else. -/
theorem polyMod_inj (hc : c < 2 ^ 40) (hc' : c' < 2 ^ 40) (hval : val < 32)
    (heq : polyMod c val = polyMod c' val) :
    c = c' := by
  have hlow : reduction (c >>> 35) % 32 = reduction (c' >>> 35) % 32 := by
    have hmod := congrArg (· % 32) heq
    simp only [polyMod_mod hval] at hmod
    exact Nat.xor_left_injective hmod
  have htop : c >>> 35 = c' >>> 35 := (reduction_spec _ (by omega)).2 _ (by omega) hlow
  rw [polyMod_eq, polyMod_eq, htop] at heq
  have hshift : (c % 2 ^ 35) <<< 5 = (c' % 2 ^ 35) <<< 5 :=
    Nat.xor_left_injective (Nat.xor_left_injective heq)
  omega

/-- Two registers that are not the same. -/
def Differ (c c' : Nat) : Prop := c < 2 ^ 40 ∧ c' < 2 ^ 40 ∧ c ≠ c'

lemma Differ.shift (h : Differ c c') (count : Nat) :
    Differ (shift^[count] c) (shift^[count] c') := by
  induction count generalizing c c' with
  | zero => exact h
  | succ count ih =>
    exact ih ⟨polyMod_lt h.1 (by norm_num), polyMod_lt h.2.1 (by norm_num),
      fun heq => h.2.2 (polyMod_inj h.1 h.2.1 (by norm_num) heq)⟩

/-- The symbols of the checksum are all there is of a register. -/
theorem Differ.symbols (h : Differ c c') :
    ((List.range 8).map fun j => charset.getD ((c >>> (5 * (7 - j))) &&& 31) 0) ≠
      (List.range 8).map fun j => charset.getD ((c' >>> (5 * (7 - j))) &&& 31) 0 := by
  intro heq
  have hmod : ∀ pos, pos &&& 31 = pos % 32 := fun pos => Nat.and_two_pow_sub_one_eq_mod pos 5
  have hrev : ∀ symbol, charsetRev (charset.getD (symbol % 32) 0) = some (symbol % 32) :=
    fun symbol => (char_spec (Nat.mod_lt _ (by norm_num))).1
  have hsymbols := congrArg (map charsetRev) heq
  simp only [map_map, Function.comp_def, hmod, hrev] at hsymbols
  simp [List.range_succ] at hsymbols
  have hlt := h.1
  have hlt' := h.2.1
  exact h.2.2 (by omega)

/-- Registers that agree above some symbols agree above one more symbol after a step. -/
theorem polyMod_shiftRight {count : Nat} (hcount : count < 3) (hval : val < 32) (hval' : val' < 32)
    (heq : c >>> (5 * count) = c' >>> (5 * count)) :
    polyMod c val >>> (5 * (count + 1)) = polyMod c' val' >>> (5 * (count + 1)) := by
  have hall : (c % 2 ^ 35) <<< 5 >>> (5 * (count + 1)) = (c' % 2 ^ 35) <<< 5 >>> (5 * (count + 1)) ∧
      val >>> (5 * (count + 1)) = val' >>> (5 * (count + 1)) ∧ c >>> 35 = c' >>> 35 := by
    rcases (by omega : count = 0 ∨ count = 1 ∨ count = 2) with rfl | rfl | rfl <;> omega
  obtain ⟨hhigh, hlow, htop⟩ := hall
  simp only [polyMod_eq, Nat.shiftRight_xor_distrib, hhigh, hlow, htop]

/-! ### Two runs -/

namespace State

/-- The register has 40 bits, and the groups of the characters that wait are digits of base three.
-/
structure Valid (s : State) : Prop where
  cLt : s.c < 2 ^ 40
  clsLt : s.cls < 3 ^ s.clscount

/-- Two runs at the same place that cannot end alike: the registers differ, or the groups do and the
registers agree above the symbols of the characters that wait. -/
structure Apart (s t : State) : Prop where
  left : s.Valid
  right : t.Valid
  clscount : s.clscount = t.clscount
  differ : s.cls = t.cls ∧ s.c ≠ t.c ∨
    s.cls ≠ t.cls ∧ s.c >>> (5 * s.clscount) = t.c >>> (5 * s.clscount)

variable {s t : State} {pos pos' : Nat}

lemma symbol_lt (pos : Nat) : pos &&& 31 < 32 := Nat.and_lt_two_pow (n := 5) _ (by norm_num)

lemma Valid.push (h : s.Valid) (hpos : pos < 96) : (s.push pos).Valid where
  cLt := polyMod_lt h.cLt (symbol_lt pos)
  clsLt := by
    have hlt := h.clsLt
    change s.cls * 3 + pos >>> 5 < 3 ^ (s.clscount + 1)
    omega

lemma Valid.cls_lt_32 (h : s.Valid) (hcount : s.clscount ≤ 3) : s.cls < 32 := by
  have hpow : 3 ^ s.clscount ≤ 3 ^ 3 := Nat.pow_le_pow_right (by norm_num) hcount
  have hlt := h.clsLt
  omega

lemma Valid.close (h : s.Valid) (hcount : s.clscount ≤ 3) :
    s.close.Valid ∧ s.close.clscount < 3 := by
  unfold State.close
  split
  · exact ⟨⟨polyMod_lt h.cLt (h.cls_lt_32 hcount), Nat.one_pos⟩, by norm_num⟩
  · exact ⟨h, by omega⟩

lemma apart_push (h : s.Valid) (hcount : s.clscount < 3) (hpos : pos < 96) (hpos' : pos' < 96)
    (hne : pos ≠ pos') :
    (s.push pos).Apart (s.push pos') where
  left := h.push hpos
  right := h.push hpos'
  clscount := rfl
  differ := by
    unfold State.push
    by_cases hgroup : pos >>> 5 = pos' >>> 5
    · refine .inl ⟨by rw [hgroup], fun heq => hne ?_⟩
      rw [polyMod_eq, polyMod_eq] at heq
      have hsymbol : pos &&& 31 = pos' &&& 31 := Nat.xor_right_injective heq
      have hmod : ∀ pos, pos &&& 31 = pos % 32 := fun pos => Nat.and_two_pow_sub_one_eq_mod pos 5
      rw [hmod, hmod] at hsymbol
      omega
    · exact .inr ⟨by dsimp only; omega, polyMod_shiftRight hcount (symbol_lt _) (symbol_lt _) rfl⟩

lemma Apart.push (h : s.Apart t) (hcount : s.clscount < 3) (hpos : pos < 96) :
    (s.push pos).Apart (t.push pos) where
  left := h.left.push hpos
  right := h.right.push hpos
  clscount := congrArg (· + 1) h.clscount
  differ := by
    unfold State.push
    rcases h.differ with ⟨hcls, hc⟩ | ⟨hcls, hc⟩
    · exact .inl ⟨by rw [hcls], fun heq =>
        hc (polyMod_inj h.left.cLt h.right.cLt (symbol_lt _) heq)⟩
    · exact .inr ⟨by dsimp only; omega, polyMod_shiftRight hcount (symbol_lt _) (symbol_lt _) hc⟩

/-- The symbol of the groups makes the registers differ. -/
lemma Apart.emit (h : s.Apart t) (hcount : s.clscount ≤ 3) :
    polyMod s.c s.cls ≠ polyMod t.c t.cls := by
  have hcls := h.left.cls_lt_32 hcount
  have hcls' := h.right.cls_lt_32 (h.clscount ▸ hcount)
  intro heq
  rcases h.differ with ⟨hsame, hc⟩ | ⟨hne, hc⟩
  · rw [hsame] at heq
    exact hc (polyMod_inj h.left.cLt h.right.cLt hcls' heq)
  · have htop : s.c >>> 35 = t.c >>> 35 := by
      generalize s.clscount = count at hc hcount
      rcases (by omega : count = 0 ∨ count = 1 ∨ count = 2 ∨ count = 3) with rfl | rfl | rfl | rfl
        <;> omega
    have hmod := congrArg (· % 32) heq
    simp only [polyMod_mod hcls, polyMod_mod hcls', htop] at hmod
    exact hne (Nat.xor_right_injective hmod)

lemma Apart.close (h : s.Apart t) (hcount : s.clscount ≤ 3) : s.close.Apart t.close := by
  refine ⟨(h.left.close hcount).1, (h.right.close (h.clscount ▸ hcount)).1, ?_, ?_⟩ <;>
    unfold State.close <;> rw [← h.clscount] <;> split
  · rfl
  · exact h.clscount
  · exact .inl ⟨rfl, h.emit hcount⟩
  · exact h.differ

lemma Apart.finish (h : s.Apart t) (hcount : s.clscount < 3) : Differ s.finish t.finish := by
  have hlast : Differ (if s.clscount > 0 then polyMod s.c s.cls else s.c)
      (if t.clscount > 0 then polyMod t.c t.cls else t.c) := by
    rw [← h.clscount]
    split
    · exact ⟨polyMod_lt h.left.cLt (h.left.cls_lt_32 hcount.le),
        polyMod_lt h.right.cLt (h.right.cls_lt_32 (h.clscount ▸ hcount.le)), h.emit hcount.le⟩
    · next hpos =>
      -- No character waits, so the groups are the same.
      have hcls := h.left.clsLt
      have hcls' := h.right.clsLt
      rw [← h.clscount] at hcls'
      rw [Nat.eq_zero_of_not_pos hpos] at hcls hcls'
      exact ⟨h.left.cLt, h.right.cLt, (h.differ.resolve_right fun hne => hne.1 (by omega)).2⟩
  obtain ⟨hlt, hlt', hne⟩ := hlast.shift 8
  exact ⟨Nat.xor_lt_two_pow hlt (by norm_num), Nat.xor_lt_two_pow hlt' (by norm_num),
    fun heq => hne (Nat.xor_left_injective heq)⟩

end State

open State

lemma idxOf_lt {ch : UInt8} (hch : ch ∈ inputCharset) : inputCharset.idxOf ch < 96 :=
  (idxOf_lt_length_iff.2 hch).trans_le (by decide +kernel)

lemma loop_cons {ch : UInt8} (hch : ch ∈ inputCharset) (span : Bytes) (s : State) :
    loop (ch :: span) s = loop span (s.push (inputCharset.idxOf ch)).close := by
  simp [loop, idxOf_lt_length_iff.2 hch]

/-- What every turn keeps of two runs over the same text holds at the end. -/
lemma loop_keeps {R : State → State → Prop}
    (hkeep : ∀ {s t pos}, R s t → pos < 96 → R (s.push pos).close (t.push pos).close) {span : Bytes}
    (hspan : ∀ ch ∈ span, ch ∈ inputCharset) :
    ∀ {s t : State}, R s t → ∃ last last', loop span s = some last ∧ loop span t = some last' ∧
      R last last' := by
  induction span with
  | nil => exact fun h => ⟨_, _, rfl, rfl, h⟩
  | cons ch span ih =>
    intro s t h
    obtain ⟨hch, hspan⟩ := forall_mem_cons.1 hspan
    rw [loop_cons hch, loop_cons hch]
    exact ih hspan (hkeep h (idxOf_lt hch))

/-- Two texts that differ in one character have different checksums, whatever their length. -/
theorem descriptorChecksum_ne (front back : Bytes) (a b : UInt8) (hne : a ≠ b)
    (hset : ∀ ch ∈ front ++ a :: b :: back, ch ∈ inputCharset) :
    (descriptorChecksum (front ++ a :: back)).length = 8 ∧
      (descriptorChecksum (front ++ b :: back)).length = 8 ∧
      descriptorChecksum (front ++ a :: back) ≠ descriptorChecksum (front ++ b :: back) := by
  simp only [forall_mem_append, forall_mem_cons] at hset
  obtain ⟨hfront, ha, hb, hback⟩ := hset
  obtain ⟨s, _, hs, -, rfl, hvalid, hcount⟩ :=
    loop_keeps (R := fun s t => s = t ∧ s.Valid ∧ s.clscount < 3)
    (fun {s t pos} h hpos => ⟨by rw [h.1], (h.2.1.push hpos).close h.2.2⟩) hfront
    (⟨rfl, ⟨by norm_num, by norm_num⟩, by norm_num⟩ : (⟨1, 0, 0⟩ : State) = _ ∧ _)
  have hpos : inputCharset.idxOf a ≠ inputCharset.idxOf b := fun heq => hne ((idxOf_inj ha).1 heq)
  have hpush := apart_push hvalid hcount (idxOf_lt ha) (idxOf_lt hb) hpos
  obtain ⟨last, last', hlast, hlast', hapart, hend⟩ :=
    loop_keeps (R := fun s t => s.Apart t ∧ s.clscount < 3)
    (fun {s t pos} h hpos => ⟨(h.1.push h.2 hpos).close h.2, ((h.1.left.push hpos).close h.2).2⟩)
      hback
    ⟨hpush.close hcount, (hpush.left.close hcount).2⟩
  have hrun : ∀ ch ∈ inputCharset, loop (front ++ ch :: back) ⟨1, 0, 0⟩ =
      loop back (s.push (inputCharset.idxOf ch)).close := by
    intro ch hch
    rw [← loop_cons hch, loop, foldlM_append]
    change (loop front _).bind (loop (ch :: back)) = _
    rw [hs, Option.bind_some]
  unfold descriptorChecksum
  rw [hrun a ha, hrun b hb, hlast, hlast']
  exact ⟨by simp, by simp, (hapart.finish hend).symbols⟩

theorem descriptorChecksum_ne_sample :
    descriptorChecksum [114, 97, 119, 40, 54, 97, 41] ≠ descriptorChecksum [114, 97, 119, 40, 54,
      98, 41] :=
  (descriptorChecksum_ne [114, 97, 119, 40, 54] [41] 97 98 (by decide) (by decide +kernel)).2.2

end Tidecoin.DescriptorChecksum
