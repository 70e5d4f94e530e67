import Tidecoin.Lib.Merkle
import Tidecoin.Validation.Block

/-!
The Merkle tree of `consensus/merkle.cpp`. The root commits to the leaves. The last node of an odd
level is paired with itself, so lists of different lengths can have one root; the mutation flag is
set for at least one of them.
-/

namespace Tidecoin

open Lib List

variable [Crypto]

lemma combinePairs_eq (hashes : List Uint256) :
    combinePairs hashes = (levelPairs hashes).map fun pair => hashPair pair.1 pair.2 := by
  fun_induction combinePairs hashes with
  | case1 left right hashes ih => rw [levelPairs, map_cons, ih]
  | case2 hash => rfl
  | case3 => rfl

lemma merkleLoop_fst (fuel : Nat) (hashes : List Uint256) (mutation : Bool) :
    (merkleLoop fuel hashes mutation).1 = treeRoot hashPair 0 fuel hashes := by
  induction fuel generalizing hashes mutation with
  | zero => rfl
  | succ fuel ih =>
    rw [merkleLoop, treeRoot]
    split
    · rw [ih, combinePairs_eq]
    · rfl

/-- The pairs that `ComputeMerkleRoot` hashes. -/
def merklePairs (hashes : List Uint256) : List (Uint256 × Uint256) :=
  treePairs hashPair hashes.length hashes

lemma computeMerkleRoot_injective {left right : List Uint256}
    (hinj : Set.InjOn (fun pair : Uint256 × Uint256 => hashPair pair.1 pair.2)
      { pair | pair ∈ merklePairs left ∨ pair ∈ merklePairs right })
    (hlength : left.length = right.length)
    (hroot : (computeMerkleRoot left).1 = (computeMerkleRoot right).1) : left = right := by
  rw [computeMerkleRoot, computeMerkleRoot, merkleLoop_fst, merkleLoop_fst] at hroot
  by_cases hne : left = []
  · rw [hne] at hlength ⊢
    exact (length_eq_zero_iff.1 hlength.symm).symm
  · have hne' : right ≠ [] := ne_nil_of_length_pos (hlength ▸ length_pos_iff.2 hne)
    exact treeRoot_injective hne hne' hinj (.inl hlength) (Nat.le_succ _) (Nat.le_succ _) hroot

omit [Crypto] in
lemma hasEqualPair_iff {hashes : List Uint256} : hasEqualPair hashes = true ↔ EqualPair hashes := by
  fun_induction hasEqualPair hashes with
  | case1 left right hashes ih => rw [Bool.or_eq_true, decide_eq_true_eq, ih, equalPair_cons]
  | case2 hashes hshort =>
    refine iff_of_false nofun ?_
    rintro ⟨pos, node, -, hsecond⟩
    match hashes with
    | [] | [_] => simp at hsecond
    | left :: right :: rest => exact hshort left right rest rfl

lemma merkleLoop_snd {fuel : Nat} {hashes : List Uint256} (mutation : Bool)
    (hfuel : hashes.length ≤ fuel + 1) :
    (merkleLoop fuel hashes mutation).2 = true ↔ mutation = true ∨
      EqualSiblings hashPair hashes := by
  have hshort : ∀ hashes : List Uint256, hashes.length ≤ 1 → ¬EqualSiblings hashPair hashes := by
    rintro hashes hlength ⟨height, pos, node, -, hsecond⟩
    have hpos := lt_length_treeLevel.1 (List.getElem?_eq_some_iff.1 hsecond).1
    have := Nat.le_mul_of_pos_right (2 * pos + 1) (Nat.two_pow_pos height)
    omega
  induction fuel generalizing hashes mutation with
  | zero => simp [merkleLoop, hshort _ hfuel]
  | succ fuel ih =>
    rw [merkleLoop]
    split
    case isTrue hlong =>
      have hlength : (combinePairs hashes).length ≤ fuel + 1 := by
        rw [combinePairs_eq, length_map, length_levelPairs]
        omega
      refine (ih _ hlength).trans ?_
      rw [combinePairs_eq, Bool.or_eq_true, hasEqualPair_iff, or_assoc,
        ← equalSiblings_iff]
    case isFalse hlong => simp [hshort hashes (by omega)]

/-- Of two different lists of leaves with the same root at least one has the mutation flag, if no
two pairs of their trees have one hash and no hash of a pair is a leaf; and the flag says that the
tree has two equal siblings. -/
theorem computeMerkleRoot_mutation (left right : List Uint256) :
    (left ≠ [] → right ≠ [] → left ≠ right →
      Set.InjOn (fun pair : Uint256 × Uint256 => hashPair pair.1 pair.2)
        { pair | pair ∈ merklePairs left ∨ pair ∈ merklePairs right } →
      (∀ pair, pair ∈ merklePairs left ∨ pair ∈ merklePairs right →
        hashPair pair.1 pair.2 ∉ left ∧ hashPair pair.1 pair.2 ∉ right) →
      (computeMerkleRoot left).1 = (computeMerkleRoot right).1 →
      (computeMerkleRoot left).2 = true ∨ (computeMerkleRoot right).2 = true) ∧
    ∀ hashes, (computeMerkleRoot hashes).2 = true ↔ EqualSiblings hashPair hashes := by
  have hflag : ∀ hashes, (computeMerkleRoot hashes).2 = true ↔ EqualSiblings hashPair hashes := by
    intro hashes
    rw [computeMerkleRoot, merkleLoop_snd _ (Nat.le_succ _)]
    simp
  refine ⟨fun hne hne' hdiffer hinj hapart hroot => ?_, hflag⟩
  rw [hflag, hflag]
  by_contra hclean
  rw [computeMerkleRoot, computeMerkleRoot, merkleLoop_fst, merkleLoop_fst] at hroot
  exact hdiffer (treeRoot_injective hne hne' hinj (.inr ⟨not_or.1 hclean, hapart⟩) (Nat.le_succ _)
    (Nat.le_succ _) hroot)

omit [Crypto] in
/-- A third leaf that is repeated does not change the root. -/
theorem computeMerkleRoot_mutation_repeated : let _ := Crypto.digits
    (computeMerkleRoot [1, 2, 3]).1 = (computeMerkleRoot [1, 2, 3, 3]).1 ∧
      ((computeMerkleRoot [1, 2, 3]).2 = true ∨ (computeMerkleRoot [1, 2, 3, 3]).2 = true) := by
  intro _
  have hpairs : merklePairs [1, 2, 3, 3] = merklePairs [1, 2, 3] := by decide +kernel
  have hapart : (merklePairs [1, 2, 3]).all fun pair => hashPair pair.1 pair.2 ∉ [1, 2, 3, 3] := by
    decide +kernel
  have hroot : (computeMerkleRoot [1, 2, 3]).1 = (computeMerkleRoot [1, 2, 3, 3]).1 := by
    decide +kernel
  refine ⟨hroot, (computeMerkleRoot_mutation _ _).1 (by simp) (by simp) (by decide) ?_ ?_ hroot⟩
  · simp only [hpairs, or_self]
    exact injOn_of_all (by decide +kernel)
  · simp only [all_eq_true, decide_eq_true_eq] at hapart
    intro pair hpair
    rw [hpairs, or_self] at hpair
    have hleaf := hapart pair hpair
    exact ⟨fun h => hleaf (by simp_all), hleaf⟩

end Tidecoin
