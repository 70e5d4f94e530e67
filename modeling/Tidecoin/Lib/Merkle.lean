import Mathlib.Algebra.Group.Nat.Defs
import Mathlib.Data.Set.Function
import Mathlib.Tactic.WLOG

/-!
Hash trees over lists. A level pairs its elements and combines each pair, and an element that is
left over is paired with itself. Two lists of one length with the same root are equal, unless two
different pairs that come up in their trees have one hash. Lists of different lengths with the same
root show the duplication: in one of the trees two siblings are equal.
-/

namespace Tidecoin.Lib

open List

variable {α : Type}

/-- The pairs of one level. -/
def levelPairs : List α → List (α × α)
  | left :: right :: rest => (left, right) :: levelPairs rest
  | [last] => [(last, last)]
  | [] => []

/-- The pairs of a tree, with a bound on the number of levels. -/
def treePairs (combine : α → α → α) : (fuel : Nat) → List α → List (α × α)
  | 0, _ => []
  | fuel + 1, hashes =>
    if hashes.length > 1 then
      levelPairs hashes ++ treePairs combine fuel ((levelPairs hashes).map fun pair =>
        combine pair.1 pair.2)
    else []

/-- The root, with a bound on the number of levels. -/
def treeRoot (combine : α → α → α) (default : α) : (fuel : Nat) → List α → α
  | 0, hashes => hashes.headD default
  | fuel + 1, hashes =>
    if hashes.length > 1 then
      treeRoot combine default fuel ((levelPairs hashes).map fun pair => combine pair.1 pair.2)
    else hashes.headD default

/-- The nodes on a level of the tree. -/
def treeLevel (combine : α → α → α) (hashes : List α) : (height : Nat) → List α
  | 0 => hashes
  | height + 1 =>
    (levelPairs (treeLevel combine hashes height)).map fun pair => combine pair.1 pair.2

/-- Two siblings of a level are equal. A node paired with itself has no sibling. -/
def EqualPair (hashes : List α) : Prop :=
  ∃ pos node, hashes[2 * pos]? = some node ∧ hashes[2 * pos + 1]? = some node

/-- On some level of the tree two siblings are equal. -/
def EqualSiblings (combine : α → α → α) (hashes : List α) : Prop :=
  ∃ height, EqualPair (treeLevel combine hashes height)

lemma length_levelPairs (hashes : List α) :
    (levelPairs hashes).length = (hashes.length + 1) / 2 := by
  fun_induction levelPairs hashes with
  | case1 left right rest ih =>
    simp only [length_cons, ih]
    omega
  | case2 last => simp
  | case3 => simp

lemma equalPair_cons {left right : α} {rest : List α} :
    EqualPair (left :: right :: rest) ↔ left = right ∨ EqualPair rest := by
  constructor
  · rintro ⟨_ | pos, node, hfirst, hsecond⟩
    · exact .inl ((Option.some.inj hfirst).trans (Option.some.inj hsecond).symm)
    · exact .inr ⟨pos, node, hfirst, hsecond⟩
  · rintro (rfl | ⟨pos, node, hfirst, hsecond⟩)
    · exact ⟨0, left, rfl, rfl⟩
    · exact ⟨pos + 1, node, hfirst, hsecond⟩

variable {left right : List α}

/-- A level is known from its pairs, up to the length where a node is paired with itself. -/
lemma eq_or_equalPair (h : levelPairs left = levelPairs right) :
    left = right ∨ left.length ≠ right.length ∧ (EqualPair left ∨ EqualPair right) := by
  fun_induction levelPairs left generalizing right with
  | case1 first second rest ih =>
    match right with
    | [] => cases h
    | [last] =>
      simp only [levelPairs, cons.injEq, Prod.mk.injEq] at h
      obtain ⟨⟨rfl, rfl⟩, -⟩ := h
      exact .inr ⟨by simp, .inl (equalPair_cons.2 (.inl rfl))⟩
    | other :: next :: others =>
      simp only [levelPairs, cons.injEq, Prod.mk.injEq] at h
      obtain ⟨⟨rfl, rfl⟩, hrest⟩ := h
      obtain rfl | ⟨hlength, hequal⟩ := ih hrest
      · exact .inl rfl
      · refine .inr ⟨by simpa using hlength, ?_⟩
        exact hequal.imp (fun h => equalPair_cons.2 (.inr h)) fun h => equalPair_cons.2 (.inr h)
  | case2 last =>
    match right with
    | [] => cases h
    | [other] =>
      simp only [levelPairs, cons.injEq, Prod.mk.injEq] at h
      rw [h.1.1]
      exact .inl rfl
    | other :: next :: others =>
      simp only [levelPairs, cons.injEq, Prod.mk.injEq] at h
      obtain ⟨⟨rfl, rfl⟩, -⟩ := h
      exact .inr ⟨by simp, .inr (equalPair_cons.2 (.inl rfl))⟩
  | case3 =>
    match right with
    | [] => exact .inl rfl
    | [other] => cases h
    | other :: next :: others => cases h

/-- Lists with the same images are equal if the function tells the elements of one from those of the
other. -/
theorem eq_of_map_eq {β : Type} {f : α → β} (hinj : ∀ a ∈ left, ∀ b ∈ right, f a = f b → a = b)
    (h : left.map f = right.map f) : left = right := by
  induction left generalizing right with
  | nil => exact (map_eq_nil_iff.1 h.symm).symm
  | cons first left ih =>
    cases right with
    | nil => cases h
    | cons other right =>
      rw [map_cons, map_cons, cons.injEq] at h
      obtain ⟨hfirst, hrest⟩ := h
      rw [hinj first mem_cons_self other mem_cons_self hfirst, ih _ hrest]
      intro a ha b hb
      exact hinj a (mem_cons_of_mem _ ha) b (mem_cons_of_mem _ hb)

/-- A function that was seen to differ on all different elements of a list is injective on it. -/
lemma injOn_of_all {β : Type} [DecidableEq α] [DecidableEq β] {f : α → β} {elements : List α}
    (h : elements.all fun a => elements.all fun b => f a ≠ f b || a = b) :
    Set.InjOn f { a | a ∈ elements } := by
  simp only [all_eq_true, Bool.or_eq_true, decide_eq_true_eq] at h
  intro a ha b hb hsame
  exact (h a ha b hb).resolve_left fun hne => hne hsame

variable {combine : α → α → α}

lemma treeLevel_succ (combine : α → α → α) (hashes : List α) (height : Nat) :
    treeLevel combine hashes (height + 1) =
      treeLevel combine ((levelPairs hashes).map fun pair => combine pair.1 pair.2) height := by
  induction height with
  | zero => rfl
  | succ height ih => rw [treeLevel, ih, treeLevel]

/-- The root is the only node on its level, and all levels below it are longer. -/
lemma exists_height (combine : α → α → α) (default : α) {fuel : Nat} {hashes : List α}
    (hne : hashes ≠ [])
    (hfuel : hashes.length ≤ fuel + 1) :
    ∃ height, treeLevel combine hashes height = [treeRoot combine default fuel hashes] ∧
      ∀ level < height, 1 < (treeLevel combine hashes level).length ∧
        ∀ pair ∈ levelPairs (treeLevel combine hashes level), pair ∈ treePairs combine fuel
          hashes := by
  by_cases hlong : 1 < hashes.length
  · obtain ⟨fuel, rfl⟩ : ∃ previous, fuel = previous + 1 := ⟨fuel - 1, by omega⟩
    have hlength := length_levelPairs hashes
    obtain ⟨height, htop, hbelow⟩ := @exists_height combine default fuel
      ((levelPairs hashes).map fun pair => combine pair.1 pair.2)
      (by simp [← length_pos_iff]; omega) (by simp; omega)
    rw [treeRoot, treePairs, if_pos hlong, if_pos hlong]
    refine ⟨height + 1, (treeLevel_succ ..).trans htop, fun level hlevel => ?_⟩
    cases level with
    | zero => exact ⟨hlong, fun pair => mem_append_left _⟩
    | succ level =>
      rw [treeLevel_succ]
      obtain ⟨hsize, hmem⟩ := hbelow level (by omega)
      exact ⟨hsize, fun pair hpair => mem_append_right _ (hmem pair hpair)⟩
  · obtain ⟨leaf, rfl⟩ := length_eq_one_iff.1 (le_antisymm (not_lt.1 hlong) (length_pos_iff.2 hne))
    refine ⟨0, ?_, nofun⟩
    cases fuel <;> rfl
termination_by fuel

/-- A level has the nodes that begin at a leaf. -/
lemma lt_length_treeLevel {hashes : List α} {height pos : Nat} :
    pos < (treeLevel combine hashes height).length ↔ pos * 2 ^ height < hashes.length := by
  induction height generalizing pos with
  | zero => simp [treeLevel]
  | succ height ih =>
    rw [treeLevel, length_map, length_levelPairs, Nat.pow_succ', ← Nat.mul_assoc, ← ih]
    omega

lemma equalSiblings_iff {hashes : List α} : EqualSiblings combine hashes ↔ EqualPair hashes ∨
      EqualSiblings combine ((levelPairs hashes).map fun pair => combine pair.1 pair.2) := by
  constructor
  · rintro ⟨_ | height, hequal⟩
    · exact .inl hequal
    · exact .inr ⟨height, treeLevel_succ combine hashes height ▸ hequal⟩
  · rintro (hequal | ⟨height, hequal⟩)
    · exact ⟨0, hequal⟩
    · exact ⟨height + 1, treeLevel_succ combine hashes height ▸ hequal⟩

lemma length_treeLevel_congr (combine : α → α → α) (hlength : left.length = right.length)
    (height : Nat) :
    (treeLevel combine left height).length = (treeLevel combine right height).length := by
  induction height with
  | zero => exact hlength
  | succ height ih => simp only [treeLevel, length_map, length_levelPairs, ih]

/-- Trees that agree on a level agree on the levels below. -/
lemma treeLevel_descend {height depth : Nat} (hsep : left.length = right.length ∧ depth = 0 ∨
      ¬EqualSiblings combine left ∧ ¬EqualSiblings combine right)
    (hinj : ∀ level < height, ∀ pair ∈ levelPairs (treeLevel combine left level),
      ∀ other ∈ levelPairs (treeLevel combine right (depth + level)),
        combine pair.1 pair.2 = combine other.1 other.2 → pair = other)
    (htop : treeLevel combine left height = treeLevel combine right (depth + height)) :
    left = treeLevel combine right depth := by
  induction height with
  | zero => exact htop
  | succ height ih =>
    apply ih (fun level hlevel => hinj level (by omega))
    obtain heq | ⟨hlength, hequal⟩ := eq_or_equalPair (eq_of_map_eq (hinj height (by omega)) htop)
    · exact heq
    · rcases hsep with ⟨hlengths, rfl⟩ | ⟨hleft, hright⟩
      · rw [Nat.zero_add] at hlength
        exact absurd (length_treeLevel_congr combine hlengths height) hlength
      · exact absurd hequal (not_or.2 ⟨fun h => hleft ⟨_, h⟩, fun h => hright ⟨_, h⟩⟩)

/-- Lists with the same root are equal if they have the same length, or if their trees have no equal
siblings and no pair of them combines to a leaf. -/
theorem treeRoot_injective {default : α} {fuel fuel' : Nat} (hne : left ≠ []) (hne' : right ≠ [])
    (hinj : Set.InjOn (fun pair : α × α => combine pair.1 pair.2)
      { pair | pair ∈ treePairs combine fuel left ∨ pair ∈ treePairs combine fuel' right })
    (hsep : left.length = right.length ∨ (¬EqualSiblings combine left ∧
      ¬EqualSiblings combine right) ∧
      ∀ pair, pair ∈ treePairs combine fuel left ∨ pair ∈ treePairs combine fuel' right →
        combine pair.1 pair.2 ∉ left ∧ combine pair.1 pair.2 ∉ right)
    (hfuel : left.length ≤ fuel + 1) (hfuel' : right.length ≤ fuel' + 1)
    (hroot : treeRoot combine default fuel left = treeRoot combine default fuel' right) :
    left = right := by
  obtain ⟨height, htop, hbelow⟩ := exists_height combine default hne hfuel
  obtain ⟨height', htop', hbelow'⟩ := exists_height combine default hne' hfuel'
  wlog hle : height ≤ height' generalizing left right fuel fuel' height height'
  · exact (this hne' hne (hinj.mono fun _ => Or.symm) (hsep.imp Eq.symm fun h =>
      ⟨h.1.symm, fun pair hpair => (h.2 pair hpair.symm).symm⟩) hfuel' hfuel hroot.symm height'
        htop' hbelow'
      height htop hbelow (by omega)).symm
  obtain ⟨depth, rfl⟩ := Nat.exists_eq_add_of_le' hle
  have hheight : left.length = right.length → depth = 0 := by
    intro hlength
    by_contra hdepth
    have hlong := (hbelow' height (by omega)).1
    rw [← length_treeLevel_congr combine hlength, htop] at hlong
    exact absurd hlong (by simp)
  have hlevel : left = treeLevel combine right depth := by
    apply treeLevel_descend (hsep.imp (fun h => ⟨h, hheight h⟩) And.left) _
      (htop.trans (hroot ▸ htop'.symm))
    intro level hlevel pair hpair other hother
    exact hinj (.inl ((hbelow level hlevel).2 pair hpair))
      (.inr ((hbelow' _ (by omega)).2 other hother))
  cases depth with
  | zero => exact hlevel
  | succ depth =>
    -- The leaves of the lower tree would be inner nodes of the higher one.
    obtain ⟨leaf, hleaf⟩ := exists_mem_of_ne_nil left hne
    obtain ⟨pair, hpair, rfl⟩ := List.mem_map.1 (hlevel ▸ hleaf)
    have hmem := (hbelow' depth (by omega)).2 pair hpair
    exact absurd hleaf ((hsep.resolve_left fun h => nomatch hheight h).2 pair (.inr hmem)).1

end Tidecoin.Lib
