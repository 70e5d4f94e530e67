import Mathlib.Data.List.Induction
import Mathlib.Data.List.Nodup

/-!
Doubly linked rings through a sentinel, as intrusive lists of a map's entries use them. A node is
named by its key; as a neighbour, `none` is the sentinel. A node outside the ring has null
pointers. `IsRing` says which list of keys the pointers spell, and the two pointer updates are
shown to append to this list and to remove from it.
-/

namespace Tidecoin.Lib

open List Option

variable {κ : Type*}

/-- The pointers of the sentinel and of every node. -/
structure LinkedRing (κ : Type*) where
  first : Option κ
  last : Option κ
  links : κ → Option (Option κ × Option κ)

namespace LinkedRing

/-- The sentinel linked to itself. -/
def empty : LinkedRing κ := ⟨none, none, fun _ => none⟩

/-- The successor of the sentinel or of a node. -/
def next (ring : LinkedRing κ) : Option κ → Option κ
  | none => ring.first
  | some key => (ring.links key).bind Prod.snd

/-- The predecessor of the sentinel or of a node. -/
def prev (ring : LinkedRing κ) : Option κ → Option κ
  | none => ring.last
  | some key => (ring.links key).bind Prod.fst

variable [DecidableEq κ]

section

variable (ring : LinkedRing κ)

def setNext (node target : Option κ) : LinkedRing κ :=
  match node with
  | none => { ring with first := target }
  | some key =>
    { ring with
      links := Function.update ring.links key ((ring.links key).map fun link => (link.1, target)) }

def setPrev (node target : Option κ) : LinkedRing κ :=
  match node with
  | none => { ring with last := target }
  | some key =>
    { ring with
      links := Function.update ring.links key ((ring.links key).map fun link => (target, link.2)) }

/-- Links a node between the last one and the sentinel. -/
def pushBack (key : κ) : LinkedRing κ :=
  let last := ring.last
  let ring := { ring with links := Function.update ring.links key (some (last, none)) }
  let ring := ring.setPrev none (some key)
  ring.setNext last (some key)

/-- Links the neighbours of a node with each other and clears its pointers. -/
def unlink (key : κ) : LinkedRing κ :=
  match ring.links key with
  | none => ring
  | some (before, after) =>
    let ring := ring.setPrev after before
    let ring := ring.setNext before after
    { ring with links := Function.update ring.links key none }

end

/-- The nodes from one on up to the sentinel, if it is met within the fuel. -/
def walk (ring : LinkedRing κ) : (fuel : Nat) → Option κ → Option (List κ)
  | _, none => some []
  | 0, some _ => none
  | fuel + 1, some key => (ring.walk fuel (ring.next (some key))).map (key :: ·)

/-- The pointers spell the list of keys. -/
structure IsRing (ring : LinkedRing κ) (keys : List κ) : Prop where
  nodup : keys.Nodup
  firstEq : ring.first = keys.head?
  last_eq : ring.last = keys.getLast?
  linksEq : ∀ before key after, keys = before ++ key :: after →
    ring.links key = some (before.getLast?, after.head?)
  linksNone : ∀ key, key ∉ keys → ring.links key = none

section

variable (ring : LinkedRing κ) (node target : Option κ) (key : κ)

@[simp] lemma first_setNext :
    (ring.setNext node target).first = if node = none then target else ring.first := by
  cases node <;> rfl

@[simp] lemma last_setNext : (ring.setNext node target).last = ring.last := by
  cases node <;> rfl

@[simp] lemma first_setPrev : (ring.setPrev node target).first = ring.first := by
  cases node <;> rfl

@[simp] lemma last_setPrev :
    (ring.setPrev node target).last = if node = none then target else ring.last := by
  cases node <;> rfl

lemma links_setNext : (ring.setNext node target).links key =
    if node = some key then (ring.links key).map fun link => (link.1, target)
    else ring.links key := by
  cases node with
  | none => rfl
  | some other =>
    by_cases heq : key = other
    · simp [setNext, heq]
    · simp [setNext, heq, Ne.symm heq]

lemma links_setPrev : (ring.setPrev node target).links key =
    if node = some key then (ring.links key).map fun link => (target, link.2)
    else ring.links key := by
  cases node with
  | none => rfl
  | some other =>
    by_cases heq : key = other
    · simp [setPrev, heq]
    · simp [setPrev, heq, Ne.symm heq]

end

omit [DecidableEq κ] in
lemma isRing_empty : (empty : LinkedRing κ).IsRing [] where
  nodup := nodup_nil
  firstEq := rfl
  last_eq := rfl
  linksEq := by simp
  linksNone := fun _ _ => rfl

variable {ring : LinkedRing κ}

omit [DecidableEq κ] in
lemma IsRing.eq_empty (hring : ring.IsRing []) : ring = empty := by
  obtain ⟨first, last, links⟩ := ring
  have hfirst : first = none := hring.firstEq
  have hlast : last = none := hring.last_eq
  have hlinks : links = fun _ => none := funext fun key => hring.linksNone key (by simp)
  rw [hfirst, hlast, hlinks, empty]

variable {before after : List κ} {key : κ}

section

omit [DecidableEq κ]

lemma IsRing.next_some (hring : ring.IsRing (before ++ key :: after)) :
    ring.next (some key) = after.head? := by
  simp [next, hring.linksEq before key after rfl]

lemma IsRing.prev_some (hring : ring.IsRing (before ++ key :: after)) :
    ring.prev (some key) = before.getLast? := by
  simp [prev, hring.linksEq before key after rfl]

lemma IsRing.prev_next {keys : List κ} (hring : ring.IsRing keys) (hkey : key ∈ keys) :
    ring.prev (ring.next (some key)) = some key := by
  obtain ⟨before, after, rfl⟩ := append_of_mem hkey
  rw [hring.next_some]
  cases after with
  | nil => simp [prev, hring.last_eq]
  | cons other after =>
    have hother : ring.IsRing ((before ++ [key]) ++ other :: after) := by simpa using hring
    rw [head?_cons, hother.prev_some]
    simp

lemma IsRing.next_prev {keys : List κ} (hring : ring.IsRing keys) (hkey : key ∈ keys) :
    ring.next (ring.prev (some key)) = some key := by
  obtain ⟨before, after, rfl⟩ := append_of_mem hkey
  rw [hring.prev_some]
  cases before using reverseRecOn with
  | nil => simp [next, hring.firstEq]
  | append_singleton init other =>
    have hother : ring.IsRing (init ++ other :: key :: after) := by simpa using hring
    rw [getLast?_concat, hother.next_some, head?_cons]

lemma IsRing.walk (hring : ring.IsRing (before ++ after)) {fuel : Nat}
    (hfuel : after.length ≤ fuel) :
    ring.walk fuel after.head? = some after := by
  induction after generalizing before fuel with
  | nil => cases fuel <;> rfl
  | cons key after ih =>
    cases fuel with
    | zero => simp at hfuel
    | succ fuel =>
      have hrest : ring.IsRing ((before ++ [key]) ++ after) := by simpa using hring
      have hlength : after.length ≤ fuel := by simpa using hfuel
      rw [head?_cons, LinkedRing.walk, hring.next_some, ih hrest hlength, map_some]

lemma head?_eq_some_iff_nil (hnodup : (before ++ key :: after).Nodup) :
    (before ++ key :: after).head? = some key ↔ before = [] := by
  cases before with
  | nil => simp
  | cons first front =>
    have hne : first ≠ key := by
      rintro rfl
      simp at hnodup
    simp [hne]

lemma getLast?_eq_some_iff_nil (hnodup : (before ++ key :: after).Nodup) :
    (before ++ key :: after).getLast? = some key ↔ after = [] := by
  have hreverse : (after.reverse ++ key :: before.reverse).Nodup := by
    simpa using nodup_reverse.2 hnodup
  rw [← reverse_eq_nil_iff, ← head?_eq_some_iff_nil hreverse, ← head?_reverse]
  simp

end

lemma IsRing.pushBack {keys : List κ} (hring : ring.IsRing keys) (hkey : key ∉ keys) :
    (ring.pushBack key).IsRing (keys ++ [key]) := by
  have hlast := hring.last_eq
  have hlinks : ∀ other, (ring.pushBack key).links other =
      if other = key then some (keys.getLast?, none)
      else if keys.getLast? = some other then
        (ring.links other).map fun link => (link.1, some key)
      else ring.links other := by
    intro other
    have hne : keys.getLast? ≠ some key := fun h => hkey (mem_of_getLast? h)
    simp only [LinkedRing.pushBack, links_setNext, links_setPrev, hlast, Function.update_apply]
    by_cases heq : other = key <;> simp [heq, hne]
  constructor
  · refine nodup_append.2 ⟨hring.nodup, by simp, ?_⟩
    intro other hother last hlast heq
    rw [mem_singleton.1 hlast] at heq
    exact hkey (heq ▸ hother)
  · simp only [LinkedRing.pushBack, first_setNext, first_setPrev, hlast, hring.firstEq]
    cases keys <;> simp
  · simp [LinkedRing.pushBack]
  · intro before other after hsplit
    rw [hlinks]
    cases after using reverseRecOn with
    | nil =>
      obtain ⟨rfl, heq⟩ := append_inj' hsplit rfl
      simp only [cons.injEq, and_true] at heq
      simp [heq]
    | append_singleton after last =>
      have hconcat : keys ++ [key] = (before ++ other :: after) ++ [last] := by
        simpa using hsplit
      obtain ⟨rfl, heq⟩ := append_inj' hconcat rfl
      cases heq
      have hne : other ≠ key := by
        rintro rfl
        simp at hkey
      simp only [if_neg hne, hring.linksEq before other after rfl, getLast?_eq_some_iff_nil
        hring.nodup]
      cases after <;> simp
  · intro other hother
    simp only [mem_append, mem_singleton, not_or] at hother
    rw [hlinks, if_neg hother.2, hring.linksNone other hother.1]
    simp

lemma IsRing.unlink (hring : ring.IsRing (before ++ key :: after)) :
    (ring.unlink key).IsRing (before ++ after) := by
  have hkey := hring.linksEq before key after rfl
  have hnodup := hring.nodup
  have hlinks :
      ∀ other, other ≠ key → (ring.unlink key).links other = ((ring.links other).map fun link =>
        (if after.head? = some other then before.getLast? else link.1,
         if before.getLast? = some other then after.head? else link.2)) := by
    intro other hne
    simp only [LinkedRing.unlink, hkey, links_setNext, links_setPrev, Function.update_apply,
      if_neg hne]
    split <;> split <;> simp [Function.comp_def]
  have hclear : (ring.unlink key).links key = none := by
    simp [LinkedRing.unlink, hkey]
  obtain ⟨hbefore, hafter, hdisjoint⟩ := nodup_append.1 hnodup
  rw [nodup_cons] at hafter
  have hkeybefore : key ∉ before := fun hmem => hdisjoint key hmem key (by simp) rfl
  constructor
  · exact hnodup.sublist ((sublist_cons_self key after).append_left before)
  · simp only [LinkedRing.unlink, hkey, first_setNext, first_setPrev, hring.firstEq]
    cases before using reverseRecOn <;> simp [head?_append]
  · simp only [LinkedRing.unlink, hkey, last_setNext, last_setPrev, hring.last_eq]
    cases after <;> simp [getLast?_append]
  · intro front other back hsplit
    have hne : other ≠ key := by
      rintro rfl
      have hmem : other ∈ before ++ after := by simp [hsplit]
      rcases mem_append.1 hmem with hmem | hmem
      · exact hkeybefore hmem
      · exact hafter.1 hmem
    rw [hlinks other hne]
    -- A node behind the removed one: only the first of them changes its predecessor.
    have hbehind : ∀ middle, after = middle ++ other :: back → (ring.links other).map (fun link =>
          (if after.head? = some other then before.getLast? else link.1,
           if before.getLast? = some other then after.head? else link.2)) =
        some ((before ++ middle).getLast?, back.head?) := by
      intro middle hback
      rw [hring.linksEq (before ++ key :: middle) other back (by simp [hback])]
      have hmem : other ∈ after := by simp [hback]
      have hfar : before.getLast? ≠ some other := fun hlast =>
        hdisjoint other (mem_of_getLast? hlast) other (mem_cons_of_mem _ hmem) rfl
      have hhead : after.head? = some other ↔ middle = [] := by
        rw [hback]
        exact head?_eq_some_iff_nil (hback ▸ hafter.2)
      rw [map_some, if_neg hfar]
      cases middle using reverseRecOn with
      | nil => simp [hhead]
      | append_singleton middle last => simp [hhead, getLast?_cons]
    rcases append_eq_append_iff.1 hsplit with ⟨middle, rfl, hback⟩ | ⟨middle, rfl, hback⟩
    · exact hbehind middle hback
    · cases middle with
      | nil => simpa using hbehind [] (by simpa using hback.symm)
      | cons node middle =>
        obtain ⟨rfl, rfl⟩ := cons.inj hback
        rw [hring.linksEq front other (middle ++ key :: after) (by simp)]
        have hfar : after.head? ≠ some other := fun hhead =>
          hdisjoint other (by simp) other (mem_cons_of_mem _ (mem_of_mem_head? hhead)) rfl
        rw [map_some, if_neg hfar]
        simp only [getLast?_eq_some_iff_nil hbefore]
        cases middle <;> simp
  · intro other hother
    by_cases heq : other = key
    · rw [heq, hclear]
    · have habsent : other ∉ before ++ key :: after := by
        simpa [heq] using hother
      rw [hlinks other heq, hring.linksNone other habsent, map_none]

end LinkedRing

end Tidecoin.Lib
