import Mathlib.Data.List.Nodup

/-!
Stores that map a key to at most one value, with the two operations of a ledger: taking a key that
is present and putting one that is absent. A sequence of either kind is undone by the opposite
operation: what was taken is put back in the reverse order, and what was put can be taken out in
the order in which it came.
-/

namespace Tidecoin.Lib

open Function List

variable {κ ν : Type*}

/-- A partial map from keys to values. -/
abbrev Store (κ ν : Type*) := κ → Option ν

namespace Store

variable [DecidableEq κ]

section

variable (store : Store κ ν) (key : κ)

def erase : Store κ ν := Function.update store key none

def insert (value : ν) : Store κ ν := Function.update store key (some value)

@[simp] lemma erase_self : store.erase key key = none := update_self ..

end

variable {key : κ}

lemma erase_of_ne (store : Store κ ν) {other : κ} (hne : other ≠ key) :
    store.erase key other = store other :=
  update_of_ne hne ..

@[simp] lemma insert_self (store : Store κ ν) (key : κ) (value : ν) :
    store.insert key value key = some value :=
  update_self ..

lemma insert_of_ne (store : Store κ ν) {other : κ} (hne : other ≠ key) (value : ν) :
    store.insert key value other = store other :=
  update_of_ne hne ..

variable {store : Store κ ν} {value : ν}

lemma forall_update {P : κ → ν → Prop} {slot : Option ν}
    (h : ∀ other found, store other = some found →
      P other found) (hslot : ∀ found, slot = some found → P key found) (other : κ) (found : ν)
    (hfound : Function.update store key slot other = some found) : P other found := by
  by_cases heq : other = key
  · subst heq
    rw [update_self] at hfound
    exact hslot found hfound
  · rw [update_of_ne heq] at hfound
    exact h other found hfound

lemma insert_erase (hkey : store key = some value) :
    (store.erase key).insert key value = store := by
  rw [erase, insert, update_idem, ← hkey, update_eq_self]

lemma erase_insert (value : ν) (hkey : store key = none) :
    (store.insert key value).erase key = store := by
  rw [erase, insert, update_idem, ← hkey, update_eq_self]

lemma insert_erase_comm (store : Store κ ν) {other : κ} (hne : other ≠ key) (value : ν) :
    (store.erase key).insert other value = (store.insert other value).erase key :=
  update_comm hne.symm ..

/-- Takes the keys out one after the other and returns their values; fails at an absent key. -/
def takeAll : Store κ ν → List κ → Option (List ν × Store κ ν)
  | store, [] => some ([], store)
  | store, key :: keys =>
    match store key with
    | none => none
    | some value =>
      (takeAll (store.erase key) keys).map fun (values, rest) => (value :: values, rest)

/-- Puts the entries in one after the other; fails at a key that is present. -/
def putAll : Store κ ν → List (κ × ν) → Option (Store κ ν)
  | store, [] => some store
  | store, (key, value) :: entries =>
    match store key with
    | none => putAll (store.insert key value) entries
    | some _ => none

variable {rest : Store κ ν} {keys : List κ} {values : List ν}

lemma takeAll_cons : store.takeAll (key :: keys) = some (values, rest) ↔
      ∃ value others, store key = some value ∧ values = value :: others ∧
        (store.erase key).takeAll keys = some (others, rest) := by
  rw [takeAll]
  cases hkey : store key with
  | none => simp
  | some value =>
    simp only [Option.map_eq_some_iff, Prod.exists, Prod.mk.injEq, Option.some.injEq]
    constructor
    · rintro ⟨others, _, htake, rfl, rfl⟩
      exact ⟨value, others, rfl, rfl, htake⟩
    · rintro ⟨_, others, rfl, rfl, htake⟩
      exact ⟨others, rest, htake, rfl, rfl⟩

variable {entries : List (κ × ν)}

lemma putAll_cons : store.putAll ((key, value) :: entries) = some rest ↔
      store key = none ∧ (store.insert key value).putAll entries = some rest := by
  rw [putAll]
  cases hkey : store key <;> simp

lemma putAll_append (store : Store κ ν) (entries others : List (κ × ν)) :
    store.putAll (entries ++ others) = (store.putAll entries).bind fun rest =>
      rest.putAll others := by
  induction entries generalizing store with
  | nil => rfl
  | cons entry entries ih =>
    simp only [cons_append, putAll]
    cases store entry.1 with
    | none => exact ih _
    | some _ => rfl

lemma takeAll_length (htake : store.takeAll keys = some (values, rest)) :
    values.length = keys.length := by
  induction keys generalizing store values with
  | nil =>
    cases htake
    rfl
  | cons key keys ih =>
    obtain ⟨value, others, -, rfl, hnext⟩ := takeAll_cons.1 htake
    rw [length_cons, length_cons, ih hnext]

lemma takeAll_mem (htake : store.takeAll keys = some (values, rest)) :
    (∀ value ∈ values, ∃ key, store key = some value) ∧
      ∀ key value, rest key = some value → store key = some value := by
  induction keys generalizing store values with
  | nil =>
    cases htake
    exact ⟨fun _ hmem => absurd hmem not_mem_nil, fun _ _ hrest => hrest⟩
  | cons key keys ih =>
    obtain ⟨value, others, hkey, rfl, hnext⟩ := takeAll_cons.1 htake
    have hback : ∀ other found, store.erase key other = some found → store other = some found := by
      intro other found hfound
      by_cases heq : other = key
      · rw [heq, erase_self] at hfound
        exact absurd hfound (by simp)
      · rwa [erase_of_ne _ heq] at hfound
    obtain ⟨hvalues, hrest⟩ := ih hnext
    refine ⟨?_, fun other found hfound => hback _ _ (hrest other found hfound)⟩
    intro found hmem
    rcases mem_cons.1 hmem with rfl | hmem
    · exact ⟨key, hkey⟩
    · obtain ⟨other, hother⟩ := hvalues found hmem
      exact ⟨other, hback _ _ hother⟩

lemma exists_takeAll (hnodup : keys.Nodup)
    (hpresent : ∀ key ∈ keys, ∃ value, store key = some value) :
    ∃ values rest, store.takeAll keys = some (values, rest) ∧
      ∀ key, rest key = if key ∈ keys then none else store key := by
  induction keys generalizing store with
  | nil => exact ⟨[], store, rfl, by simp⟩
  | cons key keys ih =>
    rw [nodup_cons] at hnodup
    obtain ⟨⟨value, hvalue⟩, hothers⟩ := forall_mem_cons.1 hpresent
    have hkept : ∀ other ∈ keys, ∃ found, store.erase key other = some found := by
      intro other hmem
      have hne : other ≠ key := fun heq => hnodup.1 (heq ▸ hmem)
      rw [erase_of_ne _ hne]
      exact hothers other hmem
    obtain ⟨values, rest, htake, hrest⟩ := ih hnodup.2 hkept
    refine ⟨value :: values, rest, takeAll_cons.2 ⟨value, values, hvalue, rfl, htake⟩, ?_⟩
    intro other
    rw [hrest other]
    by_cases heq : other = key
    · subst heq
      simp
    · simp [heq, erase_of_ne _ heq]

lemma exists_putAll (hnodup : (entries.map Prod.fst).Nodup)
    (habsent : ∀ key ∈ entries.map Prod.fst, store key = none) :
    ∃ rest, store.putAll entries = some rest := by
  induction entries generalizing store with
  | nil => exact ⟨store, rfl⟩
  | cons entry entries ih =>
    rw [map_cons, nodup_cons] at hnodup
    obtain ⟨hfirst, hothers⟩ := forall_mem_cons.1 habsent
    have hkept : ∀ key ∈ entries.map Prod.fst, store.insert entry.1 entry.2 key = none := by
      intro key hmem
      have hne : key ≠ entry.1 := fun heq => hnodup.1 (heq ▸ hmem)
      rw [insert_of_ne _ hne]
      exact hothers key hmem
    obtain ⟨rest, hput⟩ := ih hnodup.2 hkept
    exact ⟨rest, putAll_cons.2 ⟨hfirst, hput⟩⟩

lemma putAll_erase (hkey : store key = some value) (hput : store.putAll entries = some rest) :
    rest key = some value ∧ (store.erase key).putAll entries = some (rest.erase key) := by
  induction entries generalizing store with
  | nil =>
    cases hput
    exact ⟨hkey, rfl⟩
  | cons entry entries ih =>
    obtain ⟨habsent, hput⟩ := putAll_cons.1 hput
    have hne : entry.1 ≠ key := by
      rintro rfl
      rw [hkey] at habsent
      cases habsent
    have hkept : store.insert entry.1 entry.2 key = some value := by
      rw [insert_of_ne _ hne.symm, hkey]
    obtain ⟨hrest, herase⟩ := ih hkept hput
    refine ⟨hrest, putAll_cons.2 ⟨?_, ?_⟩⟩
    · rw [erase_of_ne _ hne, habsent]
    · rw [insert_erase_comm _ hne, herase]

lemma putAll_mem (hput : store.putAll entries = some rest) (hrest : rest key = some value) :
    store key = some value ∨ (key, value) ∈ entries := by
  induction entries generalizing store with
  | nil =>
    cases hput
    exact .inl hrest
  | cons entry entries ih =>
    obtain ⟨-, hput⟩ := putAll_cons.1 hput
    rcases ih hput with hbefore | hmem
    · by_cases heq : key = entry.1
      · rw [heq, insert_self, Option.some.injEq] at hbefore
        exact Or.inr (mem_cons.2 (Or.inl (Prod.ext heq hbefore.symm)))
      · rw [insert_of_ne _ heq] at hbefore
        exact .inl hbefore
    · exact .inr (mem_cons_of_mem _ hmem)

lemma putAll_of_takeAll (htake : store.takeAll keys = some (values, rest)) :
    rest.putAll (keys.zip values).reverse = some store := by
  induction keys generalizing store values with
  | nil =>
    cases htake
    rfl
  | cons key keys ih =>
    obtain ⟨value, others, hkey, rfl, hnext⟩ := takeAll_cons.1 htake
    rw [zip_cons_cons, reverse_cons, putAll_append, ih hnext, Option.bind_some, putAll_cons,
      erase_self]
    exact ⟨rfl, congrArg some (insert_erase hkey)⟩

lemma takeAll_of_putAll (hput : store.putAll entries = some rest) :
    rest.takeAll (entries.map Prod.fst) = some (entries.map Prod.snd, store) := by
  induction entries generalizing store rest with
  | nil =>
    cases hput
    rfl
  | cons entry entries ih =>
    obtain ⟨habsent, hput⟩ := putAll_cons.1 hput
    obtain ⟨hkey, herase⟩ := putAll_erase (insert_self store entry.1 entry.2) hput
    rw [erase_insert entry.2 habsent] at herase
    exact takeAll_cons.2 ⟨entry.2, entries.map Prod.snd, hkey, rfl, ih herase⟩

end Store

end Tidecoin.Lib
