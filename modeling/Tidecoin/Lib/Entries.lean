import Mathlib.Data.List.AList

/-!
Replacing the value of an entry of an association list, which keeps the order of the entries.
-/

namespace Tidecoin.Lib

open List

variable {κ : Type} [DecidableEq κ] {ν : κ → Type}

lemma kreplace_cons_self (key : κ) (value old : ν key) (entries : List (Sigma ν)) :
    kreplace key value (⟨key, old⟩ :: entries) = ⟨key, value⟩ :: entries :=
  lookmap_cons_some _ _ (if_pos rfl)

lemma kreplace_cons_of_ne {key : κ} {entry : Sigma ν} (hne : key ≠ entry.1) (value : ν key)
    (entries : List (Sigma ν)) :
    kreplace key value (entry :: entries) = entry :: kreplace key value entries :=
  lookmap_cons_none _ _ (if_neg hne)

lemma dlookup_kreplace_self {key : κ} {old : ν key} (value : ν key) (entries : List (Sigma ν))
    (h : entries.dlookup key = some old) :
    (kreplace key value entries).dlookup key = some value := by
  induction entries with
  | nil => cases h
  | cons entry entries ih =>
    obtain ⟨other, found⟩ := entry
    by_cases heq : key = other
    · subst heq
      rw [kreplace_cons_self, dlookup_cons_eq]
    · rw [dlookup_cons_ne _ _ heq] at h
      rw [kreplace_cons_of_ne heq, dlookup_cons_ne _ _ heq, ih h]

lemma dlookup_kreplace_of_ne {key other : κ} (hne : other ≠ key) (value : ν key)
    (entries : List (Sigma ν)) :
    (kreplace key value entries).dlookup other = entries.dlookup other := by
  induction entries with
  | nil => rfl
  | cons entry entries ih =>
    obtain ⟨place, found⟩ := entry
    by_cases heq : key = place
    · subst heq
      rw [kreplace_cons_self, dlookup_cons_ne _ _ hne, dlookup_cons_ne _ _ hne]
    · rw [kreplace_cons_of_ne heq]
      by_cases hplace : other = place
      · subst hplace
        rw [dlookup_cons_eq, dlookup_cons_eq]
      · rw [dlookup_cons_ne _ _ hplace, dlookup_cons_ne _ _ hplace, ih]

lemma kerase_eq_filter (key : κ) {entries : List (Sigma ν)} (hnodup : entries.NodupKeys) :
    kerase key entries = entries.filter fun entry => entry.1 ≠ key := by
  induction entries with
  | nil => rfl
  | cons entry entries ih =>
    obtain ⟨habsent, hrest⟩ := nodupKeys_cons.1 hnodup
    by_cases heq : key = entry.1
    · subst heq
      have hall : ∀ other ∈ entries, other.1 ≠ entry.1 := by
        intro other hother hkey
        exact habsent (hkey ▸ mem_keys_of_mem hother)
      rw [kerase_cons_eq rfl, filter_cons_of_neg (by simp), filter_eq_self.2]
      intro other hother
      simpa using hall other hother
    · rw [kerase_cons_ne heq, filter_cons_of_pos (by simpa using Ne.symm heq), ih hrest]

variable {entries : AList ν} {key : κ}

lemma lookup_replace_self {old : ν key} (value : ν key) (h : entries.lookup key = some old) :
    (entries.replace key value).lookup key = some value :=
  dlookup_kreplace_self value entries.entries h

lemma lookup_replace_of_ne {other : κ} (hne : other ≠ key) (value : ν key) :
    (entries.replace key value).lookup other = entries.lookup other :=
  dlookup_kreplace_of_ne hne value entries.entries

variable (key : κ) (value : ν key)

lemma kerase_kreplace (entries : List (Sigma ν)) :
    kerase key (kreplace key value entries) = kerase key entries := by
  induction entries with
  | nil => rfl
  | cons entry entries ih =>
    obtain ⟨other, old⟩ := entry
    by_cases heq : key = other
    · subst heq
      have herase : ∀ found : ν key, kerase key (⟨key, found⟩ :: entries) = entries :=
        fun found => kerase_cons_eq rfl
      rw [kreplace_cons_self, herase, herase]
    · rw [kreplace_cons_of_ne heq, kerase_cons_ne heq, kerase_cons_ne heq, ih]

lemma erase_replace : (entries.replace key value).erase key = entries.erase key :=
  AList.ext (kerase_kreplace key value entries.entries)

end Tidecoin.Lib
