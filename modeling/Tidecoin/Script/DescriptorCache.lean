import Tidecoin.Script.Descriptor

/-!
Expanding a descriptor from its cache: `ExpandFromCache`. A key that is derived is cached under the
number of its expression and its position, so the cache that an expansion has written answers for
every key as long as no two derived keys have the same number.
-/

namespace Tidecoin

open Lib AList CPubKey

open Option hiding guard

variable {cache writeCache rest : DescriptorCache} {pos : Int} {arg unused : SeedSource}
  {out : FlatSigningProvider}

namespace DescriptorCache

/-- The cache has the entries of the part. -/
def Extends (cache part : DescriptorCache) : Prop :=
  ∀ place pubkey, part.lookup place = some pubkey → cache.lookup place = some pubkey

/-- The merged cache has the entries of the cache and those of the difference, which are new. -/
structure Merges (cache merged diff : DescriptorCache) : Prop where
  lookup : ∀ place, merged.lookup place = (cache.lookup place).or (diff.lookup place)
  fresh : ∀ place key, diff.lookup place = some key → cache.lookup place = none

variable {merged diff : DescriptorCache} {P : Nat × Nat → CPubKey → Prop}
  {result : DescriptorCache × DescriptorCache}

lemma Merges.kept (h : cache.Merges merged diff) {place : Nat × Nat} {key : CPubKey}
    (hkey : cache.lookup place = some key) : merged.lookup place = some key := by
  rw [h.lookup, hkey, some_or]

lemma mergeEntry_spec {entry : (_ : Nat × Nat) × CPubKey}
    (h : mergeEntry (merged, diff) entry = some result) (hmerges : cache.Merges merged diff)
    (hentry : P entry.1 entry.2) (hdiff : ∀ place key, diff.lookup place = some key → P place key) :
    cache.Merges result.1 result.2 ∧ (∀ place key, result.2.lookup place = some key → P place key) ∧
      result.1.Extends merged ∧ result.1.lookup entry.1 = some entry.2 := by
  obtain ⟨place, key⟩ := entry
  unfold mergeEntry getCachedDerivedPubKey at h
  cases hfound : merged.lookup place with
  | some found =>
    simp only [hfound, elim_some] at h
    split at h
    · cases h
    · next hsame =>
      cases h
      exact ⟨hmerges, hdiff, fun _ _ hkey => hkey, hfound.trans (congrArg some (not_not.1 hsame))⟩
  | none =>
    simp only [Prod.mk.eta, hfound, elim_none, some_inj, cacheDerivedPubKey] at h
    subst h
    have hnone := hmerges.lookup place
    rw [hfound] at hnone
    obtain ⟨hcache, -⟩ := or_eq_none_iff.1 hnone.symm
    refine ⟨⟨fun other => ?_, fun other found hother => ?_⟩, fun other found hother => ?_,
      fun other found hother => ?_, lookup_insert _⟩
    · by_cases heq : other = place
      · subst heq
        rw [lookup_insert, lookup_insert, hcache, none_or]
      · rw [lookup_insert_ne heq, lookup_insert_ne heq, hmerges.lookup]
    · by_cases heq : other = place
      · subst heq
        exact hcache
      · rw [lookup_insert_ne heq] at hother
        exact hmerges.fresh other found hother
    · by_cases heq : other = place
      · subst heq
        rw [lookup_insert, some_inj] at hother
        subst hother
        exact hentry
      · rw [lookup_insert_ne heq] at hother
        exact hdiff other found hother
    · rw [lookup_insert_ne, hother]
      rintro rfl
      cases hother.symm.trans hfound

lemma foldlM_mergeEntry (entries : List (Sigma fun _ : Nat × Nat => CPubKey)) :
    ∀ {merged diff : DescriptorCache},
      entries.foldlM mergeEntry (merged, diff) = some result → cache.Merges merged diff →
      (∀ entry ∈ entries, P entry.1 entry.2) →
      (∀ place key, diff.lookup place = some key → P place key) →
      cache.Merges result.1 result.2 ∧ (∀ place key, result.2.lookup place = some key →
        P place key) ∧
        result.1.Extends merged ∧ ∀ entry ∈ entries, result.1.lookup entry.1 = some entry.2 := by
  induction entries with
  | nil =>
    rintro merged diff ⟨rfl⟩ hmerges _ hdiff
    exact ⟨hmerges, hdiff, fun _ _ hkey => hkey, fun _ hentry => nomatch hentry⟩
  | cons entry entries ih =>
    intro merged diff h hmerges hentries hdiff
    simp only [List.foldlM_cons, bind_eq_bind, bind_eq_some_iff] at h
    obtain ⟨⟨merged', diff'⟩, hfirst, hothers⟩ := h
    obtain ⟨hentry, hlater⟩ := List.forall_mem_cons.1 hentries
    obtain ⟨hmerges', hdiff', hkept, htaken⟩ := mergeEntry_spec hfirst hmerges hentry hdiff
    obtain ⟨hresult, hnew, hextends, hothers⟩ := ih hothers hmerges' hlater hdiff'
    exact ⟨hresult, hnew, fun _ _ hkey => hextends _ _ (hkept _ _ hkey),
      List.forall_mem_cons.2 ⟨hextends _ _ htaken, hothers⟩⟩

lemma mergeAndDiff_spec {other : DescriptorCache} (h : cache.mergeAndDiff other = some result)
    (hother : ∀ place key, other.lookup place = some key → P place key) :
    cache.Merges result.1 result.2 ∧ (∀ place key, result.2.lookup place = some key → P place key) ∧
      result.1.Extends cache ∧ result.1.Extends other := by
  obtain ⟨hmerges, hdiff, hkept, htaken⟩ := foldlM_mergeEntry other.entries h
    (⟨fun place => by rw [lookup_empty, or_none], fun _ _ hkey => nomatch hkey⟩ : cache.Merges
      cache ∅)
    (fun entry hentry => hother _ _ (mem_lookup_iff.2 hentry)) fun _ _ hkey => nomatch hkey
  exact ⟨hmerges, hdiff, hkept, fun place key hkey => htaken ⟨place, key⟩ (mem_lookup_iff.1 hkey)⟩

/-- The caches that merging makes of a cache, whichever cache `MergeAndDiff` is called on. -/
inductive MergedFrom (cache : DescriptorCache) : DescriptorCache → Prop
  | written : MergedFrom cache cache
  | merge {merged other : DescriptorCache} {result : DescriptorCache × DescriptorCache} :
      MergedFrom cache merged → merged.mergeAndDiff other = some result → MergedFrom cache result.1
  | mergeInto {merged other : DescriptorCache} {result : DescriptorCache × DescriptorCache} :
      MergedFrom cache merged → other.mergeAndDiff merged = some result → MergedFrom cache result.1

lemma MergedFrom.extends (h : cache.MergedFrom merged) : merged.Extends cache := by
  induction h with
  | written => exact fun _ _ hkey => hkey
  | merge _ hmerge ih =>
    exact fun _ _ hkey => (mergeAndDiff_spec (P := fun _ _ => True) hmerge fun _ _ _ =>
      trivial).2.2.1 _ _ (ih _ _ hkey)
  | mergeInto _ hmerge ih =>
    exact fun _ _ hkey => (mergeAndDiff_spec (P := fun _ _ => True) hmerge fun _ _ _ =>
      trivial).2.2.2 _ _ (ih _ _ hkey)

end DescriptorCache

lemma CPubKey.head_of_isValid_set {chHeader : UInt8} {pk : List UInt8}
    (h : (set (chHeader :: pk)).isValid) :
    (set (chHeader :: pk)).vch.head? = some chHeader := by
  unfold set at h ⊢
  split
  · rfl
  · rw [dif_neg ‹_›] at h
    cases h

namespace PubkeyProvider

/-- Where the key of an expression is cached. A key that is written out is not. -/
def cachePlace (pos : Int) : PubkeyProvider → Option (Nat × Nat)
  | const _ _ => none
  | pqhd exprIndex _ _ derive _ => some (exprIndex, derIndex derive pos.toNat)

/-- Two keys that are derived have different numbers. -/
def Apart (key other : PubkeyProvider) : Prop :=
  key.getPQHDKeyPathInfo.isSome → other.getPQHDKeyPathInfo.isSome →
    key.getExpressionIndex ≠ other.getExpressionIndex

lemma Apart.cachePlace_ne {key other : PubkeyProvider} (h : key.Apart other) {pos : Int}
    {place : Nat × Nat}
    (hplace : key.cachePlace pos = some place) : other.cachePlace pos ≠ some place := by
  rintro hsame
  cases key with
  | const => cases hplace
  | pqhd =>
    cases other with
    | const => cases hsame
    | pqhd =>
      cases hplace
      exact h rfl rfl (congrArg Prod.fst (some_inj.1 hsame)).symm

variable [Crypto] [PqhdKeys]

omit [Crypto] in
lemma deriveLeaf_checked {masterSeed : Bytes} {path : List UInt32} {derive : DeriveType}
    {schemePrefix : UInt8}
    {index : Nat} {secret : CKey}
    (h : deriveLeaf masterSeed path derive schemePrefix index = some secret) :
    secret.pubkey.isValid ∧ secret.pubkey.vch.head? = some schemePrefix := by
  simp only [deriveLeaf, bind_eq_bind, bind_eq_some_iff, pure_def, some_inj] at h
  obtain ⟨_, -, _, -, ⟨pkRaw, skRaw⟩, -, _, hvalid, rfl⟩ := h
  have hvalid : (set (schemePrefix :: pkRaw)).isValid := by
    by_contra hinvalid
    simp [guard, hinvalid] at hvalid
  exact ⟨hvalid, head_of_isValid_set hvalid⟩

/-- The cache after an expression has answered, and the same answer from a cache that has its key.
-/
lemma getPubKey_cached {key : PubkeyProvider} {expanded : Expanded CPubKey}
    (h : key.getPubKey pos arg out none writeCache = some expanded) :
    (∀ place, expanded.writeCache.lookup place =
      if key.cachePlace pos = some place then some expanded.result else writeCache.lookup place) ∧
    ∀ cache : DescriptorCache,
      (∀ place, key.cachePlace pos = some place → cache.lookup place = some expanded.result) →
      key.getPubKey pos unused out (some cache) rest =
        some ⟨expanded.result, expanded.out, rest⟩ := by
  cases key with
  | const exprIndex pubkey =>
    simp only [getPubKey, some_inj] at h
    subst h
    exact ⟨fun place => (if_neg (by simp [cachePlace])).symm, fun cache _ => rfl⟩
  | pqhd exprIndex seedId path derive schemePrefix =>
    simp only [getPubKey] at h ⊢
    split at h
    · cases h
    · simp only [bind_eq_bind, bind_eq_some_iff, pure_def, some_inj] at h
      obtain ⟨masterSeed, -, secret, hsecret, rfl⟩ := h
      refine ⟨fun place => ?_, fun cache hcache => ?_⟩
      · simp only [cachePlace, some_inj, DescriptorCache.cacheDerivedPubKey]
        split
        case isTrue heq => rw [← heq, lookup_insert]
        case isFalse hne => rw [lookup_insert_ne (Ne.symm hne)]
      · rw [if_neg ‹_›, DescriptorCache.getCachedDerivedPubKey, hcache _ rfl]
        simp [guard, deriveLeaf_checked hsecret]

lemma getPubKeys_cached {keys : List PubkeyProvider} (hapart : keys.Pairwise Apart) :
    ∀ {out : FlatSigningProvider} {writeCache : DescriptorCache}
      {expanded : Expanded (List CPubKey)},
      getPubKeys keys pos arg out none writeCache = some expanded →
      (∀ place, (∀ key ∈ keys, key.cachePlace pos ≠ some place) →
        expanded.writeCache.lookup place = writeCache.lookup place) ∧
      ∀ cache : DescriptorCache, cache.Extends expanded.writeCache →
        getPubKeys keys pos unused out (some cache) rest =
          some ⟨expanded.result, expanded.out, rest⟩ := by
  induction hapart with
  | nil =>
    rintro out writeCache expanded ⟨rfl⟩
    exact ⟨fun _ _ => rfl, fun _ _ => rfl⟩
  | @cons key keys hkey _ ih =>
    intro out writeCache expanded h
    simp only [getPubKeys, bind_eq_bind, bind_eq_some_iff, pure_def,
      some_inj] at h ⊢
    obtain ⟨first, hfirst, others, hothers, rfl⟩ := h
    obtain ⟨hwritten, hread⟩ := getPubKey_cached hfirst
    obtain ⟨hframe, hrest⟩ := ih hothers
    refine ⟨fun place hplace => ?_, fun cache hcache => ⟨_, hread cache fun place hplace => ?_, _,
      hrest cache hcache, rfl⟩⟩
    · obtain ⟨hne, hlater⟩ := List.forall_mem_cons.1 hplace
      rw [hframe place hlater, hwritten, if_neg hne]
    · -- The later keys have other numbers, so the entry is still there at the end.
      apply hcache
      rw [hframe place fun later hlater => (hkey later hlater).cachePlace_ne hplace, hwritten,
        if_pos hplace]

end PubkeyProvider

namespace Descriptor

/-- The derived keys have numbers of their own. -/
def Numbered (desc : Descriptor) : Prop := desc.pubkeyArgs.Pairwise PubkeyProvider.Apart

variable [Crypto] [PqhdKeys] {expanded : Expanded (List Bytes)}

lemma getPubKeys_singleton {key : PubkeyProvider} {readCache : Option DescriptorCache} :
    PubkeyProvider.getPubKeys [key] pos arg out readCache writeCache =
      (key.getPubKey pos arg out readCache writeCache).map fun sub =>
        ⟨[sub.result], sub.out, sub.writeCache⟩ := by
  cases h : key.getPubKey pos arg out readCache writeCache <;> simp [PubkeyProvider.getPubKeys, h]

/-- The scripts and the material of a descriptor are made of its keys, whether these were derived or
read from a cache. -/
theorem expandHelper_getPubKeys (desc : Descriptor) : ∀ {out readCache writeCache expanded},
    desc.expandHelper pos arg readCache out writeCache = some expanded →
    ∃ sub, PubkeyProvider.getPubKeys desc.pubkeyArgs pos arg .empty readCache writeCache =
      some sub ∧
      expanded.writeCache = sub.writeCache ∧ ∀ arg readCache writeCache last,
        PubkeyProvider.getPubKeys desc.pubkeyArgs pos arg .empty readCache writeCache =
          some ⟨sub.result, sub.out, last⟩ →
        desc.expandHelper pos arg readCache out writeCache =
          some ⟨expanded.result, expanded.out, last⟩ := by
  induction desc with
  | addr | raw =>
    rintro out readCache writeCache expanded ⟨rfl⟩
    refine ⟨_, rfl, rfl, ?_⟩
    rintro _ _ _ last ⟨rfl⟩
    rfl
  | pk key | pkh key | wpkh key | combo key =>
    intro out readCache writeCache expanded h
    simp only [expandHelper, expandKey, bind_eq_bind, bind_eq_some_iff, pure_def, some_inj] at h ⊢
    obtain ⟨⟨pubkey, material, written⟩, hsub, rfl⟩ := h
    refine ⟨_, by rw [pubkeyArgs, getPubKeys_singleton, hsub, map_some], rfl, fun _ _ _ last h =>
      ?_⟩
    rw [pubkeyArgs, getPubKeys_singleton, map_eq_some_iff] at h
    obtain ⟨⟨pubkey', material', written'⟩, hagain, heq⟩ := h
    cases heq
    exact ⟨_, hagain, rfl⟩
  | multi | miniscript =>
    intro out readCache writeCache expanded h
    simp only [expandHelper, bind_eq_bind, bind_eq_some_iff, pure_def, some_inj] at h ⊢
    obtain ⟨sub, hsub, rfl⟩ := h
    exact ⟨sub, hsub, rfl, fun _ _ _ last h => ⟨_, h, rfl⟩⟩
  | sh desc ih | wsh desc ih | wsh512 desc ih =>
    intro out readCache writeCache expanded h
    simp only [expandHelper, expandSub, bind_eq_bind, bind_eq_some_iff, pure_def, some_inj] at h ⊢
    obtain ⟨inner, hinner, script, hscript, rfl⟩ := h
    obtain ⟨sub, hsub, hwritten, hagain⟩ := ih hinner
    exact ⟨sub, hsub, hwritten, fun _ _ _ last h => ⟨_, hagain _ _ _ _ h, script, hscript, rfl⟩⟩

end Descriptor

end Tidecoin
