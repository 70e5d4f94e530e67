import Tidecoin.Net.CompactScan

/-!
The ring of extra transactions in `InitData`. What the scans leave for a short id depends only on
the transactions with it that they read: one is taken, and the id is given up for a second one in
the mempool or one with another witness hash. A scan stops when every announced id has its
transaction.

An empty slot of the ring is compared or installed like a transaction when the message announces the
short id of the zero hash, unless the scans have stopped before it or the id is given up.
-/

namespace Tidecoin

open Lib CBlockHeaderAndShortTxIDs List PartiallyDownloadedBlock

variable {cmpctblock : CBlockHeaderAndShortTxIDs} {block : PartiallyDownloadedBlock}
  {shorttxids : ShortIdMap} {base : List (Option CTransaction)} {pool extras : List CTransaction}
  {scan : Scan}

/-- The part of a list that a loop reads: it stops after the element with which `done` holds of what
was read. -/
def readUntil {α : Type} (done : List α → Prop) [DecidablePred done] :
    (taken : List α) → List α → List α
  | taken, [] => taken
  | taken, element :: rest =>
    if done (taken ++ [element]) then taken ++ [element]
    else readUntil done (taken ++ [element]) rest

section

variable [Crypto]

/-- Two transactions of the mempool, or two different ones, compete for a short id. -/
def Conflict (pooled others : List CTransaction) : Prop :=
  2 ≤ pooled.length ∨ ∃ first ∈ pooled ++ others, ∃ second ∈ pooled ++ others,
    first.getWitnessHash ≠ second.getWitnessHash

instance (pooled others : List CTransaction) : Decidable (Conflict pooled others) :=
  inferInstanceAs (Decidable (_ ∨ _))

namespace CBlockHeaderAndShortTxIDs

variable (cmpctblock : CBlockHeaderAndShortTxIDs)

/-- The transactions with a short id of the message. -/
def withId (shortid : BitVec 64) (txs : List CTransaction) : List CTransaction :=
  txs.filter fun tx => cmpctblock.getShortID tx.getWitnessHash = shortid

/-- A short id is given up, for what was read of the mempool and of the ring. -/
def GivenUp (shortid : BitVec 64) (pool extras : List CTransaction) : Prop :=
  Conflict (cmpctblock.withId shortid pool) (cmpctblock.withId shortid extras)

instance (shortid : BitVec 64) (pool extras : List CTransaction) :
    Decidable (cmpctblock.GivenUp shortid pool extras) :=
  inferInstanceAs (Decidable (Conflict _ _))

/-- Every announced short id has a transaction and is not given up. -/
def AllFound (pool extras : List CTransaction) : Prop :=
  ∀ shortid ∈ cmpctblock.shorttxids,
    cmpctblock.withId shortid pool ++ cmpctblock.withId shortid extras ≠ [] ∧
      ¬cmpctblock.GivenUp shortid pool extras

instance (pool extras : List CTransaction) : Decidable (cmpctblock.AllFound pool extras) :=
  inferInstanceAs (Decidable (∀ _ ∈ _, _ ∧ _))

/-- The part of the mempool that is read. -/
def readPool (pool : List CTransaction) : List CTransaction :=
  readUntil (fun taken => cmpctblock.AllFound taken []) [] pool

/-- The part of the extra transactions that is read. The first one is read in any case. -/
def readExtras (pool extras : List CTransaction) : List CTransaction :=
  readUntil (cmpctblock.AllFound (cmpctblock.readPool pool)) [] extras

lemma withId_concat_self {shortid : BitVec 64} {tx : CTransaction}
    (hid : cmpctblock.getShortID tx.getWitnessHash = shortid) (txs : List CTransaction) :
    cmpctblock.withId shortid (txs ++ [tx]) = cmpctblock.withId shortid txs ++ [tx] := by
  simp [withId, hid]

lemma withId_concat_of_ne {shortid : BitVec 64} {tx : CTransaction}
    (hid : shortid ≠ cmpctblock.getShortID tx.getWitnessHash) (txs : List CTransaction) :
    cmpctblock.withId shortid (txs ++ [tx]) = cmpctblock.withId shortid txs := by
  simp [withId, Ne.symm hid]

end CBlockHeaderAndShortTxIDs

end

namespace Ready

variable (hready : Ready cmpctblock block shorttxids)
include hready

lemma lookup_injective {first second : BitVec 64} {position : Nat}
    (hfirst : shorttxids.lookup first = some position)
    (hsecond : shorttxids.lookup second = some position) : first = second := by
  have hnodup : (cmpctblock.announced.map Prod.fst).Nodup := by
    rw [announced, map_fst_zip hready.missing.le]
    exact nodup_range.filter _
  exact congrArg Prod.snd (inj_on_of_nodup_map hnodup ((hready.lookup _ _).1 hfirst)
    ((hready.lookup _ _).1 hsecond) rfl)

lemma exists_lookup_of_mem {shortid : BitVec 64} (hmem : shortid ∈ cmpctblock.shorttxids) :
    ∃ position, shorttxids.lookup shortid = some position := by
  rw [← map_snd_zip hready.missing.ge] at hmem
  obtain ⟨⟨position, _⟩, hpair, rfl⟩ := mem_map.1 hmem
  exact ⟨position, (hready.lookup _ _).2 hpair⟩

lemma exists_id_of_missing {position : Nat} (hmem : position ∈ cmpctblock.missing) :
    ∃ shortid ∈ cmpctblock.shorttxids, shorttxids.lookup shortid = some position := by
  rw [← map_fst_zip hready.missing.le] at hmem
  obtain ⟨⟨_, shortid⟩, hpair, rfl⟩ := mem_map.1 hmem
  exact ⟨shortid, (of_mem_zip hpair).2, (hready.lookup _ _).2 hpair⟩

lemma mem_of_lookup {shortid : BitVec 64} {position : Nat}
    (hlookup : shorttxids.lookup shortid = some position) : shortid ∈ cmpctblock.shorttxids :=
  (of_mem_zip ((hready.lookup _ _).1 hlookup)).2

end Ready

namespace Scan

variable [Crypto]

/-- What stands at a position after transactions of the mempool and of the ring with its short id
were read. -/
def Outcome (pooled others : List CTransaction) : TxSource → Option CTransaction → Prop
  | .none, _ => pooled = [] ∧ others = []
  | .mempool, tx => ∃ held, tx = some held ∧ pooled = [held] ∧
      ∀ other ∈ others, other.getWitnessHash = held.getWitnessHash
  | .extra, tx => ∃ held rest, tx = some held ∧ pooled = [] ∧ others = held :: rest ∧
      ∀ other ∈ rest, other.getWitnessHash = held.getWitnessHash
  | .collided, _ => Conflict pooled others

lemma not_conflict_of_hash {pooled others : List CTransaction} (hash : Uint256)
    (hpooled : pooled.length < 2) (hsame : ∀ tx ∈ pooled ++ others, tx.getWitnessHash = hash) :
    ¬Conflict pooled others := by
  rintro (hmany | ⟨first, hfirst, second, hsecond, hne⟩)
  · exact hpooled.not_ge hmany
  · exact hne ((hsame first hfirst).trans (hsame second hsecond).symm)

section

variable {pooled others : List CTransaction} {source : TxSource} {tx : Option CTransaction}
  (houtcome : Outcome pooled others source tx)
include houtcome

lemma Outcome.collided_iff : source = .collided ↔ Conflict pooled others := by
  cases source with
  | none =>
    obtain ⟨rfl, rfl⟩ := houtcome
    exact iff_of_false nofun (not_conflict_of_hash 0 (by decide) nofun)
  | mempool =>
    obtain ⟨held, -, rfl, hsame⟩ := houtcome
    refine iff_of_false nofun (not_conflict_of_hash held.getWitnessHash one_lt_two ?_)
    exact forall_mem_cons.2 ⟨rfl, hsame⟩
  | extra =>
    obtain ⟨held, rest, -, rfl, rfl, hsame⟩ := houtcome
    refine iff_of_false nofun (not_conflict_of_hash held.getWitnessHash (by decide) ?_)
    exact forall_mem_cons.2 ⟨rfl, hsame⟩
  | collided => exact iff_of_true rfl houtcome

lemma Outcome.found_iff :
    source.found = true ↔ pooled ++ others ≠ [] ∧ ¬Conflict pooled others := by
  rw [← houtcome.collided_iff]
  cases source with
  | none =>
    obtain ⟨rfl, rfl⟩ := houtcome
    exact iff_of_false nofun fun hfound => hfound.1 rfl
  | mempool =>
    obtain ⟨held, -, rfl, -⟩ := houtcome
    exact iff_of_true rfl ⟨cons_ne_nil _ _, nofun⟩
  | extra =>
    obtain ⟨held, rest, -, rfl, rfl, -⟩ := houtcome
    exact iff_of_true rfl ⟨cons_ne_nil _ _, nofun⟩
  | collided => exact iff_of_false nofun fun hfound => hfound.2 rfl

end

/-- A scan that writes one position. -/
lemma outcome_set {pooled others : List CTransaction} {tx : Option CTransaction} {position : Nat}
    (source : TxSource) (hsource : position < scan.txSource.length)
    (havailable : position < scan.txnAvailable.length)
    (houtcome : Outcome pooled others source tx) (mempoolCount extraCount : Nat) :
    let next : Scan := ⟨scan.txnAvailable.set position tx, scan.txSource.set position source,
      mempoolCount, extraCount⟩
    Outcome pooled others (next.source position) (next.available position) ∧
      ∀ other ≠ position, next.source other = scan.source other ∧
        next.available other = scan.available other := by
  intro next
  have hget : ∀ other, next.source other = (if other = position then source else
      scan.source other) ∧ next.available other = if other = position then tx else
        scan.available other :=
    fun other => ⟨getD_set hsource .., getD_set havailable ..⟩
  refine ⟨?_, fun other hne => ?_⟩
  · rw [(hget position).1, (hget position).2, if_pos rfl, if_pos rfl]
    exact houtcome
  · rw [(hget other).1, (hget other).2, if_neg hne, if_neg hne]
    exact ⟨rfl, rfl⟩

section

variable {position : Nat} (hsource : position < scan.txSource.length)
  (havailable : position < scan.txnAvailable.length)
include hsource havailable

lemma matchMempool_outcome {pooled : List CTransaction}
    (houtcome : Outcome pooled [] (scan.source position) (scan.available position))
    (tx : CTransaction) :
    Outcome (pooled ++ [tx]) [] ((scan.matchMempool position tx).source position)
        ((scan.matchMempool position tx).available position) ∧
      ∀ other ≠ position, (scan.matchMempool position tx).source other = scan.source other ∧
        (scan.matchMempool position tx).available other = scan.available other := by
  unfold Scan.matchMempool
  cases hkind : scan.source position with
  | none =>
    rw [hkind] at houtcome
    obtain ⟨rfl, -⟩ := houtcome
    exact outcome_set .mempool hsource havailable
      ⟨tx, rfl, rfl, forall_mem_nil _⟩ _ _
  | mempool =>
    rw [hkind] at houtcome
    obtain ⟨held, -, rfl, -⟩ := houtcome
    exact outcome_set .collided hsource havailable (.inl (le_refl 2)) _ _
  | extra =>
    rw [hkind] at houtcome
    obtain ⟨_, _, -, -, hnil, -⟩ := houtcome
    cases hnil
  | collided =>
    dsimp only
    rw [hkind] at houtcome ⊢
    refine ⟨?_, fun _ _ => ⟨rfl, rfl⟩⟩
    rcases houtcome with hmany | ⟨first, hfirst, second, hsecond, hne⟩
    · exact .inl (by rw [length_append]; omega)
    · rw [append_nil] at hfirst hsecond
      refine .inr ⟨first, ?_, second, ?_, hne⟩
      · rw [append_nil]
        exact mem_append_left _ hfirst
      · rw [append_nil]
        exact mem_append_left _ hsecond

lemma compareExtra_outcome {pooled others : List CTransaction} {tx held : CTransaction}
    {next : Scan} (hheld : scan.available position = some held) (hmem : held ∈ pooled ++ others)
    (hsame : tx.getWitnessHash = held.getWitnessHash →
      Outcome pooled (others ++ [tx]) (scan.source position) (scan.available position))
    (hnext : scan.compareExtra position (some tx) = .ok next) :
    Outcome pooled (others ++ [tx]) (next.source position) (next.available position) ∧
      ∀ other ≠ position, next.source other = scan.source other ∧
        next.available other = scan.available other := by
  unfold Scan.compareExtra at hnext
  rw [hheld] at hnext
  dsimp only at hnext
  split at hnext
  case isTrue hne =>
    cases hnext
    refine outcome_set .collided hsource havailable (.inr ⟨held, ?_, tx, ?_, hne⟩) _ _
    · rw [← append_assoc]
      exact mem_append_left _ hmem
    · rw [← append_assoc]
      exact mem_append_right _ mem_cons_self
  case isFalse heq =>
    cases hnext
    exact ⟨hsame (not_ne_iff.1 heq).symm, fun _ _ => ⟨rfl, rfl⟩⟩

lemma matchExtra_outcome {pooled others : List CTransaction} {tx : CTransaction} {next : Scan}
    (houtcome : Outcome pooled others (scan.source position) (scan.available position))
    (hnext : scan.matchExtra position (some tx) = .ok next) :
    Outcome pooled (others ++ [tx]) (next.source position) (next.available position) ∧
      ∀ other ≠ position, next.source other = scan.source other ∧
        next.available other = scan.available other := by
  unfold Scan.matchExtra at hnext
  cases hkind : scan.source position with
  | none =>
    rw [hkind] at houtcome hnext
    obtain ⟨rfl, rfl⟩ := houtcome
    cases hnext
    exact outcome_set .extra hsource havailable ⟨tx, [], rfl, rfl, rfl, nofun⟩ _ _
  | mempool =>
    rw [hkind] at houtcome hnext
    obtain ⟨held, hheld, rfl, hothers⟩ := houtcome
    refine compareExtra_outcome hsource havailable hheld mem_cons_self (fun hsame => ?_) hnext
    rw [hkind]
    refine ⟨held, hheld, rfl, fun other hother => ?_⟩
    rcases mem_append.1 hother with hother | hother
    · exact hothers other hother
    · rwa [mem_singleton.1 hother]
  | extra =>
    rw [hkind] at houtcome hnext
    obtain ⟨held, rest, hheld, rfl, rfl, hothers⟩ := houtcome
    refine compareExtra_outcome hsource havailable hheld mem_cons_self (fun hsame => ?_) hnext
    rw [hkind]
    refine ⟨held, rest ++ [tx], hheld, rfl, rfl, fun other hother => ?_⟩
    rcases mem_append.1 hother with hother | hother
    · exact hothers other hother
    · rwa [mem_singleton.1 hother]
  | collided =>
    rw [hkind] at houtcome hnext
    cases hnext
    rw [hkind]
    refine ⟨?_, fun _ _ => ⟨rfl, rfl⟩⟩
    rcases houtcome with hmany | ⟨first, hfirst, second, hsecond, hne⟩
    · exact .inl hmany
    · rw [Outcome, Conflict, ← append_assoc]
      exact .inr ⟨first, mem_append_left _ hfirst, second, mem_append_left _ hsecond, hne⟩

end

/-- Every announced position is as the transactions say that were read. -/
def Tracks (cmpctblock : CBlockHeaderAndShortTxIDs) (shorttxids : ShortIdMap)
    (pool extras : List CTransaction) (scan : Scan) : Prop :=
  ∀ shortid position, shorttxids.lookup shortid = some position →
    Outcome (cmpctblock.withId shortid pool) (cmpctblock.withId shortid extras)
      (scan.source position) (scan.available position)

section

variable (hready : Ready cmpctblock block shorttxids)
include hready

omit hready in
lemma tracks_start : block.startScan.Tracks cmpctblock shorttxids [] [] := by
  intro shortid position _
  rw [startScan_source]
  exact ⟨rfl, rfl⟩

variable {read seen : List CTransaction} {next : Scan} {tx : CTransaction}

/-- Everything is found when the counter has reached the number of short ids. -/
lemma Tracks.allFound_iff
    (hscan : scan.Invariant cmpctblock shorttxids block.txnAvailable pool extras)
    (htracks : scan.Tracks cmpctblock shorttxids read seen) :
    scan.mempoolCount = shorttxids.entries.length ↔ cmpctblock.AllFound read seen := by
  -- The found positions are among the missing ones, which are as many as the short ids.
  have hcount : scan.mempoolCount = ((Finset.range cmpctblock.blockTxCount).filter
      fun position => (scan.source position).found).card := by
    rw [hscan.mempoolCount, countP_eq_card, hscan.sourceLength, hready.length]
    rfl
  have hsub : (Finset.range cmpctblock.blockTxCount).filter
      (fun position => (scan.source position).found) ⊆ cmpctblock.missing.toFinset := by
    intro position hmem
    obtain ⟨hrange, hfound⟩ := Finset.mem_filter.1 hmem
    exact mem_toFinset.2 ((hscan.found_iff hready (Finset.mem_range.1 hrange)).1 hfound).1
  have hcard : cmpctblock.missing.toFinset.card = shorttxids.entries.length := by
    have hnodup : cmpctblock.missing.Nodup := nodup_range.filter _
    rw [toFinset_card_of_nodup hnodup, hready.missing, hready.size]
  constructor
  · intro hall shortid hmem
    have heq := Finset.eq_of_subset_of_card_le hsub (by rw [hcard, ← hall, hcount])
    obtain ⟨position, hlookup⟩ := hready.exists_lookup_of_mem hmem
    have hposition := mem_toFinset.2 (hready.missing_of_lookup hlookup)
    rw [← heq] at hposition
    exact (htracks shortid position hlookup).found_iff.1 (Finset.mem_filter.1 hposition).2
  · intro hall
    rw [hcount, ← hcard]
    refine congrArg _ (hsub.antisymm fun position hmem => ?_)
    have hmissing := mem_toFinset.1 hmem
    obtain ⟨shortid, hid, hlookup⟩ := hready.exists_id_of_missing hmissing
    exact Finset.mem_filter.2 ⟨Finset.mem_range.2 (mem_range.1 (mem_filter.1 hmissing).1),
      (htracks shortid position hlookup).found_iff.2 (hall shortid hid)⟩

/-- One transaction more: its position changes as it says and no other one does. -/
lemma Tracks.step {read' seen' : List CTransaction} (id : BitVec 64)
    (htracks : scan.Tracks cmpctblock shorttxids read seen)
    (hothers : ∀ shortid ≠ id, cmpctblock.withId shortid read' = cmpctblock.withId shortid read ∧
      cmpctblock.withId shortid seen' = cmpctblock.withId shortid seen)
    (hstep : ∀ position, shorttxids.lookup id = some position →
      Outcome (cmpctblock.withId id read') (cmpctblock.withId id seen') (next.source position)
          (next.available position) ∧
        ∀ other ≠ position, next.source other = scan.source other ∧
          next.available other = scan.available other)
    (hnone : shorttxids.lookup id = none → next = scan) :
    next.Tracks cmpctblock shorttxids read' seen' := by
  intro shortid position hlookup
  by_cases heq : shortid = id
  · rw [heq] at hlookup ⊢
    exact (hstep position hlookup).1
  · rw [(hothers shortid heq).1, (hothers shortid heq).2]
    cases hid : shorttxids.lookup id with
    | none =>
      rw [hnone hid]
      exact htracks shortid position hlookup
    | some place =>
      have hne : position ≠ place := by
        rintro rfl
        exact heq (hready.lookup_injective hlookup hid)
      obtain ⟨hsource, havailable⟩ := (hstep place hid).2 position hne
      rw [hsource, havailable]
      exact htracks shortid position hlookup

lemma Tracks.mempoolStep
    (hscan : scan.Invariant cmpctblock shorttxids block.txnAvailable pool [])
    (htracks : scan.Tracks cmpctblock shorttxids read []) (tx : CTransaction) :
    (scan.mempoolStep cmpctblock shorttxids tx).Tracks cmpctblock shorttxids (read ++ [tx])
      [] := by
  refine htracks.step hready (cmpctblock.getShortID tx.getWitnessHash) ?_ ?_ ?_
  · exact fun shortid hne => ⟨cmpctblock.withId_concat_of_ne hne read, rfl⟩
  · intro position hlookup
    have hposition := (hready.lookup_free _ _ hlookup).1
    rw [Scan.mempoolStep, hlookup, withId_concat_self _ rfl]
    exact matchMempool_outcome (hscan.sourceLength ▸ hposition)
      (hscan.availableLength ▸ hposition) (htracks _ position hlookup) tx
  · intro hlookup
    rw [Scan.mempoolStep, hlookup]

lemma Tracks.extraStep
    (hscan : scan.Invariant cmpctblock shorttxids block.txnAvailable pool extras)
    (htracks : scan.Tracks cmpctblock shorttxids read seen)
    (hnext : scan.extraStep cmpctblock shorttxids (ExtraTxns.filledSlot tx) = .ok next) :
    next.Tracks cmpctblock shorttxids read (seen ++ [tx]) := by
  rw [Scan.extraStep] at hnext
  dsimp only [ExtraTxns.filledSlot] at hnext
  refine htracks.step hready (cmpctblock.getShortID tx.getWitnessHash) ?_ ?_ ?_
  · exact fun shortid hne => ⟨rfl, cmpctblock.withId_concat_of_ne hne seen⟩
  · intro position hlookup
    have hposition := (hready.lookup_free _ _ hlookup).1
    rw [hlookup] at hnext
    rw [withId_concat_self _ rfl]
    exact matchExtra_outcome (hscan.sourceLength ▸ hposition)
      (hscan.availableLength ▸ hposition) (htracks _ position hlookup) hnext
  · intro hlookup
    rw [hlookup] at hnext
    cases hnext
    rfl

lemma Tracks.scanMempool {rest : List CTransaction} (hrest : rest ⊆ pool)
    (hscan : scan.Invariant cmpctblock shorttxids block.txnAvailable pool [])
    (htracks : scan.Tracks cmpctblock shorttxids read []) :
    (Scan.scanMempool cmpctblock shorttxids rest scan).Tracks cmpctblock shorttxids
      (readUntil (fun taken => cmpctblock.AllFound taken []) read rest) [] := by
  induction rest generalizing scan read with
  | nil => exact htracks
  | cons tx rest ih =>
    obtain ⟨htx, hrest⟩ := cons_subset.1 hrest
    have hnext := hscan.mempoolStep hready.lookup_free htx
    have hread := htracks.mempoolStep hready hscan tx
    have hstop := hread.allFound_iff hready hnext
    rw [Scan.scanMempool, readUntil]
    by_cases hall : cmpctblock.AllFound (read ++ [tx]) []
    · rw [if_pos hall, if_pos (hstop.2 hall)]
      exact hread
    · rw [if_neg hall, if_neg fun hcount => hall (hstop.1 hcount)]
      exact ih hrest hnext hread

lemma Tracks.scanExtra {rest : List CTransaction} (hrest : rest ⊆ extras)
    (hscan : scan.Invariant cmpctblock shorttxids block.txnAvailable pool extras)
    (htracks : scan.Tracks cmpctblock shorttxids read seen)
    (hlast : Scan.scanExtra cmpctblock shorttxids (rest.map ExtraTxns.filledSlot) scan =
      .ok next) :
    next.Tracks cmpctblock shorttxids read
      (readUntil (cmpctblock.AllFound read) seen rest) := by
  induction rest generalizing scan seen with
  | nil =>
    cases hlast
    exact htracks
  | cons tx rest ih =>
    obtain ⟨htx, hrest⟩ := cons_subset.1 hrest
    obtain ⟨after, hafter, hinvariant⟩ := hscan.extraStep hready.lookup_free htx
    have hread := htracks.extraStep hready hscan hafter
    have hstop := hread.allFound_iff hready hinvariant
    rw [map_cons, Scan.scanExtra] at hlast
    rw [show scan.extraStep cmpctblock shorttxids (ExtraTxns.filledSlot tx) = .ok after from
      hafter] at hlast
    dsimp only [bind, Except.bind] at hlast
    rw [readUntil]
    by_cases hall : cmpctblock.AllFound read (seen ++ [tx])
    · rw [if_pos (hstop.2 hall)] at hlast
      cases hlast
      rw [if_pos hall]
      exact hread
    · rw [if_neg fun hcount => hall (hstop.1 hcount)] at hlast
      rw [if_neg hall]
      exact ih hrest hinvariant hread hlast

end

/-- The scan of two parts of a ring, the first of which is not empty: the second part is looked at
unless everything was found in the first. -/
theorem scanExtra_append {first second : List (Uint256 × Option CTransaction)} (hfirst : first ≠ [])
    (scan : Scan) : scanExtra cmpctblock shorttxids (first ++ second) scan =
      scanExtra cmpctblock shorttxids first scan >>= fun next =>
        if next.mempoolCount = shorttxids.entries.length then .ok next
        else scanExtra cmpctblock shorttxids second next := by
  induction first generalizing scan with
  | nil => exact absurd rfl hfirst
  | cons slot first ih =>
    rw [cons_append, scanExtra, scanExtra]
    cases hstep : scan.extraStep cmpctblock shorttxids slot with
    | error fault => rfl
    | ok next =>
      dsimp only [bind, Except.bind]
      by_cases hfound : next.mempoolCount = shorttxids.entries.length
      · rw [if_pos hfound, if_pos hfound]
        exact (if_pos hfound).symm
      · rw [if_neg hfound, if_neg hfound]
        cases first with
        | nil => exact (if_neg hfound).symm
        | cons other first => exact ih (cons_ne_nil other first) next

/-- An empty slot, whose hash is zero, changes nothing when no position has its short id or that
position was given up. -/
theorem scanExtra_empty
    (hharmless : ∀ position, shorttxids.lookup (cmpctblock.getShortID 0) = some position →
      scan.source position = .collided) (free : Nat) :
    scanExtra cmpctblock shorttxids (replicate free (0, none)) scan = .ok scan := by
  have hstep : scan.extraStep cmpctblock shorttxids (0, none) = .ok scan := by
    rw [extraStep]
    cases hlookup : shorttxids.lookup (cmpctblock.getShortID 0) with
    | none => rfl
    | some position =>
      dsimp only
      rw [matchExtra, hharmless position hlookup]
  induction free with
  | zero => rfl
  | succ free ih =>
    rw [replicate_succ, scanExtra, hstep]
    dsimp only [bind, Except.bind]
    rw [ih]
    split <;> rfl

lemma scanExtra_empty_harmful (hscan : scan.Invariant cmpctblock shorttxids base pool extras)
    {position : Nat} (hlookup : shorttxids.lookup (cmpctblock.getShortID 0) = some position)
    (hposition : position < base.length) (hsource : scan.source position ≠ .collided) (free : Nat) :
    scanExtra cmpctblock shorttxids (replicate (free + 1) (0, none)) scan =
      .error .nullDereference ∨
      ∃ next, scanExtra cmpctblock shorttxids (replicate (free + 1) (0, none)) scan = .ok next ∧
        (next.source position).found ∧ next.available position = none := by
  have hstep : ∀ scan : Scan, scan.extraStep cmpctblock shorttxids (0, none) =
      scan.matchExtra position none := by
    intro scan
    rw [extraStep, hlookup]
  have hfault : ∀ scan : Scan, (scan.source position).found →
      scan.matchExtra position none = .error .nullDereference := by
    intro scan hfound
    rw [matchExtra]
    cases hkind : scan.source position with
    | none => rw [hkind] at hfound; cases hfound
    | collided => rw [hkind] at hfound; cases hfound
    | mempool => cases havailable : scan.available position <;> simp [compareExtra, havailable]
    | extra => cases havailable : scan.available position <;> simp [compareExtra, havailable]
  rw [replicate_succ, scanExtra, hstep]
  by_cases hfound : (scan.source position).found = true
  · rw [hfault scan hfound]
    exact .inl rfl
  · -- The position is free: the null pointer is installed, and a second empty slot compares it.
    have hnone : scan.source position = .none := by
      cases hkind : scan.source position with
      | none => rfl
      | collided => exact absurd hkind hsource
      | mempool => rw [hkind] at hfound; exact absurd rfl hfound
      | extra => rw [hkind] at hfound; exact absurd rfl hfound
    obtain ⟨installed, hmatch, hinstalled⟩ :
        ∃ installed, scan.matchExtra position none = .ok installed ∧
          (installed.source position).found ∧ installed.available position = none := by
      rw [matchExtra, hnone]
      refine ⟨_, rfl, ?_⟩
      rw [source, available, getD_set (hscan.sourceLength ▸ hposition),
        getD_set (hscan.availableLength ▸ hposition), if_pos rfl, if_pos rfl]
      exact ⟨rfl, rfl⟩
    rw [hmatch]
    dsimp only [bind, Except.bind]
    split
    · exact .inr ⟨installed, rfl, hinstalled⟩
    · cases free with
      | zero => exact .inr ⟨installed, rfl, hinstalled⟩
      | succ free =>
        rw [replicate_succ, scanExtra, hstep, hfault installed hinstalled.1]
        exact .inl rfl

end Scan

namespace ExtraTxns

variable [Crypto]

/-- The first slots hold transactions and the others are empty; while there are empty slots the
next one is the first of them. -/
def Shape (maxExtraTxs : Nat) (ring : ExtraTxns) (filled : List CTransaction) (free : Nat) : Prop :=
  ring.slots = filled.map filledSlot ++ List.replicate free (0, none) ∧
    (free ≠ 0 → ring.nextSlot = filled.length) ∧
    (filled = [] → free = 0 ∧ ring.nextSlot = 0) ∧
    (filled ≠ [] → filled.length + free = maxExtraTxs ∧ ring.nextSlot < maxExtraTxs)

lemma Shape.add {maxExtraTxs : Nat} {ring : ExtraTxns} {filled : List CTransaction} {free : Nat}
    (hshape : Shape maxExtraTxs ring filled free) (tx : CTransaction) :
    ∃ filled free, Shape maxExtraTxs (ring.add maxExtraTxs tx) filled free := by
  obtain ⟨hslots, hnext, hempty, hfull⟩ := hshape
  rw [ExtraTxns.add]
  split
  case isTrue => exact ⟨filled, free, hslots, hnext, hempty, hfull⟩
  case isFalse hmax =>
    by_cases hfilled : filled = []
    · -- The first transaction: the ring is allocated.
      obtain ⟨hfree, hslot⟩ := hempty hfilled
      have hnone : ring.slots.length = 0 := by rw [hslots, hfilled, hfree]; rfl
      obtain ⟨others, rfl⟩ : ∃ others, maxExtraTxs = others + 1 :=
        Nat.exists_eq_succ_of_ne_zero hmax
      rw [if_pos hnone, hslot]
      refine ⟨[tx], others, rfl, fun hothers => ?_, fun hnil => (by cases hnil), fun _ => ?_⟩
      · exact Nat.mod_eq_of_lt (by omega)
      · exact ⟨Nat.add_comm 1 others, Nat.mod_lt _ (by omega)⟩
    · obtain ⟨htotal, hslot⟩ := hfull hfilled
      have hlength : ring.slots.length = maxExtraTxs := by
        rw [hslots, length_append, length_map, length_replicate, htotal]
      rw [if_neg (by omega)]
      cases free with
      | zero =>
        -- The ring has gone round: a transaction is replaced.
        refine ⟨filled.set ring.nextSlot tx, 0, ?_, fun hzero => absurd rfl hzero, ?_, fun _ => ?_⟩
        · rw [hslots, replicate_zero, append_nil, append_nil, map_set]
          rfl
        · intro hnil
          exact absurd ((set_eq_nil_iff ..).1 hnil) hfilled
        · rw [length_set]
          exact ⟨htotal, Nat.mod_lt _ (by omega)⟩
      | succ free =>
        have hslot := hnext (Nat.succ_ne_zero free)
        refine ⟨filled ++ [tx], free, ?_, fun hfree => ?_, fun hnil => ?_, fun _ => ?_⟩
        · dsimp only
          rw [hslots, hslot, set_append_right _ _ (by rw [length_map]),
            length_map, Nat.sub_self, replicate_succ, set_cons_zero,
            map_append, append_assoc]
          rfl
        · rw [hslot, length_append, length_singleton]
          exact Nat.mod_eq_of_lt (by omega)
        · exact absurd (append_eq_nil_iff.1 hnil).1 hfilled
        · rw [length_append, length_singleton]
          exact ⟨by omega, Nat.mod_lt _ (by omega)⟩

lemma addAll_shape (maxExtraTxs : Nat) (txs : List CTransaction) :
    ∃ filled free, Shape maxExtraTxs (addAll maxExtraTxs txs) filled free := by
  have hrun : ∀ ring, (∃ filled free, Shape maxExtraTxs ring filled free) →
      ∃ filled free, Shape maxExtraTxs (txs.foldl (add maxExtraTxs) ring) filled free := by
    induction txs with
    | nil => exact fun ring hshape => hshape
    | cons tx txs ih =>
      rintro ring ⟨filled, free, hshape⟩
      exact ih _ (hshape.add tx)
  refine hrun empty ⟨[], 0, rfl, fun hzero => absurd rfl hzero, fun _ => ⟨rfl, rfl⟩, ?_⟩
  exact fun hnil => absurd rfl hnil

lemma transactions_of_slots {ring : ExtraTxns} {filled : List CTransaction} {free : Nat}
    (hslots : ring.slots = filled.map filledSlot ++ replicate free (0, none)) :
    ring.transactions = filled := by
  have hnone : (replicate free ((0 : Uint256), (none : Option CTransaction))).filterMap
      Prod.snd = [] := by
    apply filterMap_eq_nil_iff.2
    intro slot hmem
    rw [eq_of_mem_replicate hmem]
  rw [transactions, hslots, filterMap_append, filterMap_map, hnone, append_nil]
  exact filterMap_some

end ExtraTxns

variable [Crypto]

section

variable (bucketSize : List (BitVec 64) → BitVec 64 → Nat) (cmpctblock : CBlockHeaderAndShortTxIDs)
  (pool : List CTransaction) (ring : ExtraTxns)

/-- `InitData` on a new object, for the given mempool and ring: it has no undefined behaviour, and
when it succeeds the tables and counters are right. -/
def InitSound : Prop :=
  ∃ result, PartiallyDownloadedBlock.new.initData bucketSize cmpctblock pool ring.slots =
      .ok result ∧
    (result.status = .ok → result.Consistent cmpctblock pool ring.transactions)

/-- The empty slots of the ring do not come into play: there are none, or the message is refused
before the scans or does not announce the short id of the zero hash, or every announced transaction
is found in what is read of the mempool and the ring, or that short id is given up there. -/
def EmptySlotsHarmless : Prop :=
  (∀ slot ∈ ring.slots, slot.2 ≠ none) ∨ ¬cmpctblock.Accepted bucketSize ∨
    cmpctblock.getShortID 0 ∉ cmpctblock.shorttxids ∨
    cmpctblock.AllFound (cmpctblock.readPool pool)
      (cmpctblock.readExtras pool ring.transactions) ∨
    cmpctblock.GivenUp (cmpctblock.getShortID 0) (cmpctblock.readPool pool)
      (cmpctblock.readExtras pool ring.transactions)

end

section

variable {bucketSize : List (BitVec 64) → BitVec 64 → Nat} {ring : ExtraTxns}
    (hprepare : PartiallyDownloadedBlock.new.prepare bucketSize cmpctblock =
      .ok (block, .inr shorttxids))
    (hready : Ready cmpctblock block shorttxids)
    (hinvariant : scan.Invariant cmpctblock shorttxids block.txnAvailable pool ring.transactions)
include hprepare hready hinvariant

lemma InitSound.of_scan (hscan : Scan.scanExtra cmpctblock shorttxids ring.slots
      (Scan.scanMempool cmpctblock shorttxids pool block.startScan) = .ok scan) :
    InitSound bucketSize cmpctblock pool ring := by
  have hrun := initData_ready hprepare pool ring.slots
  rw [hscan] at hrun
  exact ⟨_, hrun, fun _ => hinvariant.consistent hready⟩

lemma not_initSound_of_empty {free : Nat} (hscan : Scan.scanExtra cmpctblock shorttxids ring.slots
      (Scan.scanMempool cmpctblock shorttxids pool block.startScan) =
        Scan.scanExtra cmpctblock shorttxids (replicate (free + 1) (0, none)) scan)
    {position : Nat} (hlookup : shorttxids.lookup (cmpctblock.getShortID 0) = some position)
    (hsource : scan.source position ≠ .collided) : ¬InitSound bucketSize cmpctblock pool ring := by
  rintro ⟨result, hresult, hconsistent⟩
  rw [initData_ready hprepare, hscan] at hresult
  rcases Scan.scanExtra_empty_harmful hinvariant hlookup (hready.lookup_free _ _ hlookup).1 hsource
    free with hfault | ⟨next, hnext, hfound, havailable⟩
  · rw [hfault] at hresult
    cases hresult
  · rw [hnext] at hresult
    cases hresult
    exact (hconsistent rfl).installed position hfound havailable

/-- With empty slots behind the filled ones. -/
lemma initSound_iff_of_empty {free : Nat} (htracks : scan.Tracks cmpctblock shorttxids
      (cmpctblock.readPool pool) (cmpctblock.readExtras pool ring.transactions))
    (hscan : Scan.scanExtra cmpctblock shorttxids ring.slots
      (Scan.scanMempool cmpctblock shorttxids pool block.startScan) =
        if scan.mempoolCount = shorttxids.entries.length then .ok scan
        else Scan.scanExtra cmpctblock shorttxids (replicate (free + 1) (0, none)) scan) :
    InitSound bucketSize cmpctblock pool ring ↔
      cmpctblock.getShortID 0 ∉ cmpctblock.shorttxids ∨
        cmpctblock.AllFound (cmpctblock.readPool pool)
          (cmpctblock.readExtras pool ring.transactions) ∨
        cmpctblock.GivenUp (cmpctblock.getShortID 0) (cmpctblock.readPool pool)
          (cmpctblock.readExtras pool ring.transactions) := by
  rw [← htracks.allFound_iff hready hinvariant]
  by_cases hfound : scan.mempoolCount = shorttxids.entries.length
  · exact iff_of_true (.of_scan hprepare hready hinvariant (hscan.trans (if_pos hfound)))
      (.inr (.inl hfound))
  rw [if_neg hfound] at hscan
  by_cases hid : cmpctblock.getShortID 0 ∈ cmpctblock.shorttxids
  · obtain ⟨position, hlookup⟩ := hready.exists_lookup_of_mem hid
    have hgivenUp := (htracks _ position hlookup).collided_iff
    rw [or_iff_right (not_not.2 hid), or_iff_right hfound, GivenUp, ← hgivenUp]
    constructor
    · intro hsound
      by_contra hsource
      exact not_initSound_of_empty hprepare hready hinvariant hscan hlookup hsource hsound
    · intro hsource
      refine .of_scan hprepare hready hinvariant (hscan.trans ?_)
      refine Scan.scanExtra_empty (fun other hother => ?_) _
      rwa [Option.some.inj (hother.symm.trans hlookup)]
  · refine iff_of_true (.of_scan hprepare hready hinvariant (hscan.trans ?_)) (.inl hid)
    exact Scan.scanExtra_empty (fun _ hother => absurd (hready.mem_of_lookup hother) hid) _

end

/-- The scans of the mempool and of the filled slots leave what the transactions say that they
read. -/
lemma Ready.tracks (hready : Ready cmpctblock block shorttxids)
    (hscan : Scan.scanExtra cmpctblock shorttxids (extras.map ExtraTxns.filledSlot)
      (Scan.scanMempool cmpctblock shorttxids pool block.startScan) = .ok scan) :
    scan.Tracks cmpctblock shorttxids (cmpctblock.readPool pool)
      (cmpctblock.readExtras pool extras) := by
  have hstart := Scan.Invariant.start hready pool
  have hmempool := hstart.scanMempool hready.lookup_free (Subset.refl pool)
  have htracks := Scan.tracks_start.scanMempool hready (Subset.refl pool) hstart
  exact htracks.scanExtra hready (Subset.refl extras) (hmempool.mono extras) hscan

/-- `InitData` is sound exactly when the empty slots of the ring do not come into play, for every
message, every mempool and the ring after any calls of `AddToCompactExtraTransactions`. -/
theorem initData_sound_iff (bucketSize : List (BitVec 64) → BitVec 64 → Nat)
    (cmpctblock : CBlockHeaderAndShortTxIDs) (pool : List CTransaction) (maxExtraTxs : Nat)
    (txs : List CTransaction) :
    InitSound bucketSize cmpctblock pool (ExtraTxns.addAll maxExtraTxs txs) ↔
      EmptySlotsHarmless bucketSize cmpctblock pool (ExtraTxns.addAll maxExtraTxs txs) := by
  obtain ⟨filled, free, hslots, -, hempty, -⟩ := ExtraTxns.addAll_shape maxExtraTxs txs
  generalize ExtraTxns.addAll maxExtraTxs txs = ring at hslots hempty
  have htransactions := ExtraTxns.transactions_of_slots hslots
  obtain ⟨block, next, hprepare, hnext⟩ := prepare_spec bucketSize cmpctblock
  cases next with
  | inl status =>
    -- The message is refused before the scans.
    refine iff_of_true ⟨⟨status, block, []⟩, ?_, fun hok => absurd hok hnext.1⟩
      (.inr (.inl hnext.2))
    rw [initData, hprepare]
    rfl
  | inr shorttxids =>
    obtain ⟨hready, haccepted⟩ := hnext
    obtain ⟨scan, hscan, hinvariant⟩ := hready.scans pool ring.transactions
    have htracks := hready.tracks hscan
    rw [htransactions] at hscan
    cases free with
    | zero =>
      rw [replicate_zero, append_nil] at hslots
      refine iff_of_true (.of_scan hprepare hready hinvariant (by rw [hslots]; exact hscan))
        (.inl ?_)
      intro slot hmem
      rw [hslots] at hmem
      obtain ⟨tx, -, rfl⟩ := mem_map.1 hmem
      exact Option.some_ne_none tx
    | succ free =>
      have hne : filled.map ExtraTxns.filledSlot ≠ [] := by
        intro hnil
        exact absurd (hempty (map_eq_nil_iff.1 hnil)).1 (Nat.succ_ne_zero free)
      -- The empty slots are scanned after the filled ones, unless everything was found.
      have hall : Scan.scanExtra cmpctblock shorttxids ring.slots
          (Scan.scanMempool cmpctblock shorttxids pool block.startScan) =
            if scan.mempoolCount = shorttxids.entries.length then .ok scan
            else Scan.scanExtra cmpctblock shorttxids (replicate (free + 1) (0, none)) scan := by
        rw [hslots, Scan.scanExtra_append hne]
        exact congrArg (· >>= _) hscan
      have hslot : ¬∀ slot ∈ ring.slots, slot.2 ≠ none := by
        intro hfull
        refine hfull (0, none) ?_ rfl
        rw [hslots, mem_append]
        exact .inr (mem_replicate.2 ⟨Nat.succ_ne_zero free, rfl⟩)
      rw [EmptySlotsHarmless, or_iff_right hslot, or_iff_right (not_not.2 haccepted)]
      exact initSound_iff_of_empty hprepare hready hinvariant htracks hall

omit [Crypto] in
/-- A message whose first short id is the one of the zero hash. -/
def emptySlotMessage : CBlockHeaderAndShortTxIDs :=
  let header : CBlockHeader := ⟨⟨1, 0, 0, 0, 1, 0⟩, none⟩
  let unnamed : CBlockHeaderAndShortTxIDs := ⟨header, 0, [], [], by decide⟩
  { header := header
    nonce := 0
    shorttxids := [@getShortID Crypto.digits unnamed 0, 0]
    prefilledtxn := []
    blockTxCountLe := by decide }

omit [Crypto] in
/-- One extra transaction was seen and the ring has three slots: the first empty slot is installed
as the transaction of the first position, and the second one is compared with it. With two slots
the null pointer stays, and the counter says that a transaction is available. -/
theorem initData_emptySlot : let tx : CTransaction := ⟨[⟨⟨1, 0⟩, [], 0, []⟩], [⟨1, []⟩], 2, 0⟩
    let run := fun maxExtraTxs => @PartiallyDownloadedBlock.initData .digits (fun _ _ => 1)
      .new emptySlotMessage [] (@ExtraTxns.addAll .digits maxExtraTxs [tx]).slots
    run 3 = .error .nullDereference ∧
      run 2 = .ok ⟨.ok, ⟨emptySlotMessage.header, [none, none], 0, 1, 1⟩, [.extra, .none]⟩ ∧
      ¬@InitSound .digits (fun _ _ => 1) emptySlotMessage []
        (@ExtraTxns.addAll .digits 3 [tx]) := by
  intro tx run
  have hfault : run 3 = .error .nullDereference := by decide +kernel
  refine ⟨hfault, by decide +kernel, ?_⟩
  rintro ⟨result, hresult, -⟩
  cases hfault.symm.trans hresult

end Tidecoin
