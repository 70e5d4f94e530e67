import Tidecoin.Net.CompactBlock

/-!
The scans of `InitData`. A transaction found for a position keeps the counters equal to what they
count, for the mempool and for the filled slots of the ring.
-/

namespace Tidecoin

open Lib CBlockHeaderAndShortTxIDs List PartiallyDownloadedBlock

variable {cmpctblock : CBlockHeaderAndShortTxIDs} {block : PartiallyDownloadedBlock}
  {shorttxids : ShortIdMap} {base : List (Option CTransaction)} {pool extras : List CTransaction}
    {scan : Scan}

namespace InitResult

def source (result : InitResult) (position : Nat) : TxSource := result.txSource.getD position .none

def available (result : InitResult) (position : Nat) : Option CTransaction :=
  result.block.txnAvailable.getD position none

variable [Crypto]

/-- What the tables and counters mean: nothing was installed that is not there, each position is
prefilled, or it has a transaction of the mempool or of the ring with its short id, or it is not
available; and the counters count the positions of the second kind and those among them taken from
the ring. -/
structure Consistent (cmpctblock : CBlockHeaderAndShortTxIDs) (pool extras : List CTransaction)
    (result : InitResult) : Prop where
  size : result.block.txnAvailable.length = cmpctblock.blockTxCount
  installed : ∀ position, (result.source position).found = true → result.available position ≠ none
  position : ∀ position < cmpctblock.blockTxCount,
    (∃ tx, (position, tx) ∈ cmpctblock.prefilled ∧ result.available position = some tx) ∨
    (position ∈ cmpctblock.missing ∧ (result.available position = none ∨
      ∃ tx, result.available position = some tx ∧
        (position, cmpctblock.getShortID tx.getWitnessHash) ∈ cmpctblock.announced ∧
        (result.source position = .mempool ∧ tx ∈ pool ∨ result.source position = .extra ∧
          tx ∈ extras)))
  mempoolCount : result.block.mempoolCount = ((Finset.range cmpctblock.blockTxCount).filter
    fun position => position ∈ cmpctblock.missing ∧ result.available position ≠ none).card
  extraCount : result.block.extraCount = ((Finset.range cmpctblock.blockTxCount).filter
    fun position => position ∈ cmpctblock.missing ∧ result.available position ≠ none ∧
      result.source position = .extra).card

end InitResult

namespace Ready

variable (hready : Ready cmpctblock block shorttxids)
include hready

lemma mem_missing {position : Nat} (hposition : position < cmpctblock.blockTxCount) :
    position ∈ cmpctblock.missing ↔ block.txnAvailable.getD position none = none := by
  rw [← missingFrom_placed hready.length hready.prefilled, missingFrom_eq_filter, mem_filter,
    ← range_eq_range', mem_range, hready.length, Nat.sub_zero,
    Option.isNone_iff_eq_none]
  exact and_iff_right hposition

lemma missing_of_lookup {shortid : BitVec 64} {position : Nat}
    (hlookup : shorttxids.lookup shortid = some position) :
    position ∈ cmpctblock.missing :=
  (of_mem_zip ((hready.lookup _ _).1 hlookup)).1

lemma lookup_free (shortid : BitVec 64)
    (position : Nat) (hlookup : shorttxids.lookup shortid = some position) :
    position < block.txnAvailable.length ∧ block.txnAvailable.getD position none = none := by
  have hmissing := hready.missing_of_lookup hlookup
  have hposition : position < cmpctblock.blockTxCount := mem_range.1 (mem_filter.1 hmissing).1
  exact ⟨hready.length.symm ▸ hposition, (hready.mem_missing hposition).1 hmissing⟩

end Ready

namespace Scan

variable [Crypto]

/-- The transaction of a position is as its source says, for the transactions `base` in the
positions before the scans. -/
def Justified (cmpctblock : CBlockHeaderAndShortTxIDs) (shorttxids : ShortIdMap)
    (base : List (Option CTransaction)) (pool extras : List CTransaction) (position : Nat) :
    TxSource → Option CTransaction → Prop
  | .none, tx => tx = base.getD position none
  | .mempool, tx => ∃ found ∈ pool, tx = some found ∧
      shorttxids.lookup (cmpctblock.getShortID found.getWitnessHash) = some position
  | .extra, tx => ∃ found ∈ extras, tx = some found ∧
      shorttxids.lookup (cmpctblock.getShortID found.getWitnessHash) = some position
  | .collided, tx => tx = none ∧ base.getD position none = none

variable {position : Nat} {source : TxSource} {tx : Option CTransaction}

section

variable (hjustified : Justified cmpctblock shorttxids base pool extras position source tx)
include hjustified

lemma Justified.of_found (hfound : source.found) : ∃ found, tx = some found ∧
      shorttxids.lookup (cmpctblock.getShortID found.getWitnessHash) = some position ∧
      (source = .mempool ∧ found ∈ pool ∨ source = .extra ∧ found ∈ extras) := by
  cases source with
  | none => cases hfound
  | collided => cases hfound
  | mempool =>
    obtain ⟨found, hmem, htx, hlookup⟩ := hjustified
    exact ⟨found, htx, hlookup, .inl ⟨rfl, hmem⟩⟩
  | extra =>
    obtain ⟨found, hmem, htx, hlookup⟩ := hjustified
    exact ⟨found, htx, hlookup, .inr ⟨rfl, hmem⟩⟩

lemma Justified.of_not_found (hfound : ¬source.found) : tx = base.getD position none := by
  cases source with
  | none => exact hjustified
  | collided => exact hjustified.1.trans hjustified.2.symm
  | mempool => exact absurd rfl hfound
  | extra => exact absurd rfl hfound

end

/-- The invariant of the scans. -/
structure Invariant (cmpctblock : CBlockHeaderAndShortTxIDs) (shorttxids : ShortIdMap)
    (base : List (Option CTransaction)) (pool extras : List CTransaction) (scan : Scan) : Prop where
  availableLength : scan.txnAvailable.length = base.length
  sourceLength : scan.txSource.length = base.length
  justified : ∀ position, Justified cmpctblock shorttxids base pool extras position
    (scan.source position) (scan.available position)
  mempoolCount : scan.mempoolCount = scan.txSource.countP TxSource.found
  extraCount : scan.extraCount = scan.txSource.countP (· = .extra)

omit [Crypto] in
lemma countP_set_source (hposition : position < scan.txSource.length)
    (test : TxSource → Bool) (source : TxSource) :
    (scan.txSource.set position source).countP test =
      scan.txSource.countP test - (if test (scan.source position) then 1 else 0) +
        if test source then 1 else 0 := by
  have hsource : scan.source position = scan.txSource.get ⟨position, hposition⟩ := by
    rw [Scan.source, getD_eq_getElem?_getD, getElem?_eq_getElem hposition]
    rfl
  rw [countP_set hposition, hsource]
  rfl

lemma Invariant.set (hscan : scan.Invariant cmpctblock shorttxids base pool extras)
    (hposition : position < base.length) {mempoolCount extraCount : Nat}
    (htx : Justified cmpctblock shorttxids base pool extras position source tx)
    (hmempool : mempoolCount = scan.mempoolCount - (if (scan.source position).found then 1 else 0) +
      if source.found then 1 else 0)
    (hextra : extraCount = scan.extraCount - (if scan.source position = .extra then 1 else 0) +
      if source =
      .extra then 1 else 0) : Invariant cmpctblock shorttxids base pool extras
      ⟨scan.txnAvailable.set position tx, scan.txSource.set position source, mempoolCount,
        extraCount⟩ := by
  have hlength : position < scan.txSource.length := hscan.sourceLength ▸ hposition
  refine ⟨?_, ?_, ?_, ?_, ?_⟩
  · rw [length_set, hscan.availableLength]
  · rw [length_set, hscan.sourceLength]
  · intro other
    rw [Scan.source, Scan.available, getD_set hlength, getD_set (hscan.availableLength ▸ hposition)]
    by_cases heq : other = position
    · rw [if_pos heq, if_pos heq, heq]
      exact htx
    · rw [if_neg heq, if_neg heq]
      exact hscan.justified other
  · rw [countP_set_source hlength, ← hscan.mempoolCount, hmempool]
  · rw [countP_set_source hlength, ← hscan.extraCount, hextra]
    simp

section

variable (hbase : ∀ shortid position, shorttxids.lookup shortid = some position →
  position < base.length ∧ base.getD position none = none)

include hbase

variable {tx : CTransaction}

/-- A mempool transaction with the short id of a position keeps the invariant; nothing was taken
from the ring yet. -/
theorem Invariant.matchMempool (hscan : scan.Invariant cmpctblock shorttxids base pool [])
    (htx : tx ∈ pool)
    (hlookup : shorttxids.lookup (cmpctblock.getShortID tx.getWitnessHash) = some position) :
    (scan.matchMempool position tx).Invariant cmpctblock shorttxids base pool [] := by
  obtain ⟨hposition, hfree⟩ := hbase _ position hlookup
  unfold Scan.matchMempool
  cases hsource : scan.source position with
  | none =>
    refine hscan.set hposition ⟨tx, htx, rfl, hlookup⟩ ?_ ?_
    all_goals
      rw [hsource]
      rfl
  | collided => exact hscan
  | mempool =>
    refine hscan.set hposition ⟨rfl, hfree⟩ ?_ ?_
    all_goals
      rw [hsource]
      rfl
  | extra =>
    have hjustified := hscan.justified position
    rw [hsource] at hjustified
    obtain ⟨_, hmem, -⟩ := hjustified
    cases hmem

section

variable (hscan : scan.Invariant cmpctblock shorttxids base pool extras)
include hscan

lemma Invariant.compareExtra {held : CTransaction}
    (hlookup : shorttxids.lookup (cmpctblock.getShortID tx.getWitnessHash) = some position)
    (hfound : (scan.source position).found) (hheld : scan.available position = some held) :
    ∃ next, scan.compareExtra position (some tx) = .ok next ∧
      next.Invariant cmpctblock shorttxids base pool extras := by
  obtain ⟨hposition, hfree⟩ := hbase _ position hlookup
  unfold Scan.compareExtra
  rw [hheld]
  dsimp only
  split
  · refine ⟨_, rfl, hscan.set hposition ⟨rfl, hfree⟩ ?_ rfl⟩
    rw [if_pos hfound]
    rfl
  · exact ⟨scan, rfl, hscan⟩

/-- A transaction of the ring with the short id of a position keeps the invariant, and the witness
hashes that are compared exist. -/
theorem Invariant.matchExtra (htx : tx ∈ extras)
    (hlookup : shorttxids.lookup (cmpctblock.getShortID tx.getWitnessHash) = some position) :
    ∃ next, scan.matchExtra position (some tx) = .ok next ∧
      next.Invariant cmpctblock shorttxids base pool extras := by
  have hposition := (hbase _ position hlookup).1
  have hcompare :
      (scan.source position).found → ∃ next, scan.compareExtra position (some tx) = .ok next ∧
        next.Invariant cmpctblock shorttxids base pool extras := by
    intro hfound
    obtain ⟨held, hheld, -⟩ := (hscan.justified position).of_found hfound
    exact hscan.compareExtra hbase hlookup hfound hheld
  unfold Scan.matchExtra
  cases hsource : scan.source position with
  | none =>
    refine ⟨_, rfl, hscan.set hposition ⟨tx, htx, rfl, hlookup⟩ ?_ ?_⟩
    all_goals
      rw [hsource]
      rfl
  | collided => exact ⟨scan, rfl, hscan⟩
  | mempool => exact hcompare (by rw [hsource]; rfl)
  | extra => exact hcompare (by rw [hsource]; rfl)

end

lemma Invariant.mempoolStep (hscan : scan.Invariant cmpctblock shorttxids base pool [])
    (htx : tx ∈ pool) :
    (scan.mempoolStep cmpctblock shorttxids tx).Invariant cmpctblock shorttxids base pool [] := by
  rw [Scan.mempoolStep]
  cases hlookup : shorttxids.lookup (cmpctblock.getShortID tx.getWitnessHash) with
  | none => exact hscan
  | some position => exact hscan.matchMempool hbase htx hlookup

lemma Invariant.extraStep (hscan : scan.Invariant cmpctblock shorttxids base pool extras)
    (htx : tx ∈ extras) :
    ∃ next, scan.extraStep cmpctblock shorttxids (tx.getWitnessHash, some tx) = .ok next ∧
      next.Invariant cmpctblock shorttxids base pool extras := by
  rw [Scan.extraStep]
  cases hlookup : shorttxids.lookup (cmpctblock.getShortID tx.getWitnessHash) with
  | none => exact ⟨scan, rfl, hscan⟩
  | some position => exact hscan.matchExtra hbase htx hlookup

lemma Invariant.scanMempool {rest : List CTransaction} (hrest : rest ⊆ pool)
    (hscan : scan.Invariant cmpctblock shorttxids base pool []) :
    (Scan.scanMempool cmpctblock shorttxids rest scan).Invariant cmpctblock shorttxids base pool
      [] := by
  induction rest generalizing scan with
  | nil => exact hscan
  | cons tx rest ih =>
    obtain ⟨htx, hrest⟩ := cons_subset.1 hrest
    have hnext := hscan.mempoolStep hbase htx
    rw [Scan.scanMempool]
    split
    · exact hnext
    · exact ih hrest hnext

lemma Invariant.scanExtra {rest : List CTransaction} (hrest : rest ⊆ extras)
    (hscan : scan.Invariant cmpctblock shorttxids base pool extras) :
    ∃ next, Scan.scanExtra cmpctblock shorttxids
        (rest.map fun tx => (tx.getWitnessHash, some tx)) scan = .ok next ∧
      next.Invariant cmpctblock shorttxids base pool extras := by
  induction rest generalizing scan with
  | nil => exact ⟨scan, rfl, hscan⟩
  | cons tx rest ih =>
    obtain ⟨htx, hrest⟩ := cons_subset.1 hrest
    obtain ⟨next, hnext, hinvariant⟩ := hscan.extraStep hbase htx
    rw [map_cons, Scan.scanExtra, hnext]
    dsimp only [bind, Except.bind]
    split
    · exact ⟨next, rfl, hinvariant⟩
    · exact ih hrest hinvariant

end

omit [Crypto] in
lemma startScan_source (block : PartiallyDownloadedBlock) (position : Nat) :
    block.startScan.source position = .none := by
  rw [Scan.source, startScan, getD_eq_getElem?_getD, getElem?_replicate]
  split <;> rfl

lemma Invariant.start (hready : Ready cmpctblock block shorttxids) (pool : List CTransaction) :
    block.startScan.Invariant cmpctblock shorttxids block.txnAvailable pool [] where
  availableLength := rfl
  sourceLength := length_replicate
  justified position := by
    rw [startScan_source]
    rfl
  mempoolCount := by
    rw [startScan, countP_replicate]
    exact hready.mempoolCount
  extraCount := by
    rw [startScan, countP_replicate]
    exact hready.extraCount

lemma Invariant.mono (hscan : scan.Invariant cmpctblock shorttxids base pool [])
    (extras : List CTransaction) : scan.Invariant cmpctblock shorttxids base pool extras := by
  refine { hscan with justified := fun position => ?_ }
  have hjustified := hscan.justified position
  cases hsource : scan.source position with
  | none => rwa [hsource] at hjustified
  | mempool => rwa [hsource] at hjustified
  | collided => rwa [hsource] at hjustified
  | extra =>
    rw [hsource] at hjustified
    obtain ⟨_, hmem, -⟩ := hjustified
    cases hmem

omit [Crypto] in
lemma countP_eq_card (sources : List TxSource) (test : TxSource → Bool) :
    sources.countP test = ((Finset.range sources.length).filter fun position =>
      test (sources.getD position .none)).card := by
  have hmap :
      (range sources.length).map (fun position => sources.getD position .none) = sources := by
    refine ext_getElem (by simp) fun position hleft hright => ?_
    rw [getElem_map, getElem_range, getD_eq_getElem?_getD, getElem?_eq_getElem hright]
    rfl
  calc sources.countP test
      = (range sources.length).countP fun position => test (sources.getD position .none) := by
        conv_lhs => rw [← hmap, countP_map]
        rfl
    _ = _ := by
        rw [Finset.card_def, Finset.filter_val, ← Multiset.countP_eq_card_filter]
        simp [Multiset.range]

variable (hready : Ready cmpctblock block shorttxids)
    (hscan : scan.Invariant cmpctblock shorttxids block.txnAvailable pool extras)
include hready hscan

lemma Invariant.found_iff (hposition : position < cmpctblock.blockTxCount) :
    (scan.source position).found ↔ position ∈ cmpctblock.missing ∧
      scan.available position ≠ none := by
  constructor
  · intro hfound
    obtain ⟨tx, htx, hlookup, -⟩ := (hscan.justified position).of_found hfound
    refine ⟨hready.missing_of_lookup hlookup, ?_⟩
    rw [htx]
    exact Option.some_ne_none tx
  · rintro ⟨hmissing, havailable⟩
    by_contra hfound
    exact havailable (((hscan.justified position).of_not_found hfound).trans
      ((hready.mem_missing hposition).1 hmissing))

lemma Invariant.consistent : InitResult.Consistent cmpctblock pool extras ⟨.ok, { block with
        txnAvailable := scan.txnAvailable
        mempoolCount := scan.mempoolCount
        extraCount := scan.extraCount }, scan.txSource⟩ where
  size := hscan.availableLength.trans hready.length
  installed position hfound := by
    obtain ⟨tx, htx, -⟩ := (hscan.justified position).of_found hfound
    change scan.available position ≠ none
    rw [htx]
    exact Option.some_ne_none tx
  position position hposition := by
    have hjustified := hscan.justified position
    change (∃ tx, _ ∧ scan.available position = some tx) ∨ (_ ∧ (scan.available position = none ∨
      ∃ tx, scan.available position = some tx ∧ _ ∧ (scan.source position = _ ∧ _ ∨
        scan.source position = _ ∧ _)))
    by_cases hfound : (scan.source position).found
    · obtain ⟨tx, htx, hlookup, hmem⟩ := hjustified.of_found hfound
      exact .inr ⟨hready.missing_of_lookup hlookup,
        .inr ⟨tx, htx, (hready.lookup _ _).1 hlookup, hmem⟩⟩
    · rw [hjustified.of_not_found hfound]
      cases hbase : block.txnAvailable.getD position none with
      | none => exact .inr ⟨(hready.mem_missing hposition).2 hbase, .inl rfl⟩
      | some tx => exact .inl ⟨tx, (hready.prefilled position tx).1 hbase, rfl⟩
  mempoolCount := by
    change scan.mempoolCount = _
    rw [hscan.mempoolCount, countP_eq_card, hscan.sourceLength, hready.length]
    apply congrArg
    apply Finset.filter_congr
    intro position hmem
    exact hscan.found_iff hready (Finset.mem_range.1 hmem)
  extraCount := by
    change scan.extraCount = _
    rw [hscan.extraCount, countP_eq_card, hscan.sourceLength, hready.length]
    apply congrArg
    apply Finset.filter_congr
    intro position hmem
    have hfound := hscan.found_iff hready (Finset.mem_range.1 hmem)
    change decide (scan.source position = .extra) = true ↔
      position ∈ cmpctblock.missing ∧ scan.available position ≠ none ∧ scan.source position = .extra
    rw [decide_eq_true_eq, ← and_assoc]
    refine ⟨fun hextra => ⟨hfound.1 ?_, hextra⟩, And.right⟩
    rw [hextra]
    rfl

end Scan

namespace ExtraTxns

variable [Crypto]

/-- The slot of a transaction. -/
def filledSlot (tx : CTransaction) : Uint256 × Option CTransaction := (tx.getWitnessHash, some tx)

end ExtraTxns

variable [Crypto]

lemma initData_ready {bucketSize : List (BitVec 64) → BitVec 64 → Nat}
    (hprepare : new.prepare bucketSize cmpctblock = .ok (block, .inr shorttxids))
    (pool : List CTransaction) (slots : List (Uint256 × Option CTransaction)) :
    new.initData bucketSize cmpctblock pool slots = (Scan.scanExtra cmpctblock shorttxids slots
        (Scan.scanMempool cmpctblock shorttxids pool block.startScan) >>= fun scan =>
          .ok ⟨.ok, { block with
            txnAvailable := scan.txnAvailable
            mempoolCount := scan.mempoolCount
            extraCount := scan.extraCount }, scan.txSource⟩) := by
  rw [initData, hprepare]
  rfl

lemma Ready.scans (hready : Ready cmpctblock block shorttxids)
    (pool extras : List CTransaction) :
    ∃ scan, Scan.scanExtra cmpctblock shorttxids (extras.map ExtraTxns.filledSlot)
        (Scan.scanMempool cmpctblock shorttxids pool block.startScan) = .ok scan ∧
      scan.Invariant cmpctblock shorttxids block.txnAvailable pool extras := by
  have hmempool :=
    (Scan.Invariant.start hready pool).scanMempool hready.lookup_free (Subset.refl pool)
  exact (hmempool.mono extras).scanExtra hready.lookup_free (Subset.refl extras)

end Tidecoin
