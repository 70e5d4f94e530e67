import Tidecoin.Net.CompactScan
import Tidecoin.Validation.Commitment

/-!
The two ends of a compact block in `blockencodings.cpp`: the message made of a block, and
`FillBlock`, which puts the block together again from what `InitData` found and the transactions a
peer sent for the other positions. The short ids only help to find the transactions. What makes sure
that they are the right ones is the check for a mutated block at the end.
-/

namespace Tidecoin

open Lib List CTransaction

variable [Crypto] {vtxMissing : List CTransaction}

namespace CBlockHeaderAndShortTxIDs

/-- The short id under a header and a nonce, on which alone it depends. -/
def shortIdUnder (header : CBlockHeader) (nonce : BitVec 64) (tx : CTransaction) : BitVec 64 :=
  getShortID ⟨header, nonce, [], [], Nat.zero_le _⟩ tx.getWitnessHash

/-- The constructor from a block, which has a coinbase: that is prefilled, and of every other
transaction there is the short id. -/
def ofBlock (block : CBlock) (nonce : BitVec 64) (hcount : block.vtx.length ≤ 65535) :
    CBlockHeaderAndShortTxIDs where
  header := block.toCBlockHeader
  nonce := nonce
  shorttxids := (block.vtx.drop 1).map (shortIdUnder block.toCBlockHeader nonce)
  prefilledtxn := (block.vtx.take 1).map (PrefilledTransaction.mk 0)
  blockTxCountLe := by
    rw [List.length_map, List.length_map, List.length_drop, List.length_take]
    omega

end CBlockHeaderAndShortTxIDs

/-- The loop of `FillBlock`: the transactions in order and those that were not used. It returns at a
position for which none was sent, and the transactions before it are moved out of the object. -/
def fillLoop : List (Option CTransaction) → (vtxMissing : List CTransaction) →
    Except (List (Option CTransaction)) (List CTransaction × List CTransaction)
  | [], vtxMissing => .ok ([], vtxMissing)
  | none :: rest, [] => .error (none :: rest)
  | none :: rest, tx :: vtxMissing =>
    match fillLoop rest vtxMissing with
    | .error left => .error (none :: left)
    | .ok (vtx, unused) => .ok (tx :: vtx, unused)
  | some tx :: rest, vtxMissing =>
    match fillLoop rest vtxMissing with
    | .error left => .error (none :: left)
    | .ok (vtx, unused) => .ok (tx :: vtx, unused)

/-- What `FillBlock` returns, with the block it wrote and the object it leaves. There is no block if
the loop left null pointers in it. -/
structure FillResult where
  status : ReadStatus
  block : Option CBlock
  self : PartiallyDownloadedBlock
deriving DecidableEq, Repr

namespace PartiallyDownloadedBlock

variable (self : PartiallyDownloadedBlock)

omit [Crypto] in
/-- `IsTxAvailable`, with no answer if its assertion fails. -/
def isTxAvailable (index : Nat) : Option Bool :=
  if self.header.isNull then some false else (self.txnAvailable[index]?).map Option.isSome

/-- `FillBlock`. The block is a new one, so none of its checks is cached. -/
def fillBlock (vtxMissing : List CTransaction) (segwitActive : Bool) : FillResult :=
  if self.header.isNull then ⟨.invalid, none, self⟩
  else match fillLoop self.txnAvailable vtxMissing with
    | .error left => ⟨.invalid, none, { self with txnAvailable := left }⟩
    | .ok (vtx, unused) =>
      let block : CBlock := ⟨self.header, vtx⟩
      let self := { self with header := ⟨CPureBlockHeader.null, none⟩, txnAvailable := [] }
      if unused ≠ [] then ⟨.invalid, some block, self⟩
      else if isBlockMutated block segwitActive .fresh then ⟨.failed, some block, self⟩
      else ⟨.ok, some block, self⟩

omit [Crypto] in
/-- The transactions of the block at the positions where `IsTxAvailable` is false, in order. -/
def requested (block : CBlock) : List CTransaction :=
  (block.vtx.zipIdx.filter fun entry => self.isTxAvailable entry.2 = some false).map Prod.fst

end PartiallyDownloadedBlock

section

omit [Crypto]

variable {txnAvailable : List (Option CTransaction)} {vtx : List CTransaction}

lemma fillLoop_length {unused : List CTransaction}
    (hfill : fillLoop txnAvailable vtxMissing = .ok (vtx, unused)) :
    vtx.length = txnAvailable.length := by
  fun_induction fillLoop txnAvailable vtxMissing generalizing vtx unused with
  | case1 vtxMissing =>
    cases hfill
    rfl
  | case2 rest => cases hfill
  | case3 rest tx vtxMissing left hrest ih => cases hfill
  | case4 rest tx vtxMissing filled others hrest ih =>
    cases hfill
    rw [length_cons, length_cons, ih hrest]
  | case5 tx rest vtxMissing left hrest ih => cases hfill
  | case6 tx rest vtxMissing filled others hrest ih =>
    cases hfill
    rw [length_cons, length_cons, ih hrest]

lemma fillLoop_head {tx : CTransaction} {rest : List (Option CTransaction)}
    {unused : List CTransaction}
    (hfill : fillLoop (some tx :: rest) vtxMissing = .ok (vtx, unused)) :
    ∃ others, vtx = tx :: others ∧ others.length = rest.length := by
  have hlength := fillLoop_length hfill
  rw [fillLoop] at hfill
  split at hfill
  · cases hfill
  · cases hfill
    exact ⟨_, rfl, by simpa using hlength⟩

/-- What is available is the transaction of the block at the position. -/
def Agrees (txnAvailable : List (Option CTransaction)) (vtx : List CTransaction) : Prop :=
  List.Forall₂ (fun available tx => available = none ∨ available = some tx) txnAvailable vtx

/-- The transactions of the block that are not available. -/
def lacking : List (Option CTransaction) → List CTransaction → List CTransaction
  | none :: rest, tx :: vtx => tx :: lacking rest vtx
  | some _ :: rest, _ :: vtx => lacking rest vtx
  | _, _ => []

lemma fillLoop_lacking (hagrees : Agrees txnAvailable vtx) :
    fillLoop txnAvailable (lacking txnAvailable vtx) = .ok (vtx, []) := by
  induction hagrees with
  | nil => rfl
  | cons hhead _ ih =>
    rcases hhead with rfl | rfl
    · rw [lacking, fillLoop, ih]
    · rw [lacking, fillLoop, ih]

lemma filter_zipIdx_lacking (hlength : txnAvailable.length = vtx.length) (start : Nat) :
    ((vtx.zipIdx start).filter fun entry =>
        (txnAvailable[entry.2 - start]?).map Option.isSome = some false).map Prod.fst =
      lacking txnAvailable vtx := by
  induction vtx generalizing txnAvailable start with
  | nil =>
    rw [length_nil, length_eq_zero_iff] at hlength
    rw [hlength]
    rfl
  | cons tx vtx ih =>
    cases txnAvailable with
    | nil => cases hlength
    | cons available rest =>
      have hrest := ih (by simpa using hlength) (start + 1)
      have hshift : ((vtx.zipIdx (start + 1)).filter fun entry =>
          ((available :: rest)[entry.2 - start]?).map Option.isSome = some false) =
            (vtx.zipIdx (start + 1)).filter fun entry =>
              (rest[entry.2 - (start + 1)]?).map Option.isSome = some false := by
        apply filter_congr
        intro entry hentry
        have hle := le_snd_of_mem_zipIdx hentry
        rw [show entry.2 - start = entry.2 - (start + 1) + 1 by omega, getElem?_cons_succ]
      rw [zipIdx_cons]
      cases available with
      | none =>
        rw [filter_cons_of_pos (by simp), map_cons, hshift, hrest, lacking]
      | some held =>
        rw [filter_cons_of_neg (by simp), hshift, hrest, lacking]

end

section

variable {block : CBlock} {params : Params} {pindexPrev : CBlockIndex}

variable (hvalid : checkReceivedBlock block params pindexPrev = .ok ())

include hvalid in
lemma received_checks : merkleRootMatches block = .ok () ∧ checkBlockBody block = .ok () ∧
      checkWitnessData block (deploymentActiveAfter (some pindexPrev) params.segwitHeight) =
        .ok () ∧
      checkBlockWeight block = .ok () := by
  rw [checkReceivedBlock_eq] at hvalid
  obtain ⟨_, -, hvalid⟩ := bind_eq_ok.1 hvalid
  obtain ⟨_, hmerkle, hvalid⟩ := bind_eq_ok.1 hvalid
  obtain ⟨_, hbody, hvalid⟩ := bind_eq_ok.1 hvalid
  obtain ⟨_, -, hvalid⟩ := bind_eq_ok.1 hvalid
  obtain ⟨_, hwitness, hweight⟩ := bind_eq_ok.1 hvalid
  exact ⟨hmerkle, hbody, hwitness, hweight⟩

omit [Crypto] in
lemma size_of_checkBlockWeight (hweight : checkBlockWeight block = .ok ()) {tx : CTransaction}
    (hmem : tx ∈ block.vtx) : (tx.serialize true).length ≤ maxSize := by
  rw [checkBlockWeight, CBlock.serialize, CBlock.serialize] at hweight
  cases hheader : block.toCBlockHeader.serialize with
  | none =>
    rw [hheader] at hweight
    cases hweight
  | some header =>
    rw [hheader] at hweight
    have hlimit := require_eq_ok.1 hweight
    simp only [serVector, length_append] at hlimit
    have htx := length_le_flatMap (fun tx => tx.serialize true) hmem
    have hmax : maxBlockWeight ≤ maxSize := by decide
    omega

omit [Crypto] in
lemma length_of_vin {tx : CTransaction} (hvin : tx.vin ≠ []) :
    51 ≤ (tx.serialize false).length := by
  obtain ⟨txin, vin, hcons⟩ := exists_cons_of_ne_nil hvin
  have hcompact : ∀ count, 1 ≤ (writeCompactSize count).length := by
    intro count
    rw [writeCompactSize]
    split
    · simp
    · split
      · simp
      · split <;> simp
  have hinput : 41 ≤ (serTxIn txin).length := by
    have hscript := hcompact txin.scriptSig.length
    simp only [serTxIn, serBytes, serUint32, length_append, natToLE_length, Uint256.toBytes_length]
    omega
  have hfirst := hcompact tx.vin.length
  have hsecond := hcompact tx.vout.length
  rw [serialize_false]
  simp only [serVector, serUint32, length_append, natToLE_length]
  have hvector : (serTxIn txin).length ≤ (tx.vin.flatMap serTxIn).length := by
    apply length_le_flatMap
    rw [hcons]
    exact mem_cons_self
  omega

lemma count_of_checkBlockBody (hbody : checkBlockBody block = .ok ()) :
    block.vtx.length ≤ 65535 := by
  obtain ⟨-, -, -, -, -, hchecks⟩ := checkBlockBody_ok hbody
  obtain ⟨_, -, hbody⟩ := bind_eq_ok.1 hbody
  obtain ⟨_, hsize, -⟩ := bind_eq_ok.1 hbody
  have hlong : 51 * block.vtx.length ≤ (block.vtx.flatMap fun tx => tx.serialize false).length := by
    have hall : ∀ tx ∈ block.vtx, 51 ≤ (tx.serialize false).length := by
      intro tx hmem
      exact length_of_vin (checkTransaction_ok (hchecks tx hmem)).1
    revert hall
    generalize block.vtx = vtx
    intro hall
    induction vtx with
    | nil => simp
    | cons tx vtx ih =>
      obtain ⟨htx, hvtx⟩ := forall_mem_cons.1 hall
      have hrest := ih hvtx
      rw [flatMap_cons, length_append, length_cons]
      omega
  rw [checkBlockSize, CBlock.serialize] at hsize
  cases hheader : block.toCBlockHeader.serialize with
  | none =>
    rw [hheader] at hsize
    cases hsize
  | some header =>
    rw [hheader] at hsize
    have hlimit := require_eq_ok.1 hsize
    simp only [serVector, length_append] at hlimit
    rw [maxBlockWeight, witnessScaleFactor] at hlimit
    omega

include hvalid in
lemma count_of_valid : block.vtx.length ≤ 65535 :=
  count_of_checkBlockBody (received_checks hvalid).2.1

end

section

open CBlockHeaderAndShortTxIDs

variable {block : CBlock} {nonce : BitVec 64} {hcount : block.vtx.length ≤ 65535}
  {coinbase : CTransaction} {vtx : List CTransaction}

section

variable (hvtx : block.vtx = coinbase :: vtx)
include hvtx

lemma blockTxCount_ofBlock : (ofBlock block nonce hcount).blockTxCount = vtx.length + 1 := by
  simp [blockTxCount, ofBlock, hvtx]

lemma prefilled_ofBlock : (ofBlock block nonce hcount).prefilled = [(0, coinbase)] := by
  simp [prefilled, ofBlock, hvtx, prefilledFrom]

lemma missing_ofBlock : (ofBlock block nonce hcount).missing = (range vtx.length).map (· + 1) := by
  rw [missing, blockTxCount_ofBlock hvtx, prefilled_ofBlock hvtx, range_succ_eq_map,
    filter_cons_of_neg (by simp), filter_eq_self.2]
  intro position hmem
  obtain ⟨index, -, rfl⟩ := mem_map.1 hmem
  simp

lemma announced_ofBlock {position : Nat} {shortid : BitVec 64}
    (hmem : (position, shortid) ∈ (ofBlock block nonce hcount).announced) :
    ∃ tx, block.vtx[position]? = some tx ∧ shortid =
      shortIdUnder block.toCBlockHeader nonce tx := by
  rw [announced, missing_ofBlock hvtx] at hmem
  obtain ⟨index, hindex⟩ := mem_iff_getElem?.1 hmem
  obtain ⟨hposition, hshortid⟩ := getElem?_zip_eq_some.1 hindex
  have hids : (ofBlock block nonce hcount).shorttxids =
      vtx.map (shortIdUnder block.toCBlockHeader nonce) := by
    simp [ofBlock, hvtx]
  rw [hids, getElem?_map] at hshortid
  obtain ⟨tx, htx, rfl⟩ := Option.map_eq_some_iff.1 hshortid
  rw [getElem?_map] at hposition
  obtain ⟨number, hnumber, rfl⟩ := Option.map_eq_some_iff.1 hposition
  obtain ⟨hlt, rfl⟩ := List.getElem?_eq_some_iff.1 hnumber
  refine ⟨tx, ?_, rfl⟩
  rw [hvtx, getElem_range, getElem?_cons_succ]
  exact htx

lemma placePrefilled_ofBlock (hnull : coinbase.isNull = false) :
    placePrefilled (ofBlock block nonce hcount).shorttxids.length
        (ofBlock block nonce hcount).prefilledtxn 0 (-1)
        (replicate (ofBlock block nonce hcount).blockTxCount none) =
      (true, some coinbase :: replicate vtx.length none) := by
  rw [blockTxCount_ofBlock hvtx]
  simp [ofBlock, hvtx, placePrefilled, hnull, replicate_succ]

end

section

variable (bucketSize : List (BitVec 64) → BitVec 64 → Nat)

lemma prepare_ofBlock (hvtx : block.vtx = coinbase :: vtx) (hnull : coinbase.isNull = false)
    {prepared : PartiallyDownloadedBlock} {next : ReadStatus ⊕ ShortIdMap}
    (hprepare : PartiallyDownloadedBlock.new.prepare bucketSize (ofBlock block nonce hcount) =
      .ok (prepared, next)) : (prepared = .new ∧ next = .inl .invalid) ∨
      (block.toCBlockHeader.isNull = false ∧ prepared.header = block.toCBlockHeader ∧
        prepared.txnAvailable = some coinbase :: replicate vtx.length none) := by
  rw [PartiallyDownloadedBlock.prepare] at hprepare
  split at hprepare
  · cases hprepare
    exact .inl ⟨rfl, rfl⟩
  case isFalse hheader =>
    split at hprepare
    · cases hprepare
      exact .inl ⟨rfl, rfl⟩
    split at hprepare
    · cases hprepare
      exact .inl ⟨rfl, rfl⟩
    rw [placePrefilled_ofBlock hvtx hnull] at hprepare
    have hset : block.toCBlockHeader.isNull = false :=
      Bool.eq_false_of_not_eq_true fun h => hheader (.inl h)
    right
    refine ⟨hset, ?_⟩
    obtain ⟨mapped, -, hprepare⟩ := bind_eq_ok.1 hprepare
    cases mapped with
    | none =>
      cases hprepare
      exact ⟨rfl, rfl⟩
    | some shorttxids =>
      dsimp only at hprepare
      split at hprepare
      · cases hprepare
        exact ⟨rfl, rfl⟩
      · cases hprepare
        exact ⟨rfl, rfl⟩

/-- `InitData` on the message of a block and a ring without empty slots. The object cannot be
filled, or it has the header, the coinbase and a place for every transaction. -/
theorem initData_ofBlock (pool extras : List CTransaction)
    (hvtx : block.vtx = coinbase :: vtx) (hnull : coinbase.isNull = false) :
    ∃ result, PartiallyDownloadedBlock.new.initData bucketSize (ofBlock block nonce hcount) pool
        (extras.map ExtraTxns.filledSlot) = .ok result ∧
      (result.status = .ok → result.Consistent (ofBlock block nonce hcount) pool extras) ∧
      (result.block.header.isNull ∧ result.status = .invalid ∨
        result.block.header.isNull = false ∧ result.block.header = block.toCBlockHeader ∧
          ∃ rest, result.block.txnAvailable = some coinbase :: rest ∧
            rest.length = vtx.length) := by
  obtain ⟨prepared, next, hprepare, hnext⟩ := prepare_spec bucketSize (ofBlock block nonce hcount)
  have hobject := prepare_ofBlock bucketSize hvtx hnull hprepare
  cases next with
  | inl status =>
    refine ⟨⟨status, prepared, []⟩, ?_, fun hok => absurd hok hnext.1, ?_⟩
    · rw [PartiallyDownloadedBlock.initData, hprepare]
      rfl
    · rcases hobject with ⟨rfl, hstatus⟩ | ⟨hset, hheader, havailable⟩
      · exact Or.inl ⟨rfl, Sum.inl.inj hstatus⟩
      · exact Or.inr ⟨hheader ▸ hset, hheader, _, havailable, length_replicate ..⟩
  | inr shorttxids =>
    have hready : Ready (ofBlock block nonce hcount) prepared shorttxids := hnext.1
    obtain ⟨scan, hscan, hinvariant⟩ := hready.scans pool extras
    have hrun := initData_ready hprepare pool (extras.map ExtraTxns.filledSlot)
    have hconsistent := hinvariant.consistent hready
    rw [hscan] at hrun
    refine ⟨_, hrun, fun _ => hconsistent, Or.inr ?_⟩
    rcases hobject with ⟨-, hstatus⟩ | ⟨hset, hheader, -⟩
    · cases hstatus
    refine ⟨hheader ▸ hset, hheader, ?_⟩
    -- The coinbase was prefilled, and the scans do not touch its position.
    have hsize := hconsistent.size
    have hfirst := hconsistent.position 0 (by rw [blockTxCount_ofBlock hvtx]; omega)
    rw [prefilled_ofBlock hvtx, missing_ofBlock hvtx] at hfirst
    rw [blockTxCount_ofBlock hvtx] at hsize
    cases havailable : scan.txnAvailable with
    | nil =>
      rw [havailable] at hsize
      cases hsize
    | cons first rest =>
      rw [havailable] at hsize hfirst
      rcases hfirst with ⟨tx, hmem, htx⟩ | ⟨hmem, -⟩
      · obtain rfl := (Prod.mk.inj (mem_singleton.1 hmem)).2
        exact ⟨rest, congrArg (· :: rest) htx, Nat.succ.inj hsize⟩
      · simp at hmem

end

/-- What `InitData` found for a position is the transaction of the block, if the short ids of its
transactions are different and no other transaction it looked at has one of them. -/
theorem agrees_of_consistent {pool extras : List CTransaction} {result : InitResult}
    (hvtx : block.vtx = coinbase :: vtx)
    (hconsistent : result.Consistent (ofBlock block nonce hcount) pool extras)
    (houtside : ∀ tx ∈ pool ++ extras, tx ∉ block.vtx → ∀ other ∈ block.vtx,
      shortIdUnder block.toCBlockHeader nonce tx ≠ shortIdUnder block.toCBlockHeader nonce other)
    (hnodup : (block.vtx.map (shortIdUnder block.toCBlockHeader nonce)).Nodup) :
    Agrees result.block.txnAvailable block.vtx := by
  have hsize : result.block.txnAvailable.length = block.vtx.length := by
    rw [hconsistent.size, blockTxCount_ofBlock hvtx, hvtx, length_cons]
  apply forall₂_iff_get.2
  refine ⟨hsize, ?_⟩
  intro position hleft hright
  have hget : result.available position = result.block.txnAvailable.get ⟨position, hleft⟩ := by
    simp [InitResult.available, hleft]
  have hposition : position < (ofBlock block nonce hcount).blockTxCount := by
    rw [blockTxCount_ofBlock hvtx]
    rw [hvtx, length_cons] at hright
    exact hright
  rw [← hget]
  rcases hconsistent.position position hposition with
    ⟨tx, hmem, htx⟩ | ⟨-, hnone | ⟨tx, htx, hannounced, hsource⟩⟩
  · rw [prefilled_ofBlock hvtx, mem_singleton, Prod.mk.injEq] at hmem
    obtain ⟨rfl, rfl⟩ := hmem
    rw [htx]
    simp [hvtx]
  · exact .inl hnone
  · obtain ⟨own, hown, hshort⟩ := announced_ofBlock hvtx hannounced
    obtain ⟨_, hown⟩ := List.getElem?_eq_some_iff.1 hown
    have hmem : own ∈ block.vtx := hown ▸ getElem_mem _
    have hseen : tx ∈ pool ++ extras := by
      rw [mem_append]
      exact hsource.imp And.right And.right
    have hinside : tx ∈ block.vtx := by
      by_contra hnot
      exact houtside tx hseen hnot own hmem hshort
    right
    rw [htx, get_eq_getElem, hown]
    exact congrArg some (inj_on_of_nodup_map hnodup hinside hmem hshort)

end

section

open CBlockHeaderAndShortTxIDs

variable {block : CBlock} {params : Params} {pindexPrev : CBlockIndex}

section

variable {self : PartiallyDownloadedBlock} {segwitActive : Bool}

/-- A filled block has the header and the number of transactions of the message, starts with its
coinbase, and was not found to be mutated. -/
theorem fillBlock_ok {coinbase : CTransaction}
    {rest : List (Option CTransaction)}
    (havailable : self.txnAvailable = some coinbase :: rest)
    (hok : (self.fillBlock vtxMissing segwitActive).status = .ok) :
    ∃ filled vtx, (self.fillBlock vtxMissing segwitActive).block = some filled ∧
      filled.toCBlockHeader = self.header ∧ filled.vtx = coinbase :: vtx ∧
        vtx.length = rest.length ∧
      isBlockMutated filled segwitActive .fresh = false := by
  rw [PartiallyDownloadedBlock.fillBlock] at hok ⊢
  split at hok
  · cases hok
  case isFalse hheader =>
    rw [if_neg hheader]
    cases hfill : fillLoop self.txnAvailable vtxMissing with
    | error left =>
      rw [hfill] at hok
      cases hok
    | ok filled =>
      obtain ⟨vtx, unused⟩ := filled
      rw [hfill] at hok
      rw [havailable] at hfill
      obtain ⟨others, rfl, hlength⟩ := fillLoop_head hfill
      dsimp only at hok ⊢
      split at hok
      · cases hok
      case isFalse hunused =>
        split at hok
        · cases hok
        case isFalse hmutated =>
          rw [if_neg hunused, if_neg hmutated]
          exact ⟨_, others, rfl, rfl, rfl, hlength, Bool.eq_false_of_not_eq_true hmutated⟩

lemma fillBlock_requested (hset : self.header.isNull = false)
    (hheader : self.header = block.toCBlockHeader)
    (hagrees : Agrees self.txnAvailable block.vtx)
    (hclean : isBlockMutated block segwitActive .fresh = false) :
    (self.fillBlock (self.requested block) segwitActive).status = .ok := by
  have hrequested : self.requested block = lacking self.txnAvailable block.vtx := by
    rw [← filter_zipIdx_lacking hagrees.length_eq 0, PartiallyDownloadedBlock.requested]
    simp [PartiallyDownloadedBlock.isTxAvailable, hset]
  rw [PartiallyDownloadedBlock.fillBlock, if_neg (by rw [hset]; decide), hrequested,
    fillLoop_lacking hagrees]
  dsimp only
  rw [if_neg (by simp), hheader, if_neg (by rw [hclean]; decide)]

end

/-- Compact block reconstruction, for a valid block, any nonce, mempool and ring without empty
slots. `InitData` has no undefined behaviour on the compact form. If `FillBlock` then succeeds,
whatever was sent, the result is the block, unless a hash collides. And it succeeds with the
transactions that were not available, if the short ids of the block are different, no transaction
outside it has one of them and `InitData` succeeded. -/
theorem fillBlock_reconstructs (hvalid : checkReceivedBlock block params pindexPrev = .ok ())
    (hsegwit : deploymentActiveAfter (some pindexPrev) params.segwitHeight = true)
    (nonce : BitVec 64) (bucketSize : List (BitVec 64) → BitVec 64 → Nat)
    (pool extras : List CTransaction) : ∃ result, PartiallyDownloadedBlock.new.initData bucketSize
        (ofBlock block nonce (count_of_valid hvalid)) pool (extras.map ExtraTxns.filledSlot) =
          .ok result ∧
      (∀ vtxMissing, (result.block.fillBlock vtxMissing true).status = .ok →
        ∃ filled, (result.block.fillBlock vtxMissing true).block = some filled ∧
          (block.NoCollision filled → filled = block)) ∧
      ((∀ tx ∈ pool ++ extras, tx ∉ block.vtx → ∀ other ∈ block.vtx,
          shortIdUnder block.toCBlockHeader nonce tx ≠ shortIdUnder block.toCBlockHeader nonce
            other) →
        (block.vtx.map (shortIdUnder block.toCBlockHeader nonce)).Nodup → result.status = .ok →
        (result.block.fillBlock (result.block.requested block) true).status = .ok) := by
  obtain ⟨hmerkle, hbody, hwitness, hweight⟩ := received_checks hvalid
  rw [hsegwit] at hwitness
  obtain ⟨coinbase, vtx, hvtx, hcoinbase, -, hchecks⟩ := checkBlockBody_ok hbody
  have hreadable : ∀ tx ∈ block.vtx, tx.vin ≠ [] ∧ (tx.serialize true).length ≤ maxSize := by
    intro tx hmem
    exact ⟨(checkTransaction_ok (hchecks tx hmem)).1, size_of_checkBlockWeight hweight hmem⟩
  have hnull : coinbase.isNull = false := by
    have hvin := (hreadable coinbase (hvtx ▸ mem_cons_self)).1
    simp [isNull, hvin]
  obtain ⟨result, hrun, hconsistent, hobject⟩ := initData_ofBlock bucketSize pool extras hvtx hnull
  refine ⟨result, hrun, ?_, ?_⟩
  · intro vtxMissing hok
    rcases hobject with ⟨hempty, -⟩ | ⟨-, hheader, rest, havailable, hrest⟩
    · rw [PartiallyDownloadedBlock.fillBlock, if_pos hempty] at hok
      cases hok
    · obtain ⟨filled, vtx', hfilled, hsame, hvtx', hlength, hclean⟩ := fillBlock_ok havailable hok
      refine ⟨filled, hfilled, ?_⟩
      intro hfree
      have hmatches := (isBlockMutated_eq_false (by rw [hvtx']; exact hcoinbase)).1 hclean
      have hsame : filled.toCBlockHeader = block.toCBlockHeader := hsame.trans hheader
      have hroot : block.hashMerkleRoot = filled.hashMerkleRoot := by rw [hsame]
      have htxs :=
        vtx_of_commitments hfree hreadable hvtx hvtx' (hrest.symm.trans hlength.symm) hroot
        ⟨hmerkle, hwitness⟩ hmatches
      calc
        filled = ⟨filled.toCBlockHeader, filled.vtx⟩ := rfl
        _ = ⟨block.toCBlockHeader, block.vtx⟩ := by rw [hsame, htxs]
        _ = block := rfl
  · intro houtside hnodup hstatus
    rcases hobject with ⟨-, hinvalid⟩ | ⟨hset, hheader, -⟩
    · rw [hstatus] at hinvalid
      cases hinvalid
    · apply fillBlock_requested hset hheader
      · exact agrees_of_consistent hvtx (hconsistent hstatus) houtside hnodup
      · apply (isBlockMutated_eq_false _).2 ⟨hmerkle, hwitness⟩
        rw [hvtx]
        exact hcoinbase

end

omit [Crypto]

/-- A transaction with a witness. -/
def committedSpend : CTransaction := ⟨[⟨⟨1, 0⟩, [], sequenceFinal, [[1]]⟩], [⟨1, [op1]⟩], 2, 0⟩

/-- A coinbase that commits to the witness of the transaction. -/
def committingCoinbase : CTransaction :=
  let witnessRoot :=
    @hashPair Crypto.digits 0 (@CTransaction.getWitnessHash Crypto.digits committedSpend)
  let commitment := @hash256 Crypto.digits (witnessRoot.toBytes ++ List.replicate 32 0)
  ⟨[⟨⟨0, 0xffffffff⟩, [0x51, 0x00], sequenceFinal, [List.replicate 32 0]⟩],
    [⟨0, [opReturn, 0x24, 0xaa, 0x21, 0xa9, 0xed] ++ commitment⟩], 1, 0⟩

def committingBlock : CBlock :=
  let root := @hashPair Crypto.digits (@CTransaction.getHash Crypto.digits committingCoinbase)
    (@CTransaction.getHash Crypto.digits committedSpend)
  ⟨⟨⟨4, genesisIndex.phashBlock, root, 0, 0x2001ffff, 0⟩, none⟩,
    [committingCoinbase, committedSpend]⟩

lemma committingBlock_valid :
    @checkReceivedBlock Crypto.digits committingBlock testNetParams genesisIndex = .ok () := by
  decide +kernel

/-- `InitData` on the compact form, with the transaction in the mempool. -/
def committingRun : Except Fault InitResult :=
  @PartiallyDownloadedBlock.initData Crypto.digits (fun _ _ => 1) .new
    (@CBlockHeaderAndShortTxIDs.ofBlock Crypto.digits committingBlock 7 (by decide))
    [committedSpend] []

lemma committingRun_filled : committingRun.map (fun result => (result.status,
        @PartiallyDownloadedBlock.fillBlock Crypto.digits result.block [] true)) =
      .ok (.ok, ⟨.ok, some committingBlock, ⟨⟨CPureBlockHeader.null, none⟩, [], 1, 1, 0⟩⟩) := by
  decide +kernel

lemma committingBlock_noCollision :
    @CBlock.NoCollision Crypto.digits committingBlock committingBlock := by
  let _ := Crypto.digits
  refine ⟨by decide +kernel, by decide +kernel, ?_⟩
  simp only [or_self]
  exact injOn_of_all (by decide +kernel)

/-- The block is put together from the mempool alone. -/
theorem fillBlock_reconstructs_committingBlock : ∃ result, committingRun = .ok result ∧
      (@PartiallyDownloadedBlock.fillBlock Crypto.digits result.block
        (result.block.requested committingBlock) true).status = .ok ∧
      ∃ filled, (@PartiallyDownloadedBlock.fillBlock Crypto.digits result.block [] true).block =
        some filled ∧ filled = committingBlock := by
  obtain ⟨result, hrun, hsound, hcomplete⟩ := @fillBlock_reconstructs .digits committingBlock
    testNetParams genesisIndex committingBlock_valid rfl 7 (fun _ _ => 1) [committedSpend] []
  have hrun : committingRun = .ok result := hrun
  have hevaluated := committingRun_filled
  rw [hrun] at hevaluated
  obtain ⟨hstatus, hfill⟩ := Prod.mk.inj (Except.ok.inj hevaluated)
  refine ⟨result, hrun, ?_, ?_⟩
  · apply hcomplete
    · decide +kernel
    · decide +kernel
    · exact hstatus
  · obtain ⟨filled, hfilled, hsame⟩ := hsound [] (by rw [hfill])
    refine ⟨filled, hfilled, hsame ?_⟩
    rw [hfill] at hfilled
    cases hfilled
    exact committingBlock_noCollision

end Tidecoin
