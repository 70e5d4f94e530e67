import Tidecoin.Lib.Store
import Tidecoin.Mining.Template

/-!
The merge-mining templates of `rpc/auxpow_miner.cpp`. The miner keeps the blocks it has handed out
by their hash and, for every payout script, the block it hands out again. A run is any sequence of
calls, each made in an arbitrary state of the node: the tip, the mempool and the clock change freely
between calls. `History` lists the templates built so far, in one group for each time the saved
blocks were dropped, the newest first.

For every script the miner hands out the first template of the newest group. It is the most recent
one as long as no second template was built for the script on the tip.

A pointer to a template is represented by the block it points to, which never changes once built.
-/

namespace Tidecoin

open Lib Option Store List

/-- The exceptions of the RPC: a JSON error code with its message. A `runtime_error` is reported as
`RPC_MISC_ERROR`. -/
structure RpcError where
  code : Int
  message : String
deriving DecidableEq, Repr

/-- The code of a `runtime_error`. -/
def rpcMiscError : Int := -1

/-- What a call reads of the node. `connections` is the number of peers, if there is a connection
manager. -/
structure NodeState where
  connections : Option Nat
  mineBlocksOnDemand : Bool
  initialBlockDownload : Bool
  activeTip : CBlockIndex
  transactionsUpdated : UInt32
  time : Int
  assembly : Assembly
deriving DecidableEq, Repr

def auxMiningCheck (params : Params) (node : NodeState) : Except RpcError Unit := do
  require (node.connections ≠ none) ⟨-31, "Error: Peer-to-peer functionality missing or disabled"⟩
  require (¬(node.connections = some 0 ∧ node.mineBlocksOnDemand = false))
    ⟨-9, "Tidecoin is not connected!"⟩
  require (¬(node.initialBlockDownload = true ∧ node.mineBlocksOnDemand = false))
    ⟨-10, "Tidecoin is downloading blocks..."⟩
  require (¬(node.activeTip.nHeight + 1 < params.nAuxpowStartHeight))
    ⟨rpcMiscError, "mining auxblock method is not yet available"⟩

structure AuxpowMiner where
  templates : List CBlock
  blocks : Store Uint256 CBlock
  curBlocks : Store Bytes CBlock
  txUpdatedLast : UInt32
  pindexPrev : Option CBlockIndex
  startTime : BitVec 64

/-- The result of `createAuxBlock`. -/
structure AuxBlock where
  hash : Uint256
  chainid : Int
  previousblockhash : Uint256
  coinbasevalue : Int
  bits : UInt32
  height : Int
  target : Uint256
deriving DecidableEq, Repr

/-- The templates built so far with the scripts they were built for, the newest first. A group holds
those built since the saved blocks were dropped. -/
abbrev History := List (List (Bytes × CBlock))

namespace History

/-- The history after a template was built for a script. -/
def add (history : History) (script : Bytes) (block : CBlock) : History :=
  ((script, block) :: history.headD []) :: history.tail

/-- The most recently built template for a script. -/
def latest (history : History) (script : Bytes) : Option CBlock :=
  (history.flatten.find? fun entry => entry.1 = script).map Prod.snd

/-- The templates for a script since the saved blocks were dropped, the newest first. -/
def sinceTip (history : History) (script : Bytes) : List CBlock :=
  ((history.headD []).filter fun entry => entry.1 = script).map Prod.snd

variable {history : History} {script : Bytes} {block : CBlock}

lemma flatten_add (history : History) (script : Bytes) (block : CBlock) :
    (history.add script block).flatten = (script, block) :: history.flatten := by
  cases history with
  | nil => rfl
  | cons group groups => rfl

lemma latest_add (history : History) (script : Bytes) (block : CBlock) :
    (history.add script block).latest script = some block := by
  simp [latest, flatten_add]

lemma mem_of_mem_sinceTip (hmem : block ∈ history.sinceTip script) :
    (script, block) ∈ history.headD [] := by
  obtain ⟨⟨built, found⟩, hfound, rfl⟩ := mem_map.1 hmem
  obtain ⟨hgroup, hscript⟩ := mem_filter.1 hfound
  rwa [← of_decide_eq_true hscript]

lemma mem_flatten_of_mem_headD {entry : Bytes × CBlock} (hmem : entry ∈ history.headD []) :
    entry ∈ history.flatten := by
  cases history with
  | nil => cases hmem
  | cons group groups => exact mem_append_left _ hmem

/-- While there is a template of the newest group, the latest one is among them. -/
lemma latest_eq_head? (hsome : history.sinceTip script ≠ []) :
    history.latest script = (history.sinceTip script).head? := by
  cases history with
  | nil => exact absurd rfl hsome
  | cons group groups =>
    rw [sinceTip, headD_cons] at hsome ⊢
    rw [latest, flatten_cons, find?_append, head?_map, head?_filter]
    cases hfind : group.find? fun entry => entry.1 = script with
    | some entry => rfl
    | none =>
      rw [← head?_filter, head?_eq_none_iff] at hfind
      rw [hfind] at hsome
      exact absurd rfl hsome

end History

/-- The template as an auxiliary block: the merged-mining bit and the chain id go into its
version. -/
def toAuxiliary (params : Params) (block : CBlock) : CBlock :=
  { block with
    nVersion := ((block.nVersion ||| 0x100) &&& ~~~0x1f0000) |||
      BitVec.ofInt 32 (params.nAuxpowChainId * 2 ^ 16) }

/-- The end of `getCurrentBlock`: the target of the block's difficulty bits. -/
def blockTarget (block : CBlock) : Except RpcError (CBlock × Uint256) :=
  let compact := ArithUint256.setCompactFlags block.nBits
  if compact.fNegative || compact.fOverflow || compact.target = 0 then
    .error ⟨rpcMiscError, "invalid difficulty bits in block"⟩
  else .ok (block, compact.target)

namespace AuxpowMiner

def initial : AuxpowMiner := ⟨[], fun _ => none, fun _ => none, 0, none, 0⟩

/-- The saved blocks are dropped when the tip has changed. -/
def forget (miner : AuxpowMiner) (activeTip : CBlockIndex) : AuxpowMiner :=
  if miner.pindexPrev ≠ some activeTip then
    { miner with templates := [], blocks := fun _ => none, curBlocks := fun _ => none }
  else miner

section

variable [Crypto]

section

variable (miner : AuxpowMiner) (node : NodeState) (script : Bytes)

/-- A new template is built for an unknown script, on a new tip, or when the mempool has changed
and more than a minute has passed. The difference of the times is unsigned. -/
def rebuilds : Bool :=
  (miner.curBlocks (hash160 script)).isNone || miner.pindexPrev ≠ some node.activeTip ||
    (node.transactionsUpdated ≠ miner.txUpdatedLast && 60 < BitVec.ofInt 64 node.time -
      miner.startTime)

/-- The miner with a template saved. `try_emplace` does not replace the block of a known script. -/
def save (block : CBlock) : AuxpowMiner where
  templates := miner.templates ++ [block]
  blocks := miner.blocks.insert block.getHash block
  curBlocks := match miner.curBlocks (hash160 script) with
    | none => miner.curBlocks.insert (hash160 script) block
    | some _ => miner.curBlocks
  txUpdatedLast := node.transactionsUpdated
  pindexPrev := some node.activeTip
  startTime := BitVec.ofInt 64 node.time

lemma save_blocks (block : CBlock) :
    (miner.save node script block).blocks = miner.blocks.insert block.getHash block := rfl

end

/-- The template a call builds, if it gets to building one. -/
def newTemplate (params : Params) (node : NodeState) (script : Bytes) : Except String CBlock :=
  (createNewBlock params node.activeTip node.assembly script).map (toAuxiliary params)

/-- `getCurrentBlock`: the block to mine with its target, and the miner afterwards. -/
def getCurrentBlock (params : Params) (miner : AuxpowMiner) (node : NodeState) (script : Bytes) :
    Except RpcError (CBlock × Uint256) × AuxpowMiner :=
  if miner.rebuilds node script then
    match newTemplate params node script with
    | .error message => (.error ⟨rpcMiscError, message⟩, miner.forget node.activeTip)
    | .ok block => (blockTarget block, (miner.forget node.activeTip).save node script block)
  else
    match miner.curBlocks (hash160 script) with
    | none => (.error ⟨rpcMiscError, "Internal bug detected: block_cur"⟩, miner)
    | some block => (blockTarget block, miner)

/-- `lookupSavedBlock`, for a hash that was parsed. -/
def lookupSavedBlock (miner : AuxpowMiner) (hash : Uint256) : Except RpcError CBlock :=
  match miner.blocks hash with
  | none => .error ⟨-8, "block hash unknown"⟩
  | some block => .ok block

/-- The fields `createAuxBlock` returns for a block. -/
def describe (miner : AuxpowMiner) (block : CBlock) (target : Uint256) : AuxBlock where
  hash := block.getHash
  chainid := block.getChainId
  previousblockhash := block.hashPrevBlock
  coinbasevalue :=
    ((block.vtx.head?.bind fun coinbase => coinbase.vout.head?).map fun txout =>
      txout.nValue.toInt).getD 0
  bits := block.nBits
  height := (miner.pindexPrev.map fun pindex => pindex.nHeight + 1).getD 0
  target := target

def createAuxBlock (params : Params) (miner : AuxpowMiner) (node : NodeState) (script : Bytes) :
    Except RpcError AuxBlock × AuxpowMiner :=
  match auxMiningCheck params node with
  | .error failure => (.error failure, miner)
  | .ok _ =>
    let (current, miner) := miner.getCurrentBlock params node script
    (current.map fun (block, target) => miner.describe block target, miner)

/-- The history when the saved blocks are dropped, which they are on a new tip. -/
def regroup (miner : AuxpowMiner) (history : History) (activeTip : CBlockIndex) : History :=
  if miner.pindexPrev ≠ some activeTip then [] :: history else history

/-- The history after a call. -/
def record (params : Params) (miner : AuxpowMiner) (history : History) (node : NodeState)
    (script : Bytes) : History :=
  match auxMiningCheck params node with
  | .error _ => history
  | .ok _ =>
    if miner.rebuilds node script then
      match newTemplate params node script with
      | .error _ => miner.regroup history node.activeTip
      | .ok block => (miner.regroup history node.activeTip).add script block
    else history

/-- The states of the miner after any sequence of calls, with their history. -/
inductive Reachable (params : Params) : AuxpowMiner → History → Prop
  | initial : Reachable params initial []
  | call (miner : AuxpowMiner) (history : History) (node : NodeState) (script : Bytes) :
      Reachable params miner history →
      Reachable params (miner.createAuxBlock params node script).2
        (record params miner history node script)

/-- The first template of the newest group for the scripts with an id. -/
def firstFor (history : History) (id : Bytes) : Option CBlock :=
  ((history.headD []).reverse.find? fun entry => hash160 entry.1 = id).map Prod.snd

/-- What the saved blocks are: built templates under their own hash, owned by the miner; the block
of a script is the first one built for it since the saved blocks were dropped, it is saved and
stands on the remembered tip. -/
structure Invariant (miner : AuxpowMiner) (history : History) : Prop where
  savedBuilt : ∀ hash block, miner.blocks hash = some block →
    block.getHash = hash ∧ block ∈ miner.templates ∧ ∃ script, (script, block) ∈ history.flatten
  currentFirst : ∀ id, miner.curBlocks id = firstFor history id
  currentSaved : ∀ id block, miner.curBlocks id = some block →
    ∃ saved, miner.blocks block.getHash = some saved
  currentOnTip : ∀ id block, miner.curBlocks id = some block →
    ∃ tip, miner.pindexPrev = some tip ∧ block.hashPrevBlock = tip.phashBlock
  builtPays : ∀ script block, (script, block) ∈ history.flatten → block.Pays script

lemma newTemplate_spec {params : Params} {node : NodeState} {script : Bytes} {block : CBlock}
    (hnew : newTemplate params node script = .ok block) :
    block.hashPrevBlock = node.activeTip.phashBlock ∧ block.Pays script := by
  rw [newTemplate] at hnew
  cases hcreate : createNewBlock params node.activeTip node.assembly script with
  | error message =>
    rw [hcreate] at hnew
    cases hnew
  | ok template =>
    rw [hcreate] at hnew
    cases hnew
    obtain ⟨hprev, hpays⟩ := createNewBlock_spec hcreate
    exact ⟨hprev, hpays⟩

lemma invariant_initial : Invariant initial [] where
  savedBuilt _ _ hblock := by cases hblock
  currentFirst _ := rfl
  currentSaved _ _ hblock := by cases hblock
  currentOnTip _ _ hblock := by cases hblock
  builtPays _ _ hmem := by cases hmem

variable {miner : AuxpowMiner} {history : History}

lemma Invariant.forget (hinv : Invariant miner history) (activeTip : CBlockIndex) :
    Invariant (miner.forget activeTip) (miner.regroup history activeTip) ∧
      ∀ id block, (miner.forget activeTip).curBlocks id = some block →
        block.hashPrevBlock = activeTip.phashBlock := by
  rw [AuxpowMiner.forget, regroup]
  split
  case isTrue =>
    refine ⟨⟨?_, fun _ => rfl, ?_, ?_, hinv.builtPays⟩, ?_⟩
    · intro hash block hblock
      cases hblock
    · intro id block hblock
      cases hblock
    · intro id block hblock
      cases hblock
    · intro id block hblock
      cases hblock
  case isFalse hsame =>
    refine ⟨hinv, fun id block hblock => ?_⟩
    obtain ⟨tip, htip, hprev⟩ := hinv.currentOnTip id block hblock
    have htips : some tip = some activeTip := htip.symm.trans (not_ne_iff.1 hsame)
    rw [hprev, some.inj htips]

/-- A new template is the first one for its script if there was none before it. -/
lemma firstFor_add (history : History) (script id : Bytes) (block : CBlock) :
    firstFor (history.add script block) id =
      (firstFor history id).or (if hash160 script = id then some block else none) := by
  rw [firstFor, firstFor, History.add, headD_cons, reverse_cons, find?_append]
  cases (history.headD []).reverse.find? fun entry => hash160 entry.1 = id with
  | some entry => rfl
  | none =>
    by_cases hid : hash160 script = id
    · simp [hid]
    · simp [hid]

/-- `try_emplace` keeps the block of a known script. -/
lemma save_curBlocks (miner : AuxpowMiner) (node : NodeState) (script id : Bytes) (block : CBlock) :
    (miner.save node script block).curBlocks id =
      (miner.curBlocks id).or (if hash160 script = id then some block else none) := by
  rw [AuxpowMiner.save]
  cases hknown : miner.curBlocks (hash160 script) with
  | some known =>
    by_cases hid : hash160 script = id
    · rw [← hid, hknown]
      rfl
    · rw [if_neg hid, or_none]
  | none =>
    by_cases hid : hash160 script = id
    · rw [← hid, if_pos rfl, hknown]
      exact insert_self ..
    · rw [if_neg hid, or_none]
      exact insert_of_ne _ (Ne.symm hid) _

lemma Invariant.save (hinv : Invariant miner history) {node : NodeState} {script : Bytes}
    {block : CBlock} (htip : ∀ id saved, miner.curBlocks id = some saved →
      saved.hashPrevBlock = node.activeTip.phashBlock)
    (hprev : block.hashPrevBlock = node.activeTip.phashBlock) (hpays : block.Pays script) :
    Invariant (miner.save node script block) (history.add script block) := by
  -- An entry of `cur_blocks` is an old one or the new template.
  have hcurrent : ∀ id current, (miner.save node script block).curBlocks id = some current →
      miner.curBlocks id = some current ∨ current = block := by
    intro id current hblock
    rw [save_curBlocks, or_eq_some_iff] at hblock
    rcases hblock with hold | ⟨-, hnew⟩
    · exact .inl hold
    · split at hnew
      · exact .inr (some.inj hnew).symm
      · cases hnew
  refine ⟨?_, ?_, ?_, ?_, ?_⟩
  · intro hash found hfound
    rw [History.flatten_add]
    by_cases heq : hash = block.getHash
    · rw [heq] at hfound ⊢
      have hblock : block = found := some.inj ((insert_self ..).symm.trans hfound)
      rw [← hblock]
      exact ⟨rfl, mem_append_right _ mem_cons_self, script, mem_cons_self⟩
    · rw [save_blocks, insert_of_ne _ heq] at hfound
      obtain ⟨hhash, howned, built, hmem⟩ := hinv.savedBuilt hash found hfound
      exact ⟨hhash, mem_append_left _ howned, built, mem_cons_of_mem _ hmem⟩
  · intro id
    rw [save_curBlocks, firstFor_add, hinv.currentFirst]
  · intro id current hblock
    by_cases heq : current.getHash = block.getHash
    · rw [heq]
      exact ⟨block, insert_self ..⟩
    · rw [save_blocks, insert_of_ne _ heq]
      rcases hcurrent id current hblock with hold | rfl
      · exact hinv.currentSaved id current hold
      · exact absurd rfl heq
  · intro id current hblock
    refine ⟨node.activeTip, rfl, ?_⟩
    rcases hcurrent id current hblock with hold | rfl
    · exact htip id current hold
    · exact hprev
  · intro built found hmem
    rw [History.flatten_add] at hmem
    rcases mem_cons.1 hmem with heq | hmem
    · obtain ⟨rfl, rfl⟩ := Prod.mk.inj heq
      exact hpays
    · exact hinv.builtPays built found hmem

/-- What a call answers and leaves, and the history after it. -/
inductive Called (params : Params) (miner : AuxpowMiner) (history : History) (node : NodeState)
    (script : Bytes) : Except RpcError AuxBlock × AuxpowMiner → History → Prop
  | refused (failure : RpcError) :
      Called params miner history node script (.error failure, miner) history
  | failed (failure : RpcError) :
      Called params miner history node script (.error failure, miner.forget node.activeTip)
        (miner.regroup history node.activeTip)
  | built (block : CBlock) (answer : Except RpcError AuxBlock)
      (rebuilds : miner.rebuilds node script)
      (new : newTemplate params node script = .ok block)
      (hash : ∀ result, answer = .ok result → result.hash = block.getHash) :
      Called params miner history node script
        (answer, (miner.forget node.activeTip).save node script block)
        ((miner.regroup history node.activeTip).add script block)
  | kept (block : CBlock) (answer : Except RpcError AuxBlock)
      (cached : miner.rebuilds node script = false)
      (current : miner.curBlocks (hash160 script) = some block)
      (hash : ∀ result, answer = .ok result → result.hash = block.getHash) :
      Called params miner history node script (answer, miner) history

lemma called_createAuxBlock (params : Params) (miner : AuxpowMiner) (history : History)
    (node : NodeState) (script : Bytes) :
    Called params miner history node script (miner.createAuxBlock params node script)
      (record params miner history node script) := by
  have hhash : ∀ (miner : AuxpowMiner) (block : CBlock) (result : AuxBlock),
      (blockTarget block).map (fun current => miner.describe current.1 current.2) = .ok result →
        result.hash = block.getHash := by
    intro miner block result hresult
    simp only [blockTarget] at hresult
    split at hresult
    · cases hresult
    · cases hresult
      rfl
  unfold createAuxBlock record
  cases auxMiningCheck params node with
  | error failure => exact .refused failure
  | ok _ =>
    dsimp only
    cases hrebuilds : miner.rebuilds node script with
    | true =>
      cases hnew : newTemplate params node script with
      | error message =>
        simp only [getCurrentBlock, hrebuilds, hnew, if_true]
        exact .failed _
      | ok block =>
        simp only [getCurrentBlock, hrebuilds, hnew, if_true]
        exact .built block _ hrebuilds hnew (hhash _ block)
    | false =>
      cases hcurrent : miner.curBlocks (hash160 script) with
      | none => simp [rebuilds, hcurrent] at hrebuilds
      | some block =>
        simp only [getCurrentBlock, hrebuilds, hcurrent, Bool.false_eq_true, if_false]
        exact .kept block _ hrebuilds hcurrent (hhash _ block)

lemma Invariant.call {params : Params} (hinv : Invariant miner history) (node : NodeState)
    (script : Bytes) :
    Invariant (miner.createAuxBlock params node script).2 (record params miner history node
      script) := by
  obtain ⟨hforgotten, htip⟩ := hinv.forget node.activeTip
  have hcalled := called_createAuxBlock params miner history node script
  generalize miner.createAuxBlock params node script =
    call, record params miner history node script =
    history' at *
  cases hcalled with
  | refused => exact hinv
  | failed => exact hforgotten
  | built block _ _ hnew =>
    obtain ⟨hprev, hpays⟩ := newTemplate_spec hnew
    exact hforgotten.save htip hprev hpays
  | kept => exact hinv

lemma Reachable.invariant {params : Params} (hreach : Reachable params miner history) :
    Invariant miner history := by
  induction hreach with
  | initial => exact invariant_initial
  | call miner history node script _ ih => exact ih.call node script

/-- A returned hash names a saved block that pays the script, stands on the tip, and is the most
recently built template for the script. -/
def Handout (miner : AuxpowMiner) (history : History) (node : NodeState) (script : Bytes)
    (hash : Uint256) : Prop :=
  ∃ block, miner.lookupSavedBlock hash = .ok block ∧ block.Pays script ∧
    block.hashPrevBlock = node.activeTip.phashBlock ∧ history.latest script = some block

omit [Crypto] in
lemma lookupSavedBlock_eq_ok {hash : Uint256} {block : CBlock} :
    miner.lookupSavedBlock hash = .ok block ↔ miner.blocks hash = some block := by
  rw [lookupSavedBlock]
  cases miner.blocks hash with
  | none => simp
  | some found => simp

/-- A template that is used again stands on the tip. -/
lemma Invariant.onActiveTip (hinv : Invariant miner history) {node : NodeState} {script id : Bytes}
    {block : CBlock} (hcached : miner.rebuilds node script = false)
    (hcurrent : miner.curBlocks id = some block) :
    block.hashPrevBlock = node.activeTip.phashBlock := by
  obtain ⟨tip, htip, hprev⟩ := hinv.currentOnTip id block hcurrent
  have hactive : miner.pindexPrev = some node.activeTip := by
    by_contra hchanged
    simp [rebuilds, hchanged] at hcached
  rw [hprev, some.inj (htip.symm.trans hactive)]

/-- Without collisions of script ids, the first template for an id is the first one for the script.
-/
lemma firstFor_eq_getLast? {script : Bytes} (hscripts : ∀ entry ∈ history.headD [],
      hash160 entry.1 = hash160 script → entry.1 = script) :
    firstFor history (hash160 script) = (history.sinceTip script).getLast? := by
  have hsame : (history.headD []).filter (fun entry => entry.1 = script) =
      (history.headD []).filter fun entry => hash160 entry.1 = hash160 script := by
    refine filter_congr fun entry hmem => decide_eq_decide.2 ⟨fun heq => ?_, hscripts entry hmem⟩
    rw [heq]
  rw [firstFor, History.sinceTip, hsame, getLast?_map, getLast?_eq_head?_reverse, ← filter_reverse,
    head?_filter]

/-- In every run, with any scripts and any changes of the node between the calls, a call that
succeeds hands out the most recent template for its script exactly when it builds one, or the newest
template for the script since the tip changed is still the first one. Block hashes and script ids
are taken to be free of collisions among the templates of the run. -/
theorem createAuxBlock_handout_iff (params : Params) {miner : AuxpowMiner} {history : History}
    (hreach : Reachable params miner history) (node : NodeState) (script : Bytes)
    (result : AuxBlock) (hresult : (miner.createAuxBlock params node script).1 = .ok result)
    (hblocks : ∀ a ∈ (record params miner history node script).flatten,
      ∀ b ∈ (record params miner history node script).flatten,
        a.2.getHash = b.2.getHash → a.2 = b.2)
    (hscripts : ∀ a ∈ (record params miner history node script).flatten,
      hash160 a.1 = hash160 script → a.1 = script) :
    Handout (miner.createAuxBlock params node script).2 (record params miner history node script)
        node script result.hash ↔
      miner.rebuilds node script = true ∨
        (history.sinceTip script).head? = (history.sinceTip script).getLast? := by
  have hinv := hreach.invariant
  have hcalled := called_createAuxBlock params miner history node script
  generalize miner.createAuxBlock params node script = call,
    record params miner history node script = history' at *
  cases hcalled with
  | refused => cases hresult
  | failed => cases hresult
  | built block _ hrebuilds hnew hhash =>
    -- A new template is the latest one and is saved under its hash.
    refine iff_of_true ?_ (.inl hrebuilds)
    obtain ⟨hprev, hpays⟩ := newTemplate_spec hnew
    rw [hhash result hresult]
    exact ⟨block, lookupSavedBlock_eq_ok.2 (insert_self ..), hpays, hprev, History.latest_add ..⟩
  | kept block _ hcached hcurrent hhash =>
    -- The block of the script is the first of its group.
    have hfirst : (history.sinceTip script).getLast? = some block := by
      rw [← firstFor_eq_getLast? fun entry hmem =>
        hscripts entry (History.mem_flatten_of_mem_headD hmem),
        ← hinv.currentFirst, hcurrent]
    have hsome : history.sinceTip script ≠ [] := by
      intro hnil
      rw [hnil] at hfirst
      cases hfirst
    have hmem := History.mem_flatten_of_mem_headD
      (History.mem_of_mem_sinceTip (mem_of_getLast? hfirst))
    obtain ⟨saved, hsaved⟩ := hinv.currentSaved _ _ hcurrent
    obtain ⟨hsame, -, built, hbuilt⟩ := hinv.savedBuilt _ _ hsaved
    obtain rfl : saved = block := hblocks _ hbuilt _ hmem hsame
    have htip := hinv.onActiveTip hcached hcurrent
    rw [hhash result hresult, hcached, hfirst, ← History.latest_eq_head? hsome]
    constructor
    · rintro ⟨found, hfound, -, -, hlatest⟩
      rw [lookupSavedBlock_eq_ok, hsaved, some.injEq] at hfound
      rw [hlatest, ← hfound]
      exact .inr rfl
    · rintro (hbuilds | hlatest)
      · cases hbuilds
      · exact ⟨saved, lookupSavedBlock_eq_ok.2 hsaved, hinv.builtPays _ _ hmem, htip, hlatest⟩

end

/-- A regtest node on the first entry of the chain, at the given time and mempool counter. -/
def sampleNode (transactionsUpdated : UInt32) (time : Int) : NodeState where
  connections := some 0
  mineBlocksOnDemand := true
  initialBlockDownload := true
  activeTip := firstEntry
  transactionsUpdated := transactionsUpdated
  time := time
  assembly := ⟨0x20000000, time, [], 0, none⟩

/-- The miner and its history after calls, the newest first. -/
def sampleRun : List (NodeState × Bytes) → AuxpowMiner × History
  | [] => (initial, [])
  | (node, script) :: earlier =>
    let (miner, history) := sampleRun earlier
    ((@createAuxBlock Crypto.digits (regTestParams 0) miner node script).2,
      @record Crypto.digits (regTestParams 0) miner history node script)

lemma sampleRun_cons (node : NodeState) (script : Bytes) (earlier : List (NodeState × Bytes)) :
    sampleRun ((node, script) :: earlier) =
      ((@createAuxBlock Crypto.digits (regTestParams 0) (sampleRun earlier).1 node script).2,
        @record Crypto.digits (regTestParams 0) (sampleRun earlier).1 (sampleRun earlier).2 node
          script) :=
  rfl

lemma sampleRun_reachable (calls : List (NodeState × Bytes)) :
    @Reachable Crypto.digits (regTestParams 0) (sampleRun calls).1 (sampleRun calls).2 := by
  induction calls with
  | nil => exact @Reachable.initial .digits (regTestParams 0)
  | cons call earlier ih =>
    exact @Reachable.call .digits (regTestParams 0) _ _ call.1 call.2 ih

/-- The call that follows a run. -/
def sampleCall (earlier : List (NodeState × Bytes)) (node : NodeState) (script : Bytes) :
    Except RpcError AuxBlock :=
  (@createAuxBlock Crypto.digits (regTestParams 0) (sampleRun earlier).1 node script).1

/-- A template for each of two scripts, and after a change of the mempool a second one for the other
script. -/
def sampleCalls : List (NodeState × Bytes) :=
  [(sampleNode 1 2000000062, [opReturn]), (sampleNode 0 2000000001, [opReturn]),
    (sampleNode 0 2000000000, [op1])]

/-- The next call hands out the only template for its script, although the other script has had a
newer one. -/
theorem createAuxBlock_handout_iff_other :
    ∃ result, sampleCall sampleCalls (sampleNode 1 2000000062) [op1] = .ok result ∧
      ((sampleRun sampleCalls).2.sinceTip [opReturn]).length = 2 ∧
      Handout (sampleRun ((sampleNode 1 2000000062, [op1]) :: sampleCalls)).1
        (sampleRun ((sampleNode 1 2000000062, [op1]) :: sampleCalls)).2
        (sampleNode 1 2000000062) [op1] result.hash := by
  obtain ⟨result, hresult⟩ := exists_of_isOk
    (show (sampleCall sampleCalls (sampleNode 1 2000000062) [op1]).isOk = true by decide +kernel)
  refine ⟨result, hresult, by decide +kernel, ?_⟩
  have hiff := @createAuxBlock_handout_iff .digits (regTestParams 0) _ _
    (sampleRun_reachable sampleCalls) (sampleNode 1 2000000062) [op1] result hresult
    (by decide +kernel) (by decide +kernel)
  have hlast : ((sampleRun sampleCalls).2.sinceTip [op1]).head? =
      ((sampleRun sampleCalls).2.sinceTip [op1]).getLast? := by
    decide +kernel
  simp only [sampleRun_cons]
  exact hiff.2 (.inr hlast)

/-- Two templates for one script: the second one is built after the mempool has changed and 62
seconds have passed. -/
def staleCalls : List (NodeState × Bytes) :=
  [(sampleNode 1 2000000062, [op1]), (sampleNode 0 2000000000, [op1])]

/-- The call after the second template hands out the first one again. -/
theorem createAuxBlock_stale :
    ∃ result, sampleCall staleCalls (sampleNode 1 2000000062) [op1] = .ok result ∧
      ¬Handout (sampleRun ((sampleNode 1 2000000062, [op1]) :: staleCalls)).1
        (sampleRun ((sampleNode 1 2000000062, [op1]) :: staleCalls)).2
        (sampleNode 1 2000000062) [op1] result.hash := by
  obtain ⟨result, hresult⟩ := exists_of_isOk
    (show (sampleCall staleCalls (sampleNode 1 2000000062) [op1]).isOk = true by decide +kernel)
  refine ⟨result, hresult, ?_⟩
  rintro ⟨block, hsaved, -, -, hlatest⟩
  have hinv := @Reachable.invariant .digits _ _ _
    (sampleRun_reachable ((sampleNode 1 2000000062, [op1]) :: staleCalls))
  obtain ⟨hhash, -⟩ := @Invariant.savedBuilt .digits _ _ hinv _ _
    (lookupSavedBlock_eq_ok.1 hsaved)
  -- The returned hash would be the one of the newest template.
  have hreturned : (sampleCall staleCalls (sampleNode 1 2000000062) [op1]).toOption.map
      AuxBlock.hash = ((sampleRun ((sampleNode 1 2000000062, [op1]) :: staleCalls)).2.latest
        [op1]).map fun block => @CPureBlockHeader.getHash .digits block.toCPureBlockHeader := by
    rw [hresult, hlatest]
    exact congrArg some hhash.symm
  exact absurd hreturned (by decide +kernel)

end AuxpowMiner

end Tidecoin
