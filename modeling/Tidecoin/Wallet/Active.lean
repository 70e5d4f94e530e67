import Tidecoin.Wallet.Records

/-!
The active managers of a wallet: `CWallet::AddActiveScriptPubKeyMan`, `DeactivateScriptPubKeyMan`
and `LoadActiveSPKMs`. A manager is active for an output type in one of two maps, and each map has
records of its own in the database. Activating a manager takes it out of the other map of its type
in the memory only, and loading replays the external records before the internal ones.
-/

namespace Tidecoin

open Lib Option List Records

variable {records : Records} {wallet : CWallet}

namespace ActiveMaps

def empty : ActiveMaps := ⟨fun _ => none, fun _ => none⟩

/-- The map of one kind of manager. -/
def managers (active : ActiveMaps) (internal : Bool) : Store OutputType Uint256 :=
  if internal then active.internalSpkManagers else active.externalSpkManagers

/-- The body of `LoadActiveScriptPubKeyMan`: the manager is put into its map, and taken out of the
other one if it is there for the same type. -/
def load (active : ActiveMaps) (id : Uint256) (type : OutputType) (internal : Bool) : ActiveMaps :=
  if internal then
    { internalSpkManagers := active.internalSpkManagers.insert type id
      externalSpkManagers :=
        if active.externalSpkManagers type = some id then active.externalSpkManagers.erase type
        else active.externalSpkManagers }
  else
    { externalSpkManagers := active.externalSpkManagers.insert type id
      internalSpkManagers :=
        if active.internalSpkManagers type = some id then active.internalSpkManagers.erase type
        else active.internalSpkManagers }

/-- `managers.erase(type)`. -/
def erase (active : ActiveMaps) (type : OutputType) (internal : Bool) : ActiveMaps :=
  if internal then { active with internalSpkManagers := active.internalSpkManagers.erase type }
  else { active with externalSpkManagers := active.externalSpkManagers.erase type }

lemma ext_managers {left right : ActiveMaps}
    (h : ∀ kind type, left.managers kind type = right.managers kind type) : left = right := by
  ext1
  · exact funext fun type => h false type
  · exact funext fun type => h true type

lemma managers_load (active : ActiveMaps) (id : Uint256) (type : OutputType) (internal kind : Bool)
    (other : OutputType) : (active.load id type internal).managers kind other = if other = type then
        if kind = internal then some id
        else if active.managers kind other = some id then none else active.managers kind other
      else active.managers kind other := by
  by_cases htype : other = type
  · cases internal <;> cases kind <;> simp [load, managers] <;> split <;> simp_all
  · have hput : ∀ store : Store OutputType Uint256, store.insert type id other = store other :=
      fun store => store.insert_of_ne htype id
    have hside : ∀ (c : Prop) [Decidable c] (store : Store OutputType Uint256),
        (if c then store.erase type else store) other = store other := by
      intro c _ store
      split
      · exact store.erase_of_ne htype
      · rfl
    cases internal <;> cases kind <;> simp [load, managers, htype, hput, hside]

lemma managers_erase (active : ActiveMaps) (type : OutputType) (internal kind : Bool)
    (other : OutputType) :
    (active.erase type internal).managers kind other =
      if other = type ∧ kind = internal then none else active.managers kind other := by
  by_cases htype : other = type
  · subst htype
    cases internal <;> cases kind <;> simp [erase, managers]
  · have htake : ∀ store : Store OutputType Uint256, store.erase type other = store other :=
      fun store => store.erase_of_ne htype
    cases internal <;> cases kind <;> simp [erase, managers, htype, htake]

end ActiveMaps

namespace CWallet

variable (wallet : CWallet)

/-- `GetScriptPubKeyMan(type, internal)`, by the id of the manager. -/
def getScriptPubKeyMan (type : OutputType) (internal : Bool) : Option Uint256 :=
  wallet.active.managers internal type

/-- `LoadActiveScriptPubKeyMan`: `m_spk_managers.at(id)` throws for a manager the wallet lacks. -/
def loadActiveScriptPubKeyMan (id : Uint256) (type : OutputType) (internal : Bool) :
    Option CWallet :=
  if id ∈ wallet.spkManagers then some { wallet with active := wallet.active.load id type internal }
  else none

/-- What activating a manager of the wallet does to the memory. -/
def activated (id : Uint256) (type : OutputType) (internal : Bool) : CWallet :=
  (wallet.loadActiveScriptPubKeyMan id type internal).getD wallet

def deactivated (type : OutputType) (internal : Bool) : CWallet :=
  { wallet with active := wallet.active.erase type internal }

end CWallet

section

variable (id : Uint256) (type : OutputType) (internal : Bool)

def addActiveScriptPubKeyManWithDb :
    WalletAction Unit := do
  if !(← writeIC (.activeSpk internal type) id) then
    throw (.thrown "AddActiveScriptPubKeyManWithDb: writing active ScriptPubKeyMan id failed")
  if ← hasActiveTxn then
    registerTxnListener ⟨fun wallet => wallet.activated id type internal, fun wallet => wallet⟩
  else
    modifyMemory fun wallet => wallet.activated id type internal

/-- `AddActiveScriptPubKeyMan` without a transaction of the caller. -/
def addActiveScriptPubKeyMan : WalletAction Unit :=
  withBatch (addActiveScriptPubKeyManWithDb id type internal)

/-- `DeactivateScriptPubKeyMan` in a transaction of the caller: the memory is asked at once and
changed at the commit. -/
def deactivateScriptPubKeyManWithDb :
    WalletAction Unit := do
  let wallet := (← get).memory
  if wallet.getScriptPubKeyMan type internal = some id then
    if !(← eraseIC (.activeSpk internal type)) then
      throw (.thrown "Cannot persist descriptor deactivation")
    registerTxnListener ⟨fun wallet => wallet.deactivated type internal, fun wallet => wallet⟩

/-- `DeactivateScriptPubKeyMan` without a transaction of the caller. -/
def deactivateScriptPubKeyMan :
    WalletAction Unit := do
  if !(← runWithinTxn do
      deactivateScriptPubKeyManWithDb id type internal
      return true) then
    throw (.thrown "Cannot commit descriptor deactivation")

end

/-- All output types a record can name, in the order of their records. -/
def recordedOutputTypes : List OutputType := outputTypes ++ [.unknown]

/-- The records `LoadActiveSPKMs` reads, in its order: the external ones first. -/
def activeRecords : List (Bool × OutputType) :=
  [false, true].flatMap fun internal => recordedOutputTypes.map fun type => (internal, type)

/-- One record of `LoadActiveSPKMs`. -/
def loadActiveRecord (records : Records) (wallet : CWallet) (key : Bool × OutputType) :
    Option CWallet :=
  (records.activeSpk key.1 key.2).elim (some wallet) fun id =>
    wallet.loadActiveScriptPubKeyMan id key.2 key.1

/-- `LoadActiveSPKMs`: each kind and type has one record, so no pair is seen twice. -/
def loadActiveSPKMs (records : Records) (wallet : CWallet) : Option CWallet :=
  activeRecords.foldlM (loadActiveRecord records) wallet

/-- The active maps a reload of the database gives the wallet, over the same managers. -/
def CWallet.reloadActive (wallet : CWallet) (records : Records) : Option ActiveMaps :=
  (loadActiveSPKMs records { wallet with active := .empty }).map CWallet.active

section

/-- Every manager the records name is there. -/
def Records.Manned (records : Records) (wallet : CWallet) : Prop :=
  ∀ internal type id, records.activeSpk internal type = some id → id ∈ wallet.spkManagers

/-- One record, as it changes the maps. -/
def ActiveMaps.loadRecord (records : Records) (active : ActiveMaps) (key : Bool × OutputType) :
    ActiveMaps :=
  (records.activeSpk key.1 key.2).elim active fun id => active.load id key.2 key.1

lemma ActiveMaps.managers_loadRecord (active : ActiveMaps) (key : Bool × OutputType) (kind : Bool)
    (type : OutputType) : (active.loadRecord records key).managers kind type = if type = key.2 then
        (records.activeSpk key.1 key.2).elim (active.managers kind type) fun id =>
          if kind = key.1 then some id
          else if active.managers kind type = some id then none else active.managers kind type
      else active.managers kind type := by
  rw [loadRecord]
  cases records.activeSpk key.1 key.2 with
  | none => simp
  | some id => rw [elim_some, managers_load, elim_some]

lemma loadActiveRecords_eq (hmanned : records.Manned wallet) (keys : List (Bool × OutputType))
    (active : ActiveMaps) :
    keys.foldlM (loadActiveRecord records) { wallet with active := active } =
      some { wallet with active := keys.foldl (.loadRecord records) active } := by
  induction keys generalizing active with
  | nil => rfl
  | cons key keys ih =>
    have hstep : loadActiveRecord records { wallet with active := active } key =
        some { wallet with active := active.loadRecord records key } := by
      rw [loadActiveRecord, ActiveMaps.loadRecord]
      cases hrecord : records.activeSpk key.1 key.2 with
      | none => rfl
      | some id => exact if_pos (hmanned key.1 key.2 id hrecord)
    rw [foldlM_cons, hstep]
    exact ih (active.loadRecord records key)

/-- The maps a reload gives: where one manager has both records of a type, the internal one wins. -/
theorem reloadActive_eq (hmanned : records.Manned wallet) :
    ∃ active, wallet.reloadActive records = some active ∧ ∀ type,
      active.managers true type = records.activeSpk true type ∧ active.managers false type =
        if records.activeSpk false type = records.activeSpk true type then none
        else records.activeSpk false type := by
  refine ⟨activeRecords.foldl (ActiveMaps.loadRecord records) .empty, ?_, ?_⟩
  · rw [CWallet.reloadActive, loadActiveSPKMs, loadActiveRecords_eq hmanned]
    rfl
  · have hempty : ∀ kind type, ActiveMaps.empty.managers kind type = none := by
      intro kind type
      cases kind <;> rfl
    intro type
    -- Of the ten records only the two of this type matter, the external one first.
    have hentry :
        ∀ kind, (activeRecords.foldl (ActiveMaps.loadRecord records) .empty).managers kind type =
        ((ActiveMaps.empty.loadRecord records (false, type)).loadRecord records (true,
          type)).managers
          kind type := by
      cases type <;> simp [activeRecords, recordedOutputTypes, outputTypes,
        ActiveMaps.managers_loadRecord]
    rw [hentry, hentry]
    simp only [ActiveMaps.managers_loadRecord, hempty, if_true]
    cases records.activeSpk true type <;> cases records.activeSpk false type <;> simp

variable {active : ActiveMaps}

lemma manned_of_reloadActive (hreload : wallet.reloadActive records = some active) :
    records.Manned wallet := by
  have hkeys : ∀ (keys : List (Bool × OutputType)) (before after : CWallet),
      keys.foldlM (loadActiveRecord records) before = some after →
      ∀ key ∈ keys, ∀ id, records.activeSpk key.1 key.2 = some id → id ∈ before.spkManagers := by
    intro keys
    induction keys with
    | nil =>
      intro before after _ key hkey
      cases hkey
    | cons key keys ih =>
      intro before after hfold
      obtain ⟨next, hnext, hrest⟩ := bind_eq_some_iff.1 hfold
      have hmanagers : next.spkManagers = before.spkManagers ∧
          ∀ id, records.activeSpk key.1 key.2 = some id → id ∈ before.spkManagers := by
        rw [loadActiveRecord] at hnext
        cases hrecord : records.activeSpk key.1 key.2 with
        | none =>
          rw [hrecord, elim_none, some_inj] at hnext
          subst hnext
          exact ⟨rfl, by rintro id ⟨⟩⟩
        | some id =>
          rw [hrecord, elim_some, CWallet.loadActiveScriptPubKeyMan] at hnext
          split at hnext
          · next hmem =>
            cases hnext
            refine ⟨rfl, ?_⟩
            rintro id' ⟨rfl⟩
            exact hmem
          · cases hnext
      rintro other (_ | ⟨_, hmem⟩)
      · exact hmanagers.2
      · rw [← hmanagers.1]
        exact ih next after hrest other hmem
  obtain ⟨after, hload, -⟩ := map_eq_some_iff.1 hreload
  intro internal type id hrecord
  refine hkeys activeRecords _ after hload (internal, type) ?_ id hrecord
  cases internal <;> cases type <;> decide

/-- The entries of one type are those a reload gives. -/
def ActiveMaps.MirrorsAt (active : ActiveMaps) (records : Records) (type : OutputType) : Prop :=
  active.managers true type = records.activeSpk true type ∧
    active.managers false type =
      if records.activeSpk false type = records.activeSpk true type then none
      else records.activeSpk false type

/-- The maps are those a reload of the records gives. -/
def ActiveMaps.Mirrors (active : ActiveMaps) (records : Records) : Prop :=
  ∀ type, active.MirrorsAt records type

lemma ActiveMaps.Mirrors.iff_at {active' : ActiveMaps} {records' : Records}
    (hmirrors : active.Mirrors records) (type : OutputType)
    (hothers : ∀ other, other ≠ type → ∀ kind, active'.managers kind other =
      active.managers kind other ∧
      records'.activeSpk kind other = records.activeSpk kind other) :
    active'.Mirrors records' ↔ active'.MirrorsAt records' type := by
  constructor
  · exact fun h => h type
  · intro htype other
    by_cases hother : other = type
    · rw [hother]
      exact htype
    · rw [ActiveMaps.MirrorsAt, (hothers other hother true).1, (hothers other hother true).2,
        (hothers other hother false).1, (hothers other hother false).2]
      exact hmirrors other

lemma reloadActive_eq_some_iff (hmanned : records.Manned wallet) :
    wallet.reloadActive records = some active ↔ active.Mirrors records := by
  obtain ⟨loaded, hload, hentries⟩ := reloadActive_eq hmanned
  rw [hload, some_inj]
  constructor
  · rintro rfl
    exact hentries
  · intro hmirrors
    apply ActiveMaps.ext_managers
    intro kind type
    cases kind with
    | true => rw [(hentries type).1, (hmirrors type).1]
    | false => rw [(hentries type).2, (hmirrors type).2]

end

/-- The calls that change the active managers. -/
inductive ActiveOp where
  | add (id : Uint256) (type : OutputType) (internal : Bool)
  | deactivate (id : Uint256) (type : OutputType) (internal : Bool)
deriving DecidableEq

namespace ActiveOp

/-- The call without a transaction of the caller. -/
def run : ActiveOp → WalletAction Unit
  | add id type internal => addActiveScriptPubKeyMan id type internal
  | deactivate id type internal => deactivateScriptPubKeyMan id type internal

/-- The call in a transaction of the caller. -/
def runWithDb : ActiveOp → WalletAction Unit
  | add id type internal => addActiveScriptPubKeyManWithDb id type internal
  | deactivate id type internal => deactivateScriptPubKeyManWithDb id type internal

section

variable (op : ActiveOp)

/-- A manager is deactivated only where it is active. -/
def acts (wallet : CWallet) : Bool :=
  match op with
  | add _ _ _ => true
  | deactivate id type internal => wallet.getScriptPubKeyMan type internal = some id

/-- What the call does to the memory once it is committed. -/
def publish (wallet : CWallet) : CWallet :=
  match op with
  | add id type internal => wallet.activated id type internal
  | deactivate _ type internal => wallet.deactivated type internal

/-- What the call writes. -/
def record (records : Records) : Records :=
  match op with
  | add id type internal => records.set (.activeSpk internal type) (some id)
  | deactivate _ type internal => records.set (.activeSpk internal type) none

/-- The manager the call activates is one of the wallet. -/
def Manages (wallet : CWallet) : Prop :=
  match op with
  | add id _ _ => id ∈ wallet.spkManagers
  | deactivate _ _ _ => True

/-- The call leaves the records unambiguous. A manager is not made external while the record of the
internal one still names it, and where both records of a type name one manager, the internal record
is only ever written with the same manager. -/
def Unambiguous (records : Records) : Prop :=
  match op with
  | add id type false => records.activeSpk true type ≠ some id
  | add id type true => ∀ both, records.activeSpk false type = some both →
      records.activeSpk true type = some both → both = id
  | deactivate _ _ false => True
  | deactivate _ type true => ∀ both, records.activeSpk false type = some both →
      records.activeSpk true type ≠ some both

lemma spkManagers_publish (wallet : CWallet) :
    (op.publish wallet).spkManagers = wallet.spkManagers := by
  cases op with
  | add id type internal =>
    rw [publish, CWallet.activated, CWallet.loadActiveScriptPubKeyMan]
    split <;> rfl
  | deactivate id type internal => rfl

end

lemma managers_activated {id : Uint256} (hmem : id ∈ wallet.spkManagers) (type other : OutputType)
    (internal kind : Bool) : (wallet.activated id type internal).active.managers kind other =
      if other = type then if kind = internal then some id
        else if wallet.active.managers kind other = some id then none
        else wallet.active.managers kind other else wallet.active.managers kind other := by
  have hload : wallet.activated id type internal =
      { wallet with active := wallet.active.load id type internal } := by
    rw [CWallet.activated, CWallet.loadActiveScriptPubKeyMan, if_pos hmem]
    rfl
  rw [hload]
  exact ActiveMaps.managers_load ..

/-- The output type a call is about. -/
def type : ActiveOp → OutputType
  | add _ type _ => type
  | deactivate _ type _ => type

lemma managers_publish_of_ne {op : ActiveOp} {type : OutputType} (hmanages : op.Manages wallet)
    (hne : op.type ≠ type)
    (kind : Bool) :
    (op.publish wallet).active.managers kind type = wallet.active.managers kind type := by
  cases op with
  | add id type' internal =>
    have hne' : type ≠ type' := .symm hne
    rw [publish, managers_activated hmanages, if_neg hne']
  | deactivate id type' internal =>
    rw [publish, CWallet.deactivated, ActiveMaps.managers_erase, if_neg fun h => hne h.1.symm]

lemma activeSpk_record_of_ne {op : ActiveOp} {type : OutputType} (hne : op.type ≠ type)
    (kind : Bool) :
    (op.record records).activeSpk kind type = records.activeSpk kind type := by
  cases op with
  | add id type' internal | deactivate id type' internal =>
    rw [record, activeSpk_set, if_neg fun h => hne h.1.symm]

lemma mirrorsAt_publish_iff {op : ActiveOp} (hmanages : op.Manages wallet)
    (hmirrors : wallet.active.MirrorsAt records op.type) :
    (op.publish wallet).active.MirrorsAt (op.record records) op.type ↔ op.Unambiguous records := by
  obtain ⟨hint, hext⟩ := hmirrors
  unfold ActiveMaps.MirrorsAt
  cases op with
  | add id type internal =>
    rw [ActiveOp.type] at *
    simp only [publish, record, managers_activated hmanages, activeSpk_set, hint, hext]
    cases internal with
    | false =>
      by_cases hstale : records.activeSpk true type = some id
      · simp [Unambiguous, hstale]
      · simp [Unambiguous, hstale, Ne.symm hstale]
    | true =>
      by_cases hboth : records.activeSpk false type = records.activeSpk true type
      · cases hrecord : records.activeSpk true type with
        | none => simp [Unambiguous, hboth, hrecord]
        | some both => simp [Unambiguous, hboth, hrecord]
      · have hnever : ∀ both, records.activeSpk false type = some both →
            records.activeSpk true type = some both → both = id :=
          fun both hfalse htrue => absurd (hfalse.trans htrue.symm) hboth
        exact iff_of_true (by simp [hboth]) hnever
  | deactivate id type internal =>
    rw [ActiveOp.type] at *
    simp only [publish, record, CWallet.deactivated, ActiveMaps.managers_erase, activeSpk_set,
      hint, hext]
    cases internal with
    | false => simp [Unambiguous]
    | true =>
      by_cases hboth : records.activeSpk false type = records.activeSpk true type
      · cases hrecord : records.activeSpk true type with
        | none => simp [Unambiguous, hrecord]
        | some both => simp [Unambiguous, hboth, hrecord]
      · have hnever : ∀ both, records.activeSpk false type = some both →
            records.activeSpk true type ≠ some both :=
          fun both hfalse htrue => hboth (hfalse.trans htrue.symm)
        refine iff_of_true ?_ hnever
        cases hrecord : records.activeSpk false type with
        | none => simp
        | some external =>
          rw [hrecord] at hboth
          simp [hboth]

/-- A call keeps the maps in step with the records exactly if it leaves the records unambiguous. -/
theorem mirrors_publish_iff {op : ActiveOp} (hmirrors : wallet.active.Mirrors records)
    (hmanages : op.Manages wallet) :
    (op.publish wallet).active.Mirrors (op.record records) ↔ op.Unambiguous records := by
  rw [hmirrors.iff_at op.type fun other hother kind =>
    ⟨managers_publish_of_ne hmanages hother.symm kind, activeSpk_record_of_ne hother.symm kind⟩]
  exact mirrorsAt_publish_iff hmanages (hmirrors op.type)

section

variable {m : CWallet} {d work : Records} {publishing : CWallet → CWallet}

section

variable (id : Uint256) (type : OutputType) (internal : Bool)

lemma addActive_deferred :
    Triple (Deferred m d work publishing) (addActiveScriptPubKeyManWithDb id type internal)
      (fun _ => Deferred m d (work.set (.activeSpk internal type) (some id))
        ((fun wallet => wallet.activated id type internal) ∘ publishing))
      (fun _ => Deferring m d fun _ _ => True) := by
  refine .branch (writeIC_deferred (.activeSpk internal type) id) ?_ ?_
  · refine .branch (.hasActiveTxn_open fun s h => h.isSome_txn) ?_ fun _ h => h.elim
    exact .register_deferred fun _ => rfl
  · exact .throw_bind fun s h => ⟨_, _, h, trivial⟩

lemma addActive_outside : Triple (Outside m d) (addActiveScriptPubKeyMan id type internal)
      (fun _ => Outside (m.activated id type internal)
        (d.set (.activeSpk internal type) (some id))) (Reverted (fun x => x = m) d) := by
  refine (Triple.withBatch (Q := fun _ => Outside (m.activated id type internal)
    (d.set (.activeSpk internal type) (some id))) (F := fun _ => False) (c := fun _ => True)
    (fun _ s h => h.txn) ?_ fun _ _ h => ⟨trivial, h⟩).weaken ?_ fun _ _ h => h.reverted
  · refine Triple.branch (writeIC_outside (.activeSpk internal type) id) ?_ ?_
    · refine Triple.branch Triple.hasActiveTxn ?_ ?_
      · intro s h
        have hsome := h.2
        rw [h.1.txn] at hsome
        cases hsome
      · refine .modify fun s h => .inl ⟨?_, h.1.database, h.1.txn⟩
        rw [← h.1.memory]
    · exact .throw_bind fun s h => .inl h
  · rintro _ s (h | ⟨⟨⟩, -⟩)
    exact h

lemma deactivate_deferred :
    Triple (Deferred m d work publishing) (deactivateScriptPubKeyManWithDb id type internal)
      (fun _ => if m.getScriptPubKeyMan type internal = some id then
          Deferred m d (work.set (.activeSpk internal type) none)
            ((fun wallet => wallet.deactivated type internal) ∘ publishing)
        else Deferred m d work publishing) (fun _ => Deferring m d fun _ _ => True) := by
  refine .bind .get fun s => ?_
  intro t ht
  obtain ⟨rfl, hdeferred⟩ := ht
  rw [hdeferred.memory]
  by_cases hactive : m.getScriptPubKeyMan type internal = some id
  · rw [if_pos hactive, if_pos hactive]
    refine Triple.branch (eraseIC_deferred (.activeSpk internal type)) ?_ ?_ s hdeferred
    · exact Triple.register_deferred fun _ => rfl
    · exact Triple.throw_bind fun s h => ⟨_, _, h, trivial⟩
  · rw [if_neg hactive, if_neg hactive]
    exact ends_ok.2 hdeferred

end

/-- The calls that change something, and what they leave together. -/
def effective (ops : List ActiveOp) (wallet : CWallet) : List ActiveOp :=
  ops.filter fun op => op.acts wallet

def publishAll (ops : List ActiveOp) (wallet : CWallet) : CWallet :=
  ops.foldl (fun wallet op => op.publish wallet) wallet

def recordAll (ops : List ActiveOp) (records : Records) : Records :=
  ops.foldl (fun records op => op.record records) records

variable (ops others : List ActiveOp)

lemma publishAll_append (wallet : CWallet) :
    publishAll (ops ++ others) wallet = publishAll others (publishAll ops wallet) :=
  foldl_append

lemma recordAll_append (records : Records) :
    recordAll (ops ++ others) records = recordAll others (recordAll ops records) :=
  foldl_append

lemma effective_cons (op : ActiveOp) (ops : List ActiveOp) (wallet : CWallet) :
    effective (op :: ops) wallet = effective [op] wallet ++ effective ops wallet := by
  rw [effective, effective, effective, ← filter_append]
  rfl

lemma runWithDb_deferred (op : ActiveOp) : Triple (Deferred m d work publishing) op.runWithDb
      (fun _ => Deferred m d (recordAll (effective [op] m) work)
        (publishAll (effective [op] m) ∘ publishing)) (fun _ => Deferring m d fun _ _ => True) := by
  cases op with
  | add id type internal => exact addActive_deferred id type internal
  | deactivate id type internal =>
    refine (deactivate_deferred id type internal).weaken ?_ fun _ _ h => h
    intro _ s hs
    by_cases hactive : m.getScriptPubKeyMan type internal = some id
    · have heffective :
          effective [deactivate id type internal] m = [deactivate id type internal] := by
        simp [effective, acts, hactive]
      rw [if_pos hactive] at hs
      rw [heffective]
      exact hs
    · have heffective : effective [deactivate id type internal] m = [] := by
        simp [effective, acts, hactive]
      rw [if_neg hactive] at hs
      rw [heffective]
      exact hs

lemma runAllWithDb_deferred (ops : List ActiveOp) :
    Triple (Deferred m d work publishing) (ops.forM runWithDb)
      (fun _ => Deferred m d (recordAll (effective ops m) work) (publishAll (effective ops m) ∘
        publishing))
      (fun _ => Deferring m d fun _ _ => True) := by
  induction ops generalizing work publishing with
  | nil => exact .pure fun s h => h
  | cons op ops ih =>
    refine .bind (runWithDb_deferred op) fun _ => ih.weaken ?_ fun _ _ h => h
    intro _ s hs
    have hpublish : publishAll (effective [op] m ++ effective ops m) ∘ publishing =
        publishAll (effective ops m) ∘ publishAll (effective [op] m) ∘ publishing :=
      funext fun wallet => publishAll_append ..
    rw [effective_cons, recordAll_append, hpublish]
    exact hs

lemma runWithinTxn_outside {body : WalletAction Unit}
    (hbody : Triple (Deferred m d d id) body (fun _ => Deferred m d work publishing)
      (fun _ => Deferring m d fun _ _ => True)) :
    Triple (Outside m d) (runWithinTxn (do body; return true))
      (fun done => cond done (Outside (publishing m) work) (Outside m d))
      (Reverted (fun x => x = m) d) := by
  refine (Triple.runWithinTxn_deferring
    (Q := fun w p => w = work ∧ p = publishing) (c := fun _ => True) ?_
    fun _ _ h => ⟨trivial, h⟩).weaken ?_ fun _ _ h => h.reverted
  · exact Triple.bind hbody fun _ => Triple.pure fun s h => ⟨_, _, h, rfl, rfl⟩
  · rintro (_ | _) s hs
    · exact hs
    · obtain ⟨w, p, ⟨rfl, rfl⟩, houtside⟩ := hs
      exact houtside

lemma deactivate_outside (id : Uint256) (type : OutputType) (internal : Bool) :
    Triple (Outside m d) (deactivateScriptPubKeyMan id type internal)
      (fun _ => Outside (publishAll (effective [deactivate id type internal] m) m)
        (recordAll (effective [deactivate id type internal] m) d))
      (Reverted (fun x => x = m) d) := by
  refine .branch (runWithinTxn_outside (runWithDb_deferred (deactivate id type internal))) ?_ ?_
  · exact .pure fun s h => h
  · exact .throw fun s h => .inr h

end

/-- A committed call on its own, or a committed transaction of several. -/
inductive Step where
  | alone (op : ActiveOp)
  | together (ops : List ActiveOp)

namespace Step

def ops : Step → List ActiveOp
  | alone op => [op]
  | together ops => ops

/-- The step was committed and led from one state to the other. -/
def Commits (step : Step) (before after : Session CWallet Records) : Prop :=
  match step with
  | alone op => op.run before = .ok () after
  | together ops => runWithinTxn (do ops.forM runWithDb; return true) before = .ok true after

lemma Commits.outside {step : Step} {before after : Session CWallet Records}
    (hcommits : step.Commits before after) (hclosed : before.txn = none) :
    Outside (publishAll (effective step.ops before.memory) before.memory)
      (recordAll (effective step.ops before.memory) before.database) after := by
  have hbefore : Outside before.memory before.database before := ⟨rfl, rfl, hclosed⟩
  cases step with
  | alone op =>
    cases op with
    | add id type internal =>
      exact (addActive_outside id type internal before hbefore).1 _ _ hcommits
    | deactivate id type internal =>
      exact (deactivate_outside id type internal before hbefore).1 _ _ hcommits
  | together ops =>
    exact (runWithinTxn_outside (runAllWithDb_deferred ops) before hbefore).1 true after hcommits

end Step

/-- No call of the list meets ambiguous records. -/
def UnambiguousAll : List ActiveOp → Records → Prop
  | [], _ => True
  | op :: ops, records => op.Unambiguous records ∧ UnambiguousAll ops (op.record records)

lemma Manages.of_spkManagers {op : ActiveOp} {other : CWallet} (h : op.Manages wallet)
    (heq : other.spkManagers = wallet.spkManagers) : op.Manages other := by
  cases op with
  | add id type internal =>
    change id ∈ other.spkManagers
    rw [heq]
    exact h
  | deactivate id type internal => trivial

lemma spkManagers_publishAll (ops : List ActiveOp) (wallet : CWallet) :
    (publishAll ops wallet).spkManagers = wallet.spkManagers := by
  induction ops generalizing wallet with
  | nil => rfl
  | cons op ops ih => exact (ih (op.publish wallet)).trans (spkManagers_publish op wallet)

lemma mirrors_publishAll {ops : List ActiveOp} (hmirrors : wallet.active.Mirrors records)
    (hmanages : ∀ op ∈ ops, op.Manages wallet) (hunambiguous : UnambiguousAll ops records) :
    (publishAll ops wallet).active.Mirrors (recordAll ops records) := by
  induction ops generalizing wallet records with
  | nil => exact hmirrors
  | cons op ops ih =>
    have hop := hmanages op mem_cons_self
    apply ih ((mirrors_publish_iff hmirrors hop).2 hunambiguous.1)
    · intro other hmem
      exact (hmanages other (mem_cons_of_mem op hmem)).of_spkManagers
        (spkManagers_publish op wallet)
    · exact hunambiguous.2

lemma manned_recordAll {ops : List ActiveOp} (hmanned : records.Manned wallet)
    (hmanages : ∀ op ∈ ops, op.Manages wallet) : (recordAll ops records).Manned wallet := by
  induction ops generalizing records with
  | nil => exact hmanned
  | cons op ops ih =>
    refine ih ?_ fun other hmem => hmanages other (mem_cons_of_mem op hmem)
    have hop := hmanages op mem_cons_self
    intro kind type id hrecord
    cases op with
    | add new type' internal =>
      simp only [record, activeSpk_set] at hrecord
      split at hrecord
      · rw [some_inj] at hrecord
        rw [← hrecord]
        exact hop
      · exact hmanned kind type id hrecord
    | deactivate old type' internal =>
      simp only [record, activeSpk_set] at hrecord
      split at hrecord
      · cases hrecord
      · exact hmanned kind type id hrecord

/-- A run of committed steps, with the state after each of them. -/
abbrev Run := List (Step × Session CWallet Records)

/-- Each step of the run was committed in the state before it. -/
def Committed : Session CWallet Records → Run → Prop
  | _, [] => True
  | s, (step, next) :: run => step.Commits s next ∧ Committed next run

/-- No step of the run meets ambiguous records. -/
def UnambiguousRun : Session CWallet Records → Run → Prop
  | _, [] => True
  | s, (step, next) :: run =>
    UnambiguousAll (effective step.ops s.memory) s.database ∧ UnambiguousRun next run

/-- The active maps in memory are those a reload of the database gives. -/
def Persistent (s : Session CWallet Records) : Prop :=
  s.memory.reloadActive s.database = some s.memory.active

section

variable {step : Step} {s next : Session CWallet Records}

variable (hcommits : step.Commits s next) (hclosed : s.txn = none) (hpersistent : Persistent s)
include hcommits hclosed hpersistent

lemma Step.Commits.persistent_iff (hmanages : ∀ op ∈ step.ops, op.Manages s.memory) :
    Persistent next ↔
      (publishAll (effective step.ops s.memory) s.memory).active.Mirrors
        (recordAll (effective step.ops s.memory) s.database) := by
  have hnext := hcommits.outside hclosed
  have hmanned : (recordAll (effective step.ops s.memory) s.database).Manned s.memory :=
    manned_recordAll (manned_of_reloadActive hpersistent) fun op hmem =>
      hmanages op (mem_of_mem_filter hmem)
  rw [Persistent, hnext.memory, hnext.database]
  apply reloadActive_eq_some_iff
  intro kind type id hrecord
  rw [spkManagers_publishAll]
  exact hmanned kind type id hrecord

lemma Step.Commits.persistent (hmanages : ∀ op ∈ step.ops, op.Manages s.memory)
    (hunambiguous : UnambiguousAll (effective step.ops s.memory) s.database) : Persistent next := by
  have hmirrors := (reloadActive_eq_some_iff (manned_of_reloadActive hpersistent)).1 hpersistent
  apply (hcommits.persistent_iff hclosed hpersistent hmanages).2
  exact mirrors_publishAll hmirrors (fun op hmem => hmanages op (mem_of_mem_filter hmem))
    hunambiguous

lemma Step.Commits.unambiguous {op : ActiveOp} (hmanages : ∀ op ∈ step.ops, op.Manages s.memory)
    (hsingle : step.ops = [op])
    (hnext : Persistent next) : UnambiguousAll (effective step.ops s.memory) s.database := by
  have hmirrors := (reloadActive_eq_some_iff (manned_of_reloadActive hpersistent)).1 hpersistent
  have hafter := (hcommits.persistent_iff hclosed hpersistent hmanages).1 hnext
  rw [hsingle] at hafter hmanages ⊢
  by_cases hacts : op.acts s.memory = true
  · have heffective : effective [op] s.memory = [op] := filter_cons_of_pos hacts
    rw [heffective] at hafter ⊢
    exact ⟨(mirrors_publish_iff hmirrors (hmanages op mem_cons_self)).1 hafter, trivial⟩
  · have heffective : effective [op] s.memory = [] := filter_cons_of_neg hacts
    rw [heffective]
    trivial

end

/-- The active maps persist through every run whose steps leave the records unambiguous, and through
no other run of single calls. -/
theorem active_maps_persist_iff (s : Session CWallet Records) (run : Run)
    (hclosed : s.txn = none) (hpersistent : Persistent s) (hrun : Committed s run)
    (hmanages : ∀ entry ∈ run, ∀ op ∈ entry.1.ops, op.Manages s.memory) :
    (UnambiguousRun s run → ∀ entry ∈ run, Persistent entry.2) ∧
      ((∀ entry ∈ run, ∃ op, entry.1.ops = [op]) →
        (∀ entry ∈ run, Persistent entry.2) → UnambiguousRun s run) := by
  induction run generalizing s with
  | nil => exact ⟨fun _ entry hmem => absurd hmem not_mem_nil, fun _ _ => trivial⟩
  | cons entry run ih =>
    obtain ⟨step, next⟩ := entry
    obtain ⟨hcommits, hrest⟩ := hrun
    have hstep : ∀ op ∈ step.ops, op.Manages s.memory := hmanages (step, next) mem_cons_self
    have hnext := hcommits.outside hclosed
    have hlater : ∀ entry ∈ run, ∀ op ∈ entry.1.ops, op.Manages next.memory := by
      intro entry hmem op hop
      apply (hmanages entry (mem_cons_of_mem _ hmem) op hop).of_spkManagers
      rw [hnext.memory]
      exact spkManagers_publishAll _ _
    constructor
    · rintro ⟨hunambiguous, hothers⟩ entry hmem
      have hnow := hcommits.persistent hclosed hpersistent hstep hunambiguous
      rcases mem_cons.1 hmem with rfl | hmem
      · exact hnow
      · exact (ih next hnext.txn hnow hrest hlater).1 hothers entry hmem
    · intro hsingle hall
      obtain ⟨op, hop⟩ := hsingle (step, next) mem_cons_self
      have hnow : Persistent next := hall (step, next) mem_cons_self
      refine ⟨hcommits.unambiguous hclosed hpersistent hstep hop hnow, ?_⟩
      exact (ih next hnext.txn hnow hrest hlater).2
        (forall_mem_cons.1 hsingle).2
        (forall_mem_cons.1 hall).2

/-- A wallet with one manager and an empty database. -/
def oneManager : Session CWallet Records where
  memory := { CWallet.blank with
    spkManagers := AList.singleton 1 (.new ⟨⟨.raw [], 0, 0, 0, 1⟩, 1, ∅⟩ 1) }
  database := fun _ => none
  txn := none
  faults := fun _ => false

/-- The manager is made external for one type and internal for another one, and given up again. -/
theorem active_maps_persist_iff_external : ∃ first second third,
    Committed oneManager [(.alone (.add 1 .bech32 false), first),
        (.alone (.add 1 .legacy true), second), (.alone (.deactivate 1 .bech32 false), third)] ∧
      second.memory.getScriptPubKeyMan .bech32 false = some 1 ∧
      third.memory.getScriptPubKeyMan .bech32 false = none ∧
      Persistent first ∧ Persistent second ∧ Persistent third := by
  have hcommitted : Committed oneManager [(.alone (.add 1 .bech32 false), _),
      (.alone (.add 1 .legacy true), _), (.alone (.deactivate 1 .bech32 false), _)] :=
    ⟨rfl, rfl, rfl, trivial⟩
  have hpersist := (active_maps_persist_iff oneManager _ rfl rfl hcommitted ?_).1
    ⟨⟨show oneManager.database.activeSpk true .bech32 ≠ some 1 by decide, trivial⟩,
      ⟨fun both hboth => (nomatch (show none = some both from hboth)), trivial⟩,
      ⟨trivial, trivial⟩, trivial⟩
  · exact ⟨_, _, _, hcommitted, rfl, rfl, hpersist _ mem_cons_self,
      hpersist _ (mem_cons_of_mem _ mem_cons_self),
      hpersist _ (mem_cons_of_mem _ (mem_cons_of_mem _ mem_cons_self))⟩
  · intro entry hentry op hop
    simp only [mem_cons, not_mem_nil, or_false] at hentry
    rcases hentry with rfl | rfl | rfl
    all_goals
      rw [Step.ops, mem_singleton] at hop
      rw [hop]
    · exact AList.mem_keys.1 (by decide)
    · exact AList.mem_keys.1 (by decide)
    · trivial

/-- Made internal and then external, the manager is external in memory and internal after a
reload. -/
theorem active_maps_differ_after_reload : ∃ between after, Persistent oneManager ∧
      Committed oneManager [(.alone (.add 1 .bech32 true), between),
        (.alone (.add 1 .bech32 false), after)] ∧
      after.memory.getScriptPubKeyMan .bech32 false = some 1 ∧
      (after.memory.reloadActive after.database).map (fun active => active.managers false .bech32) =
        some none ∧ ¬Persistent after := by
  refine ⟨_, _, rfl, ⟨rfl, rfl, trivial⟩, rfl, rfl, ?_⟩
  intro h
  have hentry := congrArg (Option.map fun active => active.managers false .bech32) h
  exact absurd hentry (by decide)

end ActiveOp

end Tidecoin
