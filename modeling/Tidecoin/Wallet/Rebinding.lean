import Tidecoin.Wallet.PolicyUpdate

/-!
What a change of the policy leaves in the wallet. The memory after the commit is the one a load of
the database gives but for the active managers, where a binding writes one record and changes both
maps of its type. Each type is judged by the two calls the loop makes for it.
-/

namespace Tidecoin

open Lib ActiveMaps List Records Option AList

variable {wallet other : CWallet} {type : OutputType} {params : Params} {start : Records}
  {created : Created} {s : Session CWallet Records}

namespace ActiveOp

variable {op : ActiveOp} {ops : List ActiveOp} {records base : Records}

lemma managers_publish_congr (hwallet : op.Manages wallet) (hother : op.Manages other)
    (hagree : ∀ kind, wallet.active.managers kind type = other.active.managers kind type)
    (kind : Bool) :
    (op.publish wallet).active.managers kind type =
      (op.publish other).active.managers kind type := by
  cases op with
  | add id type' internal =>
    rw [publish, publish, managers_activated hwallet, managers_activated hother, hagree]
  | deactivate id type' internal =>
    rw [publish, publish, CWallet.deactivated, CWallet.deactivated, managers_erase,
      managers_erase, hagree]

lemma managers_publishAll_filter (hwallet : ∀ op ∈ ops, op.Manages wallet)
    (hother : ∀ op ∈ ops, op.Manages other)
    (hagree : ∀ kind, wallet.active.managers kind type = other.active.managers kind type)
    (kind : Bool) :
    (publishAll ops wallet).active.managers kind type =
      (publishAll (ops.filter fun op => op.type = type) other).active.managers kind type := by
  induction ops generalizing wallet other with
  | nil => exact hagree kind
  | cons op ops ih =>
    have hop := hwallet op mem_cons_self
    have hop' := hother op mem_cons_self
    have hrest : ∀ next ∈ ops, next.Manages (op.publish wallet) := fun next hnext =>
      (hwallet next (mem_cons_of_mem _ hnext)).of_spkManagers (spkManagers_publish op wallet)
    have hrest' : ∀ next ∈ ops, next.Manages other := (forall_mem_cons.1 hother).2
    by_cases htype : op.type = type
    · rw [filter_cons_of_pos (by simpa using htype)]
      apply ih hrest
      · intro next hnext
        exact (hrest' next hnext).of_spkManagers (spkManagers_publish op other)
      · exact managers_publish_congr hop hop' hagree
    · rw [filter_cons_of_neg (by simpa using htype)]
      apply ih hrest hrest'
      intro kind
      rw [managers_publish_of_ne hop htype]
      exact hagree kind

lemma activeSpk_recordAll_filter
    (hagree : ∀ kind, records.activeSpk kind type = base.activeSpk kind type) (kind : Bool) :
    (recordAll ops records).activeSpk kind type =
      (recordAll (ops.filter fun op => op.type = type) base).activeSpk kind type := by
  induction ops generalizing records base with
  | nil => exact hagree kind
  | cons op ops ih =>
    by_cases htype : op.type = type
    · rw [filter_cons_of_pos (by simpa using htype)]
      apply ih
      intro kind
      cases op with
      | add id type' internal => simp [record, activeSpk_set, hagree]
      | deactivate id type' internal => simp [record, activeSpk_set, hagree]
    · rw [filter_cons_of_neg (by simpa using htype)]
      apply ih
      intro kind
      rw [activeSpk_record_of_ne htype]
      exact hagree kind

end ActiveOp

section

variable [DescriptorHash] {policy : PQHDPolicy} {base : CWallet}

lemma CWallet.filter_planned (targets : List (Bool × OutputType)) (type : OutputType) :
    (base.planned params policy targets).filter (fun op => op.type = type) =
      base.planned params policy (targets.filter fun target => target.2 = type) := by
  induction targets with
  | nil => rfl
  | cons target targets ih =>
    by_cases htype : target.2 = type <;> cases hbinding : base.binding params policy target <;>
      simp_all [planned, ActiveOp.type]

lemma CWallet.getScriptPubKeyMan_ne_of_binding {target : Bool × OutputType} {id : Uint256}
    (h : base.binding params policy target = some id) :
    base.active.managers target.1 target.2 ≠ some id := by
  rw [binding, filter_eq_some_iff] at h
  exact of_decide_eq_true h.2

omit [DescriptorHash] in
lemma syncTargets_filter (htype : type ≠ .unknown) :
    syncTargets.filter (fun target => target.2 = type) = [(false, type), (true, type)] := by
  cases type with
  | unknown => exact absurd rfl htype
  | _ => rfl

omit [DescriptorHash] in
lemma ActiveMaps.mirrorsAt_congr {active active' : ActiveMaps} {records records' : Records}
    (hmanagers : ∀ kind, active'.managers kind type = active.managers kind type)
    (hrecords : ∀ kind, records'.activeSpk kind type = records.activeSpk kind type) :
    active'.MirrorsAt records' type ↔ active.MirrorsAt records type := by
  rw [MirrorsAt, hmanagers, hmanagers, hrecords, hrecords, MirrorsAt]

section

variable (wallet : CWallet) (params : Params) (policy : PQHDPolicy) (records : Records)

/-- The bindings of a policy leave the records of a type unambiguous. A manager the internal record
names becomes the external one only where the internal one changes as well, and where both records
name one manager the internal one changes only with the external one. -/
def CWallet.RebindsAt (type : OutputType) : Prop :=
  (∀ id, wallet.binding params policy (false, type) = some id →
    records.activeSpk true type = some id →
      (wallet.binding params policy (true, type)).isSome) ∧
  ∀ both, records.activeSpk false type = some both → records.activeSpk true type = some both →
    (wallet.binding params policy (true, type)).isSome →
      (wallet.binding params policy (false, type)).isSome

def CWallet.RebindsInStep : Prop :=
  ∀ type ∈ outputTypes, wallet.RebindsAt params policy records type

end

/-- The two calls for a type keep its maps in step with its records exactly where they leave the
records unambiguous. -/
theorem mirrorsAt_planned_iff (hmirrors : base.active.MirrorsAt start type)
    (hactive : wallet.active = base.active)
    (hmanages : ∀ op ∈ base.planned params policy [(false, type), (true, type)],
      op.Manages wallet) :
    (ActiveOp.publishAll (base.planned params policy [(false, type), (true, type)])
      wallet).active.MirrorsAt
        (ActiveOp.recordAll (base.planned params policy [(false, type), (true, type)]) start) type ↔
      base.RebindsAt params policy start type := by
  rw [← hactive] at hmirrors
  unfold CWallet.RebindsAt
  cases hexternal : base.binding params policy (false, type) with
  | none =>
    cases hinternal : base.binding params policy (true, type) with
    | none =>
      have hplanned : base.planned params policy [(false, type), (true, type)] = [] := by
        simp [CWallet.planned, hexternal, hinternal]
      rw [hplanned]
      exact iff_of_true hmirrors (by simp)
    | some new =>
      have hplanned : base.planned params policy [(false, type), (true, type)] =
          [.add new type true] := by
        simp [CWallet.planned, hexternal, hinternal]
      rw [hplanned] at hmanages ⊢
      have hop : (ActiveOp.add new type true).Manages wallet := hmanages _ mem_cons_self
      have hnew : start.activeSpk true type ≠ some new := by
        rw [← hmirrors.1, hactive]
        exact CWallet.getScriptPubKeyMan_ne_of_binding hinternal
      refine (ActiveOp.mirrorsAt_publish_iff hop hmirrors).trans ⟨?_, ?_⟩
      · refine fun hsame => ⟨by simp, fun both hfalse htrue => absurd ?_ hnew⟩
        rw [← hsame both hfalse htrue, htrue]
      · exact fun hrebinds both hfalse htrue =>
          absurd (hrebinds.2 both hfalse htrue rfl) Bool.false_ne_true
  | some new =>
    cases hinternal : base.binding params policy (true, type) with
    | none =>
      have hplanned : base.planned params policy [(false, type), (true, type)] =
          [.add new type false] := by
        simp [CWallet.planned, hexternal, hinternal]
      rw [hplanned] at hmanages ⊢
      have hop : (ActiveOp.add new type false).Manages wallet := hmanages _ mem_cons_self
      refine (ActiveOp.mirrorsAt_publish_iff hop hmirrors).trans ?_
      simp [ActiveOp.Unambiguous]
    | some new' =>
      have hplanned : base.planned params policy [(false, type), (true, type)] =
          [.add new type false, .add new' type true] := by
        simp [CWallet.planned, hexternal, hinternal]
      rw [hplanned] at hmanages ⊢
      have hmem : new ∈ wallet.spkManagers := hmanages _ mem_cons_self
      have hmem' : new' ∈ (wallet.activated new type false).spkManagers := by
        have hmanagers := ActiveOp.spkManagers_publish (.add new type false) wallet
        rw [ActiveOp.publish] at hmanagers
        rw [hmanagers]
        exact hmanages (.add new' type true) (by simp)
      refine iff_of_true ?_ (by simp)
      change ((wallet.activated new type false).activated new' type true).active.managers true
        type = _ ∧
        ((wallet.activated new type false).activated new' type true).active.managers false type = _
      simp [ActiveOp.managers_activated hmem', ActiveOp.managers_activated hmem, ActiveOp.recordAll,
        ActiveOp.record, activeSpk_set]

/-- The bindings of a policy keep the active maps those a reload gives exactly if they leave the
records unambiguous. -/
theorem mirrors_planned_iff (hmirrors : base.active.Mirrors start)
    (hactive : wallet.active = base.active)
    (hmanages : ∀ op ∈ base.planned params policy syncTargets, op.Manages wallet) :
    (ActiveOp.publishAll (base.planned params policy syncTargets) wallet).active.Mirrors
        (ActiveOp.recordAll (base.planned params policy syncTargets) start) ↔
      base.RebindsInStep params policy start := by
  have hmanagers : ∀ kind type,
      (ActiveOp.publishAll (base.planned params policy syncTargets) wallet).active.managers
        kind type =
        (ActiveOp.publishAll (base.planned params policy
          (syncTargets.filter fun target => target.2 = type)) wallet).active.managers kind
            type := by
    intro kind type
    rw [ActiveOp.managers_publishAll_filter hmanages hmanages (fun _ => rfl),
      CWallet.filter_planned]
  have hrecords : ∀ kind type,
      (ActiveOp.recordAll (base.planned params policy syncTargets) start).activeSpk kind type =
        (ActiveOp.recordAll (base.planned params policy
          (syncTargets.filter fun target => target.2 = type)) start).activeSpk kind type := by
    intro kind type
    rw [ActiveOp.activeSpk_recordAll_filter (fun _ => rfl), CWallet.filter_planned]
  have hat :=
    fun type => mirrorsAt_congr (fun kind => hmanagers kind type) fun kind => hrecords kind type
  have hknown :
      ∀ type, type ≠ .unknown → ((ActiveOp.publishAll (base.planned params policy syncTargets)
      wallet).active.MirrorsAt (ActiveOp.recordAll (base.planned params policy syncTargets)
        start) type ↔
        base.RebindsAt params policy start type) := by
    intro type htype
    rw [hat, syncTargets_filter htype]
    apply mirrorsAt_planned_iff (hmirrors type) hactive
    intro op hop
    rw [← syncTargets_filter htype, ← CWallet.filter_planned] at hop
    exact hmanages op (mem_of_mem_filter hop)
  constructor
  · intro hafter type htypes
    refine (hknown type ?_).1 (hafter type)
    rintro rfl
    exact absurd htypes (by decide)
  · intro hrebinds type
    cases type with
    | unknown =>
      apply (hat .unknown).2
      exact hactive ▸ hmirrors .unknown
    | _ => exact (hknown _ (by decide)).2 (hrebinds _ (by decide))

end

namespace CWallet

lemma modifyManager_rest (wallet : CWallet) (id : Uint256)
    (f : DescriptorScriptPubKeyMan → DescriptorScriptPubKeyMan) : wallet.modifyManager id f =
      { wallet with spkManagers := (wallet.modifyManager id f).spkManagers } := by
  cases hlookup : wallet.spkManagers.lookup id with
  | none => rw [modifyManager, hlookup, elim_none]
  | some manager => rw [modifyManager_eq hlookup]

lemma settled_rest (created : Created) (wallet : CWallet) : settled created wallet = { wallet with
      spkManagers := (settled created wallet).spkManagers
      walletFlagsTxnSnapshot :=
        if created.isEmpty then wallet.walletFlagsTxnSnapshot else none } := by
  have hfold : ∀ (entries : Created) (start : CWallet),
      entries.foldr (fun entry wallet => wallet.modifyManager entry.1 fun current =>
        { current with mutationBatch := false }) start = { start with
          spkManagers :=
            (entries.foldr (fun entry wallet => wallet.modifyManager entry.1 fun current =>
            { current with mutationBatch := false }) start).spkManagers } := by
    intro entries start
    induction entries with
    | nil => rfl
    | cons entry entries ih =>
      rw [foldr_cons]
      apply (modifyManager_rest ..).trans
      rw [ih]
  exact hfold created _

lemma lookup_settled (created : Created) (wallet : CWallet) (id : Uint256) :
    (settled created wallet).spkManagers.lookup id =
      (wallet.spkManagers.lookup id).map fun manager =>
        { manager with mutationBatch := if id ∈ created.keys then false else
          manager.mutationBatch } := by
  have hfold : ∀ (entries : Created) (start : CWallet),
      (entries.foldr (fun entry wallet => wallet.modifyManager entry.1 fun current =>
        { current with mutationBatch := false }) start).spkManagers.lookup id =
      (start.spkManagers.lookup id).map fun manager =>
        { manager with mutationBatch := if id ∈ entries.keys then false else
          manager.mutationBatch } := by
    intro entries start
    induction entries with
    | nil => simp
    | cons entry entries ih =>
      rw [foldr_cons]
      by_cases heq : id = entry.1
      · subst heq
        cases hlookup : start.spkManagers.lookup entry.1 with
        | none =>
          rw [hlookup, map_none] at ih
          rw [modifyManager_of_notMem (lookup_eq_none.1 ih), ih]
          rfl
        | some manager =>
          rw [hlookup, map_some] at ih
          rw [lookup_modifyManager ih]
          simp
      · rw [lookup_modifyManager_of_ne heq, ih]
        simp [heq]
  exact hfold created _

lemma image_of_batches [Crypto] (hmanagers : ∀ id, ∃ batch : DescriptorScriptPubKeyMan → Bool,
      other.spkManagers.lookup id = (wallet.spkManagers.lookup id).map fun manager =>
        { manager with mutationBatch := batch manager })
    (hmaster : other.mapMasterKeys = wallet.mapMasterKeys)
    (hseeds : other.pqhdSeeds = wallet.pqhdSeeds)
    {key : DBKey} (hkey : key.interpreted = false) : other.image key = wallet.image key := by
  cases key with
  | activeSpk | pqhdPolicy | flags => cases hkey
  | masterKey nID => rw [image, image, hmaster]
  | pqhdSeed seedId | pqhdCryptedSeed seedId => rw [image, image, hseeds]
  | walletDescriptor id | walletDescriptorPubkeyCache id | walletDescriptorKey id
  | walletDescriptorCKey id =>
    obtain ⟨batch, hlookup⟩ := hmanagers id
    rw [image, image, hlookup]
    cases wallet.spkManagers.lookup id <;> rfl

end CWallet

lemma loadPQHDPolicy_of_syncCheck {policy : PQHDPolicy} {schemes : PolicySchemes}
    (h : wallet.syncCheck policy = .ok schemes) : loadPQHDPolicy policy = .ok policy := by
  obtain ⟨hseeds, hreceive, hchange⟩ := CWallet.syncCheck_eq_ok h
  have hnormal : ∀ {scheme : UInt8} {id : SchemeId}, schemeFromPrefix scheme = some id →
      scheme ≠ 0 ∧ normalizeScheme scheme = .ok scheme := by
    intro scheme id hscheme
    have hne : scheme ≠ 0 := by
      rintro rfl
      cases hscheme
    refine ⟨hne, ?_⟩
    rw [normalizeScheme, if_neg hne, hscheme]
    rfl
  have hseed : policy.defaultChangeSeedId ≠ 0 := (hseeds true).1
  unfold loadPQHDPolicy
  simp only [hnormal hreceive, hnormal hchange, hseed, if_false]
  rfl

namespace PolicyStored

variable [Crypto] [DescriptorHash] {policy : PQHDPolicy} {m : CWallet} {d : Records}

lemma memory_eq (hsane : m.Sane) {listeners : List (Listener CWallet)} {work : Records}
    {targets : List (Bool × OutputType)}
    (h : SyncProgress params policy { m with pqhdPolicy := some policy } start targets
      targets created
      wallet listeners work) :
    ∃ active, commitAll listeners wallet = { m with
      pqhdPolicy := some policy
      spkManagers := (CWallet.settled created wallet).spkManagers
      walletFlags := wallet.walletFlags
      active := active } := by
  obtain ⟨active, hactive⟩ := ActiveOp.publishAll_rest
    (CWallet.planned { m with pqhdPolicy := some policy } params policy targets)
    (.settled created wallet)
  rw [h.publish, hactive, CWallet.settled_rest]
  have hsnapshot := h.snapshot
  obtain ⟨managers, flags, snapshot, rfl⟩ := h.rest
  subst hsnapshot
  cases created with
  | nil => simp [hsane.snapshot]
  | cons entry created => simp [hsane.snapshot]

section

variable {listeners : List (Listener CWallet)} {work : Records} {targets : List (Bool × OutputType)}

omit [DescriptorHash] [Crypto] in
lemma mem_settled {id : Uint256} :
    id ∈ (CWallet.settled created wallet).spkManagers ↔ id ∈ wallet.spkManagers := by
  rw [← lookup_isSome, CWallet.lookup_settled, isSome_map, lookup_isSome]

lemma stored (hsane : m.Sane) (hstored : m.Stored start)
    (h : SyncProgress params policy { m with pqhdPolicy := some policy } start targets
      targets created
      wallet listeners work) : (commitAll listeners wallet).Stored work := by
  have hbase : CWallet.Stored { m with pqhdPolicy := some policy } start := by
    intro key hkey
    rw [hstored key hkey]
    apply CWallet.image_of_batches _ _ _ hkey
    · exact fun id => ⟨DescriptorScriptPubKeyMan.mutationBatch, map_id'.symm⟩
    · rfl
    · rfl
  obtain ⟨active, hmemory⟩ := memory_eq hsane h
  intro key hkey
  rw [h.stored hbase key hkey, hmemory]
  obtain ⟨managers, flags, snapshot, hrest⟩ := h.rest
  symm
  apply CWallet.image_of_batches _ _ _ hkey
  · exact fun id => ⟨_, CWallet.lookup_settled created wallet id⟩
  · rw [hrest]
  · rw [hrest]

lemma manned (hmanned : start.Manned m)
    (h : SyncProgress params policy { m with pqhdPolicy := some policy } start targets
      targets created
      wallet listeners work) : work.Manned (commitAll listeners wallet) := by
  have hstart : start.Manned wallet := by
    intro internal type id hrecord
    have hmem : id ∈ m.spkManagers := hmanned internal type id hrecord
    rw [← lookup_isSome, h.lookup_base hmem]
    exact lookup_isSome.2 hmem
  intro internal type id hrecord
  rw [h.active] at hrecord
  rw [h.publish, ActiveOp.spkManagers_publishAll, mem_settled]
  exact ActiveOp.manned_recordAll hstart h.managed internal type id hrecord

lemma mirrors_iff (hmirrors : m.active.Mirrors start)
    (h : SyncProgress params policy { m with pqhdPolicy := some policy } start syncTargets
      syncTargets
      created wallet listeners work) :
    (commitAll listeners wallet).active.Mirrors work ↔ m.RebindsInStep params policy start := by
  have hactive : (CWallet.settled created wallet).active = m.active := by
    rw [CWallet.settled_rest]
    exact h.active_eq
  have hmanages :
      ∀ op ∈ CWallet.planned { m with pqhdPolicy := some policy } params policy syncTargets,
      op.Manages (CWallet.settled created wallet) := by
    intro op hop
    have hop' := h.managed op hop
    cases op with
    | add id type internal => exact mem_settled.2 hop'
    | deactivate id type internal => trivial
  rw [h.publish]
  refine Iff.trans ?_ (mirrors_planned_iff hmirrors hactive hmanages)
  exact forall_congr' fun type => mirrorsAt_congr (fun _ => rfl) fun kind => h.active kind type

end

/-- After a policy was stored the memory is what a load of the database gives exactly if the new
bindings left the records unambiguous. -/
theorem persisted_iff (hsane : m.Sane) (hpersisted : m.Persisted d)
    (h : PolicyStored params policy m d s) :
    s.memory.Persisted s.database ↔ m.RebindsInStep params policy d := by
  obtain ⟨-, ⟨schemes, hschemes⟩, created, wallet, listeners, hprogress, hmemory⟩ := h
  have hstart :
      ∀ kind type, (d.set .pqhdPolicy (some policy)).activeSpk kind type = d.activeSpk kind type :=
    fun kind type => set_of_ne (by simp) _
  have hmanned : (d.set .pqhdPolicy (some policy)).Manned m := by
    intro internal type id hrecord
    exact manned_of_reloadActive hpersisted.active internal type id hrecord
  have hmirrors : m.active.Mirrors (d.set .pqhdPolicy (some policy)) := by
    intro type
    apply (mirrorsAt_congr (fun _ => rfl) fun kind => hstart kind type).2
    exact (reloadActive_eq_some_iff (manned_of_reloadActive hpersisted.active)).1
      hpersisted.active type
  have hstored : m.Stored (d.set .pqhdPolicy (some policy)) := by
    intro key hkey
    have hne : key ≠ .pqhdPolicy := by
      rintro rfl
      cases hkey
    rw [set_of_ne hne]
    exact hpersisted.stored key hkey
  have hflags : ((d.set .pqhdPolicy (some policy)) .flags).getD 0 = m.walletFlags := by
    exact hpersisted.flags
  have hrebinds : m.RebindsInStep params policy (d.set .pqhdPolicy (some policy)) ↔
      m.RebindsInStep params policy d := by
    simp [CWallet.RebindsInStep, CWallet.RebindsAt, hstart]
  obtain ⟨active, hrest⟩ := memory_eq hsane hprogress
  rw [← hrebinds, ← mirrors_iff hmirrors hprogress, ← reloadActive_eq_some_iff
    (manned hmanned hprogress),
    hmemory]
  constructor
  · exact fun hafter => hafter.active
  · intro hactive
    refine ⟨stored hsane hstored hprogress, ?_, ?_, hactive⟩
    · rw [hprogress.recorded hflags, hrest]
    · rw [loadedPolicy, hprogress.seeds .pqhdPolicy rfl, set_same, elim_some,
        loadPQHDPolicy_of_syncCheck hschemes, hrest]
      rfl

end PolicyStored

lemma CWallet.flags_of_policyAllowed {requires : String} {policy : PQHDPolicy}
    (h : wallet.policyAllowed requires = .ok policy) :
    wallet.isWalletFlagSet walletFlagDescriptors ∧
      wallet.isWalletFlagSet walletFlagExternalSigner = false := by
  unfold policyAllowed at h
  cases hdisabled : wallet.isWalletFlagSet (walletFlagDisablePrivateKeys
    ||| walletFlagExternalSigner) with
  | true =>
    simp only [hdisabled, if_true] at h
    cases h
  | false =>
    cases hdescriptors : wallet.isWalletFlagSet walletFlagDescriptors with
    | false =>
      simp only [hdisabled, hdescriptors, Bool.not_false, Bool.false_eq_true, if_true,
        if_false] at h
      cases h
    | true =>
      have hnone : wallet.walletFlags &&& (walletFlagDisablePrivateKeys
        ||| walletFlagExternalSigner) = 0 := by
        simpa [isWalletFlagSet] using hdisabled
      have hsub : walletFlagExternalSigner =
          (walletFlagDisablePrivateKeys ||| walletFlagExternalSigner) &&&
            walletFlagExternalSigner := by decide
      have hsigner : wallet.walletFlags &&& walletFlagExternalSigner = 0 := by
        rw [hsub, ← UInt64.and_assoc, hnone, UInt64.zero_and]
      simpa [isWalletFlagSet] using hsigner

/-- The two calls that change the policy. -/
inductive PolicyUpdate where
  | schemes (receiveScheme changeScheme : Option UInt8)
  | seeds (receiveSeedId changeSeedId : Uint256)

namespace PolicyUpdate

/-- The policy a call asks for, or why it is refused. -/
def policy (update : PolicyUpdate) (params : Params) (wallet : CWallet) :
    Except String PQHDPolicy :=
  match update with
  | schemes receiveScheme changeScheme => do
      let policy ← wallet.policyAllowed "PQHD policy requires descriptor wallet"
      policy.withSchemes params wallet.targetHeightForOutputs receiveScheme changeScheme
  | seeds receiveSeedId changeSeedId => do
      let policy ← wallet.policyAllowed "PQHD seed defaults require descriptor wallet"
      wallet.withSeeds policy receiveSeedId changeSeedId

/-- The name of the transaction. -/
def what : PolicyUpdate → String
  | schemes _ _ => "PQHD policy update"
  | seeds _ _ => "PQHD seed defaults update"

section

variable [Crypto] [PqhdKeys] [Aes] [KeyCheck] [DescriptorHash]

def run (update : PolicyUpdate) (params : Params) (now : Nat) : WalletAction (Except String Unit) :=
  match update with
  | schemes receiveScheme changeScheme => setPQHDPolicy params now receiveScheme changeScheme
  | seeds receiveSeedId changeSeedId => setPQHDSeedDefaults params now receiveSeedId changeSeedId

variable {update : PolicyUpdate} {now : Nat}

lemma run_of_error {error : String} (h : update.policy params s.memory = .error error) :
    update.run params now s = .ok (.error error) s := by
  cases update with
  | schemes receiveScheme changeScheme =>
    rw [run, setPQHDPolicy, get_bind_apply]
    cases hallowed : s.memory.policyAllowed "PQHD policy requires descriptor wallet" with
    | error refused =>
      rw [policy, hallowed] at h
      cases h
      rfl
    | ok current =>
      rw [policy, hallowed] at h
      change current.withSchemes _ _ _ _ = _ at h
      simp only [h]
      rfl
  | seeds receiveSeedId changeSeedId =>
    rw [run, setPQHDSeedDefaults, get_bind_apply]
    cases hallowed : s.memory.policyAllowed "PQHD seed defaults require descriptor wallet" with
    | error refused =>
      rw [policy, hallowed] at h
      cases h
      rfl
    | ok current =>
      rw [policy, hallowed] at h
      change s.memory.withSeeds _ _ _ = _ at h
      simp only [h]
      rfl

variable {next : PQHDPolicy}

lemma run_of_ok (h : update.policy params s.memory = .ok next) :
    update.run params now s = storePolicy params now update.what next s := by
  cases update with
  | schemes receiveScheme changeScheme =>
    obtain ⟨current, hallowed, hnext⟩ := bind_eq_ok.1 h
    rw [run, setPQHDPolicy, get_bind_apply]
    simp only [hallowed, hnext]
    rfl
  | seeds receiveSeedId changeSeedId =>
    obtain ⟨current, hallowed, hnext⟩ := bind_eq_ok.1 h
    rw [run, setPQHDSeedDefaults, get_bind_apply]
    simp only [hallowed, hnext]
    rfl

omit [Crypto] [PqhdKeys] [Aes] [KeyCheck] [DescriptorHash] in
lemma flags_of_policy (h : update.policy params s.memory = .ok next) :
    s.memory.isWalletFlagSet walletFlagDescriptors ∧
      s.memory.isWalletFlagSet walletFlagExternalSigner = false := by
  cases update with
  | schemes receiveScheme changeScheme =>
    obtain ⟨current, hallowed, -⟩ := bind_eq_ok.1 h
    exact CWallet.flags_of_policyAllowed hallowed
  | seeds receiveSeedId changeSeedId =>
    obtain ⟨current, hallowed, -⟩ := bind_eq_ok.1 h
    exact CWallet.flags_of_policyAllowed hallowed

lemma run_stored (hsane : s.memory.Sane) (htxn : s.txn = none)
    (h : update.policy params s.memory = .ok next) : Ends (update.run params now s)
      (Answer (fun _ => PolicyStored params next s.memory s.database) (Outside s.memory s.database))
      (fun e after => e = .terminated ∧ after.txn.isSome ∧ after.database = s.database) := by
  obtain ⟨hdescriptors, hsigner⟩ := flags_of_policy h
  rw [run_of_ok h]
  exact storePolicy_outside hsane hdescriptors hsigner update.what s ⟨rfl, rfl, htxn⟩

/-- The call is all or nothing. A success leaves a memory that a load of the database gives, if it
was one before; an error leaves everything as it was; and the process ends only over the database it
started with. -/
def AtomicAt (update : PolicyUpdate) (params : Params) (now : Nat) (s : Session CWallet Records) :
    Prop :=
  Ends (update.run params now s)
    (Answer
      (fun _ after => after.txn = none ∧
        (s.memory.Persisted s.database → after.memory.Persisted after.database))
      (Outside s.memory s.database))
    fun e after => e = .terminated ∧ after.database = s.database

/-- A change of the policy is all or nothing exactly where its bindings leave the active records
unambiguous. -/
theorem atomicAt_iff (update : PolicyUpdate) (params : Params) (now : Nat)
    (s : Session CWallet Records)
    (hsane : s.memory.Sane) (htxn : s.txn = none) :
    update.AtomicAt params now s ↔ ∀ next after, update.policy params s.memory = .ok next →
      update.run params now s = .ok (.ok ()) after → s.memory.Persisted s.database →
        s.memory.RebindsInStep params next s.database := by
  cases hpolicy : update.policy params s.memory with
  | error error =>
    refine iff_of_true ?_ ?_
    · rw [AtomicAt, run_of_error hpolicy, ends_ok]
      exact ⟨rfl, rfl, htxn⟩
    · rintro next after ⟨⟩
  | ok next =>
    obtain ⟨hanswer, hstop⟩ : Ends (update.run params now s) _ _ := run_stored hsane htxn hpolicy
    constructor
    · rintro ⟨hatomic, -⟩ _ after ⟨rfl⟩ hrun hpersisted
      have hstored : PolicyStored params next s.memory s.database after := hanswer _ after hrun
      have hafter : after.txn = none ∧ (s.memory.Persisted s.database →
          after.memory.Persisted after.database) := hatomic _ after hrun
      exact (hstored.persisted_iff hsane hpersisted).1 (hafter.2 hpersisted)
    · intro hrebinds
      refine ⟨?_, fun e after hrun => ⟨(hstop e after hrun).1, (hstop e after hrun).2.2⟩⟩
      rintro (error | ⟨⟩) after hrun
      · exact hanswer _ after hrun
      · have hstored : PolicyStored params next s.memory s.database after := hanswer _ after hrun
        refine ⟨hstored.1, fun hpersisted => ?_⟩
        exact (hstored.persisted_iff hsane hpersisted).2 (hrebinds next after rfl hrun hpersisted)

end

/-- The key of an account of the seed 9. -/
def sampleKey (account : UInt32) (internal : Bool) : PubkeyProvider :=
  .pqhd 0 9 ([Pqhd.purpose, Pqhd.coinType, 7, account, if internal then 1 else 0].map
    fun component =>
    component ||| Pqhd.hardened) .hardened 7

def sampleManager (id : Uint256) (descriptor : Descriptor) :
    Sigma fun _ : Uint256 => DescriptorScriptPubKeyMan :=
  ⟨id, .new ⟨⟨descriptor, 0, 0, 0, 0⟩, id, ∅⟩ 1⟩

/-- The managers of a policy, and a manager of another account for the 64-byte witness programs. -/
def sampleManagers : AList fun _ : Uint256 => DescriptorScriptPubKeyMan where
  entries := [
    sampleManager 1 (.pkh (sampleKey 0 false)), sampleManager 2 (.sh (.wpkh (sampleKey 0 false))),
    sampleManager 3 (.wpkh (sampleKey 0 false)), sampleManager 4 (.pkh (sampleKey 0 true)),
    sampleManager 5 (.sh (.wpkh (sampleKey 0 true))), sampleManager 6 (.wpkh (sampleKey 0 true)),
    sampleManager 7 (.wsh512 (.pk (sampleKey 0 true))),
      sampleManager 8 (.wsh512 (.pk (sampleKey 1 false)))]
  nodupKeys := by
    unfold List.NodupKeys List.keys
    decide

/-- The manager 8 is the internal one of the type. -/
def sampleWallet : CWallet :=
  { CWallet.blank with
    spkManagers := sampleManagers
    active := {
      externalSpkManagers := fun
        | .legacy => some 1
        | .p2shSegwit => some 2
        | .bech32 => some 3
        | _ => none
      internalSpkManagers := fun
        | .legacy => some 4
        | .p2shSegwit => some 5
        | .bech32 => some 6
        | .bech32pq => some 8
        | _ => none }
    pqhdSeeds := AList.singleton 9 ⟨0, false, List.replicate 32 0, []⟩
    pqhdSeedIds := {9}
    pqhdPolicy := some ⟨7, 7, 9, 9⟩ }

/-- The manager 8 was made active for external and then for internal addresses, so both records name
it. -/
def twiceActive [Crypto] : Session CWallet Records where
  memory := sampleWallet
  database := sampleWallet.image.set (.activeSpk false .bech32pq) (some 8)
  txn := none
  faults := fun _ => false

lemma sane_sampleWallet : sampleWallet.Sane where
  keyed := by
    intro id manager hlookup
    have hentry := mem_lookup_iff.1 hlookup
    change (⟨id, manager⟩ : Sigma fun _ : Uint256 => DescriptorScriptPubKeyMan) ∈
      sampleManagers.entries
      at hentry
    simp only [sampleManagers, sampleManager, mem_cons, not_mem_nil, or_false, Sigma.mk.injEq,
      heq_eq_eq] at hentry
    rcases hentry with h | h | h | h | h | h | h | h <;> obtain ⟨rfl, rfl⟩ := h <;> exact ⟨rfl, rfl⟩
  managed := by
    intro internal type id hactive
    cases internal <;> cases type <;> cases hactive <;> exact mem_keys.1 (by decide)
  snapshot := rfl

lemma persisted_twiceActive [Crypto] : sampleWallet.Persisted twiceActive.database where
  stored := by
    intro key hkey
    refine set_of_ne ?_ _
    rintro rfl
    cases hkey
  flags := rfl
  policy := rfl
  active := by
    have hrecord : ∀ internal type, twiceActive.database.activeSpk internal type =
        if type = .bech32pq ∧ internal = false then some 8 else sampleWallet.active.managers
          internal type :=
      fun internal type => activeSpk_set ..
    refine (reloadActive_eq_some_iff ?_).2 ?_
    · intro internal type id hactive
      rw [hrecord] at hactive
      split at hactive
      · cases hactive
        exact mem_keys.1 (by decide)
      · exact sane_sampleWallet.managed internal type id hactive
    · intro type
      cases type <;> exact ⟨rfl, rfl⟩

/-- Whether a call succeeds. -/
def succeeded : EStateM.Result (Stop String) (Session CWallet Records) (Except String Unit) → Bool
  | .ok (.ok _) _ => true
  | _ => false

lemma exists_of_succeeded
    {result : EStateM.Result (Stop String) (Session CWallet Records) (Except String Unit)}
    (h : succeeded result) : ∃ after, result = .ok (.ok ()) after := by
  cases result with
  | ok answer after =>
    cases answer with
    | ok _ => exact ⟨after, rfl⟩
    | error error => cases h
  | error e after => cases h

lemma succeeded_twiceActive : let _ := Crypto.digits
    let _ := PqhdKeys.none
    let _ := Aes.padded
    let _ : KeyCheck := ⟨fun _ _ => true⟩
    let _ : DescriptorHash := ⟨fun _ => 0⟩
    succeeded ((schemes none none).run mainParams 0 twiceActive) = true := by
  decide +kernel

/-- The manager 7 becomes the internal one, and its record the internal record. The external record
still names the manager 8, which is external again after a reload. -/
theorem not_persisted_twiceActive : let _ := Crypto.digits
    let _ := PqhdKeys.none
    let _ := Aes.padded
    let _ : KeyCheck := ⟨fun _ _ => true⟩
    let _ : DescriptorHash := ⟨fun _ => 0⟩
    twiceActive.memory.Sane ∧ twiceActive.txn = none ∧
      twiceActive.memory.Persisted twiceActive.database ∧
      ∃ after, (schemes none none).run mainParams 0 twiceActive = .ok (.ok ()) after ∧
        ¬after.memory.Persisted after.database := by
  intro _ _ _ _ _
  obtain ⟨after, hafter⟩ := exists_of_succeeded succeeded_twiceActive
  refine ⟨sane_sampleWallet, rfl, persisted_twiceActive, after, hafter, ?_⟩
  intro hpersisted
  have hpolicy : (schemes none none).policy mainParams sampleWallet = .ok ⟨7, 7, 9, 9⟩ := by
    decide +kernel
  obtain ⟨hanswer, -⟩ : Ends ((schemes none none).run mainParams 0 twiceActive) _ _ :=
    run_stored sane_sampleWallet rfl hpolicy
  have hstored : PolicyStored mainParams ⟨7, 7, 9, 9⟩ sampleWallet twiceActive.database after :=
    hanswer _ after hafter
  have hrebinds := (hstored.persisted_iff sane_sampleWallet persisted_twiceActive).1 hpersisted
  have hexternal := (hrebinds .bech32pq (by decide)).2 8 rfl rfl rfl
  exact absurd hexternal (by decide)

/-- The wallet with only the internal record of the manager 8. -/
def onceActive [Crypto] : Session CWallet Records :=
  { twiceActive with database := sampleWallet.image }

/-- Both records of the type are then in step, before the call and after it. -/
theorem atomicAt_iff_onceActive : let _ := Crypto.digits
    let _ := PqhdKeys.none
    let _ := Aes.padded
    let _ : KeyCheck := ⟨fun _ _ => true⟩
    let _ : DescriptorHash := ⟨fun _ => 0⟩
    succeeded ((schemes none none).run mainParams 0 onceActive) = true ∧
      (schemes none none).AtomicAt mainParams 0 onceActive := by
  intro _ _ _ _ _
  refine ⟨by decide +kernel, (atomicAt_iff _ mainParams 0 onceActive sane_sampleWallet rfl).2 ?_⟩
  intro next after hpolicy _ _ type htype
  obtain rfl : ⟨7, 7, 9, 9⟩ = next := Except.ok.inj (Eq.trans (by decide +kernel) hpolicy)
  have hexternal : ∀ type ∈ outputTypes,
      sampleWallet.binding mainParams ⟨7, 7, 9, 9⟩ (false, type) = none := by
    decide +kernel
  refine ⟨fun id hid => ?_, fun both hfalse htrue => ?_⟩
  · cases (hexternal type htype).symm.trans hid
  · have hsame : sampleWallet.active.managers false type = sampleWallet.active.managers true type :=
      hfalse.trans htrue.symm
    cases type <;> cases hsame
    cases hfalse

end PolicyUpdate

end Tidecoin
