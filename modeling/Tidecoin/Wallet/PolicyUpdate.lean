import Tidecoin.Wallet.Sync

/-!
The runs of `SetPQHDPolicy` and `SetPQHDSeedDefaults`: each function they call keeps the progress of
the loop, or leaves a transaction that can be rolled back. From that, the two calls are all or
nothing, and the theorem at the end says when the memory they leave is what a load of the database
gives.
-/

namespace Tidecoin

open Lib List CWallet Option

variable {scheme : SchemeId} {internal : Bool}

variable {x wallet : CWallet} {d : Records} {listeners : List (Listener CWallet)}
  {W : Records → Prop} {params : Params} {policy : PQHDPolicy} {created : Created}

/-- The end of a function with a result or an error. -/
def Answer {α : Type} (good : α → Session CWallet Records → Prop)
    (bad : Session CWallet Records → Prop) :
    Except String α → Session CWallet Records → Prop
  | .ok result => good result
  | .error _ => bad

lemma returnException_triple {α : Type} {good : α → Session CWallet Records → Prop}
    {bad : Session CWallet Records → Prop} {R : Stop String → Session CWallet Records → Prop}
    (e : Stop String) :
    Triple (fun s => e ≠ .terminated ∧ bad s) (returnException e) (Answer good bad) R := by
  cases e with
  | thrown what => exact .pure fun s hs => hs.2
  | terminated => exact fun s hs => absurd rfl hs.1

/-- The open transaction of a change of the policy, of which nothing is left once the policy is
restored and the transaction aborted. -/
structure Rollbackable (m : CWallet) (d : Records) (s : Session CWallet Records) : Prop where
  database : s.database = d
  undone : ∃ txn, s.txn = some txn ∧ abortAll txn.listeners { s.memory with
    pqhdPolicy := m.pqhdPolicy, walletFlags := m.walletFlags } = m

lemma addActive_working (id : Uint256) (type : OutputType) (internal : Bool) :
    Triple (Working x d listeners W) (addActiveScriptPubKeyManWithDb id type internal)
      (fun _ => Working x d
        (listeners ++ [⟨fun wallet => wallet.activated id type internal, fun wallet => wallet⟩])
        fun records' => ∃ records, W records ∧ records' =
          records.set (.activeSpk internal type) (some id))
      (fun e s => e ≠ .terminated ∧ Working x d listeners W s) := by
  refine .branch (writeIC_set _ _) ?_ ?_
  · refine .branch (.hasActiveTxn_open fun s hs => hs.isSome_txn) ?_ fun _ h => h.elim
    exact .register_working
  · exact .throw_bind fun s hs => ⟨by simp, hs⟩

lemma unsetBlankWalletFlag_working : Triple (Working x d listeners W) unsetBlankWalletFlag
      (fun _ => Working { x with
          walletFlags := x.walletFlags &&& ~~~walletFlagBlankWallet
          walletFlagsTxnSnapshot := some (x.walletFlagsTxnSnapshot.getD x.walletFlags) } d
        (listeners ++ if x.walletFlagsTxnSnapshot.isNone then [flagsListener] else [])
        fun records' => ∃ records, W records ∧ records' =
          records.set .flags (some (x.walletFlags &&& ~~~walletFlagBlankWallet)))
      (fun e s => e ≠ .terminated ∧ Working x d listeners W s) := by
  refine .read fun session hs => ?_
  rw [hs.memory]
  refine .branch (writeIC_set _ _) ?_ (.throw_bind fun s hs => ⟨by simp, hs⟩)
  refine .branch (.hasActiveTxn_open fun s hs => hs.isSome_txn) ?_ fun _ h => h.elim
  refine .bind (Q := fun _ => Working { x with
      walletFlagsTxnSnapshot := some (x.walletFlagsTxnSnapshot.getD x.walletFlags) } d
      (listeners ++ if x.walletFlagsTxnSnapshot.isNone then [flagsListener] else [])
      fun records' => ∃ records, W records ∧ records' =
        records.set .flags (some (x.walletFlags &&& ~~~walletFlagBlankWallet))) ?_ fun _ => ?_
  · refine .read fun session hs => ?_
    rw [hs.memory]
    cases hsnapshot : x.walletFlagsTxnSnapshot with
    | none => exact .bind .modifyMemory_working fun _ => .register_working
    | some flags =>
      refine .pure fun t ht => ?_
      have hx : { x with walletFlagsTxnSnapshot := some flags } = x := by rw [← hsnapshot]
      simpa [hx] using ht
  · exact .modifyMemory_working

section

variable [Crypto] [PqhdKeys] [Aes]

/-- The manager of a generated descriptor. -/
structure DescriptorScriptPubKeyMan.Fresh (new : DescriptorScriptPubKeyMan) :
    Prop extends new.Empty where
  isRange : new.walletDescriptor.descriptor.isRange = true
  rangeStart : new.walletDescriptor.rangeStart = 0
  rangeEnd : new.walletDescriptor.rangeEnd = 0
  maxCachedIndex : new.maxCachedIndex = -1
  mutationBatch : new.mutationBatch = false

open DescriptorScriptPubKeyMan in
/-- A descriptor that is set up has its record and its key pool, and the wallet is not blank any
more. -/
theorem setupDescriptor_working {new : DescriptorScriptPubKeyMan} (hfresh : new.Fresh)
    (hflag : x.isWalletFlagSet walletFlagDescriptors) :
    Triple (Working x d listeners W) (setupDescriptor new) (Outcome (fun grown => Working { x with
            walletFlags := x.walletFlags &&& ~~~walletFlagBlankWallet
            walletFlagsTxnSnapshot := some (x.walletFlagsTxnSnapshot.getD x.walletFlags) } d
          (listeners ++ new.rollbackListener ::
            if x.walletFlagsTxnSnapshot.isNone then [flagsListener] else [])
          fun records' => ∃ records written, W records ∧
            Grows x.getPQHDSeed { new with mutationBatch := true }
              (records.set (.walletDescriptor new.getID) (some new.record)) grown written ∧
            records' = (written.set (.walletDescriptor new.getID) (some grown.record)).set .flags
              (some (x.walletFlags &&& ~~~walletFlagBlankWallet)))
        (Opened x d listeners new))
      (fun e s => e ≠ .terminated ∧ Opened x d listeners new s) := by
  refine .read fun session hs => ?_
  rw [hs.memory, hflag]
  refine .check (writeIC_set _ _) ?_ (.throw_bind fun s hs =>
    ⟨by simp, .inl (hs.weaken fun _ _ => trivial)⟩)
  have hknown (target : Int) : new.KnownBefore (newRangeEnd new.walletDescriptor target) := by
    refine ⟨hfresh.isRange, ?_⟩
    rw [newRangeEnd, hfresh.isRange, if_pos rfl, hfresh.rangeStart, hfresh.rangeEnd,
      hfresh.maxCachedIndex]
    exact le_max_left _ _
  refine .bind ((topUpWithDB_working new 0 true _).weaken (fun _ _ hs => hs)
    fun e s hs => ⟨hs.1 fun target _ => hknown target, hs.2⟩) fun result => ?_
  cases result with
  | none => exact .pure fun s hs => hs
  | some grown =>
    refine .bind (unsetBlankWalletFlag_working.weaken (fun _ _ hs => hs) ?_) fun _ => ?_
    · rintro e s ⟨hthrown, hs⟩
      exact ⟨hthrown, .inr (hs.weaken fun _ _ => trivial)⟩
    · apply Triple.pure
      intro s hs
      have hlisteners : listeners ++ new.rollbackListener ::
          (if x.walletFlagsTxnSnapshot.isNone then [flagsListener] else []) =
          listeners ++ new.rollbacks ++
            if x.walletFlagsTxnSnapshot.isNone then [flagsListener] else [] := by
        rw [rollbacks_of_settled hfresh.mutationBatch, append_assoc]
        rfl
      rw [hlisteners]
      refine hs.weaken ?_
      rintro records' ⟨_, ⟨written, ⟨_, ⟨records, hrecords, rfl⟩, hgrows⟩, rfl⟩, rfl⟩
      refine ⟨records, written, hrecords, hgrows, ?_⟩
      rw [hgrows.getID_eq]
      rfl

omit [PqhdKeys] in
lemma acceptMasterKey_new [KeyCheck] {P : Session CWallet Records → Prop}
    {R : Stop String → Session CWallet Records → Prop} {new : DescriptorScriptPubKeyMan}
    (hempty : new.Empty) :
    Triple P (acceptMasterKey new) (fun accepted => cond accepted P fun _ => False) R := by
  refine .bind .get fun session => ?_
  rintro s ⟨rfl, hs⟩
  have hcheck : new.checkDecryptionKey session.memory.vMasterKey false = .ok true := by
    unfold DescriptorScriptPubKeyMan.checkDecryptionKey
    rw [hempty.keys, hempty.cryptedKeys]
    rfl
  dsimp only
  rw [hcheck]
  exact Triple.ite (P := P) (fun _ => .pure fun t ht => ht) (fun _ => .pure fun t ht =>
    ht) session hs

end

section

variable [DescriptorHash] (now : Nat) {target : Bool × OutputType}

lemma generatePQHDWalletDescriptor_eq {height : Int}
    (hscheme : schemeFromPrefix (policy.schemeOf target.1) = some scheme)
    (heligible : ineligible params height scheme target.2 = false) (htype : target.2 ≠ .unknown) :
    ∃ desc, policy.descriptorOf target = some desc ∧
      generatePQHDWalletDescriptor params now (policy.seedOf target.1) (policy.schemeOf target.1)
        target.2
        target.1 height = .ok ⟨⟨desc, now, 0, 0, 0⟩, DescriptorHash.id desc, ∅⟩ := by
  simp only [ineligible, Bool.or_eq_false_iff, Bool.not_eq_eq_eq_not, Bool.not_false] at heligible
  obtain ⟨hallowed, hactive⟩ := heligible
  obtain ⟨desc, hdesc⟩ : ∃ desc, policy.descriptorOf target = some desc := by
    obtain ⟨internal, type⟩ := target
    cases type with
    | unknown => exact absurd rfl htype
    | _ => exact ⟨_, rfl⟩
  refine ⟨desc, hdesc, ?_⟩
  unfold PQHDPolicy.descriptorOf at hdesc
  unfold generatePQHDWalletDescriptor
  simp only [hscheme, hallowed, hactive, hdesc, Bool.not_true, Bool.false_eq_true, if_false]
  rfl

omit [DescriptorHash] in
lemma fresh_of_descriptorOf {desc : Descriptor} (hdesc : policy.descriptorOf target = some desc)
    (id : Uint256) (keypoolSize : Int) :
    (DescriptorScriptPubKeyMan.new ⟨⟨desc, now, 0, 0, 0⟩, id, ∅⟩ keypoolSize).Fresh where
  cache := rfl
  keys := rfl
  cryptedKeys := rfl
  isRange := by
    obtain ⟨internal, type⟩ := target
    cases type <;>
      simp only [PQHDPolicy.descriptorOf, policyDescriptor, some_inj, reduceCtorEq] at hdesc <;>
      subst hdesc <;> rfl
  rangeStart := rfl
  rangeEnd := rfl
  maxCachedIndex := rfl
  mutationBatch := rfl

end

lemma CWallet.mem_of_findPQHDDescriptorForPath {type : OutputType}
    {seedId id : Uint256} {schemePrefix : UInt8}
    (h : wallet.findPQHDDescriptorForPath type internal seedId schemePrefix = some id) :
    id ∈ wallet.spkManagers := by
  rw [findPQHDDescriptorForPath, or_eq_some_iff] at h
  rcases h with hactive | ⟨-, hfound⟩
  · apply AList.lookup_isSome.1
    cases hlookup : wallet.spkManagers.lookup id with
    | none => simp [hlookup] at hactive
    | some manager => rfl
  · obtain ⟨entry, hentry, rfl⟩ := map_eq_some_iff.1 hfound
    exact mem_keys_of_mem (mem_of_find?_eq_some hentry)

lemma CWallet.syncCheck_eq_ok {schemes : PolicySchemes}
    (h : wallet.syncCheck policy = .ok schemes) :
    (∀ internal, policy.seedOf internal ≠ 0 ∧ wallet.havePQHDSeed (policy.seedOf internal)) ∧
      schemeFromPrefix policy.defaultReceiveScheme = some schemes.receive ∧
      schemeFromPrefix policy.defaultChangeScheme = some schemes.change := by
  unfold syncCheck at h
  cases hset : (policy.defaultSeedId = 0 || policy.defaultChangeSeedId = 0 : Bool) with
  | true =>
    simp only [hset, if_true] at h
    cases h
  | false =>
  cases habsent : (!wallet.havePQHDSeed policy.defaultSeedId ||
      !wallet.havePQHDSeed policy.defaultChangeSeedId) with
  | true =>
    simp only [hset, habsent, Bool.false_eq_true, if_true, if_false] at h
    cases h
  | false =>
  simp only [hset, habsent, Bool.false_eq_true, if_false] at h
  cases hreceive : schemeFromPrefix policy.defaultReceiveScheme with
  | none =>
    rw [hreceive] at h
    cases h
  | some receive =>
  cases hchange : schemeFromPrefix policy.defaultChangeScheme with
  | none =>
    rw [hreceive, hchange] at h
    cases h
  | some change =>
  rw [hreceive, hchange] at h
  cases h
  simp only [Bool.or_eq_false_iff, decide_eq_false_iff_not, Bool.not_eq_eq_eq_not, Bool.not_false]
    at hset habsent
  refine ⟨?_, rfl, rfl⟩
  intro internal
  cases internal with
  | false => exact ⟨hset.1, habsent.1⟩
  | true => exact ⟨hset.2, habsent.2⟩

variable [Crypto] [PqhdKeys] [Aes] [KeyCheck] [DescriptorHash]

variable {now : Nat} {m base : CWallet} {start : Records} {seen done : List (Bool × OutputType)}

/-- The loop has come so far. -/
def Syncing (params : Params) (policy : PQHDPolicy) (base : CWallet) (start d : Records)
    (seen done : List (Bool × OutputType)) (s : Session CWallet Records) : Prop :=
  ∃ created wallet listeners,
    Working wallet d listeners (SyncProgress params policy base start seen done created wallet
      listeners) s

section

variable {work : Records} {s : Session CWallet Records}

omit [PqhdKeys] [Aes] [KeyCheck]

lemma SyncProgress.rollbackable (hsane : m.Sane)
    (hbase : base = { m with pqhdPolicy := some policy })
    (h : SyncProgress params policy base start seen done created wallet listeners work)
    (hs : Working wallet d listeners W s) : Rollbackable m d s := by
  obtain ⟨records, htxn, -⟩ := hs.txn
  refine ⟨hs.database, _, htxn, ?_⟩
  rw [hs.memory]
  exact h.undone hsane hbase

lemma SyncProgress.rollbackable_of_opened (hsane : m.Sane)
    (hbase : base = { m with pqhdPolicy := some policy })
    (h : SyncProgress params policy base start seen done created wallet listeners work)
    {new : DescriptorScriptPubKeyMan} (hnew : new.getID ∉ wallet.spkManagers)
    (hs : DescriptorScriptPubKeyMan.Opened wallet d listeners new s) : Rollbackable m d s := by
  rcases hs with hs | hs
  · exact h.rollbackable hsane hbase hs
  · have habsent : new.getID ∉ m.spkManagers := by
      intro hmem
      have hmem' : new.getID ∈ base.spkManagers := by rw [hbase]; exact hmem
      apply hnew
      rw [← AList.lookup_isSome, h.lookup_base hmem', AList.lookup_isSome]
      exact hmem'
    obtain ⟨records, htxn, -⟩ := hs.txn
    refine ⟨hs.database, _, htxn, ?_⟩
    rw [hs.memory, abortAll_append, h.undone hsane hbase, DescriptorScriptPubKeyMan.rollbacks]
    split
    · rfl
    · exact modifyManager_of_notMem habsent

lemma Syncing.rollbackable (hsane : m.Sane) (hbase : base = { m with pqhdPolicy := some policy })
    (hs : Syncing params policy base start d seen done s) : Rollbackable m d s := by
  obtain ⟨created, wallet, listeners, hworking⟩ := hs
  obtain ⟨work, -, hprogress⟩ := hworking.txn
  exact hprogress.rollbackable hsane hbase hworking

end

variable (hsane : m.Sane) (hbase : base = { m with pqhdPolicy := some policy })

include hsane hbase

omit [PqhdKeys] [Aes] [KeyCheck] in
lemma bindDesired_syncing {desired : Uint256} {type : OutputType}
    (hdesired : base.desiredManager params policy (internal, type) = some desired) :
    Triple (fun s => Syncing params policy base start d seen done s ∧
      desired ∈ s.memory.spkManagers)
      (bindDesired desired type internal)
      (Answer (fun _ => Syncing params policy base start d seen (done ++ [(internal, type)]))
        (Rollbackable m d)) (fun _ _ => False) := by
  refine .bind .get fun session => ?_
  rintro s ⟨rfl, ⟨created, wallet, listeners, hworking⟩, hmem⟩
  obtain ⟨work, -, hprogress⟩ := hworking.txn
  rw [hworking.memory] at hmem ⊢
  have hactive :
      wallet.getScriptPubKeyMan type internal = base.getScriptPubKeyMan type internal := by
    rw [getScriptPubKeyMan, hprogress.active_eq]
    rfl
  rw [hactive]
  by_cases hbound : base.getScriptPubKeyMan type internal = some desired
  · have hbinding : base.binding params policy (internal, type) = none := by
      rw [binding, hdesired]
      simp [hbound]
    rw [if_pos hbound]
    refine (Triple.pure fun t ht => ?_) session hworking
    exact ⟨created, wallet, listeners, Working.weaken ht fun records hrecords =>
      hrecords.skip hbinding⟩
  · have hbinding : base.binding params policy (internal, type) = some desired := by
      rw [binding, hdesired]
      simp [hbound]
    rw [if_neg hbound]
    have hadd : Triple (Working wallet d listeners
        (SyncProgress params policy base start seen done created wallet listeners))
        (do addActiveScriptPubKeyManWithDb desired type internal; return .ok ())
        (Answer (fun _ => Syncing params policy base start d seen (done ++ [(internal, type)]))
          (Rollbackable m d)) (fun e s => e ≠ .terminated ∧ Rollbackable m d s) := by
      refine .bind ((addActive_working desired type internal).weaken (fun _ _ hs => hs) ?_) fun _ =>
        ?_
      · rintro e t ⟨hthrown, ht⟩
        exact ⟨hthrown, hprogress.rollbackable hsane hbase ht⟩
      · apply Triple.pure
        intro t ht
        refine ⟨created, wallet, _, ht.weaken ?_⟩
        rintro records' ⟨records, hrecords, rfl⟩
        exact hrecords.bind hbinding hmem
    exact (Triple.catching hadd fun e => returnException_triple e) session hworking

lemma createManager_syncing {target : Bool × OutputType} {desc : Descriptor}
    (hdesc : policy.descriptorOf target = some desc)
    (hflag : wallet.isWalletFlagSet walletFlagDescriptors) (id : Uint256) : Triple
      (Working wallet d listeners (SyncProgress params policy base start seen done created wallet
        listeners))
      (createManager ⟨⟨desc, now, 0, 0, 0⟩, id, ∅⟩) (Answer (fun found s => found = some id ∧
          Syncing params policy base start d (seen ++ [target]) done s ∧ id ∈ s.memory.spkManagers)
        (Rollbackable m d)) (fun e s => e ≠ .terminated ∧ Rollbackable m d s) := by
  refine .read fun session hworking => ?_
  obtain ⟨work, -, hprogress⟩ := hworking.txn
  rw [hworking.memory]
  have hfresh := fresh_of_descriptorOf now hdesc id wallet.keypoolSize
  refine .check (acceptMasterKey_new hfresh.toEmpty) ?_ fun t ht => ht.elim
  refine .ite (fun hmem => ?_) fun hnew => ?_
  · apply Triple.pure
    intro t ht
    refine ⟨rfl, ⟨created, wallet, listeners, ht.weaken fun _ h => h.mono_seen target⟩, ?_⟩
    rw [ht.memory]
    exact hmem
  · let new := DescriptorScriptPubKeyMan.new ⟨⟨desc, now, 0, 0, 0⟩, id, ∅⟩ wallet.keypoolSize
    have hid : new.getID ∉ wallet.spkManagers := hnew
    have hopened :
        ∀ t, DescriptorScriptPubKeyMan.Opened wallet d listeners new t → Rollbackable m d t :=
      fun t ht => hprogress.rollbackable_of_opened hsane hbase hid ht
    refine .bind ((setupDescriptor_working hfresh hflag).weaken (fun _ _ hs => hs)
      fun e t ht => ⟨ht.1, hopened t ht.2⟩) fun result => ?_
    · cases result with
      | none => exact .pure fun t ht => hopened t ht
      | some grown =>
        refine .bind (.bind .modifyMemory_working fun _ => .branch
          (.hasActiveTxn_open fun s hs => hs.isSome_txn) .register_working fun _ h =>
            h.elim) fun _ => ?_
        apply Triple.pure
        intro t ht
        refine ⟨rfl, ⟨⟨id, grown⟩ :: created, wallet.withCreated id grown,
          listeners ++ SyncProgress.creationListeners wallet new, ?_⟩, ?_⟩
        · rw [append_assoc] at ht
          refine ht.weaken ?_
          rintro records' ⟨records, written, hrecords, hgrows, rfl⟩
          exact hrecords.create hdesc hid hfresh.toEmpty hgrows
        · rw [ht.memory]
          exact AList.mem_insert _ |>.2 (.inl rfl)

lemma createPQHDDescriptorForPathWithDb_syncing (target : Bool × OutputType) {height : Int}
    (hscheme : schemeFromPrefix (policy.schemeOf target.1) = some scheme)
    (heligible : ineligible params height scheme target.2 = false) (htype : target.2 ≠ .unknown) :
    Triple
      (Working wallet d listeners (SyncProgress params policy base start seen done created wallet
        listeners))
      (createPQHDDescriptorForPathWithDb params now target.2 target.1 (policy.seedOf target.1)
        (policy.schemeOf target.1) height)
      (Answer (fun found s => (found = none ∧ Rollbackable m d s) ∨ ∃ desc,
          policy.descriptorOf target = some desc ∧ found = some (DescriptorHash.id desc) ∧
          Syncing params policy base start d (seen ++ [target]) done s ∧
          DescriptorHash.id desc ∈ s.memory.spkManagers) (Rollbackable m d))
      (fun _ _ => False) := by
  refine .read fun session hworking => ?_
  obtain ⟨work, -, hprogress⟩ := hworking.txn
  rw [hworking.memory]
  have hnothing : ∀ t, Working wallet d listeners
      (SyncProgress params policy base start seen done created wallet listeners) t →
        Rollbackable m d t :=
    fun t ht => hprogress.rollbackable hsane hbase ht
  obtain ⟨desc, hdesc, hgenerate⟩ := generatePQHDWalletDescriptor_eq now hscheme heligible htype
  rw [hgenerate]
  refine .ite (fun _ => .pure fun t ht => .inl ⟨rfl, hnothing t ht⟩) fun hflags => ?_
  refine .ite (fun _ => .pure fun t ht => .inl ⟨rfl, hnothing t ht⟩) fun _ => ?_
  refine .ite (fun _ => .pure fun t ht => .inl ⟨rfl, hnothing t ht⟩) fun _ => ?_
  have hflag : wallet.isWalletFlagSet walletFlagDescriptors := by
    cases hset : wallet.isWalletFlagSet walletFlagDescriptors with
    | true => rfl
    | false => exact absurd (by simp [hset]) hflags
  refine .catching ?_ fun e => returnException_triple e
  refine (createManager_syncing hsane hbase hdesc hflag (DescriptorHash.id desc)).weaken ?_
    fun _ _ h => h
  rintro (error | found) t ht
  · exact ht
  · exact .inr ⟨desc, hdesc, ht⟩

lemma syncTarget_syncing {type : OutputType}
    (hscheme : schemeFromPrefix (policy.schemeOf internal) = some scheme) (htype : type ≠ .unknown)
    (hseen : (internal, type) ∉ seen) : Triple (Syncing params policy base start d seen done)
      (syncTarget params now true false (policy.seedOf internal) (policy.schemeOf internal) scheme
        internal
        type) (Answer (fun _ => Syncing params policy base start d (seen ++ [(internal, type)])
        (done ++ [(internal, type)])) (Rollbackable m d)) (fun _ _ => False) := by
  refine .bind .get fun session => ?_
  rintro s ⟨rfl, created, wallet, listeners, hworking⟩
  obtain ⟨work, -, hprogress⟩ := hworking.txn
  have hmanaged : ∀ internal type id, base.active.managers internal type = some id →
      id ∈ base.spkManagers := by
    rw [hbase]
    exact hsane.managed
  have hheight : wallet.targetHeightForOutputs = base.targetHeightForOutputs := by
    obtain ⟨managers, flags, snapshot, rfl⟩ := hprogress.rest
    rfl
  have hfind := hprogress.find_eq hmanaged hseen (policy.seedOf internal) (policy.schemeOf internal)
  rw [hworking.memory]
  simp only [Bool.false_eq_true, if_false]
  cases hfound : wallet.findPQHDDescriptorForPath type internal (policy.seedOf internal)
      (policy.schemeOf internal) with
  | some desired =>
    have hdesired : base.desiredManager params policy (internal, type) = some desired := by
      rw [desiredManager, ← hfind, hfound, some_or]
    refine (bindDesired_syncing hsane hbase hdesired) session ⟨?_, ?_⟩
    · exact ⟨created, wallet, listeners, hworking.weaken fun _ h => h.mono_seen (internal, type)⟩
    · rw [hworking.memory]
      exact mem_of_findPQHDDescriptorForPath hfound
  | none =>
    rw [hheight]
    have hdesired : base.desiredManager params policy (internal, type) =
        if ineligible params base.targetHeightForOutputs scheme type then none
        else (policy.descriptorOf (internal, type)).map DescriptorHash.id := by
      rw [desiredManager, ← hfind, hfound, none_or, hscheme]
      cases hcase : ineligible params base.targetHeightForOutputs scheme type <;> simp [hcase]
    refine (Triple.ite (fun hineligible => ?_) fun heligible => ?_) session hworking
    · have hbinding : base.binding params policy (internal, type) = none := by
        rw [binding, hdesired, if_pos hineligible]
        rfl
      apply Triple.pure
      intro t ht
      exact ⟨created, wallet, listeners, ht.weaken fun _ h =>
        (h.mono_seen (internal, type)).skip hbinding⟩
    · rw [Bool.not_eq_true] at heligible
      refine .bind (createPQHDDescriptorForPathWithDb_syncing hsane hbase (internal, type)
        hscheme heligible htype) fun result => ?_
      cases result with
      | error error => exact .pure fun t ht => ht
      | ok found =>
        cases found with
        | none =>
          apply Triple.pure
          rintro t (⟨-, ht⟩ | ⟨desc, -, hfalse, -⟩)
          · exact ht
          · cases hfalse
        | some desired =>
          rintro t (⟨hfalse, -⟩ | ⟨desc, hdesc, heq, ht⟩)
          · cases hfalse
          · rw [some_inj] at heq
            subst heq
            refine (bindDesired_syncing hsane hbase ?_) t ht
            rw [hdesired, heligible, hdesc]
            rfl

lemma syncLoop_syncing {schemes : PolicySchemes}
    (hreceive : schemeFromPrefix policy.defaultReceiveScheme = some schemes.receive)
    (hchange : schemeFromPrefix policy.defaultChangeScheme = some schemes.change)
    (targets : List (Bool × OutputType)) :
    ∀ done : List (Bool × OutputType), (done ++ targets).Nodup →
      (∀ target ∈ targets, target.2 ≠ .unknown) →
      Triple (Syncing params policy base start d done done)
        (syncLoop params now true false policy schemes targets)
        (Answer (fun _ => Syncing params policy base start d (done ++ targets) (done ++ targets))
          (Rollbackable m d)) (fun _ _ => False) := by
  induction targets with
  | nil =>
    intro done _ _
    rw [append_nil]
    exact .pure fun s hs => hs
  | cons target targets ih =>
    obtain ⟨internal, type⟩ := target
    intro done hnodup htypes
    have hseen : (internal, type) ∉ done := fun hmem =>
      (nodup_append.1 hnodup).2.2 _ hmem _ mem_cons_self rfl
    have hscheme : schemeFromPrefix (policy.schemeOf internal) =
        some (if internal then schemes.change else schemes.receive) := by
      cases internal with
      | false => exact hreceive
      | true => exact hchange
    refine .bind (syncTarget_syncing hsane hbase hscheme (htypes _ mem_cons_self) hseen)
      fun result => ?_
    cases result with
    | error error => exact .pure fun s hs => hs
    | ok _ =>
      have hstep := ih (done ++ [(internal, type)]) (by rwa [append_assoc])
        (forall_mem_cons.1 htypes).2
      rw [append_assoc] at hstep
      exact hstep

variable (hdescriptors : m.isWalletFlagSet walletFlagDescriptors)
    (hsigner : m.isWalletFlagSet walletFlagExternalSigner = false)

include hdescriptors hsigner in
lemma sync_syncing : Triple (Working base d [] fun work => work = start)
      (syncActiveScriptPubKeyMansWithPQHDPolicy params now true false)
      (Answer (fun _ s => (∃ schemes, m.syncCheck policy = .ok schemes) ∧
        Syncing params policy base start d syncTargets syncTargets s) (Rollbackable m d))
      (fun _ _ => False) := by
  have hbegin : ∀ t, Working base d [] (fun work => work = start) t →
      Working base d [] (SyncProgress params policy base start [] [] [] base []) t := by
    intro t ht
    refine ht.weaken ?_
    rintro work rfl
    apply SyncProgress.begin
    rw [hbase]
    exact hsane.snapshot
  refine .bind .get fun session => ?_
  rintro s ⟨rfl, hworking⟩
  have hpolicy : base.pqhdPolicy = some policy := by rw [hbase]
  have hflag : base.isWalletFlagSet walletFlagDescriptors := by rw [hbase]; exact hdescriptors
  have hexternal : base.isWalletFlagSet walletFlagExternalSigner = false := by
    rw [hbase]; exact hsigner
  have hcheck : base.syncCheck policy = m.syncCheck policy := by rw [hbase]; rfl
  rw [hworking.memory]
  simp only [hpolicy, hflag, hexternal, hcheck, Bool.not_true, Bool.false_eq_true, if_false]
  cases hschemes : m.syncCheck policy with
  | error error =>
    refine (Triple.pure fun t ht => ?_) session hworking
    exact Syncing.rollbackable hsane hbase ⟨[], base, [], hbegin t ht⟩
  | ok schemes =>
    obtain ⟨-, hreceive, hchange⟩ := syncCheck_eq_ok hschemes
    refine ((syncLoop_syncing hsane hbase hreceive hchange syncTargets [] (by decide)
      (by decide)).weaken ?_ fun _ _ h => h) session ⟨[], base, [], hbegin session hworking⟩
    rintro (error | _) t ht
    · exact ht
    · exact ⟨⟨schemes, rfl⟩, ht⟩

omit hsane hbase [Crypto] [PqhdKeys] [Aes] [KeyCheck] [DescriptorHash] in
lemma rollbackPolicy_rollbackable (error : String) :
    Triple (Rollbackable m d) (rollbackPolicy m error)
      (fun result s => result = .error error ∧ Revertible (fun x => x = m) d s) (fun _ _ =>
        False) := by
  refine .bind (Q := fun _ => Undoable (fun x => x = m) d) ?_ fun _ => ?_
  · apply Triple.modify
    intro s hs
    exact ⟨hs.database, hs.undone⟩
  · refine .bind .txnAbort fun aborted => ?_
    cases aborted with
    | true => exact .pure fun s hs => ⟨rfl, .inl hs⟩
    | false => exact .pure fun s hs => ⟨rfl, .inr hs⟩

/-- The memory and the database after a policy was stored. -/
def PolicyStored (params : Params) (policy : PQHDPolicy) (m : CWallet) (d : Records)
    (s : Session CWallet Records) : Prop :=
  s.txn = none ∧ (∃ schemes, m.syncCheck policy = .ok schemes) ∧ ∃ created wallet listeners,
    SyncProgress params policy { m with pqhdPolicy := some policy }
      (d.set .pqhdPolicy (some policy))
      syncTargets syncTargets created wallet listeners s.database ∧
    s.memory = commitAll listeners wallet

include hdescriptors hsigner in
omit hbase in
lemma storePolicy_outside (what : String) :
    Triple (Outside m d) (storePolicy params now what policy)
      (Answer (fun _ => PolicyStored params policy m d) (Outside m d))
      (fun e s => e = .terminated ∧ s.txn.isSome ∧ s.database = d) := by
  let base : CWallet := { m with pqhdPolicy := some policy }
  let failed : Except String Unit → Prop := fun result => ∃ error, result = .error error
  let stored : Except String Unit → Session CWallet Records → Prop :=
    Answer (fun _ => PolicyStored params policy m d) fun _ => False
  have hrollback : ∀ error, Triple (Rollbackable m d) (rollbackPolicy m error)
      (fun result s => stored result s ∨ (failed result ∧ Revertible (fun x => x = m) d s))
      (fun _ _ => False) := by
    intro error
    refine (rollbackPolicy_rollbackable error).weaken ?_ fun _ _ h => h
    rintro result s ⟨hresult, hs⟩
    exact .inr ⟨⟨error, hresult⟩, hs⟩
  have hstart : ∀ {W : Records → Prop} (t : Session CWallet Records), Working base d [] W t →
      Rollbackable m d t := by
    intro W t ht
    obtain ⟨work, htxn, -⟩ := ht.txn
    refine ⟨ht.database, _, htxn, ?_⟩
    rw [ht.memory]
    rfl
  refine .read fun session hs => ?_
  rw [hs.memory]
  refine .bind .modifyMemory_outside fun _ => ?_
  refine (Triple.withBatch (A := fun x => x = m) (d := d) (Q := stored) (F := failed) (c :=
    fun _ => False)
    ?_ ?_ fun _ _ => False.elim).weaken ?_ fun _ _ h => h.resolve_left fun h => h.1
  · rintro (error | _) t ht
    · exact ht.elim
    · exact ht.1
  · apply Triple.branch .txnBegin
    · refine .branch ((writeIC_working (V := fun work => work = d.set .pqhdPolicy (some policy)) _ _
        fun records hrecords => by rw [hrecords]).strengthen fun t ht => ht.working) ?_ ?_
      · refine .bind (.catching (sync_syncing hsane rfl hdescriptors hsigner)
          fun e t ht => ht.elim) fun result => ?_
        cases result with
        | error error => exact hrollback error
        | ok _ =>
          refine .branch (.txnCommit ?_) ?_ ?_
          · rintro t faults ⟨hschemes, created, wallet, listeners, ht⟩
            exact ⟨hschemes, created, wallet, listeners, ht.withFaults faults⟩
          · apply Triple.pure
            rintro t ⟨before, ⟨hschemes, created, wallet, listeners, ht⟩, hcommits⟩
            obtain ⟨work, htxn, hprogress⟩ := ht.txn
            obtain ⟨hdatabase, hmemory⟩ := hcommits.eq_of_txn htxn
            refine .inl ⟨hcommits.txn, hschemes, created, wallet, listeners, ?_, ?_⟩
            · rw [hdatabase]
              exact hprogress
            · rw [hmemory, ht.memory]
              rfl
          · exact (hrollback _).strengthen fun t ht => ht.2.rollbackable hsane rfl
      · exact (hrollback _).strengthen fun t ht => hstart t ht
    · refine .bind .modifyMemory_outside fun _ => ?_
      exact .pure fun t ht => .inr ⟨⟨_, rfl⟩, Or.inl ht⟩
  · rintro (error | _) t (ht | ⟨⟨error', herror⟩, ht⟩)
    · exact ht.elim
    · exact ht
    · exact ht
    · cases herror

end Tidecoin
