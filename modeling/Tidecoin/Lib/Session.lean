import Mathlib.Logic.Basic

/-!
Programs over a memory and a database with transactions.

A `Session` holds the memory of a running process, its database and the open transaction, if
there is one. Every operation on the database can fail, and which ones do is part of the state.
Inside a transaction the program may change the memory at once and register listeners that run
when the transaction is committed or aborted. The rules are those of pre- and postconditions for
programs that end with a result or with an exception, and the main one says when a transaction is
all or nothing in the memory as well as in the database.
-/

namespace Tidecoin.Lib

open Functor Option

section

variable {σ ε α β : Type}

/-- The run ended in `Q` with its result, or in `R` with its exception. -/
def Ends (r : EStateM.Result ε σ α) (Q : α → σ → Prop) (R : ε → σ → Prop) : Prop :=
  (∀ a s, r = .ok a s → Q a s) ∧ (∀ e s, r = .error e s → R e s)

section

variable {Q : α → σ → Prop} {R : ε → σ → Prop} {s : σ}

@[simp] lemma ends_ok {a : α} : Ends (.ok a s) Q R ↔ Q a s := by
  simp [Ends]

@[simp] lemma ends_error {e : ε} : Ends (.error e s) Q R ↔ R e s := by
  simp [Ends]

end

/-- From a state in `P` the program ends in `Q` with its result, or in `R` with its exception. -/
def Triple (P : σ → Prop) (x : EStateM ε σ α) (Q : α → σ → Prop) (R : ε → σ → Prop) : Prop :=
  ∀ s, P s → Ends (x s) Q R

lemma get_bind_apply (f : σ → EStateM ε σ α) (s : σ) : (get >>= f : EStateM ε σ α) s = f s s := rfl

namespace Triple

variable {P P' : σ → Prop} {Q Q' : α → σ → Prop} {R R' : ε → σ → Prop} {S : β → σ → Prop}
  {x : EStateM ε σ α}

lemma conseq (h : Triple P' x Q' R') (hpre : ∀ s, P s → P' s)
    (hpost : ∀ a s, Q' a s → Q a s) (hexc : ∀ e s, R' e s → R e s) : Triple P x Q R := by
  intro s hs
  obtain ⟨hok, herr⟩ := h s (hpre s hs)
  exact ⟨fun a s' hrun => hpost a s' (hok a s' hrun), fun e s' hrun => hexc e s' (herr e s' hrun)⟩

lemma strengthen (h : Triple P' x Q R) (hpre : ∀ s, P s → P' s) : Triple P x Q R :=
  h.conseq hpre (fun _ _ => id) (fun _ _ => id)

lemma weaken (h : Triple P x Q' R') (hpost : ∀ a s, Q' a s → Q a s) (hexc : ∀ e s, R' e s → R e s) :
    Triple P x Q R :=
  h.conseq (fun _ => id) hpost hexc

lemma pure {a : α} (h : ∀ s, P s → Q a s) : Triple P (pure a : EStateM ε σ α) Q R :=
  fun s hs => ends_ok.2 (h s hs)

lemma throw {e : ε} (h : ∀ s, P s → R e s) : Triple P (throw e : EStateM ε σ α) Q R :=
  fun s hs => ends_error.2 (h s hs)

lemma throw_bind {e : ε} {f : α → EStateM ε σ β} (h : ∀ s, P s → R e s) :
    Triple P ((MonadExcept.throw e : EStateM ε σ α) >>= f) S R :=
  fun s hs => ends_error.2 (h s hs)

lemma get : Triple P (get : EStateM ε σ σ) (fun a s => a = s ∧ P s) R :=
  fun _ hs => ends_ok.2 ⟨rfl, hs⟩

lemma read {f : σ → EStateM ε σ α} (h : ∀ s, P s → Triple P (f s) Q R) :
    Triple P (MonadState.get >>= f) Q R :=
  fun s hs => h s hs s hs

lemma modify {g : σ → σ} {Q : PUnit.{1} → σ → Prop} (h : ∀ s, P s → Q ⟨⟩ (g s)) :
    Triple P (modify g : EStateM ε σ PUnit) Q R :=
  fun s hs => ends_ok.2 (h s hs)

lemma bind {f : α → EStateM ε σ β} (hx : Triple P x Q R) (hf : ∀ a, Triple (Q a) (f a) S R) :
    Triple P (x >>= f) S R := by
  intro s hs
  obtain ⟨hok, herr⟩ := hx s hs
  have hbind : (x >>= f) s = EStateM.bind x f s := rfl
  rw [hbind, EStateM.bind]
  cases hrun : x s with
  | ok a s' => exact hf a s' (hok a s' hrun)
  | error e s' => exact ends_error.2 (herr e s' hrun)

lemma ite {c : Prop} [Decidable c] {y : EStateM ε σ α} (hx : c → Triple P x Q R)
    (hy : ¬c → Triple P y Q R) : Triple P (if c then x else y) Q R := by
  split
  · exact hx ‹c›
  · exact hy ‹¬c›

lemma branch {y : EStateM ε σ Bool} {f : Bool → EStateM ε σ β} {Y N : σ → Prop}
    (hy : Triple P y (fun answer => cond answer Y N) R)
    (hyes : Triple Y (f true) S R) (hno : Triple N (f false) S R) : Triple P (y >>= f) S R := by
  apply bind hy
  intro answer
  cases answer with
  | true => exact hyes
  | false => exact hno

lemma check {y : EStateM ε σ Bool} {z : EStateM ε σ α} {Y N : σ → Prop}
    (hy : Triple P y (fun answer => cond answer Y N) R)
    (hyes : Triple Y x Q R) (hno : Triple N z Q R) :
    Triple P (y >>= fun answer => if !answer then z else x) Q R :=
  branch hy hyes hno

lemma catching {handler : ε → EStateM ε σ α} (hx : Triple P x Q R')
    (hh : ∀ e, Triple (R' e) (handler e) Q R) : Triple P (tryCatch x handler) Q R := by
  intro s hs
  obtain ⟨hok, herr⟩ := hx s hs
  have htry : (tryCatch x handler : EStateM ε σ α) s = EStateM.tryCatch x handler s := rfl
  rw [htry]
  delta EStateM.tryCatch
  cases hrun : x s with
  | ok a s' => exact ends_ok.2 (hok a s' hrun)
  | error e s' => exact hh e s' (herr e s' hrun)

lemma finalizing {finalizer : EStateM ε σ β} (hx : Triple P x Q' R')
    (hok : ∀ a, Triple (Q' a) finalizer (fun _ => Q a) R)
    (herr : ∀ e, Triple (R' e) finalizer (fun _ => R e) R) :
    Triple P (tryFinally x finalizer) Q R := by
  intro s hs
  obtain ⟨hok', herr'⟩ := hx s hs
  cases hrun : x s with
  | ok a s' =>
    obtain ⟨hend, hfail⟩ := hok a s' (hok' a s' hrun)
    cases hfin : finalizer s' with
    | ok b t => simpa [map, EStateM.map, tryFinally, tryFinally', hrun, hfin] using hend b t hfin
    | error e t =>
      simpa [map, EStateM.map, tryFinally, tryFinally', hrun, hfin] using hfail e t hfin
  | error e s' =>
    obtain ⟨hend, hfail⟩ := herr e s' (herr' e s' hrun)
    cases hfin : finalizer s' with
    | ok b t => simpa [map, EStateM.map, tryFinally, tryFinally', hrun, hfin] using hend b t hfin
    | error e' t =>
      simpa [map, EStateM.map, tryFinally, tryFinally', hrun, hfin] using hfail e' t hfin

end Triple

end

variable {M D E α : Type}

/-- How an action ends without a result: by an exception, or with the process. -/
inductive Stop (E : Type) where
  | thrown (e : E)
  | terminated

/-- What is done to the memory when the transaction ends. -/
structure Listener (M : Type) where
  onCommit : M → M
  onAbort : M → M

structure Txn (M D : Type) where
  work : D
  listeners : List (Listener M)

/-- `faults n` says whether the database operation `n` from now fails. -/
structure Session (M D : Type) where
  memory : M
  database : D
  txn : Option (Txn M D)
  faults : Nat → Bool

abbrev Action (M D E α : Type) := EStateM (Stop E) (Session M D) α

namespace Txn

def onCommit (txn : Txn M D) (memory : M) : M :=
  txn.listeners.foldl (fun m listener => listener.onCommit m) memory

def onAbort (txn : Txn M D) (memory : M) : M :=
  txn.listeners.foldl (fun m listener => listener.onAbort m) memory

def register (txn : Txn M D) (listener : Listener M) : Txn M D :=
  { txn with listeners := txn.listeners ++ [listener] }

variable (txn : Txn M D) (listener : Listener M) (memory : M)

@[simp] lemma onCommit_register :
    (txn.register listener).onCommit memory = listener.onCommit (txn.onCommit memory) := by
  simp [onCommit, register]

@[simp] lemma onAbort_register :
    (txn.register listener).onAbort memory = listener.onAbort (txn.onAbort memory) := by
  simp [onAbort, register]

end Txn

/-- What the listeners do together. -/
def commitAll (listeners : List (Listener M)) (memory : M) : M :=
  listeners.foldl (fun m listener => listener.onCommit m) memory

def abortAll (listeners : List (Listener M)) (memory : M) : M :=
  listeners.foldl (fun m listener => listener.onAbort m) memory

section

variable (listeners others : List (Listener M)) (memory : M)

lemma commitAll_append :
    commitAll (listeners ++ others) memory = commitAll others (commitAll listeners memory) :=
  List.foldl_append

lemma abortAll_append :
    abortAll (listeners ++ others) memory = abortAll others (abortAll listeners memory) :=
  List.foldl_append

end

namespace Session

variable (s : Session M D)

/-- What the process reads from the database: its own uncommitted work, if there is any. -/
def view : D := (s.txn.map Txn.work).getD s.database

def store (records : D) : Session M D :=
  { s with
    txn := s.txn.map fun txn => { txn with work := records }
    database := if s.txn.isSome then s.database else records }

def committed : Session M D :=
  s.txn.elim s fun txn =>
    { s with database := txn.work, memory := txn.onCommit s.memory, txn := none }

def aborted : Session M D :=
  s.txn.elim s fun txn => { s with memory := txn.onAbort s.memory, txn := none }

end Session

/-- One operation of the database, and whether it succeeds. -/
def attempt : Action M D E Bool := do
  let s ← get
  set { s with faults := fun n => s.faults (n + 1) }
  return !s.faults 0

/-- Change the records, where the database lets it. -/
def update (change : D → Option D) : Action M D E Bool := do
  if ← attempt then
    let s ← get
    if let some records := change s.view then
      set (s.store records)
      return true
  return false

def modifyMemory (f : M → M) : Action M D E Unit := modify fun s => { s with memory := f s.memory }

def hasActiveTxn : Action M D E Bool := do return (← get).txn.isSome

def txnBegin : Action M D E Bool := do
  if ← hasActiveTxn then return false
  if ← attempt then
    modify fun s => { s with txn := some ⟨s.database, []⟩ }
    return true
  return false

def txnCommit : Action M D E Bool := do
  if !(← hasActiveTxn) then return false
  if ← attempt then
    modify Session.committed
    return true
  return false

def txnAbort : Action M D E Bool := do
  if !(← hasActiveTxn) then return false
  if ← attempt then
    modify Session.aborted
    return true
  return false

/-- Only an open transaction takes listeners; without one the assertion fails. -/
def registerTxnListener (listener : Listener M) : Action M D E Unit := do
  if ← hasActiveTxn then
    modify fun s => { s with txn := s.txn.map fun txn => txn.register listener }
  else
    throw .terminated

/-- The end of a batch: a transaction still open is aborted, or the process ends. -/
def closeBatch : Action M D E Unit := do
  if ← hasActiveTxn then
    if !(← txnAbort) then throw .terminated

def withBatch (body : Action M D E α) : Action M D E α := do
  try body finally closeBatch

def abortActiveTxn : Action M D E Unit := do
  if ← hasActiveTxn then
    let _ ← txnAbort

/-- A transaction around `func`: aborted where it fails, throws or cannot be committed. -/
def runWithinTxn (func : Action M D E Bool) : Action M D E Bool := withBatch do
  if !(← txnBegin) then return false
  let done ← tryCatch func fun e => do
    abortActiveTxn
    throw e
  if !done then
    abortActiveTxn
    return false
  if !(← txnCommit) then
    abortActiveTxn
    return false
  return true

/-- No transaction is open, and the memory is one of `A`. -/
structure Settled (A : M → Prop) (d : D) (s : Session M D) : Prop where
  memory : A s.memory
  database : s.database = d
  txn : s.txn = none

/-- No transaction is open. -/
abbrev Outside (m : M) (d : D) (s : Session M D) : Prop := Settled (fun x => x = m) d s

/-- A transaction was just begun. -/
structure Entered (m : M) (d : D) (s : Session M D) : Prop where
  memory : s.memory = m
  database : s.database = d
  txn : s.txn = some ⟨d, []⟩

/-- Aborting now would leave a memory of `A` over the database `d`. -/
structure Undoable (A : M → Prop) (d : D) (s : Session M D) : Prop where
  database : s.database = d
  undone : ∃ txn, s.txn = some txn ∧ A (txn.onAbort s.memory)

/-- No transaction is open, or one that can be undone. -/
def Revertible (A : M → Prop) (d : D) (s : Session M D) : Prop := Settled A d s ∨ Undoable A d s

/-- The exception left a memory of `A` over the database `d`, unless the process ended. -/
def Reverted (A : M → Prop) (d : D) (e : Stop E) (s : Session M D) : Prop :=
  e = .terminated ∨ Settled A d s

/-- A batch that ended with an exception: one of `c`, and nothing is left of its transaction, or the
process ended because it could not abort it. -/
def Broken (c : Stop E → Prop) (A : M → Prop) (d : D) (e : Stop E) (s : Session M D) : Prop :=
  (c e ∧ Settled A d s) ∨ (e = .terminated ∧ s.txn.isSome ∧ s.database = d)

/-- The open transaction has written `work` and left the memory alone. Its commit publishes what it
did, and its abort has nothing to do. -/
structure Deferred (m : M) (d work : D) (publish : M → M) (s : Session M D) : Prop where
  memory : s.memory = m
  database : s.database = d
  txn : ∃ listeners, s.txn = some ⟨work, listeners⟩ ∧
    (∀ x, Txn.onCommit ⟨work, listeners⟩ x = publish x) ∧ ∀ x, Txn.onAbort ⟨work, listeners⟩ x = x

/-- A transaction that left the memory alone and came to one of the ends in `Q`. -/
def Deferring (m : M) (d : D) (Q : D → (M → M) → Prop) (s : Session M D) : Prop :=
  ∃ work publish, Deferred m d work publish s ∧ Q work publish

/-- The open transaction has left the memory alone, and has the listeners and one of the records of
`W`. -/
structure Working (m : M) (d : D) (listeners : List (Listener M)) (W : D → Prop) (s : Session M D) :
    Prop where
  memory : s.memory = m
  database : s.database = d
  txn : ∃ work, s.txn = some ⟨work, listeners⟩ ∧ W work

/-- What the commit of the transaction of `before` leaves. -/
structure Commits (before s : Session M D) : Prop where
  txn : s.txn = none
  published : ∃ txn, before.txn = some txn ∧ s.database = txn.work ∧
    s.memory = txn.onCommit before.memory

lemma Commits.eq_of_txn {before s : Session M D} {txn : Txn M D} (h : Commits before s)
    (htxn : before.txn = some txn) :
    s.database = txn.work ∧ s.memory = txn.onCommit before.memory := by
  obtain ⟨txn', htxn', hpublished⟩ := h.published
  rw [htxn, some_inj] at htxn'
  rwa [htxn']

variable {P : Session M D → Prop} {R : Stop E → Session M D → Prop} {m : M} {d : D}
  {A : M → Prop}

variable {s : Session M D}

lemma Broken.reverted {c : Stop E → Prop} {e : Stop E} (h : Broken c A d e s) : Reverted A d e s :=
  h.elim (fun hs => .inr hs.2) fun hs => .inl hs.1

lemma Settled.view (h : Settled A d s) : s.view = d := by
  rw [Session.view, h.txn, h.database]
  rfl

lemma Settled.store (h : Settled A d s) (records : D) : Settled A records (s.store records) :=
  ⟨by simpa [Session.store, h.txn] using h.memory, by simp [Session.store, h.txn],
    by simp [Session.store, h.txn]⟩

namespace Deferred

variable {work : D} {publish : M → M} {s : Session M D}

variable (h : Deferred m d work publish s)
include h

lemma view : s.view = work := by
  obtain ⟨listeners, htxn, -⟩ := h.txn
  rw [Session.view, htxn]
  rfl

lemma store (records : D) : Deferred m d records publish (s.store records) := by
  obtain ⟨listeners, htxn, hcommit, habort⟩ := h.txn
  exact ⟨h.memory, by simp [Session.store, htxn, h.database], listeners,
    by simp [Session.store, htxn],
    hcommit, habort⟩

lemma register {listener : Listener M} {txn : Txn M D} (hundo : ∀ x, listener.onAbort x = x)
    (htxn : s.txn = some txn) :
    Deferred m d work (listener.onCommit ∘ publish)
      { s with txn := some (txn.register listener) } := by
  obtain ⟨listeners, htxn', hcommit, habort⟩ := h.txn
  rw [htxn, some_inj] at htxn'
  subst htxn'
  refine ⟨h.memory, h.database, listeners ++ [listener], rfl, ?_, ?_⟩
  · intro x
    exact (Txn.onCommit_register ⟨work, listeners⟩ listener x).trans (by rw [hcommit]; rfl)
  · intro x
    exact (Txn.onAbort_register ⟨work, listeners⟩ listener x).trans (by rw [habort, hundo])

lemma undoable : Undoable (fun x => x = m) d s := by
  obtain ⟨listeners, htxn, -, habort⟩ := h.txn
  exact ⟨h.database, _, htxn, by rw [habort, h.memory]⟩

lemma isSome_txn : s.txn.isSome := by
  obtain ⟨listeners, htxn, -⟩ := h.txn
  rw [htxn]
  rfl

lemma outside {s' : Session M D} (hcommits : Commits s s') : Outside (publish m) work s' := by
  obtain ⟨listeners, htxn, hcommit, -⟩ := h.txn
  obtain ⟨hdatabase, hmemory⟩ := hcommits.eq_of_txn htxn
  exact ⟨by rw [hmemory, hcommit, h.memory], hdatabase, hcommits.txn⟩

end Deferred

lemma Entered.deferred (h : Entered m d s) : Deferred m d d id s :=
  ⟨h.memory, h.database, [], h.txn, fun _ => rfl, fun _ => rfl⟩

lemma Entered.working (h : Entered m d s) : Working m d [] (fun work => work = d) s :=
  ⟨h.memory, h.database, d, h.txn, rfl⟩

namespace Working

variable {listeners : List (Listener M)} {W : D → Prop} {s : Session M D}

variable (h : Working m d listeners W s)
include h

lemma weaken {W' : D → Prop} (himp : ∀ work, W work → W' work) : Working m d listeners W' s := by
  obtain ⟨work, htxn, hwork⟩ := h.txn
  exact ⟨h.memory, h.database, work, htxn, himp work hwork⟩

lemma isSome_txn : s.txn.isSome := by
  obtain ⟨work, htxn, -⟩ := h.txn
  rw [htxn]
  rfl

lemma withFaults (faults : Nat → Bool) :
    Working m d listeners W { s with faults := faults } := ⟨h.memory, h.database, h.txn⟩

lemma undoable (habort : ∀ work, A (Txn.onAbort (⟨work, listeners⟩ : Txn M D) m)) :
    Undoable A d s := by
  obtain ⟨work, htxn, -⟩ := h.txn
  refine ⟨h.database, _, htxn, ?_⟩
  rw [h.memory]
  exact habort work

end Working

namespace Triple

lemma attempt (hfaults : ∀ s faults, P s → P { s with faults := faults }) :
    Triple P (attempt : Action M D E Bool) (fun done => cond done P P) R := by
  intro s hs
  apply ends_ok.2
  cases s.faults 0 with
  | true => exact hfaults s _ hs
  | false => exact hfaults s _ hs

lemma hasActiveTxn : Triple P (hasActiveTxn : Action M D E Bool)
    (fun active => cond active (fun s => P s ∧ s.txn.isSome) (fun s => P s ∧ s.txn = none)) R := by
  intro s hs
  apply ends_ok.2
  cases htxn : s.txn with
  | none => exact ⟨hs, htxn⟩
  | some txn => exact ⟨hs, by rw [htxn]; rfl⟩

lemma hasActiveTxn_open (hopen : ∀ s, P s → s.txn.isSome) :
    Triple P (Lib.hasActiveTxn : Action M D E Bool)
    (fun active => cond active P fun _ => False) R := by
  refine hasActiveTxn.weaken ?_ fun _ _ => id
  rintro (_ | _) s ⟨hs, htxn⟩
  · have hsome := hopen s hs
    rw [htxn] at hsome
    cases hsome
  · exact hs

lemma txnBegin : Triple (Outside m d) (txnBegin : Action M D E Bool)
    (fun began => cond began (Entered m d) (Outside m d)) R := by
  apply branch hasActiveTxn
  · exact pure fun s h => h.1
  · refine branch (attempt fun s faults h => ⟨⟨h.1.memory, h.1.database, h.1.txn⟩, h.2⟩) ?_ ?_
    · apply bind (Q := fun _ => Entered m d)
      · exact modify fun s h => ⟨h.1.memory, h.1.database, by simp [h.1.database]⟩
      · exact fun _ => pure fun s h => h
    · exact pure fun s h => h.1

lemma txnCommit (hfaults : ∀ s faults, P s → P { s with faults := faults }) :
    Triple P (txnCommit : Action M D E Bool)
    (fun done => cond done (fun s => ∃ before, P before ∧ Commits before s) P) R := by
  apply branch hasActiveTxn
  · refine branch (attempt fun s faults h => ⟨hfaults s faults h.1, h.2⟩) ?_ ?_
    · apply bind (Q := fun _ s => ∃ before, P before ∧ Commits before s)
      · apply modify
        rintro s ⟨hs, hsome⟩
        obtain ⟨txn, htxn⟩ := isSome_iff_exists.1 hsome
        have hcommitted : s.committed =
            { s with database := txn.work, memory := txn.onCommit s.memory, txn := none } := by
          rw [Session.committed, htxn, elim_some]
        exact ⟨s, hs, by rw [hcommitted], txn, htxn, by rw [hcommitted], by rw [hcommitted]⟩
      · exact fun _ => pure fun s h => h
    · exact pure fun s h => h.1
  · refine pure fun s h => h.1

lemma txnAbort : Triple (Undoable A d) (txnAbort : Action M D E Bool)
    (fun done => cond done (Settled A d) (Undoable A d)) R := by
  apply branch hasActiveTxn
  · refine branch (attempt fun s faults h => ⟨⟨h.1.database, h.1.undone⟩, h.2⟩) ?_ ?_
    · apply bind (Q := fun _ => Settled A d)
      · apply modify
        rintro s ⟨⟨hdatabase, txn, htxn, hundone⟩, -⟩
        have haborted : s.aborted = { s with memory := txn.onAbort s.memory, txn := none } := by
          rw [Session.aborted, htxn, elim_some]
        rw [haborted]
        exact ⟨hundone, hdatabase, rfl⟩
      · exact fun _ => pure fun s h => h
    · exact pure fun s h => h.1
  · exact pure fun s h => h.1

lemma abortActiveTxn :
    Triple (Revertible A d) (abortActiveTxn : Action M D E Unit) (fun _ => Revertible A d) R := by
  apply branch hasActiveTxn
  · apply bind (Q := fun _ => Revertible A d)
    · intro s hs
      obtain ⟨houtside | hundoable, hsome⟩ := hs
      · rw [houtside.txn] at hsome
        cases hsome
      · refine (txnAbort.weaken ?_ fun _ _ => id) s hundoable
        intro done t ht
        cases done with
        | true => exact .inl ht
        | false => exact .inr ht
    · exact fun _ => pure fun s h => h
  · exact pure fun s h => h.1

lemma closeBatch {N : Session M D → Prop} {c : Prop} :
    Triple (fun s => (s.txn = none ∧ N s) ∨ (c ∧ Undoable A d s)) (closeBatch : Action M D E Unit)
      (fun _ s => N s ∨ (c ∧ Settled A d s)) (fun e s => e = .terminated ∧ s.txn.isSome ∧
        s.database = d) := by
  apply branch hasActiveTxn
  · intro s hs
    obtain ⟨⟨hnone, -⟩ | ⟨hc, hundoable⟩, hsome⟩ := hs
    · rw [hnone] at hsome
      cases hsome
    · refine branch txnAbort ?_ ?_ s hundoable
      · exact pure fun t ht => .inr ⟨hc, ht⟩
      · apply throw
        intro t ht
        obtain ⟨txn, htxn, -⟩ := ht.undone
        exact ⟨rfl, by rw [htxn]; rfl, ht.database⟩
  · apply pure
    rintro s ⟨⟨-, hn⟩ | ⟨-, -, txn, htxn, -⟩, hnone⟩
    · exact .inl hn
    · rw [hnone] at htxn
      cases htxn

variable {body : Action M D E α}

section

variable {Q : α → Session M D → Prop} (hclosed : ∀ a s, Q a s → s.txn = none)
include hclosed

/-- What a body leaves open is undone at the end of its batch. `F` are the results a body may
give with a transaction left open, `c` the exceptions. -/
theorem withBatch {F : α → Prop} {X : Stop E → Session M D → Prop} {c : Stop E → Prop}
    (hbody : Triple P body (fun a s => Q a s ∨ (F a ∧ Revertible A d s)) X)
    (hthrow : ∀ e s, X e s → c e ∧ Revertible A d s) :
    Triple P (withBatch body) (fun a s => Q a s ∨ (F a ∧ Settled A d s)) (Broken c A d) := by
  apply finalizing hbody
  · intro a
    refine (closeBatch (A := A) (N := fun s => Q a s ∨ (F a ∧ Settled A d s)) (c :=
      F a)).conseq ?_ ?_
      fun _ _ => .inr
    · rintro s (hq | ⟨hfailed, houtside | hundoable⟩)
      · exact .inl ⟨hclosed a s hq, .inl hq⟩
      · exact .inl ⟨houtside.txn, .inr ⟨hfailed, houtside⟩⟩
      · exact .inr ⟨hfailed, hundoable⟩
    · rintro _ s (hs | hs)
      · exact hs
      · exact .inr hs
  · intro e
    refine (closeBatch (A := A) (N := fun s => c e ∧ Settled A d s) (c := c e)).conseq ?_ ?_
      fun _ _ => .inr
    · intro s hs
      obtain ⟨hc, houtside | hundoable⟩ := hthrow e s hs
      · exact .inl ⟨houtside.txn, hc, houtside⟩
      · exact .inr ⟨hc, hundoable⟩
    · rintro _ s (hs | hs)
      · exact .inl hs
      · exact .inl hs

lemma withBatch_closed (hbody : Triple P body Q fun _ _ => False) :
    Triple P (Lib.withBatch body) Q R := by
  refine finalizing hbody (fun a => ?_) fun e s hs => hs.elim
  apply branch hasActiveTxn
  · rintro s ⟨hs, hsome⟩
    rw [hclosed a s hs] at hsome
    cases hsome
  · exact pure fun s hs => hs.1

end

variable {Q : Session M D → Prop} {func : Action M D E Bool}

/-- A transaction is all or nothing: when it does not succeed, the database is as before, and the
memory is what the listeners make of it. -/
theorem runWithinTxn {X : Stop E → Session M D → Prop} {c : Stop E → Prop} (hstart : A m)
    (hfaults : ∀ s faults, Q s → Q { s with faults := faults })
    (hfunc : Triple (Entered m d) func (fun done => cond done (fun s => Undoable A d s ∧ Q s)
      (Undoable A d)) X) (hthrow : ∀ e s, X e s → c e ∧ Undoable A d s) :
    Triple (Outside m d) (runWithinTxn func)
      (fun done => cond done (fun s => ∃ before, Q before ∧ Commits before s) (Settled A d))
        (Broken c A d) := by
  have habort : Triple (Undoable A d) (do Lib.abortActiveTxn; return false : Action M D E Bool)
      (fun done s => (done ∧ ∃ before, Q before ∧ Commits before s) ∨
        (done = false ∧ Revertible A d s)) fun e s => c e ∧ Revertible A d s := by
    refine bind (abortActiveTxn.strengthen fun s h => .inr h) fun _ => ?_
    exact pure fun s h => .inr ⟨rfl, h⟩
  refine (withBatch (Q := fun done s => done = true ∧ ∃ before, Q before ∧ Commits before s)
    (F := fun done => done = false) ?_ (check txnBegin ?_ ?_) fun _ _ => id).weaken ?_ fun _ _ => id
  · rintro done s ⟨-, before, -, hcommits⟩
    exact hcommits.txn
  · refine check (catching hfunc fun e s hs => ?_) ?_ habort
    · obtain ⟨hc, hundoable⟩ := hthrow e s hs
      refine bind (abortActiveTxn.strengthen fun s h => .inr h) (fun _ => ?_) s hundoable
      exact throw fun s h => ⟨hc, h⟩
    · refine check (txnCommit fun s faults h => ⟨⟨h.1.database, h.1.undone⟩, hfaults s faults h.2⟩)
        ?_ ?_
      · apply pure
        rintro s ⟨before, ⟨-, hq⟩, hcommits⟩
        exact .inl ⟨rfl, before, hq, hcommits⟩
      · exact habort.strengthen fun s h => h.1
  · refine pure fun s h => .inr ⟨rfl, .inl ⟨?_, h.database, h.txn⟩⟩
    rw [h.memory]
    exact hstart
  · rintro done s (⟨rfl, hs⟩ | ⟨rfl, hs⟩)
    · exact hs
    · exact hs

section

variable {func : Action M D E Bool} {Q : D → (M → M) → Prop}

lemma undoable_of_deferring {s : Session M D} (h : Deferring m d Q s) :
    Undoable (fun x => x = m) d s := by
  obtain ⟨work, publish, hdeferred, -⟩ := h
  exact hdeferred.undoable

lemma runWithinTxn_deferring {X : Stop E → Session M D → Prop} {c : Stop E → Prop}
    (hfunc : Triple (Deferred m d d id) func
      (fun done => cond done (Deferring m d Q) (Deferring m d fun _ _ => True)) X)
    (hthrow : ∀ e s, X e s → c e ∧ Deferring m d (fun _ _ => True) s) :
    Triple (Outside m d) (Lib.runWithinTxn func)
      (fun done => cond done (fun s => ∃ work publish, Q work publish ∧ Outside (publish m) work s)
        (Outside m d)) (Broken c (fun x => x = m) d) := by
  refine (runWithinTxn (A := fun x => x = m) (Q := Deferring m d Q) (c := c) rfl ?_
    (hfunc.conseq (fun s h => h.deferred) ?_ fun _ _ => id) ?_).weaken ?_ fun _ _ => id
  · rintro s faults ⟨work, publish, hdeferred, hq⟩
    exact ⟨work, publish, ⟨hdeferred.memory, hdeferred.database, hdeferred.txn⟩, hq⟩
  · rintro (_ | _) s h
    · exact undoable_of_deferring h
    · exact ⟨undoable_of_deferring h, h⟩
  · exact fun e s h => ⟨(hthrow e s h).1, undoable_of_deferring (hthrow e s h).2⟩
  · rintro (_ | _) s h
    · exact h
    · obtain ⟨before, ⟨work, publish, hdeferred, hq⟩, hcommits⟩ := h
      exact ⟨work, publish, hq, hdeferred.outside hcommits⟩

end

variable {listener : Listener M}

lemma registerTxnListener
    (h : ∀ s txn, P s → s.txn = some txn → Q { s with txn := some (txn.register listener) })
    (hopen : ∀ s, P s → s.txn.isSome) :
    Triple P (registerTxnListener listener : Action M D E Unit) (fun _ => Q) R := by
  refine branch (hasActiveTxn_open hopen) (modify fun s hs => ?_) fun _ => False.elim
  obtain ⟨txn, htxn⟩ := isSome_iff_exists.1 (hopen s hs)
  have hnext := h s txn hs htxn
  rwa [htxn]

variable {change : D → Option D}

lemma update (hfaults : ∀ s faults, P s → P { s with faults := faults })
    (h : ∀ s records, P s → change s.view = some records → Q (s.store records)) :
    Triple P (update change : Action M D E Bool) (fun done => cond done Q P) R := by
  refine branch (attempt hfaults) ?_ (pure fun s h => h)
  refine bind get fun s => ?_
  cases hchange : change s.view with
  | none => exact pure fun t ht => ht.2
  | some records =>
    intro t ht
    obtain ⟨rfl, hs⟩ := ht
    exact ends_ok.2 (h s records hs hchange)

lemma update_deferred {work : D} {publish : M → M} :
    Triple (Deferred m d work publish) (Lib.update change : Action M D E Bool) (fun done =>
      cond done
        (fun s => ∃ records, change work = some records ∧ Deferred m d records publish s)
        (Deferred m d work publish)) R := by
  apply update
  · exact fun s faults h => ⟨h.memory, h.database, h.txn⟩
  · intro s records h hchange
    rw [h.view] at hchange
    exact ⟨records, hchange, h.store records⟩

lemma update_outside : Triple (Outside m d) (Lib.update change : Action M D E Bool)
      (fun done => cond done (fun s => ∃ records, change d = some records ∧ Outside m records s)
        (Outside m d)) R := by
  apply update
  · exact fun s faults h => ⟨h.memory, h.database, h.txn⟩
  · intro s records h hchange
    rw [h.view] at hchange
    exact ⟨records, hchange, h.store records⟩

variable {listeners : List (Listener M)}

lemma update_working {W V : D → Prop}
    (h : ∀ work records, W work → change work = some records → V records) :
    Triple (Working m d listeners W) (Lib.update change : Action M D E Bool)
      (fun done => cond done (Working m d listeners V) (Working m d listeners W)) R := by
  apply update
  · exact fun s faults hs => hs.withFaults faults
  · intro s records hs hchange
    obtain ⟨work, htxn, hwork⟩ := hs.txn
    have hview : s.view = work := by
      rw [Session.view, htxn]
      rfl
    rw [hview] at hchange
    exact ⟨by simpa [Session.store, htxn] using hs.memory, by simp [Session.store, htxn,
      hs.database],
      records, by simp [Session.store, htxn], h work records hwork hchange⟩

lemma modifyMemory_working {f : M → M} {W : D → Prop} :
    Triple (Working m d listeners W) (Lib.modifyMemory f : Action M D E Unit)
      (fun _ => Working (f m) d listeners W) R := by
  apply modify
  intro s hs
  exact ⟨by rw [hs.memory], hs.database, hs.txn⟩

lemma modifyMemory_outside {f : M → M} :
    Triple (Outside m d) (Lib.modifyMemory f : Action M D E Unit) (fun _ => Outside (f m) d) R := by
  apply modify
  intro s hs
  exact ⟨by rw [hs.memory], hs.database, hs.txn⟩

lemma register_working {W : D → Prop} :
    Triple (Working m d listeners W) (Lib.registerTxnListener listener : Action M D E Unit)
      (fun _ => Working m d (listeners ++ [listener]) W) R := by
  refine registerTxnListener ?_ fun s hs => hs.isSome_txn
  intro s txn hs htxn
  obtain ⟨work, htxn', hwork⟩ := hs.txn
  rw [htxn, some_inj] at htxn'
  subst htxn'
  exact ⟨hs.memory, hs.database, work, rfl, hwork⟩

lemma register_deferred {work : D} {publish : M → M} (hundo : ∀ x, listener.onAbort x = x) :
    Triple (Deferred m d work publish) (Lib.registerTxnListener listener : Action M D E Unit)
      (fun _ => Deferred m d work (listener.onCommit ∘ publish)) R :=
  registerTxnListener (fun _ _ h htxn => h.register hundo htxn) fun _ h => h.isSome_txn

end Triple

end Tidecoin.Lib
