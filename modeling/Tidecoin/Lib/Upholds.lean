import Tidecoin.Lib.Session

/-!
Programs that keep a property of the memory and one of the records.

The properties hold at every end of the program, with a result, with an exception and where the
process ends, and they hold however the open transaction ends: the listeners keep the one and the
uncommitted work has the other. So the rules speak of single operations, without an account of what
was done before.
-/

namespace Tidecoin.Lib

open List

variable {M D E α β γ : Type}

/-- The listener keeps the property at a commit and at an abort. -/
def Listener.Keeps (P : M → Prop) (listener : Listener M) : Prop :=
  ∀ x, P x → P (listener.onCommit x) ∧ P (listener.onAbort x)

/-- The properties hold now, and after the open transaction however it ends. -/
structure Upheld (P : M → Prop) (Q : D → Prop) (s : Session M D) : Prop where
  memory : P s.memory
  database : Q s.database
  work : ∀ txn, s.txn = some txn → Q txn.work
  listeners : ∀ txn, s.txn = some txn → ∀ listener ∈ txn.listeners, listener.Keeps P

/-- The program keeps the properties, and its results are in `V`. -/
def Upholds (P : M → Prop) (Q : D → Prop) (x : Action M D E α) (V : α → Prop) : Prop :=
  Triple (Upheld P Q) x (fun a s => Upheld P Q s ∧ V a) fun _ => Upheld P Q

namespace Upheld

variable {P : M → Prop} {Q : D → Prop} {s : Session M D}

lemma withFaults (h : Upheld P Q s) (faults : Nat → Bool) :
    Upheld P Q { s with faults := faults } :=
  ⟨h.memory, h.database, h.work, h.listeners⟩

lemma of_outside {m : M} {d : D} (hm : P m) (hd : Q d) (h : Outside m d s) : Upheld P Q s := by
  refine ⟨?_, ?_, ?_, ?_⟩
  · rw [h.memory]
    exact hm
  · rw [h.database]
    exact hd
  · intro txn htxn
    rw [h.txn] at htxn
    cases htxn
  · intro txn htxn
    rw [h.txn] at htxn
    cases htxn

lemma view (h : Upheld P Q s) : Q s.view := by
  unfold Session.view
  cases htxn : s.txn with
  | none => exact h.database
  | some txn => exact h.work txn htxn

lemma store (h : Upheld P Q s) {records : D} (hrecords : Q records) :
    Upheld P Q (s.store records) := by
  cases htxn : s.txn with
  | none =>
    refine ⟨h.memory, ?_, ?_, ?_⟩ <;> simp [Session.store, htxn, hrecords]
  | some txn =>
    refine ⟨h.memory, ?_, ?_, ?_⟩
    · simpa [Session.store, htxn] using h.database
    · simp [Session.store, hrecords]
    · simpa [Session.store, htxn] using h.listeners txn htxn

lemma committed (h : Upheld P Q s) : Upheld P Q s.committed := by
  cases htxn : s.txn with
  | none => rwa [Session.committed, htxn]
  | some txn =>
    have hcommit : P (txn.onCommit s.memory) := by
      apply foldlRecOn (motive := P) txn.listeners _ h.memory
      exact fun x hx listener hlistener => (h.listeners txn htxn listener hlistener x hx).1
    rw [Session.committed, htxn]
    exact ⟨hcommit, h.work txn htxn, by simp, by simp⟩

lemma aborted (h : Upheld P Q s) : Upheld P Q s.aborted := by
  cases htxn : s.txn with
  | none => rwa [Session.aborted, htxn]
  | some txn =>
    have habort : P (txn.onAbort s.memory) := by
      apply foldlRecOn (motive := P) txn.listeners _ h.memory
      exact fun x hx listener hlistener => (h.listeners txn htxn listener hlistener x hx).2
    rw [Session.aborted, htxn]
    exact ⟨habort, h.database, by simp, by simp⟩

end Upheld

namespace Upholds

variable {P : M → Prop} {Q : D → Prop} {V : α → Prop} {W : β → Prop} {x y : Action M D E α}

lemma weaken {V' : α → Prop} (h : Upholds P Q x V') (himp : ∀ a, V' a → V a) : Upholds P Q x V :=
  Triple.weaken h (fun a _ hs => ⟨hs.1, himp a hs.2⟩) fun _ _ => id

lemma pure {a : α} (h : V a) : Upholds P Q (pure a : Action M D E α) V :=
  Triple.pure fun _ hs => ⟨hs, h⟩

lemma throw {e : Stop E} : Upholds P Q (throw e : Action M D E α) V := Triple.throw fun _ hs => hs

lemma throw_bind {e : Stop E} {f : α → Action M D E β} :
    Upholds P Q ((MonadExcept.throw e : Action M D E α) >>= f) W :=
  Triple.throw_bind fun _ hs => hs

lemma bind {f : α → Action M D E β} (hx : Upholds P Q x V) (hf : ∀ a, V a → Upholds P Q (f a) W) :
    Upholds P Q (x >>= f) W := by
  refine Triple.bind hx fun a => ?_
  rintro s ⟨hs, ha⟩
  exact hf a ha s hs

lemma ite {c : Prop} [Decidable c] (hx : c → Upholds P Q x V) (hy : ¬c → Upholds P Q y V) :
    Upholds P Q (if c then x else y) V :=
  Triple.ite hx hy

lemma branch {y : Action M D E Bool} (hy : Upholds P Q y fun _ => True) (hx : Upholds P Q x V)
    {z : Action M D E α} (hz : Upholds P Q z V) :
    Upholds P Q (y >>= fun answer => if answer then x else z) V :=
  bind hy fun _ _ => ite (fun _ => hx) fun _ => hz

lemma check {y : Action M D E Bool} (hy : Upholds P Q y fun _ => True) (hx : Upholds P Q x V)
    {z : Action M D E α} (hz : Upholds P Q z V) :
    Upholds P Q (y >>= fun answer => if !answer then z else x) V :=
  bind hy fun _ _ => ite (fun _ => hz) fun _ => hx

lemma get : Upholds P Q (get : Action M D E (Session M D)) (Upheld P Q) := by
  intro s hs
  exact ends_ok.2 ⟨hs, hs⟩

lemma modifyMemory {f : M → M} (hf : ∀ x, P x → P (f x)) :
    Upholds P Q (modifyMemory f : Action M D E Unit) fun _ => True :=
  .modify fun s hs => ⟨⟨hf s.memory hs.memory, hs.database, hs.work, hs.listeners⟩, trivial⟩

lemma attempt : Upholds P Q (attempt : Action M D E Bool) fun _ => True := by
  refine (Triple.attempt fun s faults hs => hs.withFaults faults).weaken ?_ fun _ _ => id
  rintro (_ | _) s hs
  · exact ⟨hs, trivial⟩
  · exact ⟨hs, trivial⟩

lemma hasActiveTxn : Upholds P Q (hasActiveTxn : Action M D E Bool) fun _ => True :=
  bind get fun _ _ => pure trivial

lemma update {change : D → Option D}
    (h : ∀ records changed, Q records → change records = some changed → Q changed) :
    Upholds P Q (update change : Action M D E Bool) fun _ => True := by
  refine (Triple.update (Q := Upheld P Q) (fun s faults hs => hs.withFaults faults) ?_).weaken ?_
    fun _ _ => id
  · exact fun s records hs hchange => hs.store (h _ _ hs.view hchange)
  · rintro (_ | _) s hs
    · exact ⟨hs, trivial⟩
    · exact ⟨hs, trivial⟩

lemma registerTxnListener {listener : Listener M} (hkeeps : listener.Keeps P) :
    Upholds P Q (registerTxnListener listener : Action M D E Unit) fun _ => True := by
  refine branch hasActiveTxn (.modify fun s hs => ?_) throw
  refine ⟨⟨hs.memory, hs.database, ?_, ?_⟩, trivial⟩
  · intro txn htxn
    obtain ⟨before, hbefore, rfl⟩ := Option.map_eq_some_iff.1 htxn
    exact hs.work before hbefore
  · intro txn htxn
    obtain ⟨before, hbefore, rfl⟩ := Option.map_eq_some_iff.1 htxn
    exact forall_mem_append.2 ⟨hs.listeners before hbefore, forall_mem_singleton.2 hkeeps⟩

/-- The change of the session where the database lets it. -/
lemma attempt_modify {f : Session M D → Session M D} (hf : ∀ s, Upheld P Q s → Upheld P Q (f s)) :
    Upholds P Q (do
      if ← Lib.attempt then
        modify f
        return true
      return false : Action M D E Bool) fun _ => True :=
  branch attempt (bind (V := fun _ => True) (.modify fun s hs => ⟨hf s hs, trivial⟩)
    fun _ _ => pure trivial) (pure trivial)

lemma txnBegin : Upholds P Q (txnBegin : Action M D E Bool) fun _ => True := by
  refine branch hasActiveTxn (pure trivial) (attempt_modify fun s hs => ?_)
  refine ⟨hs.memory, hs.database, ?_, ?_⟩
  · rintro txn ⟨⟩
    exact hs.database
  · rintro txn ⟨⟩ listener hlistener
    cases hlistener

lemma txnCommit : Upholds P Q (txnCommit : Action M D E Bool) fun _ => True :=
  check hasActiveTxn (attempt_modify fun _ hs => hs.committed) (pure trivial)

lemma txnAbort : Upholds P Q (txnAbort : Action M D E Bool) fun _ => True :=
  check hasActiveTxn (attempt_modify fun _ hs => hs.aborted) (pure trivial)

lemma abortActiveTxn : Upholds P Q (abortActiveTxn : Action M D E Unit) fun _ => True :=
  branch hasActiveTxn (bind txnAbort fun _ _ => pure trivial) (pure trivial)

lemma closeBatch : Upholds P Q (closeBatch : Action M D E Unit) fun _ => True :=
  branch hasActiveTxn (check txnAbort (pure trivial) throw) (pure trivial)

lemma catching {handler : Stop E → Action M D E α} (hx : Upholds P Q x V)
    (hhandler : ∀ e, Upholds P Q (handler e) V) : Upholds P Q (tryCatch x handler) V :=
  Triple.catching hx hhandler

lemma withBatch (hx : Upholds P Q x V) : Upholds P Q (withBatch x) V := by
  refine .finalizing hx (fun a => ?_) fun e => ?_
  · rintro s ⟨hs, ha⟩
    exact Triple.weaken closeBatch (fun _ _ ht => ⟨ht.1, ha⟩) (fun _ _ => id) s hs
  · exact Triple.weaken closeBatch (fun _ _ ht => ht.1) fun _ _ => id

lemma runWithinTxn {func : Action M D E Bool} (hfunc : Upholds P Q func fun _ => True) :
    Upholds P Q (runWithinTxn func) fun _ => True := by
  have habort :
      Upholds P Q (do Lib.abortActiveTxn; return false : Action M D E Bool) fun _ => True :=
    bind abortActiveTxn fun _ _ => pure trivial
  refine withBatch (check txnBegin ?_ (pure trivial))
  refine check (catching hfunc fun e => bind abortActiveTxn fun _ _ => throw) ?_ habort
  exact check txnCommit (pure trivial) habort

lemma foldlM {f : β → γ → Action M D E β} (xs : List γ)
    (hf : ∀ b x, W b → x ∈ xs → Upholds P Q (f b x) W)
    {b : β} (hb : W b) : Upholds P Q (xs.foldlM f b) W := by
  induction xs generalizing b with
  | nil => exact pure hb
  | cons x xs ih =>
    apply bind (hf b x hb mem_cons_self)
    intro b' hb'
    exact ih (fun b x hb hx => hf b x hb (mem_cons_of_mem _ hx)) hb'

lemma forM {f : γ → Action M D E PUnit} (xs : List γ)
    (hf : ∀ x ∈ xs, Upholds P Q (f x) fun _ => True) : Upholds P Q (xs.forM f) fun _ => True := by
  induction xs with
  | nil => exact pure trivial
  | cons x xs ih =>
    apply bind (hf x mem_cons_self)
    exact fun _ _ => ih (forall_mem_cons.1 hf).2

end Upholds

end Tidecoin.Lib
