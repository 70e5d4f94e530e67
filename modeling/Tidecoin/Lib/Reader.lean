import Tidecoin.Lib.Bytes
import Tidecoin.Lib.Except

/-!
Readers of byte strings. A reader takes a value from the front of a string or fails. `Codec` says
that a reader accepts exactly the encodings of the valid values, each followed by anything: what is
written is read back, and what is read is the encoding of the value it gives. Readers that read one
field after the other are codecs when the readers of their fields are.
-/

namespace Tidecoin.Lib

open List

abbrev Reader (ε α : Type) := StateT Bytes (Except ε) α

namespace Reader

variable {ε α β : Type}

/-- The next `count` bytes. -/
def take (short : ε) (count : Nat) : Reader ε Bytes := fun input =>
  if count ≤ input.length then .ok (input.take count, input.drop count) else .error short

/-- A check between two reads. -/
def check (condition : Prop) [Decidable condition] (invalid : ε) : Reader ε Unit :=
  StateT.lift (require condition invalid)

/-- One value for each element of a list, read by a reader that may use the element. -/
def forEach (read : α → Reader ε β) : List α → Reader ε (List β)
  | [] => pure []
  | head :: tail => do
      let first ← read head
      let others ← forEach read tail
      return first :: others

/-- `count` values, one after the other. -/
def many (read : Reader ε α) (count : Nat) : Reader ε (List α) :=
  forEach (fun _ => read) (List.replicate count ())

variable {input rest : Bytes}

lemma run_bind_eq_ok {read : Reader ε α} {next : α → Reader ε β} {value : β} :
    (read >>= next).run input = .ok (value, rest) ↔ ∃ first middle,
      read.run input = .ok (first, middle) ∧ (next first).run middle = .ok (value, rest) := by
  rw [StateT.run_bind, bind_eq_ok]
  constructor
  · rintro ⟨⟨first, middle⟩, hread, hnext⟩
    exact ⟨first, middle, hread, hnext⟩
  · rintro ⟨first, middle, hread, hnext⟩
    exact ⟨(first, middle), hread, hnext⟩

lemma run_pure_eq_ok {first value : α} :
    (pure first : Reader ε α).run input = .ok (value, rest) ↔ value = first ∧ input = rest := by
  constructor
  · intro hok
    cases hok
    exact ⟨rfl, rfl⟩
  · rintro ⟨rfl, rfl⟩
    rfl

lemma run_check_eq_ok {condition : Prop} [Decidable condition] {invalid : ε} {value : Unit} :
    (check condition invalid).run input = .ok (value, rest) ↔ condition ∧ input = rest := by
  rw [check, StateT.run_lift, bind_eq_ok]
  constructor
  · rintro ⟨_, hcheck, hok⟩
    cases hok
    exact ⟨require_eq_ok.1 hcheck, rfl⟩
  · rintro ⟨hcondition, rfl⟩
    exact ⟨(), require_pos hcondition invalid, rfl⟩

/-- The reader accepts exactly the encodings of the valid values. -/
def Codec (read : Reader ε α) (write : α → Bytes) (valid : α → Prop) : Prop :=
  ∀ input value rest, read.run input = .ok (value, rest) ↔ valid value ∧ input = write value ++ rest

namespace Codec

variable {read : Reader ε α} {write : α → Bytes} {valid : α → Prop}

variable (hread : Codec read write valid)

include hread in
lemma read_write {value : α} (hvalid : valid value) (rest : Bytes) :
    read.run (write value ++ rest) = .ok (value, rest) :=
  (hread _ value rest).2 ⟨hvalid, rfl⟩

include hread in
lemma congr {write' : α → Bytes} {valid' : α → Prop} (hvalid : ∀ value, valid value ↔ valid' value)
    (hwrite : ∀ value, valid value → write value = write' value) : Codec read write' valid' := by
  intro input value rest
  rw [hread, ← hvalid]
  constructor
  · rintro ⟨hholds, rfl⟩
    exact ⟨hholds, by rw [hwrite value hholds]⟩
  · rintro ⟨hholds, rfl⟩
    exact ⟨hholds, by rw [hwrite value hholds]⟩

lemma take (short : ε) (count : Nat) :
    Codec (Reader.take short count) id (fun bytes => bytes.length = count) := by
  intro input value rest
  change (if count ≤ input.length then _ else _) = _ ↔ _
  split
  case isTrue hlength =>
    constructor
    · intro hok
      cases hok
      exact ⟨length_take_of_le hlength, (take_append_drop count input).symm⟩
    · rintro ⟨rfl, rfl⟩
      simp
  case isFalse hlength =>
    constructor
    · intro hok
      cases hok
    · rintro ⟨rfl, rfl⟩
      simp at hlength

lemma pure (value : α) : Codec (Pure.pure value : Reader ε α) (fun _ => []) (· = value) := by
  intro input other rest
  rw [run_pure_eq_ok, nil_append]

include hread in
lemma field {next : α → Reader ε β} {writeRest : β → Bytes} {validRest : α → β → Prop} (get : β → α)
    (hnext : ∀ first, valid first → Codec (next first) writeRest (validRest first))
    (hget : ∀ first value, validRest first value → get value = first) :
    Codec (read >>= next) (fun value => write (get value) ++ writeRest value)
      (fun value => valid (get value) ∧ validRest (get value) value) := by
  intro input value rest
  rw [run_bind_eq_ok]
  constructor
  · rintro ⟨first, middle, hfirst, hrest⟩
    obtain ⟨hvalid, rfl⟩ := (hread _ _ _).1 hfirst
    obtain ⟨hvalue, rfl⟩ := (hnext first hvalid _ _ _).1 hrest
    obtain rfl := hget first value hvalue
    exact ⟨⟨hvalid, hvalue⟩, (append_assoc _ _ _).symm⟩
  · rintro ⟨⟨hvalid, hvalue⟩, rfl⟩
    refine ⟨get value, writeRest value ++ rest, ?_, ?_⟩
    · rw [append_assoc]
      exact hread.read_write hvalid _
    · exact (hnext _ hvalid).read_write hvalue _

include hread in
lemma map (convert : α → β) (back : β → α) (hback : ∀ value, back (convert value) = value)
    {valid' : β → Prop}
    (hvalid : ∀ value, valid' value ↔ valid (back value) ∧ convert (back value) = value) :
    Codec (convert <$> read) (fun value => write (back value)) valid' := by
  have hget : ∀ first value, value = convert first → back value = first := by
    intro first value heq
    rw [heq, hback]
  refine (hread.field back (fun first _ => .pure (convert first)) hget).congr (fun value =>
    ?_) (fun value _ => append_nil _)
  rw [hvalid value, eq_comm (a := value)]

lemma forEach {read : α → Reader ε β} {write : β → Bytes} {valid : α → β → Prop}
    (hread : ∀ element, Codec (read element) write (valid element)) (elements : List α) :
    Codec (Reader.forEach read elements) (fun values => values.flatMap write)
      (fun values => Forall₂ valid elements values) := by
  induction elements with
  | nil =>
    refine (Codec.pure []).congr (fun values => ?_) (fun values hnil => ?_)
    · rw [forall₂_nil_left_iff]
    · rw [hnil, flatMap_nil]
  | cons head tail ih =>
    intro input values rest
    simp only [Reader.forEach, run_bind_eq_ok, hread head _ _ _, ih _ _ _, run_pure_eq_ok]
    constructor
    · rintro ⟨first, _, ⟨hfirst, rfl⟩, others, _, ⟨hothers, rfl⟩, rfl, rfl⟩
      exact ⟨.cons hfirst hothers, by rw [flatMap_cons, append_assoc]⟩
    · rintro ⟨hvalues, rfl⟩
      cases hvalues with
      | cons hfirst hothers =>
        exact ⟨_, _, ⟨hfirst, by rw [flatMap_cons, append_assoc]⟩, _, _, ⟨hothers, rfl⟩, rfl, rfl⟩

include hread in
lemma many (count : Nat) : Codec (Reader.many read count) (fun values => values.flatMap write)
      (fun values => values.length = count ∧ ∀ value ∈ values, valid value) := by
  refine (Codec.forEach (fun _ => hread) (replicate count ())).congr (fun values =>
    ?_) (fun _ _ => rfl)
  induction count generalizing values with
  | zero =>
    rw [replicate_zero, forall₂_nil_left_iff, length_eq_zero_iff]
    refine ⟨fun hnil => ⟨hnil, ?_⟩, And.left⟩
    rw [hnil]
    exact fun value hmem => absurd hmem not_mem_nil
  | succ count ih =>
    rw [replicate_succ]
    cases values with
    | nil => simp
    | cons head tail =>
      rw [forall₂_cons, ih tail, length_cons, Nat.succ_inj, forall_mem_cons]
      exact and_left_comm

end Codec

end Reader

end Tidecoin.Lib
