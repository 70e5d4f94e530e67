import Mathlib.Data.List.TakeDrop
import Mathlib.Data.List.Basic

/-!
Bounded first-in first-out buffers over a growing history. A history is a list with its newest
element first; a buffer keeps the last `bound` elements with the oldest in front, as a deque that
is filled at the back and trimmed at the front does. Pushing into the buffer of a history gives
the buffer of the longer history, so a run of pushes never has to be unfolded.
-/

namespace Tidecoin.Lib

open List

variable {α β : Type*}

/-- Remove elements from the front until at most `bound` are left. -/
def trimFront (bound : Nat) (buffer : List α) : List α := buffer.drop (buffer.length - bound)

/-- Append at the back, then trim at the front. -/
def pushBounded (bound : Nat) (buffer : List α) (x : α) : List α := trimFront bound (buffer ++ [x])

/-- The buffer that holds the newest `bound` elements of a history. -/
def recent (bound : Nat) (history : List α) : List α := (history.take bound).reverse

variable (bound : Nat) (history : List α)

@[simp] lemma recent_nil : recent bound ([] : List α) = [] := by
  simp [recent]

@[simp] lemma recent_length : (recent bound history).length = min bound history.length := by
  simp [recent]

lemma trimFront_reverse : trimFront bound history.reverse = recent bound history := by
  rw [trimFront, recent, drop_reverse, length_reverse]
  rcases Nat.le_total bound history.length with hle | hge
  · rw [Nat.sub_sub_self hle]
  · rw [Nat.sub_eq_zero_of_le hge, Nat.sub_zero, take_of_length_le (Nat.le_refl _),
      take_of_length_le hge]

lemma pushBounded_recent (x : α) :
    pushBounded bound (recent bound history) x = recent bound (x :: history) := by
  have happend : recent bound history ++ [x] = (x :: history.take bound).reverse := by
    simp [recent]
  rw [pushBounded, happend, trimFront_reverse, recent, recent]
  cases bound with
  | zero => simp
  | succ bound => simp [take_take]

lemma recent_take {bound depth : Nat} (hdepth : bound ≤ depth) (history : List α) :
    recent bound (history.take depth) = recent bound history := by
  rw [recent, recent, take_take, Nat.min_eq_left hdepth]

lemma recent_getLast? {bound : Nat} (hbound : 0 < bound) (history : List α) :
    (recent bound history).getLast? = history.head? := by
  rw [recent, getLast?_reverse, head?_take, if_neg (by omega)]

lemma recent_head? {bound : Nat} {history : List α} (hlen : bound + 1 ≤ history.length) :
    (recent (bound + 1) history).head? = history[bound]? := by
  rw [recent, head?_reverse, getLast?_take, if_neg (by omega)]
  have hbound : bound < history.length := by omega
  simp [hbound]

/-- The function `f` applied, for every element of a history, to the newest `span` elements as of
that element. -/
def windowMap (span : Nat) (f : List α → β) : List α → List β
  | [] => []
  | x :: history => f ((x :: history).take span) :: windowMap span f history

variable (span : Nat) (f : List α → β)

@[simp] lemma windowMap_length (history : List α) :
    (windowMap span f history).length = history.length := by
  induction history with
  | nil => rfl
  | cons x history ih => simp [windowMap, ih]

lemma windowMap_getElem? (history : List α) (i : Nat)
    (hi : i < history.length) :
    (windowMap span f history)[i]? = some (f ((history.drop i).take span)) := by
  induction history generalizing i with
  | nil => simp at hi
  | cons x history ih =>
    cases i with
    | zero => simp [windowMap]
    | succ i => simpa [windowMap] using ih i (by simpa using hi)

/-- The newest `count` window values are determined by the newest `depth` elements once `depth`
reaches a whole window behind the oldest of them. -/
theorem windowMap_take {span count depth : Nat} (hdepth : count + span ≤ depth)
    (f : List α → β) (history : List α) :
    (windowMap span f (history.take depth)).take count = (windowMap span f history).take count := by
  induction history generalizing count depth with
  | nil => simp
  | cons x history ih =>
    cases count with
    | zero => simp
    | succ count =>
      obtain ⟨depth, rfl⟩ : ∃ d, depth = d + 1 := ⟨depth - 1, by omega⟩
      have hhead : (x :: history.take depth).take span = (x :: history).take span := by
        cases span with
        | zero => rfl
        | succ span =>
          rw [take_succ_cons, take_succ_cons, take_take, Nat.min_eq_left (by omega)]
      simp only [take_succ_cons, windowMap, hhead]
      rw [ih (by omega)]

end Tidecoin.Lib
