import Impala.Exec.BlockingPlanRootSink.Basic
import Mathlib.Algebra.BigOperators.Group.List
import Mathlib.Algebra.Order.Ring.Nat

/-!
# Rows passed by `Send`

Where the producer's `Send` calls have reached in the batches, the rows passed up to there,
and the `(start_idx, num_rows)` ranges of the `AddRows` calls for each batch: the bookkeeping
in which the invariant of the cancellation module states that rows reach the consumer in order.
-/

namespace Impala.Exec.BlockingPlanRootSink

variable {Row : Type} (batches : List (List Row))

/-- The rows of batches `0, …, b - 1` and the first `row` rows of batch `b`. -/
def sent (b row : Nat) : List Row := (batches.take b).flatten ++ (batches.getD b []).take row

/-- Consecutive, non-empty ranges `(start, length)`, the first starting at `start`. -/
def Consecutive : Nat → List (Nat × Nat) → Prop
  | _, [] => True
  | start, (s, n) :: rest => s = start ∧ 0 < n ∧ Consecutive (start + n) rest

/-- The `(start_idx, num_rows)` of the `AddRows` calls for batch `b`, in call order. -/
def rangesOf (calls : List (Nat × Nat × Nat)) (b : Nat) : List (Nat × Nat) :=
  (calls.filter (·.1 = b)).map (·.2)

namespace ProducerPc

/-- The batch and row the producer's `Send` calls have reached; past the last batch once
they all returned. -/
def position (n : Nat) : ProducerPc → Nat × Nat
  | send b row | check b row | wait b row | asleep b row | woken b row => (b, row)
  | flushFinal | close | done => (n, 0)

/-- A position `Send` can be at: inside the batches, and inside the loop only with rows of
the batch left. -/
def Valid : ProducerPc → Prop
  | send b row => b ≤ batches.length ∧ row ≤ (batches.getD b []).length
  | check b row | wait b row | asleep b row | woken b row => row < (batches.getD b []).length
  | flushFinal | close | done => True

@[simp] theorem position_notify (n : Nat) (pc : ProducerPc) :
    pc.notify.position n = pc.position n := by
  cases pc <;> rfl

@[simp] theorem valid_notify (pc : ProducerPc) : pc.notify.Valid batches ↔ pc.Valid batches := by
  cases pc <;> rfl

end ProducerPc

/-- The rows of batch `b` passed at position `(b', row)`. -/
def sentOf (pos : Nat × Nat) (b : Nat) : Nat :=
  if b < pos.1 then (batches.getD b []).length else if b = pos.1 then pos.2 else 0

/-! ## Rows passed and ranges -/

theorem sent_add (b row n : Nat) :
    sent batches b (row + n) = sent batches b row ++ ((batches.getD b []).drop row).take n := by
  simp [sent, List.take_add]

theorem sent_succ_zero {b : Nat} (hb : b < batches.length) :
    sent batches (b + 1) 0 = sent batches b (batches.getD b []).length := by
  rw [sent, sent, List.take_zero, List.append_nil, List.take_length, List.take_succ,
    List.getElem?_eq_getElem hb, Option.toList_some, List.flatten_append, List.flatten_singleton,
    List.getD_eq_getElem _ _ hb]

theorem sent_length_zero : sent batches batches.length 0 = batches.flatten := by
  simp [sent]

theorem sent_isPrefix_flatten : ∀ (batches : List (List Row)) (b row : Nat),
    sent batches b row <+: batches.flatten
  | [], _, _ => by simp [sent]
  | x :: bs, 0, row => ⟨x.drop row ++ bs.flatten, by
      simp only [sent, List.take_zero, List.flatten_nil, List.getD_cons_zero, List.nil_append]
      rw [← List.append_assoc, List.take_append_drop, List.flatten_cons]⟩
  | x :: bs, b + 1, row => by
      simpa [sent] using (List.prefix_append_right_inj x).mpr (sent_isPrefix_flatten bs b row)

theorem consecutive_append_singleton : ∀ (start : Nat) (l : List (Nat × Nat)) (s n : Nat),
    Consecutive start (l ++ [(s, n)]) ↔
      Consecutive start l ∧ s = start + (l.map (·.2)).sum ∧ 0 < n
  | start, [], s, n => by simp [Consecutive]
  | start, (s', n') :: l, s, n => by
      rw [List.cons_append]
      show (s' = start ∧ 0 < n' ∧ Consecutive (start + n') (l ++ [(s, n)])) ↔ _
      rw [consecutive_append_singleton (start + n') l s n]
      simp only [Consecutive, List.map_cons, List.sum_cons]
      constructor
      · rintro ⟨h1, h2, h3, h4, h5⟩
        exact ⟨⟨h1, h2, h3⟩, by omega, h5⟩
      · rintro ⟨⟨h1, h2, h3⟩, h4, h5⟩
        exact ⟨h1, h2, h3, by omega, h5⟩

theorem Consecutive.le : ∀ {start : Nat} {l : List (Nat × Nat)}, Consecutive start l →
    ∀ r ∈ l, r.1 + r.2 ≤ start + (l.map (·.2)).sum
  | _, [], _, _, hr => absurd hr (List.not_mem_nil _)
  | start, (s, n) :: l, ⟨h1, _, h3⟩, r, hr => by
      have ih := Consecutive.le h3
      simp only [List.map_cons, List.sum_cons]
      rcases List.mem_cons.mp hr with rfl | hr
      · omega
      · have := ih r hr; omega

theorem rangesOf_append (calls : List (Nat × Nat × Nat)) (b row n b' : Nat) :
    rangesOf (calls ++ [(b, row, n)]) b' =
      rangesOf calls b' ++ if b = b' then [(row, n)] else [] := by
  by_cases h : b = b' <;> simp [rangesOf, h]

theorem sentOf_add (b row n b' : Nat) :
    sentOf batches (b, row + n) b' = sentOf batches (b, row) b' + if b' = b then n else 0 := by
  unfold sentOf
  split_ifs <;> omega

theorem sentOf_succ_zero (b b' : Nat) :
    sentOf batches (b + 1, 0) b' = sentOf batches (b, (batches.getD b []).length) b' := by
  simp only [sentOf]
  split_ifs <;> first | rfl | omega | (subst_vars; rfl)

theorem sentOf_le {pc : ProducerPc} (hv : pc.Valid batches) (b : Nat) :
    sentOf batches (pc.position batches.length) b ≤ (batches.getD b []).length := by
  unfold sentOf
  split_ifs with h1 h2
  · exact Nat.le_refl _
  · subst h2
    cases pc <;> simp_all [ProducerPc.position, ProducerPc.Valid] <;> omega
  · exact Nat.zero_le _

theorem flatten_set_of_getD_eq_nil : ∀ (l : List (List Row)) (j : Nat), j + 1 = l.length →
    l.getD j [] = [] → ∀ x, (l.set j x).flatten = l.flatten ++ x
  | [], _, h, _, _ => absurd h (by simp)
  | [a], 0, _, ha, x => by simp at ha; simp [ha]
  | _ :: _ :: _, 0, h, _, _ => by simp at h
  | a :: l, j + 1, h, ha, x => by
      simp [flatten_set_of_getD_eq_nil l j (by simpa using h) (by simpa using ha) x]

section Steps

variable {batches}

theorem lt_length_of_lt_getD {b row : Nat} (h : row < (batches.getD b []).length) :
    b < batches.length := by
  by_contra hb
  rw [List.getD_eq_default _ _ (by omega)] at h
  cases h

/-- An `AddRows` call inside a batch passes between one row and the rest of the batch, and at
most `num_rows_requested_` when that is positive. -/
theorem numToFetch_bounds {b row : Nat} (hrow : row < (batches.getD b []).length) (k : Int) :
    0 < numToFetch batches b row k ∧ row + numToFetch batches b row k ≤ (batches.getD b []).length ∧
      (0 < k → numToFetch batches b row k ≤ k.toNat) := by
  unfold numToFetch; split_ifs <;> omega

end Steps

end Impala.Exec.BlockingPlanRootSink
