import Impala.Exec.BlockingPlanRootSink.Delivery
import Impala.Exec.BlockingPlanRootSink.Wakeup

/-!
# Who writes a result set

`GetNext` call `j` appends result set `j` and points `results_` at it; the calls return in
order, so `eosReturned` has one entry per returned call. Over every schedule, cancellation
included, `Send` adds rows only to the result set of the call in progress. A call returns
with `results_` still set only once `FlushFinal` or `Close` has run, after which the producer
makes no `AddRows` call, or once the flag is set, which `Send` tests under `lock_` before
`AddRows`. Without cancellation each call receives at most one range of rows, and a call that
returns while rows are pending received some.
-/

namespace Impala.Exec.BlockingPlanRootSink

variable {Row : Type} (batches : List (List Row))

@[simp] theorem ConsumerPc.notify_eq_idle (pc : ConsumerPc) : pc.notify = .idle ↔ pc = .idle := by
  cases pc <;> simp [ConsumerPc.notify]

@[simp] theorem ProducerPc.notify_eq_close (pc : ProducerPc) : pc.notify = .close ↔ pc = .close := by
  cases pc <;> simp [ProducerPc.notify]

/-- What holds along every schedule: the producer's position is valid; one result set per
`GetNext` call, returned or pending; `results_` points at the last, still empty, result set;
a pending call whose `results_` was cleared received rows; a returned call left `results_` set
only after cancellation or `FlushFinal`/`Close`; and those two leave the producer finished. -/
structure ResultSetOwner (s : Sink Row) : Prop where
  valid : s.producer.Valid batches
  calls : s.eosReturned.length + (if s.consumer = .idle then 0 else 1) = s.resultSets.length
  results : ∀ j, s.results = some j → j + 1 = s.resultSets.length ∧ s.resultSets.getD j [] = []
  filled : s.consumer ≠ .idle → s.results = none → s.resultSets.getD s.eosReturned.length [] ≠ []
  returned : s.consumer = .idle → s.results ≠ none →
    s.cancelled = true ∨ s.senderState ≠ .rowsPending
  finished : s.senderState ≠ .rowsPending → s.producer = .close ∨ s.producer = .done

variable {batches} {s s' : Sink Row}

theorem ResultSetOwner.pending (hs : ResultSetOwner batches s) {b row j : Nat}
    (hpc : s.producer = .check b row) (hc : s.cancelled = false) (hres : s.results = some j) :
    s.consumer ≠ .idle ∧ j = s.eosReturned.length := by
  have hss : s.senderState = .rowsPending := by
    by_contra hne
    rcases hs.finished hne with h | h <;> rw [hpc] at h <;> cases h
  have hidle : s.consumer ≠ .idle := fun hi => by
    rcases hs.returned hi (by simp [hres]) with h | h
    · rw [hc] at h; cases h
    · exact h hss
  have hc := hs.calls
  rw [if_neg hidle] at hc
  exact ⟨hidle, by have := (hs.results j hres).1; omega⟩

namespace ResultSetOwner

variable (hs : ResultSetOwner batches s)
include hs

theorem with_producer {p : ProducerPc} (l : Option Thread) (hp : p.Valid batches)
    (hfin : s.producer ≠ .close ∧ s.producer ≠ .done) :
    ResultSetOwner batches { s with lock := l, producer := p } :=
  ⟨hp, hs.calls, hs.results, hs.filled, hs.returned,
    fun hne => (hs.finished hne).elim (absurd · hfin.1) (absurd · hfin.2)⟩

theorem with_consumer {c : ConsumerPc} (l : Option Thread) (hc : c ≠ .idle)
    (hsc : s.consumer ≠ .idle) : ResultSetOwner batches { s with lock := l, consumer := c } := by
  have hcalls := hs.calls
  rw [if_neg hsc] at hcalls
  exact ⟨hs.valid, (by simpa [hc] using hcalls), hs.results, fun _ => hs.filled hsc,
    fun h => absurd h hc, hs.finished⟩

theorem of_producerStep (h : producerStep batches s = some s') : ResultSetOwner batches s' := by
  have hvalid := hs.valid
  unfold producerStep at h
  split at h
  next b row hpc =>
    have hfin : s.producer ≠ .close ∧ s.producer ≠ .done := by simp [hpc]
    split_ifs at h with hb hrow <;> cases h
    · exact hs.with_producer _ hrow hfin
    · exact hs.with_producer s.lock ⟨hb, Nat.zero_le _⟩ hfin
    · exact hs.with_producer s.lock trivial hfin
  next b row hpc =>
    have hfin : s.producer ≠ .close ∧ s.producer ≠ .done := by simp [hpc]
    rw [hpc] at hvalid
    split_ifs at h with hwait hcan <;> cases h
    · exact hs.with_producer s.lock hvalid hfin
    · exact hs.with_producer none trivial hfin
    · have hcf : s.cancelled = false := by simpa using hcan
      obtain ⟨j, hj⟩ := Option.ne_none_iff_exists'.mp fun hn => hwait ⟨hn, hcf⟩
      obtain ⟨hidle, rfl⟩ := hs.pending hpc hcf hj
      obtain ⟨hn, hle, -⟩ := numToFetch_bounds hvalid s.numRowsRequested
      have hnil := (hs.results _ hj).2
      refine ⟨⟨Nat.le_of_lt (lt_length_of_lt_getD hvalid), hle⟩, ?_, fun _ h => (by cases h),
        fun _ _ => ?_, fun h => absurd ((ConsumerPc.notify_eq_idle _).mp h) hidle, fun h => ?_⟩
      · simpa using hs.calls
      · have hlen := (hs.results _ hj).1
        dsimp only
        rw [hj, Option.getD_some, hnil, List.nil_append, List.getD_eq_getElem?_getD,
          List.getElem?_set_self (by omega), Option.getD_some, ne_eq, List.take_eq_nil_iff,
          List.drop_eq_nil_iff]
        omega
      · exact absurd (hs.finished h) (by rw [hpc]; simp)
  next b row hpc =>
    cases h
    exact hs.with_producer none (by rwa [hpc] at hvalid) (by simp [hpc])
  next b row hpc =>
    split_ifs at h
    cases h
    exact hs.with_producer _ (by rwa [hpc] at hvalid) (by simp [hpc])
  next =>
    split_ifs at h
    cases h
    exact ⟨trivial, (by simpa using hs.calls), hs.results,
      fun hc => hs.filled (by simpa using hc), fun _ _ => .inr (by simp), fun _ => .inl rfl⟩
  next =>
    split at h
    · cases h
      refine ⟨trivial, (by simpa using hs.calls), hs.results,
        fun hc => hs.filled (by simpa using hc), fun _ _ => .inr ?_, fun _ => .inr rfl⟩
      split <;> simp_all
    · cases h
  all_goals cases h

theorem of_consumerStep (h : consumerStep s = some s') : ResultSetOwner batches s' := by
  unfold consumerStep at h
  split at h
  next hc =>
    split_ifs at h with hwait <;> cases h
    · exact hs.with_consumer _ (by simp) (by simp [hc])
    · have hcalls := hs.calls
      simp only [hc, reduceCtorEq, if_false] at hcalls
      refine ⟨hs.valid, (by simpa using hcalls), hs.results, fun h => absurd rfl h,
        fun _ hres => ?_, hs.finished⟩
      -- `GetNext` returns with `results_` still set: its wait predicate was false
      cases hcan : s.cancelled
      · exact .inr fun hss => hwait ⟨hss, hres, hcan⟩
      · exact .inl rfl
  next hc =>
    cases h
    exact hs.with_consumer none (by simp) (by simp [hc])
  next hc =>
    split_ifs at h
    cases h
    exact hs.with_consumer _ (by simp) (by simp [hc])
  all_goals cases h

theorem of_getNext {n : Int} (h : getNext s n = some s') : ResultSetOwner batches s' := by
  unfold getNext at h
  split_ifs at h with hidle
  cases h
  have hcalls := hs.calls
  rw [if_pos hidle.1] at hcalls
  refine ⟨(by simpa using hs.valid), (by simp; omega), fun j hj => ?_, fun _ hn => (by cases hn),
    fun h => (by cases h), fun hne => by simpa using hs.finished hne⟩
  cases hj
  simp

theorem of_cancellerStep (h : cancellerStep s = some s') : ResultSetOwner batches s' := by
  unfold cancellerStep at h
  split at h <;> cases h
  · exact ⟨hs.valid, hs.calls, hs.results, hs.filled, fun _ _ => .inl rfl, hs.finished⟩
  · exact ⟨(by simpa using hs.valid), hs.calls, hs.results, hs.filled, hs.returned,
      fun hne => by simpa using hs.finished hne⟩
  · exact ⟨hs.valid, (by simpa using hs.calls), hs.results,
      fun hc => hs.filled (by simpa using hc), fun hc => hs.returned (by simpa using hc), hs.finished⟩

end ResultSetOwner

theorem Reachable.resultSetOwner {allowed : Action → Prop} (h : Reachable batches allowed s) :
    ResultSetOwner batches s := by
  induction h with
  | init => exact ⟨⟨Nat.zero_le _, Nat.zero_le _⟩, rfl, fun _ h => (by cases h),
      fun h => absurd rfl h, fun _ h => absurd rfl h, fun h => absurd rfl h⟩
  | @step s s' a _ _ hs ih =>
      cases a with
      | producer => exact ih.of_producerStep hs
      | consumer => exact ih.of_consumerStep hs
      | getNext n => exact ih.of_getNext hs
      | canceller => exact ih.of_cancellerStep hs

/-- What a step does to the result sets, the `AddRows` calls and the returned calls: nothing,
or a new empty result set (`GetNext` called); a return of `GetNext`; or one `AddRows`. -/
theorem step_cases {a : Action} (h : step batches s a = some s') :
    (s'.addRowsCalls = s.addRowsCalls ∧ s'.eosReturned = s.eosReturned ∧
        (s'.resultSets = s.resultSets ∨ s'.resultSets = s.resultSets ++ [[]])) ∨
    (s'.addRowsCalls = s.addRowsCalls ∧ s'.resultSets = s.resultSets ∧ s.consumer = .check ∧
        ¬(s.senderState = .rowsPending ∧ s.results ≠ none ∧ s.cancelled = false) ∧
        s'.eosReturned = s.eosReturned ++ [decide (s.senderState = .eos)]) ∨
    (∃ b row j, s.producer = .check b row ∧ s.cancelled = false ∧ s.results = some j ∧
      s'.results = none ∧ s'.eosReturned = s.eosReturned ∧
      s'.addRowsCalls = s.addRowsCalls ++ [(b, row, numToFetch batches b row s.numRowsRequested)] ∧
      s'.resultSets = s.resultSets.set j (s.resultSets.getD j [] ++
        ((batches.getD b []).drop row).take (numToFetch batches b row s.numRowsRequested))) := by
  cases a with
  | producer =>
    simp only [step] at h
    unfold producerStep at h
    split at h
    next => split_ifs at h <;> cases h <;> exact .inl ⟨rfl, rfl, .inl rfl⟩
    next b row hpc =>
      split_ifs at h with hwait hcan <;> cases h
      · exact .inl ⟨rfl, rfl, .inl rfl⟩
      · exact .inl ⟨rfl, rfl, .inl rfl⟩
      · obtain ⟨j, hj⟩ := Option.ne_none_iff_exists'.mp fun hn => hwait ⟨hn, by simpa using hcan⟩
        exact .inr (.inr ⟨b, row, j, hpc, by simpa using hcan, hj, rfl, rfl, rfl, by rw [hj]; rfl⟩)
    all_goals (try split_ifs at h) <;> cases h <;> exact .inl ⟨rfl, rfl, .inl rfl⟩
  | consumer =>
    simp only [step] at h
    unfold consumerStep at h
    split at h
    next hc =>
      split_ifs at h with hwait <;> cases h
      · exact .inl ⟨rfl, rfl, .inl rfl⟩
      · exact .inr (.inl ⟨rfl, rfl, hc, hwait, rfl⟩)
    next => cases h; exact .inl ⟨rfl, rfl, .inl rfl⟩
    next =>
      split_ifs at h
      cases h
      exact .inl ⟨rfl, rfl, .inl rfl⟩
    all_goals cases h
  | getNext n =>
    simp only [step] at h
    unfold getNext at h
    split_ifs at h
    cases h
    exact .inl ⟨rfl, rfl, .inr rfl⟩
  | canceller =>
    simp only [step] at h
    unfold cancellerStep at h
    split at h <;> cases h <;> exact .inl ⟨rfl, rfl, .inl rfl⟩

/-! ## `Send` writes only into the result set of a pending `GetNext` -/

/-- Over every schedule of the three threads, an `AddRows` call targets the result set of the
`GetNext` call in progress (call `j` has result set `j`, and `j` calls have returned), and no
step changes the result set of a call that has returned. -/
theorem addRows_into_pending_getNext {a : Action} (h : Reachable batches (fun _ => True) s)
    (hstep : step batches s a = some s') :
    (s'.addRowsCalls ≠ s.addRowsCalls →
      s.consumer ≠ .idle ∧ s.results = some s.eosReturned.length) ∧
    ∀ j < s.eosReturned.length, s'.resultSets.getD j [] = s.resultSets.getD j [] := by
  have ho := h.resultSetOwner
  have hlen : s.eosReturned.length ≤ s.resultSets.length := by have := ho.calls; split at this <;> omega
  rcases step_cases hstep with ⟨hc, -, hr | hr⟩ | ⟨hc, hr, -⟩ | ⟨b, row, j, hpc, hcan, hres, -, -, -, hr⟩
  · exact ⟨fun hne => absurd hc hne, fun j _ => by rw [hr]⟩
  · refine ⟨fun hne => absurd hc hne, fun j hj => ?_⟩
    rw [hr, List.getD_eq_getElem?_getD, List.getElem?_append_left (by omega),
      ← List.getD_eq_getElem?_getD]
  · exact ⟨fun hne => absurd hc hne, fun j _ => by rw [hr]⟩
  · obtain ⟨hidle, rfl⟩ := ho.pending hpc hcan hres
    refine ⟨fun _ => ⟨hidle, hres⟩, fun j' hj' => ?_⟩
    rw [hr, List.getD_eq_getElem?_getD, List.getElem?_set_ne hj'.ne', ← List.getD_eq_getElem?_getD]

/-- With the flag set, a `GetNext` call returns with `results_` still pointing at its result
set, and the producer's next `Send` leaves it alone. -/
theorem cancelled_getNext_returns_with_results_set :
    ∃ s s', Reachable [[7]] (fun _ => True) s ∧ s.consumer = .idle ∧ s.results = some 0 ∧
      s.eosReturned = [false] ∧ step [[7]] s .producer = some s' ∧
      ((s'.addRowsCalls ≠ s.addRowsCalls →
        s.consumer ≠ .idle ∧ s.results = some s.eosReturned.length) ∧
      ∀ j < s.eosReturned.length, s'.resultSets.getD j [] = s.resultSets.getD j []) := by
  have h : run [[7]] (init : Sink Nat) [.canceller, .getNext 0, .consumer, .producer] =
      some ⟨some .producer, some 0, 0, .rowsPending, true, [[]], [], [false], .check 0 0, .idle,
        .notifySender⟩ := by
    decide
  have hr := run_reachable _ Reachable.init (fun _ _ => trivial) h
  exact ⟨_, _, hr, rfl, rfl, rfl, rfl, addRows_into_pending_getNext hr (rfl : step [[7]] _ .producer = _)⟩

/-! ## Without cancellation each `GetNext` receives one range -/

/-- Without the canceller, an `AddRows` call finds the result set of the pending `GetNext`
call empty and adds a non-empty range of one batch, of at most `num_rows_requested_` rows when
that is positive, and leaves `results_` null; since rows are never taken out, no result set
receives a second range. A call that returns with `sender_state_` still `ROWS_PENDING`
returns `eos = false` with rows in its result set. -/
theorem getNext_receives_one_range {a : Action} (h : Reachable batches (· ≠ .canceller) s)
    (hstep : step batches s a = some s') :
    (s'.addRowsCalls ≠ s.addRowsCalls → ∃ b row n,
      s.results = some s.eosReturned.length ∧ s.resultSets.getD s.eosReturned.length [] = [] ∧
      s'.results = none ∧ s'.addRowsCalls = s.addRowsCalls ++ [(b, row, n)] ∧
      s'.resultSets = s.resultSets.set s.eosReturned.length (((batches.getD b []).drop row).take n) ∧
      0 < n ∧ row + n ≤ (batches.getD b []).length ∧
      (0 < s.numRowsRequested → n ≤ s.numRowsRequested.toNat)) ∧
    (s'.eosReturned.length ≠ s.eosReturned.length → s.senderState = .rowsPending →
      s'.eosReturned = s.eosReturned ++ [false] ∧
        s.resultSets.getD s.eosReturned.length [] ≠ []) := by
  have ho := h.resultSetOwner
  have hcan := h.not_cancelled
  rcases step_cases hstep with ⟨hc, he, -⟩ | ⟨hc, -, hcheck, hwait, he⟩ |
    ⟨b, row, j, hpc, -, hres, hnone, he, hc, hr⟩
  · exact ⟨fun hne => absurd hc hne, fun hne => absurd (by rw [he]) hne⟩
  · refine ⟨fun hne => absurd hc hne, fun _ hss => ⟨by simp [he, hss], ?_⟩⟩
    have hnone : s.results = none := by simpa [hss, hcan] using hwait
    exact ho.filled (by simp [hcheck]) hnone
  · obtain ⟨-, rfl⟩ := ho.pending hpc hcan hres
    have hnil := (ho.results _ hres).2
    have hrow : row < (batches.getD b []).length := by simpa [hpc, ProducerPc.Valid] using ho.valid
    obtain ⟨hn, hle, hreq⟩ := numToFetch_bounds hrow s.numRowsRequested
    refine ⟨fun _ => ⟨b, row, _, hres, hnil, hnone, hc, by rw [hr, hnil, List.nil_append], hn, hle,
      hreq⟩, fun hne => absurd (by rw [he]) hne⟩

/-- A request for one row gets the first row of the batch. -/
theorem getNext_one_row_receives_first_row :
    ∃ s s', Reachable [[7, 8]] (· ≠ .canceller) s ∧ step [[7, 8]] s .producer = some s' ∧
      s'.addRowsCalls = [(0, 0, 1)] ∧
      ((s'.addRowsCalls ≠ s.addRowsCalls → ∃ b row n,
        s.results = some s.eosReturned.length ∧ s.resultSets.getD s.eosReturned.length [] = [] ∧
        s'.results = none ∧ s'.addRowsCalls = s.addRowsCalls ++ [(b, row, n)] ∧
        s'.resultSets = s.resultSets.set s.eosReturned.length (((([[7, 8]] : List (List Nat)).getD b []).drop row).take n) ∧
        0 < n ∧ row + n ≤ (([[7, 8]] : List (List Nat)).getD b []).length ∧
        (0 < s.numRowsRequested → n ≤ s.numRowsRequested.toNat)) ∧
      (s'.eosReturned.length ≠ s.eosReturned.length → s.senderState = .rowsPending →
        s'.eosReturned = s.eosReturned ++ [false] ∧
          s.resultSets.getD s.eosReturned.length [] ≠ [])) := by
  have h : run [[7, 8]] (init : Sink Nat) [.getNext 1, .consumer, .consumer, .producer] =
      some ⟨some .producer, some 0, 1, .rowsPending, false, [[]], [], [], .check 0 0, .asleep,
        .idle⟩ := by
    decide
  have hr : Reachable [[7, 8]] (· ≠ .canceller) _ := run_reachable _ Reachable.init (by decide) h
  exact ⟨_, _, hr, rfl, rfl, getNext_receives_one_range hr (rfl : step [[7, 8]] _ .producer = _)⟩

end Impala.Exec.BlockingPlanRootSink
