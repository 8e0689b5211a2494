import Impala.Exec.BlockingPlanRootSink.ResultSets

/-!
# Cancellation at any point

The canceller may set the flag and run `Cancel` between any two steps. `Send` tests the flag
under `lock_` before `AddRows`, so the rows the result sets hold stop where `Send` was: along
every schedule they are, in call order, a prefix of the batches' rows, and `GetNext` returns
`eos` only once every row was passed. No reachable state is stuck, and the producer that
`Cancel`'s lost wakeup leaves asleep moves again after the next `GetNext`.
-/

namespace Impala.Exec.BlockingPlanRootSink

variable {Row : Type} (batches : List (List Row))

/-- One more `AddRows` call of `n > 0` rows of batch `b` from row `row` extends the ranges
that covered the rows passed up to `(b, row)` into ranges covering those up to `(b, row + n)`. -/
theorem ranges_addRows {calls : List (Nat × Nat × Nat)} {b row n : Nat} (hn : 0 < n)
    (h : ∀ b', Consecutive 0 (rangesOf calls b') ∧
      ((rangesOf calls b').map (·.2)).sum = sentOf batches (b, row) b') (b' : Nat) :
    Consecutive 0 (rangesOf (calls ++ [(b, row, n)]) b') ∧
      ((rangesOf (calls ++ [(b, row, n)]) b').map (·.2)).sum = sentOf batches (b, row + n) b' := by
  simp only [rangesOf_append, sentOf_add]
  obtain ⟨hc, hsum⟩ := h b'
  split_ifs with h1 h2 h2
  · subst h1
    have hsum' : ((rangesOf calls b).map (·.2)).sum = row := by simpa [sentOf] using hsum
    exact ⟨(consecutive_append_singleton _ _ _ _).mpr ⟨hc, by omega, hn⟩, by simp [sentOf, hsum']⟩
  · exact absurd h1.symm h2
  · exact absurd h2.symm h1
  · simpa using h b'

/-- What the sink keeps along every schedule, where `p` is where the producer's `Send` calls
stopped: the producer's own position until it reaches `Close`. The result sets hold the rows
passed up to `p`, the `AddRows` ranges of each batch cover them, and `EOS` is set, and
returned, only once `p` is past the last batch. -/
structure Passed (s : Sink Row) (p : ProducerPc) : Prop where
  valid : p.Valid batches
  live : s.producer ≠ .close → s.producer ≠ .done →
    s.producer.position batches.length = p.position batches.length
  rows : s.resultSets.flatten =
    sent batches (p.position batches.length).1 (p.position batches.length).2
  ranges : ∀ b, Consecutive 0 (rangesOf s.addRowsCalls b) ∧
    ((rangesOf s.addRowsCalls b).map (·.2)).sum = sentOf batches (p.position batches.length) b
  eos : s.senderState = .eos → p.position batches.length = (batches.length, 0)
  eosReturned : true ∈ s.eosReturned → p.position batches.length = (batches.length, 0)

variable {batches} {s s' : Sink Row} {p : ProducerPc}

namespace Passed

variable (hs : Passed batches s p)
include hs

theorem position_eq {pc : ProducerPc} (hpc : s.producer = pc) (hc : pc ≠ .close)
    (hd : pc ≠ .done) : p.position batches.length = pc.position batches.length := by
  rw [← hpc]
  exact (hs.live (by rwa [hpc]) (by rwa [hpc])).symm

theorem frame (hr : s'.resultSets.flatten = s.resultSets.flatten)
    (ha : s'.addRowsCalls = s.addRowsCalls) (hss : s'.senderState = .eos → s.senderState = .eos)
    (he : true ∈ s'.eosReturned → true ∈ s.eosReturned)
    (hp : s'.producer ≠ .close → s'.producer ≠ .done →
      s'.producer.position batches.length = p.position batches.length) :
    Passed batches s' p :=
  ⟨hs.valid, hp, hr ▸ hs.rows, ha ▸ hs.ranges, fun h => hs.eos (hss h),
    fun h => hs.eosReturned (he h)⟩

/-- `Send` adds the next range of its batch to the last result set, and the position it has
reached moves past the range. -/
theorem fill (ho : ResultSetOwner batches s) {b row : Nat} (hpc : s.producer = .check b row)
    (hres : s.results ≠ none) :
    Passed batches { s with
      resultSets := s.resultSets.set (s.results.getD 0)
        (s.resultSets.getD (s.results.getD 0) [] ++
          ((batches.getD b []).drop row).take (numToFetch batches b row s.numRowsRequested))
      addRowsCalls := s.addRowsCalls ++ [(b, row, numToFetch batches b row s.numRowsRequested)]
      results := none
      consumer := s.consumer.notify
      lock := none
      producer := .send b (row + numToFetch batches b row s.numRowsRequested) }
      (.send b (row + numToFetch batches b row s.numRowsRequested)) := by
  obtain ⟨j, hj⟩ := Option.ne_none_iff_exists'.mp hres
  obtain ⟨hlen, hnil⟩ := ho.results j hj
  have hrow : row < (batches.getD b []).length := by simpa [hpc, ProducerPc.Valid] using ho.valid
  have hpos : p.position batches.length = (b, row) := hs.position_eq hpc (by simp) (by simp)
  -- `Send` is inside a batch, so `p` is not past the last one
  have hne : p.position batches.length ≠ (batches.length, 0) := by
    have := lt_length_of_lt_getD hrow
    rw [hpos]; simp only [ne_eq, Prod.mk.injEq]; omega
  have hranges := hs.ranges
  rw [hpos] at hranges
  obtain ⟨hn, hle, -⟩ := numToFetch_bounds hrow s.numRowsRequested
  generalize numToFetch batches b row s.numRowsRequested = n at hn hle ⊢
  refine ⟨⟨(lt_length_of_lt_getD hrow).le, hle⟩, fun _ _ => rfl, ?_,
    ranges_addRows batches hn hranges, fun h => absurd (hs.eos h) hne,
    fun h => absurd (hs.eosReturned h) hne⟩
  rw [hj, Option.getD_some, flatten_set_of_getD_eq_nil _ _ hlen hnil, hnil, List.nil_append,
    hs.rows, hpos]
  exact (sent_add batches b row n).symm

theorem of_producerStep (ho : ResultSetOwner batches s) (h : producerStep batches s = some s') :
    ∃ p', Passed batches s' p' := by
  unfold producerStep at h
  split at h
  next b row hpc =>
    obtain ⟨hb, hrow⟩ : b ≤ batches.length ∧ row ≤ (batches.getD b []).length := by
      simpa [hpc, ProducerPc.Valid] using ho.valid
    have hpos : p.position batches.length = (b, row) := hs.position_eq hpc (by simp) (by simp)
    split_ifs at h with hlt hrl hlock <;> cases h
    · exact ⟨p, hs.frame rfl rfl id id fun _ _ => hpos.symm⟩
    · -- `Send` of batch `b` returns; the next one starts
      obtain rfl : row = (batches.getD b []).length := by omega
      have hne : p.position batches.length ≠ (batches.length, 0) := by
        rw [hpos]; simp only [ne_eq, Prod.mk.injEq]; omega
      refine ⟨.send (b + 1) 0, ⟨hlt, Nat.zero_le _⟩, fun _ _ => rfl, ?_, fun b' => ?_,
        fun h => absurd (hs.eos h) hne, fun h => absurd (hs.eosReturned h) hne⟩
      · rw [hs.rows, hpos]
        exact (sent_succ_zero batches hlt).symm
      · have := hs.ranges b'
        rw [hpos] at this
        simpa only [ProducerPc.position, sentOf_succ_zero] using this
    · -- every batch was sent: `FlushFinal` is next
      obtain rfl : b = batches.length := by omega
      obtain rfl : row = 0 := by simpa using hrow
      exact ⟨p, hs.frame rfl rfl id id fun _ _ => hpos.symm⟩
  next b row hpc =>
    have hpos := hs.position_eq hpc (by simp) (by simp)
    split_ifs at h with hwait hcan <;> cases h
    · exact ⟨p, hs.frame rfl rfl id id fun _ _ => hpos.symm⟩
    · -- the flag is set: `Send` returns where it was, and `Close` is next
      exact ⟨p, hs.frame rfl rfl id id fun h => absurd rfl h⟩
    · exact ⟨_, hs.fill ho hpc fun hn => hwait ⟨hn, by simpa using hcan⟩⟩
  next b row hpc =>
    cases h
    exact ⟨p, hs.frame rfl rfl id id fun _ _ => (hs.position_eq hpc (by simp) (by simp)).symm⟩
  next b row hpc =>
    split_ifs at h
    cases h
    exact ⟨p, hs.frame rfl rfl id id fun _ _ => (hs.position_eq hpc (by simp) (by simp)).symm⟩
  next hpc =>
    split_ifs at h
    cases h
    exact ⟨p, ⟨hs.valid, fun h => absurd rfl h, hs.rows, hs.ranges,
      fun _ => hs.position_eq hpc (by simp) (by simp), hs.eosReturned⟩⟩
  next hpc =>
    split_ifs at h <;> cases h
    · exact ⟨p, hs.frame rfl rfl (fun h => by cases h) id fun _ h => absurd rfl h⟩
    · exact ⟨p, hs.frame rfl rfl id id fun _ h => absurd rfl h⟩
  all_goals cases h

theorem of_consumerStep (h : consumerStep s = some s') : Passed batches s' p := by
  unfold consumerStep at h
  split at h
  · split_ifs at h <;> cases h
    · exact hs.frame rfl rfl id id hs.live
    · -- `GetNext` returns, with `eos` when `sender_state_` is `EOS`
      exact ⟨hs.valid, hs.live, hs.rows, hs.ranges, hs.eos, fun he =>
        (List.mem_append.mp he).elim hs.eosReturned fun h => hs.eos (by simpa using h)⟩
  · cases h
    exact hs.frame rfl rfl id id hs.live
  · split_ifs at h
    cases h
    exact hs.frame rfl rfl id id hs.live
  all_goals cases h

theorem of_getNext {n : Int} (h : getNext s n = some s') : Passed batches s' p := by
  unfold getNext at h
  split_ifs at h
  cases h
  exact hs.frame (by simp) rfl id id fun h1 h2 => by
    simpa using hs.live (by simpa using h1) (by simpa using h2)

theorem of_cancellerStep (h : cancellerStep s = some s') : Passed batches s' p := by
  unfold cancellerStep at h
  split at h <;> cases h
  · exact hs.frame rfl rfl id id hs.live
  · exact hs.frame rfl rfl id id fun h1 h2 => by
      simpa using hs.live (by simpa using h1) (by simpa using h2)
  · exact hs.frame rfl rfl id id hs.live

/-- What the consumer sees in a state that keeps `Passed`: the rows of the result sets are a
prefix of the batches' rows, the ranges stay inside their batch, and `eos` comes with every
row. -/
theorem rows_in_order :
    s.resultSets.flatten <+: batches.flatten ∧
    (∀ b, Consecutive 0 (rangesOf s.addRowsCalls b) ∧
      ∀ r ∈ rangesOf s.addRowsCalls b, r.1 + r.2 ≤ (batches.getD b []).length) ∧
    (true ∈ s.eosReturned → s.resultSets.flatten = batches.flatten) := by
  refine ⟨hs.rows ▸ sent_isPrefix_flatten batches _ _, fun b => ⟨(hs.ranges b).1, fun r hr => ?_⟩,
    fun he => ?_⟩
  · have hle := (hs.ranges b).1.le r hr
    rw [Nat.zero_add, (hs.ranges b).2] at hle
    exact hle.trans (sentOf_le batches hs.valid b)
  · rw [hs.rows, hs.eosReturned he]
    exact sent_length_zero batches

end Passed

theorem passed_init : Passed batches (init : Sink Row) (.send 0 0) where
  valid := ⟨Nat.zero_le _, Nat.zero_le _⟩
  live _ _ := rfl
  rows := by simp [init, sent, ProducerPc.position]
  ranges _ := ⟨trivial, by simp [rangesOf, init, sentOf, ProducerPc.position]⟩
  eos h := by cases h
  eosReturned h := by cases h

theorem Reachable.passed (h : Reachable batches (fun _ => True) s) :
    ∃ p, Passed batches s p := by
  induction h with
  | init => exact ⟨_, passed_init⟩
  | @step s s' a hr _ hs ih =>
      obtain ⟨p, hp⟩ := ih
      cases a with
      | producer => exact hp.of_producerStep hr.resultSetOwner hs
      | consumer => exact ⟨p, hp.of_consumerStep hs⟩
      | getNext n => exact ⟨p, hp.of_getNext hs⟩
      | canceller => exact ⟨p, hp.of_cancellerStep hs⟩

/-! ## Rows reach the consumer in order, cancellation included -/

/-- Along every schedule of the three threads, cancellation at any point included, the rows
added to the result sets are, in call order, a prefix of the batches' rows; the `AddRows`
ranges of each batch are consecutive, non-empty and inside the batch; and a `GetNext` call
returns `eos` only once every row reached the result sets. -/
theorem cancel_keeps_rows_in_order (h : Reachable batches (fun _ => True) s) :
    s.resultSets.flatten <+: batches.flatten ∧
    (∀ b, Consecutive 0 (rangesOf s.addRowsCalls b) ∧
      ∀ r ∈ rangesOf s.addRowsCalls b, r.1 + r.2 ≤ (batches.getD b []).length) ∧
    (true ∈ s.eosReturned → s.resultSets.flatten = batches.flatten) := by
  obtain ⟨p, hp⟩ := h.passed
  exact hp.rows_in_order

/-- A one-row request receives row `7`; the query is then cancelled, and the next `GetNext`
returns without `eos`: the consumer holds the first row of the scan. -/
theorem cancelled_after_one_row_keeps_prefix :
    ∃ s, Reachable [[7, 8]] (fun _ => True) s ∧ s.cancelled = true ∧ s.resultSets = [[7], []] ∧
      s.eosReturned = [false, false] ∧
      (s.resultSets.flatten <+: [[7, 8]].flatten ∧
      (∀ b, Consecutive 0 (rangesOf s.addRowsCalls b) ∧
        ∀ r ∈ rangesOf s.addRowsCalls b, r.1 + r.2 ≤ (([[7, 8]] : List (List Nat)).getD b []).length) ∧
      (true ∈ s.eosReturned → s.resultSets.flatten = [[7, 8]].flatten)) := by
  have h : run [[7, 8]] (init : Sink Nat)
      [.getNext 1, .consumer, .consumer, .producer, .producer, .consumer, .consumer,
        .canceller, .canceller, .canceller, .getNext 1, .consumer] =
      some ⟨none, some 1, 1, .rowsPending, true, [[7], []], [(0, 0, 1)], [false, false],
        .send 0 1, .idle, .returned⟩ := by
    decide
  have hr := run_reachable _ Reachable.init (fun _ _ => trivial) h
  exact ⟨_, hr, rfl, rfl, rfl, cancel_keeps_rows_in_order hr⟩

variable (batches) in
/-- Without the canceller the same holds: the runs it leaves out are among those above. -/
theorem sink_delivers_in_order (h : Reachable batches (· ≠ .canceller) s) :
    s.resultSets.flatten <+: batches.flatten ∧
    (∀ b, Consecutive 0 (rangesOf s.addRowsCalls b) ∧
      ∀ r ∈ rangesOf s.addRowsCalls b, r.1 + r.2 ≤ (batches.getD b []).length) ∧
    (true ∈ s.eosReturned → s.resultSets.flatten = batches.flatten) := by
  obtain ⟨p, hp⟩ := (h.mono fun _ _ => trivial).passed
  exact hp.rows_in_order

/-- A consumer asking for ten rows at a time gets batch `0` from its first `GetNext`, and
batch `1` with `eos` from its second. -/
theorem two_batches_delivered_with_eos :
    ∃ s, Reachable [[7, 8], [9]] (· ≠ .canceller) s ∧ s.resultSets = [[7, 8], [9]] ∧
      s.eosReturned = [false, true] ∧
      (s.resultSets.flatten <+: [[7, 8], [9]].flatten ∧
      (∀ b, Consecutive 0 (rangesOf s.addRowsCalls b) ∧
        ∀ r ∈ rangesOf s.addRowsCalls b,
          r.1 + r.2 ≤ (([[7, 8], [9]] : List (List Nat)).getD b []).length) ∧
      (true ∈ s.eosReturned → s.resultSets.flatten = [[7, 8], [9]].flatten)) := by
  have h : run [[7, 8], [9]] (init : Sink Nat)
      [.getNext 10, .consumer, .consumer, .producer, .producer, .consumer, .consumer,
        .getNext 10, .consumer, .consumer, .producer, .producer, .producer, .producer,
        .producer, .producer, .consumer, .consumer] =
      some ⟨none, none, 10, .eos, false, [[7, 8], [9]], [(0, 0, 2), (1, 0, 1)], [false, true],
        .close, .idle, .idle⟩ := by
    decide
  have hr : Reachable [[7, 8], [9]] (· ≠ .canceller) _ := run_reachable _ Reachable.init (by decide) h
  exact ⟨_, hr, rfl, rfl, sink_delivers_in_order _ hr⟩

/-! ## No state is stuck -/

/-- `GetNext` wakes a sleeping producer, and within two steps the consumer releases `lock_`
to it: it returns, or sleeps on `consumer_cv_`. -/
theorem getNext_wakes_producer {b row : Nat} {n : Int} (hpc : s.producer = .asleep b row)
    (h : step batches s (.getNext n) = some s') :
    ∃ k ≤ 2, ∃ s₂, run batches s' (List.replicate k .consumer) = some s₂ ∧
      step batches s₂ .producer ≠ none := by
  simp only [step, getNext] at h
  split_ifs at h
  cases h
  by_cases hw : s.senderState = .rowsPending ∧ s.cancelled = false
  · exact ⟨2, le_rfl, by simp [run, step, consumerStep, producerStep, hw, hpc, ProducerPc.notify]⟩
  · exact ⟨1, by omega, by simp [run, step, consumerStep, producerStep, hw, hpc, ProducerPc.notify]⟩

/-- Along every schedule, cancellation included, some step can be taken: the producer or the
consumer moves, or the consumer is between calls and any `GetNext` can start. A thread that
holds `lock_` can always move; with `lock_` free, a consumer asleep inside `GetNext` has rows
pending and `results_` set, so the producer is neither asleep on an unset `results_` nor past
`Close`, and can move. -/
theorem sink_never_blocks (h : Reachable batches (fun _ => True) s) :
    (step batches s .producer ≠ none ∨ step batches s .consumer ≠ none ∨
      ∀ n, step batches s (.getNext n) ≠ none) ∧
    (∀ b row n s₁, s.producer = .asleep b row → step batches s (.getNext n) = some s₁ →
      ∃ k ≤ 2, ∃ s₂, run batches s₁ (List.replicate k .consumer) = some s₂ ∧
        step batches s₂ .producer ≠ none) := by
  refine ⟨?_, fun b row n s₁ hpc => getNext_wakes_producer hpc⟩
  have hw := h.wakeups
  cases hl : s.lock with
  | some t =>
      cases t with
      | producer =>
          -- the producer tests its predicate or is about to sleep
          have hp := hw.producerLock.mp hl
          refine .inl ?_
          cases hpc : s.producer <;> simp [hpc, ProducerPc.holdsLock] at hp <;>
            simp only [step, producerStep, hpc] <;> (try split_ifs) <;> simp
      | consumer =>
          have hc := hw.consumerLock.mp hl
          refine .inr (.inl ?_)
          cases hc' : s.consumer <;> simp [hc', ConsumerPc.holdsLock] at hc <;>
            simp only [step, consumerStep, hc'] <;> (try split_ifs) <;> simp
  | none =>
      cases hc : s.consumer with
      | idle => exact .inr (.inr fun n => by simp [step, getNext, hc, hl])
      | check => exact .inr (.inl (by simp only [step, consumerStep, hc]; split_ifs <;> simp))
      | wait => exact .inr (.inl (by simp [step, consumerStep, hc]))
      | woken => exact .inr (.inl (by simp [step, consumerStep, hc, hl]))
      | asleep =>
          obtain ⟨hss, hres⟩ := hw.consumerWaits (by simp [hc, ConsumerPc.sleeping])
          refine .inl ?_
          cases hpc : s.producer with
          | asleep b row =>
              exact absurd (hw.producerWaits (by simp [hpc, ProducerPc.sleeping])) hres
          | done => exact absurd hss (hw.closed hpc)
          | _ => simp only [step, producerStep, hpc, hl]; (try split_ifs) <;> simp

/-- After `Cancel` returned with the producer asleep on `sender_cv_`, its wakeup lost, the
consumer is between calls and a `GetNext` can start; it wakes the producer. -/
theorem lost_wakeup_not_stuck :
    ∃ s, Reachable [[7]] (fun _ => True) s ∧ s.producer = .asleep 0 0 ∧ s.canceller = .returned ∧
      ((step [[7]] s .producer ≠ none ∨ step [[7]] s .consumer ≠ none ∨
        ∀ n, step [[7]] s (.getNext n) ≠ none) ∧
      (∀ b row n s₁, s.producer = .asleep b row → step [[7]] s (.getNext n) = some s₁ →
        ∃ k ≤ 2, ∃ s₂, run [[7]] s₁ (List.replicate k .consumer) = some s₂ ∧
          step [[7]] s₂ .producer ≠ none)) := by
  have h : run [[7]] (init : Sink Nat)
      [.producer, .producer, .canceller, .canceller, .canceller, .producer] =
      some ⟨none, none, 0, .rowsPending, true, [], [], [], .asleep 0 0, .idle, .returned⟩ := by
    decide
  have hr := run_reachable _ Reachable.init (fun _ _ => trivial) h
  exact ⟨_, hr, rfl, rfl, sink_never_blocks hr⟩

end Impala.Exec.BlockingPlanRootSink
