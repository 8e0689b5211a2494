import Impala.Exec.BlockingPlanRootSink.Basic

/-!
# Wakeups on `sender_cv_` and `consumer_cv_`

Every critical section that falsifies part of a wait predicate notifies the other thread
before it releases `lock_`, so along every schedule a sleeping thread's predicate holds but for
the flag. `Cancel` notifies without taking `lock_`: its notifications can fall between the
producer's test of the predicate and its sleep, which then lasts with the flag set.
-/

namespace Impala.Exec.BlockingPlanRootSink

variable {Row : Type} (batches : List (List Row))

theorem run_reachable {allowed : Action → Prop} :
    ∀ {s s' : Sink Row} {l : List Action}, Reachable batches allowed s → (∀ a ∈ l, allowed a) →
      run batches s l = some s' → Reachable batches allowed s'
  | _, _, [], hs, _, h => by cases h; exact hs
  | s, _, a :: rest, hs, hl, h => by
      simp only [run] at h
      cases hn : step batches s a with
      | none => simp [hn] at h
      | some s1 =>
          rw [hn, Option.some_bind] at h
          exact run_reachable (Reachable.step hs (hl a (List.mem_cons_self _ _)) hn)
            (fun b hb => hl b (List.mem_cons_of_mem _ hb)) h

/-! ## Who holds `lock_`, and why each thread sleeps -/

/-- The producer holds `lock_` (testing the predicate, or about to sleep). -/
def ProducerPc.holdsLock : ProducerPc → Bool
  | .check _ _ | .wait _ _ => true
  | .send _ _ | .asleep _ _ | .woken _ _ | .flushFinal | .close | .done => false

/-- The producer is about to sleep on `sender_cv_`, or asleep. -/
def ProducerPc.sleeping : ProducerPc → Bool
  | .wait _ _ | .asleep _ _ => true
  | .send _ _ | .check _ _ | .woken _ _ | .flushFinal | .close | .done => false

def ConsumerPc.holdsLock : ConsumerPc → Bool
  | .check | .wait => true
  | .idle | .asleep | .woken => false

def ConsumerPc.sleeping : ConsumerPc → Bool
  | .wait | .asleep => true
  | .idle | .check | .woken => false

@[simp] theorem ProducerPc.holdsLock_notify (pc : ProducerPc) :
    pc.notify.holdsLock = pc.holdsLock := by
  cases pc <;> rfl

@[simp] theorem ConsumerPc.holdsLock_notify (pc : ConsumerPc) :
    pc.notify.holdsLock = pc.holdsLock := by
  cases pc <;> rfl

/-- After a `NotifyAll`, only a thread that holds `lock_` is still about to sleep. -/
@[simp] theorem ProducerPc.sleeping_notify (pc : ProducerPc) :
    pc.notify.sleeping = (pc.sleeping && pc.holdsLock) := by
  cases pc <;> rfl

@[simp] theorem ConsumerPc.sleeping_notify (pc : ConsumerPc) :
    pc.notify.sleeping = (pc.sleeping && pc.holdsLock) := by
  cases pc <;> rfl

@[simp] theorem ProducerPc.notify_eq_done (pc : ProducerPc) : pc.notify = .done ↔ pc = .done := by
  cases pc <;> simp [ProducerPc.notify]

/-- Who holds `lock_`, the wait predicates of the threads about to sleep or asleep, and that
after `Close` rows are no longer pending. The cancellation flag is not part of it: it holds
along every schedule. -/
structure Wakeups (s : Sink Row) : Prop where
  producerLock : s.lock = some .producer ↔ s.producer.holdsLock = true
  consumerLock : s.lock = some .consumer ↔ s.consumer.holdsLock = true
  producerWaits : s.producer.sleeping = true → s.results = none
  consumerWaits : s.consumer.sleeping = true → s.senderState = .rowsPending ∧ s.results ≠ none
  closed : s.producer = .done → s.senderState ≠ .rowsPending

variable {batches} {s s' : Sink Row}

theorem wakeups_init : Wakeups (init : Sink Row) where
  producerLock := by simp [init, ProducerPc.holdsLock]
  consumerLock := by simp [init, ConsumerPc.holdsLock]
  producerWaits h := by cases h
  consumerWaits h := by cases h
  closed h := by cases h

namespace Wakeups

variable (hs : Wakeups s)
include hs

theorem producer_holdsLock_of_ne (h : s.lock ≠ some .producer) : s.producer.holdsLock = false :=
  Bool.eq_false_iff.mpr fun hp => h (hs.producerLock.mpr hp)

theorem consumer_holdsLock_of_ne (h : s.lock ≠ some .consumer) : s.consumer.holdsLock = false :=
  Bool.eq_false_iff.mpr fun hc => h (hs.consumerLock.mpr hc)

theorem with_producer {p : ProducerPc} {l : Option Thread}
    (hpl : l = some .producer ↔ p.holdsLock = true)
    (hcl : l = some .consumer ↔ s.lock = some .consumer)
    (hps : p.sleeping = true → s.results = none) (hpd : p ≠ .done) :
    Wakeups { s with lock := l, producer := p } :=
  ⟨hpl, hcl.trans hs.consumerLock, hps, hs.consumerWaits, fun h => absurd h hpd⟩

theorem with_consumer {c : ConsumerPc} {l : Option Thread}
    (hpl : l = some .producer ↔ s.lock = some .producer)
    (hcl : l = some .consumer ↔ c.holdsLock = true)
    (hcs : c.sleeping = true → s.senderState = .rowsPending ∧ s.results ≠ none) :
    Wakeups { s with lock := l, consumer := c } :=
  ⟨hpl.trans hs.producerLock, hcl, hs.producerWaits, hcs, hs.closed⟩

theorem of_producerStep (h : producerStep batches s = some s') : Wakeups s' := by
  unfold producerStep at h
  split at h
  next b row hpc =>
    have hfree : s.lock ≠ some .producer := fun hl => by
      simpa [hpc, ProducerPc.holdsLock] using hs.producerLock.mp hl
    split_ifs at h with hb hrow hl <;> cases h
    · exact hs.with_producer (by simp [ProducerPc.holdsLock]) (by simp [hl])
        (by simp [ProducerPc.sleeping]) (by simp)
    · exact hs.with_producer (by simp [hfree, ProducerPc.holdsLock]) Iff.rfl
        (by simp [ProducerPc.sleeping]) (by simp)
    · exact hs.with_producer (by simp [hfree, ProducerPc.holdsLock]) Iff.rfl
        (by simp [ProducerPc.sleeping]) (by simp)
  next b row hpc =>
    have hlock : s.lock = some .producer :=
      hs.producerLock.mpr (by simp [hpc, ProducerPc.holdsLock])
    have hccl := hs.consumer_holdsLock_of_ne (by simp [hlock])
    split_ifs at h with hwait hcan <;> cases h
    · exact hs.with_producer (by simp [hlock, ProducerPc.holdsLock]) Iff.rfl (fun _ => hwait.1)
        (by simp)
    · -- the flag is set: `Send` returns and the fragment calls `Close`
      exact ⟨by simp [ProducerPc.holdsLock], by simp [hccl], by simp [ProducerPc.sleeping],
        hs.consumerWaits, by simp⟩
    · exact ⟨by simp [ProducerPc.holdsLock], by simp [hccl], by simp [ProducerPc.sleeping],
        by simp [hccl], by simp⟩
  next b row hpc =>
    have hlock : s.lock = some .producer :=
      hs.producerLock.mpr (by simp [hpc, ProducerPc.holdsLock])
    cases h
    exact hs.with_producer (by simp [ProducerPc.holdsLock]) (by simp [hlock])
      (fun _ => hs.producerWaits (by simp [hpc, ProducerPc.sleeping])) (by simp)
  next b row hpc =>
    split_ifs at h with hl
    cases h
    exact hs.with_producer (by simp [ProducerPc.holdsLock]) (by simp [hl])
      (by simp [ProducerPc.sleeping]) (by simp)
  next =>
    split_ifs at h with hl
    cases h
    have hccl := hs.consumer_holdsLock_of_ne (by simp [hl])
    exact ⟨by simp [hl, ProducerPc.holdsLock], by simp [hl, hccl],
      by simp [ProducerPc.sleeping], by simp [hccl], by simp⟩
  next =>
    split at h
    · next hl =>
        cases h
        have hccl := hs.consumer_holdsLock_of_ne (by simp [hl])
        exact ⟨by simp [hl, ProducerPc.holdsLock], by simp [hl, hccl],
          by simp [ProducerPc.sleeping], by simp [hccl], fun _ => by split_ifs <;> simp_all⟩
    · cases h
  all_goals cases h

theorem of_getNext {n : Int} (h : getNext s n = some s') : Wakeups s' := by
  unfold getNext at h
  split_ifs at h with hg
  cases h
  have hpcl := hs.producer_holdsLock_of_ne (by simp [hg.2])
  exact ⟨by simp [hpcl], by simp [ConsumerPc.holdsLock], by simp [hpcl],
    by simp [ConsumerPc.sleeping], fun h => hs.closed (by simpa using h)⟩

theorem of_consumerStep (h : consumerStep s = some s') : Wakeups s' := by
  unfold consumerStep at h
  split at h
  next hc =>
    have hlock : s.lock = some .consumer :=
      hs.consumerLock.mpr (by simp [hc, ConsumerPc.holdsLock])
    split_ifs at h with hwait <;> cases h
    · exact hs.with_consumer Iff.rfl (by simp [hlock, ConsumerPc.holdsLock])
        fun _ => ⟨hwait.1, hwait.2.1⟩
    · exact ⟨by simp [hs.producer_holdsLock_of_ne (by simp [hlock])],
        by simp [ConsumerPc.holdsLock], hs.producerWaits, by simp [ConsumerPc.sleeping], hs.closed⟩
  next hc =>
    have hlock : s.lock = some .consumer :=
      hs.consumerLock.mpr (by simp [hc, ConsumerPc.holdsLock])
    cases h
    exact hs.with_consumer (by simp [hlock]) (by simp [ConsumerPc.holdsLock])
      fun _ => hs.consumerWaits (by simp [hc, ConsumerPc.sleeping])
  next hc =>
    split_ifs at h with hl
    cases h
    exact hs.with_consumer (by simp [hl]) (by simp [ConsumerPc.holdsLock])
      (by simp [ConsumerPc.sleeping])
  all_goals cases h

/-- `Cancel`'s notifications wake sleepers, which then take `lock_` again and re-test. -/
theorem of_cancellerStep (h : cancellerStep s = some s') : Wakeups s' := by
  unfold cancellerStep at h
  split at h <;> cases h
  · exact ⟨hs.producerLock, hs.consumerLock, hs.producerWaits, hs.consumerWaits, hs.closed⟩
  · exact ⟨by simpa using hs.producerLock, hs.consumerLock,
      fun h => hs.producerWaits (by simp at h; exact h.1), hs.consumerWaits,
      fun h => hs.closed (by simpa using h)⟩
  · exact ⟨hs.producerLock, by simpa using hs.consumerLock, hs.producerWaits,
      fun h => hs.consumerWaits (by simp at h; exact h.1), hs.closed⟩

end Wakeups

theorem Reachable.wakeups {allowed : Action → Prop} (h : Reachable batches allowed s) :
    Wakeups s := by
  induction h with
  | init => exact wakeups_init
  | @step s s' a _ _ hs ih =>
      cases a with
      | producer => exact ih.of_producerStep hs
      | consumer => exact ih.of_consumerStep hs
      | getNext n => exact ih.of_getNext hs
      | canceller => exact ih.of_cancellerStep hs

theorem step_cancelled {a : Action} (ha : a ≠ .canceller) (h : step batches s a = some s') :
    s'.cancelled = s.cancelled := by
  cases a with
  | producer =>
      simp only [step, producerStep] at h
      split at h <;> (try split_ifs at h) <;> cases h <;> rfl
  | consumer =>
      simp only [step, consumerStep] at h
      split at h <;> (try split_ifs at h) <;> cases h <;> rfl
  | getNext n =>
      simp only [step, getNext] at h
      split_ifs at h
      cases h
      rfl
  | canceller => exact absurd rfl ha

theorem Reachable.not_cancelled (h : Reachable batches (· ≠ .canceller) s) :
    s.cancelled = false := by
  induction h with
  | init => rfl
  | @step s s' a _ ha hs ih => exact (step_cancelled ha hs).trans ih

/-! ## Without cancellation no wakeup is lost -/

/-- Without the canceller, a thread about to sleep or asleep on a condition variable has
its wait predicate true: each critical section that falsifies it wakes the sleeper before
`lock_` is released. -/
theorem no_lost_wakeup (h : Reachable batches (· ≠ .canceller) s) :
    (s.producer.sleeping = true → s.results = none ∧ s.cancelled = false) ∧
    (s.consumer.sleeping = true →
      s.senderState = .rowsPending ∧ s.results ≠ none ∧ s.cancelled = false) := by
  have hc := h.not_cancelled
  have hw := h.wakeups
  exact ⟨fun hp => ⟨hw.producerWaits hp, hc⟩,
    fun hs => ⟨(hw.consumerWaits hs).1, (hw.consumerWaits hs).2, hc⟩⟩

/-- A producer that finds no result set sleeps with its wait predicate true. -/
theorem producer_sleeps_waiting :
    ∃ s, Reachable [[7]] (· ≠ .canceller) s ∧ s.producer.sleeping = true ∧
      s.results = none ∧ s.cancelled = false := by
  have h : run [[7]] (init : Sink Nat) [.producer, .producer, .producer] =
      some ⟨none, none, 0, .rowsPending, false, [], [], [], .asleep 0 0, .idle, .idle⟩ := by
    decide
  have hr : Reachable [[7]] (· ≠ .canceller) _ := run_reachable _ Reachable.init (by decide) h
  exact ⟨_, hr, rfl, (no_lost_wakeup hr).1 rfl⟩

/-! ## `Cancel` loses the producer's wakeup -/

/-- The producer tests `sender_cv_`'s predicate before the flag is set; the canceller sets
the flag and runs `Cancel` while the producer still holds `lock_`; then the producer sleeps. -/
def lostWakeup : List Action :=
  [.producer, .producer, .canceller, .canceller, .canceller, .producer]

/-- After `Cancel` returned, the producer of a one-row batch sleeps on `sender_cv_` with the
flag set, and neither it nor the canceller can move: only a later `GetNext` wakes it. -/
theorem cancel_returns_with_producer_asleep :
    ∃ s, Reachable [[7]] (fun _ => True) s ∧ s.canceller = .returned ∧
      s.producer = .asleep 0 0 ∧ s.cancelled = true ∧
      step [[7]] s .producer = none ∧ step [[7]] s .canceller = none := by
  have h : run [[7]] (init : Sink Nat) lostWakeup =
      some ⟨none, none, 0, .rowsPending, true, [], [], [], .asleep 0 0, .idle, .returned⟩ := by
    decide
  exact ⟨_, run_reachable _ Reachable.init (fun _ _ => trivial) h, rfl, rfl, rfl, rfl, rfl⟩

end Impala.Exec.BlockingPlanRootSink
