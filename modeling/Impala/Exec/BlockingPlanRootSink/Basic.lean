import Mathlib.Data.List.GetD
import Mathlib.Data.Nat.Defs
import Mathlib.Order.Basic

/-!
# The blocking result sink and its three threads

`BlockingPlanRootSink` hands rows from the producer (`Send` of each batch, then `FlushFinal`
and `Close`) to the consumer (`GetNext`) one `QueryResultSet` at a time, under `lock_` and the
condition variables `sender_cv_` and `consumer_cv_`; a third thread sets the cancellation flag
and calls `Cancel`, whose two `NotifyAll` calls do not take `lock_`. Each thread is a program
counter: a critical section is one step, and a wait loop is a step that tests the predicate
holding `lock_` followed by a step that releases it and sleeps.
-/

namespace Impala.Exec.BlockingPlanRootSink

inductive SenderState
  | rowsPending
  | eos
  | closedNotEos
  deriving DecidableEq, Repr

inductive Thread
  | producer
  | consumer
  deriving DecidableEq, Repr

/-- Where the producer is: in `Send` of batch `b` with `current_batch_row = row` (at the
top of the outer loop, testing the wait predicate, about to sleep, asleep on `sender_cv_`,
or woken and taking `lock_` again), about to call `FlushFinal` or `Close`, or finished. -/
inductive ProducerPc
  | send (b row : Nat)
  | check (b row : Nat)
  | wait (b row : Nat)
  | asleep (b row : Nat)
  | woken (b row : Nat)
  | flushFinal
  | close
  | done
  deriving DecidableEq, Repr

/-- Where the consumer is: between `GetNext` calls, or in one (testing the wait predicate,
about to sleep, asleep on `consumer_cv_`, or woken and taking `lock_` again). -/
inductive ConsumerPc
  | idle
  | check
  | wait
  | asleep
  | woken
  deriving DecidableEq, Repr

/-- Where the canceller is: before setting the flag, in `Cancel` before either `NotifyAll`
or between them, or after `Cancel` returned. -/
inductive CancellerPc
  | idle
  | notifySender
  | notifyConsumer
  | returned
  deriving DecidableEq, Repr

/-- The sink's shared state and the threads' program counters. `resultSets` are the rows
added to the result sets of the `GetNext` calls, in call order; `addRowsCalls` are the
`(batch, start_idx, num_rows)` arguments of the `AddRows` calls, and `eosReturned` the
`*eos` of the `GetNext` calls that returned. -/
structure Sink (Row : Type) where
  lock : Option Thread
  results : Option Nat
  numRowsRequested : Int
  senderState : SenderState
  cancelled : Bool
  resultSets : List (List Row)
  addRowsCalls : List (Nat × Nat × Nat)
  eosReturned : List Bool
  producer : ProducerPc
  consumer : ConsumerPc
  canceller : CancellerPc
  deriving DecidableEq, Repr

/-- A step of the scheduler: one thread moves; an idle consumer calls `GetNext` asking for
`n` rows (`n ≤ 0` asks for all). -/
inductive Action
  | producer
  | consumer
  | getNext (n : Int)
  | canceller
  deriving DecidableEq, Repr

variable {Row : Type} (batches : List (List Row))

def init : Sink Row :=
  ⟨none, none, 0, .rowsPending, false, [], [], [], .send 0 0, .idle, .idle⟩

/-- `NotifyAll` on `sender_cv_` and on `consumer_cv_`. -/
def ProducerPc.notify : ProducerPc → ProducerPc
  | .asleep b row => .woken b row
  | pc => pc

def ConsumerPc.notify : ConsumerPc → ConsumerPc
  | .asleep => .woken
  | pc => pc

/-- The rows `Send` passes to one `AddRows` call from `current_batch_row = row` of batch
`b`: all that are left, or at most `num_rows_requested_` when that is positive. -/
def numToFetch (b row : Nat) (numRowsRequested : Int) : Nat :=
  if 0 < numRowsRequested then min ((batches.getD b []).length - row) numRowsRequested.toNat
  else (batches.getD b []).length - row

variable (s : Sink Row)

/-- One step of the producer: `Send` of each batch in turn, then `FlushFinal` and `Close`. -/
def producerStep : Option (Sink Row) :=
  match s.producer with
  | .send b row =>
      if b < batches.length then
        if row < (batches.getD b []).length then
          if s.lock = none then some { s with lock := some .producer, producer := .check b row }
          else none
        else some { s with producer := .send (b + 1) 0 }
      else some { s with producer := .flushFinal }
  | .check b row =>
      if s.results = none ∧ s.cancelled = false then some { s with producer := .wait b row }
      else if s.cancelled then some { s with lock := none, producer := .close }
      else
        let n := numToFetch batches b row s.numRowsRequested
        let j := s.results.getD 0
        some { s with
          resultSets := s.resultSets.set j
            (s.resultSets.getD j [] ++ ((batches.getD b []).drop row).take n)
          addRowsCalls := s.addRowsCalls ++ [(b, row, n)]
          results := none
          consumer := s.consumer.notify
          lock := none
          producer := .send b (row + n) }
  | .wait b row => some { s with lock := none, producer := .asleep b row }
  | .woken b row =>
      if s.lock = none then some { s with lock := some .producer, producer := .check b row }
      else none
  | .flushFinal =>
      if s.lock = none then
        some { s with senderState := .eos, consumer := s.consumer.notify, producer := .close }
      else none
  | .close =>
      if s.lock = none then
        some { s with
          senderState := if s.senderState = .rowsPending then .closedNotEos else s.senderState
          consumer := s.consumer.notify
          producer := .done }
      else none
  | .asleep _ _ | .done => none

/-- `GetNext(results, n)` from an idle consumer: take `lock_`, point `results_` at a fresh
result set, set `num_rows_requested_` and wake the producer. -/
def getNext (n : Int) : Option (Sink Row) :=
  if s.consumer = .idle ∧ s.lock = none then
    some { s with
      lock := some .consumer
      results := some s.resultSets.length
      resultSets := s.resultSets ++ [[]]
      numRowsRequested := n
      producer := s.producer.notify
      consumer := .check }
  else none

def consumerStep : Option (Sink Row) :=
  match s.consumer with
  | .check =>
      if s.senderState = .rowsPending ∧ s.results ≠ none ∧ s.cancelled = false then
        some { s with consumer := .wait }
      else
        some { s with
          eosReturned := s.eosReturned ++ [decide (s.senderState = .eos)]
          lock := none
          consumer := .idle }
  | .wait => some { s with lock := none, consumer := .asleep }
  | .woken =>
      if s.lock = none then some { s with lock := some .consumer, consumer := .check }
      else none
  | .idle | .asleep => none

/-- One step of the canceller: set the flag, then `Cancel`'s two `NotifyAll` calls, which
do not take `lock_`. -/
def cancellerStep : Option (Sink Row) :=
  match s.canceller with
  | .idle => some { s with cancelled := true, canceller := .notifySender }
  | .notifySender => some { s with producer := s.producer.notify, canceller := .notifyConsumer }
  | .notifyConsumer => some { s with consumer := s.consumer.notify, canceller := .returned }
  | .returned => none

/-- The system's step: the thread the action names moves, or the step is not enabled. -/
def step : Action → Option (Sink Row)
  | .producer => producerStep batches s
  | .consumer => consumerStep s
  | .getNext n => getNext s n
  | .canceller => cancellerStep s

def run : Sink Row → List Action → Option (Sink Row)
  | s, [] => some s
  | s, a :: rest => (step batches s a).bind (run · rest)

/-- The states a run from `init` reaches with actions that `allowed` admits. -/
inductive Reachable (allowed : Action → Prop) : Sink Row → Prop where
  | init : Reachable allowed init
  | step {s s' : Sink Row} {a : Action} :
      Reachable allowed s → allowed a → step batches s a = some s' → Reachable allowed s'

variable {batches} in
theorem Reachable.mono {allowed allowed' : Action → Prop} (h : ∀ a, allowed a → allowed' a)
    {s : Sink Row} (hs : Reachable batches allowed s) : Reachable batches allowed' s := by
  induction hs with
  | init => exact .init
  | step _ ha hst ih => exact .step ih (h _ ha) hst

end Impala.Exec.BlockingPlanRootSink
