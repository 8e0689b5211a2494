import Impala.Exec.HashTable.Invariant

/-!
# Iterators

`Begin`, `NextFilledBucket`, `Iterator::Next`, `NextDuplicate` and `GetRow`, and the loop a
caller runs over an iterator until it is `AtEnd`. An iterator's `node_` is a position in
the chain of its bucket; `node_->Next()` is the next position, or null past the chain's end.
-/

namespace Impala.Exec

namespace HashTable

open Iterator

variable {Row : Type} [Inhabited Row] (t : HashTable Row)

/-- `node_->Next()` in a bucket whose chain is `chain`. -/
def nodeNext (chain : List (DuplicateNode Row)) : Option Nat → Option Nat
  | some k => if k + 1 < chain.length then some (k + 1) else none
  | none => none

/-- The loop of `HashTable::NextFilledBucket` from bucket `idx`, for at most `fuel` buckets. -/
def nextFilledBucketLoop : (fuel idx : Nat) → Iterator
  | 0, _ => endIterator
  | fuel + 1, idx =>
      if idx < t.numBuckets then
        if (t.bucketAt idx).filled then
          ⟨idx, if t.storesDuplicates then (t.bucketAt idx).bucketData.duplicatesPtr else none⟩
        else nextFilledBucketLoop fuel (idx + 1)
      else endIterator

/-- `HashTable::NextFilledBucket`: the first filled bucket after `bucketIdx`, with its chain's
head when the table stores duplicates. -/
def nextFilledBucket (bucketIdx : Int) : Iterator :=
  t.nextFilledBucketLoop t.numBuckets (bucketIdx + 1).toNat

/-- `HashTable::Begin`. -/
def begin : Iterator := t.nextFilledBucket bucketNotFound

namespace Iterator

/-- `Iterator::GetRow`, as the handle the row is materialized from. -/
def getRow (it : Iterator) : Row :=
  let bucket := t.bucketAt it.bucketIdx.toNat
  if t.storesDuplicates && bucket.hasDuplicates then
    match it.node with
    | some k => (bucket.getDuplicate.getD k ⟨false, default⟩).htdata
    | none => default
  else bucket.bucketData.htdataOr default

/-- `Iterator::Next`: the next node of the chain, else the next filled bucket. -/
def next (it : Iterator) : Iterator :=
  let bucket := t.bucketAt it.bucketIdx.toNat
  if t.storesDuplicates && bucket.hasDuplicates && (nodeNext bucket.getDuplicate it.node).isSome
  then { it with node := nodeNext bucket.getDuplicate it.node }
  else t.nextFilledBucket it.bucketIdx

/-- `Iterator::NextDuplicate`: the next node of the chain, else the end. -/
def nextDuplicate (it : Iterator) : Iterator :=
  let bucket := t.bucketAt it.bucketIdx.toNat
  if t.storesDuplicates && bucket.hasDuplicates && (nodeNext bucket.getDuplicate it.node).isSome
  then { it with node := nodeNext bucket.getDuplicate it.node }
  else endIterator

end Iterator

/-- The loop `while (!it.AtEnd()) { visit(it.GetRow()); advance(it); }` of a caller, for at
most `fuel` rows: the rows it visits and the iterator it stops at. -/
def walk (advance : Iterator → Iterator) : Nat → Iterator → List Row × Iterator
  | 0, it => ([], it)
  | fuel + 1, it =>
      if it.atEnd then ([], it)
      else (it.getRow t :: (walk advance fuel (advance it)).1, (walk advance fuel (advance it)).2)

/-! ## What a walk visits -/

section Walk

variable {advance : Iterator → Iterator} {fuel idx : Nat} {it : Iterator}

theorem walk_succ (h : it.atEnd = false) :
    t.walk advance (fuel + 1) it =
      (it.getRow t :: (t.walk advance fuel (advance it)).1, (t.walk advance fuel (advance it)).2) := by
  simp [walk, h]

theorem walk_endIterator (h : 0 < fuel) : t.walk advance fuel endIterator = ([], endIterator) := by
  obtain ⟨fuel, rfl⟩ := Nat.exists_eq_succ_of_ne_zero h.ne'
  rfl

@[simp] theorem atEnd_natCast (node : Option Nat) : (⟨idx, node⟩ : Iterator).atEnd = false := by
  simp [atEnd]

omit [Inhabited Row] in
theorem nextFilledBucket_natCast :
    t.nextFilledBucket idx = t.nextFilledBucketLoop t.numBuckets (idx + 1) := by
  unfold nextFilledBucket; congr 1

omit [Inhabited Row] in
theorem nextFilledBucketLoop_of_le (h : t.numBuckets ≤ idx) :
    ∀ fuel, t.nextFilledBucketLoop fuel idx = endIterator
  | 0 => rfl
  | fuel + 1 => by simp [nextFilledBucketLoop, Nat.not_lt.mpr h]

omit [Inhabited Row] in
theorem flatMap_drop_buckets {β : Type} (f : Bucket Row → List β) (h : idx < t.numBuckets) :
    (t.buckets.drop idx).flatMap f = f (t.bucketAt idx) ++ (t.buckets.drop (idx + 1)).flatMap f := by
  rw [List.drop_eq_getElem_cons (t.buckets_length ▸ h), List.flatMap_cons, bucketAt,
    List.getD_eq_getElem]

variable {chain : List (DuplicateNode Row)} (hc : (t.bucketAt idx).getDuplicate = chain)
  (hsd : t.storesDuplicates = true) (hdup : (t.bucketAt idx).hasDuplicates = true)
include hc hsd hdup

theorem getRow_chain {k : Nat} (hk : k < chain.length) :
    Iterator.getRow t ⟨idx, some k⟩ = chain[k].htdata := by
  simp [getRow, hsd, hdup, hc, List.getElem?_eq_getElem hk]

omit [Inhabited Row] in
theorem next_chain (k : Nat) :
    next t ⟨idx, some k⟩ =
      if k + 1 < chain.length then ⟨idx, some (k + 1)⟩ else t.nextFilledBucket idx := by
  unfold next nodeNext
  split <;> simp_all

omit [Inhabited Row] in
theorem nextDuplicate_chain (k : Nat) :
    nextDuplicate t ⟨idx, some k⟩ =
      if k + 1 < chain.length then ⟨idx, some (k + 1)⟩ else endIterator := by
  unfold nextDuplicate nodeNext
  split <;> simp_all

/-- A walk from node `k` of a chain visits the chain from that node on, then what the walk
from `last`, where `advance` leaves the chain, visits. -/
theorem walk_chain {last : Iterator} {rest : List Row}
    (hadv : ∀ k, advance ⟨idx, some k⟩ = if k + 1 < chain.length then ⟨idx, some (k + 1)⟩ else last)
    (hrest : ∀ fuel, rest.length < fuel → t.walk advance fuel last = (rest, endIterator)) :
    ∀ m k fuel, chain.length = k + m + 1 → ((chain.drop k).map (·.htdata) ++ rest).length < fuel →
      t.walk advance fuel ⟨idx, some k⟩ = ((chain.drop k).map (·.htdata) ++ rest, endIterator)
  | _, _, 0, _, hf => absurd hf (Nat.not_lt_zero _)
  | m, k, fuel + 1, hlen, hf => by
      simp only [List.length_append, List.length_map, List.length_drop] at hf
      have htail : t.walk advance fuel (advance ⟨idx, some k⟩) =
          ((chain.drop (k + 1)).map (·.htdata) ++ rest, endIterator) := by
        rw [hadv]
        cases m with
        | zero =>
            rw [if_neg (by omega), List.drop_eq_nil_of_le (by omega), List.map_nil,
              List.nil_append]
            exact hrest fuel (by omega)
        | succ m =>
            rw [if_pos (by omega)]
            exact walk_chain hadv hrest m (k + 1) fuel (by omega)
              (by simp only [List.length_append, List.length_map, List.length_drop]; omega)
      rw [walk_succ t (atEnd_natCast _), htail, getRow_chain t hc hsd hdup (by omega),
        List.drop_eq_getElem_cons (show k < chain.length by omega)]
      rfl

end Walk

section Walk

variable {fuel idx : Nat}

omit [Inhabited Row] in
theorem next_inline (h : (t.bucketAt idx).hasDuplicates = false) (node : Option Nat) :
    next t ⟨idx, node⟩ = t.nextFilledBucket idx := by
  simp [next, h]

omit [Inhabited Row] in
theorem nextDuplicate_inline (h : (t.bucketAt idx).hasDuplicates = false) (node : Option Nat) :
    nextDuplicate t ⟨idx, node⟩ = endIterator := by
  simp [nextDuplicate, h]

/-- A walk from filled bucket `idx`, entered as `NextFilledBucket` and `FindProbeRow` enter
it, visits the bucket's rows, then what the walk from `last`, where `advance` leaves the
bucket, visits. -/
theorem walk_filled {advance : Iterator → Iterator} {last : Iterator} {rest : List Row}
    (hwf : (t.bucketAt idx).WellFormed t.storesDuplicates)
    (hfill : (t.bucketAt idx).filled = true)
    (hinline : (t.bucketAt idx).hasDuplicates = false → ∀ node, advance ⟨idx, node⟩ = last)
    (hchain : t.storesDuplicates = true → (t.bucketAt idx).hasDuplicates = true → ∀ k,
      advance ⟨idx, some k⟩ =
        if k + 1 < (t.bucketAt idx).getDuplicate.length then ⟨idx, some (k + 1)⟩ else last)
    (hrest : ∀ fuel, rest.length < fuel → t.walk advance fuel last = (rest, endIterator))
    (hf : ((t.bucketAt idx).rows ++ rest).length < fuel) :
    t.walk advance fuel
        ⟨idx, if t.storesDuplicates then (t.bucketAt idx).bucketData.duplicatesPtr else none⟩ =
      ((t.bucketAt idx).rows ++ rest, endIterator) := by
  cases hdup : (t.bucketAt idx).hasDuplicates with
  | false =>
      obtain ⟨row, hrow⟩ := hwf.inline hfill hdup
      have hrows : (t.bucketAt idx).rows = [row] := by simp [Bucket.rows, hfill, hdup, hrow]
      rw [hrows, List.singleton_append] at hf ⊢
      rw [List.length_cons] at hf
      obtain ⟨fuel, rfl⟩ : ∃ f, fuel = f + 1 := ⟨fuel - 1, by omega⟩
      rw [walk_succ t (atEnd_natCast _), hinline hdup, hrest fuel (by omega)]
      simp [getRow, hdup, hrow, BucketData.htdataOr]
  | true =>
      obtain ⟨hsd, -, hlen⟩ := hwf.chain hdup
      have hrows : (t.bucketAt idx).rows =
          ((t.bucketAt idx).getDuplicate.drop 0).map (·.htdata) := by
        simp [Bucket.rows, hfill, hdup]
      rw [if_pos hsd, Bucket.duplicatesPtr_of_length_pos (by omega), hrows]
      rw [hrows] at hf
      exact walk_chain t rfl hsd hdup (hchain hsd hdup) hrest
        ((t.bucketAt idx).getDuplicate.length - 1) 0 fuel (by omega) hf

theorem walk_nextFilledBucketLoop_of_le (h : t.numBuckets ≤ idx) (hf : 0 < fuel) (fuel' : Nat) :
    t.walk (next t) fuel (t.nextFilledBucketLoop fuel' idx) =
      ((t.buckets.drop idx).flatMap Bucket.rows, endIterator) := by
  rw [nextFilledBucketLoop_of_le t h, List.drop_eq_nil_of_le (by rw [t.buckets_length]; omega)]
  exact walk_endIterator t hf

/-- The walk of `Next` from the bucket `NextFilledBucket`'s loop is at, with fuel for every
bucket left, visits the rows of the buckets from there on, in ascending order. -/
theorem walk_nextFilledBucketLoop (hwf : ∀ b ∈ t.buckets, b.WellFormed t.storesDuplicates) :
    ∀ d idx fuel' fuel, t.numBuckets ≤ idx + d → t.numBuckets ≤ idx + fuel' →
      ((t.buckets.drop idx).flatMap Bucket.rows).length < fuel →
      t.walk (next t) fuel (t.nextFilledBucketLoop fuel' idx) =
        ((t.buckets.drop idx).flatMap Bucket.rows, endIterator) := by
  intro d
  induction d with
  | zero => exact fun idx fuel' fuel hd _ hf => walk_nextFilledBucketLoop_of_le t hd (by omega) _
  | succ d ih =>
      intro idx fuel' fuel hd hf' hf
      by_cases hi : idx < t.numBuckets
      · obtain ⟨f, rfl⟩ : ∃ f, fuel' = f + 1 := ⟨fuel' - 1, by omega⟩
        rw [flatMap_drop_buckets t Bucket.rows hi] at hf ⊢
        by_cases hfill : (t.bucketAt idx).filled = true
        · rw [nextFilledBucketLoop, if_pos hi, if_pos hfill]
          refine walk_filled t (hwf _ (bucketAt_mem hi)) hfill (next_inline t)
            (next_chain t rfl) (fun fuel h => ?_) hf
          rw [nextFilledBucket_natCast]
          exact ih (idx + 1) t.numBuckets fuel (by omega) (by omega) h
        · have hrows : (t.bucketAt idx).rows = [] := by simp [Bucket.rows, hfill]
          rw [hrows, List.nil_append] at hf ⊢
          rw [nextFilledBucketLoop, if_pos hi, if_neg hfill]
          exact ih (idx + 1) f fuel (by omega) (by omega) hf
      · exact walk_nextFilledBucketLoop_of_le t (by omega) (by omega) _

end Walk

omit [Inhabited Row] in
theorem length_flatMap_rows {sd : Bool} :
    ∀ l : List (Bucket Row), (∀ b ∈ l, b.WellFormed sd) →
      (l.flatMap Bucket.rows).length =
        l.countP (fun b => b.filled && !b.hasDuplicates) + (l.map Bucket.numNodes).sum
  | [], _ => rfl
  | b :: l, hl => by
      have ih := length_flatMap_rows l fun b' h => hl b' (List.mem_cons_of_mem _ h)
      rw [List.flatMap_cons, List.length_append, Bucket.length_rows (hl b (List.mem_cons_self _ _)), ih,
        List.countP_cons, List.map_cons, List.sum_cons]
      omega

variable {V : Type} {ctx : HashTableCtx Row V} {rows : List Row}

theorem walk_begin_next (h : Reachable ctx t rows) :
    (∀ fuel, t.storedRows.length < fuel →
      t.walk (next t) fuel t.begin = (t.storedRows, endIterator)) ∧
    t.storedRows.Perm rows ∧
    t.storedRows.length =
      t.buckets.countP (fun b => b.filled && !b.hasDuplicates) + t.numDuplicateNodes := by
  have hb := h.bookkeeping
  refine ⟨fun fuel hf => ?_, hb.storedRows, ?_⟩
  · exact walk_nextFilledBucketLoop t hb.wellFormed t.numBuckets 0 t.numBuckets fuel
      (by omega) (by omega) hf
  · rw [storedRows, length_flatMap_rows _ hb.wellFormed, hb.numDuplicateNodes]

/-- The walk over the four-row table reads the chain of bucket `0`, then buckets `1` and `3`. -/
theorem walk_fourRows :
    fourRows.walk (next fourRows) 5 fourRows.begin = (fourRows.storedRows, endIterator) ∧
      fourRows.storedRows = [7, 7, 3, 5] ∧ fourRows.storedRows.Perm [5, 7, 3, 7] ∧
      fourRows.storedRows.length =
        fourRows.buckets.countP (fun b => b.filled && !b.hasDuplicates) +
          fourRows.numDuplicateNodes := by
  have h := walk_begin_next fourRows reachable_fourRows
  exact ⟨h.1 5 (by decide), by decide, h.2.1, h.2.2⟩

end HashTable

end Impala.Exec
