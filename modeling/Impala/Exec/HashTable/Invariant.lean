import Impala.Exec.HashTable.Insert

/-!
# Reachable tables and their bookkeeping

The tables built from an empty one by the two insertion paths of the excerpt, `Insert`
and `FindBuildRowBucket` followed by `Iterator::SetTuple`, together with the rows the
successful calls stored. Along every such history the buckets stay well formed (a chain
has at least two nodes), the three counters agree with the bucket array, and the table
stores exactly the inserted rows. All three follow from the two shapes of an insertion
(`Fills`, `LinksDuplicate`).
-/

namespace Impala.Exec

/-! ## Replacing one element of a list -/

section ListSet

variable {α β : Type} (d : α)

theorem countP_set_add (p : α → Bool) :
    ∀ (l : List α) {i : Nat}, i < l.length → ∀ a : α,
      (l.set i a).countP p + (if p (l.getD i d) then 1 else 0) =
        l.countP p + if p a then 1 else 0
  | [], _, h, _ => absurd h (Nat.not_lt_zero _)
  | x :: l, 0, _, a => by
      simp only [List.set_cons_zero, List.getD_cons_zero, List.countP_cons]; omega
  | x :: l, i + 1, h, a => by
      have ih := countP_set_add p l (Nat.lt_of_succ_lt_succ h) a
      simp only [List.set_cons_succ, List.getD_cons_succ, List.countP_cons]; omega

theorem sum_map_set_add (f : α → Nat) :
    ∀ (l : List α) {i : Nat}, i < l.length → ∀ a : α,
      ((l.set i a).map f).sum + f (l.getD i d) = (l.map f).sum + f a
  | [], _, h, _ => absurd h (Nat.not_lt_zero _)
  | x :: l, 0, _, a => by
      simp only [List.set_cons_zero, List.getD_cons_zero, List.map_cons, List.sum_cons]; omega
  | x :: l, i + 1, h, a => by
      have ih := sum_map_set_add f l (Nat.lt_of_succ_lt_succ h) a
      simp only [List.set_cons_succ, List.getD_cons_succ, List.map_cons, List.sum_cons]; omega

theorem flatMap_set_perm (f : α → List β) :
    ∀ (l : List α) {i : Nat}, i < l.length → ∀ a : α,
      ((l.set i a).flatMap f ++ f (l.getD i d)).Perm (l.flatMap f ++ f a)
  | [], _, h, _ => absurd h (Nat.not_lt_zero _)
  | x :: l, 0, _, a => by
      simp only [List.set_cons_zero, List.getD_cons_zero, List.flatMap_cons, List.append_assoc]
      exact (List.perm_append_comm_assoc _ _ _).trans <|
        (List.perm_append_comm.append_left _).trans (List.perm_append_comm_assoc _ _ _)
  | x :: l, i + 1, h, a => by
      simp only [List.set_cons_succ, List.getD_cons_succ, List.flatMap_cons, List.append_assoc]
      exact (flatMap_set_perm f l (Nat.lt_of_succ_lt_succ h) a).append_left _

end ListSet

variable {Row V : Type} [Inhabited Row]

namespace Bucket

/-- The nodes of the bucket's duplicate chain; a bucket without duplicates has none. -/
def numNodes (b : Bucket Row) : Nat := if b.hasDuplicates then b.getDuplicate.length else 0

/-- A bucket as `Insert` and `SetTuple` leave it: an empty bucket has no duplicates, a
filled bucket without duplicates holds its row inline, and a bucket with duplicates is
filled, in a table that stores duplicates, and points at a chain of at least two nodes. -/
structure WellFormed (storesDuplicates : Bool) (b : Bucket Row) : Prop where
  empty : b.filled = false → b.hasDuplicates = false
  inline : b.filled = true → b.hasDuplicates = false → ∃ row, b.bucketData = .htdata row
  chain : b.hasDuplicates = true →
    storesDuplicates = true ∧ b.filled = true ∧ 2 ≤ b.getDuplicate.length

variable {b : Bucket Row} {sd : Bool} (row : Row)

omit [Inhabited Row] in
theorem wellFormed_fill : (b.prepareBucketForInsert.setTuple row).WellFormed sd :=
  ⟨by simp [prepareBucketForInsert, setTuple], fun _ _ => ⟨row, rfl⟩,
    by simp [prepareBucketForInsert, setTuple]⟩

theorem wellFormed_withDuplicate (hb : b.WellFormed sd) (hsd : sd = true)
    (hf : b.filled = true) : (b.withDuplicate row).WellFormed sd := by
  refine ⟨by simp [hf], by simp, fun _ => ⟨hsd, by simp [hf], ?_⟩⟩
  rw [withDuplicate_getDuplicate]
  split
  · have := (hb.chain ‹_›).2.2
    simp only [List.length_cons]; omega
  · simp

omit [Inhabited Row] in
@[simp] theorem fill_filled : (b.prepareBucketForInsert.setTuple row).filled = true := rfl

omit [Inhabited Row] in
@[simp] theorem fill_hasDuplicates :
    (b.prepareBucketForInsert.setTuple row).hasDuplicates = false := rfl

omit [Inhabited Row] in
@[simp] theorem fill_numNodes : (b.prepareBucketForInsert.setTuple row).numNodes = 0 := rfl

omit [Inhabited Row] in
@[simp] theorem fill_rows : (b.prepareBucketForInsert.setTuple row).rows = [row] := rfl

theorem rows_withDuplicate (hb : b.WellFormed sd) (hf : b.filled = true) :
    (b.withDuplicate row).rows = row :: b.rows := by
  rw [rows, if_pos (by simp [hf]), if_pos (withDuplicate_hasDuplicates _ _),
    withDuplicate_getDuplicate, rows, if_pos hf]
  cases hd : b.hasDuplicates
  · obtain ⟨r, hr⟩ := hb.inline hf hd
    simp [hr, BucketData.htdataOr]
  · simp

omit [Inhabited Row] in
theorem length_rows (hb : b.WellFormed sd) :
    b.rows.length = (if b.filled && !b.hasDuplicates then 1 else 0) + b.numNodes := by
  unfold rows numNodes
  cases hf : b.filled
  · simp [hb.empty hf]
  · cases hd : b.hasDuplicates
    · obtain ⟨r, hr⟩ := hb.inline hf hd
      simp [hr]
    · simp

omit [Inhabited Row] in
theorem duplicatesPtr_of_length_pos (h : 0 < b.getDuplicate.length) :
    b.bucketData.duplicatesPtr = some 0 := by
  obtain ⟨_, _, _, _ | _ | ⟨_, _⟩⟩ := b <;> simp_all [getDuplicate, BucketData.duplicatesPtr]

theorem numNodes_withDuplicate :
    (b.withDuplicate row).numNodes = b.numNodes + if b.hasDuplicates then 1 else 2 := by
  simp only [numNodes, withDuplicate_hasDuplicates, if_true, withDuplicate_getDuplicate,
    List.length_cons]
  split <;> simp

end Bucket

namespace HashTable

open Iterator

/-- The tables a context builds from an empty table, with the rows the successful calls
stored, newest first: `Insert` of a row whose values the cache holds (`EvalAndHashBuild`),
successful or not, and `FindBuildRowBucket` followed, when it found no match, by `SetTuple`
of the row under the same hash. A call whose `DCHECK` fails has no successor. -/
inductive Reachable (ctx : HashTableCtx Row V) : HashTable Row → List Row → Prop where
  | init (quadraticProbing storesDuplicates : Bool) (k : Nat) :
      Reachable ctx (HashTable.init quadraticProbing storesDuplicates k) []
  | insert {t t' : HashTable Row} {rows : List Row} {row : Row} {cur : ExprValues V}
      {alloc : Option NodePage} {ok : Bool} :
      Reachable ctx t rows → ctx.evalAndHashBuild row = some cur →
      t.insert ctx cur row alloc = some (ok, t') →
      Reachable ctx t' (if ok then row :: rows else rows)
  | setTuple {t t' : HashTable Row} {rows : List Row} {row : Row} {cur : ExprValues V}
      {it : Iterator} :
      Reachable ctx t rows → ctx.evalAndHashBuild row = some cur →
      t.findBuildRowBucket ctx cur = (it, false) → t.setTuple it row cur.hash = some t' →
      Reachable ctx t' (row :: rows)

/-- The bookkeeping of a table holding `rows`: well-formed buckets, counters that agree with
the bucket array, and exactly `rows` stored. -/
structure Bookkeeping (t : HashTable Row) (rows : List Row) : Prop where
  wellFormed : ∀ b ∈ t.buckets, b.WellFormed t.storesDuplicates
  numFilledBuckets : t.numFilledBuckets = t.buckets.countP (·.filled)
  numBucketsWithDuplicates : t.numBucketsWithDuplicates = t.buckets.countP (·.hasDuplicates)
  numDuplicateNodes : t.numDuplicateNodes = (t.buckets.map Bucket.numNodes).sum
  storedRows : t.storedRows.Perm rows

variable {t t' : HashTable Row} {rows : List Row} {i : Nat} {hash : UInt32} {row : Row}

omit [Inhabited Row] in
theorem bookkeeping_init (quadraticProbing storesDuplicates : Bool) (k : Nat) :
    Bookkeeping (HashTable.init quadraticProbing storesDuplicates k : HashTable Row) [] where
  wellFormed b hb := by
    rw [(List.eq_of_mem_replicate hb)]
    exact ⟨fun _ => rfl, by simp, by simp⟩
  numFilledBuckets := by simp [HashTable.init, List.countP_replicate]
  numBucketsWithDuplicates := by simp [HashTable.init, List.countP_replicate]
  numDuplicateNodes := by simp [HashTable.init, Bucket.numNodes]
  storedRows := by simp [HashTable.init, storedRows]

omit [Inhabited Row] in
theorem bucketAt_mem (hi : i < t.numBuckets) : t.bucketAt i ∈ t.buckets := by
  unfold bucketAt
  rw [List.getD_eq_getElem _ _ (t.buckets_length ▸ hi)]
  exact List.getElem_mem _

section SetBucket

variable (hi : i < t.numBuckets) (b : Bucket Row)
include hi

omit [Inhabited Row] in
theorem countP_buckets_set (p : Bucket Row → Bool) :
    (t.buckets.set i b).countP p + (if p (t.bucketAt i) then 1 else 0) =
      t.buckets.countP p + if p b then 1 else 0 :=
  countP_set_add default p t.buckets (t.buckets_length ▸ hi) b

omit [Inhabited Row] in
theorem sum_numNodes_buckets_set :
    ((t.buckets.set i b).map Bucket.numNodes).sum + (t.bucketAt i).numNodes =
      (t.buckets.map Bucket.numNodes).sum + b.numNodes :=
  sum_map_set_add default Bucket.numNodes t.buckets (t.buckets_length ▸ hi) b

omit [Inhabited Row] in
theorem rows_buckets_set_perm (h : b.rows.Perm (row :: (t.bucketAt i).rows)) :
    ((t.buckets.set i b).flatMap Bucket.rows).Perm (row :: t.storedRows) := by
  have hp := flatMap_set_perm default Bucket.rows t.buckets (t.buckets_length ▸ hi) b
  have h2 : (t.buckets.flatMap Bucket.rows ++ b.rows).Perm
      ((row :: t.buckets.flatMap Bucket.rows) ++ (t.bucketAt i).rows) :=
    (h.append_left _).trans (by simp [List.perm_middle])
  exact (List.perm_append_right_iff _).mp (hp.trans h2)

end SetBucket

omit [Inhabited Row] in
theorem Fills.bookkeeping (hf : t.Fills t' i hash row) (hb : Bookkeeping t rows) :
    Bookkeeping t' (row :: rows) := by
  have hdup := (hb.wellFormed _ (bucketAt_mem hf.lt)).empty hf.empty
  have hnodes : (t.bucketAt i).numNodes = 0 := by simp [Bucket.numNodes, hdup]
  have hc1 := countP_buckets_set hf.lt ((t.bucketAt i).prepareBucketForInsert.setTuple row)
    (·.filled)
  have hc2 := countP_buckets_set hf.lt ((t.bucketAt i).prepareBucketForInsert.setTuple row)
    (·.hasDuplicates)
  have hs := sum_numNodes_buckets_set hf.lt ((t.bucketAt i).prepareBucketForInsert.setTuple row)
  simp only [hf.empty, hdup, hnodes, Bucket.fill_filled, Bucket.fill_hasDuplicates,
    Bucket.fill_numNodes, Bool.false_eq_true, if_false, if_true] at hc1 hc2 hs
  refine ⟨?_, ?_, ?_, ?_, ?_⟩
  · intro b hmem
    rw [hf.buckets] at hmem
    rw [hf.storesDuplicates]
    rcases List.mem_or_eq_of_mem_set hmem with h | rfl
    · exact hb.wellFormed b h
    · exact Bucket.wellFormed_fill row
  · rw [hf.numFilledBuckets, hf.buckets, hb.numFilledBuckets]; omega
  · rw [hf.numBucketsWithDuplicates, hf.buckets, hb.numBucketsWithDuplicates]; omega
  · rw [hf.numDuplicateNodes, hf.buckets, hb.numDuplicateNodes]; omega
  · rw [storedRows, hf.buckets]
    refine (rows_buckets_set_perm hf.lt _ ?_).trans (hb.storedRows.cons row)
    rw [Bucket.fill_rows, show (t.bucketAt i).rows = [] by simp [Bucket.rows, hf.empty]]

theorem LinksDuplicate.bookkeeping (hl : t.LinksDuplicate t' i row) (hb : Bookkeeping t rows) :
    Bookkeeping t' (row :: rows) := by
  have hwf := hb.wellFormed _ (bucketAt_mem hl.lt)
  have hc1 := countP_buckets_set hl.lt ((t.bucketAt i).withDuplicate row) (·.filled)
  have hc2 := countP_buckets_set hl.lt ((t.bucketAt i).withDuplicate row) (·.hasDuplicates)
  have hs := sum_numNodes_buckets_set hl.lt ((t.bucketAt i).withDuplicate row)
  simp only [Bucket.withDuplicate_filled, hl.filled, Bucket.withDuplicate_hasDuplicates,
    Bucket.numNodes_withDuplicate, if_true] at hc1 hc2 hs
  refine ⟨?_, ?_, ?_, ?_, ?_⟩
  · intro b hmem
    rw [hl.buckets] at hmem
    rw [hl.storesDuplicates]
    rcases List.mem_or_eq_of_mem_set hmem with h | rfl
    · exact hb.wellFormed b h
    · exact Bucket.wellFormed_withDuplicate row hwf hl.storesDuplicates_eq_true hl.filled
  · rw [hl.numFilledBuckets, hl.buckets, hb.numFilledBuckets]; omega
  · rw [hl.numBucketsWithDuplicates, hl.buckets, hb.numBucketsWithDuplicates]
    by_cases hd : (t.bucketAt i).hasDuplicates <;>
      simp only [hd, if_true, if_false, Bool.false_eq_true] at hc2 ⊢ <;> omega
  · rw [hl.numDuplicateNodes, hl.buckets, hb.numDuplicateNodes]; omega
  · rw [storedRows, hl.buckets]
    refine (rows_buckets_set_perm hl.lt _ ?_).trans (hb.storedRows.cons row)
    rw [Bucket.rows_withDuplicate row hwf hl.filled]

variable {ctx : HashTableCtx Row V}

theorem Reachable.bookkeeping (h : Reachable ctx t rows) : Bookkeeping t rows := by
  induction h with
  | init q s k => exact bookkeeping_init q s k
  | insert _ _ hi ih =>
      rcases insert_spec _ _ _ hi with ⟨rfl, rfl⟩ | ⟨rfl, _, _, ⟨_, hf⟩ | ⟨_, hl⟩⟩
      · exact ih
      · exact hf.bookkeeping ih
      · exact hl.bookkeeping ih
  | setTuple _ _ hf hs ih =>
      obtain ⟨_, _, _, hfill⟩ := setTuple_spec _ _ _ hf hs
      exact hfill.bookkeeping ih

omit [Inhabited Row] in
/-- Below `MAX_FILL_FACTOR <= 1`, a table with inserts left before a resize has an empty
bucket. -/
theorem Bookkeeping.exists_empty (hb : Bookkeeping t rows) {f : ℚ} (hf : f ≤ 1)
    (h : 0 < t.numInsertsBeforeResize f) : ∃ i < t.numBuckets, (t.bucketAt i).filled = false := by
  have hcap := truncToInt_le (mul_le_of_le_one_right (Nat.cast_nonneg t.numBuckets) hf)
  have hlt : t.buckets.countP (·.filled) < t.buckets.length := by
    rw [numInsertsBeforeResize, lt_max_iff] at h
    rw [t.buckets_length, ← hb.numFilledBuckets]; omega
  obtain ⟨b, hmem, he⟩ : ∃ b ∈ t.buckets, b.filled = false := by
    by_contra hall
    push_neg at hall
    exact hlt.ne (List.countP_eq_length.mpr fun b hb' => by simpa using hall b hb')
  obtain ⟨i, hi, rfl⟩ := List.getElem_of_mem hmem
  exact ⟨i, t.buckets_length ▸ hi, by rwa [bucketAt, List.getD_eq_getElem]⟩

theorem reachable_counters_probe_found (h : Reachable ctx t rows) :
    t.numFilledBuckets = t.buckets.countP (·.filled) ∧
    t.numDuplicateNodes = (t.buckets.map Bucket.numNodes).sum ∧
    t.numBucketsWithDuplicates = t.buckets.countP (·.hasDuplicates) ∧
    (∀ b ∈ t.buckets, b.hasDuplicates = true → 2 ≤ b.getDuplicate.length) ∧
    ∀ f : ℚ, f ≤ 1 → 0 < t.numInsertsBeforeResize f →
      (∃ i < t.numBuckets, (t.bucketAt i).filled = false) ∧
      ∀ (inclusiveEquality : Bool) (ctx' : HashTableCtx Row V) (cur : ExprValues V),
        (t.probe inclusiveEquality ctx' cur).bucketIdx ≠ bucketNotFound := by
  have hb := h.bookkeeping
  refine ⟨hb.numFilledBuckets, hb.numDuplicateNodes, hb.numBucketsWithDuplicates,
    fun b hmem hd => ((hb.wellFormed b hmem).chain hd).2.2, fun f hf hpos => ?_⟩
  obtain ⟨i, hi, he⟩ := hb.exists_empty hf hpos
  exact ⟨⟨i, hi, he⟩, fun incl ctx' cur =>
    ProbeStop.ne_bucketNotFound t (t.probe_spec incl ctx' cur) hi he⟩

/-- The context of a table of natural numbers keyed by themselves. -/
def natCtx : HashTableCtx Nat Nat :=
  ⟨1, fun r => [some r], fun _ => rfl, (· == ·), true, false, fun _ => 0⟩

/-- `Insert` of a row of `natCtx`, keeping the table when the call fails. -/
def natInsert (t : HashTable Nat) (row : Nat) (alloc : Option NodePage) : HashTable Nat :=
  ((t.insert natCtx ⟨[some row], 0⟩ row alloc).map (·.2)).getD t

/-- Rows `7`, `3`, `7` and `5` inserted into four buckets under a hash that sends every row to
bucket `0`: the second `7` is chained to the first, with a page of two nodes, and `3` and `5` go
on along the quadratic probe sequence to buckets `1` and `3`. -/
def fourRows : HashTable Nat :=
  natInsert (natInsert (natInsert (natInsert (HashTable.init true true 2) 7 none) 3 none) 7
    (some ⟨2, le_rfl⟩)) 5 none

theorem reachable_fourRows : Reachable natCtx fourRows [5, 7, 3, 7] := by
  obtain ⟨t1, t2, t3, h1, h2, h3, h4⟩ : ∃ t1 t2 t3 : HashTable Nat,
      (HashTable.init true true 2).insert natCtx ⟨[some 7], 0⟩ 7 none = some (true, t1) ∧
      t1.insert natCtx ⟨[some 3], 0⟩ 3 none = some (true, t2) ∧
      t2.insert natCtx ⟨[some 7], 0⟩ 7 (some ⟨2, le_rfl⟩) = some (true, t3) ∧
      t3.insert natCtx ⟨[some 5], 0⟩ 5 none = some (true, fourRows) :=
    ⟨_, _, _, rfl, rfl, rfl, rfl⟩
  have hc (r : Nat) : natCtx.evalAndHashBuild r = some ⟨[some r], 0⟩ := rfl
  exact .insert (.insert (.insert (.insert (.init true true 2) (hc 7) h1) (hc 3) h2) (hc 7) h3)
    (hc 5) h4

/-- The four-row table has one chain and one empty bucket left, so every probe stops. -/
theorem fourRows_counters_probe_found :
    fourRows.numBucketsWithDuplicates = 1 ∧ 0 < fourRows.numInsertsBeforeResize 1 ∧
      ∀ (inclusiveEquality : Bool) (cur : ExprValues Nat),
        (fourRows.probe inclusiveEquality natCtx cur).bucketIdx ≠ bucketNotFound := by
  have hpos : 0 < fourRows.numInsertsBeforeResize 1 := by
    have h3 : fourRows.numFilledBuckets = 3 := by decide
    have h4 : fourRows.numBuckets = 4 := by decide
    norm_num [numInsertsBeforeResize, truncToInt, h3, h4]
  have h := reachable_counters_probe_found reachable_fourRows
  exact ⟨h.2.2.1.trans (by decide), hpos, fun incl => (h.2.2.2.2 1 le_rfl hpos).2 incl natCtx⟩

/-! ## A failed insertion -/

end HashTable

end Impala.Exec
