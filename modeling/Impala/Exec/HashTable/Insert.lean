import Impala.Exec.HashTable.Probe

/-!
# Insertion and lookup

`InsertInternal`, `Insert`, `FindProbeRow`, `FindBuildRowBucket` and `Iterator::SetTuple`.
A failed `DCHECK` aborts, which is `none`. Each successful insertion either fills the empty
bucket its probe stopped at (`Fills`) or links the row into the chain of the bucket whose
row matched (`LinksDuplicate`); `insert_spec` and `setTuple_spec` say which, and every
invariant of the table is proved from these two shapes.
-/

namespace Impala.Exec

/-- `HashTable::Iterator`: the bucket index and the duplicate node it points at, as a
position in the bucket's chain. -/
structure HashTable.Iterator where
  bucketIdx : Int
  node : Option Nat
  deriving DecidableEq, Repr

namespace HashTable.Iterator

def atEnd (it : Iterator) : Bool := it.bucketIdx == bucketNotFound

def endIterator : Iterator := ⟨bucketNotFound, none⟩

@[simp] theorem atEnd_endIterator : endIterator.atEnd = true := rfl

end HashTable.Iterator

variable {Row V : Type} [Inhabited Row]

/-- The bucket once `Insert` linked `row` into it as a duplicate: `InsertDuplicateNode`
(which first moves an inline row into a node) followed by the write of the new head. -/
def Bucket.withDuplicate (b : Bucket Row) (row : Row) : Bucket Row :=
  if b.hasDuplicates then b.setDuplicate (⟨false, row⟩ :: b.getDuplicate)
  else b.setHasDuplicates.setDuplicate [⟨false, row⟩, ⟨false, b.bucketData.htdataOr default⟩]

namespace HashTable

open Iterator

variable (t : HashTable Row) (ctx : HashTableCtx Row V) (cur : ExprValues V)

/-- `HashTable::InsertInternal`: `none` when a `DCHECK` fails (a full table without a
match, or a match in a table that does not store duplicates), `some none` for a null
bucket (no node page), otherwise the table and the bucket index. -/
def insertInternal (alloc : Option NodePage) : Option (Option (HashTable Row × Nat)) :=
  let r := t.probe true ctx cur
  if r.bucketIdx = bucketNotFound then none
  else if r.found then
    if t.storesDuplicates then
      some ((t.insertDuplicateNode r.bucketIdx.toNat r.bd alloc).map (·, r.bucketIdx.toNat))
    else none
  else some (some (t.prepareBucketForInsert r.bucketIdx.toNat cur.hash, r.bucketIdx.toNat))

/-- `HashTable::Insert`: `row` is the handle it stores (`row->GetTuple(0)` when the table
stores tuples, `flat_row` otherwise). -/
def insert (row : Row) (alloc : Option NodePage) : Option (Bool × HashTable Row) :=
  (t.insertInternal ctx cur alloc).map fun
    | none => (false, t)
    | some (t', idx) =>
        let bucket := t'.bucketAt idx
        if bucket.hasDuplicates then
          match bucket.getDuplicate with
          | node :: chain =>
              (true, t'.setBucket idx (bucket.setDuplicate ({ node with htdata := row } :: chain)))
          | [] => (false, t')
        else (true, t'.setBucket idx (bucket.setTuple row))

def findProbeRow : Iterator :=
  let r := t.probe false ctx cur
  if r.found then ⟨r.bucketIdx, if t.storesDuplicates then r.bd.duplicatesPtr else none⟩
  else endIterator

/-- `HashTable::FindBuildRowBucket`: the iterator and `*found`. -/
def findBuildRowBucket : Iterator × Bool :=
  let r := t.probe true ctx cur
  (⟨r.bucketIdx,
    if t.storesDuplicates && r.bucketIdx != bucketNotFound then r.bd.duplicatesPtr else none⟩,
    r.found)

def setTuple (it : Iterator) (row : Row) (hash : UInt32) : Option (HashTable Row) :=
  if it.atEnd then none
  else
    let t := t.prepareBucketForInsert it.bucketIdx.toNat hash
    some (t.setBucket it.bucketIdx.toNat ((t.bucketAt it.bucketIdx.toNat).setTuple row))

/-! ## The two shapes of a successful insertion -/

/-- `t'` is `t` with its empty bucket `i` filled with `row` under `hash`. -/
structure Fills (t' : HashTable Row) (i : Nat) (hash : UInt32) (row : Row) : Prop where
  lt : i < t.numBuckets
  empty : (t.bucketAt i).filled = false
  buckets : t'.buckets = t.buckets.set i ((t.bucketAt i).prepareBucketForInsert.setTuple row)
  hashArray : t'.hashArray = t.hashArray.set i hash
  numBuckets : t'.numBuckets = t.numBuckets
  quadraticProbing : t'.quadraticProbing = t.quadraticProbing
  storesDuplicates : t'.storesDuplicates = t.storesDuplicates
  numFilledBuckets : t'.numFilledBuckets = t.numFilledBuckets + 1
  numBucketsWithDuplicates : t'.numBucketsWithDuplicates = t.numBucketsWithDuplicates
  numDuplicateNodes : t'.numDuplicateNodes = t.numDuplicateNodes

/-- `t'` is `t` with `row` linked at the head of the chain of its filled bucket `i`. -/
structure LinksDuplicate (t' : HashTable Row) (i : Nat) (row : Row) : Prop where
  lt : i < t.numBuckets
  filled : (t.bucketAt i).filled = true
  storesDuplicates_eq_true : t.storesDuplicates = true
  buckets : t'.buckets = t.buckets.set i ((t.bucketAt i).withDuplicate row)
  hashArray : t'.hashArray = t.hashArray
  numBuckets : t'.numBuckets = t.numBuckets
  quadraticProbing : t'.quadraticProbing = t.quadraticProbing
  storesDuplicates : t'.storesDuplicates = t.storesDuplicates
  numFilledBuckets : t'.numFilledBuckets = t.numFilledBuckets
  numBucketsWithDuplicates : t'.numBucketsWithDuplicates =
    t.numBucketsWithDuplicates + if (t.bucketAt i).hasDuplicates then 0 else 1
  numDuplicateNodes : t'.numDuplicateNodes =
    t.numDuplicateNodes + if (t.bucketAt i).hasDuplicates then 1 else 2

end HashTable

end Impala.Exec

namespace Impala.Exec

variable {Row V : Type} [Inhabited Row]

namespace Bucket

variable (b : Bucket Row) (row : Row)

@[simp] theorem withDuplicate_filled : (b.withDuplicate row).filled = b.filled := by
  unfold withDuplicate; split <;> rfl

@[simp] theorem withDuplicate_hasDuplicates : (b.withDuplicate row).hasDuplicates = true := by
  unfold withDuplicate; split <;> simp_all [setDuplicate, setHasDuplicates]

theorem withDuplicate_getDuplicate :
    (b.withDuplicate row).getDuplicate =
      ⟨false, row⟩ :: if b.hasDuplicates then b.getDuplicate
        else [⟨false, b.bucketData.htdataOr default⟩] := by
  unfold withDuplicate; split <;> rfl

theorem withDuplicate_setHead (d : Row) :
    (b.withDuplicate d).setDuplicate
      (⟨false, row⟩ :: if b.hasDuplicates then b.getDuplicate
        else [⟨false, b.bucketData.htdataOr default⟩]) = b.withDuplicate row := by
  unfold withDuplicate; split <;> rfl

end Bucket

namespace HashTable

open Iterator

variable (t : HashTable Row) (ctx : HashTableCtx Row V) (cur : ExprValues V)

omit [Inhabited Row] in
theorem fills_prepareBucketForInsert {i : Nat} (hi : i < t.numBuckets)
    (he : (t.bucketAt i).filled = false) (hash : UInt32) (row : Row) :
    t.Fills ((t.prepareBucketForInsert i hash).setBucket i
      (((t.prepareBucketForInsert i hash).bucketAt i).setTuple row)) i hash row where
  lt := hi
  empty := he
  buckets := by
    rw [bucketAt_of_buckets_self t hi rfl]
    simp [setBucket, prepareBucketForInsert, setHash, List.set_set]
  hashArray := rfl
  numBuckets := rfl
  quadraticProbing := rfl
  storesDuplicates := rfl
  numFilledBuckets := rfl
  numBucketsWithDuplicates := rfl
  numDuplicateNodes := rfl

section Effects

variable {i : Nat} (hi : i < t.numBuckets)
include hi

omit [Inhabited Row] in
theorem setBucket_bucketAt_self (b : Bucket Row) : (t.setBucket i b).bucketAt i = b :=
  t.bucketAt_of_buckets_self hi rfl

omit [Inhabited Row] in
theorem prepareBucketForInsert_bucketAt_self (hash : UInt32) :
    (t.prepareBucketForInsert i hash).bucketAt i = (t.bucketAt i).prepareBucketForInsert :=
  t.bucketAt_of_buckets_self hi rfl

omit [Inhabited Row] in
theorem appendNextNode_bucketAt_self (chain : List (DuplicateNode Row)) :
    (t.appendNextNode i chain).bucketAt i = (t.bucketAt i).setDuplicate chain :=
  t.bucketAt_of_buckets_self hi rfl

omit [Inhabited Row] in
theorem convertToDuplicates_buckets (resident : Row) :
    (t.convertToDuplicates i resident).buckets =
      t.buckets.set i ((t.bucketAt i).setDuplicate [⟨false, resident⟩]).setHasDuplicates := by
  simp only [convertToDuplicates, setBucket, appendNextNode_bucketAt_self t hi]
  exact List.set_set _ _ _ _

omit [Inhabited Row] in
theorem convertToDuplicates_bucketAt_self (resident : Row) :
    (t.convertToDuplicates i resident).bucketAt i =
      ((t.bucketAt i).setDuplicate [⟨false, resident⟩]).setHasDuplicates :=
  t.bucketAt_of_buckets_self hi (t.convertToDuplicates_buckets hi resident)

/-- What `InsertDuplicateNode` leaves in bucket `i`: the chain with a new head whose row is
not written yet. -/
theorem insertDuplicateNode_spec {alloc : Option NodePage} {t' : HashTable Row}
    (h : t.insertDuplicateNode i (t.bucketAt i).bucketData alloc = some t') :
    t'.buckets = t.buckets.set i ((t.bucketAt i).withDuplicate default) ∧
    t'.hashArray = t.hashArray ∧ t'.numBuckets = t.numBuckets ∧
    t'.quadraticProbing = t.quadraticProbing ∧ t'.storesDuplicates = t.storesDuplicates ∧
    t'.numFilledBuckets = t.numFilledBuckets ∧
    t'.numBucketsWithDuplicates =
      t.numBucketsWithDuplicates + (if (t.bucketAt i).hasDuplicates then 0 else 1) ∧
    t'.numDuplicateNodes =
      t.numDuplicateNodes + if (t.bucketAt i).hasDuplicates then 1 else 2 := by
  unfold insertDuplicateNode at h
  obtain ⟨t1, hr, rfl⟩ := Option.map_eq_some'.mp h
  obtain ⟨n, rfl⟩ := t.reserveNodes_spec hr
  have hn : i < ({ t with nodeRemainingCurrentPage := n } : HashTable Row).numBuckets := hi
  cases hd : (t.bucketAt i).hasDuplicates
  · simp only [hd, Bool.false_eq_true, if_false, appendNextNode,
      convertToDuplicates_bucketAt_self _ hn, setBucket, convertToDuplicates_buckets _ hn,
      List.set_set, Bucket.withDuplicate]
    simp [convertToDuplicates, appendNextNode, setBucket, Bucket.setDuplicate,
      Bucket.setHasDuplicates, Bucket.getDuplicate, bucketAt]
  · simp only [hd, if_true, appendNextNode, setBucket, Bucket.withDuplicate]
    simp [bucketAt]

end Effects

/-- `Insert` fails without touching the table, fills the empty bucket its probe stopped at,
or links the row into the chain of the bucket whose row matched. -/
theorem insert_spec {row : Row} {alloc : Option NodePage} {ok : Bool} {t' : HashTable Row}
    (h : t.insert ctx cur row alloc = some (ok, t')) :
    (ok = false ∧ t' = t) ∨
    (ok = true ∧ ∃ i : Nat, (t.probe true ctx cur).bucketIdx = i ∧
      ((t.probe true ctx cur).found = false ∧ t.Fills t' i cur.hash row ∨
        (t.probe true ctx cur).found = true ∧ t.LinksDuplicate t' i row)) := by
  unfold insert insertInternal at h
  rcases t.probe_spec true ctx cur with ⟨j, -, -, hidx, hcase⟩ | ⟨hnf, -, -⟩
  · have hi := t.probeIdx_lt cur.hash.toNat j
    simp only [hidx, natCast_ne_bucketNotFound, if_false, Int.toNat_ofNat] at h
    set i := t.probeIdx cur.hash.toNat j
    rcases hcase with ⟨he, hf⟩ | ⟨hf, hfill, hhash, heq, hbd⟩
    · simp only [hf, Bool.false_eq_true, if_false, Option.map_some', Option.some.injEq] at h
      rw [prepareBucketForInsert_bucketAt_self _ hi] at h
      simp only [Bucket.prepareBucketForInsert, Bool.false_eq_true, if_false,
        Prod.mk.injEq] at h
      obtain ⟨rfl, rfl⟩ := h
      have := t.fills_prepareBucketForInsert hi he cur.hash row
      rw [prepareBucketForInsert_bucketAt_self _ hi] at this
      exact Or.inr ⟨rfl, _, hidx, Or.inl ⟨hf, this⟩⟩
    · rw [hbd] at h
      cases hsd : t.storesDuplicates
      · simp [hf, hsd] at h
      · simp only [hf, hsd, if_true, Option.map_some'] at h
        cases hd : t.insertDuplicateNode i (t.bucketAt i).bucketData alloc with
        | none =>
            simp only [hd, Option.map_none', Option.some.injEq, Prod.mk.injEq] at h
            exact Or.inl ⟨h.1.symm, h.2.symm⟩
        | some t2 =>
            obtain ⟨hb, hh, hn, hq, hs, hfb, hbw, hdn⟩ := t.insertDuplicateNode_spec hi hd
            simp only [hd, Option.map_some'] at h
            rw [t.bucketAt_of_buckets_self hi hb] at h
            simp only [Bucket.withDuplicate_hasDuplicates, if_true,
              Bucket.withDuplicate_getDuplicate] at h
            simp only [Bucket.withDuplicate_setHead, Option.some.injEq, Prod.mk.injEq] at h
            obtain ⟨rfl, rfl⟩ := h
            exact Or.inr ⟨rfl, _, hidx, Or.inr ⟨hf, ⟨hi, hfill, hsd, by simp [setBucket, hb],
              hh, hn, hq, hs, hfb, hbw, hdn⟩⟩⟩
  · simp [hnf] at h

/-- `SetTuple` on the iterator of a `FindBuildRowBucket` that found no match fills the
empty bucket the probe stopped at. -/
theorem setTuple_spec {row : Row} {it : Iterator} {t' : HashTable Row}
    (hf : t.findBuildRowBucket ctx cur = (it, false)) (h : t.setTuple it row cur.hash = some t') :
    ∃ i : Nat, (t.probe true ctx cur).bucketIdx = i ∧ (t.probe true ctx cur).found = false ∧
      t.Fills t' i cur.hash row := by
  simp only [findBuildRowBucket, Prod.mk.injEq] at hf
  obtain ⟨rfl, hnf⟩ := hf
  unfold setTuple at h
  rcases t.probe_spec true ctx cur with ⟨j, -, -, hidx, hcase⟩ | ⟨hnot, -, -⟩
  · have hi := t.probeIdx_lt cur.hash.toNat j
    have he : (t.bucketAt (t.probeIdx cur.hash.toNat j)).filled = false := by
      rcases hcase with ⟨he, -⟩ | ⟨hfound, -⟩
      · exact he
      · rw [hnf] at hfound; cases hfound
    simp only [Iterator.atEnd, hidx, beq_iff_eq, natCast_ne_bucketNotFound, decide_False,
      Bool.false_eq_true, if_false, Int.toNat_ofNat, Option.some.injEq] at h
    subst h
    exact ⟨_, hidx, hnf, t.fills_prepareBucketForInsert hi he cur.hash row⟩
  · simp [Iterator.atEnd, hnot] at h

end HashTable

end Impala.Exec
