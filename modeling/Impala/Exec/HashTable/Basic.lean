import Mathlib

/-!
# Buckets, duplicate chains and the hash table state

The state `Insert`, `Probe` and the iterators of `exec/hash-table.inline.h` work on. A bucket
keeps three flags and a `BucketData`: an inline row handle or the head of a chain of
`DuplicateNode`s, which is linked only at the head and so is a `List`, head first. The types
and bucket methods of `hash-table.h` are not in the excerpt and are modelled from the spec. A
row handle (`Tuple*` or `FlatRowPtr`) is the type parameter `Row`.
-/

namespace Impala.Exec

/-- Modelled from the spec: `DuplicateNode`, one row of a chain and its matched flag. -/
structure DuplicateNode (Row : Type) where
  matched : Bool
  htdata : Row
  deriving DecidableEq, Repr

/-- Modelled from the spec: `BucketData`, the union of an inline row handle and a pointer to a
duplicate chain. -/
inductive BucketData (Row : Type) where
  | htdata (row : Row)
  | duplicates (chain : List (DuplicateNode Row))
  deriving DecidableEq, Repr

/-- Modelled from the spec: `Bucket`. -/
structure Bucket (Row : Type) where
  filled : Bool
  matched : Bool
  hasDuplicates : Bool
  bucketData : BucketData Row
  deriving DecidableEq, Repr

/-- `GrowNodeArray` obtains a data page holding `nodes` duplicate nodes. The smallest data
page holds far more than the two nodes one insert can need. -/
structure NodePage where
  nodes : Nat
  two_le : 2 ≤ nodes

variable {Row : Type}

namespace BucketData

/-- The union read as a `DuplicateNode*`: null for the zeroed union, the head of a chain
otherwise (a row handle read as a pointer is not null either). -/
def duplicatesPtr : BucketData Row → Option Nat
  | .duplicates [] => none
  | _ => some 0

/-- The union read as `HtData`; a chain pointer read as a row handle is unspecified. -/
def htdataOr (d : Row) : BucketData Row → Row
  | .htdata row => row
  | .duplicates _ => d

end BucketData

namespace Bucket

/-- A bucket of a freshly zeroed bucket array. -/
def empty : Bucket Row := ⟨false, false, false, .duplicates []⟩

instance : Inhabited (Bucket Row) := ⟨empty⟩

/-- Modelled from the spec: `Bucket::PrepareBucketForInsert`. -/
def prepareBucketForInsert (b : Bucket Row) : Bucket Row :=
  { b with filled := true, matched := false, hasDuplicates := false }

/-- Modelled from the spec: `Bucket::SetTuple` and `Bucket::SetFlatRow` store the row handle
inline. -/
def setTuple (b : Bucket Row) (row : Row) : Bucket Row :=
  { b with bucketData := .htdata row }

/-- Modelled from the spec: `Bucket::SetDuplicate` points the bucket at the chain starting at
the given node. -/
def setDuplicate (b : Bucket Row) (chain : List (DuplicateNode Row)) : Bucket Row :=
  { b with bucketData := .duplicates chain }

/-- Modelled from the spec: `Bucket::SetHasDuplicates`. -/
def setHasDuplicates (b : Bucket Row) : Bucket Row :=
  { b with hasDuplicates := true }

/-- Modelled from the spec: `Bucket::SetMatched`. -/
def setMatched (b : Bucket Row) : Bucket Row :=
  { b with matched := true }

/-- Modelled from the spec: `Bucket::GetDuplicate`, as the chain it points to. -/
def getDuplicate (b : Bucket Row) : List (DuplicateNode Row) :=
  match b.bucketData with
  | .duplicates chain => chain
  | .htdata _ => []

/-- The rows a bucket stores: none when empty, its chain when it has duplicates, otherwise
its inline row. -/
def rows (b : Bucket Row) : List Row :=
  if b.filled then
    if b.hasDuplicates then b.getDuplicate.map (·.htdata)
    else match b.bucketData with
      | .htdata row => [row]
      | .duplicates _ => []
  else []

@[simp] theorem empty_filled : (empty : Bucket Row).filled = false := rfl
@[simp] theorem empty_hasDuplicates : (empty : Bucket Row).hasDuplicates = false := rfl
@[simp] theorem empty_rows : (empty : Bucket Row).rows = [] := rfl

end Bucket

/-- Modelled from the spec: the state of a `HashTable`, its bucket and hash arrays, the three counters, the node
allocator's remaining page space and `has_matches_`. The arrays have `num_buckets_` entries
and `num_buckets_` is a power of two, as `HashTable::Init` and `ResizeBuckets` ensure. -/
structure HashTable (Row : Type) where
  quadraticProbing : Bool
  storesDuplicates : Bool
  numBuckets : Nat
  buckets : List (Bucket Row)
  hashArray : List UInt32
  numFilledBuckets : Nat
  numBucketsWithDuplicates : Nat
  numDuplicateNodes : Nat
  nodeRemainingCurrentPage : Nat
  hasMatches : Bool
  buckets_length : buckets.length = numBuckets
  hashArray_length : hashArray.length = numBuckets
  numBuckets_pow : ∃ k, numBuckets = 2 ^ k

/-- `Iterator::BUCKET_NOT_FOUND`. -/
def bucketNotFound : Int := -1

@[simp] theorem natCast_ne_bucketNotFound (n : Nat) : (n : Int) ≠ bucketNotFound := by
  rw [bucketNotFound]; omega

/-- `static_cast<int64_t>` of a `double`: truncation toward zero. -/
def truncToInt (x : ℚ) : Int := if 0 ≤ x then ⌊x⌋ else ⌈x⌉

theorem truncToInt_le {x : ℚ} {n : Nat} (h : x ≤ n) : truncToInt x ≤ n := by
  unfold truncToInt
  split
  · exact_mod_cast (Int.floor_le x).trans h
  · have : ⌈x⌉ ≤ 0 := Int.ceil_le.mpr (by push_cast; linarith)
    omega

namespace HashTable

/-- Modelled from the spec: the empty table `HashTable::Init` leaves, of `2 ^ k` buckets and
with no node page yet. -/
def init (quadraticProbing storesDuplicates : Bool) (k : Nat) : HashTable Row where
  quadraticProbing := quadraticProbing
  storesDuplicates := storesDuplicates
  numBuckets := 2 ^ k
  buckets := List.replicate (2 ^ k) Bucket.empty
  hashArray := List.replicate (2 ^ k) 0
  numFilledBuckets := 0
  numBucketsWithDuplicates := 0
  numDuplicateNodes := 0
  nodeRemainingCurrentPage := 0
  hasMatches := false
  buckets_length := List.length_replicate _ _
  hashArray_length := List.length_replicate _ _
  numBuckets_pow := ⟨k, rfl⟩

variable (t : HashTable Row)

def bucketAt (idx : Nat) : Bucket Row := t.buckets.getD idx default

def hashAt (idx : Nat) : UInt32 := t.hashArray.getD idx 0

theorem numBuckets_pos : 0 < t.numBuckets := by
  obtain ⟨k, hk⟩ := t.numBuckets_pow
  exact hk ▸ Nat.pos_pow_of_pos k (by decide)

def setBucket (idx : Nat) (b : Bucket Row) : HashTable Row :=
  { t with
    buckets := t.buckets.set idx b
    buckets_length := by rw [List.length_set, t.buckets_length] }

def setHash (idx : Nat) (hash : UInt32) : HashTable Row :=
  { t with
    hashArray := t.hashArray.set idx hash
    hashArray_length := by rw [List.length_set, t.hashArray_length] }

theorem bucketAt_setBucket {i : Nat} (hi : i < t.numBuckets) (b : Bucket Row) (j : Nat) :
    (t.setBucket i b).bucketAt j = if i = j then b else t.bucketAt j := by
  unfold bucketAt setBucket
  simp only [List.getD_eq_getElem?_getD, List.getElem?_set, t.buckets_length, hi]
  split <;> simp_all

theorem hashAt_setHash {i : Nat} (hi : i < t.numBuckets) (hash : UInt32) (j : Nat) :
    (t.setHash i hash).hashAt j = if i = j then hash else t.hashAt j := by
  unfold hashAt setHash
  simp only [List.getD_eq_getElem?_getD, List.getElem?_set, t.hashArray_length, hi]
  split <;> simp_all

@[simp] theorem setBucket_numBuckets (i : Nat) (b : Bucket Row) :
    (t.setBucket i b).numBuckets = t.numBuckets := rfl

@[simp] theorem setBucket_hashAt (i : Nat) (b : Bucket Row) (j : Nat) :
    (t.setBucket i b).hashAt j = t.hashAt j := rfl

@[simp] theorem setHash_bucketAt (i : Nat) (hash : UInt32) (j : Nat) :
    (t.setHash i hash).bucketAt j = t.bucketAt j := rfl

theorem bucketAt_of_buckets {t' : HashTable Row} {i : Nat} {b : Bucket Row}
    (hi : i < t.numBuckets) (h : t'.buckets = t.buckets.set i b) (j : Nat) :
    t'.bucketAt j = if i = j then b else t.bucketAt j := by
  unfold bucketAt
  rw [h, List.getD_eq_getElem?_getD, List.getElem?_set, t.buckets_length, if_pos hi]
  split <;> simp [List.getD_eq_getElem?_getD]

theorem hashAt_of_hashArray {t' : HashTable Row} {i : Nat} {hash : UInt32}
    (hi : i < t.numBuckets) (h : t'.hashArray = t.hashArray.set i hash) (j : Nat) :
    t'.hashAt j = if i = j then hash else t.hashAt j := by
  unfold hashAt
  rw [h, List.getD_eq_getElem?_getD, List.getElem?_set, t.hashArray_length, if_pos hi]
  split <;> simp [List.getD_eq_getElem?_getD]

theorem bucketAt_of_buckets_self {t' : HashTable Row} {i : Nat} {b : Bucket Row}
    (hi : i < t.numBuckets) (h : t'.buckets = t.buckets.set i b) : t'.bucketAt i = b := by
  rw [t.bucketAt_of_buckets hi h, if_pos rfl]

/-- The rows the table stores, bucket by bucket in ascending order, each chain head first. -/
def storedRows : List Row := t.buckets.flatMap Bucket.rows

/-- `HashTable::NumInsertsBeforeResize`, for the table's `MAX_FILL_FACTOR`. -/
def numInsertsBeforeResize (maxFillFactor : ℚ) : Int :=
  max 0 (truncToInt (t.numBuckets * maxFillFactor) - t.numFilledBuckets)

def prepareBucketForInsert (idx : Nat) (hash : UInt32) : HashTable Row :=
  { (t.setBucket idx (t.bucketAt idx).prepareBucketForInsert).setHash idx hash with
    numFilledBuckets := t.numFilledBuckets + 1 }

/-- `HashTable::AppendNextNode`, for the node that heads `chain`. -/
def appendNextNode (idx : Nat) (chain : List (DuplicateNode Row)) : HashTable Row :=
  { t.setBucket idx ((t.bucketAt idx).setDuplicate chain) with
    numDuplicateNodes := t.numDuplicateNodes + 1
    nodeRemainingCurrentPage := t.nodeRemainingCurrentPage - 1 }

/-- The loop `while (node_remaining_current_page_ < need) GrowNodeArray(status)`: `alloc` is
the page `GrowNodeArray` obtains, `none` when the allocation fails. One page ends the loop. -/
def reserveNodes (need : Nat) (alloc : Option NodePage) : Option (HashTable Row) :=
  if t.nodeRemainingCurrentPage < need then
    alloc.map fun page => { t with nodeRemainingCurrentPage := page.nodes }
  else some t

theorem reserveNodes_spec {need : Nat} {alloc : Option NodePage} {t' : HashTable Row}
    (h : t.reserveNodes need alloc = some t') :
    ∃ n, t' = { t with nodeRemainingCurrentPage := n } := by
  unfold reserveNodes at h
  split at h
  · obtain ⟨page, -, rfl⟩ := Option.map_eq_some'.mp h
    exact ⟨_, rfl⟩
  · exact ⟨t.nodeRemainingCurrentPage, (Option.some.inj h).symm⟩

/-- The first-duplicate branch of `InsertDuplicateNode`: the inline row `resident` moves
into a node, which the bucket then points at, and the bucket is marked as having
duplicates. -/
def convertToDuplicates (idx : Nat) (resident : Row) : HashTable Row :=
  let t := t.appendNextNode idx [⟨false, resident⟩]
  { t.setBucket idx (t.bucketAt idx).setHasDuplicates with
    numBucketsWithDuplicates := t.numBucketsWithDuplicates + 1 }

/-- `HashTable::InsertDuplicateNode`: the table with the new node linked at the head of
bucket `idx`'s chain, or `none` (a null node) when no node page can be allocated. The new
node's `htdata` is uninitialized page memory until `Insert` writes it. -/
def insertDuplicateNode [Inhabited Row] (idx : Nat) (bd : BucketData Row)
    (alloc : Option NodePage) : Option (HashTable Row) :=
  let hasDuplicates := (t.bucketAt idx).hasDuplicates
  (t.reserveNodes (if hasDuplicates then 1 else 2) alloc).map fun t =>
    let t := if hasDuplicates then t else t.convertToDuplicates idx (bd.htdataOr default)
    t.appendNextNode idx (⟨false, default⟩ :: (t.bucketAt idx).getDuplicate)

end HashTable

end Impala.Exec
