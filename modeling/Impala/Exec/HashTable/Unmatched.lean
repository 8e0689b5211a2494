import Impala.Exec.HashTable.Iterator

/-!
# Unmatched rows

`Iterator::SetMatched`, `HashTable::FirstUnmatched` and `Iterator::NextUnmatched`, with every
read of `buckets_[idx]` and of `node_` checked: an index out of range, or a node not in its
bucket's chain, is a `Fault`. On a table with no filled bucket `FirstUnmatched` reads
`buckets_[-1]` (`firstUnmatched_reads_before_buckets`); on a well-formed table with a filled
bucket the walk visits exactly the entries whose flag is clear, in `Begin`/`Next` order
(`walk_firstUnmatched`).
-/

namespace Impala.Exec

/-- A read the code makes that has no value. -/
inductive HashTable.Fault where
  /-- `buckets_[idx]` with `idx` outside `[0, num_buckets_)`. -/
  | bucketIndex (idx : Int)
  /-- `*node_` with `node_` null or not a node of its bucket's chain. -/
  | badNode (node : Option Nat)
  deriving DecidableEq, Repr

variable {Row : Type}

/-- Modelled from the spec: `DuplicateNode::SetMatched`. -/
def DuplicateNode.setMatched (node : DuplicateNode Row) : DuplicateNode Row :=
  { node with matched := true }

namespace Bucket

/-- The entries a bucket stores, each with the flag `IsMatched` reads for it: the bucket's
own flag for an inline row, each node's flag for a chain. -/
def entries (b : Bucket Row) : List (DuplicateNode Row) :=
  if b.filled then
    if b.hasDuplicates then b.getDuplicate
    else match b.bucketData with
      | .htdata row => [⟨b.matched, row⟩]
      | .duplicates _ => []
  else []

theorem entries_of_inline {b : Bucket Row} {row : Row} (hf : b.filled = true)
    (hd : b.hasDuplicates = false) (hrow : b.bucketData = .htdata row) :
    b.entries = [⟨b.matched, row⟩] := by
  simp [entries, hf, hd, hrow]

theorem entries_of_chain {b : Bucket Row} (hf : b.filled = true) (hd : b.hasDuplicates = true) :
    b.entries = b.getDuplicate := by
  simp [entries, hf, hd]

theorem map_htdata_entries (b : Bucket Row) : b.entries.map (·.htdata) = b.rows := by
  rcases b with ⟨_ | _, _, _ | _, _ | _⟩ <;> rfl

@[simp] theorem setDuplicate_filled (b : Bucket Row) (chain : List (DuplicateNode Row)) :
    (b.setDuplicate chain).filled = b.filled := rfl

@[simp] theorem setDuplicate_hasDuplicates (b : Bucket Row) (chain : List (DuplicateNode Row)) :
    (b.setDuplicate chain).hasDuplicates = b.hasDuplicates := rfl

@[simp] theorem setDuplicate_getDuplicate (b : Bucket Row) (chain : List (DuplicateNode Row)) :
    (b.setDuplicate chain).getDuplicate = chain := rfl

/-- `b'` stores what `b` stores, in the same shape, with at most matched flags changed: what
`Iterator::SetMatched` may do to a bucket. -/
structure Remarked (b b' : Bucket Row) : Prop where
  filled : b'.filled = b.filled
  rows : b'.rows = b.rows
  wellFormed : ∀ {sd : Bool}, b.WellFormed sd → b'.WellFormed sd

theorem Remarked.refl (b : Bucket Row) : b.Remarked b := ⟨rfl, rfl, id⟩

theorem Remarked.trans {b b' b'' : Bucket Row} (h : b.Remarked b') (h' : b'.Remarked b'') :
    b.Remarked b'' :=
  ⟨h'.filled.trans h.filled, h'.rows.trans h.rows, h'.wellFormed ∘ h.wellFormed⟩

theorem remarked_setMatched (b : Bucket Row) : b.Remarked b.setMatched :=
  ⟨rfl, rfl, fun h => ⟨h.empty, h.inline, h.chain⟩⟩

theorem remarked_setMatched_node {b : Bucket Row} (hd : b.hasDuplicates = true) (k : Nat) :
    b.Remarked (b.setDuplicate (b.getDuplicate.modify DuplicateNode.setMatched k)) := by
  have hmap : (b.getDuplicate.modify DuplicateNode.setMatched k).map (·.htdata) =
      b.getDuplicate.map (·.htdata) := by
    refine List.ext_getElem (by simp) fun i _ _ => ?_
    simp only [List.getElem_map, List.getElem_modify]
    split <;> rfl
  refine ⟨rfl, by simp only [rows, setDuplicate_filled, setDuplicate_hasDuplicates, hd, if_true,
    setDuplicate_getDuplicate, hmap], fun h => ?_⟩
  obtain ⟨hsd, hf, hlen⟩ := h.chain hd
  exact ⟨h.empty, fun _ h' => absurd (hd.symm.trans h') (by decide), fun _ =>
    ⟨hsd, hf, by simpa using hlen⟩⟩

end Bucket

namespace HashTable

open Iterator

/-- The rows of a list of entries whose matched flag is clear, in order. -/
def unmatchedRows (es : List (DuplicateNode Row)) : List Row :=
  (es.filter (!·.matched)).map (·.htdata)

@[simp] theorem unmatchedRows_nil : unmatchedRows ([] : List (DuplicateNode Row)) = [] := rfl

@[simp] theorem unmatchedRows_append (es es' : List (DuplicateNode Row)) :
    unmatchedRows (es ++ es') = unmatchedRows es ++ unmatchedRows es' := by
  simp [unmatchedRows]

theorem unmatchedRows_cons (e : DuplicateNode Row) (es : List (DuplicateNode Row)) :
    unmatchedRows (e :: es) = if e.matched then unmatchedRows es else e.htdata :: unmatchedRows es := by
  cases h : e.matched <;> simp [unmatchedRows, h]

section Drop

variable {chain : List (DuplicateNode Row)} {k : Nat} (hk : k < chain.length)
include hk

theorem unmatchedRows_drop_of_matched (h : chain[k].matched = true) :
    unmatchedRows (chain.drop k) = unmatchedRows (chain.drop (k + 1)) := by
  rw [List.drop_eq_getElem_cons hk, unmatchedRows, List.filter_cons_of_neg (by simp [h])]
  rfl

theorem unmatchedRows_drop_of_unmatched (h : chain[k].matched = false) :
    unmatchedRows (chain.drop k) = chain[k].htdata :: unmatchedRows (chain.drop (k + 1)) := by
  rw [List.drop_eq_getElem_cons hk, unmatchedRows, List.filter_cons_of_pos (by simp [h])]
  rfl

end Drop

variable (t : HashTable Row)

/-- The table's entries in the order of the `Begin`/`Next` walk. -/
def storedEntries : List (DuplicateNode Row) := t.buckets.flatMap Bucket.entries

theorem map_htdata_storedEntries : t.storedEntries.map (·.htdata) = t.storedRows := by
  simp only [storedEntries, storedRows, List.map_flatMap, Bucket.map_htdata_entries]

/-! ## Checked reads -/

/-- The checked read of `buckets_[idx]`. -/
def bucketRef (idx : Int) : Except Fault (Bucket Row) :=
  if 0 ≤ idx ∧ idx < t.numBuckets then .ok (t.bucketAt idx.toNat) else .error (.bucketIndex idx)

/-- The checked dereference of `node_` in a bucket whose chain is `chain`. -/
def nodeRef (chain : List (DuplicateNode Row)) : Option Nat → Except Fault (DuplicateNode Row)
  | some k =>
      match chain[k]? with
      | some node => .ok node
      | none => .error (.badNode (some k))
  | none => .error (.badNode none)

@[simp] theorem ok_bind {α β ε : Type} (a : α) (f : α → Except ε β) :
    (Except.ok a >>= f) = f a := rfl

@[simp] theorem pure_eq_ok {α ε : Type} (a : α) : (pure a : Except ε α) = .ok a := rfl

theorem bind_eq_ok {α β ε : Type} {x : Except ε α} {f : α → Except ε β} {b : β}
    (h : (x >>= f) = .ok b) : ∃ a, x = .ok a ∧ f a = .ok b := by
  cases x with
  | error e => cases h
  | ok a => exact ⟨a, rfl, h⟩

theorem bucketRef_natCast {idx : Nat} (h : idx < t.numBuckets) :
    t.bucketRef idx = .ok (t.bucketAt idx) := by
  simp [bucketRef, h]

theorem bucketRef_eq_ok {idx : Int} {b : Bucket Row} (h : t.bucketRef idx = .ok b) :
    ∃ i : Nat, idx = i ∧ i < t.numBuckets ∧ b = t.bucketAt i := by
  unfold bucketRef at h
  split at h
  · cases h
    exact ⟨idx.toNat, by omega, by omega, rfl⟩
  · cases h

theorem nodeRef_of_lt {chain : List (DuplicateNode Row)} {k : Nat} (h : k < chain.length) :
    nodeRef chain (some k) = .ok chain[k] := by
  simp [nodeRef, List.getElem?_eq_getElem h]

/-! ## The model -/

namespace Iterator

/-- `Iterator::SetMatched`: the flag of the node in a bucket with duplicates, the bucket's
own otherwise, and `has_matches_`. -/
def setMatched (it : Iterator) : Except Fault (HashTable Row) := do
  let bucket ← t.bucketRef it.bucketIdx
  let bucket ← if t.storesDuplicates && bucket.hasDuplicates then do
      let _ ← nodeRef bucket.getDuplicate it.node
      pure (bucket.setDuplicate (bucket.getDuplicate.modify DuplicateNode.setMatched (it.node.getD 0)))
    else pure bucket.setMatched
  pure { t.setBucket it.bucketIdx.toNat bucket with hasMatches := true }

end Iterator

/-- The matched flags a probe phase leaves: `SetMatched` on each iterator in turn. -/
def setMatchedAll (its : List Iterator) : Except Fault (HashTable Row) :=
  its.foldlM (fun t it => setMatched t it) t

/-! ## Setting matched flags -/

section Remarked

variable {t t' t'' : HashTable Row}

/-- `t'` stores what `t` stores, bucket by bucket, with at most matched flags changed. -/
structure Remarked (t t' : HashTable Row) : Prop where
  storesDuplicates : t'.storesDuplicates = t.storesDuplicates
  numBuckets : t'.numBuckets = t.numBuckets
  bucketAt : ∀ i, (t.bucketAt i).Remarked (t'.bucketAt i)

theorem Remarked.refl (t : HashTable Row) : t.Remarked t := ⟨rfl, rfl, fun _ => .refl _⟩

theorem Remarked.trans (h : t.Remarked t') (h' : t'.Remarked t'') : t.Remarked t'' :=
  ⟨h'.storesDuplicates.trans h.storesDuplicates, h'.numBuckets.trans h.numBuckets,
    fun i => (h.bucketAt i).trans (h'.bucketAt i)⟩

theorem remarked_setBucket {i : Nat} {b : Bucket Row} (hi : i < t.numBuckets)
    (hb : (t.bucketAt i).Remarked b) : t.Remarked { t.setBucket i b with hasMatches := true } := by
  refine ⟨rfl, rfl, fun j => ?_⟩
  show (t.bucketAt j).Remarked ((t.setBucket i b).bucketAt j)
  rw [t.bucketAt_setBucket hi]
  split
  · subst j
    exact hb
  · exact .refl _

theorem setMatched_remarked {it : Iterator} (h : setMatched t it = .ok t') : t.Remarked t' := by
  obtain ⟨idx, node⟩ := it
  obtain ⟨b, hb, h⟩ := bind_eq_ok h
  obtain ⟨i, rfl, hi, rfl⟩ := t.bucketRef_eq_ok hb
  dsimp only at h
  split at h
  · obtain ⟨_, -, h⟩ := bind_eq_ok h
    simp only [pure_eq_ok, ok_bind, Except.ok.injEq, Int.toNat_ofNat] at h
    subst h
    exact remarked_setBucket hi (Bucket.remarked_setMatched_node (by simp_all) _)
  · simp only [pure_eq_ok, ok_bind, Except.ok.injEq, Int.toNat_ofNat] at h
    subst h
    exact remarked_setBucket hi (Bucket.remarked_setMatched _)

theorem setMatchedAll_remarked {its : List Iterator} (h : t.setMatchedAll its = .ok t') :
    t.Remarked t' := by
  induction its generalizing t with
  | nil =>
      cases h
      exact .refl _
  | cons it its ih =>
      obtain ⟨t1, h1, h2⟩ := bind_eq_ok (by simpa only [setMatchedAll, List.foldlM_cons] using h)
      exact (setMatched_remarked h1).trans (ih h2)

theorem Remarked.wellFormed (h : t.Remarked t')
    (hwf : ∀ b ∈ t.buckets, b.WellFormed t.storesDuplicates) :
    ∀ b ∈ t'.buckets, b.WellFormed t'.storesDuplicates := by
  intro b hb
  obtain ⟨i, hi, rfl⟩ := List.getElem_of_mem hb
  have hi' : i < t.numBuckets := by rw [← h.numBuckets, ← t'.buckets_length]; exact hi
  rw [← List.getD_eq_getElem _ default hi, h.storesDuplicates]
  exact (h.bucketAt i).wellFormed (hwf _ (bucketAt_mem hi'))

theorem Remarked.storedRows (h : t.Remarked t') : t'.storedRows = t.storedRows := by
  have hlen : t'.buckets.length = t.buckets.length := by
    rw [t'.buckets_length, t.buckets_length, h.numBuckets]
  have hmap : t'.buckets.map Bucket.rows = t.buckets.map Bucket.rows := by
    refine List.ext_getElem (by simp [hlen]) fun i h1 h2 => ?_
    have hrows := (h.bucketAt i).rows
    simp only [List.length_map] at h1 h2
    rwa [HashTable.bucketAt, HashTable.bucketAt, List.getD_eq_getElem _ _ h1, List.getD_eq_getElem _ _ h2,
      ← List.getElem_map Bucket.rows, ← List.getElem_map Bucket.rows] at hrows
  rw [HashTable.storedRows, HashTable.storedRows, List.flatMap_def, List.flatMap_def, hmap]

end Remarked

/-- The first loop of `NextUnmatched`: from `next_node`, the first node of the chain whose
flag is clear, for at most `fuel` nodes. -/
def firstUnmatchedNode (chain : List (DuplicateNode Row)) :
    Nat → Option Nat → Except Fault (Option Nat)
  | 0, _ => .ok none
  | _ + 1, none => .ok none
  | fuel + 1, some k => do
      let node ← nodeRef chain (some k)
      if !node.matched then pure (some k)
      else firstUnmatchedNode chain fuel (nodeNext chain (some k))

/-- The inner loop of `NextUnmatched` over a bucket with duplicates: from `node_`, past
matched nodes while a next node exists, for at most `fuel` nodes. -/
def skipMatchedNodes (chain : List (DuplicateNode Row)) :
    Nat → Option Nat → Except Fault (Option Nat)
  | 0, node => .ok node
  | fuel + 1, node => do
      let n ← nodeRef chain node
      match n.matched, nodeNext chain node with
      | true, some next => skipMatchedNodes chain fuel (some next)
      | _, _ => pure node

/-- The outer loop of `NextUnmatched`, from the iterator `NextFilledBucket` left, for at
most `fuel` buckets. -/
def nextUnmatchedLoop : Nat → Iterator → Except Fault Iterator
  | 0, _ => .ok endIterator
  | fuel + 1, it =>
      if it.bucketIdx = bucketNotFound then .ok it
      else do
        let bucket ← t.bucketRef it.bucketIdx
        if !t.storesDuplicates || !bucket.hasDuplicates then
          if !bucket.matched then pure it
          else nextUnmatchedLoop fuel (t.nextFilledBucket it.bucketIdx)
        else do
          let node ← skipMatchedNodes bucket.getDuplicate bucket.getDuplicate.length it.node
          let n ← nodeRef bucket.getDuplicate node
          if !n.matched then pure { it with node := node }
          else nextUnmatchedLoop fuel (t.nextFilledBucket it.bucketIdx)

namespace Iterator

/-- `Iterator::NextUnmatched`: the next node of the chain whose flag is clear, else the
outer loop from the next filled bucket. -/
def nextUnmatched (it : Iterator) : Except Fault Iterator := do
  let bucket ← t.bucketRef it.bucketIdx
  let found ← if t.storesDuplicates && bucket.hasDuplicates then do
      let _ ← nodeRef bucket.getDuplicate it.node
      firstUnmatchedNode bucket.getDuplicate bucket.getDuplicate.length
        (nodeNext bucket.getDuplicate it.node)
    else pure none
  match found with
  | some k => pure { it with node := some k }
  | none => t.nextUnmatchedLoop (t.numBuckets + 1) (t.nextFilledBucket it.bucketIdx)

end Iterator

/-- `HashTable::FirstUnmatched`. It reads the bucket `NextFilledBucket` stopped at whether or
not it found a filled one. -/
def firstUnmatched : Except Fault Iterator := do
  let it := t.nextFilledBucket bucketNotFound
  let bucket ← t.bucketRef it.bucketIdx
  let hasDuplicates := t.storesDuplicates && bucket.hasDuplicates
  let matched ← if hasDuplicates then do
      let node ← nodeRef bucket.getDuplicate it.node
      pure node.matched
    else pure bucket.matched
  if matched then nextUnmatched t it else pure it

variable [Inhabited Row]

/-- The loop `while (!it.AtEnd()) { visit(it.GetRow()); it.NextUnmatched(); }` of a caller,
for at most `fuel` rows: the rows it visits and the iterator it stops at. -/
def walkUnmatched : Nat → Iterator → Except Fault (List Row × Iterator)
  | 0, it => .ok ([], it)
  | fuel + 1, it =>
      if it.atEnd then .ok ([], it)
      else do
        let (rows, last) ← nextUnmatched t it >>= walkUnmatched fuel
        pure (it.getRow t :: rows, last)

/-! ## The two loops over a chain -/

section Chain

variable {chain : List (DuplicateNode Row)}

omit [Inhabited Row] in
theorem firstUnmatchedNode_none (fuel : Nat) : firstUnmatchedNode chain fuel none = .ok none := by
  cases fuel <;> rfl

omit [Inhabited Row] in
theorem firstUnmatchedNode_last {j : Nat} (hn : ¬j + 1 < chain.length) (fuel : Nat) :
    firstUnmatchedNode chain fuel (nodeNext chain (some j)) = .ok none ∧
      unmatchedRows (chain.drop (j + 1)) = [] := by
  rw [show nodeNext chain (some j) = none from if_neg hn, firstUnmatchedNode_none,
    List.drop_eq_nil_of_le (by omega)]
  exact ⟨rfl, rfl⟩

omit [Inhabited Row] in
theorem firstUnmatchedNode_spec : ∀ fuel j, j < chain.length → chain.length ≤ j + 1 + fuel →
    (firstUnmatchedNode chain fuel (nodeNext chain (some j)) = .ok none ∧
      unmatchedRows (chain.drop (j + 1)) = []) ∨
    ∃ k, ∃ hk : k < chain.length, j < k ∧
      firstUnmatchedNode chain fuel (nodeNext chain (some j)) = .ok (some k) ∧
      unmatchedRows (chain.drop (j + 1)) = chain[k].htdata :: unmatchedRows (chain.drop (k + 1))
  | 0, _, _, hf => .inl (firstUnmatchedNode_last (by omega) 0)
  | fuel + 1, j, _, hf => by
      by_cases hn : j + 1 < chain.length
      · rw [show nodeNext chain (some j) = some (j + 1) from if_pos hn]
        cases hm : chain[j + 1].matched
        · refine .inr ⟨j + 1, hn, by omega, ?_, unmatchedRows_drop_of_unmatched hn hm⟩
          simp [firstUnmatchedNode, nodeRef_of_lt hn, hm]
        · have hstep : firstUnmatchedNode chain (fuel + 1) (some (j + 1)) =
              firstUnmatchedNode chain fuel (nodeNext chain (some (j + 1))) := by
            simp [firstUnmatchedNode, nodeRef_of_lt hn, hm]
          rw [hstep, unmatchedRows_drop_of_matched hn hm]
          rcases firstUnmatchedNode_spec fuel (j + 1) hn (by omega) with h | ⟨k, hk, hjk, h⟩
          · exact .inl h
          · exact .inr ⟨k, hk, by omega, h⟩
      · exact .inl (firstUnmatchedNode_last hn _)

omit [Inhabited Row] in
theorem skipMatchedNodes_spec : ∀ fuel j, j < chain.length → chain.length ≤ j + fuel →
    ∃ k, ∃ hk : k < chain.length, skipMatchedNodes chain fuel (some j) = .ok (some k) ∧
      (chain[k].matched = false ∧
          unmatchedRows (chain.drop j) = chain[k].htdata :: unmatchedRows (chain.drop (k + 1)) ∨
        chain[k].matched = true ∧ unmatchedRows (chain.drop j) = [])
  | 0, _, hj, hf => absurd hf (by omega)
  | fuel + 1, j, hj, hf => by
      cases hm : chain[j].matched
      · refine ⟨j, hj, ?_, .inl ⟨hm, unmatchedRows_drop_of_unmatched hj hm⟩⟩
        simp [skipMatchedNodes, nodeRef_of_lt hj, hm]
      · rw [unmatchedRows_drop_of_matched hj hm]
        by_cases hn : j + 1 < chain.length
        · have hstep : skipMatchedNodes chain (fuel + 1) (some j) =
              skipMatchedNodes chain fuel (some (j + 1)) := by
            simp [skipMatchedNodes, nodeRef_of_lt hj, hm, nodeNext, hn]
          rw [hstep]
          exact skipMatchedNodes_spec fuel (j + 1) hn (by omega)
        · refine ⟨j, hj, ?_, .inr ⟨hm, by rw [List.drop_eq_nil_of_le (by omega)]; rfl⟩⟩
          simp [skipMatchedNodes, nodeRef_of_lt hj, hm, nodeNext, hn]

end Chain

/-! ## Steps of the walk -/

section Steps

variable {idx : Nat}

omit [Inhabited Row] in
theorem nextFilledBucketLoop_of_end (h : t.numBuckets ≤ idx) (fuel : Nat) :
    t.nextFilledBucketLoop fuel idx = endIterator ∧
      (∀ i, idx ≤ i → i < t.numBuckets → (t.bucketAt i).filled = false) ∧
      (t.buckets.drop idx).flatMap Bucket.entries = [] := by
  refine ⟨nextFilledBucketLoop_of_le t h fuel, fun i h1 h2 => absurd h2 (by omega), ?_⟩
  rw [List.drop_eq_nil_of_le (by rw [t.buckets_length]; omega)]
  rfl

omit [Inhabited Row] in
/-- `NextFilledBucket`'s loop from `idx` stops at the first filled bucket, past buckets that
store nothing, or at the end when no bucket from `idx` on is filled. -/
theorem nextFilledBucketLoop_cases : ∀ fuel idx, t.numBuckets ≤ idx + fuel →
    (t.nextFilledBucketLoop fuel idx = endIterator ∧
      (∀ i, idx ≤ i → i < t.numBuckets → (t.bucketAt i).filled = false) ∧
      (t.buckets.drop idx).flatMap Bucket.entries = []) ∨
    ∃ j, idx ≤ j ∧ j < t.numBuckets ∧ (t.bucketAt j).filled = true ∧
      t.nextFilledBucketLoop fuel idx =
        ⟨j, if t.storesDuplicates then (t.bucketAt j).bucketData.duplicatesPtr else none⟩ ∧
      (t.buckets.drop idx).flatMap Bucket.entries = (t.buckets.drop j).flatMap Bucket.entries
  | 0, _, hf => .inl (t.nextFilledBucketLoop_of_end (by omega) 0)
  | fuel + 1, idx, hf => by
      by_cases hi : idx < t.numBuckets
      · by_cases hfill : (t.bucketAt idx).filled = true
        · exact .inr ⟨idx, le_rfl, hi, hfill, by simp [nextFilledBucketLoop, hi, hfill], rfl⟩
        have hloop : t.nextFilledBucketLoop (fuel + 1) idx = t.nextFilledBucketLoop fuel (idx + 1) := by
          simp [nextFilledBucketLoop, hi, hfill]
        have hentries : (t.buckets.drop idx).flatMap Bucket.entries =
            (t.buckets.drop (idx + 1)).flatMap Bucket.entries := by
          rw [flatMap_drop_buckets t _ hi, Bucket.entries, if_neg hfill, List.nil_append]
        rw [hloop, hentries]
        rcases nextFilledBucketLoop_cases fuel (idx + 1) (by omega) with
          ⟨hend, hempty, hnil⟩ | ⟨j, hj, hjn, hjf, hloop', heq⟩
        · refine .inl ⟨hend, fun i hi' hin => ?_, hnil⟩
          rcases Nat.lt_or_ge idx i with h | h
          · exact hempty i h hin
          · obtain rfl : i = idx := by omega
            simpa using hfill
        · exact .inr ⟨j, by omega, hjn, hjf, hloop', heq⟩
      · exact .inl (t.nextFilledBucketLoop_of_end (by omega) _)

omit [Inhabited Row] in
theorem nextUnmatchedLoop_endIterator (fuel : Nat) :
    t.nextUnmatchedLoop fuel endIterator = .ok endIterator := by
  cases fuel <;> rfl

theorem walkUnmatched_endIterator {fuel : Nat} (h : 0 < fuel) :
    t.walkUnmatched fuel endIterator = .ok ([], endIterator) := by
  obtain ⟨fuel, rfl⟩ := Nat.exists_eq_succ_of_ne_zero h.ne'
  rfl

theorem walkUnmatched_succ {fuel : Nat} {it last : Iterator} {rows : List Row}
    (h : (nextUnmatched t it >>= t.walkUnmatched fuel) = .ok (rows, last)) (hend : it.atEnd = false) :
    t.walkUnmatched (fuel + 1) it = .ok (it.getRow t :: rows, last) := by
  rw [walkUnmatched, if_neg (by simp [hend]), h]
  rfl

omit [Inhabited Row] in
theorem nextUnmatched_inline (hidx : idx < t.numBuckets)
    (h : (t.storesDuplicates && (t.bucketAt idx).hasDuplicates) = false) (node : Option Nat) :
    nextUnmatched t ⟨idx, node⟩ = t.nextUnmatchedLoop (t.numBuckets + 1) (t.nextFilledBucket idx) := by
  simp only [nextUnmatched, bucketRef_natCast t hidx, ok_bind, h]
  rfl

end Steps

/-! ## What the walk visits -/

section ChainWalk

variable {idx : Nat} {chain : List (DuplicateNode Row)} {rest : List Row}
  (hidx : idx < t.numBuckets) (hc : (t.bucketAt idx).getDuplicate = chain)
  (hsd : t.storesDuplicates = true) (hdup : (t.bucketAt idx).hasDuplicates = true)
  (hrest : ∀ fuel, rest.length < fuel →
    (t.nextUnmatchedLoop (t.numBuckets + 1) (t.nextFilledBucket idx) >>= t.walkUnmatched fuel) =
      .ok (rest, endIterator))
include hidx hc hsd hdup hrest

theorem walk_nextUnmatched_chain : ∀ fuel k, k < chain.length →
    (unmatchedRows (chain.drop (k + 1)) ++ rest).length < fuel →
    (nextUnmatched t ⟨idx, some k⟩ >>= t.walkUnmatched fuel) =
      .ok (unmatchedRows (chain.drop (k + 1)) ++ rest, endIterator)
  | 0, _, _, hf => absurd hf (Nat.not_lt_zero _)
  | fuel + 1, k, hk, hf => by
      have hnext : nextUnmatched t ⟨idx, some k⟩ =
          firstUnmatchedNode chain chain.length (nodeNext chain (some k)) >>= fun found =>
            match found with
            | some k' => pure ⟨idx, some k'⟩
            | none => t.nextUnmatchedLoop (t.numBuckets + 1) (t.nextFilledBucket idx) := by
        simp only [nextUnmatched, bucketRef_natCast t hidx, ok_bind, hsd, hdup, hc, Bool.and_self,
          if_true, nodeRef_of_lt hk]
      rw [hnext]
      rcases firstUnmatchedNode_spec chain.length k hk (by omega) with
        ⟨hnone, hnil⟩ | ⟨k', hk', -, hsome, heq⟩
      · rw [hnil, List.nil_append] at hf ⊢
        rw [hnone]
        exact hrest _ hf
      · rw [heq, List.cons_append, List.length_cons] at hf
        simp only [heq, List.cons_append, hsome, ok_bind, pure_eq_ok]
        rw [walkUnmatched_succ t (walk_nextUnmatched_chain fuel k' hk' (by omega)) (atEnd_natCast _),
          getRow_chain t hc hsd hdup hk']

theorem walk_unmatched_chain_node {k fuel : Nat} (hk : k < chain.length)
    (hm : chain[k].matched = false) (hf : (unmatchedRows (chain.drop k) ++ rest).length < fuel) :
    t.walkUnmatched fuel ⟨idx, some k⟩ = .ok (unmatchedRows (chain.drop k) ++ rest, endIterator) := by
  rw [unmatchedRows_drop_of_unmatched hk hm, List.cons_append, List.length_cons] at hf
  rw [unmatchedRows_drop_of_unmatched hk hm, List.cons_append]
  obtain ⟨fuel, rfl⟩ : ∃ f, fuel = f + 1 := ⟨fuel - 1, by omega⟩
  rw [walkUnmatched_succ t (walk_nextUnmatched_chain t hidx hc hsd hdup hrest fuel k hk (by omega))
    (atEnd_natCast _), getRow_chain t hc hsd hdup hk]

end ChainWalk

theorem walk_unmatched_inline {idx fuel : Nat} {row : Row} {rest : List Row}
    (hidx : idx < t.numBuckets) (hdup : (t.bucketAt idx).hasDuplicates = false)
    (hrow : (t.bucketAt idx).bucketData = .htdata row)
    (hrest : ∀ fuel, rest.length < fuel →
      (t.nextUnmatchedLoop (t.numBuckets + 1) (t.nextFilledBucket idx) >>= t.walkUnmatched fuel) =
        .ok (rest, endIterator))
    (node : Option Nat) (hf : rest.length + 1 < fuel) :
    t.walkUnmatched fuel ⟨idx, node⟩ = .ok (row :: rest, endIterator) := by
  obtain ⟨fuel, rfl⟩ : ∃ f, fuel = f + 1 := ⟨fuel - 1, by omega⟩
  have hnext := t.nextUnmatched_inline hidx (by simp [hdup]) node
  rw [walkUnmatched_succ t (by rw [hnext]; exact hrest fuel (by omega)) (atEnd_natCast _)]
  simp [getRow, hdup, hrow, BucketData.htdataOr]

section Filled

variable (hwf : ∀ b ∈ t.buckets, b.WellFormed t.storesDuplicates)
include hwf

section Bucket

variable {j : Nat} (hj : j < t.numBuckets) (hfill : (t.bucketAt j).filled = true) {rest : List Row}
  (hrest : ∀ fuelL, t.numBuckets < j + 1 + fuelL → ∀ fuel, rest.length < fuel →
    (t.nextUnmatchedLoop fuelL (t.nextFilledBucket j) >>= t.walkUnmatched fuel) =
      .ok (rest, endIterator))
include hj hfill hrest

/-- The outer loop of `NextUnmatched` at filled bucket `j`, entered as `NextFilledBucket`
enters it, and the walk after it visit the bucket's unmatched rows, then what the walk from
the next filled bucket visits. -/
theorem walk_nextUnmatchedLoop_filled {fuelL fuel : Nat} (hL : t.numBuckets < j + 1 + fuelL)
    (hf : (unmatchedRows (t.bucketAt j).entries ++ rest).length < fuel) :
    (t.nextUnmatchedLoop (fuelL + 1)
        ⟨j, if t.storesDuplicates then (t.bucketAt j).bucketData.duplicatesPtr else none⟩ >>=
      t.walkUnmatched fuel) = .ok (unmatchedRows (t.bucketAt j).entries ++ rest, endIterator) := by
  have hwfj := hwf _ (bucketAt_mem hj)
  have hnext := hrest (t.numBuckets + 1) (by omega)
  simp only [nextUnmatchedLoop, natCast_ne_bucketNotFound, if_false, bucketRef_natCast t hj, ok_bind]
  cases hdup : (t.bucketAt j).hasDuplicates with
  | false =>
      obtain ⟨row, hrow⟩ := hwfj.inline hfill hdup
      rw [Bucket.entries_of_inline hfill hdup hrow] at hf ⊢
      simp only [Bool.not_false, Bool.or_true, if_true]
      cases hm : (t.bucketAt j).matched
      · simp only [unmatchedRows_cons, unmatchedRows_nil, hm, Bool.not_false, Bool.false_eq_true,
          if_true, if_false, List.singleton_append, List.length_cons, pure_eq_ok, ok_bind] at hf ⊢
        exact walk_unmatched_inline t hj hdup hrow hnext _ hf
      · simp only [unmatchedRows_cons, unmatchedRows_nil, hm, Bool.not_true, Bool.false_eq_true,
          if_true, if_false, List.nil_append] at hf ⊢
        exact hrest fuelL hL fuel hf
  | true =>
      obtain ⟨hsd, -, hlen⟩ := hwfj.chain hdup
      rw [Bucket.entries_of_chain hfill hdup] at hf ⊢
      obtain ⟨k, hk, hskip, hcase⟩ :=
        skipMatchedNodes_spec (t.bucketAt j).getDuplicate.length 0
          (show 0 < (t.bucketAt j).getDuplicate.length by omega) (Nat.le_add_left _ _)
      rw [List.drop_zero] at hcase
      simp only [hsd, hdup, Bool.not_true, Bool.or_false, Bool.false_eq_true, if_false, if_true,
        Bucket.duplicatesPtr_of_length_pos (show 0 < (t.bucketAt j).getDuplicate.length by omega),
        hskip, ok_bind, nodeRef_of_lt hk]
      rcases hcase with ⟨hm, heq⟩ | ⟨hm, heq⟩
      · simp only [hm, Bool.not_false, if_true, pure_eq_ok, ok_bind]
        rw [heq, ← unmatchedRows_drop_of_unmatched hk hm] at hf ⊢
        exact walk_unmatched_chain_node t hj rfl hsd hdup hnext hk hm hf
      · simp only [hm, Bool.not_true, Bool.false_eq_true, if_false]
        rw [heq, List.nil_append] at hf ⊢
        exact hrest fuelL hL fuel hf

end Bucket

/-- The outer loop of `NextUnmatched` from the bucket `NextFilledBucket`'s loop is at, with
fuel for every bucket left, and the walk after it visit the unmatched entries of the buckets
from there on, in ascending order. -/
theorem walk_nextUnmatchedLoop (idx : Nat) : ∀ fuelL fuel' fuel, t.numBuckets < idx + fuelL →
    t.numBuckets ≤ idx + fuel' →
    (unmatchedRows ((t.buckets.drop idx).flatMap Bucket.entries)).length < fuel →
    (t.nextUnmatchedLoop fuelL (t.nextFilledBucketLoop fuel' idx) >>= t.walkUnmatched fuel) =
      .ok (unmatchedRows ((t.buckets.drop idx).flatMap Bucket.entries), endIterator) := by
  intro fuelL fuel' fuel hL hF hf
  rcases t.nextFilledBucketLoop_cases fuel' idx hF with
    ⟨hend, -, hnil⟩ | ⟨j, hij, hj, hfill, hloop, heq⟩
  · rw [hnil] at hf ⊢
    rw [hend, nextUnmatchedLoop_endIterator, ok_bind]
    exact t.walkUnmatched_endIterator hf
  · obtain ⟨fuelL, rfl⟩ : ∃ f, fuelL = f + 1 := ⟨fuelL - 1, by omega⟩
    rw [heq, flatMap_drop_buckets t _ hj, unmatchedRows_append] at hf ⊢
    rw [hloop]
    refine walk_nextUnmatchedLoop_filled t hwf hj hfill (fun fuelL hL' fuel hf' => ?_) (by omega) hf
    rw [nextFilledBucket_natCast]
    exact walk_nextUnmatchedLoop (j + 1) fuelL t.numBuckets fuel hL' (by omega) hf'
termination_by t.numBuckets - idx

/-- `FirstUnmatched` on a well-formed table with a filled bucket, and the walk after it, read
only buckets and nodes that exist and visit the table's unmatched entries, each once, in the
order of the `Begin`/`Next` walk. -/
theorem walk_firstUnmatched (hfilled : ∃ i < t.numBuckets, (t.bucketAt i).filled = true)
    {fuel : Nat} (hf : (unmatchedRows t.storedEntries).length < fuel) :
    (t.firstUnmatched >>= t.walkUnmatched fuel) = .ok (unmatchedRows t.storedEntries, endIterator) := by
  rcases t.nextFilledBucketLoop_cases t.numBuckets 0 (by omega) with
    ⟨-, hempty, -⟩ | ⟨j, -, hj, hfill, hit, heq⟩
  · obtain ⟨i, hi, hfi⟩ := hfilled
    exact absurd (hempty i (Nat.zero_le _) hi) (by simp [hfi])
  have hs : t.storedEntries =
      (t.bucketAt j).entries ++ (t.buckets.drop (j + 1)).flatMap Bucket.entries := by
    rw [storedEntries, ← flatMap_drop_buckets t Bucket.entries hj, ← heq, List.drop_zero]
  have hnext : ∀ fuel,
      (unmatchedRows ((t.buckets.drop (j + 1)).flatMap Bucket.entries)).length < fuel →
      (t.nextUnmatchedLoop (t.numBuckets + 1) (t.nextFilledBucket j) >>= t.walkUnmatched fuel) =
        .ok (unmatchedRows ((t.buckets.drop (j + 1)).flatMap Bucket.entries), endIterator) := by
    intro fuel hf
    rw [nextFilledBucket_natCast]
    exact walk_nextUnmatchedLoop t hwf (j + 1) _ t.numBuckets fuel (by omega) (by omega) hf
  have hit' : t.nextFilledBucket bucketNotFound =
      ⟨j, if t.storesDuplicates then (t.bucketAt j).bucketData.duplicatesPtr else none⟩ := hit
  have hwfj := hwf _ (bucketAt_mem hj)
  rw [hs, unmatchedRows_append] at hf ⊢
  simp only [firstUnmatched, hit', bucketRef_natCast t hj, ok_bind]
  cases hdup : (t.bucketAt j).hasDuplicates with
  | false =>
      obtain ⟨row, hrow⟩ := hwfj.inline hfill hdup
      rw [Bucket.entries_of_inline hfill hdup hrow] at hf ⊢
      simp only [Bool.and_false, Bool.false_eq_true, if_false, pure_eq_ok, ok_bind]
      cases hm : (t.bucketAt j).matched
      · simp only [unmatchedRows_cons, unmatchedRows_nil, hm, Bool.false_eq_true, if_false,
          List.singleton_append, List.length_cons, pure_eq_ok, ok_bind] at hf ⊢
        exact walk_unmatched_inline t hj hdup hrow hnext _ hf
      · simp only [unmatchedRows_cons, unmatchedRows_nil, hm, if_true, List.nil_append] at hf ⊢
        rw [nextUnmatched_inline t hj (by simp [hdup])]
        exact hnext fuel hf
  | true =>
      obtain ⟨hsd, -, hlen⟩ := hwfj.chain hdup
      have h0 : 0 < (t.bucketAt j).getDuplicate.length := by omega
      rw [Bucket.entries_of_chain hfill hdup] at hf ⊢
      simp only [hsd, hdup, Bool.and_self, if_true, Bucket.duplicatesPtr_of_length_pos h0,
        nodeRef_of_lt h0, ok_bind, pure_eq_ok]
      have hd0 : unmatchedRows (t.bucketAt j).getDuplicate =
          unmatchedRows ((t.bucketAt j).getDuplicate.drop 0) := by
        rw [List.drop_zero]
      rw [hd0] at hf ⊢
      cases hm : (t.bucketAt j).getDuplicate[0].matched
      · simp only [Bool.false_eq_true, if_false, pure_eq_ok, ok_bind]
        exact walk_unmatched_chain_node t hj rfl hsd hdup hnext h0 hm hf
      · simp only [if_true]
        rw [unmatchedRows_drop_of_matched h0 hm] at hf ⊢
        exact walk_nextUnmatched_chain t hj rfl hsd hdup hnext fuel 0 h0 hf

end Filled

/-! ## A table with no filled bucket -/

omit [Inhabited Row] in
/-- With no filled bucket `NextFilledBucket` leaves `bucket_idx` at `BUCKET_NOT_FOUND`, and
`FirstUnmatched` reads `buckets_[-1]` before it could return an iterator at the end. -/
theorem firstUnmatched_reads_before_buckets
    (h : ∀ i < t.numBuckets, (t.bucketAt i).filled = false) :
    t.firstUnmatched = .error (.bucketIndex bucketNotFound) := by
  rcases t.nextFilledBucketLoop_cases t.numBuckets 0 (by omega) with
    ⟨hend, -⟩ | ⟨j, -, hj, hfill, -⟩
  · have hit : t.nextFilledBucket bucketNotFound = endIterator := hend
    simp only [firstUnmatched, hit]
    rfl
  · exact absurd (h j hj) (by simp [hfill])

/-- `FirstUnmatched` on the empty table `Init` builds: a partition whose build side produced
no rows. -/
theorem firstUnmatched_init_reads_before_buckets :
    Reachable natCtx (HashTable.init true true 1) [] ∧
      (∀ i < (HashTable.init true true 1 : HashTable Nat).numBuckets,
        ((HashTable.init true true 1 : HashTable Nat).bucketAt i).filled = false) ∧
      (HashTable.init true true 1 : HashTable Nat).firstUnmatched =
        .error (.bucketIndex bucketNotFound) :=
  ⟨.init true true 1, by decide, firstUnmatched_reads_before_buckets _ (by decide)⟩

/-! ## The walk after a probe phase -/

/-- After any sequence of `SetMatched` calls that reads only buckets and nodes that exist, the
walk `it = FirstUnmatched(ctx); while (!it.AtEnd()) it.NextUnmatched()` over a reachable table
with a filled bucket ends at `End()` and visits the rows of the entries whose flag is clear, each
once, in the order of the `Begin`/`Next` walk over the same table; and the table stores the
rows it stored before the flags were set. -/
theorem walk_unmatched_after_setMatched {V : Type} {ctx : HashTableCtx Row V} {rows : List Row}
    {its : List Iterator} {t' : HashTable Row} (h : Reachable ctx t rows)
    (hset : t.setMatchedAll its = .ok t')
    (hfilled : ∃ i < t.numBuckets, (t.bucketAt i).filled = true) :
    (∀ fuel, (unmatchedRows t'.storedEntries).length < fuel →
      (t'.firstUnmatched >>= t'.walkUnmatched fuel) =
        .ok (unmatchedRows t'.storedEntries, endIterator)) ∧
    (∀ fuel, t'.storedRows.length < fuel →
      t'.walk (next t') fuel t'.begin = (t'.storedEntries.map (·.htdata), endIterator)) ∧
    t'.storedRows = t.storedRows := by
  have hr := setMatchedAll_remarked hset
  have hwf := hr.wellFormed h.bookkeeping.wellFormed
  obtain ⟨i, hi, hfi⟩ := hfilled
  refine ⟨fun fuel hf => t'.walk_firstUnmatched hwf
      ⟨i, hr.numBuckets ▸ hi, (hr.bucketAt i).filled.trans hfi⟩ hf,
    fun fuel hf => ?_, hr.storedRows⟩
  rw [map_htdata_storedEntries]
  exact walk_nextFilledBucketLoop t' hwf t'.numBuckets 0 t'.numBuckets fuel (by omega) (by omega) hf

/-- Two rows of one key in a two-bucket table, the chain's head flagged matched. -/
theorem walk_unmatched_after_one_match :
    ∃ t t' : HashTable Nat, Reachable natCtx t [7, 7] ∧ t.setMatchedAll [⟨0, some 0⟩] = .ok t' ∧
      (∃ i < t.numBuckets, (t.bucketAt i).filled = true) ∧
      (∀ fuel, (unmatchedRows t'.storedEntries).length < fuel →
        (t'.firstUnmatched >>= t'.walkUnmatched fuel) =
          .ok (unmatchedRows t'.storedEntries, endIterator)) ∧
      (∀ fuel, t'.storedRows.length < fuel →
        t'.walk (next t') fuel t'.begin = (t'.storedEntries.map (·.htdata), endIterator)) ∧
      t'.storedRows = t.storedRows := by
  obtain ⟨t1, t, t', h1, h2, h3, hn, hfill⟩ : ∃ t1 t t' : HashTable Nat,
      (HashTable.init true true 1).insert natCtx ⟨[some 7], 0⟩ 7 none = some (true, t1) ∧
      t1.insert natCtx ⟨[some 7], 0⟩ 7 (some ⟨2, le_rfl⟩) = some (true, t) ∧
      t.setMatchedAll [⟨0, some 0⟩] = .ok t' ∧ 0 < t.numBuckets ∧ (t.bucketAt 0).filled = true :=
    ⟨_, _, _, rfl, rfl, rfl, by decide, rfl⟩
  have hc : natCtx.evalAndHashBuild 7 = some ⟨[some 7], 0⟩ := rfl
  have h : Reachable natCtx t [7, 7] := .insert (.insert (.init true true 1) hc h1) hc h2
  exact ⟨t, t', h, h3, ⟨0, hn, hfill⟩, walk_unmatched_after_setMatched t h h3 ⟨0, hn, hfill⟩⟩

end HashTable

end Impala.Exec
