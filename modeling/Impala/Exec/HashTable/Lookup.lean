import Impala.Exec.HashTable.Iterator

/-! # Lookups in reachable tables

`FindProbeRow` and `FindBuildRowBucket` on a table built by the two insertion paths. When
`Equals<true>` is an equivalence on the tuples of one value per expression and `HashRow`
respects it, every history keeps four facts: a stored row hashes to its bucket's stored
hash, the rows of one bucket are equal, two buckets with one stored hash hold no equal rows,
and a filled bucket lies on its hash's probe sequence behind filled buckets only. A probe for
the values of a stored row therefore stops at that row's bucket, which holds exactly the
rows equal to it.
-/

namespace Impala.Exec

variable {Row V : Type}

namespace HashTableCtx

variable (ctx : HashTableCtx Row V)

/-- `Equals<true>` between the expression values of two rows. -/
def rowsEqual (r r' : Row) : Bool :=
  valuesEqual ctx.rawEq true (ctx.buildExprValues r) (ctx.buildExprValues r')

/-- `Equals<true>` is an equivalence on the tuples of one value per expression, and
`HashRow` gives equal tuples equal hashes. -/
structure EqualsLaws : Prop where
  equivalence : Equivalence fun v w : {v : List (Option V) // v.length = ctx.numExprs} =>
    valuesEqual ctx.rawEq true v.1 w.1 = true
  hashRow_eq : ∀ v w : {v : List (Option V) // v.length = ctx.numExprs},
    valuesEqual ctx.rawEq true v.1 w.1 = true → ctx.hashRow v.1 = ctx.hashRow w.1

theorem evalAndHashBuild_eq_some {row : Row} {cur : ExprValues V}
    (h : ctx.evalAndHashBuild row = some cur) :
    cur = ⟨ctx.buildExprValues row, ctx.hashRow (ctx.buildExprValues row)⟩ := by
  unfold evalAndHashBuild at h
  dsimp only at h
  split at h
  · cases h
  · exact (Option.some.inj h).symm

theorem evalAndHashProbe_eq_some {values : List (Option V)} {cur : ExprValues V}
    (h : ctx.evalAndHashProbe values = some cur) : cur = ⟨values, ctx.hashRow values⟩ := by
  unfold evalAndHashProbe at h
  split at h
  · cases h
  · exact (Option.some.inj h).symm

variable {ctx} (hl : ctx.EqualsLaws) {r r' r'' : Row}
include hl

theorem EqualsLaws.rowsEqual_refl (r : Row) : ctx.rowsEqual r r = true :=
  hl.equivalence.refl ⟨_, ctx.buildExprValues_length r⟩

theorem EqualsLaws.rowsEqual_symm (h : ctx.rowsEqual r r' = true) : ctx.rowsEqual r' r = true :=
  @Equivalence.symm _ _ hl.equivalence ⟨_, ctx.buildExprValues_length r⟩
    ⟨_, ctx.buildExprValues_length r'⟩ h

theorem EqualsLaws.rowsEqual_trans (h : ctx.rowsEqual r r' = true)
    (h' : ctx.rowsEqual r' r'' = true) : ctx.rowsEqual r r'' = true :=
  @Equivalence.trans _ _ hl.equivalence ⟨_, ctx.buildExprValues_length r⟩
    ⟨_, ctx.buildExprValues_length r'⟩ ⟨_, ctx.buildExprValues_length r''⟩ h h'

variable {cur : ExprValues V} (hcur : cur.values.length = ctx.numExprs)
include hcur

theorem EqualsLaws.equals_of_rowsEqual (h : ctx.equals true r cur = true)
    (h' : ctx.rowsEqual r r' = true) : ctx.equals true r' cur = true :=
  @Equivalence.trans _ _ hl.equivalence ⟨_, hcur⟩ ⟨_, ctx.buildExprValues_length r⟩
    ⟨_, ctx.buildExprValues_length r'⟩ h h'

theorem EqualsLaws.rowsEqual_of_equals (h : ctx.equals true r cur = true)
    (h' : ctx.equals true r' cur = true) : ctx.rowsEqual r r' = true :=
  @Equivalence.trans _ _ hl.equivalence ⟨_, ctx.buildExprValues_length r⟩ ⟨_, hcur⟩
    ⟨_, ctx.buildExprValues_length r'⟩
    (@Equivalence.symm _ _ hl.equivalence ⟨_, hcur⟩ ⟨_, ctx.buildExprValues_length r⟩ h) h'

theorem EqualsLaws.hashRow_of_equals (h : ctx.equals true r cur = true) :
    ctx.hashRow cur.values = ctx.hashRow (ctx.buildExprValues r) :=
  hl.hashRow_eq ⟨_, hcur⟩ ⟨_, ctx.buildExprValues_length r⟩ h

end HashTableCtx

theorem Bucket.filled_of_mem_rows {b : Bucket Row} {r : Row} (h : r ∈ b.rows) :
    b.filled = true := by
  unfold Bucket.rows at h
  split at h
  · assumption
  · cases h

namespace HashTable

open Iterator

variable [Inhabited Row] (ctx : HashTableCtx Row V) (t : HashTable Row)

/-- What lookups rely on: each stored row hashes to its bucket's stored hash, a bucket's
rows are equal, two buckets with one stored hash hold no equal rows, and a filled bucket
is on the probe sequence of its hash, behind filled buckets only. -/
structure LookupInv : Prop where
  hash : ∀ i, ∀ r ∈ (t.bucketAt i).rows, ctx.hashRow (ctx.buildExprValues r) = t.hashAt i
  homogeneous : ∀ i, ∀ r ∈ (t.bucketAt i).rows, ∀ r' ∈ (t.bucketAt i).rows,
    ctx.rowsEqual r r' = true
  unique : ∀ i k, i ≠ k → t.hashAt i = t.hashAt k →
    ∀ r ∈ (t.bucketAt i).rows, ∀ r' ∈ (t.bucketAt k).rows, ctx.rowsEqual r r' = false
  noHoles : ∀ i, (t.bucketAt i).filled = true → ∃ j < t.numBuckets,
    t.probeIdx (t.hashAt i).toNat j = i ∧
      ∀ j' < j, (t.bucketAt (t.probeIdx (t.hashAt i).toNat j')).filled = true

variable {t}

omit [Inhabited Row] in
theorem lt_of_filled {i : Nat} (h : (t.bucketAt i).filled = true) : i < t.numBuckets := by
  by_contra hi
  rw [bucketAt, List.getD_eq_default _ _ (by rw [t.buckets_length]; omega)] at h
  cases h

theorem headRow_mem_rows {b : Bucket Row} (hb : b.WellFormed t.storesDuplicates)
    (hf : b.filled = true) : t.headRow b ∈ b.rows := by
  unfold headRow Bucket.rows
  cases hd : b.hasDuplicates
  · obtain ⟨r, hr⟩ := hb.inline hf hd
    simp [hf, hr, BucketData.htdataOr]
  · obtain ⟨hsd, -, hlen⟩ := hb.chain hd
    match hc : b.getDuplicate, hlen with
    | node :: _, _ => simp [hf, hsd, hc]

omit [Inhabited Row] in
theorem lookupInv_init (quadraticProbing storesDuplicates : Bool) (k : Nat) :
    (HashTable.init quadraticProbing storesDuplicates k : HashTable Row).LookupInv ctx := by
  have h : ∀ i, (HashTable.init quadraticProbing storesDuplicates k : HashTable Row).bucketAt i =
      Bucket.empty := fun i => by
    simp only [bucketAt, HashTable.init, List.getD_eq_getElem?_getD, List.getElem?_replicate]
    split <;> rfl
  exact ⟨by simp [h], by simp [h], by simp [h], by simp [h]⟩

/-! ## Inserting keeps the invariant -/

section Preserve

variable {ctx} {t' : HashTable Row} {i : Nat} {row : Row}

/-- Where a probe that returned bucket `i` stopped. -/
theorem ProbeStop.of_bucketIdx {eq : Row → Bool} {hash : UInt32} {r : ProbeResult Row}
    (h : t.ProbeStop eq hash r) (hi : r.bucketIdx = i) :
    ∃ j < t.numBuckets, (∀ j' < j, t.Passes eq hash (t.probeIdx hash.toNat j')) ∧
      t.probeIdx hash.toNat j = i ∧
      ((t.bucketAt i).filled = false ∧ r.found = false ∨
        r.found = true ∧ (t.bucketAt i).filled = true ∧ hash = t.hashAt i ∧
          eq (t.headRow (t.bucketAt i)) = true) := by
  rcases h with ⟨j, hj, hpass, hidx, hcase⟩ | ⟨hnf, -, -⟩
  · obtain rfl : t.probeIdx hash.toNat j = i := by omega
    exact ⟨j, hj, hpass, rfl, hcase.imp id fun ⟨a, b, c, d, _⟩ => ⟨a, b, c, d⟩⟩
  · exact absurd (hi.symm.trans hnf) (natCast_ne_bucketNotFound i)

omit [Inhabited Row] in
/-- Setting bucket `i` to a filled bucket that holds `row` before the rows it held keeps
the invariant when `row` hashes to the bucket's new stored hash, equals the rows it joins and
no row of another bucket under that hash, and bucket `i` lies on that hash's probe sequence
behind filled buckets only. -/
theorem LookupInv.of_setBucket (hl : ctx.EqualsLaws) (hinv : t.LookupInv ctx) {b : Bucket Row}
    {hash : UInt32} (hb : ∀ k, t'.bucketAt k = if i = k then b else t.bucketAt k)
    (hh : ∀ k, t'.hashAt k = if i = k then hash else t.hashAt k)
    (hN : t'.numBuckets = t.numBuckets) (hq : t'.quadraticProbing = t.quadraticProbing)
    (hbf : b.filled = true) (hrows : b.rows = row :: (t.bucketAt i).rows)
    (hrowHash : ctx.hashRow (ctx.buildExprValues row) = hash)
    (hhashOld : (t.bucketAt i).filled = true → t.hashAt i = hash)
    (hrow : ∀ x ∈ (t.bucketAt i).rows, ctx.rowsEqual row x = true)
    (hnew : ∀ k, k ≠ i → t.hashAt k = hash →
      ∀ r' ∈ (t.bucketAt k).rows, ctx.rowsEqual row r' = false)
    (hprobe : ∃ j < t.numBuckets, t.probeIdx hash.toNat j = i ∧
      ∀ j' < j, (t.bucketAt (t.probeIdx hash.toNat j')).filled = true) :
    t'.LookupInv ctx := by
  have hp : ∀ x y, t'.probeIdx x y = t.probeIdx x y := fun x y => by
    simp only [probeIdx, hq, hN]
  have hfilled : ∀ k, (t.bucketAt k).filled = true → (t'.bucketAt k).filled = true :=
    fun k h => by rw [hb]; split <;> simp [hbf, h]
  -- A row of the new bucket equals no row of another bucket under `hash`.
  have hside : ∀ k, k ≠ i → t.hashAt k = hash →
      ∀ r ∈ b.rows, ∀ r' ∈ (t.bucketAt k).rows, ctx.rowsEqual r r' = false := by
    intro k hki hk r hr r' hr'
    rw [hrows, List.mem_cons] at hr
    rcases hr with rfl | hr
    · exact hnew k hki hk r' hr'
    · exact hinv.unique i k hki.symm ((hhashOld (Bucket.filled_of_mem_rows hr)).trans hk.symm)
        r hr r' hr'
  refine ⟨fun k r hr => ?_, fun k r hr r' hr' => ?_, fun k1 k2 hne hhk r hr r' hr' => ?_,
    fun k hk => ?_⟩
  · rw [hb] at hr
    rw [hh]
    split_ifs at hr ⊢ with hik
    · subst hik
      rw [hrows, List.mem_cons] at hr
      rcases hr with rfl | hr
      · exact hrowHash
      · exact (hinv.hash i r hr).trans (hhashOld (Bucket.filled_of_mem_rows hr))
    · exact hinv.hash k r hr
  · rw [hb] at hr hr'
    split_ifs at hr hr' with hik
    · subst hik
      rw [hrows, List.mem_cons] at hr hr'
      rcases hr with rfl | hr <;> rcases hr' with rfl | hr'
      · exact hl.rowsEqual_refl _
      · exact hrow r' hr'
      · exact hl.rowsEqual_symm (hrow r hr)
      · exact hinv.homogeneous i r hr r' hr'
    · exact hinv.homogeneous k r hr r' hr'
  · rw [hb] at hr hr'
    rw [hh, hh] at hhk
    by_cases h1 : i = k1
    · subst h1
      rw [if_pos rfl] at hr hhk
      rw [if_neg hne] at hr' hhk
      exact hside k2 (Ne.symm hne) hhk.symm r hr r' hr'
    · rw [if_neg h1] at hr hhk
      by_cases h2 : i = k2
      · subst h2
        rw [if_pos rfl] at hr' hhk
        exact Bool.eq_false_iff.mpr fun heq => absurd (hl.rowsEqual_symm heq)
          (by rw [hside k1 (Ne.symm h1) hhk r' hr' r hr]; decide)
      · rw [if_neg h2] at hr' hhk
        exact hinv.unique k1 k2 hne hhk r hr r' hr'
  · rw [hh]
    split_ifs with hik
    · subst hik
      obtain ⟨j, hj, hpj, hpre⟩ := hprobe
      exact ⟨j, hN ▸ hj, (hp _ _).trans hpj,
        fun j' hj' => (hp _ _).symm ▸ hfilled _ (hpre j' hj')⟩
    · rw [hb, if_neg hik] at hk
      obtain ⟨jk, hjk, hpk, hpre⟩ := hinv.noHoles k hk
      exact ⟨jk, hN ▸ hjk, (hp _ _).trans hpk,
        fun j' hj' => (hp _ _).symm ▸ hfilled _ (hpre j' hj')⟩

variable (hl : ctx.EqualsLaws) (hinv : t.LookupInv ctx)
  (hwf : ∀ b ∈ t.buckets, b.WellFormed t.storesDuplicates)
include hl hinv hwf

theorem Fills.lookupInv {cur : ExprValues V} (hcur : ctx.evalAndHashBuild row = some cur)
    (hf : t.Fills t' i cur.hash row) {j : Nat} (hjN : j < t.numBuckets)
    (hpass : ∀ j' < j, t.Passes (ctx.equals true · cur) cur.hash (t.probeIdx cur.hash.toNat j'))
    (hj : t.probeIdx cur.hash.toNat j = i) : t'.LookupInv ctx := by
  obtain rfl := ctx.evalAndHashBuild_eq_some hcur
  have hempty : ∀ x, x ∉ (t.bucketAt i).rows := fun x hx => by
    have := hf.empty
    rw [Bucket.filled_of_mem_rows hx] at this
    cases this
  -- The new row equals no row of another bucket under its hash: the probe would have
  -- stopped at that bucket, which lies before the empty bucket `i` on the sequence.
  have hnew : ∀ k, k ≠ i → t.hashAt k = ctx.hashRow (ctx.buildExprValues row) →
      ∀ r' ∈ (t.bucketAt k).rows, ctx.rowsEqual row r' = false := by
    intro k hki hhk r' hr'
    refine Bool.eq_false_iff.mpr fun heq => ?_
    have hkf := Bucket.filled_of_mem_rows hr'
    have hhead : ctx.rowsEqual row (t.headRow (t.bucketAt k)) = true :=
      hl.rowsEqual_trans heq (hinv.homogeneous k r' hr' _
        (headRow_mem_rows (hwf _ (bucketAt_mem (lt_of_filled hkf))) hkf))
    obtain ⟨jk, -, hjk, hpre⟩ := hinv.noHoles k hkf
    rw [hhk] at hjk hpre
    rcases Nat.lt_trichotomy jk j with hlt | rfl | hlt
    · have hpk := (hpass jk hlt).2
      rw [hjk] at hpk
      exact hpk ⟨hhk.symm, hhead⟩
    · exact hki (hjk.symm.trans hj)
    · have := hpre j hlt
      rw [hj, hf.empty] at this
      cases this
  exact hinv.of_setBucket hl (t.bucketAt_of_buckets hf.lt hf.buckets)
    (t.hashAt_of_hashArray hf.lt hf.hashArray) hf.numBuckets hf.quadraticProbing rfl
    (by rw [Bucket.fill_rows, List.eq_nil_iff_forall_not_mem.mpr hempty]) rfl
    (fun h => absurd (hf.empty ▸ h) Bool.false_ne_true) (fun x hx => absurd hx (hempty x)) hnew
    ⟨j, hjN, hj, fun j' hj' => (hpass j' hj').1⟩

theorem LinksDuplicate.lookupInv {cur : ExprValues V}
    (hcur : ctx.evalAndHashBuild row = some cur) (hlk : t.LinksDuplicate t' i row)
    (hhash : cur.hash = t.hashAt i)
    (hmatch : ctx.equals true (t.headRow (t.bucketAt i)) cur = true) : t'.LookupInv ctx := by
  obtain rfl := ctx.evalAndHashBuild_eq_some hcur
  have hhead := headRow_mem_rows (hwf _ (bucketAt_mem hlk.lt)) hlk.filled
  -- The new row equals the rows of bucket `i`, so it behaves as that bucket's head does.
  have hunique : ∀ k, k ≠ i → t.hashAt k = t.hashAt i →
      ∀ r' ∈ (t.bucketAt k).rows, ctx.rowsEqual row r' = false := by
    intro k hki hhk r' hr'
    refine Bool.eq_false_iff.mpr fun heq => ?_
    have := hinv.unique i k hki.symm hhk.symm _ hhead r' hr'
    rw [hl.rowsEqual_trans (hl.rowsEqual_symm hmatch) heq] at this
    cases this
  exact hinv.of_setBucket hl (t.bucketAt_of_buckets hlk.lt hlk.buckets)
    (fun k => by split_ifs with h <;> simp only [hashAt, hlk.hashArray, h])
    hlk.numBuckets hlk.quadraticProbing (by simp [hlk.filled])
    (Bucket.rows_withDuplicate row (hwf _ (bucketAt_mem hlk.lt)) hlk.filled) hhash
    (fun _ => rfl) (fun x hx => hl.rowsEqual_trans hmatch (hinv.homogeneous i _ hhead x hx))
    hunique (hinv.noHoles i hlk.filled)

end Preserve

variable {ctx} {rows : List Row}

theorem Reachable.lookupInv (hl : ctx.EqualsLaws) (h : Reachable ctx t rows) :
    t.LookupInv ctx := by
  induction h with
  | init q s k => exact lookupInv_init ctx q s k
  | @insert t t' rows row cur alloc ok hr hev hi ih =>
      have hwf := hr.bookkeeping.wellFormed
      rcases insert_spec t ctx cur hi with ⟨-, rfl⟩ | ⟨-, i, hidx, ⟨-, hf⟩ | ⟨hfound, hlk⟩⟩
      · exact ih
      · obtain ⟨j, hj, hpass, hpj, -⟩ := (t.probe_spec true ctx cur).of_bucketIdx hidx
        exact hf.lookupInv hl ih hwf hev hj hpass hpj
      · obtain ⟨-, -, -, -, ⟨-, hnf⟩ | ⟨-, -, hhash, hmatch⟩⟩ :=
          (t.probe_spec true ctx cur).of_bucketIdx hidx
        · rw [hnf] at hfound; cases hfound
        · exact hlk.lookupInv hl ih hwf hev hhash hmatch
  | @setTuple t t' rows row cur it hr hev hfb hs ih =>
      obtain ⟨i, hidx, -, hf⟩ := setTuple_spec t ctx cur hfb hs
      obtain ⟨j, hj, hpass, hpj, -⟩ := (t.probe_spec true ctx cur).of_bucketIdx hidx
      exact hf.lookupInv hl ih hr.bookkeeping.wellFormed hev hj hpass hpj

omit [Inhabited Row] in
theorem mem_storedRows {x : Row} : x ∈ t.storedRows ↔ ∃ k, x ∈ (t.bucketAt k).rows := by
  rw [storedRows, List.mem_flatMap]
  constructor
  · rintro ⟨b, hb, hx⟩
    obtain ⟨k, hk, rfl⟩ := List.getElem_of_mem hb
    exact ⟨k, by rwa [bucketAt, List.getD_eq_getElem]⟩
  · rintro ⟨k, hx⟩
    exact ⟨_, bucketAt_mem (lt_of_filled (Bucket.filled_of_mem_rows hx)), hx⟩

omit [Inhabited Row] in
theorem filter_flatMap_drop_rows {p : Row → Bool} {k : Nat} (hk : k < t.numBuckets)
    (hother : ∀ x, x ≠ k → (t.bucketAt x).rows.filter p = []) :
    ∀ d idx, t.numBuckets = idx + d →
      ((t.buckets.drop idx).flatMap Bucket.rows).filter p =
        if idx ≤ k then (t.bucketAt k).rows.filter p else []
  | 0, idx, hd => by
      rw [List.drop_eq_nil_of_le (by rw [t.buckets_length]; omega), if_neg (by omega)]
      rfl
  | d + 1, idx, hd => by
      rw [flatMap_drop_buckets t Bucket.rows (by omega), List.filter_append,
        filter_flatMap_drop_rows hk hother d (idx + 1) (by omega)]
      by_cases hik : idx = k
      · subst hik
        simp
      · have h : idx + 1 ≤ k ↔ idx ≤ k := by omega
        rw [hother idx hik, List.nil_append]
        simp only [h]

variable (t) (ctx) in
/-- On probe values without NULL, `FindProbeRow`'s `Probe<false>` compares as `Equals<true>`. -/
theorem probeStop_probe_false {cur : ExprValues V} (hnull : ∀ v ∈ cur.values, v.isSome) :
    t.ProbeStop (ctx.equals true · cur) cur.hash (t.probe false ctx cur) := by
  have heq : (ctx.equals false · cur) = (ctx.equals true · cur) :=
    funext fun x => valuesEqual_of_no_null _ _ _ hnull
  exact heq ▸ t.probe_spec false ctx cur

theorem findProbeRow_atEnd {cur : ExprValues V} :
    (t.findProbeRow ctx cur).atEnd = false ↔ (t.probe false ctx cur).found = true := by
  unfold findProbeRow
  rcases t.probe_spec false ctx cur with ⟨j, -, -, hidx, ⟨-, hnf⟩ | ⟨hf, -⟩⟩ | ⟨-, hnf, -⟩
  · simp [hnf]
  · simp [hf, hidx]
  · simp [hnf]

/-! ## What a probe finds -/

section Find

variable {cur : ExprValues V} {r : ProbeResult Row}
  (hwf : ∀ b ∈ t.buckets, b.WellFormed t.storesDuplicates)
include hwf

theorem ProbeStop.exists_of_found (hp : t.ProbeStop (ctx.equals true · cur) cur.hash r)
    (hfound : r.found = true) : ∃ k, ∃ x ∈ (t.bucketAt k).rows, ctx.equals true x cur = true := by
  rcases hp with ⟨j, -, -, -, ⟨-, hnf⟩ | ⟨-, hfill, -, hm, -⟩⟩ | ⟨-, hnf, -⟩
  · rw [hnf] at hfound; cases hfound
  · exact ⟨_, _, headRow_mem_rows (hwf _ (bucketAt_mem (lt_of_filled hfill))) hfill, hm⟩
  · rw [hnf] at hfound; cases hfound

variable (hl : ctx.EqualsLaws) (hinv : t.LookupInv ctx)
  (hlen : cur.values.length = ctx.numExprs) (hhash : cur.hash = ctx.hashRow cur.values)
include hl hinv hlen hhash

section Mem

variable {k : Nat} {x : Row} (hx : x ∈ (t.bucketAt k).rows) (hxm : ctx.equals true x cur = true)
include hx hxm

/-- A probe for the values of a stored row stops, found, at that row's bucket: the bucket is
on the probe sequence behind filled buckets only, and no other bucket under the same hash
holds an equal row. -/
theorem ProbeStop.found_of_mem (hp : t.ProbeStop (ctx.equals true · cur) cur.hash r) :
    r.found = true ∧ r.bucketIdx = k ∧ r.bd = (t.bucketAt k).bucketData := by
  have hkf := Bucket.filled_of_mem_rows hx
  have hhk : cur.hash = t.hashAt k := by
    rw [hhash, hl.hashRow_of_equals hlen hxm, hinv.hash k x hx]
  have hheadk : ctx.equals true (t.headRow (t.bucketAt k)) cur = true :=
    hl.equals_of_rowsEqual hlen hxm (hinv.homogeneous k x hx _
      (headRow_mem_rows (hwf _ (bucketAt_mem (lt_of_filled hkf))) hkf))
  obtain ⟨jk, hjk, hpk, hpre⟩ := hinv.noHoles k hkf
  rw [← hhk] at hpk hpre
  have hnpass : ¬ t.Passes (ctx.equals true · cur) cur.hash (t.probeIdx cur.hash.toNat jk) := by
    rw [hpk]; exact fun h => h.2 ⟨hhk, hheadk⟩
  rcases hp with ⟨j, -, hpass, hidx, ⟨hempty, -⟩ | ⟨hfound, hfill, hh, hm, hbd⟩⟩ | ⟨-, -, hall⟩
  · rcases Nat.lt_trichotomy j jk with hlt | rfl | hlt
    · rw [hpre j hlt] at hempty; cases hempty
    · rw [hpk, hkf] at hempty; cases hempty
    · exact absurd (hpass jk hlt) hnpass
  · obtain rfl : t.probeIdx cur.hash.toNat j = k := by
      by_contra hne
      have hu := hinv.unique _ k hne (hh.symm.trans hhk) _
        (headRow_mem_rows (hwf _ (bucketAt_mem (lt_of_filled hfill))) hfill) x hx
      rw [hl.rowsEqual_of_equals hlen hm hxm] at hu
      cases hu
    exact ⟨hfound, hidx, hbd⟩
  · exact absurd (hall jk hjk) hnpass

omit hwf hhash in
omit [Inhabited Row] in
/-- The rows stored equal to the values of a stored row are the rows of its bucket. -/
theorem filter_storedRows :
    t.storedRows.filter (ctx.equals true · cur) = (t.bucketAt k).rows := by
  have hother : ∀ k', k' ≠ k → (t.bucketAt k').rows.filter (ctx.equals true · cur) = [] := by
    intro k' hne
    refine List.filter_eq_nil_iff.mpr fun y hy hym => ?_
    have hhy : t.hashAt k' = t.hashAt k := by
      rw [← hinv.hash k' y hy, ← hl.hashRow_of_equals hlen hym, hl.hashRow_of_equals hlen hxm,
        hinv.hash k x hx]
    have hu := hinv.unique k' k hne hhy y hy x hx
    rw [hl.rowsEqual_of_equals hlen hym hxm] at hu
    cases hu
  have h := filter_flatMap_drop_rows (lt_of_filled (Bucket.filled_of_mem_rows hx)) hother
    t.numBuckets 0 (by omega)
  rwa [if_pos (Nat.zero_le _), List.filter_eq_self.mpr fun y hy =>
    hl.equals_of_rowsEqual hlen hxm (hinv.homogeneous k x hx y hy)] at h

/-- `NextDuplicate` from the iterator `FindProbeRow` returns for a probe without NULLs visits
the rows of the bucket the probe found. -/
theorem walk_findProbeRow (hnull : ∀ v ∈ cur.values, v.isSome) {fuel : Nat}
    (hfuel : t.storedRows.length < fuel) :
    t.walk (nextDuplicate t) fuel (t.findProbeRow ctx cur) = ((t.bucketAt k).rows, endIterator) := by
  obtain ⟨hf, hidx, hbd⟩ :=
    (probeStop_probe_false ctx t hnull).found_of_mem hwf hl hinv hlen hhash hx hxm
  have hkf := Bucket.filled_of_mem_rows hx
  have hfind : t.findProbeRow ctx cur =
      ⟨k, if t.storesDuplicates then (t.bucketAt k).bucketData.duplicatesPtr else none⟩ := by
    simp only [findProbeRow, hf, if_true, hidx, hbd]
  have hlt : ((t.bucketAt k).rows ++ []).length < fuel := by
    rw [List.append_nil, ← filter_storedRows hl hinv hlen hx hxm]
    exact lt_of_le_of_lt (List.length_filter_le _ _) hfuel
  rw [hfind, ← List.append_nil (t.bucketAt k).rows]
  exact walk_filled t (hwf _ (bucketAt_mem (lt_of_filled hkf))) hkf (nextDuplicate_inline t)
    (nextDuplicate_chain t rfl) (fun _ h => walk_endIterator t h) hlt

end Mem

theorem ProbeStop.found_iff {rows : List Row} (hbk : t.storedRows.Perm rows)
    (hp : t.ProbeStop (ctx.equals true · cur) cur.hash r) :
    r.found = true ↔ ∃ x ∈ rows, ctx.equals true x cur = true := by
  constructor
  · intro hf
    obtain ⟨k, x, hx, hxm⟩ := hp.exists_of_found hwf hf
    exact ⟨x, hbk.mem_iff.mp (mem_storedRows.mpr ⟨k, hx⟩), hxm⟩
  · rintro ⟨x, hx, hxm⟩
    obtain ⟨k, hx⟩ := mem_storedRows.mp (hbk.mem_iff.mpr hx)
    exact (hp.found_of_mem hwf hl hinv hlen hhash hx hxm).1

end Find

/-! ## Lookups -/

theorem reachable_lookup (hl : ctx.EqualsLaws) (h : Reachable ctx t rows) :
    (∀ i k, i ≠ k → t.hashAt i = t.hashAt k → ∀ r ∈ (t.bucketAt i).rows,
      ∀ r' ∈ (t.bucketAt k).rows, ctx.rowsEqual r r' = false) ∧
    (∀ (values : List (Option V)) (cur : ExprValues V), values.length = ctx.numExprs →
      (∀ v ∈ values, v.isSome) → ctx.evalAndHashProbe values = some cur →
      ((t.findProbeRow ctx cur).atEnd = false ↔ ∃ r ∈ rows, ctx.equals true r cur = true) ∧
      ∀ fuel, rows.length < fuel →
        (t.walk (nextDuplicate t) fuel (t.findProbeRow ctx cur)).1.Perm
          (rows.filter (ctx.equals true · cur))) ∧
    ∀ (row : Row) (cur : ExprValues V), ctx.evalAndHashBuild row = some cur →
      ((t.findBuildRowBucket ctx cur).2 = true ↔ ∃ r ∈ rows, ctx.equals true r cur = true) := by
  have hbk := h.bookkeeping
  have hinv := h.lookupInv hl
  refine ⟨hinv.unique, fun values cur hlen hnull hcur => ?_, fun row cur hcur => ?_⟩
  · have hc := ctx.evalAndHashProbe_eq_some hcur
    have hlen : cur.values.length = ctx.numExprs := by rw [hc]; exact hlen
    have hhash : cur.hash = ctx.hashRow cur.values := by rw [hc]
    have hnull : ∀ v ∈ cur.values, v.isSome := by rw [hc]; exact hnull
    have hiff := (probeStop_probe_false ctx t hnull).found_iff hbk.wellFormed hl hinv hlen hhash
      hbk.storedRows
    refine ⟨findProbeRow_atEnd.trans hiff, fun fuel hfuel => ?_⟩
    by_cases hm : ∃ x ∈ rows, ctx.equals true x cur = true
    · obtain ⟨x, hx, hxm⟩ := hm
      obtain ⟨k, hxk⟩ := mem_storedRows.mp (hbk.storedRows.mem_iff.mpr hx)
      rw [walk_findProbeRow hbk.wellFormed hl hinv hlen hhash hxk hxm hnull
          (hbk.storedRows.length_eq ▸ hfuel),
        ← filter_storedRows hl hinv hlen hxk hxm]
      exact hbk.storedRows.filter _
    · have hnf : (t.probe false ctx cur).found = false :=
        Bool.eq_false_iff.mpr fun hf => hm (hiff.mp hf)
      have hend : t.findProbeRow ctx cur = endIterator := by simp [findProbeRow, hnf]
      rw [hend, walk_endIterator t (by omega),
        List.filter_eq_nil_iff.mpr fun x hx hxm => hm ⟨x, hx, hxm⟩]
  · have hc := ctx.evalAndHashBuild_eq_some hcur
    have hlen : cur.values.length = ctx.numExprs := by rw [hc]; exact ctx.buildExprValues_length row
    have hhash : cur.hash = ctx.hashRow cur.values := by rw [hc]
    exact (t.probe_spec true ctx cur).found_iff hbk.wellFormed hl hinv hlen hhash hbk.storedRows

/-- With `RawValue::Eq` a lawful `==`, inclusive equality of tuples of one length is
equality. -/
theorem valuesEqual_beq_iff {W : Type} [BEq W] [LawfulBEq W] :
    ∀ v w : List (Option W), v.length = w.length → (valuesEqual (· == ·) true v w = true ↔ v = w)
  | [], [], _ => by simp [valuesEqual]
  | x :: v, y :: w, h => by
      have ih := valuesEqual_beq_iff v w (by simpa using h)
      cases x <;> cases y <;> simp [valuesEqual, ih]
  | [], _ :: _, h | _ :: _, [], h => by simp at h

theorem natCtx_equalsLaws : natCtx.EqualsLaws where
  equivalence := by
    have h : ∀ v w : {v : List (Option Nat) // v.length = natCtx.numExprs},
        valuesEqual natCtx.rawEq true v.1 w.1 = true ↔ v = w := fun v w =>
      (valuesEqual_beq_iff v.1 w.1 (v.2.trans w.2.symm)).trans Subtype.ext_iff.symm
    simp only [h]
    exact ⟨fun _ => rfl, fun h => h.symm, fun h h' => h.trans h'⟩
  hashRow_eq _ _ _ := rfl

/-- In the four-row table a probe for `7` finds its chain, and the walk along the chain
returns both `7`s; a build row `4` matches nothing. -/
theorem lookup_fourRows :
    (fourRows.findProbeRow natCtx ⟨[some 7], 0⟩).atEnd = false ∧
      (fourRows.walk (nextDuplicate fourRows) 5
        (fourRows.findProbeRow natCtx ⟨[some 7], 0⟩)).1.Perm [7, 7] ∧
      (fourRows.findBuildRowBucket natCtx ⟨[some 4], 0⟩).2 = false := by
  have h := reachable_lookup natCtx_equalsLaws reachable_fourRows
  have hp := h.2.1 [some 7] ⟨[some 7], 0⟩ rfl (by simp) rfl
  exact ⟨hp.1.mpr ⟨7, by simp, rfl⟩, hp.2 5 (by decide),
    Bool.eq_false_iff.mpr fun hf => absurd ((h.2.2 4 ⟨[some 4], 0⟩ rfl).mp hf) (by decide)⟩

end HashTable

end Impala.Exec
