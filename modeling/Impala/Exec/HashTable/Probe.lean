import Impala.Exec.HashTable.Basic

/-!
# `HashTable::Probe`

The context a probe reads (expression values of the current row, their hash, the equality
of `HashTableCtx::Equals`), the probe loop over linear or quadratic (triangular) steps, and
its specification: the probe stops at the first bucket of its sequence that is empty or holds
a matching row, and returns `BUCKET_NOT_FOUND` only after passing all `num_buckets_`
buckets. For a power-of-two table both sequences visit every bucket.
-/

namespace Impala.Exec

/-- What probing reads of a `HashTableCtx`. `buildExprValues` evaluates the `numExprs` build
expressions on the row a stored handle materializes to (`GetRow`); `rawEq` is
`RawValue::Eq`; `hashRow` is `HashRow` at the context's current level. -/
structure HashTableCtx (Row V : Type) where
  numExprs : Nat
  buildExprValues : Row → List (Option V)
  buildExprValues_length : ∀ row, (buildExprValues row).length = numExprs
  rawEq : V → V → Bool
  storesNulls : Bool
  findsSomeNulls : Bool
  hashRow : List (Option V) → UInt32

/-- The current row of the `ExprValuesCache`: expression values (`none` is NULL) and hash. -/
structure ExprValues (V : Type) where
  values : List (Option V)
  hash : UInt32

/-- Modelled from the spec: `HashTableCtx::Equals<INCLUSIVE_EQUALITY>`. Expression by
expression, two NULLs are equal exactly under inclusive equality, a NULL never equals a value,
and two values compare by `RawValue::Eq` (probe value first). -/
def valuesEqual {V : Type} (rawEq : V → V → Bool) (inclusiveEquality : Bool) :
    List (Option V) → List (Option V) → Bool
  | p :: ps, b :: bs =>
      (match p, b with
        | none, none => inclusiveEquality
        | some x, some y => rawEq x y
        | _, _ => false) && valuesEqual rawEq inclusiveEquality ps bs
  | _, _ => true

theorem valuesEqual_of_no_null {V : Type} (rawEq : V → V → Bool) :
    ∀ (p b : List (Option V)), (∀ x ∈ p, x.isSome) →
      valuesEqual rawEq false p b = valuesEqual rawEq true p b
  | [], _, _ => by simp [valuesEqual]
  | _ :: _, [], _ => by simp [valuesEqual]
  | x :: p, y :: b, h => by
      obtain ⟨v, rfl⟩ := Option.isSome_iff_exists.mp (h x (List.mem_cons_self _ _))
      simp only [valuesEqual]
      rw [valuesEqual_of_no_null rawEq p b fun z hz => h z (List.mem_cons_of_mem _ hz)]
      cases y <;> rfl

namespace HashTableCtx

variable {Row V : Type} (ctx : HashTableCtx Row V)

def equals (inclusiveEquality : Bool) (row : Row) (cur : ExprValues V) : Bool :=
  valuesEqual ctx.rawEq inclusiveEquality cur.values (ctx.buildExprValues row)

/-- `HashTableCtx::EvalAndHashBuild`: the cache row for a build row, unless it has a NULL
the table does not store. -/
def evalAndHashBuild (row : Row) : Option (ExprValues V) :=
  let values := ctx.buildExprValues row
  if !ctx.storesNulls && values.any Option.isNone then none
  else some ⟨values, ctx.hashRow values⟩

/-- `HashTableCtx::EvalAndHashProbe`, for the values `EvalProbeRow` computed. -/
def evalAndHashProbe (values : List (Option V)) : Option (ExprValues V) :=
  if values.any Option.isNone && !(ctx.storesNulls && ctx.findsSomeNulls) then none
  else some ⟨values, ctx.hashRow values⟩

end HashTableCtx

/-- What `Probe` returns: the bucket index (or `BUCKET_NOT_FOUND`), `*found`, and the
`BucketData` its last row comparison read. -/
structure ProbeResult (Row : Type) where
  bucketIdx : Int
  found : Bool
  bd : BucketData Row

namespace HashTable

variable {Row V : Type} (t : HashTable Row)

/-! ## The probe sequence -/

/-- The `j`-th bucket a probe for `hash` examines. -/
def probeIdx (hash j : Nat) : Nat :=
  if t.quadraticProbing then (hash + j * (j + 1) / 2) % t.numBuckets
  else (hash + j) % t.numBuckets

/-- The bucket index after `step` steps, from the index before it. -/
def nextProbeIdx (idx step : Nat) : Nat :=
  if t.quadraticProbing then (idx + step) &&& (t.numBuckets - 1)
  else (idx + 1) &&& (t.numBuckets - 1)

theorem and_numBuckets_sub_one (n : Nat) : n &&& (t.numBuckets - 1) = n % t.numBuckets := by
  obtain ⟨k, hk⟩ := t.numBuckets_pow
  rw [hk, Nat.and_pow_two_sub_one_eq_mod]

theorem triangle_succ (j : Nat) : (j + 1) * (j + 1 + 1) / 2 = j * (j + 1) / 2 + (j + 1) := by
  have h : (j + 1) * (j + 1 + 1) = j * (j + 1) + (j + 1) * 2 := by ring
  rw [h, Nat.add_mul_div_right _ _ (by decide)]

theorem probeIdx_zero (hash : Nat) :
    hash &&& (t.numBuckets - 1) = t.probeIdx hash 0 := by
  simp [probeIdx, and_numBuckets_sub_one]

theorem nextProbeIdx_probeIdx (hash j : Nat) :
    t.nextProbeIdx (t.probeIdx hash j) (j + 1) = t.probeIdx hash (j + 1) := by
  unfold nextProbeIdx probeIdx
  split <;> rw [and_numBuckets_sub_one, Nat.mod_add_mod]
  · rw [triangle_succ, Nat.add_assoc]
  · rw [Nat.add_assoc]

theorem probeIdx_lt (hash j : Nat) : t.probeIdx hash j < t.numBuckets := by
  unfold probeIdx
  split <;> exact Nat.mod_lt _ t.numBuckets_pos

/-- Triangular numbers are distinct modulo a power of two below it: `j (j + 1) / 2` and
`j' (j' + 1) / 2` differ by `(j' - j) (j' + j + 1) / 2`, one factor of which is odd. -/
theorem triangle_mod_injective {k j j' : Nat} (hj' : j' < 2 ^ k) (hlt : j < j') : j * (j + 1) / 2 % 2 ^ k ≠ j' * (j' + 1) / 2 % 2 ^ k := by
  intro h
  obtain ⟨d, rfl⟩ := Nat.exists_eq_add_of_lt hlt
  have e1 : 2 * (j * (j + 1) / 2) = j * (j + 1) :=
    Nat.mul_div_cancel' (Nat.even_mul_succ_self j).two_dvd
  have e2 : 2 * ((j + d + 1) * (j + d + 1 + 1) / 2) = (j + d + 1) * (j + d + 1 + 1) :=
    Nat.mul_div_cancel' (Nat.even_mul_succ_self _).two_dvd
  have hle : j * (j + 1) / 2 ≤ (j + d + 1) * (j + d + 1 + 1) / 2 := by
    apply Nat.div_le_div_right; apply Nat.mul_le_mul <;> omega
  have hdvd := (Nat.modEq_iff_dvd' hle).mp h
  have hprod : 2 * ((j + d + 1) * (j + d + 1 + 1) / 2 - j * (j + 1) / 2) =
      (d + 1) * (2 * j + d + 2) := by
    rw [Nat.mul_sub, e1, e2]
    have : (j + d + 1) * (j + d + 1 + 1) = j * (j + 1) + (d + 1) * (2 * j + d + 2) := by ring
    omega
  have h2 : 2 ^ (k + 1) ∣ (d + 1) * (2 * j + d + 2) := by
    rw [← hprod, Nat.pow_succ, Nat.mul_comm]
    exact Nat.mul_dvd_mul_left 2 hdvd
  have hpow : 2 ^ (k + 1) = 2 * 2 ^ k := by rw [Nat.pow_succ, Nat.mul_comm]
  rcases Nat.mod_two_eq_zero_or_one (d + 1) with hd | hd
  · have hodd : Nat.Coprime (2 ^ (k + 1)) (2 * j + d + 2) :=
      Nat.Coprime.pow_left _ (Nat.coprime_two_left.mpr (Nat.odd_iff.mpr (by omega)))
    have := Nat.le_of_dvd (by omega) (hodd.dvd_of_dvd_mul_left (Nat.mul_comm _ _ ▸ h2))
    omega
  · have hodd : Nat.Coprime (2 ^ (k + 1)) (d + 1) :=
      Nat.Coprime.pow_left _ (Nat.coprime_two_left.mpr (Nat.odd_iff.mpr hd))
    have := Nat.le_of_dvd (by omega) (hodd.dvd_of_dvd_mul_left h2)
    omega

theorem probeIdx_injective {hash j j' : Nat} (hj : j < t.numBuckets) (hj' : j' < t.numBuckets)
    (h : t.probeIdx hash j = t.probeIdx hash j') : j = j' := by
  obtain ⟨k, hk⟩ := t.numBuckets_pow
  unfold probeIdx at h
  split at h
  · have hmod := Nat.ModEq.add_left_cancel' hash h
    rcases Nat.lt_trichotomy j j' with hlt | rfl | hlt
    · exact absurd hmod (hk ▸ triangle_mod_injective (hk ▸ hj') hlt)
    · rfl
    · exact absurd hmod.symm (hk ▸ triangle_mod_injective (hk ▸ hj) hlt)
  · have hmod := Nat.ModEq.add_left_cancel' hash h
    rwa [Nat.ModEq, Nat.mod_eq_of_lt hj, Nat.mod_eq_of_lt hj'] at hmod

/-- Both probe sequences of a power-of-two table visit every bucket within `num_buckets_`
steps. -/
theorem exists_probeIdx_eq (hash : Nat) {i : Nat} (hi : i < t.numBuckets) :
    ∃ j < t.numBuckets, t.probeIdx hash j = i := by
  obtain ⟨j, hj, h⟩ := Finset.surj_on_of_inj_on_of_card_le
    (fun j (_ : j ∈ Finset.range t.numBuckets) => t.probeIdx hash j)
    (fun j _ => Finset.mem_range.mpr (t.probeIdx_lt hash j))
    (fun _ _ ha hb h => t.probeIdx_injective (Finset.mem_range.mp ha) (Finset.mem_range.mp hb) h)
    le_rfl i (Finset.mem_range.mpr hi)
  exact ⟨j, Finset.mem_range.mp hj, h.symm⟩

variable [Inhabited Row]

/-- The row `GetRow<TYPE>(bucket, ...)` materializes: the chain's head when the bucket has
duplicates, otherwise the inline row. -/
def headRow (b : Bucket Row) : Row :=
  if t.storesDuplicates && b.hasDuplicates then
    match b.getDuplicate with
    | node :: _ => node.htdata
    | [] => default
  else b.bucketData.htdataOr default

/-- The `do ... while (step < num_buckets)` loop of `Probe`, with `fuel` iterations left. -/
def probeLoop (eq : Row → Bool) (hash : UInt32) :
    (fuel step idx : Nat) → BucketData Row → ProbeResult Row
  | 0, _, _, bd => ⟨bucketNotFound, false, bd⟩
  | fuel + 1, step, idx, bd =>
      let bucket := t.bucketAt idx
      if !bucket.filled then ⟨idx, false, bd⟩
      else if hash = t.hashAt idx then
        if eq (t.headRow bucket) then ⟨idx, true, bucket.bucketData⟩
        else probeLoop eq hash fuel (step + 1) (t.nextProbeIdx idx (step + 1)) bucket.bucketData
      else probeLoop eq hash fuel (step + 1) (t.nextProbeIdx idx (step + 1)) bd

/-- `HashTable::Probe<INCLUSIVE_EQUALITY, true>` for the current row of the cache. -/
def probe (inclusiveEquality : Bool) (ctx : HashTableCtx Row V) (cur : ExprValues V) :
    ProbeResult Row :=
  t.probeLoop (ctx.equals inclusiveEquality · cur) cur.hash t.numBuckets 0
    (cur.hash.toNat &&& (t.numBuckets - 1)) (.duplicates [])

/-! ## What a probe returns -/

/-- A probe for `hash` matching rows with `eq` passes bucket `i`: it is filled and does not
hold a matching row under the probe's hash. -/
def Passes (eq : Row → Bool) (hash : UInt32) (i : Nat) : Prop :=
  (t.bucketAt i).filled = true ∧ ¬ (hash = t.hashAt i ∧ eq (t.headRow (t.bucketAt i)) = true)

/-- The result of a probe: the first bucket of the sequence that is empty (not found) or
holds a matching row (found, with that bucket's data), or `BUCKET_NOT_FOUND` when the
probe passed all `num_buckets_` buckets. -/
def ProbeStop (eq : Row → Bool) (hash : UInt32) (r : ProbeResult Row) : Prop :=
  (∃ j < t.numBuckets, (∀ j' < j, t.Passes eq hash (t.probeIdx hash.toNat j')) ∧
      r.bucketIdx = t.probeIdx hash.toNat j ∧
      ((t.bucketAt (t.probeIdx hash.toNat j)).filled = false ∧ r.found = false ∨
        r.found = true ∧ (t.bucketAt (t.probeIdx hash.toNat j)).filled = true ∧
          hash = t.hashAt (t.probeIdx hash.toNat j) ∧
          eq (t.headRow (t.bucketAt (t.probeIdx hash.toNat j))) = true ∧
          r.bd = (t.bucketAt (t.probeIdx hash.toNat j)).bucketData)) ∨
    (r.bucketIdx = bucketNotFound ∧ r.found = false ∧
      ∀ j < t.numBuckets, t.Passes eq hash (t.probeIdx hash.toNat j))

theorem probeLoop_spec (eq : Row → Bool) (hash : UInt32) :
    ∀ (fuel step : Nat) (bd : BucketData Row), step + fuel = t.numBuckets →
      (∀ j < step, t.Passes eq hash (t.probeIdx hash.toNat j)) →
      t.ProbeStop eq hash (t.probeLoop eq hash fuel step (t.probeIdx hash.toNat step) bd)
  | 0, step, bd, hs, hpass => Or.inr ⟨rfl, rfl, fun j hj => hpass j (by omega)⟩
  | fuel + 1, step, bd, hs, hpass => by
      have hstop : ∀ r : ProbeResult Row, r.bucketIdx = t.probeIdx hash.toNat step →
          ((t.bucketAt (t.probeIdx hash.toNat step)).filled = false ∧ r.found = false ∨
            r.found = true ∧ (t.bucketAt (t.probeIdx hash.toNat step)).filled = true ∧
              hash = t.hashAt (t.probeIdx hash.toNat step) ∧
              eq (t.headRow (t.bucketAt (t.probeIdx hash.toNat step))) = true ∧
              r.bd = (t.bucketAt (t.probeIdx hash.toNat step)).bucketData) →
          t.ProbeStop eq hash r :=
        fun r hi hr => Or.inl ⟨step, by omega, hpass, hi, hr⟩
      have hnext : ∀ bd', t.Passes eq hash (t.probeIdx hash.toNat step) →
          t.ProbeStop eq hash (t.probeLoop eq hash fuel (step + 1)
            (t.nextProbeIdx (t.probeIdx hash.toNat step) (step + 1)) bd') := by
        intro bd' hp
        rw [nextProbeIdx_probeIdx]
        exact probeLoop_spec eq hash fuel (step + 1) bd' (by omega) fun j hj =>
          (Nat.lt_succ_iff_lt_or_eq.mp hj).elim (hpass j) (· ▸ hp)
      simp only [probeLoop]
      by_cases hf : (t.bucketAt (t.probeIdx hash.toNat step)).filled = true
      · rw [if_neg (by simp [hf])]
        by_cases hh : hash = t.hashAt (t.probeIdx hash.toNat step)
        · rw [if_pos hh]
          by_cases he : eq (t.headRow (t.bucketAt (t.probeIdx hash.toNat step))) = true
          · rw [if_pos he]
            exact hstop _ rfl (Or.inr ⟨rfl, hf, hh, he, rfl⟩)
          · rw [if_neg he]
            exact hnext _ ⟨hf, fun h => he h.2⟩
        · rw [if_neg hh]
          exact hnext _ ⟨hf, fun h => hh h.1⟩
      · rw [if_pos (by simpa using hf)]
        exact hstop _ rfl (Or.inl ⟨by simpa using hf, rfl⟩)

theorem probe_spec (inclusiveEquality : Bool) (ctx : HashTableCtx Row V) (cur : ExprValues V) :
    t.ProbeStop (ctx.equals inclusiveEquality · cur) cur.hash
      (t.probe inclusiveEquality ctx cur) := by
  unfold probe
  rw [probeIdx_zero]
  exact t.probeLoop_spec _ _ _ 0 _ (Nat.zero_add _) fun _ h => absurd h (Nat.not_lt_zero _)

/-- A probe of a table with an empty bucket stops at a bucket: both probe sequences reach
the empty one. -/
theorem ProbeStop.ne_bucketNotFound {eq : Row → Bool} {hash : UInt32} {r : ProbeResult Row}
    (h : t.ProbeStop eq hash r) {i : Nat} (hi : i < t.numBuckets)
    (he : (t.bucketAt i).filled = false) : r.bucketIdx ≠ bucketNotFound := by
  rcases h with ⟨j, -, -, hj, -⟩ | ⟨-, -, hall⟩
  · rw [hj]; exact natCast_ne_bucketNotFound _
  · obtain ⟨j, hj, rfl⟩ := t.exists_probeIdx_eq hash.toNat hi
    exact absurd (hall j hj).1 (by simp [he])

/-- The buckets `Probe` examines, `hash & (N - 1)` and then one `nextProbeIdx` per step, are
the `N` distinct buckets of the table in both probing modes. So the probe returns
`BUCKET_NOT_FOUND` only when every bucket is filled and none holds a matching row under the
probe's hash, and otherwise the first bucket of its sequence that is empty or matches. -/
theorem probe_sequence_is_permutation (inclusiveEquality : Bool) (ctx : HashTableCtx Row V)
    (cur : ExprValues V) :
    (∀ hash : UInt32, hash.toNat &&& (t.numBuckets - 1) = t.probeIdx hash.toNat 0 ∧
      ∀ j, t.nextProbeIdx (t.probeIdx hash.toNat j) (j + 1) = t.probeIdx hash.toNat (j + 1)) ∧
    (∀ (hash : UInt32) (j j' : Nat), j < t.numBuckets → j' < t.numBuckets →
      t.probeIdx hash.toNat j = t.probeIdx hash.toNat j' → j = j') ∧
    (∀ (hash : UInt32) (i : Nat), i < t.numBuckets → ∃ j < t.numBuckets, t.probeIdx hash.toNat j = i) ∧
    ((t.probe inclusiveEquality ctx cur).bucketIdx = bucketNotFound →
      (t.probe inclusiveEquality ctx cur).found = false ∧
      ∀ i < t.numBuckets, t.Passes (ctx.equals inclusiveEquality · cur) cur.hash i) ∧
    ((t.probe inclusiveEquality ctx cur).bucketIdx ≠ bucketNotFound →
      ∃ j < t.numBuckets,
        (∀ j' < j, t.Passes (ctx.equals inclusiveEquality · cur) cur.hash (t.probeIdx cur.hash.toNat j')) ∧
        (t.probe inclusiveEquality ctx cur).bucketIdx = t.probeIdx cur.hash.toNat j ∧
        ((t.bucketAt (t.probeIdx cur.hash.toNat j)).filled = false ∧
            (t.probe inclusiveEquality ctx cur).found = false ∨
          (t.probe inclusiveEquality ctx cur).found = true ∧
            (t.bucketAt (t.probeIdx cur.hash.toNat j)).filled = true ∧
            cur.hash = t.hashAt (t.probeIdx cur.hash.toNat j) ∧
            ctx.equals inclusiveEquality (t.headRow (t.bucketAt (t.probeIdx cur.hash.toNat j))) cur = true)) := by
  refine ⟨fun hash => ⟨t.probeIdx_zero _, t.nextProbeIdx_probeIdx _⟩,
    fun _ _ _ hj hj' h => t.probeIdx_injective hj hj' h, fun hash _ hi => t.exists_probeIdx_eq _ hi,
    fun hnf => ?_, fun hf => ?_⟩ <;>
    rcases t.probe_spec inclusiveEquality ctx cur with ⟨j, hj, hpass, hidx, hcase⟩ | ⟨hidx, hfound, hall⟩
  · exact absurd (hidx.symm.trans hnf) (natCast_ne_bucketNotFound _)
  · refine ⟨hfound, fun i hi => ?_⟩
    obtain ⟨j, hj, rfl⟩ := t.exists_probeIdx_eq cur.hash.toNat hi
    exact hall j hj
  · exact ⟨j, hj, hpass, hidx, hcase.imp id fun h => ⟨h.1, h.2.1, h.2.2.1, h.2.2.2.1⟩⟩
  · exact absurd hidx hf

end HashTable

end Impala.Exec
