import Mathlib.Data.Int.Defs

/-!
# Time travel clauses

`TimeTravelSpec` of the frontend: the `FOR SYSTEM_TIME AS OF` and `FOR SYSTEM_VERSION AS OF`
clauses. `analyze` assigns the spec's fields and may throw, keeping what it assigned, so a call
is an `EStateM String (TimeTravelSpec E) Unit`; the expression methods it calls are parameters
(`ExprOps`). The statement rewriter analyses, calls `reset()`, and analyses again:
`analyze_reset_analyze` shows the second analysis reproduces the first (no second cast), under
what `Expr.analyze` and `CastExpr` guarantee (`ReanalysisLaws`).
-/

namespace Impala.Analysis

inductive Kind where
  | timeAsOf
  | versionAsOf
  deriving DecidableEq, Repr

/-- The methods `TimeTravelSpec` calls on its expression, for one analyzer: `Expr.analyze`
(the analysed expression, or the message of its `AnalysisException`), `isConstant`, `getType`,
`toSql`, `instanceof LiteralExpr`, the implicit `new CastExpr(Type.TIMESTAMP, e)`, the three
`Type` tests and `Type.toString`, `ExprUtil.localTimestampToUnixTimeMicros` (or the message of
its `InternalException`) and `Expr.evalToInteger` with the clause's name. -/
structure ExprOps (E Ty : Type) where
  analyze : E → Except String E
  isConstant : E → Bool
  getType : E → Ty
  toSql : E → String
  isLiteralExpr : E → Bool
  castToTimestamp : E → E
  isStringType : Ty → Bool
  isTimestamp : Ty → Bool
  isIntegerType : Ty → Bool
  typeToString : Ty → String
  localTimestampToUnixTimeMicros : E → Except String Int
  evalToInteger : E → String → Except String Int

/-- The fields of a `TimeTravelSpec`. `asOfVersion` and `asOfMicros` are Java `long`s, -1 while
unset. -/
structure TimeTravelSpec (E : Type) where
  kind : Kind
  asOfExpr : E
  asOfVersion : Int
  asOfMicros : Int
  deriving DecidableEq, Repr

namespace TimeTravelSpec

variable {E Ty : Type} (x : ExprOps E Ty)

/-- The constructor `TimeTravelSpec(Kind, Expr)`. -/
def make (kind : Kind) (asOfExpr : E) : TimeTravelSpec E := ⟨kind, asOfExpr, -1, -1⟩

/-- `getAsOfMillis`: Java's `long` division truncates toward zero. -/
def getAsOfMillis (s : TimeTravelSpec E) : Int :=
  if s.asOfMicros = -1 then -1 else s.asOfMicros.tdiv 1000

def toSql (s : TimeTravelSpec E) : String :=
  "FOR " ++ (if s.kind = .timeAsOf then "SYSTEM_TIME" else "SYSTEM_VERSION") ++ " AS OF " ++
    x.toSql s.asOfExpr

def analyzeTimeBased : EStateM String (TimeTravelSpec E) Unit := fun s =>
  match x.analyze s.asOfExpr with
  | .error msg => .error msg s
  | .ok e =>
    let s := { s with asOfExpr := e }
    if !x.isConstant s.asOfExpr then
      .error ("FOR SYSTEM_TIME AS OF <expression> must be a constant expression: " ++
        s.toSql x) s
    else
      let s := if x.isStringType (x.getType s.asOfExpr) then
        { s with asOfExpr := x.castToTimestamp s.asOfExpr } else s
      if !x.isTimestamp (x.getType s.asOfExpr) then
        .error ("FOR SYSTEM_TIME AS OF <expression> must be a timestamp type but is \x27" ++
          x.typeToString (x.getType s.asOfExpr) ++ "\x27: " ++ x.toSql s.asOfExpr) s
      else
        match x.localTimestampToUnixTimeMicros s.asOfExpr with
        | .error ie => .error ("Invalid TIMESTAMP expression: " ++ ie) s
        | .ok micros => .ok () { s with asOfMicros := micros }

/-- `analyzeVersionBased`. The version is assigned before its sign is checked, so a negative
version stays in the spec that throws. -/
def analyzeVersionBased : EStateM String (TimeTravelSpec E) Unit := fun s =>
  match x.analyze s.asOfExpr with
  | .error msg => .error msg s
  | .ok e =>
    let s := { s with asOfExpr := e }
    if !x.isLiteralExpr s.asOfExpr then
      .error ("FOR SYSTEM_VERSION AS OF <expression> must be an integer literal: " ++
        s.toSql x) s
    else if !x.isIntegerType (x.getType s.asOfExpr) then
      .error ("FOR SYSTEM_VERSION AS OF <expression> must be an integer type but is \x27" ++
        x.typeToString (x.getType s.asOfExpr) ++ "\x27: " ++ x.toSql s.asOfExpr) s
    else
      match x.evalToInteger s.asOfExpr "SYSTEM_VERSION AS OF" with
      | .error msg => .error msg s
      | .ok v =>
        let s := { s with asOfVersion := v }
        if s.asOfVersion < 0 then
          .error ("Invalid version number has been given to SYSTEM_VERSION AS OF: " ++
            toString s.asOfVersion) s
        else .ok () s

def analyze : EStateM String (TimeTravelSpec E) Unit := fun s =>
  match s.kind with
  | .timeAsOf => analyzeTimeBased x s
  | .versionAsOf => analyzeVersionBased x s

def reset (s : TimeTravelSpec E) : TimeTravelSpec E :=
  { s with asOfVersion := -1, asOfMicros := -1 }

@[simp] theorem reset_kind (s : TimeTravelSpec E) : (reset s).kind = s.kind := rfl

@[simp] theorem reset_asOfExpr (s : TimeTravelSpec E) : (reset s).asOfExpr = s.asOfExpr := rfl

theorem analyze_of_timeAsOf {s : TimeTravelSpec E} (h : s.kind = .timeAsOf) :
    analyze x s = analyzeTimeBased x s := by
  rw [analyze, h]

theorem analyze_of_versionAsOf {s : TimeTravelSpec E} (h : s.kind = .versionAsOf) :
    analyze x s = analyzeVersionBased x s := by
  rw [analyze, h]

/-! ## What an accepted clause holds -/

/-- The expression a time-based analysis keeps: the analysed one, under the implicit cast
when it has a string type. -/
def timestampExpr (e : E) : E := if x.isStringType (x.getType e) then x.castToTimestamp e else e

/-- A time-based analysis succeeds exactly when the analysed expression is constant, has a
timestamp type once a string is cast, and converts; the spec then holds that expression and
its micros. -/
theorem analyzeTimeBased_eq_ok {s s' : TimeTravelSpec E} :
    analyzeTimeBased x s = .ok () s' ↔ ∃ e, x.analyze s.asOfExpr = .ok e ∧
      x.isConstant e = true ∧ x.isTimestamp (x.getType (timestampExpr x e)) = true ∧
      ∃ m, x.localTimestampToUnixTimeMicros (timestampExpr x e) = .ok m ∧
        s' = { s with asOfExpr := timestampExpr x e, asOfMicros := m } := by
  unfold analyzeTimeBased timestampExpr
  cases x.analyze s.asOfExpr with
  | error msg => simp
  | ok e =>
    simp only [Except.ok.injEq, exists_eq_left']
    cases hc : x.isConstant e
    · simp
    · cases x.isStringType (x.getType e) <;>
      · simp only [Bool.not_true, Bool.false_eq_true, if_true, if_false, true_and]
        split
        · simp_all
        · rename_i ht
          simp only [Bool.not_eq_true', Bool.not_eq_false] at ht
          split <;> rename_i heq <;> simp [ht, heq, eq_comm]

/-- A version-based analysis succeeds exactly when the analysed expression is a literal of an
integer type that evaluates to a non-negative version; the spec then holds that expression and
version. -/
theorem analyzeVersionBased_eq_ok {s s' : TimeTravelSpec E} :
    analyzeVersionBased x s = .ok () s' ↔ ∃ e, x.analyze s.asOfExpr = .ok e ∧
      x.isLiteralExpr e = true ∧ x.isIntegerType (x.getType e) = true ∧
      ∃ v, x.evalToInteger e "SYSTEM_VERSION AS OF" = .ok v ∧ 0 ≤ v ∧
        s' = { s with asOfExpr := e, asOfVersion := v } := by
  unfold analyzeVersionBased
  cases x.analyze s.asOfExpr with
  | error msg => simp
  | ok e =>
    simp only [Except.ok.injEq, exists_eq_left']
    split_ifs with hl hi
    · simp_all
    · simp_all
    · simp only [Bool.not_eq_true', Bool.not_eq_false] at hl hi
      split <;> rename_i heq
      · simp [heq]
      · split_ifs with hv
        · simp [heq, Int.not_le.mpr hv]
        · simp [hl, hi, heq, Int.not_lt.mp hv, @eq_comm _ s']

/-! ## Re-analysis after `reset()` -/

/-- What re-analysis relies on. `Expr.analyze` returns at once on an analysed expression.
`new CastExpr(Type.TIMESTAMP, e)` analyses itself when it is built, and is constant when its
child is. A timestamp type is not a string type. -/
structure ReanalysisLaws : Prop where
  analyze_analyzed : ∀ e e', x.analyze e = .ok e' → x.analyze e' = .ok e'
  analyze_castToTimestamp :
    ∀ e, x.analyze e = .ok e → x.analyze (x.castToTimestamp e) = .ok (x.castToTimestamp e)
  isConstant_castToTimestamp :
    ∀ e, x.isConstant e = true → x.isConstant (x.castToTimestamp e) = true
  isStringType_of_isTimestamp : ∀ ty, x.isTimestamp ty = true → x.isStringType ty = false

variable {x}

section Laws

variable (hx : ReanalysisLaws x) {e : E}
include hx

theorem ReanalysisLaws.analyze_timestampExpr (ha : x.analyze e = .ok e) :
    x.analyze (timestampExpr x e) = .ok (timestampExpr x e) := by
  unfold timestampExpr
  split
  · exact hx.analyze_castToTimestamp e ha
  · exact ha

theorem ReanalysisLaws.isConstant_timestampExpr (hc : x.isConstant e = true) :
    x.isConstant (timestampExpr x e) = true := by
  unfold timestampExpr
  split
  · exact hx.isConstant_castToTimestamp e hc
  · exact hc

theorem ReanalysisLaws.timestampExpr_timestampExpr
    (ht : x.isTimestamp (x.getType (timestampExpr x e)) = true) :
    timestampExpr x (timestampExpr x e) = timestampExpr x e :=
  if_neg (by rw [hx.isStringType_of_isTimestamp _ ht]; exact Bool.false_ne_true)

end Laws

/-- A clause that analysed from its reset state analyses again after `reset()` to the same
state: the expression the first analysis kept (cast or not) is analysed, constant and of a
timestamp type, and converts to the same micros; a version literal evaluates to the same
version. -/
theorem analyze_reset_analyze (hx : ReanalysisLaws x) (s : TimeTravelSpec E)
    {s' : TimeTravelSpec E} (h : analyze x (reset s) = .ok () s') :
    analyze x (reset s') = .ok () s' := by
  cases hk : s.kind with
  | timeAsOf =>
    rw [analyze_of_timeAsOf x (by exact hk)] at h
    obtain ⟨e, ha, hc, ht, m, hm, rfl⟩ := (analyzeTimeBased_eq_ok x).mp h
    rw [analyze_of_timeAsOf x (by exact hk)]
    have ha' := hx.analyze_analyzed _ _ ha
    refine (analyzeTimeBased_eq_ok x).mpr ⟨timestampExpr x e, hx.analyze_timestampExpr ha',
      hx.isConstant_timestampExpr hc, ?_⟩
    rw [hx.timestampExpr_timestampExpr ht]
    exact ⟨ht, m, hm, rfl⟩
  | versionAsOf =>
    rw [analyze_of_versionAsOf x (by exact hk)] at h
    obtain ⟨e, ha, hl, hi, v, hv, hpos, rfl⟩ := (analyzeVersionBased_eq_ok x).mp h
    rw [analyze_of_versionAsOf x (by exact hk)]
    exact (analyzeVersionBased_eq_ok x).mpr
      ⟨e, hx.analyze_analyzed _ _ ha, hl, hi, v, hv, hpos, rfl⟩

namespace Demo

/-- The expressions of a test: integer and string literals, and a string literal under the
implicit cast to TIMESTAMP. -/
inductive Expr where
  | intLiteral (v : Int)
  | stringLiteral (v : String)
  | castToTimestamp (v : String)
  deriving DecidableEq, Repr

inductive SqlType where
  | bigint
  | string
  | timestamp
  deriving DecidableEq, Repr

/-- Analysis of literals changes nothing; only the cast string of the epoch's first second
converts. -/
def ops : ExprOps Expr SqlType where
  analyze e := .ok e
  isConstant _ := true
  getType
    | .intLiteral _ => .bigint
    | .stringLiteral _ => .string
    | .castToTimestamp _ => .timestamp
  toSql
    | .intLiteral v => toString v
    | .stringLiteral v => "\x27" ++ v ++ "\x27"
    | .castToTimestamp v => "CAST(\x27" ++ v ++ "\x27 AS TIMESTAMP)"
  isLiteralExpr
    | .castToTimestamp _ => false
    | _ => true
  castToTimestamp
    | .stringLiteral v => .castToTimestamp v
    | e => e
  isStringType ty := ty == .string
  isTimestamp ty := ty == .timestamp
  isIntegerType ty := ty == .bigint
  typeToString
    | .bigint => "BIGINT"
    | .string => "STRING"
    | .timestamp => "TIMESTAMP"
  localTimestampToUnixTimeMicros
    | .castToTimestamp v => if v = "1970-01-01 00:00:01" then .ok 1000000 else .error v
    | _ => .error "not a timestamp"
  evalToInteger
    | .intLiteral v, _ => .ok v
    | _, _ => .error "not an integer"

theorem reanalysisLaws : ReanalysisLaws ops where
  analyze_analyzed _ _ h := by cases h; rfl
  analyze_castToTimestamp _ _ := rfl
  isConstant_castToTimestamp _ _ := rfl
  isStringType_of_isTimestamp ty := by cases ty <;> decide

end Demo

/-- A string clause is analysed under the implicit cast, and re-analysed after `reset()`
without a second one. -/
theorem analyze_reset_analyze_string :
    ReanalysisLaws Demo.ops ∧
      analyze Demo.ops (reset (make .timeAsOf (.stringLiteral "1970-01-01 00:00:01"))) =
        .ok () ⟨.timeAsOf, .castToTimestamp "1970-01-01 00:00:01", -1, 1000000⟩ ∧
      analyze Demo.ops
          (reset ⟨.timeAsOf, .castToTimestamp "1970-01-01 00:00:01", -1, 1000000⟩) =
        .ok () ⟨.timeAsOf, .castToTimestamp "1970-01-01 00:00:01", -1, 1000000⟩ :=
  ⟨Demo.reanalysisLaws, rfl, analyze_reset_analyze Demo.reanalysisLaws
    (make .timeAsOf (.stringLiteral "1970-01-01 00:00:01")) rfl⟩

end TimeTravelSpec

end Impala.Analysis
