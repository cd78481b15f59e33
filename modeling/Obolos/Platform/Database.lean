import Obolos.Crash.Table
import Obolos.Js.Same
import Obolos.Js.Value

/-!
# What a request handler sees of Postgres

The exceptions of a handler (`http.ts`), and `jsonb` columns.  Handlers send single statements;
each is a transaction of its own.
-/

namespace Obolos

/-- An exception in a request handler. -/
inductive ApiError
  /-- `PlatformError(status, code, message)` -/
  | platform (status : ℕ) (code message : JsString)
  /-- An error of the database, with its SQLSTATE as `code`. -/
  | database (code : JsString)
  | thrown (e : JsError)

namespace ApiError

/-- `throw new PlatformError(status, code, message)` -/
def fail {α : Type} (status : ℕ) (code message : String) : Except ApiError α :=
  .error (.platform status (js code) (js message))

/-- A computation of the library code. -/
def lift {α : Type} (x : Except JsError α) : Except ApiError α := x.mapError .thrown

/-- `unique_violation` -/
def uniqueViolation : ApiError := .database (js "23505")

/-- `check_violation` -/
def checkViolation : ApiError := .database (js "23514")

/-- `numeric_value_out_of_range` -/
def outOfRange : ApiError := .database (js "22003")

/-- `untranslatable_character`: a text with a zero or a lone surrogate in a `jsonb` value. -/
def untranslatable : ApiError := .database (js "22P05")

/-- `raise_exception`: what a trigger raises. -/
def raised : ApiError := .database (js "P0001")

/-- The errors of a statement that have nothing to do with it: a broken connection, a row of
another table that was removed.  They are not taken for a violated constraint. -/
def lost : ApiError → Prop
  | .platform _ _ _ => False
  | .database code => code ≠ js "23505"
  | .thrown _ => True

theorem lift_ok {α : Type} {x : Except JsError α} {a : α} : lift x = .ok a ↔ x = .ok a := by
  cases x <;> simp [lift, Except.mapError]

end ApiError

/-- The authenticated user of a request. -/
structure User where
  id : JsString
  address : JsString

/-- `jsonb` columns: what is read after `JSON.stringify(x)` was stored, unless it cannot be
stored.  The column keeps the value, not the order of its keys. -/
structure Jsonb where
  store : Json → Option Json
  store_same : ∀ {x y : Json}, x.Distinct → x.finite = true → store x = some y →
    y.Distinct ∧ Json.Same y x

/-- A column that keeps values as they are. -/
def Jsonb.identity : Jsonb where
  store := some
  store_same h _ he := by
    cases he
    exact ⟨h, (Json.same_iff_sortKeys h h).2 rfl⟩

/-- The largest `integer`. -/
def int4Max : ℕ := 2 ^ 31 - 1

/-- `n + 1` in an `integer` column. -/
def increment (n : ℕ) : Except ApiError ℕ :=
  if n < int4Max then .ok (n + 1) else .error .outOfRange

theorem increment_ok {n m : ℕ} : increment n = .ok m ↔ n < int4Max ∧ m = n + 1 := by
  unfold increment
  split_ifs with h
  · simp only [Except.ok.injEq, h, true_and, eq_comm]
  · simp [h]

end Obolos
