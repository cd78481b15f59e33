import Obolos.Js.Bytes
import Obolos.Js.Value

/-!
# Dates

`new Date(time).toISOString()`: the date of a number of days since 1970 in the Gregorian calendar,
with the year in four digits, or in six with a sign.  A time that is more than a hundred million
days away from 1970 is no date (`toISOString_ok`).  `readIso` reads the texts of dates back
(`readIso_isoText`).
-/

namespace Obolos

namespace JsString

/-- `n` in exactly `width` decimal digits. -/
def digits : (width : ℕ) → ℕ → JsString
  | 0, _ => []
  | width + 1, n => digits width (n / 10) ++ [(48 + n % 10).toUInt16]

theorem length_digits (width n : ℕ) : (digits width n).length = width := by
  induction width generalizing n with
  | zero => rfl
  | succ width ih => simp [digits, ih]

end JsString

namespace Date

open JsString

/-- The year, the month and the day of the month of a number of days since 1970. -/
def civil (days : ℤ) : ℤ × ℤ × ℤ :=
  -- Years start in March here, so that the day of a leap year is the last one.
  let shifted := days + 719468
  let era := shifted / 146097
  let dayOfEra := shifted % 146097
  let yearOfEra := (dayOfEra - dayOfEra / 1460 + dayOfEra / 36524 - dayOfEra / 146096) / 365
  let dayOfYear := dayOfEra - (365 * yearOfEra + yearOfEra / 4 - yearOfEra / 100)
  let month := (5 * dayOfYear + 2) / 153
  let day := dayOfYear - (153 * month + 2) / 5 + 1
  let year := yearOfEra + 400 * era
  if month < 10 then (year, month + 3, day) else (year + 1, month - 9, day)

/-- How a year is written. -/
def yearText (year : ℤ) : JsString :=
  if 0 ≤ year ∧ year ≤ 9999 then digits 4 year.toNat
  else (if year < 0 then 45 else 43) :: digits 6 year.natAbs

/-- The text of a time in milliseconds since 1970. -/
def isoText (time : ℤ) : JsString :=
  let (year, month, day) := civil (time / 86400000)
  let rest := time % 86400000
  yearText year ++ 45 :: digits 2 month.toNat ++ 45 :: digits 2 day.toNat ++
    84 :: digits 2 (rest / 3600000).toNat ++ 58 :: digits 2 (rest / 60000 % 60).toNat ++
    58 :: digits 2 (rest / 1000 % 60).toNat ++ 46 :: digits 3 (rest % 1000).toNat ++ [90]

/-- A time that is a date. -/
def IsDate (time : ℤ) : Prop := -8640000000000000 ≤ time ∧ time ≤ 8640000000000000

instance (time : ℤ) : Decidable (IsDate time) := inferInstanceAs (Decidable (_ ∧ _))

/-- `new Date(time).toISOString()`; an invalid date is a `RangeError`. -/
def toISOString (time : ℤ) : Except JsError JsString :=
  if IsDate time then .ok (isoText time) else .error .other

variable {time : ℤ}

theorem toISOString_ok {s : JsString} :
    toISOString time = .ok s ↔ IsDate time ∧ s = isoText time := by
  by_cases h : IsDate time
  · simp [toISOString, h, eq_comm]
  · simp [toISOString, h]

theorem length_isoText (time : ℤ) : (isoText time).length ≤ 27 := by
  have hyear : ∀ year, (yearText year).length ≤ 7 := by
    intro year
    unfold yearText
    split <;> simp [length_digits]
  have h := hyear (civil (time / 86400000)).1
  simp only [isoText, List.length_append, List.length_cons, length_digits, List.length_nil]
  omega

example : isoText 1709210096789 = js "2024-02-29T12:34:56.789Z" := by decide +kernel

end Date

/-! ### Reading a date -/

namespace JsString

theorem readDecimals_append (n : ℕ) (s t : JsString) :
    readDecimals n (s ++ t) = (readDecimals n s).bind fun m => readDecimals m t := by
  induction s generalizing n with
  | nil => rfl
  | cons c s ih =>
    simp only [List.cons_append, readDecimals]
    split
    · exact ih _
    · rfl

/-- Digits are read back. -/
theorem readDecimals_digits (width n m : ℕ) :
    readDecimals n (digits width m) = some (n * 10 ^ width + m % 10 ^ width) := by
  induction width generalizing m with
  | zero => simp [digits, readDecimals, Nat.mod_one]
  | succ width ih =>
    have hdigit : ∀ k < 10, (decide (48 ≤ (48 + k).toUInt16) && decide ((48 + k).toUInt16 ≤ 57)) =
        true ∧ (48 + k).toUInt16.toNat - 48 = k := by decide
    obtain ⟨hrange, hvalue⟩ := hdigit (m % 10) (Nat.mod_lt _ (by norm_num))
    rw [digits, readDecimals_append, ih, Option.bind_some, readDecimals, if_pos hrange, hvalue,
      readDecimals, Nat.pow_succ', Nat.mod_mul, Nat.mul_left_comm]
    congr 1
    generalize n * 10 ^ width = p
    omega

end JsString

namespace Date

open JsString

/-- The days since 1970 of a date. -/
def daysOf (year month day : ℤ) : ℤ :=
  let shiftedYear := if 2 < month then year else year - 1
  let shiftedMonth := if 2 < month then month - 3 else month + 9
  let yearOfEra := shiftedYear % 400
  let dayOfYear := (153 * shiftedMonth + 2) / 5 + day - 1
  shiftedYear / 400 * 146097 + (365 * yearOfEra + yearOfEra / 4 - yearOfEra / 100 + dayOfYear) -
    719468

/-- The year of a time. -/
def yearOf (time : ℤ) : ℤ := (civil (time / 86400000)).1

/-- The year of an era, and the day of the year, of a day of an era. -/
theorem dayOfEra_spec {doe yoe doy : ℤ} (h₀ : 0 ≤ doe) (h₁ : doe < 146097)
    (hyoe : yoe = (doe - doe / 1460 + doe / 36524 - doe / 146096) / 365)
    (hdoy : doy = doe - (365 * yoe + yoe / 4 - yoe / 100)) :
    0 ≤ yoe ∧ yoe < 400 ∧ 0 ≤ doy ∧ doy < 366 := by
  have hcentury : doe / 36524 = 0 ∨ doe / 36524 = 1 ∨ doe / 36524 = 2 ∨ doe / 36524 = 3 ∨
      doe / 36524 = 4 := by omega
  have hyear : 0 ≤ yoe ∧ yoe < 400 := ⟨by omega, by omega⟩
  have hhundred : yoe / 100 = 0 ∨ yoe / 100 = 1 ∨ yoe / 100 = 2 ∨ yoe / 100 = 3 := by omega
  refine ⟨hyear.1, hyear.2, ?_, ?_⟩
  · rcases hcentury with h | h | h | h | h <;> rcases hhundred with h' | h' | h' | h' <;> omega
  · rcases hcentury with h | h | h | h | h <;> rcases hhundred with h' | h' | h' | h' <;> omega

/-- A day is the date that is written for it. -/
theorem daysOf_civil (days : ℤ) :
    daysOf (civil days).1 (civil days).2.1 (civil days).2.2 = days := by
  obtain ⟨hy₀, hy₁, hd₀, hd₁⟩ := dayOfEra_spec (Int.emod_nonneg (days + 719468) (by norm_num))
    (Int.emod_lt_of_pos (days + 719468) (by norm_num)) rfl rfl
  unfold civil
  simp only
  set doe := (days + 719468) % 146097 with hdoe
  set yoe := (doe - doe / 1460 + doe / 36524 - doe / 146096) / 365 with hyoe
  set doy := doe - (365 * yoe + yoe / 4 - yoe / 100) with hdoy
  set era := (days + 719468) / 146097 with hera
  have hdiv : (yoe + 400 * era) / 400 = era := by omega
  have hmod : (yoe + 400 * era) % 400 = yoe := by omega
  have hdays : era * 146097 + doe = days + 719468 := by omega
  split_ifs with hmonth
  · simp only [daysOf]
    rw [if_pos (by omega), if_pos (by omega), add_sub_cancel_right, hdiv, hmod]
    omega
  · simp only [daysOf]
    rw [if_neg (by omega), if_neg (by omega), add_sub_cancel_right, sub_add_cancel, hdiv, hmod]
    omega

/-- The month, the day and the year of a day that can be a date. -/
theorem civil_range {days : ℤ} (h₀ : -100000000 ≤ days) (h₁ : days ≤ 100000000) :
    1 ≤ (civil days).2.1 ∧ (civil days).2.1 ≤ 12 ∧ 1 ≤ (civil days).2.2 ∧
      (civil days).2.2 ≤ 31 ∧ (civil days).1.natAbs < 1000000 := by
  obtain ⟨hy₀, hy₁, hd₀, hd₁⟩ := dayOfEra_spec (Int.emod_nonneg (days + 719468) (by norm_num))
    (Int.emod_lt_of_pos (days + 719468) (by norm_num)) rfl rfl
  unfold civil
  simp only
  set doe := (days + 719468) % 146097 with hdoe
  set yoe := (doe - doe / 1460 + doe / 36524 - doe / 146096) / 365 with hyoe
  set doy := doe - (365 * yoe + yoe / 4 - yoe / 100) with hdoy
  split_ifs with hmonth
  · dsimp only
    exact ⟨by omega, by omega, by omega, by omega, by omega⟩
  · dsimp only
    exact ⟨by omega, by omega, by omega, by omega, by omega⟩

/-- A year, and what follows it. -/
def readYear : JsString → Option (ℤ × JsString)
  | 45 :: s => (readDecimals 0 (s.take 6)).map fun n : ℕ => (-(n : ℤ), s.drop 6)
  | 43 :: s => (readDecimals 0 (s.take 6)).map fun n : ℕ => ((n : ℤ), s.drop 6)
  | s => (readDecimals 0 (s.take 4)).map fun n : ℕ => ((n : ℤ), s.drop 4)

/-- A month, a day and the milliseconds of the day. -/
def readRest : JsString → Option (ℕ × ℕ × ℕ)
  | [_, a, b, _, c, d, _, e, f, _, g, h, _, i, j, _, k, l, m, _] => do
    let month ← readDecimals 0 [a, b]
    let day ← readDecimals 0 [c, d]
    let hours ← readDecimals 0 [e, f]
    let minutes ← readDecimals 0 [g, h]
    let seconds ← readDecimals 0 [i, j]
    let milliseconds ← readDecimals 0 [k, l, m]
    return (month, day, ((hours * 60 + minutes) * 60 + seconds) * 1000 + milliseconds)
  | _ => none

/-- The time of a text in the format of `toISOString`. -/
def readIso (s : JsString) : Option ℤ := do
  let (year, rest) ← readYear s
  let (month, day, milliseconds) ← readRest rest
  return daysOf year month day * 86400000 + milliseconds


theorem readYear_yearText {year : ℤ} (h : year.natAbs < 1000000) (s : JsString) :
    readYear (yearText year ++ s) = some (year, s) := by
  have hsplit : ∀ width n, (digits width n ++ s).take width = digits width n ∧
      (digits width n ++ s).drop width = s := fun width n =>
    ⟨List.take_left' (length_digits ..), List.drop_left' (length_digits ..)⟩
  unfold yearText
  split_ifs with hfour hneg
  · obtain ⟨htake, hdrop⟩ := hsplit 4 year.toNat
    have hread := readDecimals_digits 4 0 year.toNat
    -- A year of four digits starts with no sign.
    have hfirst : ∀ k < 10, (48 + k).toUInt16 ≠ 45 ∧ (48 + k).toUInt16 ≠ 43 := by decide
    obtain ⟨h₁, h₂⟩ := hfirst (year.toNat / 10 / 10 / 10 % 10) (Nat.mod_lt _ (by norm_num))
    have hyear : readYear (digits 4 year.toNat ++ s) =
        (readDecimals 0 ((digits 4 year.toNat ++ s).take 4)).map
          fun n : ℕ => ((n : ℤ), (digits 4 year.toNat ++ s).drop 4) := by
      simp only [digits, List.nil_append, List.cons_append]
      unfold readYear
      split
      · rename_i heq
        exact absurd (List.cons.inj heq).1 h₁
      · rename_i heq
        exact absurd (List.cons.inj heq).1 h₂
      · rfl
    rw [hyear, htake, hdrop, hread, Option.map_some]
    congr 2
    omega
  · obtain ⟨htake, hdrop⟩ := hsplit 6 year.natAbs
    rw [List.cons_append]
    show (readDecimals 0 ((digits 6 year.natAbs ++ s).take 6)).map _ = _
    rw [htake, readDecimals_digits, Option.map_some, hdrop]
    congr 2
    omega
  · obtain ⟨htake, hdrop⟩ := hsplit 6 year.natAbs
    rw [List.cons_append]
    show (readDecimals 0 ((digits 6 year.natAbs ++ s).take 6)).map _ = _
    rw [htake, readDecimals_digits, Option.map_some, hdrop]
    congr 2
    omega

/-- What is written of the rest of a date is read back. -/
theorem readRest_digits {month day hours minutes seconds milliseconds : ℕ} (h₁ : month < 100)
    (h₂ : day < 100) (h₃ : hours < 100) (h₄ : minutes < 100) (h₅ : seconds < 100)
    (h₆ : milliseconds < 1000) :
    readRest (45 :: digits 2 month ++ 45 :: digits 2 day ++ 84 :: digits 2 hours ++
      58 :: digits 2 minutes ++ 58 :: digits 2 seconds ++ 46 :: digits 3 milliseconds ++ [90]) =
      some (month, day, ((hours * 60 + minutes) * 60 + seconds) * 1000 + milliseconds) := by
  have htwo : ∀ n < 100, readDecimals 0 (digits 2 n) = some n := fun n hn => by
    rw [readDecimals_digits, Nat.zero_mul, Nat.zero_add, Nat.mod_eq_of_lt (by simpa using hn)]
  have hthree : readDecimals 0 (digits 3 milliseconds) = some milliseconds := by
    rw [readDecimals_digits, Nat.zero_mul, Nat.zero_add, Nat.mod_eq_of_lt (by simpa using h₆)]
  show (do
    let month ← readDecimals 0 (digits 2 month)
    let day ← readDecimals 0 (digits 2 day)
    let hours ← readDecimals 0 (digits 2 hours)
    let minutes ← readDecimals 0 (digits 2 minutes)
    let seconds ← readDecimals 0 (digits 2 seconds)
    let milliseconds ← readDecimals 0 (digits 3 milliseconds)
    return (month, day, ((hours * 60 + minutes) * 60 + seconds) * 1000 + milliseconds) :
      Option (ℕ × ℕ × ℕ)) = _
  rw [htwo month h₁, htwo day h₂, htwo hours h₃, htwo minutes h₄, htwo seconds h₅, hthree]
  rfl

/-- **What is written of a date is read back.** -/
theorem readIso_isoText {time : ℤ} (h : IsDate time) : readIso (isoText time) = some time := by
  have hlow : -100000000 ≤ time / 86400000 := by have := h.1; omega
  have hhigh : time / 86400000 ≤ 100000000 := by have := h.2; omega
  obtain ⟨hm₀, hm₁, hd₀, hd₁, hyear⟩ := civil_range hlow hhigh
  have hdays := daysOf_civil (time / 86400000)
  have htext : isoText time = yearText (civil (time / 86400000)).1 ++
      (45 :: digits 2 (civil (time / 86400000)).2.1.toNat ++
        45 :: digits 2 (civil (time / 86400000)).2.2.toNat ++
        84 :: digits 2 (time % 86400000 / 3600000).toNat ++
        58 :: digits 2 (time % 86400000 / 60000 % 60).toNat ++
        58 :: digits 2 (time % 86400000 / 1000 % 60).toNat ++
        46 :: digits 3 (time % 86400000 % 1000).toNat ++ [90]) := by
    simp only [isoText, List.append_assoc]
  have hrest := @readRest_digits (civil (time / 86400000)).2.1.toNat
    (civil (time / 86400000)).2.2.toNat (time % 86400000 / 3600000).toNat
    (time % 86400000 / 60000 % 60).toNat (time % 86400000 / 1000 % 60).toNat
    (time % 86400000 % 1000).toNat (by omega) (by omega) (by omega) (by omega) (by omega)
    (by omega)
  rw [readIso, htext, readYear_yearText hyear]
  show (readRest _).bind _ = _
  rw [hrest, Option.bind_some]
  show some (daysOf _ _ _ * 86400000 + _) = _
  rw [Int.toNat_of_nonneg (by omega), Int.toNat_of_nonneg (by omega), hdays]
  congr 1
  omega

theorem all_digits (width n : ℕ) : (digits width n).all isPlain = true := by
  induction width generalizing n with
  | zero => rfl
  | succ width ih =>
    have hdigit : ∀ k < 10, isPlain (48 + k).toUInt16 = true := by decide
    rw [digits, List.all_append, ih, List.all_cons, hdigit _ (Nat.mod_lt _ (by norm_num))]
    rfl

theorem isoText_plain (time : ℤ) : (isoText time).all isPlain = true := by
  have hyear : ∀ year : ℤ, (yearText year).all isPlain = true := by
    intro year
    unfold yearText
    split_ifs
    · exact all_digits ..
    · rw [List.all_cons, all_digits]
      decide
    · rw [List.all_cons, all_digits]
      decide
  simp only [isoText, List.all_append, List.all_cons, List.all_nil, hyear, all_digits]
  decide

/-- The year is written in four digits. -/
def FourDigits (time : ℤ) : Prop := 0 ≤ yearOf time ∧ yearOf time ≤ 9999

instance (time : ℤ) : Decidable (FourDigits time) := inferInstanceAs (Decidable (_ ∧ _))

/-- Years with a sign are longer. -/
theorem length_isoText_eq (time : ℤ) :
    (isoText time).length = if FourDigits time then 24 else 27 := by
  have hyear : (yearText (yearOf time)).length = if FourDigits time then 4 else 7 := by
    by_cases hfour : 0 ≤ yearOf time ∧ yearOf time ≤ 9999
    · rw [if_pos (show FourDigits time from hfour), yearText, if_pos hfour, length_digits]
    · rw [if_neg (show ¬FourDigits time from hfour), yearText, if_neg hfour, List.length_cons,
        length_digits]
  simp only [isoText, List.length_append, List.length_cons, length_digits, List.length_nil]
  rw [show (civil (time / 86400000)).1 = yearOf time from rfl, hyear]
  split_ifs <;> rfl

end Date

end Obolos
