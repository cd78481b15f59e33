import Mathlib.Data.Nat.Digits.Lemmas

/-!
# Bases

Digits, the most significant one first, spell a number in a base.  `convert` spells it in another
base and keeps the zeros in front, which the number does not count; converting back gives the same
digits again.
-/

namespace Obolos

namespace Radix

/-- The number that digits spell. -/
def value (base : ℕ) (l : List ℕ) : ℕ := l.foldl (fun n d => base * n + d) 0

/-- The digits of a number, without a zero in front. -/
def digits (base n : ℕ) : List ℕ := (Nat.digits base n).reverse

/-- The zeros in front. -/
def zeros (l : List ℕ) : ℕ := (l.takeWhile (· == 0)).length

/-- The digits of the same number in another base, with the same number of zeros in front. -/
def convert (base target : ℕ) (l : List ℕ) : List ℕ :=
  List.replicate (zeros l) 0 ++ digits target (value base l)

theorem foldl_value (base n : ℕ) (l : List ℕ) :
    l.foldl (fun n d => base * n + d) n = Nat.ofDigits base (l.reverse ++ [n]) := by
  induction l generalizing n with
  | nil => simp
  | cons d l ih =>
    rw [List.foldl_cons, ih, List.reverse_cons, List.append_assoc, Nat.ofDigits_append,
      Nat.ofDigits_append]
    simp [Nat.ofDigits_cons, add_comm]

theorem value_eq (base : ℕ) (l : List ℕ) : value base l = Nat.ofDigits base l.reverse := by
  rw [value, foldl_value, Nat.ofDigits_append_zero]

@[simp] theorem value_zeros (base k : ℕ) (l : List ℕ) :
    value base (List.replicate k 0 ++ l) = value base l := by
  rw [value_eq, value_eq, List.reverse_append, List.reverse_replicate,
    Nat.ofDigits_append_replicate_zero]

@[simp] theorem value_digits (base n : ℕ) : value base (digits base n) = n := by
  rw [value_eq, digits, List.reverse_reverse, Nat.ofDigits_digits]

/-- The digits of a number do not start with a zero. -/
theorem head_digits {base n : ℕ} : (digits base n).head? ≠ some 0 := by
  intro hzero
  rw [digits, List.head?_reverse] at hzero
  have hne : n ≠ 0 := by
    rintro rfl
    simp at hzero
  have hlast := Nat.getLast_digit_ne_zero base hne
  rw [List.getLast?_eq_getLast_of_ne_nil (Nat.digits_ne_nil_iff_ne_zero.2 hne)] at hzero
  exact hlast (Option.some_inj.1 hzero)

/-- Digits without a zero in front are those of their number. -/
theorem digits_value {base : ℕ} (hbase : 1 < base) {l : List ℕ} (hlt : ∀ d ∈ l, d < base)
    (hhead : l.head? ≠ some 0) : digits base (value base l) = l := by
  rw [digits, value_eq, Nat.digits_ofDigits base hbase l.reverse, List.reverse_reverse]
  · intro d hd
    exact hlt d (List.mem_reverse.1 hd)
  · intro hne hzero
    rw [List.getLast_reverse] at hzero
    rw [← hzero] at hhead
    exact hhead (List.head?_eq_some_head _)

theorem zeros_append {k : ℕ} {l : List ℕ} (hhead : l.head? ≠ some 0) :
    zeros (List.replicate k 0 ++ l) = k := by
  induction k with
  | zero =>
    cases l with
    | nil => rfl
    | cons d l =>
      have hne : d ≠ 0 := fun h => hhead (by rw [h]; rfl)
      simp [zeros, hne]
  | succ k ih =>
    rw [List.replicate_succ, List.cons_append, zeros, List.takeWhile_cons_of_pos (by rfl),
      List.length_cons]
    exact congrArg (· + 1) ih

/-- The zeros in front, and what comes after them. -/
theorem split_zeros (l : List ℕ) :
    ∃ rest : List ℕ, l = List.replicate (zeros l) 0 ++ rest ∧ rest.head? ≠ some 0 := by
  refine ⟨l.dropWhile (· == 0), ?_, ?_⟩
  · have hrep : List.replicate (zeros l) 0 = l.takeWhile (· == 0) := by
      refine (List.eq_replicate_iff.2 ⟨rfl, fun d hd => ?_⟩).symm
      simpa using List.all_eq_true.1 (List.all_takeWhile (p := (· == 0)) (l := l)) d hd
    rw [hrep, List.takeWhile_append_dropWhile]
  · intro hzero
    have := List.head?_dropWhile_not (· == 0) l
    rw [hzero] at this
    simp at this

theorem digits_lt {base n : ℕ} (hbase : 1 < base) : ∀ d ∈ digits base n, d < base := by
  intro d hd
  exact Nat.digits_lt_base hbase (List.mem_reverse.1 hd)

theorem convert_lt {base target : ℕ} (htarget : 1 < target) (l : List ℕ) :
    ∀ d ∈ convert base target l, d < target := by
  intro d hd
  rcases List.mem_append.1 hd with hd | hd
  · rw [List.eq_of_mem_replicate hd]
    omega
  · exact digits_lt htarget d hd

/-- Converting digits there and back. -/
theorem convert_convert {base target : ℕ} (hbase : 1 < base) {l : List ℕ}
    (hlt : ∀ d ∈ l, d < base) : convert target base (convert base target l) = l := by
  obtain ⟨rest, hl, hhead⟩ := split_zeros l
  have hrest : ∀ d ∈ rest, d < base := by
    intro d hd
    exact hlt d (by rw [hl]; exact List.mem_append_right _ hd)
  have hvalue : value base l = value base rest := by
    rw [hl, value_zeros]
  rw [convert, convert, zeros_append head_digits, value_zeros, value_digits, hvalue,
    digits_value hbase hrest hhead]
  exact hl.symm

end Radix

end Obolos
