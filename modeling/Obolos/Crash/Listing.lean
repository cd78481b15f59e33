import Obolos.Js.StableSort
import Mathlib.Order.OrderDual

/-!
# `ORDER BY … DESC LIMIT …`

A listing of a table is a permutation of its rows, sorted by a key from the largest down, cut off
after `k` rows.  Rows with the same key come in any order, so a query may answer more than one
list.

`mem_of_lists_iff` : a row is in every listing exactly when at most `k` rows, the row among them,
have a key that is not smaller.
-/

namespace Obolos

namespace Listing

variable {α κ : Type} [LinearOrder κ] (key : α → κ)

/-- `ORDER BY key DESC LIMIT k` may answer `m` when the rows are `l`. -/
def Lists (k : ℕ) (l m : List α) : Prop :=
  ∃ r : List α, r.Perm l ∧ r.Pairwise (fun a b => key b ≤ key a) ∧ m = r.take k

/-- The number of rows whose key is not smaller than that of `x`. -/
def rank (x : α) (l : List α) : ℕ := l.countP fun y => decide (key x ≤ key y)

/-- The rows sorted from the largest key down. -/
def descending (l : List α) : List α := sortBy (fun a => OrderDual.toDual (key a)) l

variable {key} {k : ℕ} {l m : List α} {x : α}

theorem descending_perm (l : List α) : (descending key l).Perm l := List.perm_insertionSort _ l

theorem descending_sorted (l : List α) :
    (descending key l).Pairwise (fun a b => key b ≤ key a) := by
  have h : (sortBy (fun a => OrderDual.toDual (key a)) l).Pairwise
      (keyOrder fun a => OrderDual.toDual (key a)) := sorted_sortBy
  exact h

/-- There is always an answer. -/
theorem lists_descending (k : ℕ) (l : List α) : Lists key k l ((descending key l).take k) :=
  ⟨_, descending_perm l, descending_sorted l, rfl⟩

theorem subset_of_lists (h : Lists key k l m) : ∀ y ∈ m, y ∈ l := by
  obtain ⟨r, hperm, -, rfl⟩ := h
  intro y hy
  exact hperm.mem_iff.1 (List.mem_of_mem_take hy)

/-- A row of small rank is in every listing. -/
theorem mem_of_rank_le (hx : x ∈ l) (hrank : rank key x l ≤ k) (h : Lists key k l m) : x ∈ m := by
  obtain ⟨r, hperm, hsorted, rfl⟩ := h
  obtain ⟨r₁, r₂, rfl⟩ := List.append_of_mem (hperm.mem_iff.2 hx)
  have habove : ∀ y ∈ r₁, key x ≤ key y := by
    intro y hy
    exact (List.pairwise_append.1 hsorted).2.2 y hy x List.mem_cons_self
  -- What comes before the row counts for its rank, and so does the row.
  have hcount : r₁.length + 1 ≤ rank key x l := by
    rw [rank, ← hperm.countP_eq, List.countP_append, List.countP_cons]
    have hall : r₁.countP (fun y => decide (key x ≤ key y)) = r₁.length :=
      List.countP_eq_length.2 fun y hy => decide_eq_true (habove y hy)
    simp only [hall, le_refl, decide_true, ↓reduceIte]
    omega
  have hlt : r₁.length < k := by omega
  refine List.mem_take_iff_getElem.2 ⟨r₁.length, ?_, ?_⟩
  · simp only [List.length_append, List.length_cons]
    omega
  · simp

/-- A row of large rank is missing from some listing. -/
theorem exists_lists_of_lt_rank (hnodup : l.Nodup) (hx : x ∈ l) (hrank : k < rank key x l) :
    ∃ m, Lists key k l m ∧ x ∉ m := by
  obtain ⟨s, t, rfl⟩ := List.append_of_mem hx
  have hperm : (s ++ x :: t).Perm (x :: (s ++ t)) := List.perm_middle
  have hnotin : x ∉ s ++ t := (List.nodup_cons.1 (hperm.nodup_iff.1 hnodup)).1
  let above := (s ++ t).filter fun y => decide (key x ≤ key y)
  let below := (s ++ t).filter fun y => !decide (key x ≤ key y)
  -- Among the rows with the key of `x`, `x` comes last.
  refine ⟨_, ⟨descending key above ++ x :: descending key below, ?_, ?_, rfl⟩, ?_⟩
  · refine List.perm_middle.trans (List.Perm.trans ?_ hperm.symm)
    refine List.Perm.cons x ?_
    refine ((descending_perm above).append (descending_perm below)).trans ?_
    exact List.filter_append_perm _ _
  · have hle : ∀ y ∈ descending key above, key x ≤ key y := by
      intro y hy
      have hy := (descending_perm above).mem_iff.1 hy
      exact of_decide_eq_true (List.mem_filter.1 hy).2
    have hlt : ∀ y ∈ descending key below, key y ≤ key x := by
      intro y hy
      have hy := (descending_perm below).mem_iff.1 hy
      have hn := (List.mem_filter.1 hy).2
      simp only [Bool.not_eq_true', decide_eq_false_iff_not, not_le] at hn
      exact hn.le
    refine List.pairwise_append.2 ⟨descending_sorted _,
      List.pairwise_cons.2 ⟨hlt, descending_sorted _⟩, ?_⟩
    intro a ha b hb
    rcases List.mem_cons.1 hb with rfl | hb
    · exact hle a ha
    · exact (hlt b hb).trans (hle a ha)
  · have hlength : k ≤ (descending key above).length := by
      rw [(descending_perm above).length_eq]
      rw [rank, hperm.countP_eq, List.countP_cons] at hrank
      simp only [le_refl, decide_true, ↓reduceIte, List.countP_eq_length_filter] at hrank
      exact Nat.lt_succ_iff.1 hrank
    rw [List.take_append_of_le_length hlength]
    intro hmem
    have hmem := (descending_perm above).mem_iff.1 (List.mem_of_mem_take hmem)
    exact hnotin (List.mem_filter.1 hmem).1

/-- **When a row is listed.**  A row is in every answer exactly when its rank is within the
limit. -/
theorem mem_of_lists_iff (hnodup : l.Nodup) (hx : x ∈ l) :
    (∀ m, Lists key k l m → x ∈ m) ↔ rank key x l ≤ k := by
  constructor
  · intro h
    by_contra hlt
    obtain ⟨m, hm, hnot⟩ := exists_lists_of_lt_rank hnodup hx (not_le.1 hlt)
    exact hnot (h m hm)
  · intro hrank m hm
    exact mem_of_rank_le hx hrank hm

end Listing

end Obolos
