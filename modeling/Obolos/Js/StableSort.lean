import Mathlib.Data.List.Sort
import Mathlib.Order.Basic

/-!
# Sorting by a key

`sortBy key` sorts a list and keeps the order of elements with the same key.  Sorting by the key and
then by the index comes to the same (`sortBy_of_index`).  What is appended to a list, with keys of at
least `t`, leaves the sorted elements with keys of at most `t` where they are (`isPrefix_sortBy`).
-/

namespace Obolos

variable {α κ : Type} [LinearOrder κ] (key : α → κ)

/-- The order by a key. -/
def keyOrder (a b : α) : Prop := key a ≤ key b

instance : DecidableRel (keyOrder key) := fun _ _ => inferInstanceAs (Decidable (_ ≤ _))

/-- The list sorted by a key, elements with the same key in their order. -/
def sortBy (l : List α) : List α := l.insertionSort (keyOrder key)

/-- The order by a key, then by the index. -/
def indexOrder (a b : α × ℕ) : Prop := key a.1 < key b.1 ∨ key a.1 = key b.1 ∧ a.2 ≤ b.2

instance : DecidableRel (indexOrder key) := fun _ _ => inferInstanceAs (Decidable (_ ∨ _))

variable {key} {a : α} {l m : List α}

theorem mem_sortBy : a ∈ sortBy key l ↔ a ∈ l := List.mem_insertionSort _

theorem sorted_sortBy : (sortBy key l).Pairwise (keyOrder key) := by
  have : Std.Total (keyOrder key) := ⟨fun a b => le_total (key a) (key b)⟩
  have : IsTrans α (keyOrder key) := ⟨fun _ _ _ hab hbc => le_trans hab hbc⟩
  exact List.pairwise_insertionSort _ l

theorem zipIdx_ge {k : ℕ} {x : α × ℕ} (h : x ∈ l.zipIdx k) : k ≤ x.2 := by
  obtain ⟨y, i⟩ := x
  exact (List.mem_zipIdx h).1

/-- Sorting by the key and then by the index is sorting by the key. -/
theorem sortBy_of_index (l : List α) (k : ℕ) :
    ((l.zipIdx k).insertionSort (indexOrder key)).map Prod.fst = sortBy key l := by
  induction l generalizing k with
  | nil => rfl
  | cons a l ih =>
    have hmem : ∀ x ∈ (l.zipIdx (k + 1)).insertionSort (indexOrder key), k < x.2 := by
      intro x hx
      exact zipIdx_ge ((List.mem_insertionSort _).1 hx)
    rw [List.zipIdx_cons, List.insertionSort_cons, sortBy, List.insertionSort_cons, ← sortBy,
      ← ih (k + 1)]
    -- Every index that was sorted so far is larger than that of `a`.
    generalize (l.zipIdx (k + 1)).insertionSort (indexOrder key) = xs at hmem
    induction xs with
    | nil => rfl
    | cons x xs ihx =>
      have hx := hmem x List.mem_cons_self
      have hiff : indexOrder key (a, k) x ↔ keyOrder key a x.1 := by
        refine Iff.trans ?_ le_iff_lt_or_eq.symm
        constructor
        · rintro (h | ⟨h, -⟩)
          · exact Or.inl h
          · exact Or.inr h
        · rintro (h | h)
          · exact Or.inl h
          · exact Or.inr ⟨h, hx.le⟩
      by_cases h : keyOrder key a x.1
      · rw [List.orderedInsert_cons_of_le _ _ (hiff.2 h), List.map_cons, List.map_cons,
          List.orderedInsert_cons_of_le _ _ h]
      · rw [List.orderedInsert_of_not_le _ _ fun hle => h (hiff.1 hle), List.map_cons,
          List.map_cons, List.orderedInsert_of_not_le _ _ h,
          ihx fun y hy => hmem y (List.mem_cons_of_mem _ hy)]

theorem orderedInsert_append (h : ∀ b ∈ m, keyOrder key a b) :
    (l ++ m).orderedInsert (keyOrder key) a =
      l.orderedInsert (keyOrder key) a ++ m := by
  induction l with
  | nil =>
    cases m with
    | nil => rfl
    | cons b m => exact List.orderedInsert_cons_of_le _ _ (h b List.mem_cons_self)
  | cons x l ih =>
    rw [List.cons_append]
    by_cases hx : keyOrder key a x
    · rw [List.orderedInsert_cons_of_le _ _ hx, List.orderedInsert_cons_of_le _ _ hx]
      rfl
    · rw [List.orderedInsert_of_not_le _ _ hx, List.orderedInsert_of_not_le _ _ hx, ih]
      rfl

theorem orderedInsert_append_of_lt (h : ∀ b ∈ l, ¬ keyOrder key a b) :
    (l ++ m).orderedInsert (keyOrder key) a =
      l ++ m.orderedInsert (keyOrder key) a := by
  induction l with
  | nil => rfl
  | cons x l ih =>
    rw [List.cons_append, List.orderedInsert_of_not_le _ _ (h x List.mem_cons_self),
      ih fun b hb => h b (List.mem_cons_of_mem _ hb)]
    rfl

/-- Sorting in two parts. -/
theorem sortBy_append (h : ∀ a ∈ l, ∀ b ∈ m, key a ≤ key b) :
    sortBy key (l ++ m) = sortBy key l ++ sortBy key m := by
  induction l with
  | nil => rfl
  | cons a l ih =>
    have ih := ih fun x hx => h x (List.mem_cons_of_mem _ hx)
    unfold sortBy at ih ⊢
    rw [List.cons_append, List.insertionSort_cons, List.insertionSort_cons, ih]
    exact orderedInsert_append fun b hb =>
      h a List.mem_cons_self b ((List.mem_insertionSort _).1 hb)

/-- The elements with keys of at most `t` come first. -/
theorem sortBy_split (t : κ) (l : List α) :
    sortBy key l = sortBy key (l.filter fun a => decide (key a ≤ t)) ++
      sortBy key (l.filter fun a => !decide (key a ≤ t)) := by
  induction l with
  | nil => rfl
  | cons a l ih =>
    unfold sortBy at ih ⊢
    by_cases h : key a ≤ t
    · simp only [List.insertionSort_cons, ih, List.filter_cons, h, decide_true, Bool.not_true,
        Bool.false_eq_true, ↓reduceIte]
      refine orderedInsert_append fun b hb => ?_
      have hb := (List.mem_filter.1 ((List.mem_insertionSort _).1 hb)).2
      exact h.trans (lt_of_not_ge (by simpa using hb)).le
    · simp only [List.insertionSort_cons, ih, List.filter_cons, h, decide_false, Bool.not_false,
        Bool.false_eq_true, ↓reduceIte]
      refine orderedInsert_append_of_lt fun b hb hab => h (hab.trans ?_)
      exact of_decide_eq_true (List.mem_filter.1 ((List.mem_insertionSort _).1 hb)).2

/-- What is appended with keys of at least `t` leaves the beginning of the sorted list as it is. -/
theorem isPrefix_sortBy {t : κ} (h : ∀ b ∈ m, t ≤ key b) :
    ∃ rest, sortBy key (l ++ m) = sortBy key (l.filter fun a => decide (key a ≤ t)) ++ rest ∧
      ∀ b ∈ rest, t ≤ key b := by
  rw [sortBy_split t, List.filter_append, List.filter_append, sortBy_append, List.append_assoc]
  · refine ⟨_, rfl, fun b hb => ?_⟩
    simp only [List.mem_append, mem_sortBy, List.mem_filter, Bool.not_eq_true',
      decide_eq_false_iff_not, not_le] at hb
    rcases hb with hb | hb | hb
    · exact h b hb.1
    · exact hb.2.le
    · exact h b hb.1
  · intro a ha b hb
    exact (of_decide_eq_true (List.mem_filter.1 ha).2).trans (h b (List.mem_filter.1 hb).1)

end Obolos
