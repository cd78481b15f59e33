import Mathlib.Algebra.BigOperators.Group.List.Basic
import Mathlib.Algebra.BigOperators.Ring.List
import Mathlib.Algebra.Order.BigOperators.Group.List
import Mathlib.Algebra.Order.Field.Rat
import Mathlib.Data.Finset.Max
import Mathlib.Data.Rat.Cast.Order
import Mathlib.Tactic.FieldSimp
import Mathlib.Tactic.Linarith
import Mathlib.Tactic.Ring

/-!
# Weighted indices of integers

The index of a basket is the weighted mean of the ratios of the current prices to the baseline prices,
in units of `1 / scale`, where the weights sum to `scale`.  It is computed with integers: each term
and the mean are divided towards zero.  The index is exact when all prices change by one integral
factor (`index_uniform`); it is at most the largest ratio (`index_le`), and its distance to the
least one is less than two (`lt_index`): one for the terms, one for the mean.
-/

namespace Obolos

namespace WeightedIndex

/-- A component of a basket. -/
structure Term where
  weight : ℤ
  current : ℤ
  baseline : ℤ
  deriving DecidableEq

/-- The summand of a component. -/
def Term.share (scale : ℤ) (t : Term) : ℤ := (t.weight * t.current * scale).tdiv t.baseline

/-- The index of a basket. -/
def index (scale : ℤ) (l : List Term) : ℤ := ((l.map (Term.share scale)).sum).tdiv scale

/-- The exact ratio of a component. -/
def Term.ratio (scale : ℤ) (t : Term) : ℚ := t.current * scale / t.baseline

/-- A basket with positive weights and prices. -/
structure Valid (scale : ℤ) (l : List Term) : Prop where
  positive : ∀ t ∈ l, 0 < t.weight ∧ 0 < t.current ∧ 0 < t.baseline
  total : (l.map Term.weight).sum = scale
  scale_pos : 0 < scale

variable {scale : ℤ} {l m : List Term} {t : Term}

theorem Valid.share_eq (h : Valid scale l) (ht : t ∈ l) :
    t.share scale = t.weight * t.current * scale / t.baseline := by
  obtain ⟨hweight, hcurrent, -⟩ := h.positive t ht
  have hscale := h.scale_pos
  exact Int.tdiv_eq_ediv_of_nonneg (by positivity)

theorem Valid.share_nonneg (h : Valid scale l) (ht : t ∈ l) : 0 ≤ t.share scale := by
  obtain ⟨hweight, hcurrent, hbaseline⟩ := h.positive t ht
  have hscale := h.scale_pos
  rw [h.share_eq ht]
  exact Int.ediv_nonneg (by positivity) hbaseline.le

theorem Valid.index_eq (h : Valid scale l) :
    index scale l = (l.map (Term.share scale)).sum / scale := by
  refine Int.tdiv_eq_ediv_of_nonneg (List.sum_nonneg fun n hn => ?_)
  obtain ⟨t, ht, rfl⟩ := List.mem_map.1 hn
  exact h.share_nonneg ht

theorem Valid.ne_nil (h : Valid scale l) : l ≠ [] := by
  rintro rfl
  have hscale := h.scale_pos
  have htotal := h.total
  simp at htotal
  omega

/-- The index does not depend on the order of the components. -/
theorem index_perm (h : l.Perm m) : index scale l = index scale m := by
  rw [index, index, (h.map _).sum_eq]

/-- One integral factor for all prices. -/
theorem index_uniform (h : Valid scale l) (k : ℤ) (hk : ∀ t ∈ l, t.current = k * t.baseline) :
    index scale l = k * scale := by
  have hshare : ∀ t ∈ l, t.share scale = t.weight * (k * scale) := by
    intro t ht
    have hne : t.baseline ≠ 0 := (h.positive t ht).2.2.ne'
    rw [h.share_eq ht, hk t ht,
      show t.weight * (k * t.baseline) * scale = t.weight * (k * scale) * t.baseline by ring,
      Int.mul_ediv_cancel _ hne]
  have hsum : (l.map (Term.share scale)).sum = scale * (k * scale) := by
    rw [List.map_congr_left hshare, List.sum_map_mul_right, h.total]
  rw [h.index_eq, hsum, mul_comm scale, Int.mul_ediv_cancel _ h.scale_pos.ne']

/-- The same component at a price that is not lower. -/
def AtMost (t u : Term) : Prop :=
  t.weight = u.weight ∧ t.baseline = u.baseline ∧ t.current ≤ u.current

theorem sum_share_mono (hscale : 0 < scale)
    (hl : ∀ t ∈ l, 0 < t.weight ∧ 0 < t.baseline ∧
      t.share scale = t.weight * t.current * scale / t.baseline)
    (hm : ∀ t ∈ m, t.share scale = t.weight * t.current * scale / t.baseline)
    (h : List.Forall₂ AtMost l m) :
    (l.map (Term.share scale)).sum ≤ (m.map (Term.share scale)).sum := by
  induction h with
  | nil => exact le_rfl
  | @cons t u l m htu _ ih =>
    obtain ⟨hweight, hbaseline, hshare⟩ := hl t List.mem_cons_self
    have hle : t.share scale ≤ u.share scale := by
      obtain ⟨hw, hb, hc⟩ := htu
      rw [hshare, hm u List.mem_cons_self, ← hw, ← hb]
      exact Int.ediv_le_ediv hbaseline (by gcongr)
    rw [List.map_cons, List.map_cons, List.sum_cons, List.sum_cons]
    exact add_le_add hle (ih (fun t ht => hl t (List.mem_cons_of_mem _ ht))
      fun t ht => hm t (List.mem_cons_of_mem _ ht))

/-- The index is monotone in each price. -/
theorem index_mono (hl : Valid scale l) (hm : Valid scale m) (h : List.Forall₂ AtMost l m) :
    index scale l ≤ index scale m := by
  rw [hl.index_eq, hm.index_eq]
  refine Int.ediv_le_ediv hl.scale_pos (sum_share_mono hl.scale_pos (fun t ht => ?_)
    (fun t ht => hm.share_eq ht) h)
  obtain ⟨hweight, -, hbaseline⟩ := hl.positive t ht
  exact ⟨hweight, hbaseline, hl.share_eq ht⟩

/-! ### Bounds -/

/-- The summand is its exact value, rounded down. -/
theorem Valid.share_bounds (h : Valid scale l) (ht : t ∈ l) :
    (t.share scale : ℚ) ≤ t.weight * t.ratio scale ∧
      (t.weight * t.ratio scale : ℚ) ≤ t.share scale + 1 := by
  have hbaseline := (h.positive t ht).2.2
  have hpos : (0 : ℚ) < t.baseline := by exact_mod_cast hbaseline
  have hlow : t.share scale * t.baseline ≤ t.weight * t.current * scale := by
    rw [h.share_eq ht]
    exact Int.ediv_mul_le _ hbaseline.ne'
  have hhigh : t.weight * t.current * scale ≤ (t.share scale + 1) * t.baseline := by
    rw [h.share_eq ht]
    exact (Int.lt_ediv_add_one_mul_self _ hbaseline).le
  have hvalue : (t.weight * t.ratio scale : ℚ) = t.weight * t.current * scale / t.baseline := by
    rw [Term.ratio]
    ring
  rw [hvalue, le_div_iff₀ hpos, div_le_iff₀ hpos]
  exact ⟨by exact_mod_cast hlow, by exact_mod_cast hhigh⟩

/-- The sum of the summands, when all ratios are between two bounds. -/
theorem sum_share_bounds {low high : ℚ} (hshare : ∀ t ∈ l, 0 < t.weight ∧
      (t.share scale : ℚ) ≤ t.weight * t.ratio scale ∧
      (t.weight * t.ratio scale : ℚ) ≤ t.share scale + 1)
    (hratio : ∀ t ∈ l, low ≤ t.ratio scale ∧ t.ratio scale ≤ high) :
    (((l.map (Term.share scale)).sum : ℤ) : ℚ) ≤ high * ((l.map Term.weight).sum : ℤ) ∧
      (low - 1) * ((l.map Term.weight).sum : ℤ) ≤ ((l.map (Term.share scale)).sum : ℤ) := by
  induction l with
  | nil => simp
  | cons t l ih =>
    obtain ⟨ihhigh, ihlow⟩ := ih (fun t ht => hshare t (List.mem_cons_of_mem _ ht))
      fun t ht => hratio t (List.mem_cons_of_mem _ ht)
    obtain ⟨hweight, hle, hge⟩ := hshare t List.mem_cons_self
    obtain ⟨hlow, hhigh⟩ := hratio t List.mem_cons_self
    have hone : (1 : ℚ) ≤ t.weight := by exact_mod_cast hweight
    have hupper : (t.weight * t.ratio scale : ℚ) ≤ t.weight * high := by gcongr
    have hlower : (t.weight * low : ℚ) ≤ t.weight * t.ratio scale := by gcongr
    rw [List.map_cons, List.map_cons, List.sum_cons, List.sum_cons, Int.cast_add, Int.cast_add]
    constructor
    · linarith
    · linarith

/-- The index is not above the ratios, and less than two below them. -/
theorem index_bounds {low high : ℚ} (h : Valid scale l)
    (hratio : ∀ t ∈ l, low ≤ t.ratio scale ∧ t.ratio scale ≤ high) :
    (index scale l : ℚ) ≤ high ∧ low - 2 < index scale l := by
  obtain ⟨hhigh, hlow⟩ := sum_share_bounds
    (fun t ht => ⟨(h.positive t ht).1, h.share_bounds ht⟩) hratio
  have hpos : (0 : ℚ) < scale := by exact_mod_cast h.scale_pos
  have hle : index scale l * scale ≤ (l.map (Term.share scale)).sum := by
    rw [h.index_eq]
    exact Int.ediv_mul_le _ h.scale_pos.ne'
  have hlt : (l.map (Term.share scale)).sum < (index scale l + 1) * scale := by
    rw [h.index_eq]
    exact Int.lt_ediv_add_one_mul_self _ h.scale_pos
  have hle' : (index scale l * scale : ℚ) ≤ ((l.map (Term.share scale)).sum : ℤ) := by
    exact_mod_cast hle
  have hlt' : (((l.map (Term.share scale)).sum : ℤ) : ℚ) < (index scale l + 1) * scale := by
    exact_mod_cast hlt
  rw [h.total] at hhigh hlow
  constructor
  · exact le_of_mul_le_mul_right (hle'.trans hhigh) hpos
  · have hmul := lt_of_mul_lt_mul_right (hlow.trans_lt hlt') hpos.le
    linarith

/-- The largest ratio. -/
theorem Valid.exists_max (h : Valid scale l) :
    ∃ t ∈ l, ∀ u ∈ l, u.ratio scale ≤ t.ratio scale := by
  have hne : l.toFinset.Nonempty := (List.toFinset_nonempty_iff l).2 h.ne_nil
  simpa using l.toFinset.exists_max_image (Term.ratio scale) hne

/-- The least ratio. -/
theorem Valid.exists_min (h : Valid scale l) :
    ∃ t ∈ l, ∀ u ∈ l, t.ratio scale ≤ u.ratio scale := by
  have hne : l.toFinset.Nonempty := (List.toFinset_nonempty_iff l).2 h.ne_nil
  simpa using l.toFinset.exists_min_image (Term.ratio scale) hne

/-- The index is at most the largest ratio. -/
theorem index_le (h : Valid scale l) (ht : ∀ u ∈ l, u.ratio scale ≤ t.ratio scale) :
    (index scale l : ℚ) ≤ t.ratio scale := by
  obtain ⟨u, -, hu⟩ := h.exists_min
  exact (index_bounds h fun v hv => ⟨hu v hv, ht v hv⟩).1

/-- The index is more than the least ratio minus two. -/
theorem lt_index (h : Valid scale l) (ht : ∀ u ∈ l, t.ratio scale ≤ u.ratio scale) :
    t.ratio scale - 2 < index scale l := by
  obtain ⟨u, -, hu⟩ := h.exists_max
  exact (index_bounds h fun v hv => ⟨ht v hv, hu v hv⟩).2

end WeightedIndex

end Obolos
