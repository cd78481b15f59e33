import Mathlib.Algebra.GroupWithZero.Nat
import Mathlib.Algebra.Order.BigOperators.Group.List
import Mathlib.Algebra.BigOperators.Group.List.Basic
import Mathlib.Algebra.Order.Group.Nat

/-!
# Anchored spending windows

A limiter with a cap and a window length keeps the start of the current window and what was
spent in it.  A spend inside the window adds to it; a spend after the window (or the first one)
starts a new window *at the time of that spend*.  The windows are therefore anchored at spends,
not sliding, and a burst can straddle a boundary.

* `Chain.total_start_le` : the spends of one window sum to at most the cap.
* `Chain.total_interval_le` : the spends in any half-open interval of the window length sum to
  at most twice the cap, whatever history the limiter started with.
-/

namespace Obolos

namespace Anchored

/-- What the limiter remembers: the start of the window and the amount spent in it.  A start of
`0` means that there has been no spend yet. -/
structure Memory where
  start : ℕ
  spent : ℕ

/-- An accepted spend, with the start of the window it was counted in. -/
structure Spend where
  time : ℕ
  amount : ℕ
  start : ℕ
  deriving DecidableEq

/-- The sum of the amounts of some spends. -/
def total (l : List Spend) : ℕ := (l.map Spend.amount).sum

@[simp] theorem total_nil : total [] = 0 := rfl

@[simp] theorem total_append (l l' : List Spend) : total (l ++ l') = total l + total l' := by
  simp [total]

@[simp] theorem total_singleton (p : Spend) : total [p] = p.amount := by simp [total]

/-- `Accepts cap seconds w now amount w'`: the limiter accepts `amount` at time `now`. -/
inductive Accepts (cap seconds : ℕ) (w : Memory) (now amount : ℕ) : Memory → Prop
  | inside (started : w.start ≠ 0) (early : now < w.start + seconds)
      (fits : w.spent + amount ≤ cap) : Accepts cap seconds w now amount ⟨w.start, w.spent + amount⟩
  | fresh (late : w.start = 0 ∨ w.start + seconds ≤ now) (fits : amount ≤ cap) :
      Accepts cap seconds w now amount ⟨now, amount⟩

/-- The window never starts after the spend that was just counted. -/
theorem Accepts.start_le {cap seconds now amount : ℕ} {w w' : Memory}
    (h : Accepts cap seconds w now amount w') (hw : w.start ≤ now) : w'.start ≤ now := by
  cases h with
  | inside => exact hw
  | fresh => exact le_rfl

/-- `Chain cap seconds w l w'`: the limiter, configured with `cap` and `seconds`, accepts the
spends `l` one after the other, at positive and nondecreasing times. -/
inductive Chain (cap seconds : ℕ) (w : Memory) : List Spend → Memory → Prop
  | nil : Chain cap seconds w [] w
  | snoc {l : List Spend} {v v' : Memory} {now amount : ℕ} :
      Chain cap seconds w l v → 0 < now → v.start ≤ now → Accepts cap seconds v now amount v' →
      Chain cap seconds w (l ++ [⟨now, amount, v'.start⟩]) v'

variable {cap seconds : ℕ} {w w' : Memory} {l : List Spend}

/-- The invariant of a chain of spends. -/
structure Ok (cap seconds : ℕ) (l : List Spend) (w : Memory) : Prop where
  started : ∀ p ∈ l, w.start ≠ 0
  time : ∀ p ∈ l, p.start ≤ p.time ∧ p.time < p.start + seconds
  before : ∀ p ∈ l, p.start = w.start ∨ p.start + seconds ≤ w.start
  apart : ∀ p ∈ l, ∀ q ∈ l,
    p.start = q.start ∨ p.start + seconds ≤ q.start ∨ q.start + seconds ≤ p.start
  current : total (l.filter (·.start = w.start)) ≤ w.spent
  capped : ∀ x, total (l.filter (·.start = x)) ≤ cap

theorem Ok.snoc {v : Memory} {now amount : ℕ} (h : Ok cap seconds l w) (hs : 0 < seconds)
    (hpos : 0 < now) (hle : w.start ≤ now) (ha : Accepts cap seconds w now amount v) :
    Ok cap seconds (l ++ [⟨now, amount, v.start⟩]) v := by
  cases ha with
  | inside started early fits =>
    refine ⟨fun _ _ => started, ?_, ?_, ?_, ?_, fun x => ?_⟩
    · intro p hp
      rcases List.mem_append.1 hp with hp | hp
      · exact h.time p hp
      · obtain rfl := List.mem_singleton.1 hp; exact ⟨hle, early⟩
    · intro p hp
      rcases List.mem_append.1 hp with hp | hp
      · exact h.before p hp
      · obtain rfl := List.mem_singleton.1 hp; exact Or.inl rfl
    · intro p hp q hq
      rcases List.mem_append.1 hp with hp | hp <;> rcases List.mem_append.1 hq with hq | hq
      · exact h.apart p hp q hq
      · obtain rfl := List.mem_singleton.1 hq
        exact (h.before p hp).imp id Or.inl
      · obtain rfl := List.mem_singleton.1 hp
        exact (h.before q hq).imp Eq.symm Or.inr
      · obtain rfl := List.mem_singleton.1 hp
        obtain rfl := List.mem_singleton.1 hq
        exact Or.inl rfl
    · simpa [List.filter_append] using h.current
    · rw [List.filter_append, total_append]
      by_cases hx : w.start = x
      · subst hx
        have := h.current
        simp only [List.filter_singleton, decide_true, cond_true, total_singleton]
        omega
      · simpa [List.filter_singleton, hx] using h.capped x
  | fresh late fits =>
    -- every earlier window started at least one window length before `now`
    have hold : ∀ p ∈ l, p.start + seconds ≤ now := fun p hp => by
      have h₁ := h.started p hp
      rcases h.before p hp with h₂ | h₂ <;> omega
    refine ⟨fun _ _ => hpos.ne', ?_, ?_, ?_, ?_, fun x => ?_⟩
    · intro p hp
      rcases List.mem_append.1 hp with hp | hp
      · exact h.time p hp
      · obtain rfl := List.mem_singleton.1 hp; exact ⟨le_rfl, by simp; omega⟩
    · intro p hp
      rcases List.mem_append.1 hp with hp | hp
      · exact Or.inr (hold p hp)
      · obtain rfl := List.mem_singleton.1 hp; exact Or.inl rfl
    · intro p hp q hq
      rcases List.mem_append.1 hp with hp | hp <;> rcases List.mem_append.1 hq with hq | hq
      · exact h.apart p hp q hq
      · obtain rfl := List.mem_singleton.1 hq; exact Or.inr (Or.inl (hold p hp))
      · obtain rfl := List.mem_singleton.1 hp; exact Or.inr (Or.inr (hold q hq))
      · obtain rfl := List.mem_singleton.1 hp
        obtain rfl := List.mem_singleton.1 hq
        exact Or.inl rfl
    · have hnone : l.filter (·.start = now) = [] := List.filter_eq_nil_iff.2 fun p hp => by
        have := hold p hp; simp; omega
      simp [List.filter_append, hnone]
    · rw [List.filter_append, total_append]
      by_cases hx : now = x
      · subst hx
        have hnone : l.filter (·.start = now) = [] := List.filter_eq_nil_iff.2 fun p hp => by
          have := hold p hp; simp; omega
        simpa [hnone] using fits
      · simpa [List.filter_singleton, hx] using h.capped x

theorem Chain.ok (h : Chain cap seconds w l w') (hs : 0 < seconds) : Ok cap seconds l w' := by
  induction h with
  | nil => exact ⟨by simp, by simp, by simp, by simp, by simp, by simp⟩
  | snoc _ hpos hle ha ih => exact ih.snoc hs hpos hle ha

/-- The spends of one window sum to at most the cap. -/
theorem Chain.total_start_le (h : Chain cap seconds w l w') (hs : 0 < seconds) (x : ℕ) :
    total (l.filter (·.start = x)) ≤ cap :=
  (h.ok hs).capped x

theorem total_le_of_sublist {l l' : List Spend} (h : l.Sublist l') : total l ≤ total l' :=
  (h.map Spend.amount).sum_le_sum fun _ _ => Nat.zero_le _

/-- Spends whose windows start less than one window length apart share one window. -/
theorem Ok.total_filter_le (h : Ok cap seconds l w) {p : Spend → Bool}
    (hp : ∀ a ∈ l, ∀ b ∈ l, p a = true → p b = true → a.start < b.start + seconds) :
    total (l.filter p) ≤ cap := by
  by_cases hne : l.filter p = []
  · simp [hne]
  obtain ⟨a, ha⟩ := List.exists_mem_of_ne_nil _ hne
  obtain ⟨hal, hpa⟩ := List.mem_filter.1 ha
  have hsame : (l.filter p).filter (·.start = a.start) = l.filter p :=
    List.filter_eq_self.2 fun b hb => by
      obtain ⟨hbl, hpb⟩ := List.mem_filter.1 hb
      have h₁ := hp a hal b hbl hpa hpb
      have h₂ := hp b hbl a hal hpb hpa
      rcases h.apart b hbl a hal with h₃ | h₃ | h₃
      · simpa using h₃
      · omega
      · omega
  have hsub : (l.filter p).Sublist (l.filter (·.start = a.start)) := by
    rw [← hsame]; exact List.filter_sublist.filter _
  exact (total_le_of_sublist hsub).trans (h.capped a.start)

theorem total_filter_or (l : List Spend) (p q : Spend → Bool) :
    total (l.filter p) = total (l.filter fun a => p a && q a) +
      total (l.filter fun a => p a && !q a) := by
  induction l with
  | nil => rfl
  | cons a l ih =>
    simp only [total, List.filter_cons] at ih ⊢
    cases p a <;> cases q a <;> simp <;> omega

/-- **Twice the cap.**  The spends in any half-open interval as long as the window sum to at
most twice the cap: the windows they were counted in started either up to the beginning of the
interval, or after it, and each group is one window. -/
theorem Chain.total_interval_le (h : Chain cap seconds w l w') (hs : 0 < seconds) (a : ℕ) :
    total (l.filter fun p => a ≤ p.time ∧ p.time < a + seconds) ≤ 2 * cap := by
  have hok := h.ok hs
  rw [total_filter_or _ _ fun p => p.start ≤ a]
  have h₁ : total (l.filter fun p =>
      decide (a ≤ p.time ∧ p.time < a + seconds) && decide (p.start ≤ a)) ≤ cap :=
    hok.total_filter_le fun p hp q hq hpa hqa => by
      have := hok.time q hq
      simp only [Bool.and_eq_true, decide_eq_true_eq] at hpa hqa
      omega
  have h₂ : total (l.filter fun p =>
      decide (a ≤ p.time ∧ p.time < a + seconds) && !decide (p.start ≤ a)) ≤ cap :=
    hok.total_filter_le fun p hp q hq hpa hqa => by
      have := hok.time p hp
      simp only [Bool.and_eq_true, decide_eq_true_eq, Bool.not_eq_true', decide_eq_false_iff_not]
        at hpa hqa
      omega
  omega

end Anchored

end Obolos
