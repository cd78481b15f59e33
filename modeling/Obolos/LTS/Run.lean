import Mathlib.Data.List.Induction
import Mathlib.Order.Nat

/-!
# Labelled transition systems with recorded runs

The contracts, the local executors and the task table are all given a semantics as a labelled
transition system.  What they promise is mostly about *histories* ("the sum of all successful
spends", "at most one submission"), so a run here keeps every transition it made, with the
states before and after it.

## Main definitions

* `LTS S L` : a transition relation `S → L → S → Prop`.
* `LTS.Run s τ t` : performing the transitions of `τ` in order leads from `s` to `t`.
* `LTS.Run.invariant` : inductive invariants hold at the end of every run.
* `LTS.Run.countP_change` : what stays true becomes true in at most one step.
* `LTS.Run.pinned` : data that only changes when a counter grows is determined by the counter.
* `LTS.Run.between` : of any two states of a run, one leads to the other.
* `LTS.Run.simulate` : a step-by-step simulation (with stuttering) carries runs over.
* `LTS.play` : the run of a deterministic system on a list of commands.
-/

namespace Obolos

/-- One recorded transition. -/
structure Tr (S L : Type*) where
  /-- The state before the transition. -/
  pre : S
  /-- What happened. -/
  lab : L
  /-- The state after the transition. -/
  post : S

/-- A labelled transition system. -/
structure LTS (S L : Type*) where
  /-- `step s l t`: the system can move from `s` to `t` performing `l`. -/
  step : S → L → S → Prop

namespace LTS

variable {S L : Type*}

/-- `Run A s τ t`: the recorded transitions `τ` lead from `s` to `t`. -/
inductive Run (A : LTS S L) : S → List (Tr S L) → S → Prop
  | nil (s : S) : Run A s [] s
  | snoc {s t u : S} {τ : List (Tr S L)} {l : L} :
      Run A s τ t → A.step t l u → Run A s (τ ++ [⟨t, l, u⟩]) u

/-- The states a run from `s` goes through. -/
def states (s : S) (τ : List (Tr S L)) : List S := s :: τ.map Tr.post

variable {A : LTS S L} {s t u : S} {τ σ : List (Tr S L)}

namespace Run

theorem append (h : A.Run s τ t) (h' : A.Run t σ u) : A.Run s (τ ++ σ) u := by
  induction h' with
  | nil => simpa using h
  | snoc _ hst ih => rw [← List.append_assoc]; exact ih.snoc hst

@[simp] theorem nil_iff : A.Run s [] t ↔ s = t := by
  constructor
  · intro h
    generalize hτ : ([] : List (Tr S L)) = τ at h
    cases h with
    | nil => rfl
    | snoc _ _ => simp at hτ
  · rintro rfl; exact nil s

theorem snoc_iff {e : Tr S L} :
    A.Run s (τ ++ [e]) u ↔ A.Run s τ e.pre ∧ A.step e.pre e.lab e.post ∧ e.post = u := by
  constructor
  · intro h
    generalize hσ : τ ++ [e] = σ at h
    cases h with
    | nil => simp at hσ
    | snoc h hst =>
      obtain ⟨rfl, he⟩ := List.append_inj' hσ rfl
      obtain rfl : e = ⟨_, _, _⟩ := by simpa using he
      exact ⟨h, hst, rfl⟩
  · rintro ⟨h, hst, rfl⟩; exact h.snoc hst

/-- A run over a concatenation passes through a middle state. -/
theorem split (h : A.Run s (τ ++ σ) u) : ∃ t, A.Run s τ t ∧ A.Run t σ u := by
  induction σ using List.reverseRecOn generalizing u with
  | nil => exact ⟨u, by simpa using h, nil u⟩
  | append_singleton σ e ih =>
    rw [← List.append_assoc, snoc_iff] at h
    obtain ⟨h, hst, rfl⟩ := h
    obtain ⟨t, h₁, h₂⟩ := ih h
    exact ⟨t, h₁, h₂.snoc hst⟩

theorem cons_iff {e : Tr S L} :
    A.Run s (e :: τ) u ↔ s = e.pre ∧ A.step e.pre e.lab e.post ∧ A.Run e.post τ u := by
  constructor
  · intro h
    obtain ⟨t, h₁, h₂⟩ := split (τ := [e]) h
    have h₁' : A.Run s ([] ++ [e]) t := by simpa using h₁
    rw [snoc_iff] at h₁'
    obtain ⟨h₀, hst, rfl⟩ := h₁'
    exact ⟨nil_iff.1 h₀, hst, h₂⟩
  · rintro ⟨rfl, hst, h⟩
    exact append (τ := [e]) ((nil _).snoc hst) h

/-- The state in the middle of a run is the one recorded by the transition there. -/
theorem split_at {e : Tr S L} (h : A.Run s (τ ++ e :: σ) u) :
    A.Run s τ e.pre ∧ A.step e.pre e.lab e.post ∧ A.Run e.post σ u := by
  obtain ⟨t, h₁, h₂⟩ := h.split
  obtain ⟨rfl, hst, h₃⟩ := cons_iff.1 h₂
  exact ⟨h₁, hst, h₃⟩

theorem step_of_mem {e : Tr S L} (h : A.Run s τ t) (he : e ∈ τ) : A.step e.pre e.lab e.post := by
  obtain ⟨τ₁, τ₂, rfl⟩ := List.append_of_mem he
  exact h.split_at.2.1

/-- What is not true at first and true in the end becomes true in some step. -/
theorem exists_change {P : S → Prop} (h : A.Run s τ t) (hs : ¬ P s) (ht : P t) :
    ∃ e ∈ τ, ¬ P e.pre ∧ P e.post := by
  induction h with
  | nil => exact absurd ht hs
  | @snoc t u τ l hrun hst ih =>
    by_cases hP : P t
    · obtain ⟨e, he, hchange⟩ := ih hP
      exact ⟨e, List.mem_append_left _ he, hchange⟩
    · exact ⟨⟨t, l, u⟩, by simp, hP, ht⟩

/-- A run can be cut at any state it goes through. -/
theorem cut (h : A.Run s τ u) (ht : t ∈ states s τ) :
    ∃ τ₁ τ₂, τ = τ₁ ++ τ₂ ∧ A.Run s τ₁ t ∧ A.Run t τ₂ u := by
  rcases List.mem_cons.1 ht with rfl | ht
  · exact ⟨[], τ, rfl, nil _, h⟩
  · obtain ⟨e, he, rfl⟩ := List.mem_map.1 ht
    obtain ⟨τ₁, τ₂, rfl⟩ := List.append_of_mem he
    obtain ⟨h₁, hst, h₂⟩ := h.split_at
    exact ⟨τ₁ ++ [e], τ₂, by simp, h₁.snoc hst, h₂⟩

/-- Of two states a run goes through, one leads to the other. -/
theorem between {v : S} (h : A.Run s τ v) (ht : t ∈ states s τ) (hu : u ∈ states s τ) :
    (∃ σ, A.Run t σ u) ∨ ∃ σ, A.Run u σ t := by
  induction h with
  | nil =>
    obtain rfl : t = s := by simpa [states] using ht
    obtain rfl : u = t := by simpa [states] using hu
    exact Or.inl ⟨[], nil _⟩
  | @snoc x y τ l h hst ih =>
    have hmem : ∀ {z : S}, z ∈ states s (τ ++ [⟨x, l, y⟩]) ↔ z ∈ states s τ ∨ z = y := by
      simp [states, or_assoc]
    have hend : ∀ {z : S}, z ∈ states s τ → ∃ σ, A.Run z σ y := fun hz => by
      obtain ⟨_, τ₂, -, -, h₂⟩ := h.cut hz
      exact ⟨_, h₂.snoc hst⟩
    rw [hmem] at ht hu
    rcases ht with ht | rfl <;> rcases hu with hu | rfl
    · exact ih ht hu
    · exact Or.inl (hend ht)
    · exact Or.inr (hend hu)
    · exact Or.inl ⟨[], nil _⟩

theorem pre_mem_states {e : Tr S L} (h : A.Run s τ t) (he : e ∈ τ) : e.pre ∈ states s τ := by
  obtain ⟨τ₁, τ₂, rfl⟩ := List.append_of_mem he
  obtain ⟨h₁, -, -⟩ := h.split_at
  induction τ₁ using List.reverseRecOn with
  | nil => simp [states, nil_iff.1 h₁]
  | append_singleton τ₁ e' _ =>
    rw [snoc_iff] at h₁
    simp [states, ← h₁.2.2]

theorem end_mem_states (h : A.Run s τ t) : t ∈ states s τ := by
  cases h with
  | nil => simp [states]
  | snoc _ _ => simp [states]

/-- An inductive invariant holds at the end of a run. -/
theorem invariant {I : S → Prop} (h : A.Run s τ t) (h₀ : I s)
    (hstep : ∀ s l t, I s → A.step s l t → I t) : I t := by
  induction h with
  | nil => exact h₀
  | snoc _ hst ih => exact hstep _ _ _ ih hst

/-- An invariant of the transitions with the labels that occur in the run. -/
theorem invariant_of_labels {I : S → Prop} {P : L → Prop} (h : A.Run s τ t)
    (hlabels : ∀ e ∈ τ, P e.lab) (h₀ : I s)
    (hstep : ∀ s l t, P l → I s → A.step s l t → I t) : I t := by
  induction h with
  | nil => exact h₀
  | snoc h hst ih =>
    have hlast := hlabels _ (List.mem_append_right _ (List.mem_singleton_self _))
    exact hstep _ _ _ hlast (ih fun e he => hlabels e (List.mem_append_left _ he)) hst

/-- An inductive invariant holds before and after every transition of a run. -/
theorem invariant_of_mem {I : S → Prop} {e : Tr S L} (h : A.Run s τ t) (h₀ : I s)
    (hstep : ∀ s l t, I s → A.step s l t → I t) (he : e ∈ τ) : I e.pre ∧ I e.post := by
  obtain ⟨τ₁, τ₂, rfl⟩ := List.append_of_mem he
  obtain ⟨h₁, hst, -⟩ := h.split_at
  have hpre := h₁.invariant h₀ hstep
  exact ⟨hpre, hstep _ _ _ hpre hst⟩

/-- What stays true once it is true becomes true in at most one step. -/
theorem countP_change {I P : S → Prop} [DecidablePred P] (h : A.Run s τ t) (h₀ : I s)
    (hI : ∀ s l t, I s → A.step s l t → I t)
    (hstable : ∀ s l t, I s → A.step s l t → P s → P t) :
    τ.countP (fun e => ¬ P e.pre ∧ P e.post) ≤ if P t then 1 else 0 := by
  induction h with
  | nil => exact Nat.zero_le _
  | @snoc t u τ l h hst ih =>
    rw [List.countP_append, List.countP_singleton]
    by_cases hP : P t
    · have hu := hstable _ _ _ (h.invariant h₀ hI) hst hP
      simpa [hP, hu] using ih
    · rw [if_neg hP, Nat.le_zero] at ih
      rw [ih, Nat.zero_add]
      by_cases hu : P u <;> simp [hP, hu]

/-- A reflexive and transitive relation that every step from an `I`-state respects relates the
two ends of a run. -/
theorem rel {I : S → Prop} {R : S → S → Prop} (h : A.Run s τ t) (h₀ : I s)
    (hI : ∀ s l t, I s → A.step s l t → I t) (hrefl : ∀ s, R s s)
    (htrans : ∀ s t u, R s t → R t u → R s u)
    (hstep : ∀ s l t, I s → A.step s l t → R s t) : R s t := by
  induction h with
  | nil => exact hrefl _
  | snoc h hst ih =>
    exact htrans _ _ _ ih (hstep _ _ _ (h.invariant h₀ hI) hst)

/-- **Pinning.**  If every step either leaves both the counter `v` and the data `f` alone or
makes the counter grow, then the counter never decreases along a run, and two states of a run
with the same counter carry the same data. -/
theorem pinned {I : S → Prop} {β : Type*} {v : S → ℕ} {f : S → β} (h : A.Run s τ t) (h₀ : I s)
    (hI : ∀ s l t, I s → A.step s l t → I t)
    (hstep : ∀ s l t, I s → A.step s l t → v s < v t ∨ (v s = v t ∧ f s = f t)) :
    v s ≤ v t ∧ (v s = v t → f s = f t) := by
  refine h.rel (R := fun s t => v s ≤ v t ∧ (v s = v t → f s = f t)) h₀ hI
    (fun s => ⟨Nat.le_refl _, fun _ => rfl⟩) ?_ ?_
  · rintro s t u ⟨hst, hst'⟩ ⟨htu, htu'⟩
    refine ⟨hst.trans htu, fun hsu => ?_⟩
    have h₁ : v s = v t := by omega
    exact (hst' h₁).trans (htu' (by omega))
  · intro s l t hs hst
    rcases hstep s l t hs hst with hlt | ⟨heq, hf⟩
    · exact ⟨hlt.le, fun he => absurd he hlt.ne⟩
    · exact ⟨heq.le, fun _ => hf⟩

/-- **Simulation.**  If every transition of `A` from related states is matched by the transition
of `B` that `obs` names, or by none when `obs` names none, then a run of `A` is matched by a run
of `B` with the named labels. -/
theorem simulate {S' L' : Type*} {B : LTS S' L'} {R : S → S' → Prop} {obs : Tr S L → Option L'}
    {I : S → Prop} {s' : S'} (h : A.Run s τ t) (hR : R s s') (h₀ : I s)
    (hI : ∀ s l t, I s → A.step s l t → I t)
    (hstep : ∀ s l t s', I s → R s s' → A.step s l t →
      match obs ⟨s, l, t⟩ with
      | none => R t s'
      | some l' => ∃ t', B.step s' l' t' ∧ R t t') :
    ∃ τ' t', B.Run s' τ' t' ∧ R t t' ∧ τ'.map Tr.lab = τ.filterMap obs := by
  induction h with
  | nil => exact ⟨[], s', nil s', hR, rfl⟩
  | @snoc t u τ l h hst ih =>
    obtain ⟨τ', t', hrun, hRt, hlab⟩ := ih
    have hs := hstep _ _ _ _ (h.invariant h₀ hI) hRt hst
    cases ho : obs ⟨t, l, u⟩ with
    | none =>
      rw [ho] at hs
      exact ⟨τ', t', hrun, hs, by simp [List.filterMap_append, hlab, ho]⟩
    | some l' =>
      rw [ho] at hs
      obtain ⟨u', hst', hRu⟩ := hs
      exact ⟨_, u', hrun.snoc hst', hRu, by simp [List.filterMap_append, hlab, ho]⟩

end Run

/-! ### Executing commands -/

section Play

variable {C : Type*} (f : S → C → Tr S L)

/-- Perform commands one after the other, recording every transition. -/
def play (s : S) : List C → List (Tr S L) × S
  | [] => ([], s)
  | c :: cs =>
      let e := f s c
      let rest := play e.post cs
      (e :: rest.1, rest.2)

/-- Every command is allowed in the state it is performed in. -/
def Playable (ok : S → C → Prop) (s : S) : List C → Prop
  | [] => True
  | c :: cs => ok s c ∧ Playable ok (f s c).post cs

instance decidablePlayable (ok : S → C → Prop) [∀ s c, Decidable (ok s c)] :
    ∀ (s : S) (cs : List C), Decidable (Playable f ok s cs)
  | _, [] => .isTrue trivial
  | s, c :: cs =>
      have := decidablePlayable ok (f s c).post cs
      inferInstanceAs (Decidable (ok s c ∧ Playable f ok (f s c).post cs))

/-- Performing allowed commands is a run. -/
theorem Run.play {f : S → C → Tr S L} {ok : S → C → Prop}
    (hf : ∀ s c, ok s c → (f s c).pre = s ∧ A.step s (f s c).lab (f s c).post)
    (s : S) (cs : List C) (h : Playable f ok s cs) :
    A.Run s (LTS.play f s cs).1 (LTS.play f s cs).2 := by
  induction cs generalizing s with
  | nil => exact .nil s
  | cons c cs ih =>
    obtain ⟨hpre, hst⟩ := hf s c h.1
    exact cons_iff.2 ⟨hpre.symm, by rw [hpre]; exact hst, ih _ h.2⟩

end Play

end LTS

end Obolos
