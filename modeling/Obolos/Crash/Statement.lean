import Obolos.Crash.Prog

/-!
# Statements on a shared store

A database executes each statement in one step: it answers and changes the store, or it refuses
and changes nothing.  Its client is elsewhere, so it may also lose the statement, or the answer to
a statement that has been carried out; it cannot tell the two apart.
-/

namespace Obolos

/-- A statement, with an answer in `α` or a refusal in `ε`. -/
abbrev Statement (D ε α : Type) := D → Except ε (α × D)

namespace Statement

variable {D ε α β : Type}

/-- What a client sees of a statement that is executed on the store `d`, and the store after it;
`lost` are the exceptions of a broken connection. -/
inductive Answers (lost : ε → Prop) (f : Statement D ε α) (d : D) : Except ε α → D → Prop
  | done {a : α} {d' : D} (done : f d = .ok (a, d')) : Answers lost f d (.ok a) d'
  | refused {e : ε} (refused : f d = .error e) : Answers lost f d (.error e) d
  | unsent {e : ε} (broken : lost e) : Answers lost f d (.error e) d
  | unanswered {e : ε} {a : α} {d' : D} (broken : lost e) (done : f d = .ok (a, d')) :
      Answers lost f d (.error e) d'

/-- Read something from the store. -/
def read (f : D → α) : Statement D ε α := fun d => .ok (f d, d)

variable {lost : ε → Prop} {f : Statement D ε α} {d d' : D} {r : Except ε α}

/-- The store is changed as the statement does, or not at all. -/
theorem Answers.changes (h : Answers lost f d r d') : d' = d ∨ ∃ a, f d = .ok (a, d') := by
  cases h with
  | done done => exact Or.inr ⟨_, done⟩
  | refused => exact Or.inl rfl
  | unsent => exact Or.inl rfl
  | unanswered broken done => exact Or.inr ⟨_, done⟩

/-- An answer is that of the statement. -/
theorem Answers.ok {a : α} (h : Answers lost f d (.ok a) d') : f d = .ok (a, d') := by
  cases h with
  | done done => exact done

/-- A statement that only reads. -/
theorem Answers.read {f : D → α} (h : Answers lost (read f) d r d') :
    d' = d ∧ ∀ a, r = .ok a → a = f d := by
  have hd : d' = d := by
    rcases h.changes with rfl | ⟨a, ha⟩
    · rfl
    · exact (Prod.mk.inj (Except.ok.inj ha)).2.symm
  refine ⟨hd, fun a ha => ?_⟩
  subst ha
  exact (Prod.mk.inj (Except.ok.inj h.ok)).1.symm

end Statement

end Obolos
