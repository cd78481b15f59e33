import Mathlib.Order.Basic
import Mathlib.Tactic.SplitIfs

/-!
# Programs with effects and exceptions

An `async` function is a value of `Prog`: it returns, throws, or awaits an effect and goes on
with the outcome, which may itself be an exception.  Between two effects a program can be
interrupted or killed; what an effect does to the shared world is not part of the program.

`Prog.wp` is the weakest precondition of a program that runs among others: between its effects
the world may change as its `rely` says, and every effect must respect its `guar`.  The rules
`wp_bind`, `wp_tryCatch` and `wp_finally` make it compositional.
-/

namespace Obolos

/-- A program with effects `o : O` answered by `R o`, exceptions in `ε` and results in `α`. -/
inductive Prog (O : Type) (R : O → Type) (ε : Type) (α : Type) : Type
  | pure (a : α)
  | throw (e : ε)
  | call (o : O) (k : Except ε (R o) → Prog O R ε α)

namespace Prog

variable {O : Type} {R : O → Type} {ε α β D : Type}

/-- Sequencing; an exception skips the rest. -/
def bind : Prog O R ε α → (α → Prog O R ε β) → Prog O R ε β
  | .pure a, f => f a
  | .throw e, _ => .throw e
  | .call o k, f => .call o fun r => (k r).bind f

/-- `try { p } catch (e) { h e }` -/
def tryCatch : Prog O R ε α → (ε → Prog O R ε α) → Prog O R ε α
  | .pure a, _ => .pure a
  | .throw e, h => h e
  | .call o k, h => .call o fun r => (k r).tryCatch h

/-- `try { p } finally { f }`: `f` runs after `p` in any case, and its exception wins. -/
def andFinally : Prog O R ε α → Prog O R ε Unit → Prog O R ε α
  | .pure a, f => f.bind fun _ => .pure a
  | .throw e, f => f.bind fun _ => .throw e
  | .call o k, f => .call o fun r => (k r).andFinally f

instance : Monad (Prog O R ε) where
  pure := .pure
  bind := bind

instance : MonadExcept ε (Prog O R ε) where
  throw := .throw
  tryCatch := tryCatch

/-- `await` one effect. -/
def await (o : O) : Prog O R ε (R o) :=
  .call o fun r => match r with
    | .ok a => .pure a
    | .error e => .throw e

/-- A computation without effects. -/
def ofExcept : Except ε α → Prog O R ε α
  | .ok a => .pure a
  | .error e => .throw e

/-- The outcome of a program, and the world after it, with the given answers to its effects. -/
def exec (respond : D → (o : O) → Except ε (R o) × D) : Prog O R ε α → D → Except ε α × D
  | .pure a, d => (.ok a, d)
  | .throw e, d => (.error e, d)
  | .call o k, d => (k (respond d o).1).exec respond (respond d o).2

section Exec

variable {respond : D → (o : O) → Except ε (R o) × D} {d : D}

@[simp] theorem exec_pure {a : α} : (Pure.pure a : Prog O R ε α).exec respond d = (.ok a, d) := rfl

@[simp] theorem exec_throw {e : ε} :
    (MonadExcept.throw e : Prog O R ε α).exec respond d = (.error e, d) := rfl

@[simp] theorem exec_await {o : O} :
    (await o : Prog O R ε (R o)).exec respond d = respond d o := by
  show Prog.exec respond (match (respond d o).1 with | .ok a => .pure a | .error e => .throw e)
    (respond d o).2 = respond d o
  cases h : (respond d o).1 <;> exact Prod.ext h.symm rfl

@[simp] theorem exec_ofExcept {x : Except ε α} :
    (ofExcept x : Prog O R ε α).exec respond d = (x, d) := by
  cases x <;> rfl

theorem exec_bind {p : Prog O R ε α} {f : α → Prog O R ε β} :
    (p >>= f).exec respond d = match p.exec respond d with
      | (.ok a, d') => (f a).exec respond d'
      | (.error e, d') => (.error e, d') := by
  show (p.bind f).exec respond d = _
  induction p generalizing d with
  | pure a => rfl
  | throw e => rfl
  | call o k ih => exact ih _

theorem exec_tryCatch {p : Prog O R ε α} {h : ε → Prog O R ε α} :
    (MonadExcept.tryCatch p h).exec respond d = match p.exec respond d with
      | (.ok a, d') => (.ok a, d')
      | (.error e, d') => (h e).exec respond d' := by
  show (p.tryCatch h).exec respond d = _
  induction p generalizing d with
  | pure a => rfl
  | throw e => rfl
  | call o k ih => exact ih _

end Exec

/-! ### Weakest preconditions -/

/-- What a program is to be verified against: how others may change the world between its
effects, what its effects do, and what each of its effects has to respect. -/
structure Spec (D O : Type) (R : O → Type) (ε : Type) where
  rely : D → D → Prop
  sem : D → (o : O) → Except ε (R o) → D → Prop
  guar : D → D → Prop

variable (Φ : Spec D O R ε)

/-- From a world where this holds, every effect of the program respects the guarantee, and the
program ends only in an outcome and a world that satisfy `Q`. -/
def wp : Prog O R ε α → (Except ε α → D → Prop) → D → Prop
  | .pure a, Q, d => Q (.ok a) d
  | .throw e, Q, d => Q (.error e) d
  | .call o k, Q, d =>
      ∀ d₁, Φ.rely d d₁ → ∀ r d₂, Φ.sem d₁ o r d₂ → Φ.guar d₁ d₂ ∧ (k r).wp Q d₂

variable {Φ} {Q Q' : Except ε α → D → Prop} {d : D}

@[simp] theorem wp_pure {a : α} : (Pure.pure a : Prog O R ε α).wp Φ Q d ↔ Q (.ok a) d := Iff.rfl

@[simp] theorem wp_throw {e : ε} :
    (MonadExcept.throw e : Prog O R ε α).wp Φ Q d ↔ Q (.error e) d := Iff.rfl

theorem wp_call {o : O} {k : Except ε (R o) → Prog O R ε α} :
    (call o k).wp Φ Q d ↔
      ∀ d₁, Φ.rely d d₁ → ∀ r d₂, Φ.sem d₁ o r d₂ → Φ.guar d₁ d₂ ∧ (k r).wp Φ Q d₂ := Iff.rfl

theorem wp_mono {p : Prog O R ε α} (h : p.wp Φ Q d) (hQ : ∀ r d, Q r d → Q' r d) :
    p.wp Φ Q' d := by
  induction p generalizing d with
  | pure a => exact hQ _ _ h
  | throw e => exact hQ _ _ h
  | call o k ih =>
    intro d₁ h₁ r d₂ h₂
    obtain ⟨hg, hk⟩ := h d₁ h₁ r d₂ h₂
    exact ⟨hg, ih r hk⟩

/-- The postcondition of the first part of a sequence. -/
def bindPost (Φ : Spec D O R ε) (f : α → Prog O R ε β) (Q : Except ε β → D → Prop) :
    Except ε α → D → Prop
  | .ok a, d => (f a).wp Φ Q d
  | .error e, d => Q (.error e) d

/-- The rule of sequencing. -/
theorem wp_bind {p : Prog O R ε α} {f : α → Prog O R ε β} {Q : Except ε β → D → Prop} :
    (p >>= f).wp Φ Q d ↔ p.wp Φ (bindPost Φ f Q) d := by
  show (p.bind f).wp Φ Q d ↔ _
  induction p generalizing d with
  | pure a => rfl
  | throw e => rfl
  | call o k ih =>
    simp only [bind, wp]
    refine forall_congr' fun d₁ => forall_congr' fun _ => forall_congr' fun r =>
      forall_congr' fun d₂ => forall_congr' fun _ => ?_
    rw [ih]

/-- The postcondition of a body with a handler. -/
def catchPost (Φ : Spec D O R ε) (h : ε → Prog O R ε α) (Q : Except ε α → D → Prop) :
    Except ε α → D → Prop
  | .ok a, d => Q (.ok a) d
  | .error e, d => (h e).wp Φ Q d

/-- The rule of `try … catch`. -/
theorem wp_tryCatch {p : Prog O R ε α} {h : ε → Prog O R ε α} :
    (MonadExcept.tryCatch p h).wp Φ Q d ↔ p.wp Φ (catchPost Φ h Q) d := by
  show (p.tryCatch h).wp Φ Q d ↔ _
  induction p generalizing d with
  | pure a => rfl
  | throw e => rfl
  | call o k ih =>
    simp only [tryCatch, wp]
    refine forall_congr' fun d₁ => forall_congr' fun _ => forall_congr' fun r =>
      forall_congr' fun d₂ => forall_congr' fun _ => ?_
    rw [ih]

/-- The postcondition of a finalizer that runs after the outcome `r`. -/
def finallyPost (Q : Except ε α → D → Prop) (r : Except ε α) : Except ε Unit → D → Prop
  | .ok _, d => Q r d
  | .error e, d => Q (.error e) d

/-- The rule of `try … finally`. -/
theorem wp_finally {p : Prog O R ε α} {f : Prog O R ε Unit} :
    (p.andFinally f).wp Φ Q d ↔ p.wp Φ (fun r => f.wp Φ (finallyPost Q r)) d := by
  induction p generalizing d with
  | pure a =>
    have hpost : bindPost Φ (fun _ => .pure a) Q = finallyPost Q (.ok a) := by
      funext r d; cases r <;> rfl
    show (f.bind fun _ => .pure a).wp Φ Q d ↔ f.wp Φ (finallyPost Q (.ok a)) d
    rw [← hpost]
    exact wp_bind
  | throw e =>
    have hpost : bindPost Φ (fun _ => .throw e) Q = finallyPost Q (.error e) := by
      funext r d; cases r <;> rfl
    show (f.bind fun _ => .throw e).wp Φ Q d ↔ f.wp Φ (finallyPost Q (.error e)) d
    rw [← hpost]
    exact wp_bind
  | call o k ih =>
    simp only [andFinally, wp]
    refine forall_congr' fun d₁ => forall_congr' fun _ => forall_congr' fun r =>
      forall_congr' fun d₂ => forall_congr' fun _ => ?_
    rw [ih]

/-- The rule of one effect. -/
theorem wp_await {o : O} {Q : Except ε (R o) → D → Prop} :
    (await o : Prog O R ε (R o)).wp Φ Q d ↔
      ∀ d₁, Φ.rely d d₁ → ∀ r d₂, Φ.sem d₁ o r d₂ → Φ.guar d₁ d₂ ∧ Q r d₂ := by
  refine forall_congr' fun d₁ => forall_congr' fun _ => forall_congr' fun r =>
    forall_congr' fun d₂ => forall_congr' fun _ => ?_
  cases r <;> rfl

@[simp] theorem wp_ofExcept {x : Except ε α} :
    (ofExcept x : Prog O R ε α).wp Φ Q d ↔ Q x d := by
  cases x <;> rfl

/-- The rule of a mapped result. -/
theorem wp_map {p : Prog O R ε α} {f : α → β} {Q : Except ε β → D → Prop} :
    (f <$> p).wp Φ Q d ↔ p.wp Φ (fun r => Q (r.map f)) d := by
  have hpost : bindPost Φ (fun a => (.pure (f a) : Prog O R ε β)) Q = fun r => Q (r.map f) := by
    funext r d; cases r <;> rfl
  rw [← hpost]
  exact wp_bind

/-- The rule of a conditional. -/
theorem wp_ite {c : Prop} [Decidable c] {p q : Prog O R ε α} (hp : c → p.wp Φ Q d)
    (hq : ¬ c → q.wp Φ Q d) : (if c then p else q).wp Φ Q d := by
  split_ifs with h
  · exact hp h
  · exact hq h

/-! ### Postconditions with an invariant -/

/-- `I` whatever the outcome, and `P` of a result. -/
def post (I : D → Prop) (P : α → D → Prop) : Except ε α → D → Prop
  | .ok a, d => I d ∧ P a d
  | .error _, d => I d

variable {I I' : D → Prop} {P P' : α → D → Prop}

theorem post_mono (hI : ∀ d, I d → I' d) (hP : ∀ a d, I d → P a d → P' a d) {r : Except ε α}
    (h : post I P r d) : post I' P' r d := by
  cases r with
  | ok a => exact ⟨hI d h.1, hP a d h.1 h.2⟩
  | error e => exact hI d h

theorem wp_post_mono {p : Prog O R ε α} (h : p.wp Φ (post I P) d) (hI : ∀ d, I d → I' d)
    (hP : ∀ a d, I d → P a d → P' a d) : p.wp Φ (post I' P') d :=
  wp_mono h fun _ _ => post_mono hI hP

/-- One part of a sequence after the other. -/
theorem wp_seq {p : Prog O R ε α} {f : α → Prog O R ε β} {P' : β → D → Prop}
    (hp : p.wp Φ (post I P) d) (hI : ∀ d, I d → I' d)
    (hf : ∀ a d, I d → P a d → (f a).wp Φ (post I' P') d) : (p >>= f).wp Φ (post I' P') d := by
  rw [wp_bind]
  refine wp_mono hp fun r d h => ?_
  cases r with
  | ok a => exact hf a d h.1 h.2
  | error e => exact hI d h

/-- A body and its handler. -/
theorem wp_catch {p : Prog O R ε α} {h : ε → Prog O R ε α} (hp : p.wp Φ (post I P) d)
    (hI : ∀ a d, I d → P a d → I' d ∧ P' a d)
    (hh : ∀ e d, I d → (h e).wp Φ (post I' P') d) :
    (MonadExcept.tryCatch p h).wp Φ (post I' P') d := by
  rw [wp_tryCatch]
  refine wp_mono hp fun r d hr => ?_
  cases r with
  | ok a => exact hI a d hr.1 hr.2
  | error e => exact hh e d hr

/-- A computation without effects. -/
theorem wp_ofExcept_post {x : Except ε α} (hI : I d) (hP : ∀ a, x = .ok a → P a d) :
    (ofExcept x : Prog O R ε α).wp Φ (post I P) d := by
  rw [wp_ofExcept]
  cases x with
  | ok a => exact ⟨hI, hP a rfl⟩
  | error e => exact hI

/-- Others may act before the program does. -/
theorem wp_rely {p : Prog O R ε α} {d' : D} (h : p.wp Φ Q d)
    (hrely : ∀ d'', Φ.rely d' d'' → Φ.rely d d'') (hQ : ∀ r, Q r d → Q r d') : p.wp Φ Q d' := by
  cases p with
  | pure a => exact hQ _ h
  | throw e => exact hQ _ h
  | call o k => exact fun d₁ h₁ => h d₁ (hrely d₁ h₁)

/-- What was verified holds of the outcome with given answers; the environment may keep more than
the world. -/
theorem wp_exec {E : Type} {view : E → D} {respond : E → (o : O) → Except ε (R o) × E}
    (hsem : ∀ e o, Φ.sem (view e) o (respond e o).1 (view (respond e o).2))
    (hrely : ∀ d, Φ.rely d d) {p : Prog O R ε α} {e : E} (h : p.wp Φ Q (view e)) :
    Q (p.exec respond e).1 (view (p.exec respond e).2) := by
  induction p generalizing e with
  | pure a => exact h
  | throw x => exact h
  | call o k ih => exact ih _ (h _ (hrely _) _ _ (hsem e o)).2

-- From here on programs are verified by the rules, never by running them.
attribute [irreducible] wp

end Prog

end Obolos
