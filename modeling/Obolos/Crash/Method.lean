import Obolos.Crash.Prog

/-!
# Methods of an object

An `async` function that works on an object it was handed changes it in place, and what it has
changed stays changed when it throws.  A `Method` is such a function: a program that is given the
object and ends with an outcome, which may be an exception, and with the object.

The rules are those of `Prog`, with the object at hand in the postcondition.
-/

namespace Obolos

/-- A function with results in `α` that works in place on an object in `σ`. -/
def Method (O : Type) (R : O → Type) (ε σ α : Type) : Type := σ → Prog O R ε (Except ε α × σ)

namespace Method

variable {O : Type} {R : O → Type} {ε σ α β D : Type}

/-- Sequencing; an exception skips the rest. -/
def bind (m : Method O R ε σ α) (f : α → Method O R ε σ β) : Method O R ε σ β := fun s =>
  (m s).bind fun p => match p with
    | (.ok a, s') => f a s'
    | (.error e, s') => .pure (.error e, s')

/-- `try { m } catch (e) { h e }` -/
def catching (m : Method O R ε σ α) (h : ε → Method O R ε σ α) : Method O R ε σ α := fun s =>
  (m s).bind fun p => match p with
    | (.ok a, s') => .pure (.ok a, s')
    | (.error e, s') => h e s'

instance : Monad (Method O R ε σ) where
  pure a := fun s => .pure (.ok a, s)
  bind := bind

instance : MonadExcept ε (Method O R ε σ) where
  throw e := fun s => .pure (.error e, s)
  tryCatch := catching

/-- The object. -/
def self : Method O R ε σ σ := fun s => .pure (.ok s, s)

/-- Change the object. -/
def modify (f : σ → σ) : Method O R ε σ Unit := fun s => .pure (.ok (), f s)

/-- `await` one effect. -/
def await (o : O) : Method O R ε σ (R o) := fun s => .call o fun r => .pure (r, s)

/-- A computation without effects. -/
def ofExcept (x : Except ε α) : Method O R ε σ α := fun s => .pure (x, s)

/-- `if (c) { m }` -/
def onlyIf (c : Prop) [Decidable c] (m : Method O R ε σ Unit) : Method O R ε σ Unit :=
  if c then m else pure ()

/-! ### Weakest preconditions -/

/-- The postcondition of the program of a method: the program itself never throws. -/
def post (Q : Except ε α → σ → D → Prop) : Except ε (Except ε α × σ) → D → Prop
  | .ok p, d => Q p.1 p.2 d
  | .error _, _ => False

variable (Φ : Prog.Spec D O R ε)

/-- What holds before, so that the method ends in an outcome, an object and a world in `Q`. -/
def wp (m : Method O R ε σ α) (Q : Except ε α → σ → D → Prop) (s : σ) (d : D) : Prop :=
  (m s).wp Φ (post Q) d

variable {Φ} {Q Q' : Except ε α → σ → D → Prop} {s : σ} {d : D}

@[simp] theorem wp_pure {a : α} :
    (Pure.pure a : Method O R ε σ α).wp Φ Q s d ↔ Q (.ok a) s d := Prog.wp_pure

@[simp] theorem wp_throw {e : ε} :
    (MonadExcept.throw e : Method O R ε σ α).wp Φ Q s d ↔ Q (.error e) s d := Prog.wp_pure

@[simp] theorem wp_self {Q : Except ε σ → σ → D → Prop} :
    (self : Method O R ε σ σ).wp Φ Q s d ↔ Q (.ok s) s d := Prog.wp_pure

@[simp] theorem wp_modify {f : σ → σ} {Q : Except ε Unit → σ → D → Prop} :
    (modify f : Method O R ε σ Unit).wp Φ Q s d ↔ Q (.ok ()) (f s) d := Prog.wp_pure

@[simp] theorem wp_ofExcept {x : Except ε α} :
    (ofExcept x : Method O R ε σ α).wp Φ Q s d ↔ Q x s d := Prog.wp_pure

theorem wp_mono {m : Method O R ε σ α} (h : m.wp Φ Q s d) (hQ : ∀ r s d, Q r s d → Q' r s d) :
    m.wp Φ Q' s d := by
  refine Prog.wp_mono h fun r d hr => ?_
  cases r with
  | ok p => exact hQ _ _ _ hr
  | error e => exact hr

/-- The rule of sequencing. -/
theorem wp_bind {m : Method O R ε σ α} {f : α → Method O R ε σ β}
    {Q : Except ε β → σ → D → Prop} :
    (m >>= f).wp Φ Q s d ↔
      m.wp Φ (fun r s d => match r with
        | .ok a => (f a).wp Φ Q s d
        | .error e => Q (.error e) s d) s d := by
  show ((m s).bind _).wp Φ (post Q) d ↔ _
  refine Prog.wp_bind.trans (iff_of_eq ?_)
  unfold wp
  congr 1
  funext r d
  rcases r with e | ⟨_ | a, s'⟩
  · rfl
  · exact propext Prog.wp_pure
  · rfl

/-- The rule of `try … catch`. -/
theorem wp_tryCatch {m : Method O R ε σ α} {h : ε → Method O R ε σ α} :
    (MonadExcept.tryCatch m h).wp Φ Q s d ↔
      m.wp Φ (fun r s d => match r with
        | .ok a => Q (.ok a) s d
        | .error e => (h e).wp Φ Q s d) s d := by
  show ((m s).bind _).wp Φ (post Q) d ↔ _
  refine Prog.wp_bind.trans (iff_of_eq ?_)
  unfold wp
  congr 1
  funext r d
  rcases r with e | ⟨_ | a, s'⟩
  · rfl
  · rfl
  · exact propext Prog.wp_pure

/-- The rule of one effect. -/
theorem wp_await {o : O} {Q : Except ε (R o) → σ → D → Prop} :
    (await o : Method O R ε σ (R o)).wp Φ Q s d ↔
      ∀ d₁, Φ.rely d d₁ → ∀ r d₂, Φ.sem d₁ o r d₂ → Φ.guar d₁ d₂ ∧ Q r s d₂ := by
  refine Prog.wp_call.trans ?_
  refine forall_congr' fun d₁ => forall_congr' fun _ => forall_congr' fun r =>
    forall_congr' fun d₂ => forall_congr' fun _ => ?_
  exact and_congr_right fun _ => Prog.wp_pure

/-- The rule of a conditional. -/
theorem wp_ite {c : Prop} [Decidable c] {m n : Method O R ε σ α} (hm : c → m.wp Φ Q s d)
    (hn : ¬ c → n.wp Φ Q s d) : (if c then m else n).wp Φ Q s d := by
  split_ifs with h
  · exact hm h
  · exact hn h

/-- The rule of a statement that is skipped unless `c`. -/
theorem wp_onlyIf {c : Prop} [Decidable c] {m : Method O R ε σ Unit}
    {Q : Except ε Unit → σ → D → Prop} (hm : c → m.wp Φ Q s d) (hn : ¬ c → Q (.ok ()) s d) :
    (onlyIf c m).wp Φ Q s d := wp_ite hm fun h => wp_pure.2 (hn h)

/-- A method that is called by a program. -/
theorem wp_call {m : Method O R ε σ α} {f : Except ε α × σ → Prog O R ε β}
    {Q : Except ε β → D → Prop}
    (h : m.wp Φ (fun r s d => (f (r, s)).wp Φ Q d) s d) : (m s >>= f).wp Φ Q d := by
  rw [Prog.wp_bind]
  refine Prog.wp_mono h fun r d hr => ?_
  cases r with
  | ok p => exact hr
  | error e => exact hr.elim

/-! ### What a method keeps -/

/-- Whatever the outcome, `I` holds of the object and the world afterwards if it held before. -/
def Keeps (Φ : Prog.Spec D O R ε) (I : σ → D → Prop) (m : Method O R ε σ α) : Prop :=
  ∀ s d, I s d → m.wp Φ (fun _ => I) s d

namespace Keeps

variable {I : σ → D → Prop} {m : Method O R ε σ α}

theorem pure (a : α) : Keeps Φ I (Pure.pure a : Method O R ε σ α) := fun _ _ h => wp_pure.2 h

theorem throw (e : ε) : Keeps Φ I (MonadExcept.throw e : Method O R ε σ α) := fun _ _ h =>
  wp_throw.2 h

theorem self : Keeps Φ I (self : Method O R ε σ σ) := fun _ _ h => wp_self.2 h

theorem ofExcept (x : Except ε α) : Keeps Φ I (ofExcept x : Method O R ε σ α) := fun _ _ h =>
  wp_ofExcept.2 h

theorem modify {f : σ → σ} (hf : ∀ s d, I s d → I (f s) d) :
    Keeps Φ I (modify f : Method O R ε σ Unit) := fun s d h => wp_modify.2 (hf s d h)

theorem bind {f : α → Method O R ε σ β} (hm : Keeps Φ I m) (hf : ∀ a, Keeps Φ I (f a)) :
    Keeps Φ I (m >>= f) := by
  intro s d h
  rw [wp_bind]
  refine wp_mono (hm s d h) fun r s d h => ?_
  cases r with
  | ok a => exact hf a s d h
  | error e => exact h

theorem tryCatch {h : ε → Method O R ε σ α} (hm : Keeps Φ I m) (hh : ∀ e, Keeps Φ I (h e)) :
    Keeps Φ I (MonadExcept.tryCatch m h) := by
  intro s d hs
  rw [wp_tryCatch]
  refine wp_mono (hm s d hs) fun r s d hs => ?_
  cases r with
  | ok a => exact hs
  | error e => exact hh e s d hs

theorem ite {c : Prop} [Decidable c] {n : Method O R ε σ α} (hm : Keeps Φ I m)
    (hn : Keeps Φ I n) : Keeps Φ I (if c then m else n) := by
  split_ifs
  · exact hm
  · exact hn

theorem onlyIf {c : Prop} [Decidable c] {m : Method O R ε σ Unit} (hm : Keeps Φ I m) :
    Keeps Φ I (onlyIf c m) := ite hm (pure ())

/-- After a method that keeps `I`. -/
theorem wp_bind {f : α → Method O R ε σ β} {Q : Except ε β → σ → D → Prop} (hm : Keeps Φ I m)
    {s : σ} {d : D} (h : I s d) (hf : ∀ a s d, I s d → (f a).wp Φ Q s d)
    (he : ∀ e s d, I s d → Q (.error e) s d) : (m >>= f).wp Φ Q s d := by
  rw [Method.wp_bind]
  refine wp_mono (hm s d h) fun r s d h => ?_
  cases r with
  | ok a => exact hf a s d h
  | error e => exact he e s d h

end Keeps

end Method

end Obolos
