import Obolos.Crash.Outcome

/-!
# One process at a time

A process queues its operations and runs them one after the other.  It can be killed between any
two effects; it is started again, and goes on with other operations.

`Sequential.sound` : it is enough to verify every operation from the invariant, with nobody else
acting.  Then the invariant holds after every run (`Sequential.run`), every change is one that an
effect is allowed (`Sequential.step`), and what was verified of the outcome of an operation holds
(`Sequential.answers`).
-/

namespace Obolos

/-- The sequential proof obligation of the operations of a process. -/
structure Sequential (D O : Type) (R : O → Type) (ε : Type) where
  work : D → (o : O) → Except ε (R o) → D → Prop
  inv : D → Prop
  guar : D → D → Prop
  inv_of_guar : ∀ d d', inv d → guar d d' → inv d'

namespace Sequential

variable {D O : Type} {R : O → Type} {ε α : Type}

/-- One process, that runs some of the given programs. -/
def system (work : D → (o : O) → Except ε (R o) → D → Prop) (programs : Prog O R ε α → Prop) :
    System Unit D O R ε α where
  sem _ := work
  starts _ _ p := programs p
  env _ _ _ := False

variable (X : Sequential D O R ε)

/-- Nobody else acts. -/
def protocol : Protocol Unit D where
  inv := X.inv
  rely _ := Eq
  guar _ := X.guar

/-- What an operation is verified against. -/
def spec : Prog.Spec D O R ε := ⟨Eq, X.work, X.guar⟩

variable {X} {programs : Prog O R ε α → Prop} {d : D}

/-- The rule of one effect. -/
theorem wp_await {o : O} {Q : Except ε (R o) → D → Prop}
    (h : ∀ r d', X.work d o r d' → X.guar d d' ∧ Q r d') :
    (Prog.await o : Prog O R ε (R o)).wp X.spec Q d := by
  rw [Prog.wp_await]
  rintro d₁ rfl r d₂ hsem
  exact h r d₂ hsem

/-- **Sequential verification is enough.** -/
theorem sound (h : ∀ p d, programs p → X.inv d → p.wp X.spec (fun _ _ => True) d) :
    X.protocol.Sound (system X.work programs) where
  rely_refl _ _ _ := rfl
  rely_trans _ _ _ _ := Eq.trans
  guar_inv _ := X.inv_of_guar
  guar_rely i j _ _ _ _ hj := absurd (Subsingleton.elim j i) hj
  env_inv _ _ _ _ h := h.elim
  env_rely _ _ _ _ _ h := h.elim
  start _ d p hd hp := h p d hp hd

variable {s t : System.State Unit D O R ε α}
  {τ σ : List (Tr (System.State Unit D O R ε α) (System.Action Unit O R ε α))}

/-- The invariant holds after every run. -/
theorem run (hX : X.protocol.Sound (system X.work programs)) (hd : X.inv d)
    (h : (system X.work programs).lts.Run (System.State.idle d) τ t) : X.inv t.world :=
  (hX.run hd h).1

/-- A step changes nothing, or is an effect that is allowed. -/
theorem step (hX : X.protocol.Sound (system X.work programs))
    {a : System.Action Unit O R ε α} (h : X.protocol.Holds (system X.work programs) s)
    (hst : (system X.work programs).lts.step s a t) :
    t.world = s.world ∨ X.guar s.world t.world := by
  rcases hX.step_world h hst with ⟨_, _, _, -, -, hg⟩ | ⟨_, -, he⟩ | he
  · exact Or.inr hg
  · exact he.elim
  · exact Or.inl he

/-- What every allowed change preserves, every run does. -/
theorem rel (hX : X.protocol.Sound (system X.work programs)) {T : D → D → Prop} (hd : X.inv d)
    (h : (system X.work programs).lts.Run (System.State.idle d) τ s)
    (h' : (system X.work programs).lts.Run s σ t) (hrefl : ∀ d, T d d)
    (htrans : ∀ d₁ d₂ d₃, T d₁ d₂ → T d₂ d₃ → T d₁ d₃)
    (hguar : ∀ d d', X.inv d → X.guar d d' → T d d') : T s.world t.world :=
  hX.rel hd h h' hrefl htrans (fun _ => hguar) fun _ _ _ _ he => he.elim

/-- A run whose effects have a further property is one of the system whose effects all do. -/
theorem restrict {work : D → (o : O) → Except ε (R o) → D → Prop}
    {C : D → (o : O) → Except ε (R o) → Prop}
    (h : (system work programs).lts.Run s τ t)
    (hC : ∀ e ∈ τ, ∀ o r, e.lab = .effect () o r → C e.pre.world o r) :
    (system (fun d o r d' => work d o r d' ∧ C d o r) programs).lts.Run s τ t := by
  induction h with
  | nil => exact .nil _
  | @snoc t u τ a h hst ih =>
    refine (ih fun e he => hC e (by simp [he])).snoc ?_
    have hlast := hC ⟨t, a, u⟩ (by simp)
    cases hst with
    | start free starts => exact .start free starts
    | effect running sem => exact .effect running ⟨sem, hlast _ _ rfl⟩
    | returned running => exact .returned running
    | threw running => exact .threw running
    | crash => exact .crash
    | env env => exact env.elim

/-- A run of the system whose effects all have a further property. -/
theorem unrestrict {work : D → (o : O) → Except ε (R o) → D → Prop}
    {C : D → (o : O) → Except ε (R o) → Prop}
    (h : (system (fun d o r d' => work d o r d' ∧ C d o r) programs).lts.Run s τ t) :
    (system work programs).lts.Run s τ t ∧
      ∀ e ∈ τ, ∀ o r, e.lab = .effect () o r → C e.pre.world o r := by
  induction h with
  | nil => exact ⟨.nil _, fun e he => by cases he⟩
  | @snoc t u τ a h hst ih =>
    have hlast : (system work programs).lts.step t a u ∧
        ∀ o r, a = .effect () o r → C t.world o r := by
      cases hst with
      | start free starts => exact ⟨.start free starts, fun _ _ h => by cases h⟩
      | effect running sem =>
        exact ⟨.effect running sem.1, fun _ _ h => by cases h; exact sem.2⟩
      | returned running => exact ⟨.returned running, fun _ _ h => by cases h⟩
      | threw running => exact ⟨.threw running, fun _ _ h => by cases h⟩
      | crash => exact ⟨.crash, fun _ _ h => by cases h⟩
      | env env => exact env.elim
    refine ⟨ih.1.snoc hlast.1, fun e he o r hlab => ?_⟩
    rcases List.mem_append.1 he with he | he
    · exact ih.2 e he o r hlab
    · rw [List.mem_singleton.1 he] at hlab ⊢
      exact hlast.2 o r hlab

/-- What was verified of the outcome of an operation. -/
theorem answers (hX : X.protocol.Sound (system X.work programs)) {p : Prog O R ε α}
    {Q : Except ε α → D → Prop} {r : Except ε α} (hd : X.inv d)
    (h : (system X.work programs).lts.Run (System.State.idle d) τ s) (hp : programs p)
    (hfree : s.processes () = none) (hQ : p.wp X.spec Q s.world)
    (ha : (system X.work programs).Answers s () p r t) : Q r t.world :=
  hX.answers (hX.run hd h) hp hfree (fun _ _ _ he hq => by cases he; exact hq) hQ ha

end Sequential

end Obolos
