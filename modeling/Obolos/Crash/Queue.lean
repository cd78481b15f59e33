import Obolos.Crash.Sequential

/-!
# A queue, and readers beside it

A process queues the operations that write, and answers other calls beside them that only read.
The operations of the queue run one after the other (as process `none`), the readers at any time
(as the processes `some n`); all of them can be killed between any two effects.  What an effect of
a reader does is said apart (`look`): the operations do not wait for it.

As in `Crash.Sequential`, it is enough to verify the operations of the queue with nobody else
acting (`Sequential.queue_sound`).  While the queue is empty, the invariant may be exchanged for
another one that holds (`Sequential.queue_switch`): so an invariant may speak of the world at such
a time.
-/

namespace Obolos

namespace Sequential

variable {D O : Type} {R : O → Type} {ε α : Type}

/-- A queue of some of the given operations, and readers. -/
def queue (work look : D → (o : O) → Except ε (R o) → D → Prop)
    (operations readers : Prog O R ε α → Prop) : System (Option ℕ) D O R ε α where
  sem i :=
    match i with
    | none => work
    | some _ => look
  starts i _ p :=
    match i with
    | none => operations p
    | some _ => readers p
  env _ _ _ := False

/-- A program that changes nothing. -/
def Reads (look : D → (o : O) → Except ε (R o) → D → Prop) (p : Prog O R ε α) : Prop :=
  ∀ d, p.wp ⟨fun _ _ => True, look, Eq⟩ (fun _ _ => True) d

variable (X Y : Sequential D O R ε)

/-- The operations rely on nobody else writing; the readers write nothing. -/
def queueProtocol : Protocol (Option ℕ) D where
  inv := X.inv
  rely i :=
    match i with
    | none => Eq
    | some _ => fun _ _ => True
  guar i :=
    match i with
    | none => X.guar
    | some _ => Eq

variable {X Y} {look : D → (o : O) → Except ε (R o) → D → Prop}
  {operations readers : Prog O R ε α → Prop} {d : D}

/-- **Sequential verification is enough.** -/
theorem queue_sound (h : ∀ p d, operations p → X.inv d → p.wp X.spec (fun _ _ => True) d)
    (hreads : ∀ p, readers p → Reads look p) :
    X.queueProtocol.Sound (queue X.work look operations readers) where
  rely_refl i _ _ := by
    cases i with
    | none => rfl
    | some n => trivial
  rely_trans i _ _ _ h h' := by
    cases i with
    | none => exact Eq.trans h h'
    | some n => trivial
  guar_inv i d d' hd hg := by
    cases i with
    | none => exact X.inv_of_guar d d' hd hg
    | some n =>
      obtain rfl : d = d' := hg
      exact hd
  guar_rely i j d d' _ hg hj := by
    cases j with
    | some n => trivial
    | none =>
      cases i with
      | none => exact absurd rfl hj
      | some n => exact hg
  env_inv _ _ _ _ h := h.elim
  env_rely _ _ _ _ _ h := h.elim
  start i d p hd hp := by
    cases i with
    | none => exact h p d hp hd
    | some n => exact hreads p hp d

variable {s t : System.State (Option ℕ) D O R ε α}
  {τ : List (Tr (System.State (Option ℕ) D O R ε α) (System.Action (Option ℕ) O R ε α))}

/-- Between two operations another invariant can take over. -/
theorem queue_switch (hwork : Y.work = X.work)
    (h : X.queueProtocol.Holds (queue X.work look operations readers) s)
    (hfree : s.processes none = none) (hs : Y.inv s.world) :
    Y.queueProtocol.Holds (queue Y.work look operations readers) s := by
  refine ⟨hs, fun i p hp => ?_⟩
  cases i with
  | none =>
    rw [hfree] at hp
    cases hp
  | some n =>
    have hreads := h.2 (some n) p hp
    unfold Protocol.spec queue at hreads ⊢
    rw [hwork]
    exact hreads

/-- The invariant holds after every run. -/
theorem queue_run (hX : X.queueProtocol.Sound (queue X.work look operations readers))
    (hs : X.queueProtocol.Holds (queue X.work look operations readers) s)
    (h : (queue X.work look operations readers).lts.Run s τ t) :
    X.queueProtocol.Holds (queue X.work look operations readers) t :=
  h.invariant hs fun _ _ _ hI hst => hX.step hI hst

/-- What was verified of the outcome of an operation. -/
theorem queue_answers (hX : X.queueProtocol.Sound (queue X.work look operations readers))
    {p : Prog O R ε α} {Q : Except ε α → D → Prop} {r : Except ε α}
    (hs : X.queueProtocol.Holds (queue X.work look operations readers) s) (hp : operations p)
    (hfree : s.processes none = none) (hQ : p.wp X.spec Q s.world)
    (ha : (queue X.work look operations readers).Answers s none p r t) : Q r t.world :=
  hX.answers (i := none) hs hp hfree (fun _ _ _ he hq => by cases he; exact hq) hQ ha

end Sequential

end Obolos
