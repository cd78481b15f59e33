import Obolos.Crash.Exclusive
import Obolos.Crash.Outcome

/-!
# Calls behind a lock file

As in `Crash.Exclusive`, processes work behind one lock file.  Here every process has programs of
its own, and so a guarantee of its own; and what a call has found out still holds after the lock
file was removed, as far as the others keep it (`Callers.keeps`).

`Callers.sound` : it is enough to verify the work of each process sequentially.  Then every change
of the directory is an effect of a process that respects the guarantee of that process
(`Callers.step_data`), and what was verified of the outcome of a call holds when the call has ended
(`Callers.answers`).
-/

namespace Obolos

namespace Locked

variable {ι D O : Type} {R : O → Type} {ε α : Type}

/-- Processes behind a lock file, each with programs of its own. -/
def callers (work : D → (o : O) → Except ε (R o) → D → Prop)
    (programs : ι → Prog (Locked O) (Answer R) ε α → Prop) :
    System ι (World ι D) (Locked O) (Answer R) ε α where
  sem := sem work
  starts i w p := w.owner ≠ some i ∧ programs i p
  env live w w' := (∃ i, w.owner = some i ∧ ¬ live i) ∧ w' = ⟨none, w.data⟩

end Locked

/-- The sequential proof obligation for the work of each process. -/
structure Callers (ι D O : Type) (R : O → Type) (ε : Type) where
  work : D → (o : O) → Except ε (R o) → D → Prop
  inv : D → Prop
  guar : ι → D → D → Prop
  /-- What every process keeps. -/
  keeps : D → D → Prop
  keeps_refl : ∀ d, keeps d d
  keeps_trans : ∀ d d' d'', keeps d d' → keeps d' d'' → keeps d d''
  inv_of_guar : ∀ i d d', inv d → guar i d d' → inv d'
  keeps_of_guar : ∀ i d d', inv d → guar i d d' → keeps d d'

namespace Callers

open Locked

variable {ι D O : Type} {R : O → Type} {ε α : Type} (X : Callers ι D O R ε)

/-- What the work of process `i` is verified against. -/
def spec (i : ι) : Prog.Spec D O R ε := ⟨Eq, X.work, X.guar i⟩

/-- The owner of the lock file relies on nobody touching the directory, and the others on what
every process keeps. -/
def protocol : Protocol ι (World ι D) where
  inv w := X.inv w.data
  rely i w w' :=
    (w.owner = some i → w' = w) ∧
      (w.owner ≠ some i → X.inv w'.data ∧ w'.owner ≠ some i ∧ X.keeps w.data w'.data)
  guar i w w' :=
    w' = w ∨ (w.owner = none ∧ w' = ⟨some i, w.data⟩) ∨
      (w.owner = some i ∧ w' = ⟨none, w.data⟩) ∨
        (w.owner = some i ∧ w'.owner = some i ∧ X.guar i w.data w'.data)

variable {X} {i : ι} {w w' : World ι D} {programs : ι → Prog (Locked O) (Answer R) ε α → Prop}

/-- What another process does keeps what all of them keep. -/
theorem keeps_of_rely (h : X.protocol.rely i w w') : X.keeps w.data w'.data := by
  by_cases hw : w.owner = some i
  · rw [h.1 hw]
    exact X.keeps_refl _
  · exact (h.2 hw).2.2

/-- Sequentially verified work, in the hands of the owner of the lock file. -/
theorem wp_lift {p : Prog O R ε α} {Q : Except ε α → D → Prop} (hp : p.wp (X.spec i) Q w.data)
    (hw : w.owner = some i) :
    (lift p).wp (X.protocol.spec (callers X.work programs) i)
      (fun r w' => w'.owner = some i ∧ Q r w'.data) w := by
  induction p generalizing w with
  | pure a => exact Prog.wp_pure.2 ⟨hw, Prog.wp_pure.1 hp⟩
  | throw e => exact Prog.wp_throw.2 ⟨hw, Prog.wp_throw.1 hp⟩
  | call o k ih =>
    refine Prog.wp_call.2 ?_
    rintro w₁ ⟨h₁, -⟩ r w₂ ⟨d, hsem, rfl⟩
    obtain rfl := h₁ hw
    obtain ⟨hg, hk⟩ := Prog.wp_call.1 hp _ rfl r d hsem
    exact ⟨Or.inr (Or.inr (Or.inr ⟨hw, hw, hg⟩)), ih r hk hw⟩

/-- The rule of one effect when nobody else acts. -/
theorem wp_await {o : O} {Q : Except ε (R o) → D → Prop} {d : D}
    (h : ∀ r d', X.work d o r d' → X.guar i d d' ∧ Q r d') :
    (Prog.await o : Prog O R ε (R o)).wp (X.spec i) Q d := by
  rw [Prog.wp_await]
  rintro d₁ rfl r d₂ hsem
  exact h r d₂ hsem

/-- The lock file of its owner is closed and removed. -/
theorem wp_release {Q : D → Prop} (hw : w.owner = some i) (hQ : Q w.data) :
    (do
      perform .close
      perform .unlink : Prog (Locked O) (Answer R) ε Unit).wp
      (X.protocol.spec (callers X.work programs) i) (fun _ w' => Q w'.data) w := by
  unfold perform
  rw [Prog.wp_bind, Prog.wp_await]
  rintro w₁ ⟨h₁, -⟩ r w₂ rfl
  obtain rfl := h₁ hw
  refine ⟨Or.inl rfl, ?_⟩
  cases r with
  | error e => exact hQ
  | ok u =>
    show Prog.wp _ _ _ _
    rw [Prog.wp_await]
    rintro w₁ ⟨h₁, -⟩ r w₂ hunlink
    obtain rfl := h₁ hw
    cases r with
    | error e =>
      obtain rfl := hunlink
      exact ⟨Or.inl rfl, hQ⟩
    | ok u =>
      obtain rfl := hunlink
      exact ⟨Or.inr (Or.inr (Or.inl ⟨hw, rfl⟩)), hQ⟩

/-- A process that takes the lock file, does verified work and removes the lock file. -/
theorem wp_exclusive {locked : ε} {p : Prog O R ε α} {Q : α → D → Prop} (hi : w.owner ≠ some i)
    (hp : ∀ d, X.inv d → X.keeps w.data d →
      p.wp (X.spec i) (Prog.post (fun _ => True) Q) d) :
    (exclusive locked p).wp (X.protocol.spec (callers X.work programs) i)
      (fun r w' => Prog.post (fun _ => True) Q r w'.data) w := by
  unfold exclusive perform
  rw [Prog.wp_bind, Prog.wp_await]
  rintro w₁ ⟨-, h₁⟩ r w₂ rfl
  obtain ⟨-, hi₁, hkeeps₁⟩ := h₁ hi
  refine ⟨Or.inl rfl, ?_⟩
  cases r with
  | error e => trivial
  | ok u =>
    show Prog.wp _ _ _ _
    rw [Prog.wp_bind, Prog.wp_tryCatch, Prog.wp_await]
    rintro w₃ ⟨-, h₃⟩ r w₄ hacquire
    obtain ⟨hinv, -, hkeeps₃⟩ := h₃ hi₁
    cases r with
    | error e =>
      obtain rfl := hacquire
      exact ⟨Or.inl rfl, Prog.wp_throw.2 trivial⟩
    | ok u =>
      obtain ⟨hfree, rfl⟩ := hacquire
      refine ⟨Or.inr (Or.inl ⟨hfree, rfl⟩), ?_⟩
      show Prog.wp _ _ _ _
      rw [Prog.wp_finally]
      have hkept := X.keeps_trans _ _ _ hkeeps₁ hkeeps₃
      refine Prog.wp_mono (wp_lift (hp w₃.data hinv hkept) rfl) ?_
      rintro r w ⟨hw, hQ⟩
      refine Prog.wp_mono (wp_release hw hQ) fun r' w' hQ' => ?_
      cases r' with
      | error e => trivial
      | ok u => exact hQ'

/-- **Sequential verification is enough.** -/
theorem sound
    (hp : ∀ (i : ι) (w : World ι D) p, w.owner ≠ some i → programs i p →
      p.wp (X.protocol.spec (callers X.work programs) i) (fun _ _ => True) w) :
    X.protocol.Sound (callers X.work programs) where
  rely_refl i w hw := ⟨fun _ => rfl, fun h => ⟨hw, h, X.keeps_refl _⟩⟩
  rely_trans i w w' w'' h h' := by
    refine ⟨fun hw => ?_, fun hw => ?_⟩
    · obtain rfl := h.1 hw
      exact h'.1 hw
    · obtain ⟨-, hw', hkeeps⟩ := h.2 hw
      obtain ⟨hinv, hw'', hkeeps'⟩ := h'.2 hw'
      exact ⟨hinv, hw'', X.keeps_trans _ _ _ hkeeps hkeeps'⟩
  guar_inv i w w' hw h := by
    rcases h with rfl | ⟨-, rfl⟩ | ⟨-, rfl⟩ | ⟨-, -, hg⟩
    · exact hw
    · exact hw
    · exact hw
    · exact X.inv_of_guar _ _ _ hw hg
  guar_rely i j w w' hw h hj := by
    have hne : ∀ {w : World ι D}, w.owner = some i → w.owner ≠ some j :=
      fun hi h => hj (Option.some.inj (h.symm.trans hi))
    rcases h with rfl | ⟨hfree, rfl⟩ | ⟨hi, rfl⟩ | ⟨hi, hi', hg⟩
    · exact ⟨fun _ => rfl, fun h => ⟨hw, h, X.keeps_refl _⟩⟩
    · refine ⟨fun h => ?_, fun _ => ⟨hw, hne rfl, X.keeps_refl _⟩⟩
      rw [hfree] at h
      cases h
    · exact ⟨fun h => absurd h (hne hi), fun _ => ⟨hw, fun h => (by cases h), X.keeps_refl _⟩⟩
    · exact ⟨fun h => absurd h (hne hi), fun _ => ⟨X.inv_of_guar _ _ _ hw hg, hne hi',
        X.keeps_of_guar _ _ _ hw hg⟩⟩
  env_inv live w w' hw h := by
    obtain ⟨-, rfl⟩ := h
    exact hw
  env_rely live i w w' hw h hlive := by
    obtain ⟨⟨j, hj, hdead⟩, rfl⟩ := h
    refine ⟨fun hi => ?_, fun _ => ⟨hw, fun h => (by cases h), X.keeps_refl _⟩⟩
    rw [hj] at hi
    obtain rfl := Option.some.inj hi
    exact absurd hlive hdead
  start i w p _ h := hp i w p h.1 h.2

variable [DecidableEq ι] {s t : System.State ι (World ι D) (Locked O) (Answer R) ε α}
  {τ σ : List (Tr (System.State ι (World ι D) (Locked O) (Answer R) ε α)
    (System.Action ι (Locked O) (Answer R) ε α))} {d : D}

/-- The invariant of the directory holds after every run. -/
theorem run (hX : X.protocol.Sound (callers X.work programs)) (hd : X.inv d)
    (h : (callers X.work programs).lts.Run (idle d) τ t) : X.inv t.world.data :=
  (hX.run (d := ⟨none, d⟩) hd h).1

/-- A step leaves the directory alone, or is an effect that respects the guarantee of its
process. -/
theorem step_data (hX : X.protocol.Sound (callers X.work programs)) (hd : X.inv d)
    (h : (callers X.work programs).lts.Run (idle d) τ s)
    {a : System.Action ι (Locked O) (Answer R) ε α} (hst : (callers X.work programs).lts.step s a t) :
    t.world.data = s.world.data ∨
      ∃ i o r, a = .effect i o r ∧ X.guar i s.world.data t.world.data := by
  rcases hX.step_world (hX.run (d := ⟨none, d⟩) hd h) hst with
    ⟨i, o, r, rfl, -, hg⟩ | ⟨live, rfl, -, he⟩ | he
  · rcases hg with he | ⟨-, he⟩ | ⟨-, he⟩ | ⟨-, -, hg⟩
    · exact Or.inl (by rw [he])
    · exact Or.inl (by rw [he])
    · exact Or.inl (by rw [he])
    · exact Or.inr ⟨i, o, r, rfl, hg⟩
  · exact Or.inl (by rw [he])
  · exact Or.inl (by rw [he])

/-- What every process keeps, every run keeps. -/
theorem run_keeps (hX : X.protocol.Sound (callers X.work programs)) (hd : X.inv d)
    (h : (callers X.work programs).lts.Run (idle d) τ s)
    (h' : (callers X.work programs).lts.Run s σ t) : X.keeps s.world.data t.world.data := by
  refine hX.rel (T := fun w w' => X.keeps w.data w'.data) (d := ⟨none, d⟩) hd h h'
    (fun _ => X.keeps_refl _) (fun _ _ _ => X.keeps_trans _ _ _) ?_ ?_
  · intro i w w' hw hg
    rcases hg with rfl | ⟨-, rfl⟩ | ⟨-, rfl⟩ | ⟨-, -, hg⟩
    · exact X.keeps_refl _
    · exact X.keeps_refl _
    · exact X.keeps_refl _
    · exact X.keeps_of_guar _ _ _ hw hg
  · rintro live w w' - ⟨-, rfl⟩
    exact X.keeps_refl _

/-- **The outcome of a call.**  What was verified of it holds when it has ended, if it is kept. -/
theorem answers (hX : X.protocol.Sound (callers X.work programs)) (hd : X.inv d)
    (h : (callers X.work programs).lts.Run (idle d) τ s)
    {p : Prog (Locked O) (Answer R) ε α} {Q : Except ε α → D → Prop} {r : Except ε α}
    (hfree : s.processes i = none) (hstart : s.world.owner ≠ some i ∧ programs i p)
    (hQ : ∀ r d d', X.keeps d d' → Q r d → Q r d')
    (hp : p.wp (X.protocol.spec (callers X.work programs) i) (fun r w => Q r w.data) s.world)
    (ha : (callers X.work programs).Answers s i p r t) : Q r t.world.data :=
  hX.answers (hX.run (d := ⟨none, d⟩) hd h) hstart hfree
    (fun r _ _ hrely hr => hQ r _ _ (keeps_of_rely hrely) hr) hp ha

end Callers

end Obolos
