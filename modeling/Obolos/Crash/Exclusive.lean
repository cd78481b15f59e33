import Obolos.Crash.System

/-!
# Processes behind a lock file

Many processes share a directory, and each does its work behind one lock file: it creates the
file, which must not exist, works, and removes it.  A process that dies leaves its lock file
behind; somebody removes it then.

`Exclusive.sound` : it is enough to verify the work of each process sequentially, from the
invariant of the directory and with nobody else acting (`Prog.wp` with `Eq` as its rely).  Then
the invariant holds after every run (`Exclusive.run`), and every change of the directory is an
effect of some process that respects the guarantee (`Exclusive.step_data`).
-/

namespace Obolos

/-- The effects of a process that works behind a lock file. -/
inductive Locked (O : Type)
  /-- Make sure that the directory is there. -/
  | mkdir
  /-- `open(lockPath, 'wx')` -/
  | acquire
  /-- `lock.close()` -/
  | close
  /-- `unlink(lockPath)` -/
  | unlink
  | work (o : O)

namespace Locked

variable {ι D O : Type} {R : O → Type} {ε α : Type}

/-- The answers to the effects. -/
abbrev Answer (R : O → Type) : Locked O → Type
  | .work o => R o
  | _ => Unit

/-- The work of a process as one of its parts. -/
def lift : Prog O R ε α → Prog (Locked O) (Answer R) ε α
  | .pure a => .pure a
  | .throw e => .throw e
  | .call o k => .call (.work o) fun r => lift (k r)

/-- One effect. -/
def perform (o : Locked O) : Prog (Locked O) (Answer R) ε (Answer R o) := Prog.await o

/-- Create the lock file, work, remove it. -/
def exclusive (locked : ε) (body : Prog O R ε α) : Prog (Locked O) (Answer R) ε α := do
  perform .mkdir
  tryCatch (perform .acquire) fun _ => throw locked
  (lift body).andFinally do
    perform .close
    perform .unlink

/-- A directory, and the process that created the lock file, when there is one. -/
structure World (ι D : Type) where
  owner : Option ι
  data : D

/-- What an effect of process `i` does.  Creating the lock file fails when it exists, and can
fail for other reasons. -/
def sem (work : D → (o : O) → Except ε (R o) → D → Prop) (i : ι) (w : World ι D) :
    (o : Locked O) → Except ε (Answer R o) → World ι D → Prop
  | .mkdir, _, w' => w' = w
  | .acquire, .ok _, w' => w.owner = none ∧ w' = ⟨some i, w.data⟩
  | .acquire, .error _, w' => w' = w
  | .close, _, w' => w' = w
  | .unlink, .ok _, w' => w' = ⟨none, w.data⟩
  | .unlink, .error _, w' => w' = w
  | .work o, r, w' => ∃ d, work w.data o r d ∧ w' = ⟨w.owner, d⟩

/-- Processes that run some of the given programs.  A starting process is a new one, so the lock
file is not its own; a lock file is removed by hand only when its process is dead. -/
def system (work : D → (o : O) → Except ε (R o) → D → Prop)
    (programs : Prog (Locked O) (Answer R) ε α → Prop) :
    System ι (World ι D) (Locked O) (Answer R) ε α where
  sem := sem work
  starts i w p := w.owner ≠ some i ∧ programs p
  env live w w' := (∃ i, w.owner = some i ∧ ¬ live i) ∧ w' = ⟨none, w.data⟩

/-- Answers to the effects of process `i`, given answers to its work. -/
def answer (respond : D → (o : O) → Except ε (R o) × D) (refused : ε) (i : ι) (w : World ι D) :
    (o : Locked O) → Except ε (Answer R o) × World ι D
  | .mkdir => (.ok (), w)
  | .acquire => if w.owner.isNone then (.ok (), ⟨some i, w.data⟩) else (.error refused, w)
  | .close => (.ok (), w)
  | .unlink => (.ok (), ⟨none, w.data⟩)
  | .work o => ((respond w.data o).1, ⟨w.owner, (respond w.data o).2⟩)

theorem answer_sem {work : D → (o : O) → Except ε (R o) → D → Prop}
    {respond : D → (o : O) → Except ε (R o) × D} {refused : ε} {i : ι}
    (h : ∀ d o, work d o (respond d o).1 (respond d o).2) (w : World ι D) (o : Locked O) :
    sem work i w o (answer respond refused i w o).1 (answer respond refused i w o).2 := by
  cases o with
  | mkdir => rfl
  | acquire =>
    unfold answer
    split_ifs with hfree
    · exact ⟨Option.isNone_iff_eq_none.1 hfree, rfl⟩
    · rfl
  | close => rfl
  | unlink => rfl
  | work o => exact ⟨_, h w.data o, rfl⟩

/-- Nobody runs, there is no lock file, and the directory is as given. -/
def idle (d : D) : System.State ι (World ι D) (Locked O) (Answer R) ε α :=
  System.State.idle ⟨none, d⟩

end Locked

/-- The sequential proof obligation for the work of the processes. -/
structure Exclusive (D O : Type) (R : O → Type) (ε : Type) where
  work : D → (o : O) → Except ε (R o) → D → Prop
  inv : D → Prop
  guar : D → D → Prop
  inv_of_guar : ∀ d d', inv d → guar d d' → inv d'

namespace Exclusive

open Locked

variable {ι D O : Type} {R : O → Type} {ε α : Type} (X : Exclusive D O R ε)

/-- What the work of a process is verified against. -/
def spec : Prog.Spec D O R ε := ⟨Eq, X.work, X.guar⟩

/-- The owner of the lock file relies on nobody touching the directory. -/
def protocol : Protocol ι (World ι D) where
  inv w := X.inv w.data
  rely i w w' :=
    (w.owner = some i → w' = w) ∧ (w.owner ≠ some i → X.inv w'.data ∧ w'.owner ≠ some i)
  guar i w w' :=
    w' = w ∨ (w.owner = none ∧ w' = ⟨some i, w.data⟩) ∨
      (w.owner = some i ∧ w' = ⟨none, w.data⟩) ∨
        (w.owner = some i ∧ w'.owner = some i ∧ X.guar w.data w'.data)

variable {X} {i : ι} {w : World ι D} {programs : Prog (Locked O) (Answer R) ε α → Prop}

/-- Sequentially verified work, in the hands of the owner of the lock file. -/
theorem wp_lift {p : Prog O R ε α} {Q : Except ε α → D → Prop} (hp : p.wp X.spec Q w.data)
    (hw : w.owner = some i) :
    (lift p).wp (X.protocol.spec (system X.work programs) i)
      (fun r w' => w'.owner = some i ∧ Q r w'.data) w := by
  induction p generalizing w with
  | pure a => exact Prog.wp_pure.2 ⟨hw, Prog.wp_pure.1 hp⟩
  | throw e => exact Prog.wp_throw.2 ⟨hw, Prog.wp_throw.1 hp⟩
  | call o k ih =>
    refine Prog.wp_call.2 ?_
    rintro w₁ ⟨h₁, -⟩ r w₂ ⟨d, hsem, rfl⟩
    obtain rfl := h₁ hw
    obtain ⟨hg, hk⟩ := Prog.wp_call.1 hp _ rfl r d hsem
    exact ⟨Or.inr (Or.inr (Or.inr ⟨hw, hw, hg⟩)), ih r hk hw⟩

/-- The rule of one effect when nobody else acts. -/
theorem wp_await {o : O} {Q : Except ε (R o) → D → Prop} {d : D}
    (h : ∀ r d', X.work d o r d' → X.guar d d' ∧ Q r d') :
    (Prog.await o : Prog O R ε (R o)).wp X.spec Q d := by
  rw [Prog.wp_await]
  rintro d₁ rfl r d₂ hsem
  exact h r d₂ hsem

/-- A process that takes the lock file, does verified work and removes the lock file. -/
theorem wp_exclusive {locked : ε} {p : Prog O R ε α} (hi : w.owner ≠ some i)
    (hp : ∀ d, X.inv d → p.wp X.spec (fun _ _ => True) d) :
    (exclusive locked p).wp (X.protocol.spec (system X.work programs) i)
      (fun _ _ => True) w := by
  unfold exclusive perform
  rw [Prog.wp_bind, Prog.wp_await]
  rintro w₁ ⟨-, h₁⟩ r w₂ rfl
  refine ⟨Or.inl rfl, ?_⟩
  cases r with
  | error e => trivial
  | ok u =>
    show Prog.wp _ _ _ _
    rw [Prog.wp_bind, Prog.wp_tryCatch, Prog.wp_await]
    rintro w₃ ⟨-, h₃⟩ r w₄ hacquire
    obtain ⟨hinv, howner⟩ := h₃ (h₁ hi).2
    cases r with
    | error e =>
      obtain rfl := hacquire
      exact ⟨Or.inl rfl, Prog.wp_throw.2 trivial⟩
    | ok u =>
      obtain ⟨hfree, rfl⟩ := hacquire
      refine ⟨Or.inr (Or.inl ⟨hfree, rfl⟩), ?_⟩
      show Prog.wp _ _ _ _
      rw [Prog.wp_finally]
      refine Prog.wp_mono (wp_lift (hp w₃.data hinv) rfl) ?_
      rintro r w ⟨hw, -⟩
      -- the lock file is closed, and removed when that worked
      rw [Prog.wp_bind, Prog.wp_await]
      rintro w₁ ⟨h₁, -⟩ r' w₂ rfl
      obtain rfl := h₁ hw
      refine ⟨Or.inl rfl, ?_⟩
      cases r' with
      | error e => trivial
      | ok u =>
        show Prog.wp _ _ _ _
        rw [Prog.wp_await]
        rintro w₁ ⟨h₁, -⟩ r' w₂ hunlink
        obtain rfl := h₁ hw
        cases r' with
        | error e =>
          obtain rfl := hunlink
          exact ⟨Or.inl rfl, trivial⟩
        | ok u =>
          obtain rfl := hunlink
          exact ⟨Or.inr (Or.inr (Or.inl ⟨hw, rfl⟩)), trivial⟩

/-- **Sequential verification is enough.** -/
theorem sound
    (hp : ∀ (i : ι) (w : World ι D) p, w.owner ≠ some i → programs p →
      p.wp (X.protocol.spec (system X.work programs) i) (fun _ _ => True) w) :
    (X.protocol (ι := ι)).Sound (system X.work programs) where
  rely_refl i w hw := ⟨fun _ => rfl, fun h => ⟨hw, h⟩⟩
  rely_trans i w w' w'' h h' := by
    refine ⟨fun hw => ?_, fun hw => h'.2 (h.2 hw).2⟩
    obtain rfl := h.1 hw
    exact h'.1 hw
  guar_inv i w w' hw h := by
    rcases h with rfl | ⟨-, rfl⟩ | ⟨-, rfl⟩ | ⟨-, -, hg⟩
    · exact hw
    · exact hw
    · exact hw
    · exact X.inv_of_guar _ _ hw hg
  guar_rely i j w w' hw h hj := by
    rcases h with rfl | ⟨hfree, rfl⟩ | ⟨hi, rfl⟩ | ⟨hi, hi', hg⟩
    · exact ⟨fun _ => rfl, fun h => ⟨hw, h⟩⟩
    · refine ⟨fun h => ?_, fun _ => ⟨hw, fun h => hj (Option.some.inj h).symm⟩⟩
      rw [hfree] at h
      cases h
    · refine ⟨fun h => ?_, fun _ => ⟨hw, fun h => by cases h⟩⟩
      rw [hi] at h
      exact absurd (Option.some.inj h).symm hj
    · refine ⟨fun h => ?_, fun _ => ⟨X.inv_of_guar _ _ hw hg, fun h => ?_⟩⟩
      · rw [hi] at h
        exact absurd (Option.some.inj h).symm hj
      · rw [hi'] at h
        exact absurd (Option.some.inj h).symm hj
  env_inv live w w' hw h := by
    obtain ⟨-, rfl⟩ := h
    exact hw
  env_rely live i w w' hw h hlive := by
    obtain ⟨⟨j, hj, hdead⟩, rfl⟩ := h
    refine ⟨fun hi => ?_, fun _ => ⟨hw, fun h => by cases h⟩⟩
    rw [hj] at hi
    obtain rfl := Option.some.inj hi
    exact absurd hlive hdead
  start i w p _ h := hp i w p h.1 h.2

variable [DecidableEq ι] {s t : System.State ι (World ι D) (Locked O) (Answer R) ε α}
  {τ σ : List (Tr (System.State ι (World ι D) (Locked O) (Answer R) ε α)
    (System.Action ι (Locked O) (Answer R) ε α))} {d : D}

/-- The invariant of the directory holds after every run. -/
theorem run (hX : (X.protocol (ι := ι)).Sound (system X.work programs)) (hd : X.inv d)
    (h : (system X.work programs).lts.Run (idle d) τ t) : X.inv t.world.data :=
  (hX.run (d := ⟨none, d⟩) hd h).1

/-- A step leaves the directory alone, or is an effect that respects the guarantee. -/
theorem step_data (hX : (X.protocol (ι := ι)).Sound (system X.work programs))
    {a : System.Action ι (Locked O) (Answer R) ε α}
    (h : X.protocol.Holds (system X.work programs) s)
    (hst : (system X.work programs).lts.step s a t) :
    t.world.data = s.world.data ∨ X.guar s.world.data t.world.data := by
  rcases hX.step_world h hst with ⟨i, o, r, rfl, -, hg⟩ | ⟨live, rfl, -, he⟩ | he
  · rcases hg with he | ⟨-, he⟩ | ⟨-, he⟩ | ⟨-, -, hg⟩
    · exact Or.inl (by rw [he])
    · exact Or.inl (by rw [he])
    · exact Or.inl (by rw [he])
    · exact Or.inr hg
  · exact Or.inl (by rw [he])
  · exact Or.inl (by rw [he])

/-- What every guaranteed change preserves, every run does. -/
theorem rel (hX : (X.protocol (ι := ι)).Sound (system X.work programs)) {T : D → D → Prop}
    (hd : X.inv d) (h : (system X.work programs).lts.Run (idle d) τ s)
    (h' : (system X.work programs).lts.Run s σ t) (hrefl : ∀ d, T d d)
    (htrans : ∀ d₁ d₂ d₃, T d₁ d₂ → T d₂ d₃ → T d₁ d₃)
    (hguar : ∀ d d', X.inv d → X.guar d d' → T d d') : T s.world.data t.world.data := by
  refine h'.rel (I := X.protocol.Holds (system X.work programs))
    (R := fun s t => T s.world.data t.world.data) (hX.run (d := ⟨none, d⟩) hd h)
    (fun _ _ _ hI hst => hX.step hI hst) (fun _ => hrefl _) (fun _ _ _ => htrans _ _ _)
    fun s a t hI hst => ?_
  rcases step_data hX hI hst with he | hg
  · rw [he]
    exact hrefl _
  · exact hguar _ _ hI.1 hg

end Exclusive

end Obolos
