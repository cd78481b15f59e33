import Obolos.Crash.Outcome

/-!
# What a program can reach

The other side of verifying programs: `Prog.Reaches` says that a program can get to a certain
point when nobody interferes.  It is built along the program (`Reaches.bind`,
`Reaches.tryCatch`, `Reaches.effect`), and what a program can reach, a process that runs it can
(`System.run_of_reaches`, `System.answers_of_reaches`).
-/

namespace Obolos

namespace Prog

variable {O : Type} {R : O → Type} {ε α β D : Type}

/-- With these semantics of its effects the program `p` can become `q`, and the world `d'`. -/
inductive Reaches (sem : D → (o : O) → Except ε (R o) → D → Prop) :
    Prog O R ε α → D → Prog O R ε α → D → Prop
  | refl (p : Prog O R ε α) (d : D) : Reaches sem p d p d
  | step {o : O} {k : Except ε (R o) → Prog O R ε α} {r : Except ε (R o)} {d d' d'' : D}
      {q : Prog O R ε α} (answers : sem d o r d') (rest : Reaches sem (k r) d' q d'') :
      Reaches sem (.call o k) d q d''

variable {sem : D → (o : O) → Except ε (R o) → D → Prop} {p q q' : Prog O R ε α} {d d' d'' : D}

namespace Reaches

theorem trans (h : Reaches sem p d q d') (h' : Reaches sem q d' q' d'') :
    Reaches sem p d q' d'' := by
  induction h with
  | refl => exact h'
  | step hsem _ ih => exact .step hsem (ih h')

/-- The first part of a sequence. -/
theorem bind (h : Reaches sem p d q d') (f : α → Prog O R ε β) :
    Reaches sem (p >>= f) d (q >>= f) d' := by
  show Reaches sem (p.bind f) d (q.bind f) d'
  induction h with
  | refl => exact .refl _ _
  | step hsem _ ih => exact .step hsem ih

/-- The body of a `try`. -/
theorem tryCatch (h : Reaches sem p d q d') (f : ε → Prog O R ε α) :
    Reaches sem (MonadExcept.tryCatch p f) d (MonadExcept.tryCatch q f) d' := by
  show Reaches sem (p.tryCatch f) d (q.tryCatch f) d'
  induction h with
  | refl => exact .refl _ _
  | step hsem _ ih => exact .step hsem ih

/-- An effect that answers. -/
theorem effect {o : O} {a : R o} (h : sem d o (.ok a) d') :
    Reaches sem (await o : Prog O R ε (R o)) d (Pure.pure a) d' :=
  .step h (.refl _ _)

/-- An effect that throws. -/
theorem failed {o : O} {e : ε} (h : sem d o (.error e) d') :
    Reaches sem (await o : Prog O R ε (R o)) d (MonadExcept.throw e) d' :=
  .step h (.refl _ _)

/-- A sequence whose first part ends. -/
theorem seq {f : α → Prog O R ε β} {a : α} {s : Prog O R ε β}
    (h : Reaches sem p d (Pure.pure a) d') (h' : Reaches sem (f a) d' s d'') :
    Reaches sem (p >>= f) d s d'' :=
  (h.bind f).trans h'

/-- A sequence whose first part throws. -/
theorem seq_throw {f : α → Prog O R ε β} {e : ε} (h : Reaches sem p d (MonadExcept.throw e) d') :
    Reaches sem (p >>= f) d (MonadExcept.throw e) d' :=
  h.bind f

/-- With answers the effects can give while `I` holds, a program ends in its outcome.  The answers
may depend on more than the world. -/
theorem exec_view {E : Type} (view : E → D) (I : E → Prop)
    {respond : E → (o : O) → Except ε (R o) × E}
    (h : ∀ e o, I e → sem (view e) o (respond e o).1 (view (respond e o).2) ∧ I (respond e o).2)
    (p : Prog O R ε α) (e : E) (he : I e) :
    Reaches sem p (view e) (ofExcept (p.exec respond e).1) (view (p.exec respond e).2) ∧
      I (p.exec respond e).2 := by
  induction p generalizing e with
  | pure a => exact ⟨.refl _ _, he⟩
  | throw x => exact ⟨.refl _ _, he⟩
  | call o k ih =>
    obtain ⟨hsem, hI⟩ := h e o he
    obtain ⟨hrest, hend⟩ := ih (respond e o).1 (respond e o).2 hI
    exact ⟨.step hsem hrest, hend⟩

/-- With answers the effects can give, a program ends in its outcome. -/
theorem exec {respond : D → (o : O) → Except ε (R o) × D}
    (h : ∀ d o, sem d o (respond d o).1 (respond d o).2) (p : Prog O R ε α) (d : D) :
    Reaches sem p d (ofExcept (p.exec respond d).1) (p.exec respond d).2 :=
  (exec_view id (fun _ => True) (fun d o _ => ⟨h d o, trivial⟩) p d trivial).1

/-- What a program that runs alone is verified against. -/
def alone (sem : D → (o : O) → Except ε (R o) → D → Prop) : Spec D O R ε :=
  ⟨fun d d' => d' = d, sem, fun _ _ => True⟩

/-- What was verified of a program holds of what it can reach. -/
theorem wp {Q : Except ε α → D → Prop} (h : Reaches sem p d q d') (hp : p.wp (alone sem) Q d) :
    q.wp (alone sem) Q d' := by
  induction h with
  | refl => exact hp
  | step hsem _ ih => exact ih (Prog.wp_call.1 hp _ rfl _ _ hsem).2

end Reaches

end Prog

namespace System

variable {ι D O : Type} {R : O → Type} {ε α : Type} [DecidableEq ι] {S : System ι D O R ε α}
  {s : State ι D O R ε α} {i : ι} {p q : Prog O R ε α} {d : D}

/-- A running process can get to what its program can reach. -/
theorem run_of_reaches (h : p.Reaches (S.sem i) s.world q d) (hp : s.processes i = some p) :
    ∃ τ, S.lts.Run s τ ⟨d, Function.update s.processes i (some q)⟩ := by
  obtain ⟨world, processes⟩ := s
  simp only at h hp
  induction h generalizing processes with
  | refl p d =>
    refine ⟨[], LTS.Run.nil_iff.2 ?_⟩
    rw [← hp, Function.update_eq_self]
  | @step o k r d d' d'' q hsem _ ih =>
    obtain ⟨τ, hrun⟩ := ih (Function.update processes i (some (k r))) (Function.update_self ..)
    rw [Function.update_idem] at hrun
    have hstep : S.lts.step ⟨d, processes⟩ (.effect i o r)
        ⟨d', Function.update processes i (some (k r))⟩ := .effect hp hsem
    exact ⟨⟨_, _, _⟩ :: τ, LTS.Run.cons_iff.2 ⟨rfl, hstep, hrun⟩⟩

/-- A process that is not disturbed ends in an outcome that its program can reach. -/
theorem answers_of_reaches {r : Except ε α}
    (h : p.Reaches (S.sem i) s.world (Prog.ofExcept r) d) :
    S.Answers s i p r ⟨d, Function.update s.processes i (some (Prog.ofExcept r))⟩ := by
  obtain ⟨world, processes⟩ := s
  simp only at h ⊢
  generalize hq : Prog.ofExcept r = q at h ⊢
  induction h with
  | refl q d =>
    subst hq
    exact ⟨[], .nil _, fun _ he => (List.not_mem_nil he).elim, Function.update_self ..⟩
  | @step o k a d d' d'' q hsem _ ih =>
    obtain ⟨τ, hrun, hends, hr⟩ := ih hq
    have hstep : S.lts.step ⟨d, Function.update processes i (some (.call o k))⟩ (.effect i o a)
        ⟨d', Function.update processes i (some (k a))⟩ := by
      have hrunning : (⟨d, Function.update processes i (some (.call o k))⟩ :
          State ι D O R ε α).processes i = some (.call o k) := Function.update_self ..
      have heffect := Step.effect (S := S) hrunning hsem
      rwa [Function.update_idem] at heffect
    refine ⟨⟨_, _, _⟩ :: τ, LTS.Run.cons_iff.2 ⟨rfl, hstep, hrun⟩, fun e he => ?_, hr⟩
    rcases List.mem_cons.1 he with rfl | he
    · exact id
    · exact hends e he

/-- A process that is started can get to what its program can reach. -/
theorem run_of_start (h : p.Reaches (S.sem i) s.world q d) (hfree : s.processes i = none)
    (hstart : S.starts i s.world p) :
    ∃ τ, S.lts.Run s τ ⟨d, Function.update s.processes i (some q)⟩ := by
  obtain ⟨τ, hrun⟩ := run_of_reaches (s := ⟨s.world, Function.update s.processes i (some p)⟩) h
    (Function.update_self ..)
  rw [Function.update_idem] at hrun
  have hstep : S.lts.step s (.start i p) ⟨s.world, Function.update s.processes i (some p)⟩ :=
    .start hfree hstart
  exact ⟨⟨_, _, _⟩ :: τ, LTS.Run.cons_iff.2 ⟨rfl, hstep, hrun⟩⟩

/-- A process that is started and runs to its end leaves the others as they are. -/
theorem run_to_end {r : Except ε α} (h : p.Reaches (S.sem i) s.world (Prog.ofExcept r) d)
    (hfree : s.processes i = none) (hstart : S.starts i s.world p) :
    ∃ τ, S.lts.Run s τ ⟨d, s.processes⟩ := by
  obtain ⟨τ, hrun⟩ := run_of_start h hfree hstart
  have hrunning : (⟨d, Function.update s.processes i (some (Prog.ofExcept r))⟩ :
      State ι D O R ε α).processes i = some (Prog.ofExcept r) := Function.update_self ..
  have hfinish : S.lts.step ⟨d, Function.update s.processes i (some (Prog.ofExcept r))⟩ (.finish i)
      ⟨d, Function.update (Function.update s.processes i (some (Prog.ofExcept r))) i none⟩ := by
    cases r with
    | ok a => exact .returned hrunning
    | error e => exact .threw hrunning
  have hlast := hrun.snoc hfinish
  rw [Function.update_idem, ← hfree, Function.update_eq_self] at hlast
  exact ⟨_, hlast⟩

/-- A process that has ended can be gone in the next state. -/
theorem answers_to_end {r : Except ε α} (h : p.Reaches (S.sem i) s.world (Prog.ofExcept r) d)
    (hfree : s.processes i = none) :
    ∃ t τ, S.Answers s i p r t ∧ S.lts.Run t τ ⟨d, s.processes⟩ := by
  have hrunning : (⟨d, Function.update s.processes i (some (Prog.ofExcept r))⟩ :
      State ι D O R ε α).processes i = some (Prog.ofExcept r) := Function.update_self ..
  have hfinish : S.lts.step ⟨d, Function.update s.processes i (some (Prog.ofExcept r))⟩ (.finish i)
      ⟨d, Function.update (Function.update s.processes i (some (Prog.ofExcept r))) i none⟩ := by
    cases r with
    | ok a => exact .returned hrunning
    | error e => exact .threw hrunning
  rw [Function.update_idem, ← hfree, Function.update_eq_self] at hfinish
  exact ⟨_, _, answers_of_reaches h, (LTS.Run.nil _).snoc hfinish⟩

/-- A process that is started and gets answers the system can give. -/
theorem run_exec {respond : D → (o : O) → Except ε (R o) × D}
    (h : ∀ d o, S.sem i d o (respond d o).1 (respond d o).2) (hfree : s.processes i = none)
    (hstart : S.starts i s.world p) :
    ∃ τ, S.lts.Run s τ ⟨(p.exec respond s.world).2, s.processes⟩ :=
  run_to_end (Prog.Reaches.exec h p s.world) hfree hstart

end System

end Obolos
