import Obolos.Crash.System

/-!
# The outcome of one process

`System.Answers` : a process that was started with a program has ended in an outcome, whatever the
others did in the meantime.  `Protocol.Sound.answers` : what was verified of the program then holds
of the outcome, if the others keep it.
-/

namespace Obolos

namespace System

variable {ι D O : Type} {R : O → Type} {ε α : Type}

/-- An action that is the start or the end of process `i`. -/
def Action.Ends (i : ι) : Action ι O R ε α → Prop
  | .start j _ => j = i
  | .finish j => j = i
  | .crash j => j = i
  | .effect _ _ _ => False
  | .env => False

variable [DecidableEq ι] (S : System ι D O R ε α)

/-- Process `i` runs the program `p` from the state `s` on, and in `t` its outcome is `r`. -/
def Answers (s : State ι D O R ε α) (i : ι) (p : Prog O R ε α) (r : Except ε α)
    (t : State ι D O R ε α) : Prop :=
  ∃ τ, S.lts.Run ⟨s.world, Function.update s.processes i (some p)⟩ τ t ∧
    (∀ e ∈ τ, ¬ e.lab.Ends i) ∧ t.processes i = some (Prog.ofExcept r)

variable {S}

/-- With answers the system can give, a process ends in the outcome of its program. -/
theorem answers_exec {respond : D → (o : O) → Except ε (R o) × D} {i : ι}
    (h : ∀ d o, S.sem i d o (respond d o).1 (respond d o).2) (p : Prog O R ε α)
    (s : State ι D O R ε α) :
    S.Answers s i p (p.exec respond s.world).1 ⟨(p.exec respond s.world).2,
      Function.update s.processes i (some (Prog.ofExcept (p.exec respond s.world).1))⟩ := by
  obtain ⟨world, processes⟩ := s
  induction p generalizing world with
  | pure a => exact ⟨[], .nil _, fun _ he => (List.not_mem_nil he).elim, Function.update_self ..⟩
  | throw e => exact ⟨[], .nil _, fun _ he => (List.not_mem_nil he).elim, Function.update_self ..⟩
  | call o k ih =>
    obtain ⟨τ, hrun, hends, hr⟩ := ih (respond world o).1 (respond world o).2
    have hstep : S.lts.step ⟨world, Function.update processes i (some (.call o k))⟩
        (.effect i o (respond world o).1)
        ⟨(respond world o).2, Function.update processes i (some (k (respond world o).1))⟩ := by
      have hrunning : (⟨world, Function.update processes i (some (.call o k))⟩ :
          State ι D O R ε α).processes i = some (.call o k) := Function.update_self ..
      have heffect := Step.effect (S := S) hrunning (h world o)
      rwa [Function.update_idem] at heffect
    refine ⟨⟨_, _, _⟩ :: τ, LTS.Run.cons_iff.2 ⟨rfl, hstep, hrun⟩, fun e he => ?_, hr⟩
    rcases List.mem_cons.1 he with rfl | he
    · exact id
    · exact hends e he

/-- The state in which a process has ended is one of the run. -/
theorem run_of_answers {s t : State ι D O R ε α} {i : ι} {p : Prog O R ε α} {r : Except ε α}
    (hfree : s.processes i = none) (hstart : S.starts i s.world p) (ha : S.Answers s i p r t) :
    ∃ τ, S.lts.Run s τ t := by
  obtain ⟨τ, hrun, -, -⟩ := ha
  have hstep : S.lts.step s (.start i p) ⟨s.world, Function.update s.processes i (some p)⟩ :=
    .start hfree hstart
  exact ⟨⟨_, _, _⟩ :: τ, LTS.Run.cons_iff.2 ⟨rfl, hstep, hrun⟩⟩

end System

namespace Protocol

namespace Sound

variable {ι D O : Type} {R : O → Type} {ε α : Type} {P : Protocol ι D} {S : System ι D O R ε α}
  {s t : System.State ι D O R ε α} {i : ι} {p : Prog O R ε α} {Q : Except ε α → D → Prop}
  {r : Except ε α}

/-- What the others do keeps a running program verified. -/
theorem wp_rely (hP : P.Sound S) {d d' : D} (h : p.wp (P.spec S i) Q d)
    (hQ : ∀ r d d', P.rely i d d' → Q r d → Q r d') (hr : P.rely i d d') :
    p.wp (P.spec S i) Q d' :=
  Prog.wp_rely h (fun d'' hr' => hP.rely_trans i d d' d'' hr hr') fun r => hQ r d d' hr

variable [DecidableEq ι]

/-- A step that is not the end of a process leaves the rest of its program verified. -/
theorem wp_step (hP : P.Sound S) {a : System.Action ι O R ε α} (hs : P.Holds S s)
    (hQ : ∀ r d d', P.rely i d d' → Q r d → Q r d') (hp : s.processes i = some p)
    (h : p.wp (P.spec S i) Q s.world) (hst : S.lts.step s a t) (ha : ¬ a.Ends i) :
    ∃ q, t.processes i = some q ∧ q.wp (P.spec S i) Q t.world := by
  -- Another process starts or ends.
  have hother : ∀ j q, j ≠ i →
      ∃ q', Function.update s.processes j q i = some q' ∧ q'.wp (P.spec S i) Q s.world := by
    intro j q hj
    exact ⟨p, (Function.update_of_ne (Ne.symm hj) ..).trans hp, h⟩
  cases hst with
  | @start j q free starts => exact hother j _ ha
  | @effect j o k r d running sem =>
    by_cases hj : j = i
    · subst hj
      obtain rfl := Option.some.inj (hp.symm.trans running)
      refine ⟨k r, Function.update_self .., ?_⟩
      exact (Prog.wp_call.1 h _ (hP.rely_refl j _ hs.1) r d sem).2
    · have hg := (hP.wp_call hs.1 (hs.2 j _ running) sem).1
      refine ⟨p, (Function.update_of_ne (Ne.symm hj) ..).trans hp, ?_⟩
      exact hP.wp_rely h hQ (hP.guar_rely j i _ _ hs.1 hg (Ne.symm hj))
  | @returned j a running => exact hother j _ ha
  | @threw j e running => exact hother j _ ha
  | @crash j => exact hother j _ ha
  | @env d env =>
    refine ⟨p, hp, hP.wp_rely h hQ (hP.env_rely _ i _ _ hs.1 env ?_)⟩
    simp only [hp, Option.isSome_some]

/-- The same for every run. -/
theorem wp_run (hP : P.Sound S) {τ : List (Tr (System.State ι D O R ε α) (System.Action ι O R ε α))}
    (hs : P.Holds S s) (hQ : ∀ r d d', P.rely i d d' → Q r d → Q r d')
    (hp : s.processes i = some p) (h : p.wp (P.spec S i) Q s.world) (hrun : S.lts.Run s τ t)
    (hends : ∀ e ∈ τ, ¬ e.lab.Ends i) :
    ∃ q, t.processes i = some q ∧ q.wp (P.spec S i) Q t.world := by
  induction hrun with
  | nil => exact ⟨p, hp, h⟩
  | @snoc t u τ a hrun hst ih =>
    obtain ⟨q, hq, hwp⟩ := ih fun e he => hends e (by simp [he])
    have ht : P.Holds S t := hrun.invariant hs fun _ _ _ hI hst => hP.step hI hst
    exact hP.wp_step ht hQ hq hwp hst (hends ⟨t, a, u⟩ (by simp))

/-- **The outcome.**  What was verified of a program holds when a process that runs it has ended. -/
theorem answers (hP : P.Sound S) (hs : P.Holds S s) (hstart : S.starts i s.world p)
    (hfree : s.processes i = none) (hQ : ∀ r d d', P.rely i d d' → Q r d → Q r d')
    (h : p.wp (P.spec S i) Q s.world) (ha : S.Answers s i p r t) : Q r t.world := by
  obtain ⟨τ, hrun, hends, hr⟩ := ha
  have hbegun : P.Holds S ⟨s.world, Function.update s.processes i (some p)⟩ :=
    hP.step hs (System.Step.start hfree hstart)
  obtain ⟨q, hq, hwp⟩ := hP.wp_run hbegun hQ (Function.update_self ..) h hrun hends
  obtain rfl := Option.some.inj (hr.symm.trans hq)
  exact Prog.wp_ofExcept.1 hwp

end Sound

end Protocol

end Obolos
