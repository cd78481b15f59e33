import Obolos.Crash.Prog
import Obolos.LTS.Run
import Mathlib.Logic.Function.Basic

/-!
# Concurrent programs that can crash

Processes run programs over one shared world, one effect at a time in any order.  A process can
start at any time, and can be killed between any two effects; the environment may change the
world on its own (someone removes a stale lock file), knowing which processes are alive.

`Protocol.Sound` is the rely–guarantee proof obligation: the programs are verified one by one
against what the others may do.  `Protocol.Sound.run` : then the invariant holds after every run,
whatever the interleaving and the crashes, and every effect of every process respects its
guarantee.
-/

namespace Obolos

/-- The semantics of the effects, the programs that may be started, and what the environment may
do by itself when exactly the processes in `live` are alive. -/
structure System (ι D O : Type) (R : O → Type) (ε α : Type) where
  sem : ι → D → (o : O) → Except ε (R o) → D → Prop
  starts : ι → D → Prog O R ε α → Prop
  env : (live : ι → Prop) → D → D → Prop

namespace System

variable {ι D O : Type} {R : O → Type} {ε α : Type}

/-- The world, and the rest of the program of every live process. -/
structure State (ι D O : Type) (R : O → Type) (ε α : Type) where
  world : D
  processes : ι → Option (Prog O R ε α)

/-- What happens in one step. -/
inductive Action (ι O : Type) (R : O → Type) (ε α : Type)
  | start (i : ι) (p : Prog O R ε α)
  | effect (i : ι) (o : O) (r : Except ε (R o))
  | finish (i : ι)
  | crash (i : ι)
  | env

variable [DecidableEq ι] (S : System ι D O R ε α)

/-- One step of one process, or of the environment. -/
inductive Step (s : State ι D O R ε α) : Action ι O R ε α → State ι D O R ε α → Prop
  | start {i : ι} {p : Prog O R ε α} (free : s.processes i = none)
      (starts : S.starts i s.world p) :
      Step s (.start i p) ⟨s.world, Function.update s.processes i (some p)⟩
  | effect {i : ι} {o : O} {k : Except ε (R o) → Prog O R ε α} {r : Except ε (R o)} {d : D}
      (running : s.processes i = some (.call o k)) (sem : S.sem i s.world o r d) :
      Step s (.effect i o r) ⟨d, Function.update s.processes i (some (k r))⟩
  | returned {i : ι} {a : α} (running : s.processes i = some (.pure a)) :
      Step s (.finish i) ⟨s.world, Function.update s.processes i none⟩
  | threw {i : ι} {e : ε} (running : s.processes i = some (.throw e)) :
      Step s (.finish i) ⟨s.world, Function.update s.processes i none⟩
  | crash {i : ι} :
      Step s (.crash i) ⟨s.world, Function.update s.processes i none⟩
  | env {d : D} (env : S.env (fun i => (s.processes i).isSome) s.world d) :
      Step s .env ⟨d, s.processes⟩

/-- The transition system of the processes. -/
def lts : LTS (State ι D O R ε α) (Action ι O R ε α) := ⟨S.Step⟩

/-- No process runs. -/
def State.idle (d : D) : State ι D O R ε α := ⟨d, fun _ => none⟩

/-! ### Running one process -/

/-- At most `n` steps of process `i`, with the given answers to its effects, until it ends. -/
def solo (respond : D → (o : O) → Except ε (R o) × D) (i : ι) :
    ℕ → State ι D O R ε α →
      List (Tr (State ι D O R ε α) (Action ι O R ε α)) × State ι D O R ε α
  | 0, s => ([], s)
  | n + 1, s =>
    match s.processes i with
    | none => ([], s)
    | some (.call o k) =>
      let answer := respond s.world o
      let s' : State ι D O R ε α :=
        ⟨answer.2, Function.update s.processes i (some (k answer.1))⟩
      let rest := solo respond i n s'
      (⟨s, .effect i o answer.1, s'⟩ :: rest.1, rest.2)
    | some _ =>
      let s' : State ι D O R ε α := ⟨s.world, Function.update s.processes i none⟩
      ([⟨s, .finish i, s'⟩], s')

variable {S} in
/-- With answers the system can give in the worlds at hand, this is a run. -/
theorem solo_run_of {respond : D → (o : O) → Except ε (R o) × D} {i : ι} {I : D → Prop}
    (h : ∀ d o, I d → S.sem i d o (respond d o).1 (respond d o).2 ∧ I (respond d o).2) (n : ℕ)
    (s : State ι D O R ε α) (hs : I s.world) :
    S.lts.Run s (solo respond i n s).1 (solo respond i n s).2 ∧
      I (solo respond i n s).2.world := by
  induction n generalizing s with
  | zero => exact ⟨.nil s, hs⟩
  | succ n ih =>
    unfold solo
    split
    · exact ⟨.nil s, hs⟩
    · rename_i o k hrunning
      obtain ⟨hsem, hI⟩ := h s.world o hs
      obtain ⟨hrun, hend⟩ := ih ⟨(respond s.world o).2,
        Function.update s.processes i (some (k (respond s.world o).1))⟩ hI
      exact ⟨LTS.Run.cons_iff.2 ⟨rfl, .effect hrunning hsem, hrun⟩, hend⟩
    · rename_i p hp hrunning
      refine ⟨LTS.Run.cons_iff.2 ⟨rfl, ?_, .nil _⟩, hs⟩
      cases p with
      | pure a => exact .returned hrunning
      | throw e => exact .threw hrunning
      | call o k => exact absurd rfl (hp o k)

variable {S} in
/-- With answers the system can give, this is a run. -/
theorem solo_run {respond : D → (o : O) → Except ε (R o) × D} {i : ι}
    (h : ∀ d o, S.sem i d o (respond d o).1 (respond d o).2) (n : ℕ) (s : State ι D O R ε α) :
    S.lts.Run s (solo respond i n s).1 (solo respond i n s).2 :=
  (solo_run_of (I := fun _ => True) (fun d o _ => ⟨h d o, trivial⟩) n s trivial).1

end System

/-- An invariant of the world, and for every process what it relies on and what it guarantees. -/
structure Protocol (ι D : Type) where
  inv : D → Prop
  rely : ι → D → D → Prop
  guar : ι → D → D → Prop

namespace Protocol

variable {ι D O : Type} {R : O → Type} {ε α : Type}

/-- What the program of process `i` is verified against. -/
def spec (P : Protocol ι D) (S : System ι D O R ε α) (i : ι) : Prog.Spec D O R ε :=
  ⟨P.rely i, S.sem i, P.guar i⟩

/-- The proof obligations. -/
structure Sound (P : Protocol ι D) (S : System ι D O R ε α) : Prop where
  rely_refl : ∀ i d, P.inv d → P.rely i d d
  rely_trans : ∀ i d d' d'', P.rely i d d' → P.rely i d' d'' → P.rely i d d''
  guar_inv : ∀ i d d', P.inv d → P.guar i d d' → P.inv d'
  guar_rely : ∀ i j d d', P.inv d → P.guar i d d' → j ≠ i → P.rely j d d'
  env_inv : ∀ live d d', P.inv d → S.env live d d' → P.inv d'
  env_rely : ∀ live i d d', P.inv d → S.env live d d' → live i → P.rely i d d'
  start : ∀ i d p, P.inv d → S.starts i d p → p.wp (P.spec S i) (fun _ _ => True) d

variable {P : Protocol ι D} {S : System ι D O R ε α} {s t : System.State ι D O R ε α}
  {τ : List (Tr (System.State ι D O R ε α) (System.Action ι O R ε α))}

/-- The invariant of the world, and the verified rest of every running program. -/
def Holds (P : Protocol ι D) (S : System ι D O R ε α) (s : System.State ι D O R ε α) : Prop :=
  P.inv s.world ∧ ∀ i p, s.processes i = some p → p.wp (P.spec S i) (fun _ _ => True) s.world

namespace Sound

theorem holds_idle (d : D) (h : P.inv d) : P.Holds S (System.State.idle d) :=
  ⟨h, fun i p hp => by cases hp⟩

/-- What another process leaves of a running program. -/
theorem wp_stable (hP : P.Sound S) {i : ι} {p : Prog O R ε α} {d d' : D}
    (h : p.wp (P.spec S i) (fun _ _ => True) d) (hr : P.rely i d d') :
    p.wp (P.spec S i) (fun _ _ => True) d' :=
  Prog.wp_rely h (fun d'' hr' => hP.rely_trans i d d' d'' hr hr') fun _ => id

/-- An effect of a verified program. -/
theorem wp_call (hP : P.Sound S) {i : ι} {o : O} {k : Except ε (R o) → Prog O R ε α}
    {r : Except ε (R o)} {d d' : D} (hd : P.inv d)
    (h : (Prog.call o k).wp (P.spec S i) (fun _ _ => True) d) (hsem : S.sem i d o r d') :
    P.guar i d d' ∧ (k r).wp (P.spec S i) (fun _ _ => True) d' :=
  Prog.wp_call.1 h d (hP.rely_refl i d hd) r d' hsem

variable [DecidableEq ι]

/-- One process changes: the others keep what they rely on. -/
theorem holds_update (hP : P.Sound S) {d : D} {i : ι} {q : Option (Prog O R ε α)}
    (h : P.Holds S s) (hd : P.inv d) (hr : ∀ j, j ≠ i → P.rely j s.world d)
    (hq : ∀ p, q = some p → p.wp (P.spec S i) (fun _ _ => True) d) :
    P.Holds S ⟨d, Function.update s.processes i q⟩ := by
  refine ⟨hd, fun j p hp => ?_⟩
  by_cases hj : j = i
  · subst hj
    exact hq p (by simpa using hp)
  · refine hP.wp_stable (h.2 j p ?_) (hr j hj)
    simpa [hj] using hp

theorem step (hP : P.Sound S) {a : System.Action ι O R ε α} (h : P.Holds S s)
    (hst : S.lts.step s a t) : P.Holds S t := by
  have hsame : ∀ j, P.rely j s.world s.world := fun j => hP.rely_refl j _ h.1
  cases hst with
  | @start i p free starts =>
    refine hP.holds_update h h.1 (fun j _ => hsame j) fun q hq => ?_
    cases hq
    exact hP.start i _ _ h.1 starts
  | @effect i o k r d running sem =>
    obtain ⟨hg, hk⟩ := hP.wp_call h.1 (h.2 i _ running) sem
    refine hP.holds_update h (hP.guar_inv i _ _ h.1 hg)
      (fun j hj => hP.guar_rely i j _ _ h.1 hg hj) fun q hq => ?_
    cases hq
    exact hk
  | returned running => exact hP.holds_update h h.1 (fun j _ => hsame j) fun q hq => by cases hq
  | threw running => exact hP.holds_update h h.1 (fun j _ => hsame j) fun q hq => by cases hq
  | crash => exact hP.holds_update h h.1 (fun j _ => hsame j) fun q hq => by cases hq
  | env env =>
    refine ⟨hP.env_inv _ _ _ h.1 env, fun i p hp => hP.wp_stable (h.2 i p hp) ?_⟩
    exact hP.env_rely _ i _ _ h.1 env (by simp only at hp; simp [hp])

/-- **Soundness.**  After any interleaving, with any crashes, the invariant holds and the rest of
every running program is still verified. -/
theorem run (hP : P.Sound S) {d : D} (hd : P.inv d) (h : S.lts.Run (System.State.idle d) τ t) :
    P.Holds S t :=
  h.invariant (holds_idle d hd) fun _ _ _ hI hst => hP.step hI hst

/-- Every step of a run is allowed: an effect by the guarantee of its process, and otherwise
only the environment changes the world. -/
theorem step_world (hP : P.Sound S) {a : System.Action ι O R ε α} (h : P.Holds S s)
    (hst : S.lts.step s a t) :
    (∃ i o r, a = .effect i o r ∧ S.sem i s.world o r t.world ∧ P.guar i s.world t.world) ∨
      (∃ live, a = .env ∧ S.env live s.world t.world) ∨ t.world = s.world := by
  cases hst with
  | @effect i o k r d running sem =>
    exact Or.inl ⟨i, o, r, rfl, sem, (hP.wp_call h.1 (h.2 i _ running) sem).1⟩
  | env env => exact Or.inr (Or.inl ⟨_, rfl, env⟩)
  | _ => exact Or.inr (Or.inr rfl)

/-- What every effect and every act of the environment preserves of the world, every run does. -/
theorem rel (hP : P.Sound S) {T : D → D → Prop} {d : D} {σ : List (Tr _ _)} (hd : P.inv d)
    (h : S.lts.Run (System.State.idle d) τ s) (h' : S.lts.Run s σ t) (hrefl : ∀ d, T d d)
    (htrans : ∀ d₁ d₂ d₃, T d₁ d₂ → T d₂ d₃ → T d₁ d₃)
    (hguar : ∀ i d d', P.inv d → P.guar i d d' → T d d')
    (henv : ∀ live d d', P.inv d → S.env live d d' → T d d') : T s.world t.world := by
  refine h'.rel (I := P.Holds S) (R := fun s t => T s.world t.world) (hP.run hd h)
    (fun _ _ _ hI hst => hP.step hI hst) (fun _ => hrefl _) (fun _ _ _ => htrans _ _ _)
    fun s a t hI hst => ?_
  rcases hP.step_world hI hst with ⟨i, _, _, -, -, hg⟩ | ⟨live, -, he⟩ | he
  · exact hguar i _ _ hI.1 hg
  · exact henv live _ _ hI.1 he
  · rw [he]; exact hrefl _

end Sound

end Protocol

end Obolos
