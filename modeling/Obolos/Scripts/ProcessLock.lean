import Obolos.Crash.System
import Obolos.Js.Text

/-!
# The PID lock

`acquireProcessLock` (`process-lock.ts`) puts a file with its process id at the path of the lock.
A process that finds a file there reads the process id and, when that process is dead, removes the
file and tries again.  Every file-system call is one atomic step, and processes can die between
any two of them.

The check that the file is still the one with the dead owner (`stat`) and its removal (`unlink`)
are two steps.  `acquireProcessLock_race` : between them another process can recover the lock, so
that its lock file is removed and two processes hold the lock.  `acquireProcessLock_exclusive` :
in every run in which no process removes the lock file of a process that is still there, at most
one process holds the lock.
-/

namespace Obolos

namespace ProcessLock

/-- A lock file.  `owner` is the process that created it, and `pid` what it says. -/
structure File (ι : Type) where
  ino : ℕ
  owner : ι
  pid : Option ℕ

/-- What is thrown. -/
inductive LockError
  | EEXIST
  | ESRCH
  /-- Any other failed system call. -/
  | system
  /-- `Error(message)` -/
  | error (message : JsString)
  deriving DecidableEq

/-- The system calls, and what is noted of the caller of `acquireProcessLock`. -/
inductive Effect
  /-- The process starts. -/
  | exec
  | mkdir
  /-- `open(candidate, 'wx')` -/
  | openCandidate
  /-- `file.writeFile(JSON.stringify({pid: process.pid}))` -/
  | writeCandidate
  | syncCandidate
  | closeCandidate
  /-- `link(candidate, path)` -/
  | link
  /-- `stat(path)`, of which the inode number is used -/
  | stat
  /-- `JSON.parse(await readFile(path, 'utf8')).pid`; a file that does not say a process id throws. -/
  | readPid
  /-- `process.kill(pid, 0)` -/
  | kill (pid : ℕ)
  /-- `unlink(path)` -/
  | unlink
  /-- `unlink(candidate)` -/
  | unlinkCandidate
  /-- `acquireProcessLock` has returned. -/
  | acquired
  /-- `release` is called. -/
  | released

/-- The answers of the system calls. -/
abbrev Answer : Effect → Type
  | .stat => ℕ
  | .readPid => ℕ
  | _ => Unit

/-- A program of system calls. -/
abbrev Calls (α : Type) := Prog Effect Answer LockError α

/-- One system call. -/
def perform (o : Effect) : Calls (Answer o) := Prog.await o

/-- `stat(path).catch(() => null)` -/
def statOrNull : Calls (Option ℕ) := tryCatch (some <$> perform .stat) fun _ => pure none

/-- `throw Error(message)` -/
def fail {α : Type} (message : String) : Calls α := throw (.error (js message))

/-- Link the candidate, and look at its inode number; `none` when the path is taken. -/
def tryLink : Calls (Option ℕ) :=
  tryCatch
    (do
      perform .link
      some <$> perform .stat)
    fun e => if e = .EEXIST then pure none else throw e

/-- Throws unless there is no process with this id. -/
def assertDead (pid : ℕ) : Calls Unit :=
  tryCatch
    (do
      perform (.kill pid)
      fail "Another process owns this operation lock.")
    fun e => if e = .ESRCH then pure () else throw e

/-- Remove the file at the path when it has this inode number. -/
def unlinkIf (ino : ℕ) : Calls Unit := do
  let current ← statOrNull
  if current = some ino then perform .unlink else pure ()

/-- The attempts to take the lock, `n` of them left; the inode number of the lock file. -/
def attempts : (n : ℕ) → Calls ℕ
  | 0 => fail "Operation lock changed; retry later."
  | n + 1 => do
    match ← tryLink with
    | some owned => return owned
    | none =>
      match ← statOrNull with
      | none => attempts n
      | some before =>
        let pid ← tryCatch (perform .readPid) fun _ =>
          fail "Unrecognized lock; inspect it before manual recovery."
        assertDead pid
        unlinkIf before
        attempts n

/-- `acquireProcessLock(path)`: the inode number that `release` is to remove. -/
def acquireProcessLock : Calls ℕ := do
  perform .mkdir
  perform .openCandidate
  Prog.andFinally
    (do
      perform .writeCandidate
      perform .syncCandidate)
    (perform .closeCandidate)
  Prog.andFinally (attempts 3) (tryCatch (perform .unlinkCandidate) fun _ => pure ())

/-- Take the lock, hold it, release it. -/
def holdOnce : Calls Unit := do
  let owned ← acquireProcessLock
  perform .acquired
  perform .released
  unlinkIf owned

/-- A process that uses the lock `n` times, whatever goes wrong. -/
def uses : (n : ℕ) → Calls Unit
  | 0 => pure ()
  | n + 1 => do
    tryCatch holdOnce fun _ => pure ()
    uses n

/-- A process from its start. -/
def program (n : ℕ) : Calls Unit := do
  perform .exec
  uses n

/-! ### The file system and the process table -/

/-- The lock file, the candidates, and the process table. -/
structure World (ι : Type) where
  /-- The file at the path. -/
  path : Option (File ι)
  /-- The candidate file of a process. -/
  candidate : ι → Option (File ι)
  /-- The process was started. -/
  started : ι → Bool
  /-- The process is in the process table: it runs, or it is a zombie. -/
  table : ι → Bool
  /-- `acquireProcessLock` has returned and `release` was not called. -/
  holding : ι → Bool

variable {ι : Type}

namespace World

variable (w : World ι) (i : ι)

/-- No process has started and there are no files. -/
def empty : World ι := ⟨none, fun _ => none, fun _ => false, fun _ => false, fun _ => false⟩

/-- An inode number in use. -/
def Used (n : ℕ) : Prop :=
  (∃ f, w.path = some f ∧ f.ino = n) ∨ ∃ j f, w.candidate j = some f ∧ f.ino = n

variable [DecidableEq ι]

/-- Process `i` enters the process table. -/
def exec : World ι :=
  { w with started := Function.update w.started i true
           table := Function.update w.table i true }

/-- The candidate of process `i` becomes `f`. -/
def setCandidate (f : Option (File ι)) : World ι :=
  { w with candidate := Function.update w.candidate i f }

/-- The file at the path becomes `f`. -/
def setPath (f : Option (File ι)) : World ι := { w with path := f }

/-- Process `i` holds the lock, or not. -/
def setHolding (b : Bool) : World ι := { w with holding := Function.update w.holding i b }

/-- Process `i` leaves the process table. -/
def reap : World ι := { w with table := Function.update w.table i false }

end World

/-! ### What the processes guarantee -/

/-- A process in the table that holds the lock has put the file at the path. -/
structure Inv (w : World ι) : Prop where
  holder : ∀ i, w.table i = true → w.holding i = true → ∃ f, w.path = some f ∧ f.owner = i
  candidate : ∀ i f, w.candidate i = some f → f.owner = i
  fresh : ∀ i, w.started i = false → w.holding i = false ∧ w.table i = false

/-- The others leave process `j` its lock file. -/
structure Keeps (j : ι) (w w' : World ι) : Prop where
  table : w.table j = true → w'.table j = true
  holding : w'.holding j = w.holding j
  path : w.table j = true → ∀ f, w.path = some f → f.owner = j → w'.path = some f

/-- Every process relies on what the others guarantee. -/
def protocol : Protocol ι (World ι) where
  inv := Inv
  rely i w w' := Inv w' ∧ Keeps i w w'
  guar i w w' := Inv w' ∧ ∀ j, j ≠ i → Keeps j w w'

/-- Process `i` runs and does not hold the lock. -/
structure Out (i : ι) (w : World ι) : Prop where
  inv : Inv w
  table : w.table i = true
  holding : w.holding i = false

/-- Moreover the file at the path is its own. -/
structure Mine (i : ι) (w : World ι) : Prop extends Out i w where
  mine : ∃ f, w.path = some f ∧ f.owner = i

/-- The file at the path was put there by process `i`, or by one that is gone. -/
def Removable (w : World ι) (i : ι) : Prop :=
  ∀ f ∈ w.path, f.owner = i ∨ w.table f.owner = false

instance [DecidableEq ι] (w : World ι) (i : ι) : Decidable (Removable w i) :=
  inferInstanceAs (Decidable (∀ f ∈ w.path, f.owner = i ∨ w.table f.owner = false))

section

variable {i j : ι} {w w' : World ι}

theorem Keeps.refl (j : ι) (w : World ι) : Keeps j w w := ⟨id, rfl, fun _ _ h _ => h⟩

theorem Keeps.trans {w'' : World ι} (h : Keeps j w w') (h' : Keeps j w' w'') : Keeps j w w'' :=
  ⟨fun ht => h'.table (h.table ht), h'.holding.trans h.holding,
    fun ht f hf ho => h'.path (h.table ht) f (h.path ht f hf ho) ho⟩

theorem Out.stable (h : Out i w) (hr : protocol.rely i w w') : Out i w' :=
  ⟨hr.1, hr.2.table h.table, hr.2.holding.trans h.holding⟩

theorem Mine.stable (h : Mine i w) (hr : protocol.rely i w w') : Mine i w' := by
  obtain ⟨f, hf, ho⟩ := h.mine
  exact ⟨h.toOut.stable hr, f, hr.2.path h.table f hf ho, ho⟩

theorem guar_refl (h : Inv w) : protocol.guar i w w := ⟨h, fun j _ => Keeps.refl j w⟩

/-- A process that does not hold the lock is free to remove a file of its own or of a process
that is gone. -/
theorem Out.unlink (h : Out i w) (hremovable : Removable w i) :
    protocol.guar i w (w.setPath none) ∧ Out i (w.setPath none) := by
  have hinv : Inv (w.setPath none) := by
    refine ⟨fun k hk hholding => ?_, h.inv.candidate, h.inv.fresh⟩
    -- a holder would have the file at the path, but this file is removable
    obtain ⟨f, hf, rfl⟩ := h.inv.holder k hk hholding
    rcases hremovable f hf with rfl | hgone
    · exact absurd (h.holding.symm.trans hholding) (by decide)
    · exact absurd (hgone.symm.trans hk) (by decide)
  refine ⟨⟨hinv, fun k hk => ⟨id, rfl, fun hk' f hf ho => ?_⟩⟩, hinv, h.table, h.holding⟩
  rcases hremovable f hf with hi | hgone
  · exact absurd (ho.symm.trans hi) hk
  · rw [ho, hk'] at hgone
    cases hgone

/-- Linking the candidate to a free path takes the lock. -/
theorem Out.link {f : File ι} (h : Out i w) (hf : w.candidate i = some f) (hfree : w.path = none) :
    protocol.guar i w (w.setPath (some f)) ∧ Mine i (w.setPath (some f)) := by
  have hinv : Inv (w.setPath (some f)) := by
    refine ⟨fun k hk hholding => ?_, h.inv.candidate, h.inv.fresh⟩
    obtain ⟨g, hg, -⟩ := h.inv.holder k hk hholding
    rw [hfree] at hg
    cases hg
  refine ⟨⟨hinv, fun k hk => ⟨id, rfl, fun _ g hg _ => ?_⟩⟩, ⟨hinv, h.table, h.holding⟩, f, rfl,
    h.inv.candidate i f hf⟩
  rw [hfree] at hg
  cases hg

end

/-! ### The system -/

variable [DecidableEq ι]

/-- What a system call of process `i` does, when process `j` has the id `pid j`.  Different
processes in the table have different ids; a call that fails changes nothing. -/
def sem (pid : ι → ℕ) (i : ι) (w : World ι) :
    (o : Effect) → Except LockError (Answer o) → World ι → Prop
  | .exec, .ok _, w' =>
    w.started i = false ∧ (∀ j, w.table j = true → pid j ≠ pid i) ∧ w' = w.exec i
  | .openCandidate, .ok _, w' => ∃ n, ¬ w.Used n ∧ w' = w.setCandidate i (some ⟨n, i, none⟩)
  | .writeCandidate, .ok _, w' =>
    ∃ f, w.candidate i = some f ∧ w' = w.setCandidate i (some { f with pid := some (pid i) })
  | .link, .ok _, w' =>
    ∃ f, w.candidate i = some f ∧ w.path = none ∧ w' = w.setPath (some f)
  | .stat, .ok n, w' => (∃ f, w.path = some f ∧ f.ino = n) ∧ w' = w
  | .readPid, .ok n, w' => (∃ f, w.path = some f ∧ f.pid = some n) ∧ w' = w
  | .kill n, .ok _, w' => (∃ j, w.table j = true ∧ pid j = n) ∧ w' = w
  | .kill n, .error e, w' => (e = .ESRCH → ∀ j, w.table j = true → pid j ≠ n) ∧ w' = w
  | .unlink, .ok _, w' => (∃ f, w.path = some f) ∧ w' = w.setPath none
  | .unlinkCandidate, .ok _, w' => w' = w.setCandidate i none
  | .acquired, .ok _, w' => w' = w.setHolding i true
  | .acquired, .error _, _ => False
  | .released, .ok _, w' => w' = w.setHolding i false
  | .released, .error _, _ => False
  | _, _, w' => w' = w

/-- Processes that use the lock.  A process that is dead is taken off the process table. -/
def system (pid : ι → ℕ) : System ι (World ι) Effect Answer LockError Unit where
  sem := sem pid
  starts _ _ p := ∃ n, p = program n
  env live w w' := ∃ i, ¬ live i ∧ w' = w.reap i

/-- A state of the processes that use the lock. -/
abbrev State (ι : Type) := System.State ι (World ι) Effect Answer LockError Unit

/-- A step of the processes that use the lock. -/
abbrev Action (ι : Type) := System.Action ι Effect Answer LockError Unit

/-- Processes that use the lock, as a transition system. -/
def processes (pid : ι → ℕ) : LTS (State ι) (Action ι) := (system pid).lts

/-- Nobody runs and there are no files. -/
def start : State ι := System.State.idle World.empty

/-- Process `i` is alive and holds the lock. -/
def Holds (s : State ι) (i : ι) : Prop :=
  (s.processes i).isSome = true ∧ s.world.table i = true ∧ s.world.holding i = true

/-! ### The condition -/

/-- The call removes the file at the path. -/
def removes : (o : Effect) → Except LockError (Answer o) → Bool
  | .unlink, .ok _ => true
  | _, _ => false

/-- The process whose lock file is removed, if one is, is the one that removes it or is gone. -/
def Careful (e : Tr (State ι) (Action ι)) : Prop :=
  match e.lab with
  | .effect i o r => removes o r = true → Removable e.pre.world i
  | _ => True

instance (e : Tr (State ι) (Action ι)) : Decidable (Careful e) := by
  unfold Careful
  split <;> infer_instance

instance (s : State ι) (i : ι) : Decidable (Holds s i) :=
  inferInstanceAs (Decidable (_ ∧ _ ∧ _))

/-- The processes whose removals are careful. -/
def carefulSystem (pid : ι → ℕ) : System ι (World ι) Effect Answer LockError Unit :=
  { system pid with
    sem := fun i w o r w' => sem pid i w o r w' ∧ (removes o r = true → Removable w i) }

variable {pid : ι → ℕ} {i j : ι} {w w' : World ι} {s t : State ι}
  {τ : List (Tr (State ι) (Action ι))}

/-- A run with careful removals. -/
theorem careful_run (h : (processes pid).Run s τ t) (hτ : ∀ e ∈ τ, Careful e) :
    (carefulSystem pid).lts.Run s τ t := by
  induction h with
  | nil => exact .nil _
  | @snoc u v τ a h hst ih =>
    refine (ih fun e he => hτ e (by simp [he])).snoc ?_
    have hcareful := hτ ⟨u, a, v⟩ (by simp)
    cases hst with
    | start free starts => exact .start free starts
    | effect running sem => exact .effect running ⟨sem, hcareful⟩
    | returned running => exact .returned running
    | threw running => exact .threw running
    | crash => exact .crash
    | env env => exact .env env

/-- What a process is verified against. -/
abbrev spec (pid : ι → ℕ) (i : ι) : Prog.Spec (World ι) Effect Answer LockError :=
  protocol.spec (carefulSystem pid) i

/-! ### What the system calls guarantee -/

/-- A process may do what it likes with its candidate. -/
theorem Inv.setCandidate {f : Option (File ι)} (h : Inv w) (hf : ∀ g, f = some g → g.owner = i) :
    protocol.guar i w (w.setCandidate i f) := by
  refine ⟨⟨h.holder, fun k g hg => ?_, h.fresh⟩, fun k _ => ⟨id, rfl, fun _ _ h _ => h⟩⟩
  by_cases hk : k = i
  · subst hk
    exact hf g (by simpa [World.setCandidate] using hg)
  · exact h.candidate k g (by simpa [World.setCandidate, hk] using hg)

/-- The process whose file is at the path may hold the lock. -/
theorem Mine.acquired (h : Mine i w) : protocol.guar i w (w.setHolding i true) := by
  refine ⟨⟨fun k hk hholding => ?_, h.inv.candidate, fun k hk => ?_⟩, fun k hk =>
    ⟨id, by simp [World.setHolding, hk], fun _ _ h _ => h⟩⟩
  · by_cases hki : k = i
    · subst hki
      exact h.mine
    · exact h.inv.holder k hk (by simpa [World.setHolding, hki] using hholding)
  · obtain ⟨hholding, htable⟩ := h.inv.fresh k hk
    refine ⟨?_, htable⟩
    have hki : k ≠ i := by
      rintro rfl
      exact absurd (htable.symm.trans h.table) (by decide)
    simpa [World.setHolding, hki] using hholding

theorem Inv.released (h : Inv w) (htable : w.table i = true) :
    protocol.guar i w (w.setHolding i false) ∧ Out i (w.setHolding i false) := by
  have hinv : Inv (w.setHolding i false) := by
    refine ⟨fun k hk hholding => ?_, h.candidate, fun k hk => ?_⟩
    · by_cases hki : k = i
      · subst hki
        simp [World.setHolding] at hholding
      · exact h.holder k hk (by simpa [World.setHolding, hki] using hholding)
    · obtain ⟨hholding, htable⟩ := h.fresh k hk
      refine ⟨?_, htable⟩
      by_cases hki : k = i
      · simp [World.setHolding, hki]
      · simpa [World.setHolding, hki] using hholding
  refine ⟨⟨hinv, fun k hk => ⟨id, by simp [World.setHolding, hk], fun _ _ h _ => h⟩⟩, hinv, htable,
    by simp [World.setHolding]⟩

/-- A process that starts is new. -/
theorem Inv.exec (h : Inv w) (hnew : w.started i = false) :
    protocol.guar i w (w.exec i) ∧ Out i (w.exec i) := by
  have hfresh := h.fresh i hnew
  have hinv : Inv (w.exec i) := by
    refine ⟨fun k hk hholding => ?_, h.candidate, fun k hk => ?_⟩
    · by_cases hki : k = i
      · subst hki
        exact absurd (hfresh.1.symm.trans hholding) (by decide)
      · exact h.holder k (by simpa [World.exec, hki] using hk) hholding
    · by_cases hki : k = i
      · simp [World.exec, hki] at hk
      · have hk' := h.fresh k (by simpa [World.exec, hki] using hk)
        exact ⟨hk'.1, by simpa [World.exec, hki] using hk'.2⟩
  refine ⟨⟨hinv, fun k hk => ⟨fun hk' => ?_, rfl, fun _ _ h _ => h⟩⟩, hinv, ?_, hfresh.1⟩
  · simpa [World.exec, hk] using hk'
  · simp [World.exec]

/-! ### The programs -/

/-- One system call, from what the others leave alone. -/
theorem wp_perform {o : Effect} {I : World ι → Prop} {Q : Except LockError (Answer o) → World ι → Prop}
    (hI : I w) (hstable : ∀ w w', I w → protocol.rely i w w' → I w')
    (h : ∀ w r w', I w → sem pid i w o r w' → (removes o r = true → Removable w i) →
      protocol.guar i w w' ∧ Q r w') : (perform o).wp (spec pid i) Q w := by
  refine Prog.wp_await.2 ?_
  intro w₁ hr r w₂ hsem
  exact h w₁ r w₂ (hstable w w₁ hI hr) hsem.1 hsem.2

/-- What the others leave alone, and is a matter of `Out` and of the file at the path. -/
structure Stable (i : ι) (I : World ι → Prop) : Prop where
  out : ∀ w, I w → Out i w
  stable : ∀ w w', I w → protocol.rely i w w' → I w'
  candidate : ∀ w f, I w → (∀ g, f = some g → g.owner = i) → I (w.setCandidate i f)

theorem stable_out : Stable i (Out i) :=
  ⟨fun _ => id, fun _ _ => Out.stable, fun _ _ h hf => ⟨(h.inv.setCandidate hf).1, h.table, h.holding⟩⟩

theorem stable_mine : Stable i (Mine i) :=
  ⟨fun _ h => h.toOut, fun _ _ => Mine.stable, fun _ _ h hf =>
    ⟨stable_out.candidate _ _ h.toOut hf, h.mine⟩⟩

/-- A system call that changes nothing or only the candidate. -/
theorem Stable.wp {I : World ι → Prop} {o : Effect} (hI : Stable i I)
    (ho : ∀ w r w', Inv w → sem pid i w o r w' →
      w' = w ∨ ∃ f : Option (File ι), (∀ g, f = some g → g.owner = i) ∧ w' = w.setCandidate i f)
    (h : I w) : (perform o).wp (spec pid i) (Prog.post I fun _ _ => True) w := by
  refine wp_perform h hI.stable fun w r w' h hsem _ => ?_
  have hinv := (hI.out w h).inv
  have hstep : protocol.guar i w w' ∧ I w' := by
    rcases ho w r w' hinv hsem with rfl | ⟨f, hf, rfl⟩
    · exact ⟨guar_refl hinv, h⟩
    · exact ⟨hinv.setCandidate hf, hI.candidate w f h hf⟩
  refine ⟨hstep.1, ?_⟩
  cases r with
  | ok _ => exact ⟨hstep.2, trivial⟩
  | error _ => exact hstep.2

/-- The program keeps `I`, whatever its outcome. -/
def KeepsTo (pid : ι → ℕ) (i : ι) (I : World ι → Prop) {α : Type} (p : Calls α) : Prop :=
  ∀ w, I w → p.wp (spec pid i) (Prog.post I fun _ _ => True) w

namespace Stable

variable {I : World ι → Prop} (hI : Stable i I)

include hI

theorem mkdir : KeepsTo pid i I (perform .mkdir) := fun _ =>
  hI.wp fun _ r _ _ h => by cases r <;> exact Or.inl h

theorem openCandidate : KeepsTo pid i I (perform .openCandidate) := fun _ =>
  hI.wp fun w r w' _ h => by
    cases r with
    | ok _ =>
      obtain ⟨n, -, rfl⟩ := h
      exact Or.inr ⟨_, fun g hg => by cases hg; rfl, rfl⟩
    | error _ => exact Or.inl h

theorem writeCandidate : KeepsTo pid i I (perform .writeCandidate) := fun _ =>
  hI.wp fun w r w' hinv h => by
    cases r with
    | ok _ =>
      obtain ⟨f, hf, rfl⟩ := h
      exact Or.inr ⟨_, fun g hg => by cases hg; exact hinv.candidate i f hf, rfl⟩
    | error _ => exact Or.inl h

theorem syncCandidate : KeepsTo pid i I (perform .syncCandidate) := fun _ =>
  hI.wp fun _ r _ _ h => by cases r <;> exact Or.inl h

theorem closeCandidate : KeepsTo pid i I (perform .closeCandidate) := fun _ =>
  hI.wp fun _ r _ _ h => by cases r <;> exact Or.inl h

theorem unlinkCandidate : KeepsTo pid i I (perform .unlinkCandidate) := fun _ =>
  hI.wp fun _ r _ _ h => by
    cases r with
    | ok _ => exact Or.inr ⟨none, (fun g hg => by cases hg), h⟩
    | error _ => exact Or.inl h

theorem stat : KeepsTo pid i I (perform .stat) := fun _ =>
  hI.wp fun _ r _ _ h => by
    cases r with
    | ok _ => exact Or.inl h.2
    | error _ => exact Or.inl h

theorem readPid : KeepsTo pid i I (perform .readPid) := fun _ =>
  hI.wp fun _ r _ _ h => by
    cases r with
    | ok _ => exact Or.inl h.2
    | error _ => exact Or.inl h

theorem kill (n : ℕ) : KeepsTo pid i I (perform (.kill n)) := fun _ =>
  hI.wp fun _ r _ _ h => by cases r <;> exact Or.inl h.2

theorem statOrNull : KeepsTo pid i I statOrNull := by
  intro w h
  refine Prog.wp_catch (I := I) (P := fun _ _ => True) ?_ (fun _ _ h _ => ⟨h, trivial⟩)
    fun _ _ h => Prog.wp_pure.2 ⟨h, trivial⟩
  rw [Prog.wp_map]
  refine Prog.wp_mono (hI.stat w h) fun r w' hr => ?_
  cases r with
  | ok _ => exact ⟨hr.1, trivial⟩
  | error _ => exact hr

theorem assertDead (n : ℕ) : KeepsTo pid i I (assertDead n) := by
  intro w h
  refine Prog.wp_catch (I := I) (P := fun _ _ => True) ?_ (fun _ _ h _ => ⟨h, trivial⟩) ?_
  · exact Prog.wp_seq (hI.kill n w h) (fun _ => id) fun _ _ h _ => Prog.wp_throw.2 h
  · intro e w h
    refine Prog.wp_ite (fun _ => ?_) fun _ => ?_
    · exact Prog.wp_pure.2 ⟨h, trivial⟩
    · exact Prog.wp_throw.2 h

end Stable

/-- Taking the path. -/
theorem wp_tryLink (h : Out i w) :
    tryLink.wp (spec pid i) (Prog.post (Out i) fun r w => r.isSome = true → Mine i w) w := by
  refine Prog.wp_catch (I := Out i) (P := fun _ => Mine i) ?_ (fun _ _ h hm => ⟨h, fun _ => hm⟩) ?_
  · refine Prog.wp_seq (I := Out i) (P := fun _ => Mine i) ?_ (fun _ => id) fun _ w _ h => ?_
    · refine wp_perform h (fun _ _ => Out.stable) fun w r w' h hsem _ => ?_
      cases r with
      | ok _ =>
        obtain ⟨f, hf, hfree, rfl⟩ := hsem
        obtain ⟨hg, hm⟩ := h.link hf hfree
        exact ⟨hg, hm.toOut, hm⟩
      | error _ =>
        obtain rfl : w' = w := hsem
        exact ⟨guar_refl h.inv, h⟩
    · rw [Prog.wp_map]
      refine Prog.wp_mono (stable_mine.stat w h) fun r w' hr => ?_
      cases r with
      | ok _ => exact ⟨hr.1.toOut, hr.1⟩
      | error _ => exact hr.toOut
  · intro e w h
    refine Prog.wp_ite (fun _ => ?_) fun _ => ?_
    · exact Prog.wp_pure.2 ⟨h, fun hs => by cases hs⟩
    · exact Prog.wp_throw.2 h

/-- Removing the file at the path, carefully. -/
theorem wp_unlinkIf (n : ℕ) : KeepsTo pid i (Out i) (unlinkIf n) := by
  intro w h
  refine Prog.wp_seq (stable_out.statOrNull w h) (fun _ => id) fun current w h _ => ?_
  refine Prog.wp_ite (fun _ => ?_) fun _ => Prog.wp_pure.2 ⟨h, trivial⟩
  refine wp_perform h (fun _ _ => Out.stable) fun w r w' h hsem hremovable => ?_
  cases r with
  | ok _ =>
    obtain ⟨-, rfl⟩ := hsem
    obtain ⟨hg, h'⟩ := h.unlink (hremovable rfl)
    exact ⟨hg, h', trivial⟩
  | error _ =>
    obtain rfl : w' = w := hsem
    exact ⟨guar_refl h.inv, h⟩

/-- The attempts end with the file of the process at the path, or throw. -/
theorem wp_attempts (n : ℕ) (h : Out i w) :
    (attempts n).wp (spec pid i) (Prog.post (Out i) fun _ => Mine i) w := by
  induction n generalizing w with
  | zero => exact Prog.wp_throw.2 h
  | succ n ih =>
    unfold attempts
    refine Prog.wp_seq (wp_tryLink h) (fun _ => id) fun linked w h hlinked => ?_
    cases linked with
    | some owned => exact Prog.wp_pure.2 ⟨h, hlinked rfl⟩
    | none =>
      refine Prog.wp_seq (stable_out.statOrNull w h) (fun _ => id) fun before w h _ => ?_
      cases before with
      | none => exact ih h
      | some before =>
        refine Prog.wp_seq (I := Out i) (P := fun _ _ => True) ?_ (fun _ => id) fun pid' w h _ => ?_
        · exact Prog.wp_catch (stable_out.readPid w h) (fun _ _ h _ => ⟨h, trivial⟩)
            fun _ _ h => Prog.wp_throw.2 h
        · refine Prog.wp_seq (stable_out.assertDead pid' w h) (fun _ => id) fun _ w h _ => ?_
          exact Prog.wp_seq (wp_unlinkIf before w h) (fun _ => id) fun _ _ h _ => ih h

/-- A finalizer that keeps everything. -/
theorem wp_finalizer {α : Type} {p : Calls α} {f : Calls Unit} {P : α → World ι → Prop}
    (hp : p.wp (spec pid i) (Prog.post (Out i) P) w) (hf : KeepsTo pid i (Out i) f)
    (hP : ∀ a, ∀ w, Out i w ∧ P a w → f.wp (spec pid i) (Prog.post (Out i) fun _ => P a) w) :
    (p.andFinally f).wp (spec pid i) (Prog.post (Out i) P) w := by
  rw [Prog.wp_finally]
  refine Prog.wp_mono hp fun r w hr => ?_
  cases r with
  | ok a =>
    refine Prog.wp_mono (hP a w hr) fun r' w' hr' => ?_
    cases r' with
    | ok _ => exact hr'
    | error _ => exact hr'
  | error e =>
    refine Prog.wp_mono (hf w hr) fun r' w' hr' => ?_
    cases r' with
    | ok _ => exact hr'.1
    | error _ => exact hr'

/-- **Taking the lock.**  When `acquireProcessLock` returns, the file at the path is that of the
process. -/
theorem wp_acquireProcessLock (h : Out i w) :
    acquireProcessLock.wp (spec pid i) (Prog.post (Out i) fun _ => Mine i) w := by
  unfold acquireProcessLock
  refine Prog.wp_seq (stable_out.mkdir w h) (fun _ => id) fun _ w h _ => ?_
  refine Prog.wp_seq (stable_out.openCandidate w h) (fun _ => id) fun _ w h _ => ?_
  refine Prog.wp_seq (I := Out i) (P := fun _ _ => True) ?_ (fun _ => id) fun _ w h _ => ?_
  · refine wp_finalizer ?_ stable_out.closeCandidate fun _ w h =>
      stable_out.closeCandidate w h.1
    exact Prog.wp_seq (stable_out.writeCandidate w h) (fun _ => id) fun _ w h _ =>
      stable_out.syncCandidate w h
  · have hunlink : ∀ {I : World ι → Prop}, Stable i I →
        KeepsTo pid i I (tryCatch (perform .unlinkCandidate) fun _ => pure ()) :=
      fun hI w h => Prog.wp_catch (hI.unlinkCandidate w h) (fun _ _ h _ => ⟨h, trivial⟩)
        fun _ _ h => Prog.wp_pure.2 ⟨h, trivial⟩
    refine wp_finalizer (wp_attempts 3 h) (hunlink stable_out) fun _ w h => ?_
    refine Prog.wp_mono (hunlink stable_mine w h.2) fun r w hr => ?_
    cases r with
    | ok _ => exact ⟨hr.1.toOut, hr.1⟩
    | error _ => exact hr.toOut

/-- A process that holds the lock and releases it. -/
theorem wp_hold {p : Calls Unit} (h : Mine i w) (hp : KeepsTo pid i (Out i) p) :
    (do perform .acquired; perform .released; p : Calls Unit).wp (spec pid i)
      (Prog.post (Out i) fun _ _ => True) w := by
  rw [Prog.wp_bind]
  refine wp_perform h (fun _ _ => Mine.stable) fun w r w' h hsem _ => ?_
  cases r with
  | error _ => exact hsem.elim
  | ok _ =>
    obtain rfl : w' = w.setHolding i true := hsem
    have hg := h.acquired
    refine ⟨hg, ?_⟩
    show Prog.wp _ _ _ _
    rw [Prog.wp_bind]
    refine wp_perform (I := fun w => Inv w ∧ w.table i = true) ⟨hg.1, h.table⟩
      (fun _ _ h hr => ⟨hr.1, hr.2.table h.2⟩) fun w r w' h hsem _ => ?_
    cases r with
    | error _ => exact hsem.elim
    | ok _ =>
      obtain rfl : w' = w.setHolding i false := hsem
      obtain ⟨hg, h'⟩ := h.1.released h.2
      exact ⟨hg, hp _ h'⟩

theorem wp_holdOnce : KeepsTo pid i (Out i) holdOnce := by
  intro w h
  exact Prog.wp_seq (wp_acquireProcessLock h) (fun _ => id) fun owned w _ h =>
    wp_hold h (wp_unlinkIf owned)

theorem wp_uses (n : ℕ) : KeepsTo pid i (Out i) (uses n) := by
  induction n with
  | zero => exact fun w h => Prog.wp_pure.2 ⟨h, trivial⟩
  | succ n ih =>
    intro w h
    unfold uses
    refine Prog.wp_seq (I := Out i) (P := fun _ _ => True) ?_ (fun _ => id) fun _ w h _ => ih w h
    exact Prog.wp_catch (wp_holdOnce w h) (fun _ _ h _ => ⟨h, trivial⟩)
      fun _ _ h => Prog.wp_pure.2 ⟨h, trivial⟩

/-- A process leaves the process table. -/
theorem Inv.reap (h : Inv w) (k : ι) : Inv (w.reap k) := by
  refine ⟨fun i hi => ?_, h.candidate, fun i hi => ?_⟩
  · by_cases hk : i = k
    · simp [World.reap, hk] at hi
    · exact h.holder i (by simpa [World.reap, hk] using hi)
  · obtain ⟨hholding, htable⟩ := h.fresh i hi
    refine ⟨hholding, ?_⟩
    by_cases hk : i = k <;> simp [World.reap, hk, htable]

/-- The processes are verified. -/
theorem sound : (protocol (ι := ι)).Sound (carefulSystem pid) where
  rely_refl i w h := ⟨h, Keeps.refl i w⟩
  rely_trans i w w' w'' h h' := ⟨h'.1, h.2.trans h'.2⟩
  guar_inv i w w' _ h := h.1
  guar_rely i j w w' _ h hj := ⟨h.1, h.2 j hj⟩
  env_inv live w w' h henv := by
    obtain ⟨k, -, rfl⟩ := henv
    exact h.reap k
  env_rely live i w w' h henv hlive := by
    obtain ⟨k, hdead, rfl⟩ := henv
    have hik : i ≠ k := by
      rintro rfl
      exact hdead hlive
    exact ⟨h.reap k, fun ht => by simpa [World.reap, hik] using ht, rfl, fun _ _ h _ => h⟩
  start i w p h hstarts := by
    obtain ⟨n, rfl⟩ := hstarts
    unfold program
    rw [Prog.wp_bind]
    refine wp_perform h (fun _ _ _ hr => hr.1) fun w r w' h hsem _ => ?_
    cases r with
    | error _ =>
      obtain rfl : w' = w := hsem
      exact ⟨guar_refl h, trivial⟩
    | ok _ =>
      obtain ⟨hnew, -, rfl⟩ := hsem
      obtain ⟨hg, hout⟩ := h.exec hnew
      exact ⟨hg, Prog.wp_mono (wp_uses n _ hout) fun _ _ _ => trivial⟩

omit [DecidableEq ι] in
theorem inv_empty : Inv (World.empty : World ι) :=
  ⟨fun _ h => (by cases h), fun _ _ h => (by cases h), fun _ _ => ⟨rfl, rfl⟩⟩

/-! ### Runs of given processes -/

/-- The answers of the system calls when nothing goes wrong.  Process `i` has the id `i` and
gives its candidates the inode number `i`. -/
def respond (i : ℕ) (w : World ℕ) : (o : Effect) → Except LockError (Answer o) × World ℕ
  | .exec =>
    if w.started i = false ∧ w.table i = false then (.ok (), w.exec i) else (.error .system, w)
  | .mkdir => (.ok (), w)
  | .openCandidate =>
    if w.candidate i = none ∧ ∀ f ∈ w.path, f.ino ≠ i then
      (.ok (), w.setCandidate i (some ⟨i, i, none⟩))
    else (.error .system, w)
  | .writeCandidate =>
    match w.candidate i with
    | some f => (.ok (), w.setCandidate i (some { f with pid := some i }))
    | none => (.error .system, w)
  | .syncCandidate => (.ok (), w)
  | .closeCandidate => (.ok (), w)
  | .link =>
    match w.candidate i, w.path with
    | some f, none => (.ok (), w.setPath (some f))
    | _, _ => (.error .EEXIST, w)
  | .stat =>
    match w.path with
    | some f => (.ok f.ino, w)
    | none => (.error .system, w)
  | .readPid =>
    match w.path with
    | some ⟨_, _, some n⟩ => (.ok n, w)
    | _ => (.error .system, w)
  | .kill n => if w.table n = true then (.ok (), w) else (.error .ESRCH, w)
  | .unlink => if w.path.isSome then (.ok (), w.setPath none) else (.error .system, w)
  | .unlinkCandidate => (.ok (), w.setCandidate i none)
  | .acquired => (.ok (), w.setHolding i true)
  | .released => (.ok (), w.setHolding i false)

/-- The candidate of process `i` has the inode number `i`. -/
def Numbered (w : World ℕ) : Prop := ∀ i f, w.candidate i = some f → f.ino = i

theorem Numbered.setCandidate {w : World ℕ} {i : ℕ} {f : Option (File ℕ)} (h : Numbered w)
    (hf : ∀ g, f = some g → g.ino = i) : Numbered (w.setCandidate i f) := by
  intro k g hg
  by_cases hk : k = i
  · subst hk
    exact hf g (by simpa [World.setCandidate] using hg)
  · exact h k g (by simpa [World.setCandidate, hk] using hg)

theorem respond_sem (i : ℕ) (w : World ℕ) (o : Effect) (h : Numbered w) :
    sem id i w o (respond i w o).1 (respond i w o).2 ∧ Numbered (respond i w o).2 := by
  cases o with
  | exec =>
    simp only [respond]
    split_ifs with hnew
    · refine ⟨⟨hnew.1, fun j hj he => ?_, rfl⟩, h⟩
      obtain rfl : j = i := he
      exact absurd (hnew.2.symm.trans hj) (by decide)
    · exact ⟨rfl, h⟩
  | openCandidate =>
    simp only [respond]
    split_ifs with hnew
    · refine ⟨⟨i, ?_, rfl⟩, h.setCandidate fun g hg => by cases hg; rfl⟩
      -- Inode `i` belongs to no other process, and here neither to the lock file.
      rintro (⟨f, hf, hi⟩ | ⟨j, f, hf, hi⟩)
      · exact hnew.2 f hf hi
      · obtain rfl : i = j := hi.symm.trans (h j f hf)
        rw [hnew.1] at hf
        cases hf
    · exact ⟨rfl, h⟩
  | writeCandidate =>
    simp only [respond]
    cases hf : w.candidate i with
    | none => exact ⟨rfl, h⟩
    | some f => exact ⟨⟨f, hf, rfl⟩, h.setCandidate fun g hg => by cases hg; exact h i f hf⟩
  | link =>
    simp only [respond]
    cases hf : w.candidate i with
    | none => exact ⟨rfl, h⟩
    | some f =>
      cases hpath : w.path with
      | none => exact ⟨⟨f, hf, hpath, rfl⟩, h⟩
      | some g => exact ⟨rfl, h⟩
  | stat =>
    simp only [respond]
    cases hpath : w.path with
    | none => exact ⟨rfl, h⟩
    | some f => exact ⟨⟨⟨f, hpath, rfl⟩, rfl⟩, h⟩
  | readPid =>
    simp only [respond]
    cases hpath : w.path with
    | none => exact ⟨rfl, h⟩
    | some f =>
      obtain ⟨ino, owner, n⟩ := f
      cases n with
      | none => exact ⟨rfl, h⟩
      | some n => exact ⟨⟨⟨_, hpath, rfl⟩, rfl⟩, h⟩
  | kill n =>
    simp only [respond]
    split_ifs with hn
    · exact ⟨⟨⟨n, hn, rfl⟩, rfl⟩, h⟩
    -- No process is found only where none is alive under that number.
    · refine ⟨⟨fun _ j hj he => ?_, rfl⟩, h⟩
      obtain rfl : j = n := he
      exact hn hj
  | unlink =>
    simp only [respond]
    split_ifs with hpath
    · exact ⟨⟨Option.isSome_iff_exists.1 hpath, rfl⟩, h⟩
    · exact ⟨rfl, h⟩
  | unlinkCandidate => exact ⟨rfl, h.setCandidate fun g hg => by cases hg⟩
  | _ => exact ⟨rfl, h⟩

/-- What a scheduler can do. -/
inductive Command
  /-- Start process `i`, which uses the lock once. -/
  | launch (i : ℕ)
  /-- At most `n` steps of process `i`. -/
  | run (i n : ℕ)
  | crash (i : ℕ)
  /-- Take the dead process `i` off the process table. -/
  | reap (i : ℕ)

/-- The command is possible. -/
def Command.ok (s : State ℕ) : Command → Bool
  | .launch i => (s.processes i).isNone
  | .run _ _ => true
  | .crash _ => true
  | .reap i => (s.processes i).isNone

/-- What a command does. -/
def Command.perform (s : State ℕ) : Command → List (Tr (State ℕ) (Action ℕ)) × State ℕ
  | .launch i =>
    let s' : State ℕ := ⟨s.world, Function.update s.processes i (some (program 1))⟩
    ([⟨s, .start i (program 1), s'⟩], s')
  | .run i n => System.solo (respond i) i n s
  | .crash i =>
    let s' : State ℕ := ⟨s.world, Function.update s.processes i none⟩
    ([⟨s, .crash i, s'⟩], s')
  | .reap i =>
    let s' : State ℕ := ⟨s.world.reap i, s.processes⟩
    ([⟨s, .env, s'⟩], s')

/-- A schedule: its transitions and the state it leads to, when every command is possible. -/
def schedule (s : State ℕ) : List Command → Option (List (Tr (State ℕ) (Action ℕ)) × State ℕ)
  | [] => some ([], s)
  | c :: cs =>
    if c.ok s then
      (schedule (c.perform s).2 cs).map fun rest => ((c.perform s).1 ++ rest.1, rest.2)
    else none

theorem Command.perform_run {s : State ℕ} {c : Command} (hok : c.ok s = true)
    (hs : Numbered s.world) :
    (processes id).Run s (c.perform s).1 (c.perform s).2 ∧ Numbered (c.perform s).2.world := by
  cases c with
  | launch i =>
    refine ⟨LTS.Run.cons_iff.2 ⟨rfl, ?_, .nil _⟩, hs⟩
    exact .start (Option.isNone_iff_eq_none.1 hok) ⟨1, rfl⟩
  | run i n => exact System.solo_run_of (fun w o => respond_sem i w o) n s hs
  | crash i => exact ⟨LTS.Run.cons_iff.2 ⟨rfl, .crash, .nil _⟩, hs⟩
  | reap i =>
    refine ⟨LTS.Run.cons_iff.2 ⟨rfl, .env ⟨i, ?_, rfl⟩, .nil _⟩, hs⟩
    show ¬ (s.processes i).isSome = true
    rw [Option.isNone_iff_eq_none.1 hok]
    decide

/-- A possible schedule is a run. -/
theorem schedule_run {s t : State ℕ} {cs : List Command} {τ : List (Tr (State ℕ) (Action ℕ))}
    (h : schedule s cs = some (τ, t)) (hs : Numbered s.world) : (processes id).Run s τ t := by
  induction cs generalizing s τ with
  | nil =>
    cases h
    exact .nil _
  | cons c cs ih =>
    rw [schedule] at h
    split_ifs at h with hok
    obtain ⟨⟨σ, t'⟩, hrest, he⟩ := Option.map_eq_some_iff.1 h
    cases he
    obtain ⟨hrun, hnumbered⟩ := Command.perform_run hok hs
    exact hrun.append (ih hrest hnumbered)

theorem numbered_empty : Numbered World.empty := fun _ _ h => by cases h

/-! ### Mutual exclusion -/

/-- **Mutual exclusion.**  In every run in which no process removes the lock file of another
process that is still there, at most one live process holds the lock. -/
theorem acquireProcessLock_exclusive (h : (processes pid).Run start τ t)
    (hτ : ∀ e ∈ τ, Careful e) (hi : Holds t i) (hj : Holds t j) : i = j := by
  have hinv := (sound.run inv_empty (careful_run h hτ)).1
  obtain ⟨f, hf, rfl⟩ := hinv.holder i hi.2.1 hi.2.2
  obtain ⟨g, hg, rfl⟩ := hinv.holder j hj.2.1 hj.2.2
  rw [hf] at hg
  rw [Option.some.inj hg]

/-- Process `1` takes the lock and dies; process `2` recovers the lock. -/
def recovery : List Command :=
  [.launch 1, .run 1 10, .crash 1, .reap 1, .launch 2, .run 2 16]

/-- The recovery is a run with careful removals. -/
theorem recovery_careful :
    ∃ τ t, schedule start recovery = some (τ, t) ∧ (∀ e ∈ τ, Careful e) ∧ Holds t 2 := by
  have h : ∃ p ∈ schedule start recovery, (∀ e ∈ p.1, Careful e) ∧ Holds p.2 2 := by
    decide +kernel
  obtain ⟨p, hp, hcareful, hholds⟩ := h
  exact ⟨p.1, p.2, hp, hcareful, hholds⟩

/-- After the recovery process `2` is the only holder. -/
theorem acquireProcessLock_exclusive_recovery :
    ∃ τ t, (processes id).Run start τ t ∧ Holds t 2 ∧ ∀ j, Holds t j → j = 2 := by
  obtain ⟨τ, t, hschedule, hcareful, hholds⟩ := recovery_careful
  have h := schedule_run hschedule numbered_empty
  exact ⟨τ, t, h, hholds, fun j hj => acquireProcessLock_exclusive h hcareful hj hholds⟩

/-- Process `2` has seen twice that process `1` is dead when process `3` recovers the lock and
takes it; then process `2` removes the lock file of process `3` and takes the lock, too. -/
def race : List Command :=
  [.launch 1, .run 1 10, .crash 1, .reap 1, .launch 2, .run 2 11, .launch 3, .run 3 16, .run 2 5]

/-- **The race.**  Two live processes hold the lock. -/
theorem acquireProcessLock_race :
    ∃ τ t, (processes id).Run start τ t ∧ Holds t 2 ∧ Holds t 3 := by
  have h : ∃ p ∈ schedule start race, Holds p.2 2 ∧ Holds p.2 3 := by decide +kernel
  obtain ⟨p, hp, hholds⟩ := h
  exact ⟨p.1, p.2, schedule_run hp numbered_empty, hholds⟩

end ProcessLock

end Obolos
