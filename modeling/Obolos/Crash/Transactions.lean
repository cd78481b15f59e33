import Obolos.Crash.Outcome

/-!
# Transactions with locks

Processes change shared tables in transactions of several statements.  A statement sees what has
been committed and what its own transaction has done; it waits for the locks it needs (the row it
selects `FOR UPDATE`, the unique key of the row it inserts, an advisory lock) and keeps them until
the transaction ends.  Beside the tables there is an outside that the transactions read.

A statement can fail at any time with a fault of the connection, also after it was executed, and a
connection can be lost at any time; then the database ends the transaction.  What the faults are,
and whether `COMMIT` can be executed although its answer is lost, are parameters.

`Discipline` is what the transactions obey: an invariant of the tables, how the tables may change,
and which part of them a lock protects.  A process is verified against it statement by statement
(`In`, `wp_statement`, `wp_commit`): what it knows of the tables while it holds the locks that
protect them stays true, whatever the others commit.
-/

namespace Obolos

namespace Transactions

/-- An open transaction: the locks it holds, what it has done to the tables, and whether one of
its statements has failed. -/
structure Tx (κ T : Type) where
  held : List κ
  write : T → T
  failed : Bool

/-- What a commit has changed, and whether it was answered. -/
structure Change (T : Type) where
  pre : T
  post : T
  answered : Bool

/-- A transaction that was committed. -/
structure Committed (ι T : Type) where
  process : ι
  change : Change T

/-- The tables, the open transactions, the transactions that were committed, and the outside. -/
structure World (ι κ T W : Type) where
  tables : T
  txs : ι → Option (Tx κ T)
  log : List (Committed ι T)
  outside : W

/-- The statements of a database: the locks a statement waits for, and what it does. -/
structure Schema (κ T Q ε : Type) (A : Q → Type) where
  locks : Q → T → List κ
  run : (q : Q) → T → Except ε (A q × (T → T))

/-- The effects. -/
inductive Effect (κ Q O : Type)
  | begin
  | statement (q : Q)
  | tryLock (k : κ)
  | commit
  | rollback
  | outside (o : O)

variable {ι κ T W Q O ε α : Type} {A : Q → Type} {R : O → Type}

/-- The answers. -/
abbrev Answer (A : Q → Type) (R : O → Type) : Effect κ Q O → Type
  | .begin => Unit
  | .statement q => A q
  | .tryLock _ => Bool
  | .commit => Unit
  | .rollback => Unit
  | .outside o => R o

section Semantics

variable [DecidableEq ι]

/-- The world with another transaction of a process. -/
def World.set (d : World ι κ T W) (i : ι) (tx : Option (Tx κ T)) : World ι κ T W :=
  { d with txs := Function.update d.txs i tx }

theorem World.set_self (d : World ι κ T W) (i : ι) (tx : Option (Tx κ T)) :
    (d.set i tx).txs i = tx := Function.update_self ..

theorem World.set_of_ne (d : World ι κ T W) {i j : ι} (tx : Option (Tx κ T)) (h : j ≠ i) :
    (d.set i tx).txs j = d.txs j := Function.update_of_ne h ..

/-- No other process holds the lock. -/
def World.Free (d : World ι κ T W) (i : ι) (k : κ) : Prop :=
  ∀ j, j ≠ i → ∀ tx, d.txs j = some tx → k ∉ tx.held

/-- What the statement does when it is executed. -/
def Executes (S : Schema κ T Q ε A) (fault : ε → Prop) (i : ι) (d : World ι κ T W) (q : Q)
    (r : Except ε (A q))
    (d' : World ι κ T W) : Prop :=
  ∃ tx a write, d.txs i = some tx ∧ tx.failed = false ∧
    (∀ k ∈ S.locks q (tx.write d.tables), d.Free i k) ∧
      S.run q (tx.write d.tables) = .ok (a, write) ∧
        (r = .ok a ∨ ∃ e, fault e ∧ r = .error e) ∧ d' = d.set i (some
          ⟨tx.held ++ S.locks q (tx.write d.tables), fun t => write (tx.write t), false⟩)

/-- The database refuses the statement, and the transaction has failed. -/
def Refuses (S : Schema κ T Q ε A) (i : ι) (d : World ι κ T W) (q : Q) (r : Except ε (A q))
    (d' : World ι κ T W) : Prop :=
  ∃ tx e, d.txs i = some tx ∧ tx.failed = false ∧
    (∀ k ∈ S.locks q (tx.write d.tables), d.Free i k) ∧
      S.run q (tx.write d.tables) = .error e ∧ r = .error e ∧
        d' = d.set i (some { tx with failed := true })

/-- The transaction goes on, has failed, or is ended because the connection is lost. -/
def Fails (i : ι) (d d' : World ι κ T W) : Prop :=
  d' = d ∨ d' = d.set i none ∨ ∃ tx, d.txs i = some tx ∧ d' = d.set i (some { tx with failed := true })

/-- What the effects of process `i` do. -/
def work (S : Schema κ T Q ε A) (fault : ε → Prop) (lost : Prop)
    (out : W → (o : O) → Except ε (R o) → W → Prop)
    (i : ι) (d : World ι κ T W) :
    (o : Effect κ Q O) → Except ε (Answer A R o) → World ι κ T W → Prop
  | .begin, r, d' => (d.txs i = none ∧ (r = .ok () ∨ ∃ e, fault e ∧ r = .error e) ∧
        d' = d.set i (some ⟨[], id, false⟩)) ∨
      ((∃ e, fault e ∧ r = .error e) ∧ d' = d)
  | .statement q, r, d' => Executes S fault i d q r d' ∨ Refuses S i d q r d' ∨
      ((∃ e, fault e ∧ r = .error e) ∧ Fails i d d')
  | .tryLock k, r, d' =>
      (∃ tx, d.txs i = some tx ∧ tx.failed = false ∧ d.Free i k ∧
        (r = .ok true ∨ ∃ e, fault e ∧ r = .error e) ∧
        d' = d.set i (some { tx with held := tx.held ++ [k] })) ∨
      (∃ tx, d.txs i = some tx ∧ tx.failed = false ∧ ¬ d.Free i k ∧ r = .ok false ∧ d' = d) ∨
      ((∃ e, fault e ∧ r = .error e) ∧ Fails i d d')
  | .commit, r, d' =>
      (∃ tx, d.txs i = some tx ∧ tx.failed = false ∧
        (r = .ok () ∨ (lost ∧ ∃ e, fault e ∧ r = .error e)) ∧
        d' = { d.set i none with
          tables := tx.write d.tables
          log := d.log ++ [⟨i, d.tables, tx.write d.tables, r.isOk⟩] }) ∨
      (∃ tx, d.txs i = some tx ∧ tx.failed = true ∧
        (r = .ok () ∨ ∃ e, fault e ∧ r = .error e) ∧ d' = d.set i none) ∨
      ((∃ e, fault e ∧ r = .error e) ∧ Fails i d d')
  | .rollback, r, d' =>
      ((r = .ok () ∨ ∃ e, fault e ∧ r = .error e) ∧ d' = d.set i none) ∨
      ((∃ e, fault e ∧ r = .error e) ∧ d' = d)
  | .outside o, r, d' => ∃ w, out d.outside o r w ∧ d' = { d with outside := w }

/-- The processes that run some of the given programs, each with a connection of its own.  The
database ends the transaction of a lost connection; the outside may change by itself. -/
def system (S : Schema κ T Q ε A) (fault : ε → Prop) (lost : Prop)
    (out : W → (o : O) → Except ε (R o) → W → Prop)
    (turn : W → W → Prop) (programs : Prog (Effect κ Q O) (Answer A R) ε α → Prop) :
    System ι (World ι κ T W) (Effect κ Q O) (Answer A R) ε α where
  sem := work S fault lost out
  starts i d p := d.txs i = none ∧ programs p
  env _ d d' := (∃ i, d' = d.set i none) ∨ ∃ w, turn d.outside w ∧ d' = { d with outside := w }

end Semantics

/-- No transaction is open. -/
def World.idle (tables : T) (outside : W) : World ι κ T W := ⟨tables, fun _ => none, [], outside⟩

/-! ### The discipline -/

/-- What the transactions obey. -/
structure Discipline (κ T W : Type) where
  inv : T → W → Prop
  /-- How committed transactions may change the tables. -/
  later : T → T → Prop
  later_refl : ∀ t, later t t
  later_trans : ∀ t t' t'', later t t' → later t' t'' → later t t''
  /-- The part of the tables that a lock protects is the same. -/
  same : κ → T → T → Prop
  same_refl : ∀ k t, same k t t
  same_trans : ∀ k t t' t'', same k t t' → same k t' t'' → same k t t''
  /-- How the outside may change. -/
  outside : W → W → Prop
  outside_refl : ∀ w, outside w w
  outside_trans : ∀ w w' w'', outside w w' → outside w' w'' → outside w w''
  inv_outside : ∀ t w w', inv t w → outside w w' → inv t w'

/-- No lock is held by two processes. -/
def World.Exclusive (d : World ι κ T W) : Prop :=
  ∀ i j, i ≠ j → ∀ tx tx', d.txs i = some tx → d.txs j = some tx' → ∀ k ∈ tx.held, k ∉ tx'.held

variable [DecidableEq ι]

/-- What a process has committed. -/
def World.commits (d : World ι κ T W) (i : ι) : List (Committed ι T) :=
  d.log.filter fun c => c.process = i

variable (X : Discipline κ T W)

/-- The invariant of the world. -/
structure Inv (d : World ι κ T W) : Prop where
  tables : X.inv d.tables d.outside
  exclusive : d.Exclusive

/-- What a process relies on. -/
structure Rely (i : ι) (d d' : World ι κ T W) : Prop where
  inv : Inv X d'
  tx : d'.txs i = d.txs i ∨ d'.txs i = none
  later : X.later d.tables d'.tables
  same : ∀ tx, d'.txs i = some tx → ∀ k ∈ tx.held, X.same k d.tables d'.tables
  outside : X.outside d.outside d'.outside
  commits : d'.commits i = d.commits i

/-- What a process guarantees. -/
structure Guar (i : ι) (d d' : World ι κ T W) : Prop where
  inv : Inv X d'
  txs : ∀ j, j ≠ i → d'.txs j = d.txs j
  later : X.later d.tables d'.tables
  same : ∀ k, (∀ tx, d.txs i = some tx → k ∉ tx.held) → X.same k d.tables d'.tables
  outside : X.outside d.outside d'.outside
  commits : ∀ j, j ≠ i → d'.commits j = d.commits j

/-- The protocol of the transactions. -/
def protocol : Protocol ι (World ι κ T W) := ⟨Inv X, Rely X, Guar X⟩

variable {X} {d d' d'' : World ι κ T W} {i j : ι} {tx : Tx κ T}

theorem Rely.refl (h : Inv X d) : Rely X i d d :=
  ⟨h, Or.inl rfl, X.later_refl _, fun _ _ k _ => X.same_refl k _, X.outside_refl _, rfl⟩

theorem Rely.trans (h : Rely X i d d') (h' : Rely X i d' d'') : Rely X i d d'' := by
  refine ⟨h'.inv, ?_, X.later_trans _ _ _ h.later h'.later, fun tx htx k hk => ?_,
    X.outside_trans _ _ _ h.outside h'.outside, h'.commits.trans h.commits⟩
  · rcases h'.tx with heq | hnone
    · rw [heq]
      exact h.tx
    · exact Or.inr hnone
  · rcases h'.tx with heq | hnone
    · exact X.same_trans k _ _ _ (h.same tx (heq ▸ htx) k hk) (h'.same tx htx k hk)
    · rw [hnone] at htx
      cases htx

theorem Guar.rely (hd : Inv X d) (h : Guar X i d d') (hj : j ≠ i) : Rely X j d d' := by
  refine ⟨h.inv, Or.inl (h.txs j hj), h.later, fun tx htx k hk => h.same k fun tx' htx' hk' => ?_,
    h.outside, h.commits j hj⟩
  rw [h.txs j hj] at htx
  exact hd.exclusive i j (Ne.symm hj) tx' tx htx' htx k hk' hk

/-- A process that leaves the tables and the outside alone. -/
theorem Guar.of_tx (hd : Inv X d) {x : Option (Tx κ T)}
    (hx : ∀ tx, x = some tx → ∀ k ∈ tx.held, d.Free i k) : Guar X i d (d.set i x) := by
  refine ⟨⟨hd.tables, fun j j' hj tx tx' htx htx' k hk hk' => ?_⟩, fun j hj => ?_, X.later_refl _,
    fun k _ => X.same_refl k _, X.outside_refl _, fun _ _ => rfl⟩
  · by_cases hji : j = i
    · subst hji
      rw [World.set_self] at htx
      rw [World.set_of_ne _ _ (Ne.symm hj)] at htx'
      exact hx tx htx k hk j' (Ne.symm hj) tx' htx' hk'
    · rw [World.set_of_ne _ _ hji] at htx
      by_cases hji' : j' = i
      · subst hji'
        rw [World.set_self] at htx'
        exact hx tx' htx' k hk' j hji tx htx hk
      · rw [World.set_of_ne _ _ hji'] at htx'
        exact hd.exclusive j j' hj tx tx' htx htx' k hk hk'
  · exact World.set_of_ne d x hj

omit [DecidableEq ι] in
theorem Inv.free (hd : Inv X d) (htx : d.txs i = some tx) : ∀ k ∈ tx.held, d.Free i k :=
  fun k hk j hj tx' htx' hk' => hd.exclusive i j (Ne.symm hj) tx tx' htx htx' k hk hk'

theorem Guar.refl (hd : Inv X d) : Guar X i d d :=
  ⟨hd, fun _ _ => rfl, X.later_refl _, fun k _ => X.same_refl k _, X.outside_refl _, fun _ _ => rfl⟩

theorem Guar.of_fails (hd : Inv X d) (h : Fails i d d') : Guar X i d d' := by
  rcases h with rfl | rfl | ⟨tx, htx, rfl⟩
  · exact Guar.refl hd
  · exact Guar.of_tx hd fun _ h => by cases h
  · refine Guar.of_tx hd fun tx' h => ?_
    cases h
    exact fun k hk => hd.free htx k hk

/-- An ended transaction leaves the others alone. -/
theorem rely_end (hd : Inv X d) (i j : ι) : Rely X j d (d.set i none) := by
  have hinv := (Guar.of_tx (X := X) (i := i) (x := none) hd fun _ h => by cases h).inv
  refine ⟨hinv, ?_, X.later_refl _, fun _ _ k _ => X.same_refl k _, X.outside_refl _, rfl⟩
  by_cases hj : j = i
  · subst hj
    exact Or.inr (d.set_self j none)
  · exact Or.inl (d.set_of_ne none hj)

/-! ### Verifying a process -/

/-- Process `i` is in the transaction `tx`, unless its connection is lost; `P` is what it knows of
the tables and the outside, and `n` what it has committed. -/
structure In (X : Discipline κ T W) (i : ι) (tx : Tx κ T) (P : T → W → Prop)
    (n : List (Committed ι T)) (d : World ι κ T W) : Prop where
  inv : Inv X d
  state : d.txs i = none ∨ d.txs i = some tx
  knows : d.txs i = some tx → P d.tables d.outside
  commits : d.commits i = n

/-- Process `i` is in no particular state, and has committed `n`. -/
structure Out (X : Discipline κ T W) (i : ι) (n : List (Committed ι T)) (d : World ι κ T W) :
    Prop where
  inv : Inv X d
  commits : d.commits i = n

/-- What is known while these locks are held stays true. -/
def Stable (X : Discipline κ T W) (held : List κ) (P : T → W → Prop) : Prop :=
  ∀ t t' w w', X.inv t' w' → X.later t t' → (∀ k ∈ held, X.same k t t') → X.outside w w' →
    P t w → P t' w'

variable {P F : T → W → Prop} {n : List (Committed ι T)}

theorem In.out (h : In X i tx P n d) : Out X i n d := ⟨h.inv, h.commits⟩

theorem In.mono (h : In X i tx P n d) (hF : ∀ t w, X.inv t w → P t w → F t w) : In X i tx F n d :=
  ⟨h.inv, h.state, fun htx => hF _ _ h.inv.tables (h.knows htx), h.commits⟩

theorem In.rely (h : In X i tx P n d) (hP : Stable X tx.held P) (hr : Rely X i d d') :
    In X i tx P n d' := by
  refine ⟨hr.inv, ?_, fun htx => ?_, hr.commits.trans h.commits⟩
  · rcases hr.tx with heq | hnone
    · rw [heq]
      exact h.state
    · exact Or.inl hnone
  · rcases hr.tx with heq | hnone
    · exact hP _ _ _ _ hr.inv.tables hr.later (hr.same tx htx) hr.outside (h.knows (heq ▸ htx))
    · rw [hnone] at htx
      cases htx

/-- The transaction that is open is the one that is known. -/
theorem In.eq (h : In X i tx P n d) {tx' : Tx κ T} (htx : d.txs i = some tx') : tx = tx' := by
  rcases h.state with hnone | hsome
  · rw [hnone] at htx
    cases htx
  · exact Option.some.inj (hsome.symm.trans htx)

theorem Out.rely (h : Out X i n d) (hr : Rely X i d d') : Out X i n d' :=
  ⟨hr.inv, hr.commits.trans h.commits⟩

theorem Out.fails (h : Out X i n d) (hf : Fails i d d') : Out X i n d' := by
  refine ⟨(Guar.of_fails h.inv hf).inv, ?_⟩
  rcases hf with rfl | rfl | ⟨tx, -, rfl⟩
  · exact h.commits
  · exact h.commits
  · exact h.commits

variable {S : Schema κ T Q ε A} {fault : ε → Prop} {lost : Prop}
  {out : W → (o : O) → Except ε (R o) → W → Prop}

/-- What process `i` is verified against. -/
def spec (X : Discipline κ T W) (S : Schema κ T Q ε A) (fault : ε → Prop) (lost : Prop)
    (out : W → (o : O) → Except ε (R o) → W → Prop) (i : ι) :
    Prog.Spec (World ι κ T W) (Effect κ Q O) (Answer A R) ε := 
  ⟨Rely X i, work S fault lost out i, Guar X i⟩

/-- `BEGIN` -/
theorem wp_begin {Φ : Except ε Unit → World ι κ T W → Prop} (h : Out X i n d)
    (hP : Stable X [] P) (hd : P d.tables d.outside)
    (hok : ∀ d', In X i ⟨[], id, false⟩ P n d' → Φ (.ok ()) d')
    (herror : ∀ e d', fault e → Out X i n d' → Φ (.error e) d') :
    (Prog.await (Effect.begin : Effect κ Q O) :
      Prog (Effect κ Q O) (Answer A R) ε Unit).wp (spec X S fault lost out i) Φ d := by
  rw [Prog.wp_await]
  rintro d₁ hrely r d₂ hsem
  have hd := hP _ _ _ _ hrely.inv.tables hrely.later (fun k hk => by cases hk) hrely.outside hd
  have h := h.rely hrely
  rcases hsem with ⟨hnone, hr, rfl⟩ | ⟨⟨e, he, rfl⟩, rfl⟩
  · have hg : Guar X i d₁ (d₁.set i (some ⟨[], id, false⟩)) := by
      refine Guar.of_tx h.inv fun tx htx k hk => ?_
      cases htx
      cases hk
    refine ⟨hg, ?_⟩
    rcases hr with rfl | ⟨e, he, rfl⟩
    · exact hok _ ⟨hg.inv, Or.inr (d₁.set_self i _), fun _ => hd, h.commits⟩
    · exact herror e _ he ⟨hg.inv, h.commits⟩
  · exact ⟨Guar.refl h.inv, herror e _ he h⟩

/-- A statement.  What was known when it was executed is true of its answer, also when the connection
is lost afterwards. -/
theorem wp_statement {q : Q} {Φ : Except ε (A q) → World ι κ T W → Prop} (h : In X i tx P n d)
    (hP : Stable X tx.held P)
    (hok : ∀ a write locks d',
      (X.inv d'.tables d'.outside ∧ P d'.tables d'.outside ∧
        S.run q (tx.write d'.tables) = .ok (a, write)) →
      In X i ⟨tx.held ++ locks, fun t => write (tx.write t), false⟩
      (fun t w => P t w ∧ S.run q (tx.write t) = .ok (a, write) ∧
        locks = S.locks q (tx.write t)) n d' → Φ (.ok a) d')
    (herror : ∀ e d', (fault e ∨ ∃ t w, X.inv t w ∧ P t w ∧ S.run q (tx.write t) = .error e) →
      Out X i n d' → Φ (.error e) d') :
    (Prog.await (Effect.statement q : Effect κ Q O) :
      Prog (Effect κ Q O) (Answer A R) ε (A q)).wp (spec X S fault lost out i) Φ d := by
  rw [Prog.wp_await]
  rintro d₁ hrely r d₂ hsem
  have h := h.rely hP hrely
  rcases hsem with ⟨tx', a, write, htx, -, hfree, hrun, hr, rfl⟩ |
    ⟨tx', e, htx, -, -, hrun, rfl, rfl⟩ | ⟨⟨e, he, rfl⟩, hfails⟩
  · obtain rfl := h.eq htx
    have hg : Guar X i d₁ (d₁.set i (some ⟨tx.held ++ S.locks q (tx.write d₁.tables),
        fun t => write (tx.write t), false⟩)) := by
      refine Guar.of_tx h.inv fun tx' htx' k hk => ?_
      obtain rfl := Option.some.inj htx'
      rcases List.mem_append.1 hk with hk | hk
      · exact h.inv.free htx k hk
      · exact hfree k hk
    refine ⟨hg, ?_⟩
    rcases hr with rfl | ⟨e, he, rfl⟩
    · exact hok a write _ _ ⟨h.inv.tables, h.knows htx, hrun⟩
        ⟨hg.inv, Or.inr (d₁.set_self i _), fun _ => ⟨h.knows htx, hrun, rfl⟩, h.commits⟩
    · exact herror e _ (Or.inl he) ⟨hg.inv, h.commits⟩
  · obtain rfl := h.eq htx
    have hfails : Fails i d₁ (d₁.set i (some { tx with failed := true })) :=
      Or.inr (Or.inr ⟨tx, htx, rfl⟩)
    exact ⟨Guar.of_fails h.inv hfails, herror e _
      (Or.inr ⟨_, _, h.inv.tables, h.knows htx, hrun⟩) (h.out.fails hfails)⟩
  · exact ⟨Guar.of_fails h.inv hfails, herror e _ (Or.inl he) (h.out.fails hfails)⟩

/-- A statement that writes nothing. -/
theorem In.read {locks : List κ} {write write' : T → T}
    (h : In X i ⟨tx.held ++ locks, fun t => write' (write t), false⟩ P n d)
    (hF : ∀ t w, P t w → write' = (fun t => t) ∧ F t w) :
    In X i ⟨tx.held ++ locks, write, false⟩ F n d := by
  rcases h.state with hnone | hsome
  · refine ⟨h.inv, Or.inl hnone, fun htx => ?_, h.commits⟩
    rw [hnone] at htx
    cases htx
  · obtain ⟨rfl, hknows⟩ := hF _ _ (h.knows hsome)
    exact ⟨h.inv, Or.inr hsome, fun _ => hknows, h.commits⟩

theorem wp_read {q : Q} {f : T → A q} {Φ : Except ε (A q) → World ι κ T W → Prop}
    (h : In X i tx P n d) (hP : Stable X tx.held P)
    (hread : ∀ t a write, S.run q t = .ok (a, write) → write = (fun t => t) ∧ a = f t)
    (hok : ∀ a locks d', (X.inv d'.tables d'.outside ∧ P d'.tables d'.outside ∧
        a = f (tx.write d'.tables)) →
      In X i ⟨tx.held ++ locks, tx.write, false⟩
      (fun t w => P t w ∧ a = f (tx.write t) ∧ locks = S.locks q (tx.write t)) n d' → Φ (.ok a) d')
    (herror : ∀ e d', (fault e ∨ ∃ t w, X.inv t w ∧ P t w ∧ S.run q (tx.write t) = .error e) →
      Out X i n d' → Φ (.error e) d') :
    (Prog.await (Effect.statement q : Effect κ Q O) :
      Prog (Effect κ Q O) (Answer A R) ε (A q)).wp (spec X S fault lost out i) Φ d := by
  refine wp_statement h hP (fun a write locks d' hran h => hok a locks d' ?_ (h.read ?_)) herror
  · obtain ⟨hinv, hPt, hrun⟩ := hran
    exact ⟨hinv, hPt, (hread _ _ _ hrun).2⟩
  · rintro t w ⟨hPt, hrun, hlocks⟩
    obtain ⟨hwrite, ha⟩ := hread _ _ _ hrun
    exact ⟨hwrite, hPt, ha, hlocks⟩

/-- A lock that is not waited for. -/
theorem wp_tryLock {k : κ} {Φ : Except ε Bool → World ι κ T W → Prop} (h : In X i tx P n d)
    (hP : Stable X tx.held P)
    (hlocked : ∀ d', P d'.tables d'.outside → In X i { tx with held := tx.held ++ [k] } P n d' →
      Φ (.ok true) d')
    (hbusy : ∀ d', In X i tx P n d' → Φ (.ok false) d')
    (herror : ∀ e d', fault e → Out X i n d' → Φ (.error e) d') :
    (Prog.await (Effect.tryLock k : Effect κ Q O) :
      Prog (Effect κ Q O) (Answer A R) ε Bool).wp (spec X S fault lost out i) Φ d := by
  rw [Prog.wp_await]
  rintro d₁ hrely r d₂ hsem
  have h := h.rely hP hrely
  rcases hsem with ⟨tx', htx, -, hfree, hr, rfl⟩ | ⟨tx', htx, -, -, rfl, rfl⟩ | ⟨⟨e, he, rfl⟩, hfails⟩
  · obtain rfl := h.eq htx
    have hg : Guar X i d₁ (d₁.set i (some { tx with held := tx.held ++ [k] })) := by
      refine Guar.of_tx h.inv fun tx' htx' k' hk' => ?_
      obtain rfl := Option.some.inj htx'
      rcases List.mem_append.1 hk' with hk' | hk'
      · exact h.inv.free htx k' hk'
      · rw [List.mem_singleton.1 hk']
        exact hfree
    refine ⟨hg, ?_⟩
    rcases hr with rfl | ⟨e, he, rfl⟩
    · exact hlocked _ (h.knows htx)
        ⟨hg.inv, Or.inr (d₁.set_self i _), fun _ => h.knows htx, h.commits⟩
    · exact herror e _ he ⟨hg.inv, h.commits⟩
  · exact ⟨Guar.refl h.inv, hbusy _ h⟩
  · exact ⟨Guar.of_fails h.inv hfails, herror e _ he (h.out.fails hfails)⟩

/-- `COMMIT` -/
theorem wp_commit {Φ : Except ε Unit → World ι κ T W → Prop} (h : In X i tx P n d)
    (hopen : tx.failed = false) (hP : Stable X tx.held P)
    (hcommit : ∀ t w, X.inv t w → P t w → X.inv (tx.write t) w ∧ X.later t (tx.write t) ∧
      ∀ k ∉ tx.held, X.same k t (tx.write t))
    (hok : ∀ t w d', X.inv t w → P t w → Out X i (n ++ [⟨i, t, tx.write t, true⟩]) d' →
      Φ (.ok ()) d')
    (hlost : lost → ∀ e t w d', fault e → X.inv t w → P t w →
      Out X i (n ++ [⟨i, t, tx.write t, false⟩]) d' → Φ (.error e) d')
    (herror : ∀ e d', fault e → Out X i n d' → Φ (.error e) d') :
    (Prog.await (Effect.commit : Effect κ Q O) :
      Prog (Effect κ Q O) (Answer A R) ε Unit).wp (spec X S fault lost out i) Φ d := by
  rw [Prog.wp_await]
  rintro d₁ hrely r d₂ hsem
  have h := h.rely hP hrely
  rcases hsem with ⟨tx', htx, -, hr, rfl⟩ | ⟨tx', htx, hfailed, -, rfl⟩ | ⟨⟨e, he, rfl⟩, hfails⟩
  · obtain rfl := h.eq htx
    have hknows := h.knows htx
    obtain ⟨hinv, hlater, hothers⟩ := hcommit d₁.tables d₁.outside h.inv.tables hknows
    have hend := (Guar.of_tx (X := X) (i := i) (x := none) h.inv fun _ h => by cases h).inv
    have hcommits : ∀ j, j ≠ i → ({ d₁.set i none with
        tables := tx.write d₁.tables
        log := d₁.log ++ [⟨i, d₁.tables, tx.write d₁.tables, r.isOk⟩] } : World ι κ T W).commits j =
          d₁.commits j := by
      intro j hj
      rw [World.commits, World.commits, List.filter_append]
      simp [Ne.symm hj]
    have hmine : ({ d₁.set i none with
        tables := tx.write d₁.tables
        log := d₁.log ++ [⟨i, d₁.tables, tx.write d₁.tables, r.isOk⟩] } : World ι κ T W).commits i =
          n ++ [⟨i, d₁.tables, tx.write d₁.tables, r.isOk⟩] := by
      rw [← h.commits, World.commits, World.commits, List.filter_append]
      simp
    have hg : Guar X i d₁ { d₁.set i none with
        tables := tx.write d₁.tables
        log := d₁.log ++ [⟨i, d₁.tables, tx.write d₁.tables, r.isOk⟩] } :=
      ⟨⟨hinv, hend.exclusive⟩, fun j hj => d₁.set_of_ne none hj, hlater,
        fun k hk => hothers k (hk tx htx), X.outside_refl _, hcommits⟩
    refine ⟨hg, ?_⟩
    rcases hr with rfl | ⟨hlost', e, he, rfl⟩
    · exact hok _ _ _ h.inv.tables hknows ⟨hg.inv, hmine⟩
    · exact hlost hlost' e _ _ _ he h.inv.tables hknows ⟨hg.inv, hmine⟩
  · -- this transaction has not failed
    obtain rfl := h.eq htx
    rw [hopen] at hfailed
    cases hfailed
  · exact ⟨Guar.of_fails h.inv hfails, herror e _ he (h.out.fails hfails)⟩

/-- `ROLLBACK` -/
theorem wp_rollback {Φ : Except ε Unit → World ι κ T W → Prop} (h : Out X i n d)
    (hok : ∀ d', Out X i n d' → Φ (.ok ()) d')
    (herror : ∀ e d', fault e → Out X i n d' → Φ (.error e) d') :
    (Prog.await (Effect.rollback : Effect κ Q O) :
      Prog (Effect κ Q O) (Answer A R) ε Unit).wp (spec X S fault lost out i) Φ d := by
  rw [Prog.wp_await]
  rintro d₁ hrely r d₂ hsem
  have h := h.rely hrely
  have hend : Fails i d₁ (d₁.set i none) := Or.inr (Or.inl rfl)
  rcases hsem with ⟨rfl | ⟨e, he, rfl⟩, rfl⟩ | ⟨⟨e, he, rfl⟩, rfl⟩
  · exact ⟨Guar.of_fails h.inv hend, hok _ (h.fails hend)⟩
  · exact ⟨Guar.of_fails h.inv hend, herror e _ he (h.fails hend)⟩
  · exact ⟨Guar.refl h.inv, herror e _ he h⟩

/-- An effect outside the database. -/
theorem wp_outside {o : O} {Φ : Except ε (R o) → World ι κ T W → Prop} (h : In X i tx P n d)
    (hP : Stable X tx.held P) (hout : ∀ w r w', out w o r w' → X.outside w w')
    (hok : ∀ a d', (∃ w, out w o (.ok a) d'.outside) →
      In X i tx (fun t w' => P t w' ∧ ∃ w, out w o (.ok a) w') n d' → Φ (.ok a) d')
    (herror : ∀ e w w' d', out w o (.error e) w' → Out X i n d' → Φ (.error e) d') :
    (Prog.await (Effect.outside o : Effect κ Q O) :
      Prog (Effect κ Q O) (Answer A R) ε (R o)).wp (spec X S fault lost out i) Φ d := by
  rw [Prog.wp_await]
  rintro d₁ hrely r d₂ ⟨w, hsem, rfl⟩
  have h := h.rely hP hrely
  have houtside := hout _ _ _ hsem
  have hg : Guar X i d₁ { d₁ with outside := w } :=
    ⟨⟨X.inv_outside _ _ _ h.inv.tables houtside, h.inv.exclusive⟩, fun _ _ => rfl,
      X.later_refl _, fun k _ => X.same_refl k _, houtside, fun _ _ => rfl⟩
  refine ⟨hg, ?_⟩
  cases r with
  | ok a =>
    refine hok a _ ⟨_, hsem⟩ ⟨hg.inv, h.state, fun htx => ⟨?_, _, hsem⟩, h.commits⟩
    exact hP _ _ _ _ hg.inv.tables (X.later_refl _) (fun k _ => X.same_refl k _) houtside
      (h.knows htx)
  | error e => exact herror e _ _ _ hsem ⟨hg.inv, h.commits⟩

/-- An effect outside the database, and outside a transaction. -/
theorem wp_outside_out {o : O} {Φ : Except ε (R o) → World ι κ T W → Prop} (h : Out X i n d)
    (hout : ∀ w r w', out w o r w' → X.outside w w')
    (hΦ : ∀ r d', Out X i n d' → Φ r d') :
    (Prog.await (Effect.outside o : Effect κ Q O) :
      Prog (Effect κ Q O) (Answer A R) ε (R o)).wp (spec X S fault lost out i) Φ d := by
  rw [Prog.wp_await]
  rintro d₁ hrely r d₂ ⟨w, hsem, rfl⟩
  have h := h.rely hrely
  have houtside := hout _ _ _ hsem
  have hg : Guar X i d₁ { d₁ with outside := w } :=
    ⟨⟨X.inv_outside _ _ _ h.inv.tables houtside, h.inv.exclusive⟩, fun _ _ => rfl,
      X.later_refl _, fun k _ => X.same_refl k _, houtside, fun _ _ => rfl⟩
  exact ⟨hg, hΦ r _ ⟨hg.inv, h.commits⟩⟩

/-- While a program runs, the outside changes as it may. -/
theorem wp_frame {p : Prog (Effect κ Q O) (Answer A R) ε α}
    {Φ : Except ε α → World ι κ T W → Prop} (h : p.wp (spec X S fault lost out i) Φ d) :
    p.wp (spec X S fault lost out i) (fun r d' => X.outside d.outside d'.outside ∧ Φ r d') d := by
  suffices hframe : ∀ w, X.outside w d.outside →
      p.wp (spec X S fault lost out i) (fun r d' => X.outside w d'.outside ∧ Φ r d') d from
    hframe _ (X.outside_refl _)
  induction p generalizing d with
  | pure a => exact fun w hw => Prog.wp_pure.2 ⟨hw, Prog.wp_pure.1 h⟩
  | throw e => exact fun w hw => Prog.wp_throw.2 ⟨hw, Prog.wp_throw.1 h⟩
  | call o k ih =>
    intro w hw
    rw [Prog.wp_call]
    intro d₁ hrely r d₂ hsem
    obtain ⟨hguar, hk⟩ := Prog.wp_call.1 h d₁ hrely r d₂ hsem
    have hw₂ := X.outside_trans _ _ _ (X.outside_trans _ _ _ hw hrely.outside) hguar.outside
    exact ⟨hguar, ih r hk w hw₂⟩

theorem wp_of_frame {p : Prog (Effect κ Q O) (Answer A R) ε α}
    {Φ : Except ε α → World ι κ T W → Prop}
    (h : p.wp (spec X S fault lost out i) (fun r d' => X.outside d.outside d'.outside → Φ r d') d) :
    p.wp (spec X S fault lost out i) Φ d :=
  Prog.wp_mono (wp_frame h) fun _ _ hΦ => hΦ.2 hΦ.1

/-! ### Outcomes -/

/-- Process `i` has ended with at most one commit, and `Φ` is true of its result and of the change
that it has committed. -/
def Settled (X : Discipline κ T W) (i : ι) (n : List (Committed ι T))
    (Φ : Except ε α → Option (Change T) → Prop) (r : Except ε α) (d : World ι κ T W) : Prop :=
  ∃ change : Option (Change T),
    Out X i (n ++ change.toList.map fun c => ⟨i, c⟩) d ∧ Φ r change

/-- What others do keeps an outcome. -/
theorem Settled.rely {Φ : Except ε α → Option (Change T) → Prop} {r : Except ε α}
    (h : Settled X i n Φ r d) (hr : Rely X i d d') : Settled X i n Φ r d' := by
  obtain ⟨change, hout, hΦ⟩ := h
  exact ⟨change, hout.rely hr, hΦ⟩

theorem Settled.of_out {Φ : Except ε α → Option (Change T) → Prop} {r : Except ε α}
    (h : Out X i n d) (hΦ : Φ r none) : Settled X i n Φ r d :=
  ⟨none, by rwa [Option.toList_none, List.map_nil, List.append_nil], hΦ⟩

theorem Settled.of_commit {Φ : Except ε α → Option (Change T) → Prop} {r : Except ε α}
    {c : Change T} (h : Out X i (n ++ [⟨i, c⟩]) d) (hΦ : Φ r (some c)) : Settled X i n Φ r d :=
  ⟨some c, h, hΦ⟩

/-- The commits lead from one state of the tables to the other. -/
def Linked : T → List (Committed ι T) → T → Prop
  | t, [], t' => t' = t
  | t, c :: cs, t' => c.change.pre = t ∧ Linked c.change.post cs t'

/-- From one world to another process `i` has committed this change, or nothing. -/
def Contributes (d d' : World ι κ T W) (i : ι) (change : Option (Change T)) :
    Prop :=
  ∃ cs, d'.log = d.log ++ cs ∧ Linked d.tables cs d'.tables ∧
    cs.filter (fun c => c.process = i) = change.toList.map fun c => ⟨i, c⟩

/-- The changes of the tables from one world to another, and what those of process `i` are. -/
def Changes (d d' : World ι κ T W) (i : ι) (good : Change T → Prop) : Prop :=
  ∃ cs, d'.log = d.log ++ cs ∧ Linked d.tables cs d'.tables ∧
    ∀ c ∈ cs, c.process = i → good c.change

theorem Contributes.changes {change : Option (Change T)} {good : Change T → Prop}
    (h : Contributes d d' i change) (hgood : ∀ c, change = some c → good c) :
    Changes d d' i good := by
  obtain ⟨cs, hlog, hlinked, hmine⟩ := h
  refine ⟨cs, hlog, hlinked, fun c hc hci => ?_⟩
  have hmem : c ∈ cs.filter fun c => c.process = i := List.mem_filter.2 ⟨hc, decide_eq_true hci⟩
  rw [hmine] at hmem
  obtain ⟨p, hp, rfl⟩ := List.mem_map.1 hmem
  exact hgood _ (Option.mem_toList.1 hp)

/-! ### Soundness -/

variable {turn : W → W → Prop} {programs : Prog (Effect κ Q O) (Answer A R) ε α → Prop}

/-- **It is enough to verify every program for itself.** -/
theorem sound (hturn : ∀ w w', turn w w' → X.outside w w')
    (h : ∀ (i : ι) p d n, programs p → Out X i n d →
      p.wp (spec X S fault lost out i) (fun _ _ => True) d) :
    (protocol X).Sound (system (ι := ι) S fault lost out turn programs) where
  rely_refl _ _ hd := Rely.refl hd
  rely_trans _ _ _ _ h h' := h.trans h'
  guar_inv _ _ _ _ hg := hg.inv
  guar_rely i j d d' hd hg hj := Guar.rely hd hg hj
  env_inv live d d' hd he := by
    rcases he with ⟨i, rfl⟩ | ⟨w, hw, rfl⟩
    · exact (rely_end hd i i).inv
    · exact ⟨X.inv_outside _ _ _ hd.tables (hturn _ _ hw), hd.exclusive⟩
  env_rely live j d d' hd he _ := by
    rcases he with ⟨i, rfl⟩ | ⟨w, hw, rfl⟩
    · exact rely_end hd i j
    · exact ⟨⟨X.inv_outside _ _ _ hd.tables (hturn _ _ hw), hd.exclusive⟩, Or.inl rfl,
        X.later_refl _, fun _ _ k _ => X.same_refl k _,
        hturn _ _ hw, rfl⟩
  start i d p hd hp := h i p d _ hp.2 ⟨hd, rfl⟩

omit [DecidableEq ι] in
theorem inv_idle {tables : T} {outside : W} (h : X.inv tables outside) :
    Inv X (World.idle tables outside : World ι κ T W) :=
  ⟨h, fun _ _ _ _ _ htx => by cases htx⟩

/-- A step of a run changes the tables as the discipline says. -/
theorem step_later {s t : System.State ι (World ι κ T W) (Effect κ Q O) (Answer A R) ε α}
    {a : System.Action ι (Effect κ Q O) (Answer A R) ε α}
    (hX : (protocol X).Sound (system (ι := ι) S fault lost out turn programs))
    (h : (protocol X).Holds (system S fault lost out turn programs) s)
    (hst : (system S fault lost out turn programs).lts.step s a t) :
    X.later s.world.tables t.world.tables := by
  rcases hX.step_world h hst with ⟨_, _, _, -, -, hg⟩ | ⟨_, -, he⟩ | he
  · exact hg.later
  · rcases he with ⟨i, he⟩ | ⟨w, -, he⟩
    · rw [he]
      exact X.later_refl _
    · rw [he]
      exact X.later_refl _
  · rw [he]
    exact X.later_refl _

/-- So does every run. -/
theorem run_later {s t : System.State ι (World ι κ T W) (Effect κ Q O) (Answer A R) ε α}
    {σ : List (Tr (System.State ι (World ι κ T W) (Effect κ Q O) (Answer A R) ε α)
      (System.Action ι (Effect κ Q O) (Answer A R) ε α))}
    (hX : (protocol X).Sound (system (ι := ι) S fault lost out turn programs))
    (h : (protocol X).Holds (system S fault lost out turn programs) s)
    (hrun : (system S fault lost out turn programs).lts.Run s σ t) :
    X.later s.world.tables t.world.tables :=
  hrun.rel (I := (protocol X).Holds (system S fault lost out turn programs))
    (R := fun s t => X.later s.world.tables t.world.tables) h (fun _ _ _ hI hst => hX.step hI hst)
    (fun _ => X.later_refl _) (fun _ _ _ => X.later_trans _ _ _) fun _ _ _ hI hst =>
      step_later hX hI hst

omit [DecidableEq ι] in
theorem Linked.append {t t' t'' : T} {cs cs' : List (Committed ι T)} (h : Linked t cs t')
    (h' : Linked t' cs' t'') : Linked t (cs ++ cs') t'' := by
  induction cs generalizing t with
  | nil =>
    obtain rfl : t' = t := h
    exact h'
  | cons c cs ih => exact ⟨h.1, ih h.2⟩

/-- What happened to the tables is what was committed. -/
def Recorded (d d' : World ι κ T W) : Prop :=
  ∃ cs, d'.log = d.log ++ cs ∧ Linked d.tables cs d'.tables

omit [DecidableEq ι] in
theorem Recorded.of_eq (hlog : d'.log = d.log) (htables : d'.tables = d.tables) : Recorded d d' :=
  ⟨[], by rw [hlog, List.append_nil], htables⟩

omit [DecidableEq ι] in
theorem Recorded.trans (h : Recorded d d') (h' : Recorded d' d'') : Recorded d d'' := by
  obtain ⟨cs, hlog, hlinked⟩ := h
  obtain ⟨cs', hlog', hlinked'⟩ := h'
  exact ⟨cs ++ cs', by rw [hlog', hlog, List.append_assoc], hlinked.append hlinked'⟩

theorem Fails.recorded (h : Fails i d d') : Recorded d d' := by
  rcases h with rfl | rfl | ⟨tx, -, rfl⟩
  · exact .of_eq rfl rfl
  · exact .of_eq rfl rfl
  · exact .of_eq rfl rfl

theorem work_recorded {o : Effect κ Q O} {r : Except ε (Answer A R o)}
    (h : work S fault lost out i d o r d') : Recorded d d' := by
  cases o with
  | begin =>
    rcases h with ⟨-, -, rfl⟩ | ⟨-, rfl⟩
    · exact .of_eq rfl rfl
    · exact .of_eq rfl rfl
  | statement q =>
    rcases h with ⟨_, _, _, -, -, -, -, -, rfl⟩ | ⟨_, _, -, -, -, -, -, rfl⟩ | ⟨-, hf⟩
    · exact .of_eq rfl rfl
    · exact .of_eq rfl rfl
    · exact hf.recorded
  | tryLock k =>
    rcases h with ⟨_, -, -, -, -, rfl⟩ | ⟨_, -, -, -, -, rfl⟩ | ⟨-, hf⟩
    · exact .of_eq rfl rfl
    · exact .of_eq rfl rfl
    · exact hf.recorded
  | commit =>
    rcases h with ⟨tx, -, -, -, rfl⟩ | ⟨_, -, -, -, rfl⟩ | ⟨-, hf⟩
    · exact ⟨_, rfl, rfl, rfl⟩
    · exact .of_eq rfl rfl
    · exact hf.recorded
  | rollback =>
    rcases h with ⟨-, rfl⟩ | ⟨-, rfl⟩
    · exact .of_eq rfl rfl
    · exact .of_eq rfl rfl
  | outside o =>
    obtain ⟨w, -, rfl⟩ := h
    exact .of_eq rfl rfl

/-- **What happens to the tables in a run is what is committed in it.** -/
theorem run_recorded {s t : System.State ι (World ι κ T W) (Effect κ Q O) (Answer A R) ε α}
    {σ : List (Tr (System.State ι (World ι κ T W) (Effect κ Q O) (Answer A R) ε α)
      (System.Action ι (Effect κ Q O) (Answer A R) ε α))}
    (hrun : (system S fault lost out turn programs).lts.Run s σ t) : Recorded s.world t.world := by
  refine hrun.rel (I := fun _ => True) (R := fun s t => Recorded s.world t.world) trivial
    (fun _ _ _ _ _ => trivial) (fun _ => .of_eq rfl rfl) (fun _ _ _ => .trans) ?_
  intro s a t _ hst
  cases hst with
  | effect running sem => exact work_recorded sem
  | env env =>
    rcases env with ⟨i, rfl⟩ | ⟨w, -, rfl⟩
    · exact .of_eq rfl rfl
    · exact .of_eq rfl rfl
  | start _ _ => exact .of_eq rfl rfl
  | returned _ => exact .of_eq rfl rfl
  | threw _ => exact .of_eq rfl rfl
  | crash => exact .of_eq rfl rfl

/-- The outcome of a program that is started in `s`, and what it has committed. -/
theorem settled_of_answers {Φ : Except ε α → Option (Change T) → Prop}
    {s t : System.State ι (World ι κ T W) (Effect κ Q O) (Answer A R) ε α}
    {p : Prog (Effect κ Q O) (Answer A R) ε α} {r : Except ε α}
    (hX : (protocol X).Sound (system (ι := ι) S fault lost out turn programs))
    (hs : (protocol X).Holds (system S fault lost out turn programs) s) (hp : programs p)
    (hfree : s.processes i = none) (hidle : s.world.txs i = none)
    (hwp : p.wp (spec X S fault lost out i) (Settled X i (s.world.commits i) Φ) s.world)
    (h : (system S fault lost out turn programs).Answers s i p r t) :
    ∃ change, Φ r change ∧ Contributes s.world t.world i change := by
  obtain ⟨change, hout, hΦ⟩ : Settled X i (s.world.commits i) Φ r t.world :=
    hX.answers hs ⟨hidle, hp⟩ hfree (fun _ _ _ hr h => Settled.rely h hr) hwp h
  obtain ⟨τ, hrun, -⟩ := h
  obtain ⟨cs, hlog, hlinked⟩ :=
    run_recorded (s := ⟨s.world, Function.update s.processes i (some p)⟩) hrun
  refine ⟨change, hΦ, cs, hlog, hlinked, ?_⟩
  have hcommits := hout.commits
  rw [World.commits, World.commits, hlog, List.filter_append] at hcommits
  exact List.append_cancel_left hcommits

/-! ### One connection -/

section Single

variable (S) (e₀ : ε) (loses : Bool) (client : W → (o : O) → Except ε (R o) × W)

/-- The answers when there is only one process: what fails is answered with `e₀`, and with `loses`
the answer of `COMMIT` is lost. -/
def respond (d : World Unit κ T W) :
    (o : Effect κ Q O) → Except ε (Answer A R o) × World Unit κ T W
  | .begin =>
    match d.txs () with
    | none => (.ok (), d.set () (some ⟨[], id, false⟩))
    | some _ => (.error e₀, d)
  | .statement q =>
    match d.txs () with
    | none => (.error e₀, d)
    | some tx =>
      if tx.failed then (.error e₀, d)
      else
        match S.run q (tx.write d.tables) with
        | .ok (a, write) => (.ok a, d.set () (some
            ⟨tx.held ++ S.locks q (tx.write d.tables), fun t => write (tx.write t), false⟩))
        | .error e => (.error e, d.set () (some { tx with failed := true }))
  | .tryLock k =>
    match d.txs () with
    | none => (.error e₀, d)
    | some tx =>
      if tx.failed then (.error e₀, d)
      else (.ok true, d.set () (some { tx with held := tx.held ++ [k] }))
  | .commit =>
    match d.txs () with
    | none => (.error e₀, d)
    | some tx =>
      if tx.failed then (.ok (), d.set () none)
      else (if loses then .error e₀ else .ok (), { d.set () none with
        tables := tx.write d.tables
        log := d.log ++ [⟨(), d.tables, tx.write d.tables, !loses⟩] })
  | .rollback => (.ok (), d.set () none)
  | .outside o => ((client d.outside o).1, { d with outside := (client d.outside o).2 })

variable {S e₀ loses client}

theorem respond_work (he : fault e₀) (hlost : loses = true → lost)
    (hclient : ∀ w o, out w o (client w o).1 (client w o).2) (d : World Unit κ T W) (o : Effect κ Q O) :
    work S fault lost out () d o (respond S e₀ loses client d o).1
      (respond S e₀ loses client d o).2 := by
  -- There is one process, so that nobody else holds a lock.
  have hfree : ∀ k, d.Free () k := fun k j hj => absurd rfl hj
  cases o with
  | begin =>
    cases htx : d.txs () with
    | none =>
      simp only [respond, htx]
      exact Or.inl ⟨htx, Or.inl rfl, rfl⟩
    | some tx =>
      simp only [respond, htx]
      exact Or.inr ⟨⟨e₀, he, rfl⟩, rfl⟩
  | statement q =>
    cases htx : d.txs () with
    | none =>
      simp only [respond, htx]
      exact Or.inr (Or.inr ⟨⟨e₀, he, rfl⟩, Or.inl rfl⟩)
    | some tx =>
      cases hfailed : tx.failed with
      | true =>
        simp only [respond, htx, hfailed, ↓reduceIte]
        exact Or.inr (Or.inr ⟨⟨e₀, he, rfl⟩, Or.inl rfl⟩)
      | false =>
        cases hrun : S.run q (tx.write d.tables) with
        | ok p =>
          simp only [respond, htx, hfailed, Bool.false_eq_true, ↓reduceIte, hrun]
          exact Or.inl ⟨tx, p.1, p.2, htx, hfailed, fun k _ => hfree k, hrun, Or.inl rfl, rfl⟩
        | error e =>
          simp only [respond, htx, hfailed, Bool.false_eq_true, ↓reduceIte, hrun]
          exact Or.inr (Or.inl ⟨tx, e, htx, hfailed, fun k _ => hfree k, hrun, rfl, rfl⟩)
  | tryLock k =>
    cases htx : d.txs () with
    | none =>
      simp only [respond, htx]
      exact Or.inr (Or.inr ⟨⟨e₀, he, rfl⟩, Or.inl rfl⟩)
    | some tx =>
      cases hfailed : tx.failed with
      | true =>
        simp only [respond, htx, hfailed, ↓reduceIte]
        exact Or.inr (Or.inr ⟨⟨e₀, he, rfl⟩, Or.inl rfl⟩)
      | false =>
        simp only [respond, htx, hfailed, Bool.false_eq_true, ↓reduceIte]
        exact Or.inl ⟨tx, htx, hfailed, hfree k, Or.inl rfl, by rw [hfailed]⟩
  | commit =>
    cases htx : d.txs () with
    | none =>
      simp only [respond, htx]
      exact Or.inr (Or.inr ⟨⟨e₀, he, rfl⟩, Or.inl rfl⟩)
    | some tx =>
      cases hfailed : tx.failed with
      | true =>
        simp only [respond, htx, hfailed, ↓reduceIte]
        exact Or.inr (Or.inl ⟨tx, htx, hfailed, Or.inl rfl, rfl⟩)
      -- The transaction is committed even where its answer is lost.
      | false =>
        simp only [respond, htx, hfailed, Bool.false_eq_true, ↓reduceIte]
        cases hloses : loses with
        | true => exact Or.inl ⟨tx, htx, hfailed, Or.inr ⟨hlost hloses, e₀, he, rfl⟩, rfl⟩
        | false => exact Or.inl ⟨tx, htx, hfailed, Or.inl rfl, rfl⟩
  | rollback => exact Or.inl ⟨Or.inl rfl, rfl⟩
  | outside o => exact ⟨_, hclient d.outside o, rfl⟩

theorem answers_respond {programs : Prog (Effect κ Q O) (Answer A R) ε α → Prop}
    {turn : W → W → Prop} (he : fault e₀) (hlost : loses = true → lost)
    (hclient : ∀ w o, out w o (client w o).1 (client w o).2) {p : Prog (Effect κ Q O) (Answer A R) ε α}
    {d : World Unit κ T W} {r : Except ε α × World Unit κ T W}
    (hr : p.exec (respond S e₀ loses client) d = r) :
    ∃ t, (system S fault lost out turn programs).Answers ⟨d, fun _ => none⟩ () p r.1 t ∧
      t.world = r.2 := by
  obtain rfl := hr
  exact ⟨_, System.answers_exec (S := system S fault lost out turn programs)
    (respond_work he hlost hclient) p ⟨d, fun _ => none⟩, rfl⟩

end Single

end Transactions

end Obolos
