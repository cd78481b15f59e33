import Obolos.Crash.Reach
import Obolos.Runner.Journal

/-!
# Jobs are started once

What a healthy journal has in memory is what the file has, and only the owner of the lock file
writes the file.  So an entry that was written is never lost, and its state only goes from started
to finished to acknowledged (`EntryMove`); a job is executed only while its entry is started, and
`open` finishes every entry that it finds started.
-/

namespace Obolos

namespace Runner

open Runs (Run RunStatus)

variable {H : Type} (P : Runs.Platform) (F : Fingerprints H)

/-! ### What changes -/

/-- What may become of an entry in one step. -/
def EntryMove (e e' : Entry H) : Prop :=
  e'.job = e.job ∧ (e' = e ∨
    (e.state = .started ∧
      (e'.state = .started ∨ (e'.state = .finished ∧ isTerminal e'.run.status = true))) ∨
    (e.state = .finished ∧ e'.state = .acknowledged ∧ e'.run = e.run))

/-- No entry is lost, and a new one is started and has an identifier of its own. -/
structure Progress (j j' : Data H) : Prop where
  agentId : j'.agentId = j.agentId
  kept : ∀ e ∈ j.jobs, ∃ e' ∈ j'.jobs, EntryMove e e'
  comes : ∀ e' ∈ j'.jobs, (∃ e ∈ j.jobs, EntryMove e e') ∨
    (e'.state = .started ∧ e'.job.id ∉ j.ids)

/-- What may become of the file in one step. -/
def FileMove (f f' : File H) : Prop :=
  f' = f ∨ (f = .absent ∧ ∃ agentId, f' = .data ⟨1, agentId, []⟩) ∨
    ∃ j j', f = .data j ∧ f' = .data j' ∧ Progress j j'

/-- What `open` makes of an entry: one that was started has failed. -/
def Reopened (e e' : Entry H) : Prop :=
  e'.job = e.job ∧ (e.state ≠ .started → e' = e) ∧
    (e.state = .started → e'.state = .finished ∧
      ∃ updatedAt id timestamp, e'.run = stopped P e.run updatedAt id timestamp)

/-- What `open` makes of the entries it reads. -/
def Recovered (j j' : Data H) : Prop := List.Forall₂ (Reopened P) j.jobs j'.jobs

/-- The data keep the limits of the mandates. -/
structure Good (j : Data H) : Prop where
  nodup : j.ids.Nodup
  mandates : ∀ e ∈ j.jobs, ∀ e' ∈ j.jobs, e.job.mandate.id = e'.job.mandate.id →
    e.job.mandate = e'.job.mandate
  limit : ∀ e ∈ j.jobs, ((j.previous e.job).length : ℚ) ≤ e.job.mandate.maxRuns

/-- The invariant of the directory. -/
def Inv (d : Directory H) : Prop :=
  d.file = .absent ∨ ∃ j, d.file = .data j ∧ Good j

/-- The job has an entry that is started. -/
def Running (id : JsString) (f : File H) : Prop :=
  ∃ j e, f = .data j ∧ e ∈ j.jobs ∧ e.job.id = id ∧ e.state = .started

/-- What an effect may do.  A job that is executed is started, and has come into the file since the
lock file was last written. -/
structure Guar (d d' : Directory H) : Prop where
  inv : Inv d'
  file : FileMove d.file d'.file
  fresh : ∀ id ∈ d'.fresh, id ∈ d.fresh ∨ id ∉ d.file.ids
  executions : d'.executions = d.executions ∨
    ∃ id, d'.executions = d.executions ++ [id] ∧ Running id d.file ∧ id ∈ d.fresh

/-- The sequential proof obligation of a process. -/
def obligation : Exclusive (Directory H) (Effect H) Answer JsError where
  work := work
  inv := Inv
  guar := Guar
  inv_of_guar _ _ _ h := h.inv

/-- A journal that works has what the file has. -/
def Linked (journal : RunnerJournal H) (d : Directory H) : Prop :=
  journal.closed = false → journal.poisoned = false → d.file = .data journal.data

/-- What holds between two calls. -/
def Ready (journal : RunnerJournal H) (d : Directory H) : Prop := Inv d ∧ Linked journal d

variable {P F} {s : RunnerJournal H} {d : Directory H} {α : Type}

/-! ### Effects -/

theorem Guar.refl (h : Inv d) : Guar d d :=
  ⟨h, Or.inl rfl, fun _ => Or.inl, Or.inl rfl⟩

/-- A file that is put in the place of the file that is there. -/
theorem Guar.put {j : Data H} (hgood : Good j) (hmove : FileMove d.file (.data j)) :
    Guar d (d.put j) := by
  refine ⟨Or.inr ⟨j, rfl, hgood⟩, hmove, fun id hid => ?_, Or.inl rfl⟩
  rcases List.mem_append.1 hid with hid | hid
  · exact Or.inl hid
  · exact Or.inr (of_decide_eq_true (List.mem_filter.1 hid).2)

/-- An effect that changes nothing. -/
theorem wp_quiet {o : Effect H} {Q : Except JsError (Answer o) → RunnerJournal H → Directory H → Prop}
    (h : Inv d) (hquiet : ∀ r d', work d o r d' → d' = d) (hQ : ∀ r, Q r s d) :
    (perform o).wp obligation.spec Q s d := by
  refine Method.wp_await.2 ?_
  rintro d₁ rfl r d₂ hwork
  obtain rfl := hquiet r d₂ hwork
  exact ⟨Guar.refl h, hQ r⟩

theorem wp_fail {X : Exclusive (Directory H) (Effect H) Answer JsError} {message : String}
    {Q : Except JsError α → RunnerJournal H → Directory H → Prop} (h : ∀ e, Q (.error e) s d) :
    (fail message : Exec H α).wp X.spec Q s d :=
  Method.wp_throw.2 (h _)

/-- A journal that works. -/
theorem wp_assertHealthy {X : Exclusive (Directory H) (Effect H) Answer JsError}
    {Q : Except JsError Unit → RunnerJournal H → Directory H → Prop}
    (hok : s.closed = false → s.poisoned = false → Q (.ok ()) s d)
    (herror : ∀ e, (s.closed = true ∨ s.poisoned = true) → Q (.error e) s d) :
    assertHealthy.wp X.spec Q s d := by
  unfold assertHealthy
  rw [Method.wp_bind, Method.wp_self]
  refine Method.wp_ite (fun hbad => wp_fail fun e => herror e hbad) fun hgood => ?_
  rw [not_or, Bool.not_eq_true, Bool.not_eq_true] at hgood
  exact Method.wp_pure.2 (hok hgood.1 hgood.2)

/-- The data of the journal are changed and persisted.  If that fails the journal is poisoned. -/
theorem wp_save {f : Data H → Data H} {Q : Except JsError Unit → RunnerJournal H → Directory H → Prop}
    (h : Inv d) (hf : s.closed = false → s.poisoned = false →
      FileMove d.file (.data (f s.data)) ∧ Good (f s.data))
    (hok : s.closed = false → s.poisoned = false →
      Q (.ok ()) { s with data := f s.data } (d.put (f s.data)))
    (herror : ∀ e s' d', Ready s' d' → Q (.error e) s' d') :
    (save f).wp obligation.spec Q s d := by
  unfold save
  rw [Method.wp_bind, Method.wp_modify]
  show Method.wp _ persist _ _ _
  unfold persist
  rw [Method.wp_bind]
  refine wp_assertHealthy (fun hopen hhealthy => ?_) fun e hbad => ?_
  · show Method.wp _ _ _ _ _
    obtain ⟨hmove, hgood⟩ := hf hopen hhealthy
    have hput := Guar.put hgood hmove
    have hpoisoned : ∀ (e : JsError) d', Inv d' →
        Q (.error e) ⟨s.closed, true, f s.data⟩ d' := fun e d' hd' =>
      herror e _ d' ⟨hd', fun _ hfalse => by cases hfalse⟩
    rw [Method.wp_bind, Method.wp_self]
    show Method.wp _ _ _ _ _
    rw [Method.wp_tryCatch, Method.wp_bind]
    refine wp_quiet h (fun _ _ hwork => hwork) fun r => ?_
    cases r with
    | error e =>
      show Method.wp _ _ _ _ _
      rw [Method.wp_bind, Method.wp_modify]
      exact Method.wp_throw.2 (hpoisoned e d h)
    | ok _ =>
      show Method.wp _ _ _ _ _
      rw [Method.wp_bind]
      refine Method.wp_await.2 ?_
      rintro d₁ rfl r d₂ (⟨e, rfl, rfl⟩ | rfl)
      -- The rename failed: the old file is there, and the journal writes nothing any more.
      · refine ⟨Guar.refl h, ?_⟩
        show Method.wp _ _ _ _ _
        rw [Method.wp_bind, Method.wp_modify]
        exact Method.wp_throw.2 (hpoisoned e _ h)
      -- The rename took place, even where its answer is lost.
      · refine ⟨hput, ?_⟩
        cases r with
        | error e =>
          show Method.wp _ _ _ _ _
          rw [Method.wp_bind, Method.wp_modify]
          exact Method.wp_throw.2 (hpoisoned e _ hput.inv)
        | ok _ =>
          refine wp_quiet hput.inv (fun _ _ hwork => hwork) fun r => ?_
          cases r with
          | error e =>
            show Method.wp _ _ _ _ _
            rw [Method.wp_bind, Method.wp_modify]
            exact Method.wp_throw.2 (hpoisoned e _ hput.inv)
          | ok _ => exact hok hopen hhealthy
  · refine herror e _ d ⟨h, fun hopen hhealthy => ?_⟩
    rcases hbad with hclosed | hpoisoned
    · exact absurd (hopen.symm.trans hclosed) Bool.false_ne_true
    · exact absurd (hhealthy.symm.trans hpoisoned) Bool.false_ne_true

/-! ### Data -/

variable {j : Data H} {id : JsString} {f : Entry H → Entry H}

theorem mem_of_find {e : Entry H} (h : j.find id = some e) : e ∈ j.jobs ∧ e.job.id = id :=
  ⟨List.mem_of_find?_eq_some h, by simpa using List.find?_some h⟩

theorem mem_ids {id : JsString} : id ∈ j.ids ↔ ∃ e ∈ j.jobs, e.job.id = id := List.mem_map

theorem ids_eq : j.ids = (j.jobs.map Entry.job).map RunnerJob.id := (List.map_map ..).symm

theorem previous_length {job : RunnerJob} : (j.previous job).length =
    ((j.jobs.map Entry.job).filter fun other => other.mandate.id = job.mandate.id).length := by
  rw [List.filter_map, List.length_map]
  rfl

/-- Two entries of one job are the same. -/
theorem Good.unique {e e' : Entry H} (h : Good j) (he : e ∈ j.jobs) (he' : e' ∈ j.jobs)
    (hid : e.job.id = e'.job.id) : e = e' :=
  List.inj_on_of_nodup_map h.nodup he he' hid

theorem mem_update {e : Entry H} : e ∈ (j.update id f).jobs ↔
    ∃ e₀ ∈ j.jobs, (if e₀.job.id = id then f e₀ else e₀) = e := List.mem_map

theorem EntryMove.refl (e : Entry H) : EntryMove e e := ⟨rfl, Or.inl rfl⟩

theorem Reopened.move {e e' : Entry H} (h : Reopened P e e') : EntryMove e e' := by
  obtain ⟨hjob, hkept, hstopped⟩ := h
  by_cases hstate : e.state = .started
  · obtain ⟨hfinished, updatedAt, id, timestamp, hrun⟩ := hstopped hstate
    refine ⟨hjob, Or.inr (Or.inl ⟨hstate, Or.inr ⟨hfinished, ?_⟩⟩)⟩
    rw [hrun]
    rfl
  · exact ⟨hjob, Or.inl (hkept hstate)⟩

theorem jobs_moves {jobs jobs' : List (Entry H)} (h : List.Forall₂ EntryMove jobs jobs') :
    jobs'.map Entry.job = jobs.map Entry.job := by
  induction h with
  | nil => rfl
  | cons hmove _ ih => rw [List.map_cons, List.map_cons, hmove.1, ih]

/-- The entries have moved. -/
theorem good_moves {jobs : List (Entry H)} (h : Good j)
    (hmoves : List.Forall₂ EntryMove j.jobs jobs) :
    Progress j { j with jobs := jobs } ∧ Good { j with jobs := jobs } := by
  have hlength := hmoves.length_eq
  have hforth : ∀ e ∈ j.jobs, ∃ e' ∈ jobs, EntryMove e e' := by
    intro e he
    obtain ⟨n, hn, rfl⟩ := List.getElem_of_mem he
    exact ⟨_, List.getElem_mem (hlength ▸ hn), hmoves.get hn (hlength ▸ hn)⟩
  have hback : ∀ e' ∈ jobs, ∃ e ∈ j.jobs, EntryMove e e' := by
    intro e' he'
    obtain ⟨n, hn, rfl⟩ := List.getElem_of_mem he'
    exact ⟨_, List.getElem_mem (hlength ▸ hn), hmoves.get (hlength ▸ hn) hn⟩
  have hjobs := jobs_moves hmoves
  have hids : Data.ids { j with jobs := jobs } = j.ids := by
    rw [ids_eq, ids_eq, hjobs]
  have hprevious : ∀ job, (Data.previous { j with jobs := jobs } job).length =
      (j.previous job).length := fun job => by rw [previous_length, previous_length, hjobs]
  refine ⟨⟨rfl, hforth, fun e' he' => Or.inl (hback e' he')⟩, ?_, ?_, ?_⟩
  · rw [hids]
    exact h.nodup
  · intro e he e' he' hsame
    obtain ⟨e₀, he₀, hjob, -⟩ := hback e he
    obtain ⟨e₁, he₁, hjob', -⟩ := hback e' he'
    rw [hjob, hjob'] at hsame ⊢
    exact h.mandates e₀ he₀ e₁ he₁ hsame
  · intro e he
    obtain ⟨e₀, he₀, hjob, -⟩ := hback e he
    rw [hprevious, hjob]
    exact h.limit e₀ he₀

/-- The entry with this identifier has moved. -/
theorem good_update (h : Good j) (hf : ∀ e ∈ j.jobs, e.job.id = id → EntryMove e (f e)) :
    Progress j (j.update id f) ∧ Good (j.update id f) := by
  refine good_moves h (List.forall₂_map_right_iff.2 (List.forall₂_same.2 fun e he => ?_))
  split_ifs with hid
  · exact hf e he hid
  · exact EntryMove.refl e

/-- A new entry under a mandate that is not exhausted. -/
theorem good_append {e : Entry H} (h : Good j) (hstarted : e.state = .started)
    (hnew : e.job.id ∉ j.ids)
    (hsame : ∀ e' ∈ j.jobs, e'.job.mandate.id = e.job.mandate.id → e'.job.mandate = e.job.mandate)
    (hlimit : ((j.previous e.job).length : ℚ) + 1 ≤ e.job.mandate.maxRuns) :
    Progress j { j with jobs := j.jobs ++ [e] } ∧ Good { j with jobs := j.jobs ++ [e] } := by
  have hmem : ∀ {e'}, e' ∈ j.jobs ++ [e] → e' ∈ j.jobs ∨ e' = e := by
    intro e' he'
    rw [List.mem_append, List.mem_singleton] at he'
    exact he'
  refine ⟨⟨rfl, fun e' he' => ⟨e', List.mem_append_left _ he', EntryMove.refl e'⟩, fun e' he' => ?_⟩,
    ?_, ?_, ?_⟩
  · rcases hmem he' with hold | rfl
    · exact Or.inl ⟨e', hold, EntryMove.refl e'⟩
    · exact Or.inr ⟨hstarted, hnew⟩
  · rw [Data.ids, List.map_append, List.nodup_append]
    refine ⟨h.nodup, List.nodup_singleton _, fun id hid id' hid' heq => ?_⟩
    rw [List.map_singleton, List.mem_singleton] at hid'
    rw [heq, hid'] at hid
    exact hnew hid
  · intro e₁ he₁ e₂ he₂ hid
    rcases hmem he₁ with hold₁ | hnew₁ <;> rcases hmem he₂ with hold₂ | hnew₂
    · exact h.mandates e₁ hold₁ e₂ hold₂ hid
    · rw [hnew₂] at hid ⊢
      exact hsame e₁ hold₁ hid
    · rw [hnew₁] at hid ⊢
      exact (hsame e₂ hold₂ hid.symm).symm
    · rw [hnew₁, hnew₂]
  · intro e₁ he₁
    -- The new entry counts for the jobs of its mandate only.
    have hlast : ∀ job, ((Data.previous { j with jobs := j.jobs ++ [e] } job).length : ℚ) =
        (j.previous job).length + if e.job.mandate.id = job.mandate.id then 1 else 0 := by
      intro job
      rw [Data.previous, Data.previous, List.filter_append, List.length_append, Nat.cast_add]
      congr 1
      by_cases hid : e.job.mandate.id = job.mandate.id
      · simp [hid]
      · simp [hid]
    rcases hmem he₁ with he₁ | hlast₁
    · rw [hlast]
      by_cases hid : e.job.mandate.id = e₁.job.mandate.id
      · have hmandate := hsame e₁ he₁ hid.symm
        have hprevious : j.previous e₁.job = j.previous e.job := by
          rw [Data.previous, Data.previous, hmandate]
        rw [if_pos hid, hprevious, hmandate]
        exact hlimit
      · rw [if_neg hid, add_zero]
        exact h.limit e₁ he₁
    · rw [hlast₁, hlast, if_pos rfl]
      exact hlimit

/-! ### The functions of the journal -/

/-- What a journal that works knows of the file. -/
theorem Ready.good (h : Ready s d) (hopen : s.closed = false) (hhealthy : s.poisoned = false) :
    d.file = .data s.data ∧ Good s.data := by
  have hfile := h.2 hopen hhealthy
  refine ⟨hfile, ?_⟩
  rcases h.1 with habsent | ⟨j, hj, hgood⟩
  · rw [hfile] at habsent
    cases habsent
  · rw [hfile] at hj
    cases hj
    exact hgood

/-- The job has an entry that is started, in a journal that works, and it is a new one. -/
structure Active (id : JsString) (s : RunnerJournal H) (d : Directory H) : Prop where
  ready : Ready s d
  opened : s.closed = false
  healthy : s.poisoned = false
  entry : ∃ e ∈ s.data.jobs, e.job.id = id ∧ e.state = .started
  fresh : id ∈ d.fresh

theorem Active.running (h : Active id s d) : Running id d.file := by
  obtain ⟨e, he, hid, hstate⟩ := h.entry
  exact ⟨s.data, e, (h.ready.good h.opened h.healthy).1, he, hid, hstate⟩

/-- What holds after a call; after one that returns, `A`. -/
def After (A : RunnerJournal H → Directory H → Prop) :
    Except JsError α → RunnerJournal H → Directory H → Prop
  | .ok _, s, d => Ready s d ∧ A s d
  | .error _, s, d => Ready s d

theorem After.ready {A : RunnerJournal H → Directory H → Prop} {r : Except JsError α}
    (h : After A r s d) : Ready s d := by
  cases r with
  | ok a => exact h.1
  | error e => exact h

/-- The data were written. -/
theorem ready_saved {j : Data H} (h : Good j) (s : RunnerJournal H) (d : Directory H) :
    Ready { s with data := j } (d.put j) := ⟨Or.inr ⟨j, rfl, h⟩, fun _ _ => rfl⟩

/-- An entry has moved. -/
theorem wp_update {e : Entry H} {A : RunnerJournal H → Directory H → Prop} (h : Ready s d)
    (hfind : s.data.find id = some e) (hmove : EntryMove e (f e))
    (hA : s.closed = false → s.poisoned = false → Ready { s with data := s.data.update id f }
      (d.put (s.data.update id f)) → A { s with data := s.data.update id f }
        (d.put (s.data.update id f))) :
    (save fun data => data.update id f).wp obligation.spec (After A) s d := by
  have hupdate : s.closed = false → s.poisoned = false → d.file = .data s.data ∧
      Progress s.data (s.data.update id f) ∧ Good (s.data.update id f) := by
    intro hopen hhealthy
    obtain ⟨hfile, hgood⟩ := h.good hopen hhealthy
    refine ⟨hfile, good_update hgood fun e' he' hid => ?_⟩
    obtain ⟨he, hide⟩ := mem_of_find hfind
    rw [hgood.unique he' he (hid.trans hide.symm)]
    exact hmove
  refine wp_save h.1 (fun hopen hhealthy => ?_) (fun hopen hhealthy => ?_) fun _ _ _ h' => h'
  · obtain ⟨hfile, hprogress, hgood⟩ := hupdate hopen hhealthy
    exact ⟨Or.inr (Or.inr ⟨_, _, hfile, rfl, hprogress⟩), hgood⟩
  · obtain ⟨-, -, hgood⟩ := hupdate hopen hhealthy
    exact ⟨ready_saved hgood s d, hA hopen hhealthy (ready_saved hgood s d)⟩

/-- A run that was saved is a run of the job, and the job goes on. -/
theorem wp_checkpoint {run : Run} (h : Ready s d) :
    (checkpoint id run).wp obligation.spec
      (After fun s' d' => run.id = id ∧ (id ∈ d.fresh → Active id s' d')) s d := by
  unfold checkpoint
  rw [Method.wp_bind, Method.wp_self]
  dsimp only
  cases hfind : s.data.find id with
  | none => exact wp_fail fun _ => h
  | some e =>
    refine Method.wp_ite (fun _ => wp_fail fun _ => h) fun hgood => ?_
    obtain ⟨hstate, hrun⟩ := not_or.1 hgood
    rw [not_not] at hstate hrun
    obtain ⟨he, hid⟩ := mem_of_find hfind
    refine wp_update h hfind ⟨rfl, Or.inr (Or.inl ⟨hstate, Or.inl hstate⟩)⟩
      fun hopen hhealthy hready => ⟨hrun, fun hfresh => ⟨hready, hopen, hhealthy, ?_, ?_⟩⟩
    · exact ⟨_, mem_update.2 ⟨e, he, if_pos hid⟩, hid, hstate⟩
    · exact List.mem_append_left _ hfresh

theorem wp_finish {run : Run} (h : Ready s d) :
    (finish id run).wp obligation.spec (fun _ => Ready) s d := by
  unfold finish
  rw [Method.wp_bind, Method.wp_self]
  dsimp only
  cases hfind : s.data.find id with
  | none => exact wp_fail fun _ => h
  | some e =>
    refine Method.wp_ite (fun _ => wp_fail fun _ => h) fun hgood => ?_
    rw [not_or, not_or, not_not, Bool.not_eq_false] at hgood
    obtain ⟨hstate, -, hterminal⟩ := hgood
    exact Method.wp_mono (wp_update (A := fun _ _ => True) h hfind
      ⟨rfl, Or.inr (Or.inl ⟨hstate, Or.inr ⟨rfl, hterminal⟩⟩)⟩ fun _ _ _ => trivial)
      fun _ _ _ hafter => hafter.ready

theorem wp_acknowledge (h : Ready s d) :
    (acknowledge id).wp obligation.spec (fun _ => Ready) s d := by
  unfold acknowledge
  rw [Method.wp_bind, Method.wp_self]
  dsimp only
  cases hfind : s.data.find id with
  | none => exact wp_fail fun _ => h
  | some e =>
    refine Method.wp_ite (fun _ => wp_fail fun _ => h) fun hstate => ?_
    rw [not_not] at hstate
    exact Method.wp_mono (wp_update (A := fun _ _ => True) h hfind
      ⟨rfl, Or.inr (Or.inr ⟨hstate, rfl, rfl⟩)⟩ fun _ _ _ => trivial)
      fun _ _ _ hafter => hafter.ready

variable [DecidableEq H]

theorem wp_existing {X : Exclusive (Directory H) (Effect H) Answer JsError} {job : RunnerJob}
    {Q : Except JsError Bool → RunnerJournal H → Directory H → Prop}
    (hok : ∀ known, s.closed = false → s.poisoned = false →
      (known = false → s.data.find job.id = none) → Q (.ok known) s d)
    (herror : ∀ e, Q (.error e) s d) :
    (existing F job).wp X.spec Q s d := by
  unfold existing
  rw [Method.wp_bind]
  refine wp_assertHealthy (fun hopen hhealthy => ?_) fun e _ => herror e
  show Method.wp _ _ _ _ _
  rw [Method.wp_bind, Method.wp_self]
  dsimp only
  cases hfind : s.data.find job.id with
  | none => exact Method.wp_pure.2 (hok false hopen hhealthy fun _ => hfind)
  | some e =>
    refine Method.wp_ite (fun _ => wp_fail herror) fun _ => ?_
    exact Method.wp_pure.2 (hok true hopen hhealthy fun hfalse => by cases hfalse)

/-- A job that is started has a new entry, under a mandate that allows it. -/
theorem wp_start (hF : Function.Injective F.mandate) {job : RunnerJob} {run : Run}
    (h : Ready s d) :
    (start F job run).wp obligation.spec
      (After fun s' d' => run.id = job.id ∧ Active job.id s' d') s d := by
  unfold start
  rw [Method.wp_bind, Method.wp_self]
  show Method.wp _ _ _ _ _
  refine Method.wp_ite (fun _ => wp_fail fun _ => h) fun hmatches => ?_
  rw [not_or, not_not, not_not] at hmatches
  rw [Method.wp_bind]
  refine wp_existing (fun known hopen hhealthy hknown => ?_) fun _ => h
  show Method.wp _ _ _ _ _
  refine Method.wp_ite (fun _ => wp_fail fun _ => h) fun hnew => ?_
  refine Method.wp_ite (fun _ => wp_fail fun _ => h) fun hsame => ?_
  refine Method.wp_ite (fun _ => wp_fail fun _ => h) fun hlimit => ?_
  obtain ⟨hfile, hgood⟩ := h.good hopen hhealthy
  have hfind : job.id ∉ s.data.ids := by
    intro hmem
    obtain ⟨e, he, heq⟩ := mem_ids.1 hmem
    have hnone := List.find?_eq_none.1 (hknown (Bool.not_eq_true _ ▸ hnew)) e he
    exact hnone (decide_eq_true heq)
  have hmandate : ∀ e ∈ s.data.jobs, e.job.mandate.id = job.mandate.id →
      e.job.mandate = job.mandate := by
    intro e he hid
    by_contra hne
    refine hsame (List.any_eq_true.2 ⟨e, List.mem_filter.2 ⟨he, decide_eq_true hid⟩, ?_⟩)
    exact decide_eq_true fun heq => hne (hF heq)
  have hroom : ((s.data.previous job).length : ℚ) + 1 ≤ job.mandate.maxRuns := by
    rw [not_or, not_or, not_or, not_le, not_not] at hlimit
    obtain ⟨hint, -, -, hless⟩ := hlimit
    have hmax : job.mandate.maxRuns = (job.mandate.maxRuns.num : ℚ) :=
      ((Rat.den_eq_one_iff _).1 hint).symm
    rw [hmax] at hless ⊢
    have hnum : ((s.data.previous job).length : ℤ) < job.mandate.maxRuns.num := by
      exact_mod_cast hless
    exact_mod_cast hnum
  obtain ⟨hprogress, hafter⟩ := good_append (e := ⟨job, F.job job, .started, run⟩) hgood rfl hfind
    hmandate hroom
  have hready := ready_saved hafter s d
  have hentry : (⟨job, F.job job, .started, run⟩ : Entry H) ∈
      s.data.jobs ++ [⟨job, F.job job, .started, run⟩] :=
    List.mem_append_right _ (List.mem_singleton_self _)
  refine wp_save h.1 (fun _ _ => ⟨Or.inr (Or.inr ⟨_, _, hfile, rfl, hprogress⟩), hafter⟩)
    (fun _ _ => ⟨hready, hmatches.2, hready, hopen, hhealthy, ⟨_, hentry, rfl, rfl⟩, ?_⟩)
    fun _ _ _ h' => h'
  -- The identifier was not in the file.
  refine List.mem_append_right _ (List.mem_filter.2 ⟨mem_ids.2 ⟨_, hentry, rfl⟩, ?_⟩)
  rw [hfile]
  exact decide_eq_true hfind

/-! ### Executing a job -/

omit [DecidableEq H] in
/-- A run is stopped. -/
theorem wp_stopUncertain {run : Run}
    {Q : Except JsError Run → RunnerJournal H → Directory H → Prop} (h : Inv d)
    (hok : ∀ updatedAt id timestamp, Q (.ok (stopped P run updatedAt id timestamp)) s d)
    (herror : ∀ e, Q (.error e) s d) :
    (stopUncertain P run).wp obligation.spec Q s d := by
  unfold stopUncertain
  rw [Method.wp_bind]
  refine wp_quiet h (fun _ _ hwork => hwork) fun r => ?_
  cases r with
  | error e => exact herror e
  | ok updatedAt =>
    show Method.wp _ _ _ _ _
    rw [Method.wp_bind]
    refine wp_quiet h (fun _ _ hwork => hwork) fun r => ?_
    cases r with
    | error e => exact herror e
    | ok id =>
      show Method.wp _ _ _ _ _
      rw [Method.wp_bind]
      refine wp_quiet h (fun _ _ hwork => hwork) fun r => ?_
      cases r with
      | error e => exact herror e
      | ok timestamp => exact Method.wp_pure.2 (hok _ _ _)

omit [DecidableEq H] in
/-- Every stage is executed while the entry of the job is started. -/
theorem wp_advanceAll {n : ℕ} {run : Run} (h : Active id s d) (hrun : run.id = id) :
    (advanceAll P id n run).wp obligation.spec (fun _ => Ready) s d := by
  induction n generalizing run s d with
  | zero => exact Method.wp_pure.2 h.ready
  | succ n ih =>
    unfold advanceAll
    refine Method.wp_ite (fun _ => wp_finish h.ready) fun _ => ?_
    rw [Method.wp_bind]
    refine wp_quiet h.ready.1 (fun _ _ hwork => hwork) fun r => ?_
    cases r with
    | error e => exact h.ready
    | ok aborted =>
      show Method.wp _ _ _ _ _
      refine Method.wp_ite (fun _ => ?_) fun _ => ?_
      · rw [Method.wp_bind]
        refine wp_stopUncertain h.ready.1 (fun _ _ _ => ?_) fun _ => h.ready
        exact wp_finish h.ready
      · rw [Method.wp_bind]
        refine Method.wp_await.2 ?_
        rintro d₁ rfl r d₂ rfl
        have hready : Ready s { d with executions := d.executions ++ [run.id] } := h.ready
        refine ⟨⟨h.ready.1, Or.inl rfl, fun _ => Or.inl, Or.inr ⟨run.id, rfl, ?_⟩⟩, ?_⟩
        · rw [hrun]
          exact ⟨h.running, h.fresh⟩
        cases r with
        | error e => exact hready
        | ok next =>
          show Method.wp _ _ _ _ _
          rw [Method.wp_bind]
          refine Method.wp_mono (wp_checkpoint hready) fun r s' d' hafter => ?_
          cases r with
          | error e => exact hafter
          | ok _ => exact ih (hafter.2.2 h.fresh) hafter.2.1

theorem wp_executeJob (hF : Function.Injective F.mandate) {n : ℕ} {job : RunnerJob}
    (h : Ready s d) : (executeJob P F n job).wp obligation.spec (fun _ => Ready) s d := by
  unfold executeJob
  rw [Method.wp_bind]
  refine wp_existing (fun known _ _ _ => ?_) fun _ => h
  show Method.wp _ _ _ _ _
  refine Method.wp_ite (fun _ => Method.wp_pure.2 h) fun _ => ?_
  rw [Method.wp_bind]
  refine wp_quiet h.1 (fun _ _ hwork => hwork) fun r => ?_
  cases r with
  | error e => exact h
  | ok _ =>
    show Method.wp _ _ _ _ _
    rw [Method.wp_bind]
    refine wp_quiet h.1 (fun _ _ hwork => hwork) fun r => ?_
    cases r with
    | error e => exact h
    | ok run =>
      show Method.wp _ _ _ _ _
      rw [Method.wp_bind]
      refine Method.wp_mono (wp_start hF h) fun r s' d' hafter => ?_
      cases r with
      | error e => exact hafter
      | ok _ => exact wp_advanceAll hafter.2.2 hafter.2.1

/-- Every call keeps what holds between two calls. -/
theorem wp_call (hF : Function.Injective F.mandate) (call : Call) (h : Ready s d) :
    (call.method P F).wp obligation.spec (fun _ => Ready) s d := by
  cases call with
  | start job run => exact Method.wp_mono (wp_start hF h) fun _ _ _ hafter => hafter.ready
  | checkpoint id run => exact Method.wp_mono (wp_checkpoint h) fun _ _ _ hafter => hafter.ready
  | finish id run => exact wp_finish h
  | acknowledge id => exact wp_acknowledge h
  | execute n job => exact wp_executeJob hF h
  | close => exact Method.wp_pure.2 h

/-! ### A job that has an entry -/

/-- Nobody changes the file, and nothing is executed. -/
def Untouched (d d' : Directory H) : Prop := d'.file = d.file ∧ d'.executions = d.executions

/-- The directory stays as it is. -/
def refusal (d : Directory H) : Exclusive (Directory H) (Effect H) Answer JsError where
  work := work
  inv d' := Untouched d d'
  guar _ d' := Untouched d d'
  inv_of_guar _ _ _ h := h

/-- The journal does not work, or has an entry of the job. -/
def Refuses (journal : RunnerJournal H) (job : RunnerJob) : Prop :=
  journal.closed = true ∨ journal.poisoned = true ∨ job.id ∈ journal.data.ids

omit [DecidableEq H] in
theorem Refuses.find {known : Bool} {job : RunnerJob} (h : Refuses s job)
    (hopen : s.closed = false) (hhealthy : s.poisoned = false)
    (hknown : known = false → s.data.find job.id = none) : known = true := by
  rw [Refuses, hopen, hhealthy] at h
  obtain ⟨e, he, hid⟩ := mem_ids.1 ((h.resolve_left Bool.false_ne_true).resolve_left
    Bool.false_ne_true)
  by_contra hfalse
  have hnone := List.find?_eq_none.1 (hknown (Bool.not_eq_true _ ▸ hfalse)) e he
  exact hnone (decide_eq_true hid)

/-- A job that has an entry is not started again. -/
theorem wp_start_refused {job : RunnerJob} {run : Run} (h : Refuses s job) :
    (start F job run).wp (refusal d).spec (fun r s' d' => s' = s ∧ d' = d ∧ ∀ u, r ≠ .ok u) s d := by
  have hthrown : ∀ e : JsError, s = s ∧ d = d ∧ ∀ u, (.error e : Except JsError Unit) ≠ .ok u :=
    fun e => ⟨rfl, rfl, fun _ hfalse => by cases hfalse⟩
  unfold start
  rw [Method.wp_bind, Method.wp_self]
  show Method.wp _ _ _ _ _
  refine Method.wp_ite (fun _ => wp_fail hthrown) fun _ => ?_
  rw [Method.wp_bind]
  refine wp_existing (fun known hopen hhealthy hknown => ?_) hthrown
  show Method.wp _ _ _ _ _
  rw [h.find hopen hhealthy hknown]
  exact wp_fail hthrown

/-- A job that has an entry is not executed again. -/
theorem wp_executeJob_refused {n : ℕ} {job : RunnerJob} (h : Refuses s job) :
    (executeJob P F n job).wp (refusal d).spec (fun _ s' d' => s' = s ∧ d' = d) s d := by
  unfold executeJob
  rw [Method.wp_bind]
  refine wp_existing (fun known hopen hhealthy hknown => ?_) fun _ => ⟨rfl, rfl⟩
  show Method.wp _ _ _ _ _
  rw [h.find hopen hhealthy hknown]
  exact Method.wp_pure.2 ⟨rfl, rfl⟩

/-! ### Opening the journal -/

omit [DecidableEq H] in
/-- The entries that were started are stopped, and nothing is written. -/
theorem wp_recover {jobs : List (Entry H)}
    {Q : Except JsError (List (Entry H)) → RunnerJournal H → Directory H → Prop} (h : Inv d)
    (hok : ∀ jobs', List.Forall₂ (Reopened P) jobs jobs' → Q (.ok jobs') s d)
    (herror : ∀ e, Q (.error e) s d) :
    (recover P jobs).wp obligation.spec Q s d := by
  induction jobs generalizing Q with
  | nil => exact Method.wp_pure.2 (hok [] .nil)
  | cons e jobs ih =>
    unfold recover
    have hrest : ∀ e' : Entry H, Reopened P e e' →
        (recover P jobs >>= fun jobs' => pure (e' :: jobs')).wp obligation.spec Q s d := by
      intro e' he'
      rw [Method.wp_bind]
      exact ih (fun jobs' hjobs' => Method.wp_pure.2 (hok _ (.cons he' hjobs'))) herror
    refine Method.wp_ite (fun hstate => ?_) fun hstate => ?_
    · rw [Method.wp_bind]
      refine wp_stopUncertain h (fun updatedAt id timestamp => ?_) herror
      show Method.wp _ _ _ _ _
      rw [Method.wp_bind]
      refine Method.wp_pure.2 (hrest _ ⟨rfl, fun hne => absurd hstate hne, fun _ => ⟨rfl, ?_⟩⟩)
      exact ⟨updatedAt, id, timestamp, rfl⟩
    · rw [Method.wp_bind]
      exact Method.wp_pure.2 (hrest e ⟨rfl, fun _ => rfl, fun he => absurd he hstate⟩)

/-- The data that `open` works on: new data, or those of the file. -/
def Readable (agentId : JsString) (f : File H) (j : Data H) : Prop :=
  (f = .absent ∧ j = ⟨1, agentId, []⟩) ∨ f = .data j

omit [DecidableEq H] in
/-- The data of the file, or new data. -/
theorem wp_readData {X : Exclusive (Directory H) (Effect H) Answer JsError} {agentId : JsString}
    {file : File H} {Q : Except JsError (Data H) → RunnerJournal H → Directory H → Prop}
    (hok : ∀ j, Readable agentId file j → Q (.ok j) s d) (herror : ∀ e, Q (.error e) s d) :
    (readData agentId file).wp X.spec Q s d := by
  cases file with
  | absent => exact Method.wp_pure.2 (hok _ (Or.inl ⟨rfl, rfl⟩))
  | corrupt => exact wp_fail herror
  | foreign => exact wp_fail herror
  | data j => exact Method.wp_pure.2 (hok j (Or.inr rfl))

omit [DecidableEq H] in
theorem Readable.good {agentId : JsString} {j : Data H} (h : Readable agentId d.file j)
    (hinv : Inv d) : Good j := by
  rcases h with ⟨-, rfl⟩ | hfile
  · exact ⟨List.nodup_nil, fun _ he => absurd he List.not_mem_nil,
      fun _ he => absurd he List.not_mem_nil⟩
  · rcases hinv with habsent | ⟨j', hj', hgood⟩
    · rw [hfile] at habsent
      cases habsent
    · rw [hfile] at hj'
      cases hj'
      exact hgood

/-- The data that `open` accepts. -/
structure Accepted (F : Fingerprints H) (agentId : JsString) (f : File H) (j : Data H) : Prop where
  readable : Readable agentId f j
  pinned : pinned agentId j = true
  integrity : integrity F agentId j = true

/-- `open` reads the file, and goes on with the data that it accepts.  Until then it only writes
the lock file. -/
theorem wp_openJournal_accepted {X : Exclusive (Directory H) (Effect H) Answer JsError}
    {agentId : JsString} {Q : Except JsError Unit → RunnerJournal H → Directory H → Prop}
    (hX : X.work = work) (hlock : X.guar d { d with fresh := [] })
    (hread : X.guar { d with fresh := [] } { d with fresh := [] })
    (herror : ∀ e d', Untouched d d' → d'.fresh = [] → Q (.error e) s d')
    (hok : ∀ j, Accepted F agentId d.file j →
      (recover P j.jobs >>= fun jobs => save fun _ => { j with jobs := jobs }).wp X.spec Q s
        { d with fresh := [] }) :
    (openJournal P F agentId).wp X.spec Q s d := by
  have hthrown : ∀ e, Q (.error e) s { d with fresh := [] } :=
    fun e => herror e _ ⟨rfl, rfl⟩ rfl
  unfold openJournal
  rw [Method.wp_bind]
  refine Method.wp_await.2 ?_
  rintro d₁ rfl r d₂ hwork
  rw [Exclusive.spec, hX] at hwork
  obtain rfl : d₂ = { d with fresh := [] } := hwork
  refine ⟨hlock, ?_⟩
  cases r with
  | error e => exact hthrown e
  | ok _ =>
    show Method.wp _ _ _ _ _
    rw [Method.wp_bind, Method.wp_tryCatch]
    refine Method.wp_await.2 ?_
    rintro d₁ rfl r d₃ hwork
    rw [Exclusive.spec, hX] at hwork
    obtain ⟨rfl, hfile⟩ := hwork
    refine ⟨hread, ?_⟩
    cases r with
    | error e => exact wp_fail hthrown
    | ok file =>
      show Method.wp _ _ _ _ _
      rw [Method.wp_bind]
      obtain rfl := hfile file rfl
      refine wp_readData (fun j hreadable => ?_) hthrown
      refine Method.wp_ite (fun _ => wp_fail hthrown) fun hpinned => ?_
      refine Method.wp_ite (fun _ => wp_fail hthrown) fun hintegrity => ?_
      rw [Bool.not_eq_false] at hpinned hintegrity
      exact hok j ⟨hreadable, hpinned, hintegrity⟩

/-- What `open` has made of the file. -/
def Opened (P : Runs.Platform) (F : Fingerprints H) (agentId : JsString) (f : File H)
    (j' : Data H) : Prop :=
  ∃ j, Accepted F agentId f j ∧ j'.agentId = agentId ∧ Recovered P j j'

/-- After `open` has returned, what was started has failed, and the journal has what the file
has. -/
theorem wp_openJournal {agentId : JsString} (h : Inv d) :
    (openJournal P F agentId).wp obligation.spec
      (fun r s' d' => Inv d' ∧ ∀ u, r = .ok u →
        d'.file = .data s'.data ∧ Opened P F agentId d.file s'.data) s d := by
  have hthrown : ∀ (e : JsError) (s' : RunnerJournal H) (d' : Directory H), Inv d' → Inv d' ∧
      ∀ u, (.error e : Except JsError Unit) = .ok u →
        d'.file = .data s'.data ∧ Opened P F agentId d.file s'.data :=
    fun e s' d' h' => ⟨h', fun _ hfalse => by cases hfalse⟩
  have hlocked : Inv { d with fresh := [] } := h
  have hempty : ∀ id ∈ ([] : List JsString), id ∈ d.fresh ∨ id ∉ d.file.ids :=
    fun id hid => absurd hid List.not_mem_nil
  refine wp_openJournal_accepted rfl ⟨h, Or.inl rfl, hempty, Or.inl rfl⟩ (Guar.refl hlocked)
    (fun e d' hsame _ => hthrown e s d' ?_) fun j haccepted => ?_
  · rw [Inv, hsame.1]
    exact h
  · rw [Method.wp_bind]
    refine wp_recover hlocked (fun jobs hjobs => ?_) fun e => hthrown e _ _ hlocked
    obtain ⟨hprogress, hgood⟩ := good_moves (haccepted.readable.good h)
      (hjobs.imp fun _ _ hone => hone.move)
    have hagent : j.agentId = agentId := by
      have hpinned := haccepted.pinned
      rw [pinned, Bool.and_eq_true] at hpinned
      exact of_decide_eq_true hpinned.2
    refine wp_save hlocked (fun _ _ => ⟨?_, hgood⟩) (fun _ _ => ?_) fun e s' d' h' =>
      hthrown e s' d' h'.1
    · rcases haccepted.readable with ⟨habsent, rfl⟩ | hfile
      · cases hjobs
        exact Or.inr (Or.inl ⟨habsent, agentId, rfl⟩)
      · exact Or.inr (Or.inr ⟨j, _, hfile, rfl, hprogress⟩)
    · exact ⟨(ready_saved hgood s _).1, fun _ _ => ⟨rfl, j, haccepted, hagent, hjobs⟩⟩

/-- A journal that fails a check is not touched. -/
theorem wp_openJournal_refused {d₀ : Directory H} {agentId : JsString} (hsame : Untouched d₀ d)
    (hbad : ∀ j, ¬ Accepted F agentId d₀.file j) :
    (openJournal P F agentId).wp (refusal d₀).spec
      (fun r _ d' => Untouched d₀ d' ∧ ∀ u, r ≠ .ok u) s d := by
  refine wp_openJournal_accepted rfl hsame hsame (fun e d' hsame' _ => ⟨?_, fun _ hfalse => ?_⟩)
    fun j haccepted => ?_
  · exact ⟨hsame'.1.trans hsame.1, hsame'.2.trans hsame.2⟩
  · cases hfalse
  · rw [hsame.1] at haccepted
    exact absurd haccepted (hbad j)

/-! ### A journal that was closed -/

/-- The method throws at once. -/
def Throws (m : Exec H α) (s : RunnerJournal H) : Prop :=
  ∃ e s', m s = .pure (.error e, s') ∧ s'.closed = true

omit [DecidableEq H] in
theorem Throws.bind {β : Type} {m : Exec H β} {f : β → Exec H α} (h : Throws m s) :
    Throws (m >>= f) s := by
  obtain ⟨e, s', hm, hclosed⟩ := h
  refine ⟨e, s', ?_, hclosed⟩
  show (m s).bind _ = _
  rw [hm]
  rfl

omit [DecidableEq H] in
theorem throws_fail {message : String} (h : s.closed = true) :
    Throws (fail message : Exec H α) s := ⟨_, s, rfl, h⟩

omit [DecidableEq H] in
theorem throws_self {f : RunnerJournal H → Exec H α} (h : Throws (f s) s) :
    Throws (Method.self >>= f) s := h

omit [DecidableEq H] in
theorem throws_ite {c : Prop} [Decidable c] {m n : Exec H α} (hm : Throws m s)
    (hn : Throws n s) : Throws (if c then m else n) s := by
  split_ifs
  · exact hm
  · exact hn

omit [DecidableEq H] in
theorem throws_assertHealthy (h : s.closed = true) : Throws assertHealthy s := by
  unfold assertHealthy
  refine throws_self ?_
  rw [if_pos (Or.inl h)]
  exact throws_fail h

omit [DecidableEq H] in
theorem throws_save {f : Data H → Data H} (h : s.closed = true) : Throws (save f) s := by
  have hpersist : Throws persist { s with data := f s.data } := by
    have hclosed : ({ s with data := f s.data } : RunnerJournal H).closed = true := h
    unfold persist
    exact (throws_assertHealthy hclosed).bind
  exact hpersist

theorem throws_existing {job : RunnerJob} (h : s.closed = true) : Throws (existing F job) s := by
  unfold existing
  exact (throws_assertHealthy h).bind

omit [DecidableEq H] in
/-- A change of an entry. -/
theorem throws_entry {message : String} {body : Entry H → Exec H Unit} (h : s.closed = true)
    (hbody : ∀ e, Throws (body e) s) :
    Throws (match s.data.find id with | none => fail message | some e => body e) s := by
  cases s.data.find id with
  | none => exact throws_fail h
  | some e => exact hbody e

/-- After `close` every call throws. -/
theorem throws_call {call : Call} (hcall : call ≠ .close) (h : s.closed = true) :
    Throws (call.method P F) s := by
  cases call with
  | start job run => exact throws_self (throws_ite (throws_fail h) (throws_existing h).bind)
  | checkpoint id run =>
    exact throws_self (throws_entry h fun e => throws_ite (throws_fail h) (throws_save h))
  | finish id run =>
    exact throws_self (throws_entry h fun e => throws_ite (throws_fail h) (throws_save h))
  | acknowledge id =>
    exact throws_self (throws_entry h fun e => throws_ite (throws_fail h) (throws_save h))
  | execute n job => exact (throws_existing h).bind
  | close => exact absurd rfl hcall

/-! ### Processes -/

variable {ι : Type} {i : ι} {w : Locked.World ι (Directory H)}

/-- The programs of the processes. -/
def sessions (P : Runs.Platform) (F : Fingerprints H) (p : Process H Unit) : Prop :=
  ∃ agentId calls, p = session P F agentId calls

/-- What the processes are verified against. -/
abbrev lockedSpec (P : Runs.Platform) (F : Fingerprints H)
    (X : Exclusive (Directory H) (Effect H) Answer JsError) (i : ι) :
    Prog.Spec (Locked.World ι (Directory H)) (Locked (Effect H)) (Locked.Answer Answer) JsError :=
  X.protocol.spec (Locked.system X.work (sessions P F)) i

/-- `close` of the owner. -/
theorem wp_unlinkOnClose {Q : Except JsError Unit → Locked.World ι (Directory H) → Prop}
    {X : Exclusive (Directory H) (Effect H) Answer JsError}
    (h : s.closed = true ∨ w.owner = some i) (hQ : ∀ w', Q (.ok ()) w') :
    (unlinkOnClose s).wp (lockedSpec P F X i) Q w := by
  unfold unlinkOnClose
  refine Prog.wp_ite (fun _ => Prog.wp_pure.2 (hQ w)) fun hopen => ?_
  rw [not_or, Bool.not_eq_true] at hopen
  have howner : w.owner = some i := by
    rcases h with hclosed | howner
    · exact absurd (hopen.1.symm.trans hclosed) Bool.false_ne_true
    · exact howner
  rw [Prog.wp_tryCatch]
  refine Prog.wp_await.2 ?_
  rintro w₁ ⟨hsame, -⟩ r w₂ hunlink
  obtain rfl := hsame howner
  cases r with
  | error e =>
    obtain rfl := hunlink
    exact ⟨Or.inl rfl, Prog.wp_pure.2 (hQ _)⟩
  | ok u =>
    obtain rfl := hunlink
    exact ⟨Or.inr (Or.inr (Or.inl ⟨howner, rfl⟩)), hQ _⟩

/-- The calls of a process that has opened the journal. -/
theorem wp_serve (hF : Function.Injective F.mandate) {calls : List Call}
    (h : s.closed = true ∨ (w.owner = some i ∧ Ready s w.data)) :
    (serve P F calls s).wp (lockedSpec P F obligation i) (fun _ _ => True) w := by
  induction calls generalizing s w with
  | nil => exact Prog.wp_pure.2 trivial
  | cons call calls ih =>
    by_cases hcall : call = .close
    · subst hcall
      unfold serve
      rw [Prog.wp_bind]
      exact wp_unlinkOnClose (h.imp_right And.left) fun w' => ih (Or.inl rfl)
    · have hserve : serve P F (call :: calls) s =
          (Locked.lift (call.method P F s) >>= fun answer => serve P F calls answer.2) := by
        cases call with
        | close => exact absurd rfl hcall
        | _ => rfl
      rw [hserve]
      rcases h with hclosed | ⟨howner, hready⟩
      · obtain ⟨e, s', hthrows, hclosed'⟩ := throws_call (P := P) (F := F) hcall hclosed
        rw [hthrows]
        exact ih (Or.inl hclosed')
      · rw [Prog.wp_bind]
        refine Prog.wp_mono (@Exclusive.wp_lift _ _ _ _ _ _ _ _ _ (fun _ => False) _ _
          (wp_call hF call hready) howner) fun r w' h' => ?_
        cases r with
        | error e => trivial
        | ok answer => exact ih (Or.inr h')

/-- The lock file is removed after `open` has failed. -/
theorem wp_release {X : Exclusive (Directory H) (Effect H) Answer JsError} {e : JsError}
    (howner : w.owner = some i) :
    (do
      tryCatch (Locked.perform .close) fun _ => pure ()
      tryCatch (Locked.perform .unlink) fun _ => pure ()
      throw e : Process H Unit).wp (lockedSpec P F X i) (fun _ _ => True) w := by
  rw [Prog.wp_bind, Prog.wp_tryCatch]
  refine Prog.wp_await.2 ?_
  rintro w₁ ⟨hsame, -⟩ r w₂ rfl
  obtain rfl := hsame howner
  refine ⟨Or.inl rfl, ?_⟩
  have hthrow : ∀ {w : Locked.World ι (Directory H)}, Prog.bindPost (lockedSpec P F X i)
      (fun _ : Unit => (throw e : Process H Unit)) (fun _ _ => True) (.ok ()) w :=
    Prog.wp_throw.2 trivial
  have hrest : ((do
      tryCatch (Locked.perform .unlink) fun _ => pure ()
      throw e : Process H Unit)).wp (lockedSpec P F X i) (fun _ _ => True) w₂ := by
    rw [Prog.wp_bind, Prog.wp_tryCatch]
    refine Prog.wp_await.2 ?_
    rintro w₃ ⟨hsame, -⟩ r w₄ hunlink
    obtain rfl := hsame howner
    cases r with
    | error e =>
      obtain rfl := hunlink
      exact ⟨Or.inl rfl, Prog.wp_pure.2 hthrow⟩
    | ok u =>
      obtain rfl := hunlink
      exact ⟨Or.inr (Or.inr (Or.inl ⟨howner, rfl⟩)), hthrow⟩
  cases r with
  | error e => exact Prog.wp_pure.2 hrest
  | ok u => exact hrest

/-- A process that takes the lock file, and then opens the journal. -/
theorem wp_session {X : Exclusive (Directory H) (Effect H) Answer JsError} {agentId : JsString}
    {calls : List Call} {Q : Except JsError Unit → RunnerJournal H → Directory H → Prop}
    (howner : w.owner ≠ some i)
    (hopen : ∀ d, X.inv d →
      (openJournal P F agentId).wp X.spec Q ⟨false, false, ⟨1, agentId, []⟩⟩ d)
    (hserve : ∀ s w, w.owner = some i → Q (.ok ()) s w.data →
      (serve P F calls s).wp (lockedSpec P F X i) (fun _ _ => True) w) :
    (session P F agentId calls).wp (lockedSpec P F X i) (fun _ _ => True) w := by
  unfold session
  rw [Prog.wp_bind]
  refine Prog.wp_await.2 ?_
  rintro w₁ ⟨-, hother⟩ r w₂ rfl
  refine ⟨Or.inl rfl, ?_⟩
  cases r with
  | error e => trivial
  | ok u =>
    show Prog.wp _ _ _ _
    rw [Prog.wp_bind, Prog.wp_tryCatch]
    refine Prog.wp_await.2 ?_
    rintro w₃ ⟨-, hother'⟩ r w₄ hacquire
    obtain ⟨hinv, -⟩ := hother' (hother howner).2
    cases r with
    | error e =>
      obtain rfl := hacquire
      exact ⟨Or.inl rfl, Prog.wp_throw.2 trivial⟩
    | ok u =>
      obtain ⟨hfree, rfl⟩ := hacquire
      refine ⟨Or.inr (Or.inl ⟨hfree, rfl⟩), ?_⟩
      show Prog.wp _ _ _ _
      rw [Prog.wp_bind]
      refine Prog.wp_mono (@Exclusive.wp_lift _ _ _ _ _ _ _ _ _ (fun _ => False) _ _
        (hopen _ hinv) rfl) fun r w' h' => ?_
      obtain ⟨howner', hQ⟩ := h'
      cases r with
      | error e => trivial
      | ok journal =>
        obtain ⟨answer, journal⟩ := journal
        cases answer with
        | error e => exact wp_release howner'
        | ok u => exact hserve journal w' howner' hQ

/-! ### Runs -/

/-- The processes of a directory.  A lock file is removed by hand only when its process is dead. -/
def journals (ι : Type) (P : Runs.Platform) (F : Fingerprints H) :
    System ι (Locked.World ι (Directory H)) (Locked (Effect H)) (Locked.Answer Answer) JsError
      Unit :=
  Locked.system work (sessions P F)

/-- The processes are verified. -/
theorem sound (hF : Function.Injective F.mandate) :
    (obligation.protocol (ι := ι)).Sound (journals ι P F) :=
  Exclusive.sound fun i w p howner hp => by
    obtain ⟨agentId, calls, rfl⟩ := hp
    have hopen : ∀ d, Inv d → (openJournal P F agentId).wp obligation.spec
        (fun r s d => Inv d ∧ ∀ u, r = .ok u → d.file = .data s.data)
        ⟨false, false, ⟨1, agentId, []⟩⟩ d := fun d hd =>
      Method.wp_mono (wp_openJournal hd) fun r s d h => ⟨h.1, fun u hu => (h.2 u hu).1⟩
    refine wp_session howner hopen fun s w howner' hQ => ?_
    exact wp_serve hF (Or.inr ⟨howner', hQ.1, fun _ _ => hQ.2 () rfl⟩)

/-- Processes that cannot open the journal. -/
theorem sound_refused {d₀ : Directory H} (hbad : ∀ agentId j, ¬ Accepted F agentId d₀.file j) :
    ((refusal d₀).protocol (ι := ι)).Sound (journals ι P F) :=
  Exclusive.sound fun i w p howner hp => by
    obtain ⟨agentId, calls, rfl⟩ := hp
    refine wp_session howner (fun d hd => wp_openJournal_refused hd (hbad agentId))
      fun s w _ hQ => absurd rfl (hQ.2 ())

/-- The job has an entry that is finished or acknowledged, with this run. -/
def Done (id : JsString) (run : Run) (f : File H) : Prop :=
  ∃ j e, f = .data j ∧ e ∈ j.jobs ∧ e.job.id = id ∧ e.state ≠ .started ∧ e.run = run

/-- The job was in the file when the lock file was last written. -/
def Settled (id : JsString) (d : Directory H) : Prop := id ∈ d.file.ids ∧ id ∉ d.fresh

omit [DecidableEq H] in
/-- No identifier is lost. -/
theorem FileMove.ids {f f' : File H} (h : FileMove f f') (hid : id ∈ f.ids) : id ∈ f'.ids := by
  rcases h with rfl | ⟨rfl, -⟩ | ⟨j, j', rfl, rfl, hprogress⟩
  · exact hid
  · exact absurd hid List.not_mem_nil
  · obtain ⟨e, he, rfl⟩ := mem_ids.1 hid
    obtain ⟨e', he', hjob, -⟩ := hprogress.kept e he
    exact mem_ids.2 ⟨e', he', by rw [hjob]⟩

omit [DecidableEq H] in
/-- A job that was in the file when the lock file was last written is not executed. -/
theorem Guar.settled {d d' : Directory H} (h : Guar d d') (hsettled : Settled id d) :
    Settled id d' ∧ d'.executions.count id = d.executions.count id := by
  obtain ⟨hid, hold⟩ := hsettled
  refine ⟨⟨h.file.ids hid, fun hfresh => ?_⟩, ?_⟩
  · rcases h.fresh id hfresh with hfresh | hnew
    · exact hold hfresh
    · exact hnew hid
  · rcases h.executions with hsame | ⟨other, hother, -, hfresh⟩
    · rw [hsame]
    · have hne : other ≠ id := fun heq => hold (heq ▸ hfresh)
      rw [hother, List.count_append, List.count_singleton, beq_false_of_ne hne]
      rfl

omit [DecidableEq H] in
/-- A job that is done stays so, and is not executed. -/
theorem Guar.done {d d' : Directory H} {run : Run} (hinv : Inv d) (h : Guar d d')
    (hdone : Done id run d.file) :
    Done id run d'.file ∧ d'.executions.count id = d.executions.count id := by
  obtain ⟨j, e, hj, he, hid, hstate, hrun⟩ := hdone
  constructor
  · rcases h.file with hsame | ⟨habsent, -⟩ | ⟨j₀, j', hj₀, hj', hprogress⟩
    · rw [hsame]
      exact ⟨j, e, hj, he, hid, hstate, hrun⟩
    · rw [habsent] at hj
      cases hj
    · rw [hj] at hj₀
      cases hj₀
      obtain ⟨e', he', hjob, hmove⟩ := hprogress.kept e he
      refine ⟨j', e', hj', he', by rw [hjob, hid], ?_⟩
      rcases hmove with rfl | ⟨hstarted, -⟩ | ⟨-, hstate', hrun'⟩
      · exact ⟨hstate, hrun⟩
      · exact absurd hstarted hstate
      · refine ⟨?_, hrun'.trans hrun⟩
        rw [hstate']
        decide
  · rcases h.executions with hsame | ⟨other, hother, ⟨j₀, e₀, hj₀, he₀, hid₀, hstate₀⟩, -⟩
    · rw [hsame]
    · have hne : other ≠ id := by
        intro heq
        rw [hj] at hj₀
        cases hj₀
        rcases hinv with habsent | ⟨j₁, hj₁, hgood⟩
        · rw [habsent] at hj
          cases hj
        · rw [hj] at hj₁
          cases hj₁
          have hentry := hgood.unique he₀ he (by rw [hid₀, hid, heq])
          rw [hentry] at hstate₀
          exact hstate hstate₀
      rw [hother, List.count_append, List.count_singleton, beq_false_of_ne hne]
      rfl

/-- **At most once.**  In every run on one directory, whatever the crashes:
the entries have different jobs and keep the limits of their mandates; a job comes into the file in
at most one step; an entry is new, and then started, or it changes from started to finished to
acknowledged, and only a job whose entry is started is executed; what is done is never executed
again; and neither is anything that was in the file when a process wrote its lock file.

What was started when `open` read it has failed when `open` returns.  A job that has an entry is
neither started nor executed; and a journal that fails its checks is left alone. -/
theorem journal_runs [DecidableEq ι] (hF : Function.Injective F.mandate) {τ : List (Tr _ _)}
    {s : System.State ι (Locked.World ι (Directory H)) (Locked (Effect H)) (Locked.Answer Answer)
      JsError Unit}
    (h : (journals ι P F).lts.Run (Locked.idle Directory.empty) τ s) :
    (∀ j, s.world.data.file = .data j → Good j) ∧
    (∀ id, τ.countP (fun e => id ∉ e.pre.world.data.file.ids ∧ id ∈ e.post.world.data.file.ids) ≤ 1) ∧
    (∀ a t, (journals ι P F).lts.step s a t →
      FileMove s.world.data.file t.world.data.file ∧
      (t.world.data.executions = s.world.data.executions ∨
        ∃ id, t.world.data.executions = s.world.data.executions ++ [id] ∧
          Running id s.world.data.file)) ∧
    (∀ σ t, (journals ι P F).lts.Run s σ t → ∀ id run, Done id run s.world.data.file →
      Done id run t.world.data.file ∧
        t.world.data.executions.count id = s.world.data.executions.count id) ∧
    (∀ i r t, (journals ι P F).lts.step s (.effect i (.work .writeLock) r) t →
      ∀ σ u, (journals ι P F).lts.Run t σ u → ∀ id ∈ s.world.data.file.ids,
        u.world.data.executions.count id = s.world.data.executions.count id) ∧
    (∀ agentId, (openJournal P F agentId).wp obligation.spec
      (fun r journal d => ∀ u, r = .ok u → d.file = .data journal.data ∧
        Opened P F agentId s.world.data.file journal.data)
      ⟨false, false, ⟨1, agentId, []⟩⟩ s.world.data) ∧
    (∀ d journal job, Refuses journal job →
      (∀ run, (start F job run).wp (refusal d).spec
        (fun r journal' d' => journal' = journal ∧ d' = d ∧ ∀ u, r ≠ .ok u) journal d) ∧
      ∀ n, (executeJob P F n job).wp (refusal d).spec
        (fun _ journal' d' => journal' = journal ∧ d' = d) journal d) ∧
    (∀ agentId d journal, (∀ j, ¬ Accepted F agentId d.file j) →
      (openJournal P F agentId).wp (refusal d).spec
        (fun r _ d' => Untouched d d' ∧ ∀ u, r ≠ .ok u) journal d) ∧
    ∀ d, (∀ agentId j, ¬ Accepted F agentId d.file j) → ∀ σ u,
      (journals ι P F).lts.Run (Locked.idle d) σ u → Untouched d u.world.data := by
  have hempty : Inv (Directory.empty : Directory H) := Or.inl rfl
  have hsound := sound (P := P) (F := F) (ι := ι) hF
  have hholds := hsound.run (d := ⟨none, Directory.empty⟩) hempty h
  have hinv : Inv s.world.data := hholds.1
  have hmove : ∀ {s a t}, obligation.protocol.Holds (journals ι P F) s →
      (journals ι P F).lts.step s a t → FileMove s.world.data.file t.world.data.file := by
    intro s a t hs hstep
    rcases Exclusive.step_data hsound hs hstep with hsame | hguar
    · rw [hsame]
      exact Or.inl rfl
    · exact hguar.file
  refine ⟨fun j hj => ?_, fun id => ?_, fun a t hstep => ⟨hmove hholds hstep, ?_⟩,
    fun σ t hrun id run => ?_, fun i r t hstep σ u hrun id hid => ?_, fun agentId => ?_,
    fun d journal job hrefuses => ?_, fun agentId d journal hbad => ?_, fun d hbad σ u hrun => ?_⟩
  · rcases hinv with habsent | ⟨j', hj', hgood⟩
    · rw [habsent] at hj
      cases hj
    · rw [hj'] at hj
      cases hj
      exact hgood
  -- No step takes an identifier out of the file.
  · refine (h.countP_change (P := fun s => id ∈ s.world.data.file.ids)
      (Protocol.Sound.holds_idle _ hempty) (fun _ _ _ hs hstep => hsound.step hs hstep)
      fun _ _ _ hs hstep hid => (hmove hs hstep).ids hid).trans ?_
    split_ifs <;> decide
  · rcases Exclusive.step_data hsound hholds hstep with hsame | hguar
    · exact Or.inl (by rw [hsame])
    · exact hguar.executions.imp_right fun ⟨id, happend, hrunning, _⟩ => ⟨id, happend, hrunning⟩
  · refine Exclusive.rel hsound (T := fun d d' => Done id run d.file →
      Done id run d'.file ∧ d'.executions.count id = d.executions.count id) hempty h hrun ?_ ?_ ?_
    · exact fun d hdone => ⟨hdone, rfl⟩
    · intro d₁ d₂ d₃ h₁₂ h₂₃ hdone
      obtain ⟨hdone₂, hcount₂⟩ := h₁₂ hdone
      obtain ⟨hdone₃, hcount₃⟩ := h₂₃ hdone₂
      exact ⟨hdone₃, hcount₃.trans hcount₂⟩
    · exact fun d d' hd hguar hdone => hguar.done hd hdone
  -- The lock file is written: from then on the entries that are there are settled.
  · have hwritten : t.world.data = { s.world.data with fresh := [] } := by
      cases hstep with
      | effect running sem =>
        obtain ⟨d, hwork, rfl⟩ := sem
        exact hwork
    have hsettled : Settled id t.world.data := by
      rw [hwritten]
      exact ⟨hid, List.not_mem_nil⟩
    have hcount := (Exclusive.rel hsound (T := fun d d' => Settled id d →
      Settled id d' ∧ d'.executions.count id = d.executions.count id) hempty (h.snoc hstep) hrun
      (fun d hd => ⟨hd, rfl⟩) (fun d₁ d₂ d₃ h₁₂ h₂₃ hd => by
        obtain ⟨hd₂, hcount₂⟩ := h₁₂ hd
        obtain ⟨hd₃, hcount₃⟩ := h₂₃ hd₂
        exact ⟨hd₃, hcount₃.trans hcount₂⟩) fun d d' _ hguar hd => hguar.settled hd) hsettled
    rw [hcount.2, hwritten]
  · exact Method.wp_mono (wp_openJournal hinv) fun r journal d hafter => hafter.2
  -- What is refused, by a journal with an entry and by one that fails its checks.
  · exact ⟨fun run => wp_start_refused hrefuses, fun n => wp_executeJob_refused hrefuses⟩
  · exact wp_openJournal_refused ⟨rfl, rfl⟩ hbad
  · exact Exclusive.run (sound_refused hbad) ⟨rfl, rfl⟩ hrun

namespace Sample

/-- The agent of the runner. -/
def agentId : JsString := js "agent"

/-- A job under a mandate for one run. -/
def job : RunnerJob := ⟨js "job", agentId, [js "octocat/hello"], ⟨js "mandate", 1, []⟩⟩

/-- A new run. -/
def run : Run :=
  let input : Runs.RunInput := ⟨[js "octocat/hello"], none, none, none, none, none, none⟩
  input.run (js "job") [] (input.mandate [])

/-- Fingerprints that are what they are taken of. -/
def fingerprints : Fingerprints (RunnerJob ⊕ SignedMandate) := ⟨.inl, .inr⟩

/-- What the effects are answered. -/
def respond (d : Directory (RunnerJob ⊕ SignedMandate)) :
    (o : Effect (RunnerJob ⊕ SignedMandate)) → Except JsError (Answer o) ×
      Directory (RunnerJob ⊕ SignedMandate)
  | .writeLock => (.ok (), { d with fresh := [] })
  | .readJournal => (.ok d.file, d)
  | .rename data => (.ok (), d.put data)
  | .randomUUID => (.ok (js "id"), d)
  | .now => (.ok 0, d)
  | .createRun _ => (.ok run, d)
  | .aborted => (.ok false, d)
  | .advanceRun run => (.ok run, { d with executions := d.executions ++ [run.id] })
  | .writeTemp => (.ok (), d)
  | .syncDirectory => (.ok (), d)
  | .validateJob _ => (.ok (), d)

theorem respond_work (d : Directory (RunnerJob ⊕ SignedMandate))
    (o : Effect (RunnerJob ⊕ SignedMandate)) : work d o (respond d o).1 (respond d o).2 := by
  cases o with
  | readJournal => exact ⟨rfl, fun file hfile => (Except.ok.inj hfile).symm⟩
  | rename data => exact Or.inr rfl
  | _ => rfl

/-- A process that executes one stage of the job. -/
def process : Process (RunnerJob ⊕ SignedMandate) Unit :=
  session Runs.Platform.plain fingerprints agentId [.execute 1 job, .close]

/-- The world after so many processes. -/
def world : ℕ → Locked.World Unit (Directory (RunnerJob ⊕ SignedMandate))
  | 0 => ⟨none, Directory.empty⟩
  | n + 1 => (process.exec (Locked.answer respond .other ()) (world n)).2

theorem run_world : ∃ τ, (journals Unit Runs.Platform.plain fingerprints).lts.Run
    (Locked.idle Directory.empty) τ (System.State.idle (world 2)) := by
  have hnext : ∀ n, (world n).owner ≠ some () → ∃ τ,
      (journals Unit Runs.Platform.plain fingerprints).lts.Run
        (System.State.idle (world n)) τ (System.State.idle (world (n + 1))) := fun n hfree =>
    System.run_exec (S := journals Unit Runs.Platform.plain fingerprints)
      (s := System.State.idle (world n)) (i := ()) (Locked.answer_sem respond_work) rfl
      ⟨hfree, agentId, _, rfl⟩
  obtain ⟨τ, hfirst⟩ := hnext 0 (by decide +kernel)
  obtain ⟨σ, hsecond⟩ := hnext 1 (by decide +kernel)
  exact ⟨τ ++ σ, hfirst.append hsecond⟩

/-- The states of the entries. -/
def states (f : File (RunnerJob ⊕ SignedMandate)) : List (JsString × EntryState) :=
  match f with
  | .data j => j.jobs.map fun e => (e.job.id, e.state)
  | _ => []

theorem world_states :
    states (world 1).data.file = [(js "job", .started)] ∧
    states (world 2).data.file = [(js "job", .finished)] ∧
    (world 2).data.executions = [js "job"] := by decide +kernel

theorem done_of_states {f : File (RunnerJob ⊕ SignedMandate)} {id : JsString}
    (h : states f = [(id, .finished)]) : ∃ run, Done id run f := by
  cases f with
  | data j =>
    obtain ⟨e, he, hentry⟩ := List.map_eq_singleton_iff.1 h
    obtain ⟨hid, hstate⟩ := Prod.mk.inj hentry
    refine ⟨e.run, j, e, rfl, by rw [he]; exact List.mem_singleton_self _, hid, ?_, rfl⟩
    rw [hstate]
    decide
  | _ => cases h

end Sample

/-- A job that was interrupted after its first stage has failed, is never executed again, and has
come into the file in one step. -/
theorem journal_runs_sample :
    Sample.states (Sample.world 1).data.file = [(js "job", .started)] ∧
    Sample.states (Sample.world 2).data.file = [(js "job", .finished)] ∧
    ∃ τ, (journals Unit Runs.Platform.plain Sample.fingerprints).lts.Run
        (Locked.idle Directory.empty) τ (System.State.idle (Sample.world 2)) ∧
      τ.countP (fun e => js "job" ∉ e.pre.world.data.file.ids ∧
        js "job" ∈ e.post.world.data.file.ids) ≤ 1 ∧
      ∀ σ t, (journals Unit Runs.Platform.plain Sample.fingerprints).lts.Run
          (System.State.idle (Sample.world 2)) σ t →
        t.world.data.executions.count (js "job") = 1 := by
  obtain ⟨τ, hrun⟩ := Sample.run_world
  obtain ⟨hstarted, hfinished, hexecutions⟩ := Sample.world_states
  have hinj : Function.Injective Sample.fingerprints.mandate := Sum.inr_injective
  obtain ⟨-, honce, -, hdone, -⟩ := journal_runs hinj hrun
  obtain ⟨run, hrun₂⟩ := Sample.done_of_states hfinished
  refine ⟨hstarted, hfinished, τ, hrun, honce _, fun σ t hrun' => ?_⟩
  rw [(hdone σ t hrun' _ run hrun₂).2]
  show (Sample.world 2).data.executions.count (js "job") = 1
  rw [hexecutions]
  decide

end Runner

end Obolos
