import Obolos.Runs.TableChain

/-!
# Rejected actions

An action that throws has changed nothing and called nobody (`RunAction.rejected`): `advanceRun`
turns every exception of a stage into the status `failed`, and the other actions throw before they
change the run.

`RunStore.mutate_rejected` : in the file the run then stays as it is, without an operation in
flight.  `NeonDemoStore.mutate_rejected` : in the table the intent stays, on purpose, with a run
that is `failed`; `NeonDemoStore.mutate_claimed` : every later action on it is refused.

Both are about any deterministic environment: what answers the effects may depend on everything
that happened before.
-/

namespace Obolos

namespace Runs

open Json Method

/-! ### The engine -/

/-- The engine alone, whatever its effects answer. -/
def free : Prog.Spec World Effect Answer JsError := ⟨Eq, work, fun _ _ => True⟩

/-- An action that throws has changed neither the run nor the world. -/
def Rejected (run : Run) (d : World) {α : Type} (r : Except JsError α) (run' : Run) (d' : World) :
    Prop := ∀ e, r = .error e → run' = run ∧ d' = d

/-- A part of an action that only looks at the run and at the clock. -/
abbrev Looks (run : Run) (d : World) {α : Type} (m : Engine α) : Prop :=
  Keeps free (fun run' d' => run' = run ∧ d' = d) m

variable {C : Context} {run : Run} {d : World} {α β : Type}

theorem Looks.seq {m : Engine α} {f : α → Engine β} (hm : Looks run d m)
    (hf : ∀ a, (f a).wp free (Rejected run d) run d) : (m >>= f).wp free (Rejected run d) run d := by
  rw [wp_bind]
  refine wp_mono (hm run d ⟨rfl, rfl⟩) fun r run' d' h => ?_
  obtain ⟨rfl, rfl⟩ := h
  cases r with
  | ok a => exact hf a
  | error e => exact fun _ _ => ⟨rfl, rfl⟩

theorem Looks.now : Looks run d (await .now) := by
  intro run' d' h
  rw [wp_await]
  rintro d₁ rfl r d₂ ⟨-, rfl⟩
  exact ⟨trivial, h⟩

theorem Looks.refuse {bad : Prop} [Decidable bad] {message : String} :
    Looks run d (refuse bad message) := Keeps.onlyIf (Keeps.throw _)

theorem Looks.requireLiveRun : Looks run d requireLiveRun :=
  Keeps.bind Keeps.self fun _ => Looks.refuse

theorem Looks.isPast {text : JsString} : Looks run d (isPast C text) := by
  unfold Runs.isPast
  split
  · exact Keeps.pure _
  · exact Keeps.bind Looks.now fun _ => Keeps.pure _

theorem Looks.checkSignature {a : ApprovalRequest} {signature : Option JsString} :
    Looks run d (checkSignature C a signature) := by
  refine Keeps.bind Looks.refuse fun _ => ?_
  split
  · exact Keeps.throw _
  · exact Keeps.bind (Keeps.ofExcept _) fun _ => Looks.refuse

theorem stable_free : Stable free fun _ => True := ⟨fun _ _ _ _ => ⟨trivial, trivial⟩⟩

/-- Logging does not throw. -/
theorem rejected_log {actor : Actor} {kind : Kind} {title detail : JsString} {run' : Run}
    {d' : World} : (log C actor kind title detail).wp free (Rejected run d) run' d' := by
  refine wp_mono (stable_free.wp_log rfl trivial) fun r run'' d'' h e he => ?_
  rw [h.1] at he
  cases he

/-- A change of the run that is logged does not throw. -/
theorem rejected_modify {f : Run → Run} {actor : Actor} {kind : Kind} {title detail : JsString}
    {run' : Run} {d' : World} :
    ((modify f : Engine Unit) >>= fun _ => log C actor kind title detail).wp free
      (Rejected run d) run' d' := by
  rw [wp_bind, wp_modify]
  exact rejected_log

theorem rejected_advanceRun : (advanceRun C).wp free (Rejected run d) run d := by
  refine Looks.requireLiveRun.seq fun _ => Looks.seq Keeps.self fun _ => ?_
  refine wp_ite (fun _ => wp_pure.2 fun _ he => by cases he) fun _ => ?_
  rw [wp_bind, wp_modify]
  simp only
  rw [wp_tryCatch]
  have hJ : LogInvariant C free fun _ _ => True := ⟨fun _ _ _ _ _ _ h => h, fun _ _ _ _ =>
    ⟨trivial, trivial⟩⟩
  refine wp_mono (hJ.advanceStage _ d trivial) fun r run' d' _ => ?_
  cases r with
  | ok a => exact fun _ he => by cases he
  | error e => exact rejected_modify

theorem rejected_applyShock {liveQuotes : Option (List Provider)} :
    (applyShock C liveQuotes).wp free (Rejected run d) run d := by
  refine Looks.requireLiveRun.seq fun _ => Looks.seq Keeps.self fun _ => ?_
  exact Looks.refuse.seq fun _ => Looks.refuse.seq fun _ => rejected_modify

theorem rejected_pauseRun : (pauseRun C).wp free (Rejected run d) run d := by
  refine Looks.requireLiveRun.seq fun _ => Looks.seq Keeps.self fun _ => ?_
  exact Looks.refuse.seq fun _ => rejected_modify

theorem rejected_approveRun {signature : Option JsString} :
    (approveRun C signature).wp free (Rejected run d) run d := by
  refine Looks.requireLiveRun.seq fun _ => Looks.seq Keeps.self fun run' => ?_
  split
  · exact wp_throw.2 fun _ _ => ⟨rfl, rfl⟩
  · refine Looks.refuse.seq fun _ => Looks.isPast.seq fun _ => Looks.refuse.seq fun _ => ?_
    refine Looks.refuse.seq fun _ => Looks.seq (Keeps.onlyIf Looks.checkSignature) fun _ => ?_
    exact Looks.now.seq fun _ => rejected_modify

/-- **An action that throws has changed nothing and called nobody.** -/
theorem RunAction.rejected (action : RunAction) :
    (action.run C).wp free (Rejected run d) run d := by
  cases action with
  | advance => exact rejected_advanceRun
  | approve signature => exact rejected_approveRun
  | pause => exact rejected_pauseRun
  | shock liveQuotes => exact rejected_applyShock

/-! ### Environments -/

/-- An environment that answers the effects as the world can, and whose storage works. -/
structure Environment (E : Type) where
  view : E → World
  respond : E → (o : Effect) → Except JsError (Answer o) × E
  legal : ∀ e o, work (view e) o (respond e o).1 (view (respond e o).2)
  reads : ∀ e, ∃ records, (respond e .readRuns).1 = .ok records
  writes : ∀ e records, (respond e (.writeRuns records)).1 = .ok ()
  claims : ∀ e owner id marker, ∃ r, (respond e (.claimRow owner id marker)).1 = .ok r
  selects : ∀ e owner id, ∃ r, (respond e (.selectRow owner id)).1 = .ok r
  saves : ∀ e owner id marker run, (respond e (.saveFailed owner id marker run)).1 = .ok ()

/-- An environment in which nothing fails. -/
def Gateway.environment (g : Gateway) : Environment World where
  view := id
  respond := g.respond
  legal := g.respond_work
  reads d := ⟨d.records, rfl⟩
  writes _ _ := rfl
  claims _ _ _ _ := ⟨_, rfl⟩
  selects _ _ _ := ⟨_, rfl⟩
  saves _ _ _ _ _ := rfl

namespace Environment

variable {E : Type} (V : Environment E)

theorem now (e : E) : ∃ time e', V.respond e .now = (.ok time, e') ∧ V.view e' = V.view e := by
  obtain ⟨⟨time, htime⟩, hview⟩ := V.legal e .now
  exact ⟨time, _, Prod.ext htime rfl, hview⟩

theorem randomUUID (e : E) : ∃ id e', V.respond e .randomUUID = (.ok id, e') ∧
    id ∉ (V.view e).uuids ∧ V.view e' = { V.view e with uuids := id :: (V.view e).uuids } := by
  obtain ⟨id, hid, hfresh, hview⟩ := V.legal e .randomUUID
  exact ⟨id, _, Prod.ext hid rfl, hfresh, hview⟩

theorem readRuns (e : E) : ∃ e', V.respond e .readRuns = (.ok (V.view e).records, e') ∧
    V.view e' = V.view e := by
  obtain ⟨records, hrecords⟩ := V.reads e
  obtain ⟨hr, hview⟩ := V.legal e .readRuns
  rw [hr records hrecords] at hrecords
  exact ⟨_, Prod.ext hrecords rfl, hview⟩

theorem writeRuns (e : E) (records : List StoredRun) :
    ∃ e', V.respond e (.writeRuns records) = (.ok (), e') ∧
      V.view e' = { V.view e with records := records } := by
  have hok := V.writes e records
  rcases V.legal e (.writeRuns records) with h | ⟨⟨x, hx⟩, -⟩
  · exact ⟨_, Prod.ext hok rfl, h⟩
  · rw [hok] at hx
    cases hx

/-- A statement that is answered. -/
theorem execute {α : Type} {f : Statement (List Row) JsError α} {e : E} {d : World}
    {r : Except JsError α} {a : α} (h : answers (V.view e) f r d) (hr : r = .ok a) :
    ∃ rows, f (V.view e).rows = .ok (a, rows) ∧ d = { V.view e with rows := rows } := by
  obtain ⟨rows, ha, rfl⟩ := h
  subst hr
  exact ⟨rows, ha.ok, rfl⟩

theorem claimRow (e : E) (owner id marker : JsString) : ∃ r e' rows,
    V.respond e (.claimRow owner id marker) = (.ok r, e') ∧
      Runs.claimRow owner id marker (V.view e).rows = .ok (r, rows) ∧
        V.view e' = { V.view e with rows := rows } := by
  obtain ⟨r, hr⟩ := V.claims e owner id marker
  obtain ⟨rows, hrows, hview⟩ := V.execute (V.legal e (.claimRow owner id marker)) hr
  exact ⟨r, _, rows, Prod.ext hr rfl, hrows, hview⟩

theorem selectRow (e : E) (owner id : JsString) : ∃ r e',
    V.respond e (.selectRow owner id) = (.ok r, e') ∧
      Runs.selectRow owner id (V.view e).rows = .ok (r, (V.view e).rows) ∧
        V.view e' = V.view e := by
  obtain ⟨r, hr⟩ := V.selects e owner id
  obtain ⟨rows, hrows, hview⟩ := V.execute (V.legal e (.selectRow owner id)) hr
  obtain rfl : (V.view e).rows = rows := (Prod.mk.inj (Except.ok.inj hrows)).2
  exact ⟨r, _, Prod.ext hr rfl, hrows, hview⟩

theorem saveFailed (e : E) (owner id marker : JsString) (run : Run) : ∃ e' rows,
    V.respond e (.saveFailed owner id marker run) = (.ok (), e') ∧
      Runs.saveFailed owner id marker run (V.view e).rows = .ok ((), rows) ∧
        V.view e' = { V.view e with rows := rows } := by
  have hr := V.saves e owner id marker run
  obtain ⟨rows, hrows, hview⟩ := V.execute (V.legal e (.saveFailed owner id marker run)) hr
  exact ⟨_, rows, Prod.ext hr rfl, hrows, hview⟩

end Environment

/-- What an action that throws leaves of the run and the world. -/
theorem RunAction.exec_rejected {E : Type} (V : Environment E) {action : RunAction} {e e' : E}
    {run' : Run} {x : JsError}
    (h : (action.run C run).exec V.respond e = (.ok (.error x, run'), e')) :
    run' = run ∧ V.view e' = V.view e := by
  have hrejected : (action.run C).wp free (Rejected run (V.view e)) run (V.view e) :=
    action.rejected
  have hwp := Prog.wp_exec V.legal (fun _ => rfl) hrejected
  rw [h] at hwp
  exact hwp x rfl

/-- In the state `e₁` of the environment the action is run on `run`: `mutate` does then what the action
does on this run, and something after it. -/
def RunsAt {E : Type} (V : Environment E) (mutate : Engine Unit → Exec Run) (e : E) (run : Run)
    (e₁ : E) : Prop :=
  ∃ rest : Except JsError Unit × Run → Exec Run, ∀ action : Engine Unit,
    (mutate action).exec V.respond e = (action run >>= rest).exec V.respond e₁

/-! ### The file -/

namespace RunStore

variable {E : Type} (V : Environment E) {e : E} {owner id : JsString}
  {before after : List StoredRun} {record record' : StoredRun}

/-- What `recover` makes of a record: nothing new, unless an operation was interrupted. -/
def Recovered (C : Context) (record record' : StoredRun) : Prop :=
  match record.inFlight with
  | none => record' = record
  | some (stage, startedAt) => ∃ id timestamp, record' = { record with
      run := interrupt C record.run stage startedAt id timestamp
      inFlight := none }

/-- After its recovery a run has no operation in flight. -/
theorem Recovered.inFlight (h : Recovered C record record') : record'.inFlight = none := by
  unfold Recovered at h
  cases hflight : record.inFlight with
  | none =>
    rw [hflight] at h
    rw [h, hflight]
  | some p =>
    rw [hflight] at h
    obtain ⟨id, timestamp, rfl⟩ := h
    rfl

theorem exec_read : ∃ e', (read C).exec V.respond e =
    (.ok ((V.view e).records.map (StoredRun.reread C.layout)), e') ∧ V.view e' = V.view e := by
  obtain ⟨e', hread, hview⟩ := V.readRuns e
  refine ⟨e', ?_, hview⟩
  unfold read perform
  rw [Prog.exec_bind, Prog.exec_tryCatch, Prog.exec_await, hread]
  rfl

theorem exec_recover : ∃ record' e', (recover C record).exec V.respond e = (.ok record', e') ∧
    Recovered C record record' ∧ (V.view e').records = (V.view e).records ∧
      (V.view e').calls = (V.view e).calls := by
  unfold recover Recovered
  cases record.inFlight with
  | none => exact ⟨record, e, rfl, rfl, rfl, rfl⟩
  | some p =>
    obtain ⟨id, e₁, hid, -, hview₁⟩ := V.randomUUID e
    obtain ⟨time, e₂, htime, hview₂⟩ := V.now e₁
    refine ⟨_, e₂, ?_, ⟨id, C.isoString time, rfl⟩, ?_, ?_⟩
    · simp only [perform, Prog.exec_bind, Prog.exec_await, hid, htime]
      rfl
    · rw [hview₂, hview₁]
    · rw [hview₂, hview₁]

/-- What `mutate` does after the action. -/
def finish (before : List StoredRun) (record : StoredRun) (after : List StoredRun) :
    Except JsError Unit × Run → Exec Run
  | (result, run) => do
    let done := before ++ { record with run := run } :: after
    tryCatch (do
      Prog.ofExcept result
      perform (.writeRuns done)
      return run) fun error => do
        perform (.writeRuns done)
        throw error

/-- **The file.**  The action is run on the recovered run; if it throws, so does `mutate`, the run
is what it was, and no operation is in flight. -/
theorem mutate_rejected (action : RunAction)
    (hlocate : locate owner id ((V.view e).records.map (StoredRun.reread C.layout)) =
      some (before, record, after)) :
    ∃ record' e₁, Recovered C record record' ∧ RunsAt V (mutate C owner id) e record'.run e₁ ∧
      (V.view e₁).calls = (V.view e).calls ∧
      ∀ x run' e₂, (action.run C record'.run).exec V.respond e₁ = (.ok (.error x, run'), e₂) →
        (V.view e₂).calls = (V.view e).calls ∧
          ∃ e', (mutate C owner id (action.run C)).exec V.respond e = (.error x, e') ∧
            (V.view e').records = before ++ record' :: after := by
  obtain ⟨e₁, hread, hview₁⟩ := exec_read (C := C) V (e := e)
  obtain ⟨record', e₂, hrecover, hrecovered, hrecords, hcalls⟩ :
      ∃ record' e', (recover C record).exec V.respond e₁ = (.ok record', e') ∧ _ :=
    exec_recover V
  obtain ⟨time, e₃, htime, hview₃⟩ := V.now e₂
  obtain ⟨e₄, hwrite, hview₄⟩ := V.writeRuns e₃ (before ++
    { record' with inFlight := some (record'.run.stage, C.isoString time) } :: after)
  have hcalls₄ : (V.view e₄).calls = (V.view e).calls := by
    rw [hview₄, hview₃, ← hview₁, ← hcalls]
  refine ⟨record', e₄, hrecovered, ⟨finish before record' after, fun action => ?_⟩, hcalls₄,
    fun x run' e₅ haction => ?_⟩
  · unfold mutate
    simp only [Prog.exec_bind, hread, hlocate, hrecover, perform, Prog.exec_await, htime, hwrite]
    rfl
  obtain ⟨rfl, hview₅⟩ := RunAction.exec_rejected V haction
  obtain ⟨e₆, hwrite₆, hview₆⟩ := V.writeRuns e₅ (before ++ record' :: after)
  refine ⟨by rw [hview₅, hcalls₄], e₆, ?_, by rw [hview₆]⟩
  unfold mutate
  simp only [Prog.exec_bind, hread, hlocate, hrecover, perform, Prog.exec_await, htime, hwrite,
    haction, Prog.exec_tryCatch, Prog.exec_ofExcept, hwrite₆, Prog.exec_throw]

end RunStore

/-! ### The table -/

/-- The error of an operation that was interrupted. -/
def Run.stopped (run : Run) : Run :=
  { run with
    status := .failed
    error := some (js "Operation interrupted; manual reconciliation is required before any further action.") }

/-- A row of the table, which has its identifier as a primary key. -/
structure RowAt (rows before : List Row) (row : Row) (after : List Row) : Prop where
  eq : rows = before ++ row :: after
  nodup : (rows.map Row.id).Nodup

namespace RowAt

variable {rows before after : List Row} {row : Row} (h : RowAt rows before row after)

include h

theorem ne {x : Row} (hx : x ∈ before ∨ x ∈ after) : x.id ≠ row.id := by
  have hnodup := h.nodup
  rw [h.eq, List.map_append, List.map_cons, List.nodup_middle, List.nodup_cons,
    ← List.map_append] at hnodup
  exact fun hid => hnodup.1 (hid ▸ List.mem_map_of_mem (List.mem_append.2 hx))

/-- An update of the row. -/
theorem map_update {p : Row → Bool} {f : Row → Row} (hp : ∀ x, p x = true → x.id = row.id)
    (hrow : p row = true) :
    (rows.map fun x => if p x then f x else x) = before ++ f row :: after := by
  have hid : ∀ l : List Row, (∀ x ∈ l, x ∈ before ∨ x ∈ after) →
      (l.map fun x => if p x then f x else x) = l := by
    intro l hl
    refine (List.map_congr_left fun x hx => if_neg fun hpx => ?_).trans (List.map_id _)
    exact h.ne (hl x hx) (hp x hpx)
  rw [h.eq, List.map_append, List.map_cons, if_pos hrow, hid before fun _ => Or.inl,
    hid after fun _ => Or.inr]

/-- A row that is looked for. -/
theorem find {p : Row → Bool} (hp : ∀ x, p x = true → x.id = row.id) (hrow : p row = true) :
    rows.find? p = some row := by
  have hbefore : before.find? p = none :=
    List.find?_eq_none.2 fun x hx hpx => h.ne (Or.inl hx) (hp x hpx)
  rw [h.eq, List.find?_append, hbefore, Option.none_or, List.find?_cons_of_pos hrow]

/-- A row that does not match is not found. -/
theorem find_none {p : Row → Bool} (hp : ∀ x, p x = true → x.id = row.id)
    (hrow : p row = false) : rows.find? p = none := by
  refine List.find?_eq_none.2 fun x hx hpx => ?_
  rw [h.eq] at hx
  rcases List.mem_append.1 hx with hx | hx
  · exact h.ne (Or.inl hx) (hp x hpx)
  · rcases List.mem_cons.1 hx with rfl | hx
    · rw [hrow] at hpx
      cases hpx
    · exact h.ne (Or.inr hx) (hp x hpx)

/-- The row is replaced. -/
theorem replace {row' : Row} (hid : row'.id = row.id) :
    RowAt (before ++ row' :: after) before row' after := by
  refine ⟨rfl, ?_⟩
  have hnodup := h.nodup
  rw [h.eq] at hnodup
  rwa [List.map_append, List.map_cons, hid, ← List.map_cons, ← List.map_append]

end RowAt

namespace NeonDemoStore

variable {E : Type} (V : Environment E) {e : E} {before after : List Row} {row : Row}

/-- What `mutate` does after the action. -/
def finish (owner id marker : JsString) : Except JsError Unit × Run → Exec Run
  | (.error error, run) => do
    perform (.saveFailed owner id marker run.stopped)
    throw error
  | (.ok _, run) => do
    if !(← perform (.saveResult owner id marker run)) then
      raise "Operation result could not be saved; manual reconciliation is required."
    return run

/-- **The table.**  The action is run on the run of the row; if it throws, so does `mutate`, but
the row stays claimed, with a run that is `failed`. -/
theorem mutate_rejected (action : RunAction) (hrow : RowAt (V.view e).rows before row after)
    (hfree : row.inFlight = none) :
    ∃ e₁, RunsAt V (mutate row.owner row.id) e row.run e₁ ∧ (V.view e₁).calls = (V.view e).calls ∧
      ∀ x run' e₂, (action.run C row.run).exec V.respond e₁ = (.ok (.error x, run'), e₂) →
        (V.view e₂).calls = (V.view e).calls ∧
          ∃ e' marker, (mutate row.owner row.id (action.run C)).exec V.respond e = (.error x, e') ∧
            (V.view e').rows = before ++
              { row with run := row.run.stopped.reread jsonb, inFlight := some marker } :: after := by
  obtain ⟨marker, e₁, huuid, -, hview₁⟩ := V.randomUUID e
  obtain ⟨r, e₂, rows, hclaim, hrows, hview₂⟩ := V.claimRow e₁ row.owner row.id marker
  have hrow₁ : RowAt (V.view e₁).rows before row after := by
    rw [hview₁]
    exact hrow
  have hmatch : ∀ x : Row, decide (x.owner = row.owner ∧ x.id = row.id ∧ x.inFlight = none) = true →
      x.id = row.id := fun x hx => (of_decide_eq_true hx).2.1
  obtain ⟨rfl, rfl⟩ := Prod.mk.inj (Except.ok.inj hrows)
  -- The claim finds the row, and the action runs on what the row holds.
  rw [hrow₁.find hmatch (decide_eq_true ⟨rfl, rfl, hfree⟩)] at hclaim
  rw [hrow₁.map_update hmatch (decide_eq_true ⟨rfl, rfl, hfree⟩)] at hview₂
  have hcalls₂ : (V.view e₂).calls = (V.view e).calls := by rw [hview₂, hview₁]
  refine ⟨e₂, ⟨finish row.owner row.id marker, fun action => ?_⟩, hcalls₂,
    fun x run' e₃ haction => ?_⟩
  · unfold mutate
    simp only [Prog.exec_bind, perform, Prog.exec_await, huuid, hclaim, Option.map_some]
    obtain ⟨r, e₃⟩ := (action row.run).exec V.respond e₂
    cases r with
    | error x => rfl
    | ok result =>
      obtain ⟨result, run⟩ := result
      cases result <;> rfl
  -- The action calls nothing before it throws; then `mutate` marks the run as failed.
  obtain ⟨rfl, hview₃⟩ := RunAction.exec_rejected V haction
  refine ⟨by rw [hview₃, hcalls₂], ?_⟩
  obtain ⟨e₄, rows₄, hsave, hrows₄, hview₄⟩ :=
    V.saveFailed e₃ row.owner row.id marker row.run.stopped
  have hrow₃ : RowAt (V.view e₃).rows before { row with inFlight := some marker } after := by
    rw [hview₃, hview₂]
    exact hrow₁.replace rfl
  obtain ⟨-, rfl⟩ := Prod.mk.inj (Except.ok.inj hrows₄)
  rw [hrow₃.map_update (fun x hx => (of_decide_eq_true hx).1) (decide_eq_true ⟨rfl, rfl, rfl⟩)]
    at hview₄
  refine ⟨e₄, marker, ?_, by rw [hview₄]⟩
  have hsave' : V.respond e₃ (.saveFailed row.owner row.id marker { row.run with
      status := .failed
      error := some (js "Operation interrupted; manual reconciliation is required before any further action.") }) =
      (.ok (), e₄) := hsave
  unfold mutate
  simp only [Prog.exec_bind, perform, Prog.exec_await, huuid, hclaim, Option.map_some, haction,
    hsave', Prog.exec_throw]

/-- **A claimed row.**  Whatever the action, it is refused and nothing changes. -/
theorem mutate_claimed (action : RunAction) (hrow : RowAt (V.view e).rows before row after)
    (hclaimed : row.inFlight ≠ none) :
    ∃ e', (mutate row.owner row.id (action.run C)).exec V.respond e =
        (.error (.error (js "An operation is running or was interrupted. It will not be retried; reconcile before continuing.")), e') ∧
      (V.view e').rows = (V.view e).rows ∧ (V.view e').calls = (V.view e).calls := by
  obtain ⟨marker, e₁, huuid, -, hview₁⟩ := V.randomUUID e
  obtain ⟨r, e₂, rows, hclaim, hrows, hview₂⟩ := V.claimRow e₁ row.owner row.id marker
  obtain ⟨r', e₃, hselect, hread, hview₃⟩ := V.selectRow e₂ row.owner row.id
  have hrow₁ : RowAt (V.view e₁).rows before row after := by
    rw [hview₁]
    exact hrow
  have hmatch : ∀ x : Row, decide (x.owner = row.owner ∧ x.id = row.id ∧ x.inFlight = none) = true →
      x.id = row.id := fun x hx => (of_decide_eq_true hx).2.1
  have hnot : decide (row.owner = row.owner ∧ row.id = row.id ∧ row.inFlight = none) = false :=
    decide_eq_false fun h => hclaimed h.2.2
  obtain ⟨rfl, rfl⟩ := Prod.mk.inj (Except.ok.inj hrows)
  rw [hrow₁.find_none hmatch hnot] at hclaim
  have hsame : ((V.view e₁).rows.map fun x =>
      if decide (x.owner = row.owner ∧ x.id = row.id ∧ x.inFlight = none) then
        { x with inFlight := some marker } else x) = (V.view e₁).rows := by
    refine (List.map_congr_left fun x hx => if_neg ?_).trans (List.map_id _)
    exact List.find?_eq_none.1 (hrow₁.find_none hmatch hnot) x hx
  rw [hsame] at hview₂
  have hview : (V.view e₃).rows = (V.view e).rows ∧ (V.view e₃).calls = (V.view e).calls := by
    rw [hview₃, hview₂, hview₁]
    exact ⟨rfl, rfl⟩
  have hr' : r' = some row.run := by
    have hrow₂ : RowAt (V.view e₂).rows before row after := by
      rw [hview₂]
      exact hrow₁
    have hfind : ((V.view e₂).rows.find? fun x =>
        decide (x.owner = row.owner ∧ x.id = row.id)).map Row.run = r' :=
      (Prod.mk.inj (Except.ok.inj hread)).1
    rw [hrow₂.find (fun x hx => (of_decide_eq_true hx).2) (decide_eq_true ⟨rfl, rfl⟩)] at hfind
    exact hfind.symm
  subst hr'
  refine ⟨e₃, ?_, hview.1, hview.2⟩
  unfold mutate get raise
  simp only [Prog.exec_bind, perform, Prog.exec_await, huuid, hclaim, Option.map_none, hselect,
    Prog.exec_pure, Prog.exec_throw]

end NeonDemoStore

/-! ### Both stores -/

/-- A world that some run from the first start of the service leads to. -/
def Store.Leads (P : Platform) (store : Store) (d : World) : Prop :=
  ∃ τ s, (store.system P).lts.Run (System.State.idle World.empty) τ s ∧ s.world = d

/-- In a world that is reached the file hands out what was written. -/
theorem map_reread_of_leads {P : Platform} {d : World} (h : Store.file.Leads P d) :
    d.records.map (StoredRun.reread P.fileLayout) = d.records := by
  obtain ⟨τ, s, hrun, rfl⟩ := h
  have hinv := (FileChain.sound.run FileChain.inv_empty hrun).1
  refine (List.map_congr_left fun record hrecord => ?_).trans (List.map_id _)
  have hevents := (hinv record hrecord).map_reread
  simp only [StoredRun.reread, Run.reread, hevents, id]

/-- **Rejected actions.**  When an action throws, it has called nobody, and both stores throw the
same.  The file keeps the run as it was before the action, with no operation in flight.  The table
keeps the intent: the run is stored as `failed`, and every later action is refused. -/
theorem rejected_action (P : Platform) {E : Type} (V : Environment E) (e : E) (env : ProcessEnv)
    (action : RunAction) :
    (∀ owner id before record after, Store.file.Leads P (V.view e) →
      RunStore.locate owner id (V.view e).records = some (before, record, after) →
        ∃ record' e₁, RunStore.Recovered (P.withFile env) record record' ∧
          record'.inFlight = none ∧
          RunsAt V (RunStore.mutate (P.withFile env) owner id) e record'.run e₁ ∧
          (V.view e₁).calls = (V.view e).calls ∧
            ∀ x run' e₂, (action.run (P.withFile env) record'.run).exec V.respond e₁ =
                (.ok (.error x, run'), e₂) →
              (V.view e₂).calls = (V.view e).calls ∧
                ∃ e', (RunStore.mutate (P.withFile env) owner id
                    (action.run (P.withFile env))).exec V.respond e = (.error x, e') ∧
                  (V.view e').records = before ++ record' :: after) ∧
    ∀ before row after, RowAt (V.view e).rows before row after → row.inFlight = none →
      ∃ e₁, RunsAt V (NeonDemoStore.mutate row.owner row.id) e row.run e₁ ∧
        (V.view e₁).calls = (V.view e).calls ∧
        ∀ x run' e₂, (action.run (P.withTable env) row.run).exec V.respond e₁ =
            (.ok (.error x, run'), e₂) →
          (V.view e₂).calls = (V.view e).calls ∧
            ∃ e' marker row', (NeonDemoStore.mutate row.owner row.id
                (action.run (P.withTable env))).exec V.respond e = (.error x, e') ∧
              row' = { row with run := row.run.stopped.reread jsonb, inFlight := some marker } ∧
                RowAt (V.view e').rows before row' after ∧
                  ∀ (later : RunAction) (e₃ : E), RowAt (V.view e₃).rows before row' after →
                    ∃ y e₄, (NeonDemoStore.mutate row.owner row.id
                        (later.run (P.withTable env))).exec V.respond e₃ = (.error y, e₄) ∧
                      (V.view e₄).rows = (V.view e₃).rows ∧
                        (V.view e₄).calls = (V.view e₃).calls := by
  constructor
  · intro owner id before record after hleads hlocate
    rw [← map_reread_of_leads hleads] at hlocate
    obtain ⟨record', e₁, hrecovered, hruns, hcalls, hthrows⟩ :=
      RunStore.mutate_rejected (C := P.withFile env) V action hlocate
    exact ⟨record', e₁, hrecovered, hrecovered.inFlight, hruns, hcalls, hthrows⟩
  · intro before row after hrow hfree
    obtain ⟨e₁, hruns, hcalls, hthrows⟩ :=
      NeonDemoStore.mutate_rejected (C := P.withTable env) V action hrow hfree
    refine ⟨e₁, hruns, hcalls, fun x run' e₂ haction => ?_⟩
    obtain ⟨hcalls₂, e', marker, hmutate, hrows⟩ := hthrows x run' e₂ haction
    refine ⟨hcalls₂, e', marker, _, hmutate, rfl, ?_, fun later e₃ hrow₃ => ?_⟩
    · rw [hrows]
      exact hrow.replace rfl
    · obtain ⟨e₄, hrefused, hsame⟩ :=
        NeonDemoStore.mutate_claimed (C := P.withTable env) V later hrow₃ (Option.some_ne_none _)
      exact ⟨_, e₄, hrefused, hsame⟩

namespace Sample

/-- An approval that the run does not wait for is rejected. -/
theorem exec_approve {E : Type} (V : Environment E) {signature : Option JsString} (e : E)
    (h : run.approval = none) : ∃ x run' e',
      ((RunAction.approve signature).run C run).exec V.respond e = (.ok (.error x, run'), e') := by
  have hthrows : ((RunAction.approve signature).run C).wp free (fun r _ _ => ∃ x, r = .error x) run
      (V.view e) := by
    rw [RunAction.run, approveRun, wp_bind]
    refine wp_mono (Looks.requireLiveRun run _ ⟨rfl, rfl⟩) fun r run' d' ⟨hrun, _⟩ => ?_
    subst hrun
    cases r with
    | error x => exact ⟨x, rfl⟩
    | ok a =>
      simp only [wp_bind, wp_self, h]
      exact wp_throw.2 ⟨_, rfl⟩
  have hexec := Prog.wp_exec V.legal (fun _ => rfl) hthrows
  rcases hp : ((RunAction.approve signature).run C run).exec V.respond e with ⟨r, e'⟩
  rw [hp] at hexec
  cases r with
  | error x => exact False.elim hexec
  | ok result =>
    obtain ⟨x, hx⟩ := hexec
    exact ⟨x, result.2, e', by rw [← hx]⟩

/-- A run was created, and nothing else. -/
theorem worlds : ((world .file).records.map fun record =>
      (record.run.approval.isNone, record.inFlight.isNone)) = [(true, true)] ∧
    ((world .table).rows.map fun row => (row.run.approval.isNone, row.inFlight.isNone)) =
      [(true, true)] := by
  decide +kernel

theorem leads_world : Store.file.Leads .plain (world .file) := by
  obtain ⟨τ, hrun⟩ := System.run_exec (S := Store.file.system .plain) (i := ())
    (s := System.State.idle World.empty) gateway.respond_work rfl (.create env (js "owner") input)
  exact ⟨τ, _, hrun, rfl⟩

/-- A gateway whose provider is too expensive for the mandate. -/
def expensive : Gateway :=
  { gateway with
    providers := [⟨js "repo-standard", [], js "hedera:testnet", js "HBAR", 200000⟩] }

/-- An action on the run in the table. -/
def act (action : RunAction) (d : World) : Except JsError Run × World :=
  (NeonDemoStore.mutate (js "owner") (js "a") (action.run (Platform.plain.withTable env))).exec
    expensive.environment.respond d

/-- A run that was created and advanced until it asks for an approval. -/
def awaiting : World :=
  (act .advance (act .advance (act .advance
    ((create .table).exec expensive.environment.respond World.empty).2).2).2).2

end Sample

/-- An approval that nobody waits for: the file keeps the run, and the table keeps the intent. -/
theorem rejected_action_created :
    (∃ record x e', (Sample.world .file).records = [record] ∧
      (RunStore.mutate (Platform.plain.withFile Sample.env) record.owner record.run.id
        ((RunAction.approve none).run (Platform.plain.withFile Sample.env))).exec
          Sample.gateway.respond (Sample.world .file) = (.error x, e') ∧ e'.records = [record]) ∧
    ∃ row marker x e', (Sample.world .table).rows = [row] ∧
      (NeonDemoStore.mutate row.owner row.id
        ((RunAction.approve none).run (Platform.plain.withTable Sample.env))).exec
          Sample.gateway.respond (Sample.world .table) = (.error x, e') ∧
      e'.rows = [{ row with run := row.run.stopped.reread jsonb, inFlight := some marker }] := by
  constructor
  · obtain ⟨record, hrecords, heq⟩ := List.map_eq_singleton_iff.1 Sample.worlds.1
    obtain ⟨happroval, hflight⟩ := Prod.mk.inj heq
    have hlocate : RunStore.locate record.owner record.run.id (Sample.world .file).records =
        some ([], record, []) := by
      rw [hrecords]
      exact if_pos ⟨rfl, rfl⟩
    obtain ⟨record', e₁, hrecovered, -, -, -, hthrows⟩ := (rejected_action .plain
      Sample.gateway.environment (Sample.world .file) Sample.env (.approve none)).1
        record.owner record.run.id [] record [] Sample.leads_world hlocate
    obtain rfl : record' = record := by
      unfold RunStore.Recovered at hrecovered
      rw [Option.isNone_iff_eq_none.1 hflight] at hrecovered
      exact hrecovered
    obtain ⟨x, run', e₂, haction⟩ := Sample.exec_approve Sample.gateway.environment e₁
      (Option.isNone_iff_eq_none.1 happroval)
    obtain ⟨-, e', hmutate, hafter⟩ := hthrows x run' e₂ haction
    exact ⟨record', x, e', hrecords, hmutate, hafter⟩
  · obtain ⟨row, hrows, heq⟩ := List.map_eq_singleton_iff.1 Sample.worlds.2
    obtain ⟨happroval, hflight⟩ := Prod.mk.inj heq
    have hrow : RowAt (Sample.world .table).rows [] row [] := ⟨hrows, by rw [hrows]; simp⟩
    obtain ⟨e₁, -, -, hthrows⟩ := (rejected_action .plain Sample.gateway.environment
      (Sample.world .table) Sample.env (.approve none)).2 [] row [] hrow
        (Option.isNone_iff_eq_none.1 hflight)
    obtain ⟨x, run', e₂, haction⟩ := Sample.exec_approve Sample.gateway.environment e₁
      (Option.isNone_iff_eq_none.1 happroval)
    obtain ⟨-, e', marker, row', hmutate, rfl, hafter, -⟩ := hthrows x run' e₂ haction
    exact ⟨row, marker, x, e', hrows, hmutate, hafter.eq⟩

/-- **A run is lost.**  An approval without a signature is rejected, and the run that waits for it
in the table is `failed` and stays claimed. -/
theorem table_run_lost :
    (Sample.awaiting.rows.map fun row => (row.run.status, row.inFlight.isSome)) =
        [(.awaitingApproval, false)] ∧
      (Sample.act (.approve none) Sample.awaiting).1.toBool = false ∧
        ((Sample.act (.approve none) Sample.awaiting).2.rows.map fun row =>
          (row.run.status, row.inFlight.isSome)) = [(.failed, true)] := by
  decide +kernel

end Runs

end Obolos
