import Obolos.Crash.Reach
import Obolos.Runner.Journal
import Obolos.Runs.Rejections

/-!
# The loop of the runner

`executeJob` calls `advanceRun` until the run is terminal.  Every call that ends does one stage or
ends the run, so there are at most five (`turns_le`), whatever the gateway answers.
-/

namespace Obolos

namespace Runs

open Method

/-- How many stages come before. -/
def Stage.rank : Stage → ℕ
  | .mandate => 0
  | .discovery => 1
  | .purchase => 2
  | .report => 3
  | .verification => 4
  | .complete => 5

variable (C : Context)

/-- A turn of the loop of `executeJob`: the run is not terminal, and `advanceRun` ended. -/
def Turn (run run' : Run) : Prop :=
  Runner.isTerminal run.status = false ∧
    ∃ d d', (advanceRun C run).Reaches work d (.pure (.ok (), run')) d'

/-- After one stage: the run is in the next stage, or terminal. -/
def Advanced (n : ℕ) (run : Run) : Prop :=
  Runner.isTerminal run.status = true ∨ run.status = .running ∧ run.stage.rank = n + 1 ∧ n + 1 < 5

variable {C} {run run' : Run} {n : ℕ} {d : World} {α : Type}

/-- The outcome of a stage. -/
def AfterStage (n : ℕ) : Except JsError Unit → Run → World → Prop
  | .ok _, run, _ => Advanced n run
  | .error _, _, _ => True

/-- What the engine is verified against. -/
abbrev engine : Prog.Spec World Effect Answer JsError := Prog.Reaches.alone work

theorem stable_engine : Stable engine fun _ => True := ⟨fun _ _ _ _ => ⟨trivial, trivial⟩⟩

/-- The status and the stage are as given. -/
def Standing (stage : Stage) (run : Run) (_ : World) : Prop :=
  run.status = .running ∧ run.stage = stage

section

variable {stage : Stage}

/-- An effect leaves the run alone. -/
theorem keeps_effect {o : Effect} : Keeps engine (Standing stage) (await o) := by
  intro run d h
  rw [wp_await]
  exact fun _ _ _ _ _ => ⟨trivial, h⟩

theorem keeps_event {actor : Actor} {kind : Kind} {title detail : JsString} :
    Keeps engine (Standing stage) (log C actor kind title detail) := by
  refine Keeps.bind keeps_effect fun _ => Keeps.bind keeps_effect fun _ => ?_
  refine Keeps.bind (Keeps.modify fun _ _ h => h) fun _ => Keeps.bind keeps_effect fun _ => ?_
  exact Keeps.modify fun _ _ h => h

theorem keeps_refusal {bad : Prop} [Decidable bad] {message : String} :
    Keeps engine (Standing stage) (refuse bad message) := Keeps.onlyIf (Keeps.throw _)

theorem keeps_past {text : JsString} : Keeps engine (Standing stage) (isPast C text) := by
  unfold isPast
  split
  · exact Keeps.pure _
  · exact Keeps.bind keeps_effect fun _ => Keeps.pure _

theorem keeps_over {text : JsString} : Keeps engine (Standing stage) (isOver C text) := by
  unfold isOver
  split
  · exact Keeps.pure _
  · exact Keeps.bind keeps_effect fun _ => Keeps.pure _

theorem keeps_quote {m : Mandate} {p : Provider} {units : ℕ} {spent : ℚ} :
    Keeps engine (Standing stage) (assessQuote C m p units spent) := by
  refine Keeps.ite (Keeps.pure _) (Keeps.bind keeps_over fun _ => ?_)
  exact Keeps.ite (Keeps.pure _) <| Keeps.ite (Keeps.pure _) <| Keeps.ite (Keeps.pure _) <|
    Keeps.ite (Keeps.pure _) <| Keeps.ite (Keeps.pure _) (Keeps.pure _)

theorem keeps_quotes {run₀ : Run} {providers : List Provider} :
    Keeps engine (Standing stage) (findApproved C run₀ providers) := by
  induction providers with
  | nil => exact Keeps.pure _
  | cons p rest ih => exact Keeps.bind keeps_quote fun _ => Keeps.ite (Keeps.pure _) ih

theorem keeps_receipt {r : Receipt} {requestId network : JsString} {amount : ℚ} :
    Keeps engine (Standing stage) (validateReceipt r requestId network amount) :=
  Keeps.bind Keeps.self fun _ => Keeps.bind keeps_refusal fun _ => keeps_refusal

end

/-- The end of a stage: a change that is logged. -/
theorem wp_advanced {f : Run → Run} {actor : Actor} {kind : Kind} {title detail : JsString}
    (h : Advanced n (f run)) :
    ((modify f : Engine Unit) >>= fun _ => log C actor kind title detail).wp engine
      (AfterStage n) run d := by
  rw [wp_bind, wp_modify]
  refine wp_mono (stable_engine.wp_log rfl trivial) fun r run' d' hlog => ?_
  obtain ⟨rfl, -, id, timestamp, updatedAt, rfl⟩ := hlog
  exact h

/-- A part of a stage that keeps the status and the stage. -/
theorem wp_part {stage : Stage} {m : Engine α} {f : α → Engine Unit}
    (hm : Keeps engine (Standing stage) m) (h : Standing stage run d)
    (hf : ∀ a run d, Standing stage run d → (f a).wp engine (AfterStage n) run d) :
    (m >>= f).wp engine (AfterStage n) run d :=
  hm.wp_bind h hf fun _ _ _ _ => trivial

/-! ### The stages -/

variable {stage : Stage}

theorem wp_acceptMandate (h : Standing .mandate run d) :
    (acceptMandate C).wp engine (AfterStage 0) run d := by
  refine wp_part keeps_event h fun _ run d h => ?_
  rw [wp_modify]
  exact Or.inr ⟨h.1, rfl, by decide⟩

theorem wp_discoverServices (h : Standing .discovery run d) :
    (discoverServices C).wp engine (AfterStage 1) run d := by
  refine wp_part Keeps.self h fun _ run d h => wp_part keeps_effect h fun _ run d h => ?_
  refine wp_part (Keeps.modify fun _ _ h => h) h fun _ run d h => ?_
  refine wp_part Keeps.self h fun found run d h => ?_
  split
  · exact wp_throw.2 trivial
  · exact wp_advanced (Or.inr ⟨h.1, rfl, by decide⟩)

theorem wp_payForData {approved : Provider} (h : Standing .purchase run d) :
    (payForData C approved).wp engine (AfterStage 2) run d := by
  refine wp_part Keeps.self h fun _ run d h => ?_
  refine wp_part (Keeps.onlyIf keeps_event) h fun _ run d h => ?_
  refine wp_part (Keeps.modify fun _ _ h => h) h fun _ run d h => ?_
  refine wp_part keeps_event h fun _ run d h => wp_part keeps_effect h fun _ run d h => ?_
  refine wp_part keeps_receipt h fun _ run d h => wp_part keeps_refusal h fun _ run d h => ?_
  exact wp_advanced (Or.inr ⟨h.1, rfl, by decide⟩)

theorem wp_requestApproval {p : Provider} {reason : JsString} (h : Standing stage run d) :
    (requestApproval C p reason).wp engine (AfterStage n) run d := by
  refine wp_part Keeps.self h fun _ run d h => wp_part keeps_effect h fun _ run d h => ?_
  refine wp_part keeps_effect h fun _ run d h => wp_part keeps_effect h fun _ run d h => ?_
  exact wp_advanced (Or.inl rfl)

theorem wp_purchaseStage (h : Standing .purchase run d) :
    (purchaseStage C).wp engine (AfterStage 2) run d := by
  refine wp_part Keeps.self h fun _ run d h => wp_part (Keeps.onlyIf ?_) h fun _ run d h => ?_
  · exact Keeps.bind keeps_effect fun _ => Keeps.modify fun _ _ h => h
  · refine wp_part Keeps.self h fun found run d h => wp_part keeps_quotes h fun _ run d h => ?_
    split
    · exact wp_payForData h
    · split
      · exact wp_throw.2 trivial
      · exact wp_part keeps_quote h fun _ run d h => wp_requestApproval h

theorem wp_draftReport (h : Standing .report run d) :
    (draftReport C).wp engine (AfterStage 3) run d := by
  refine wp_part Keeps.self h fun _ run d h => wp_part keeps_effect h fun _ run d h => ?_
  refine wp_part keeps_effect h fun _ run d h => ?_
  exact wp_advanced (Or.inr ⟨h.1, rfl, by decide⟩)

theorem wp_verifyReport (h : Standing .verification run d) :
    (verifyReport C).wp engine (AfterStage 4) run d := by
  refine wp_part Keeps.self h fun _ run d h => wp_part keeps_refusal h fun _ run d h => ?_
  split
  · exact wp_throw.2 trivial
  · refine wp_part keeps_effect h fun _ run d h => wp_part keeps_receipt h fun _ run d h => ?_
    refine wp_part (Keeps.modify fun _ _ h => h) h fun _ run d h => ?_
    refine wp_part keeps_refusal h fun _ run d h => ?_
    refine wp_part (Keeps.modify fun _ _ h => h) h fun _ run d h => ?_
    exact wp_part keeps_refusal h fun _ run d h => wp_advanced (Or.inl rfl)

theorem wp_advanceStage (h : Standing stage run d) (hearly : stage.rank < 5) :
    (advanceStage C).wp engine (AfterStage stage.rank) run d := by
  unfold advanceStage
  rw [wp_bind, wp_self]
  simp only
  rw [h.2]
  refine wp_part keeps_past h fun _ run d h => wp_part keeps_refusal h fun _ run d h => ?_
  cases stage with
  | mandate => exact wp_acceptMandate h
  | discovery => exact wp_discoverServices h
  | purchase => exact wp_purchaseStage h
  | report => exact wp_draftReport h
  | verification => exact wp_verifyReport h
  | complete => exact absurd hearly (by decide)

/-- One call of `advanceRun`. -/
theorem wp_advance (hstatus : run.status = .ready ∨ run.status = .running)
    (hearly : run.stage.rank < 5) :
    (advanceRun C).wp engine (fun r run' _ => r = .ok () → Advanced run.stage.rank run') run d := by
  have hrests : ¬ run.status.rests := by
    rcases hstatus with hs | hs <;> rw [hs] <;> decide
  unfold advanceRun requireLiveRun
  rw [wp_bind, wp_bind, wp_self]
  refine wp_onlyIf (fun _ => wp_throw.2 fun hfalse => by cases hfalse) fun _ => ?_
  simp only
  rw [wp_bind, wp_self]
  refine wp_ite (fun hfalse => absurd hfalse hrests) fun _ => ?_
  rw [wp_bind, wp_modify]
  simp only
  rw [wp_tryCatch]
  have hstanding : Standing run.stage { run with status := .running } d := ⟨rfl, rfl⟩
  refine wp_mono (wp_advanceStage hstanding hearly) fun r run' d' h => ?_
  cases r with
  | ok a => exact fun _ => h
  | error e =>
    -- the run has failed
    exact wp_mono (wp_advanced (f := fun run => { run with
      status := .failed
      error := some (errorMessage e) }) (n := run.stage.rank) (Or.inl rfl)) fun r run' d' h hr => by
        subst hr
        exact h

/-! ### The loop -/

/-- A turn does one stage. -/
theorem Turn.advanced (h : Turn C run run') (hstatus : run.status = .ready ∨ run.status = .running)
    (hearly : run.stage.rank < 5) : Advanced run.stage.rank run' := by
  obtain ⟨-, d, d', hreaches⟩ := h
  exact Prog.wp_pure.1 (hreaches.wp (wp_advance hstatus hearly)) rfl

/-- The turns that are left. -/
theorem turns_left {runs : List Run} (h : (run :: runs).IsChain (Turn C))
    (hstatus : run.status = .ready ∨ run.status = .running) (hearly : run.stage.rank < 5) :
    runs.length + run.stage.rank ≤ 5 := by
  induction runs generalizing run with
  | nil => simpa using hearly.le
  | cons run' runs ih =>
    obtain ⟨hturn, hrest⟩ := List.isChain_cons_cons.1 h
    rcases hturn.advanced hstatus hearly with hended | ⟨hrunning, hrank, hlater⟩
    · -- the loop has ended
      cases runs with
      | nil =>
        simp only [List.length_singleton]
        omega
      | cons run'' runs =>
        have hgoing := (List.isChain_cons_cons.1 hrest).1.1
        rw [hended] at hgoing
        cases hgoing
    · have hleft := ih hrest (Or.inr hrunning) (hrank ▸ hlater)
      rw [List.length_cons]
      omega

/-- **The loop of the runner ends.**  From a run that `createRun` made there are at most five
turns. -/
theorem turns_le {input : RunInput} {id : JsString} {d d' : World} {runs : List Run}
    (hmade : (createRun C input).Reaches work d (.pure run) d')
    (h : ({ run with id := id } :: runs).IsChain (Turn C)) : runs.length ≤ 5 := by
  have hcreated : (createRun C input).wp engine
      (fun r _ => ∀ run, r = .ok run → run.status = .ready ∧ run.stage = .mandate) d := by
    have hstable : ∀ id, Stable engine ((fun _ _ => True : JsString → World → Prop) id) :=
      fun _ => stable_engine
    refine stable_engine.wp_createRun rfl hstable
      (fun _ _ _ => ⟨trivial, trivial⟩) trivial (fun e d' _ run hfalse => by cases hfalse) ?_
    rintro id run d' - ⟨-, createdAt, expiresAt, eventId, timestamp, detail, updatedAt, rfl⟩ run' hrun
    cases hrun
    exact ⟨rfl, rfl⟩
  obtain ⟨hready, hstage⟩ := Prog.wp_pure.1 (hmade.wp hcreated) run rfl
  have hleft := turns_left h (Or.inl hready) (by rw [hstage]; decide)
  rw [hstage] at hleft
  exact hleft

end Runs

end Obolos
