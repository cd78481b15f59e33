import Obolos.Runs.Stores

/-!
# What the engine does to the audit chain

Every action only appends to the events of the run (`LogInvariant.action`): what appending one event
keeps, and what the effects of the engine keep of the world, every action keeps.
-/

namespace Obolos

namespace Runs

open Json Method

/-- The effects of the engine. -/
def Effect.isEngine : Effect → Prop
  | .now => True
  | .randomUUID => True
  | .discover _ => True
  | .purchaseData _ => True
  | .generateReport _ _ => True
  | .verify _ => True
  | _ => False

/-- A property of the events of a run and of the world that the engine keeps. -/
structure LogInvariant (C : Context) (Φ : Prog.Spec World Effect Answer JsError)
    (J : List AuditEvent → World → Prop) : Prop where
  append : ∀ {events d} id timestamp actor kind title detail, J events d →
    J (appendAudit C.host.numerals C.sha events id timestamp actor kind title detail) d
  effect : ∀ {events o d d₁ r d₂}, o.isEngine → J events d → Φ.rely d d₁ → Φ.sem d₁ o r d₂ →
    Φ.guar d₁ d₂ ∧ J events d₂

namespace LogInvariant

variable {C : Context} {Φ : Prog.Spec World Effect Answer JsError}
  {J : List AuditEvent → World → Prop} (hJ : LogInvariant C Φ J)

/-- `Keeps` for a property of the events. -/
abbrev Kept (Φ : Prog.Spec World Effect Answer JsError) (J : List AuditEvent → World → Prop)
    {α : Type} (m : Engine α) : Prop := Keeps Φ (fun run d => J run.events d) m

theorem refuse {bad : Prop} [Decidable bad] {message : String} : Kept Φ J (refuse bad message) :=
  Keeps.onlyIf (Keeps.throw _)

theorem requireLiveRun : Kept Φ J requireLiveRun := Keeps.bind Keeps.self fun _ => refuse

theorem validateReceipt {r : Receipt} {requestId network : JsString} {amount : ℚ} :
    Kept Φ J (validateReceipt r requestId network amount) :=
  Keeps.bind Keeps.self fun _ => Keeps.bind refuse fun _ => refuse

include hJ

theorem await {o : Effect} (ho : o.isEngine) : Kept Φ J (await o) := by
  intro run d h
  rw [wp_await]
  intro d₁ h₁ r d₂ h₂
  exact hJ.effect ho h h₁ h₂

theorem log {actor : Actor} {kind : Kind} {title detail : JsString} :
    Kept Φ J (log C actor kind title detail) := by
  refine Keeps.bind (hJ.await (by trivial)) fun id => ?_
  refine Keeps.bind (hJ.await (by trivial)) fun timestamp => ?_
  refine Keeps.bind (Keeps.modify fun run d h => ?_) fun _ => ?_
  · exact hJ.append id _ actor kind title detail h
  · exact Keeps.bind (hJ.await (by trivial)) fun _ => Keeps.modify fun _ _ h => h

theorem isOver {text : JsString} : Kept Φ J (isOver C text) := by
  unfold Runs.isOver
  split
  · exact Keeps.pure _
  · exact Keeps.bind (hJ.await (by trivial)) fun _ => Keeps.pure _

theorem isPast {text : JsString} : Kept Φ J (isPast C text) := by
  unfold Runs.isPast
  split
  · exact Keeps.pure _
  · exact Keeps.bind (hJ.await (by trivial)) fun _ => Keeps.pure _

theorem assessQuote {m : Mandate} {p : Provider} {units : ℕ} {spent : ℚ} :
    Kept Φ J (assessQuote C m p units spent) := by
  refine Keeps.ite (Keeps.pure _) (Keeps.bind hJ.isOver fun _ => ?_)
  exact Keeps.ite (Keeps.pure _) <| Keeps.ite (Keeps.pure _) <| Keeps.ite (Keeps.pure _) <|
    Keeps.ite (Keeps.pure _) <| Keeps.ite (Keeps.pure _) (Keeps.pure _)

theorem findApproved {run : Run} {providers : List Provider} :
    Kept Φ J (findApproved C run providers) := by
  induction providers with
  | nil => exact Keeps.pure _
  | cons p rest ih => exact Keeps.bind hJ.assessQuote fun _ => Keeps.ite (Keeps.pure _) ih

theorem requestApproval {p : Provider} {reason : JsString} :
    Kept Φ J (requestApproval C p reason) := by
  refine Keeps.bind Keeps.self fun _ => Keeps.bind (hJ.await (by trivial)) fun _ => ?_
  refine Keeps.bind (hJ.await (by trivial)) fun _ => ?_
  refine Keeps.bind (hJ.await (by trivial)) fun _ => ?_
  exact Keeps.bind (Keeps.modify fun _ _ h => h) fun _ => hJ.log

/-! ### The stages -/

theorem acceptMandate : Kept Φ J (acceptMandate C) :=
  Keeps.bind hJ.log fun _ => Keeps.modify fun _ _ h => h

theorem discoverServices : Kept Φ J (discoverServices C) := by
  refine Keeps.bind Keeps.self fun _ => Keeps.bind (hJ.await (by trivial)) fun _ => ?_
  refine Keeps.bind (Keeps.modify fun _ _ h => h) fun _ => Keeps.bind Keeps.self fun run => ?_
  split
  · exact Keeps.throw _
  · exact Keeps.bind (Keeps.modify fun _ _ h => h) fun _ => hJ.log

theorem payForData {approved : Provider} : Kept Φ J (payForData C approved) := by
  refine Keeps.bind Keeps.self fun run => Keeps.bind (Keeps.onlyIf hJ.log) fun _ => ?_
  refine Keeps.bind (Keeps.modify fun _ _ h => h) fun _ => Keeps.bind hJ.log fun _ => ?_
  refine Keeps.bind (hJ.await (by trivial)) fun _ => Keeps.bind validateReceipt fun _ => ?_
  refine Keeps.bind refuse fun _ => Keeps.bind (Keeps.modify fun _ _ h => h) fun _ => ?_
  exact hJ.log

theorem purchaseStage : Kept Φ J (purchaseStage C) := by
  refine Keeps.bind Keeps.self fun run => Keeps.bind (Keeps.onlyIf ?_) fun _ => ?_
  · exact Keeps.bind (hJ.await (by trivial)) fun _ => Keeps.modify fun _ _ h => h
  · refine Keeps.bind Keeps.self fun run => Keeps.bind hJ.findApproved fun approved => ?_
    split
    · exact hJ.payForData
    · split
      · exact Keeps.throw _
      · exact Keeps.bind hJ.assessQuote fun _ => hJ.requestApproval

theorem draftReport : Kept Φ J (draftReport C) := by
  refine Keeps.bind Keeps.self fun run => Keeps.bind (hJ.await (by trivial)) fun _ => ?_
  refine Keeps.bind (hJ.await (by trivial)) fun _ => ?_
  exact Keeps.bind (Keeps.modify fun _ _ h => h) fun _ => hJ.log

theorem verifyReport : Kept Φ J (verifyReport C) := by
  refine Keeps.bind Keeps.self fun run => Keeps.bind refuse fun _ => ?_
  split
  · exact Keeps.throw _
  · refine Keeps.bind (hJ.await (by trivial)) fun _ => Keeps.bind validateReceipt fun _ => ?_
    refine Keeps.bind (Keeps.modify fun _ _ h => h) fun _ => Keeps.bind refuse fun _ => ?_
    refine Keeps.bind (Keeps.modify fun _ _ h => h) fun _ => Keeps.bind refuse fun _ => ?_
    exact Keeps.bind (Keeps.modify fun _ _ h => h) fun _ => hJ.log

theorem advanceStage : Kept Φ J (advanceStage C) := by
  refine Keeps.bind Keeps.self fun run => Keeps.bind hJ.isPast fun _ => ?_
  refine Keeps.bind refuse fun _ => ?_
  split
  · exact hJ.acceptMandate
  · exact hJ.discoverServices
  · exact hJ.purchaseStage
  · exact hJ.draftReport
  · exact hJ.verifyReport
  · exact Keeps.pure _

/-! ### The actions -/

theorem advanceRun : Kept Φ J (advanceRun C) := by
  refine Keeps.bind requireLiveRun fun _ => Keeps.bind Keeps.self fun run => ?_
  refine Keeps.ite (Keeps.pure _) (Keeps.bind (Keeps.modify fun _ _ h => h) fun _ => ?_)
  refine Keeps.tryCatch hJ.advanceStage fun e => ?_
  exact Keeps.bind (Keeps.modify fun _ _ h => h) fun _ => hJ.log

theorem applyShock {liveQuotes : Option (List Provider)} : Kept Φ J (applyShock C liveQuotes) := by
  refine Keeps.bind requireLiveRun fun _ => Keeps.bind Keeps.self fun run => ?_
  refine Keeps.bind refuse fun _ => Keeps.bind refuse fun _ => ?_
  exact Keeps.bind (Keeps.modify fun _ _ h => h) fun _ => hJ.log

omit hJ in
theorem checkSignature {a : ApprovalRequest} {signature : Option JsString} :
    Kept Φ J (checkSignature C a signature) := by
  refine Keeps.bind refuse fun _ => ?_
  split
  · exact Keeps.throw _
  · exact Keeps.bind (Keeps.ofExcept _) fun _ => refuse

theorem approveRun {signature : Option JsString} : Kept Φ J (approveRun C signature) := by
  refine Keeps.bind requireLiveRun fun _ => Keeps.bind Keeps.self fun run => ?_
  split
  · exact Keeps.throw _
  · refine Keeps.bind refuse fun _ => Keeps.bind hJ.isPast fun _ => Keeps.bind refuse fun _ => ?_
    refine Keeps.bind refuse fun _ => Keeps.bind (Keeps.onlyIf checkSignature) fun _ => ?_
    refine Keeps.bind (hJ.await (by trivial)) fun _ => ?_
    exact Keeps.bind (Keeps.modify fun _ _ h => h) fun _ => hJ.log

theorem pauseRun : Kept Φ J (pauseRun C) := by
  refine Keeps.bind requireLiveRun fun _ => Keeps.bind Keeps.self fun run => ?_
  exact Keeps.bind refuse fun _ => Keeps.bind (Keeps.modify fun _ _ h => h) fun _ => hJ.log

/-- **Every action keeps what appending an event keeps.** -/
theorem action (a : RunAction) : Kept Φ J (a.run C) := by
  cases a with
  | advance => exact hJ.advanceRun
  | approve signature => exact hJ.approveRun
  | pause => exact hJ.pauseRun
  | shock liveQuotes => exact hJ.applyShock

end LogInvariant

/-- The clock and the identifiers. -/
def Effect.isClock : Effect → Prop
  | .now => True
  | .randomUUID => True
  | _ => False

theorem Effect.isClock.isEngine {o : Effect} (h : o.isClock) : o.isEngine := by
  cases o <;> trivial

/-- A property of the world that the clock, the identifiers and the other processes keep. -/
structure Stable (Φ : Prog.Spec World Effect Answer JsError) (W : World → Prop) : Prop where
  effect : ∀ {o d d₁ r d₂}, o.isClock → W d → Φ.rely d d₁ → Φ.sem d₁ o r d₂ →
    Φ.guar d₁ d₂ ∧ W d₂

section Exact

variable {C : Context} {Φ : Prog.Spec World Effect Answer JsError} {W : World → Prop}
  {d : World}

/-- Reading the clock. -/
theorem Stable.wp_now (hW : Stable Φ W) (hsem : Φ.sem = work) {Q : Except JsError ℤ → World → Prop}
    (h : W d) (hQ : ∀ time d', W d' → Q (.ok time) d') : (perform .now).wp Φ Q d := by
  unfold perform
  rw [Prog.wp_await]
  intro d₁ hrely r d₂ hnow
  obtain ⟨hg, h⟩ := hW.effect (by trivial) h hrely hnow
  rw [hsem] at hnow
  obtain ⟨⟨time, rfl⟩, -⟩ := hnow
  exact ⟨hg, hQ time d₂ h⟩

/-- What `log` does. -/
theorem Stable.wp_log (hW : Stable Φ W) (hsem : Φ.sem = work) {actor : Actor} {kind : Kind}
    {title detail : JsString} {run : Run} (h : W d) :
    (log C actor kind title detail).wp Φ (fun r run' d' => r = .ok () ∧ W d' ∧
      ∃ id timestamp updatedAt, run' = { run with
        events := appendAudit C.host.numerals C.sha run.events id timestamp actor kind title detail
        updatedAt := updatedAt }) run d := by
  unfold log
  rw [wp_bind, wp_await]
  intro d₁ hrely r d₂ huuid
  obtain ⟨hg, h⟩ := hW.effect (by trivial) h hrely huuid
  rw [hsem] at huuid
  obtain ⟨id, rfl, -, -⟩ := huuid
  refine ⟨hg, ?_⟩
  simp only
  rw [wp_bind, wp_await]
  intro d₁ hrely r d₂ hnow
  obtain ⟨hg, h⟩ := hW.effect (by trivial) h hrely hnow
  rw [hsem] at hnow
  obtain ⟨⟨time, rfl⟩, -⟩ := hnow
  refine ⟨hg, ?_⟩
  simp only
  rw [wp_bind, wp_modify]
  simp only
  rw [wp_bind, wp_await]
  intro d₁ hrely r d₂ hnow
  obtain ⟨hg, h⟩ := hW.effect (by trivial) h hrely hnow
  rw [hsem] at hnow
  obtain ⟨⟨time', rfl⟩, -⟩ := hnow
  refine ⟨hg, ?_⟩
  simp only
  rw [wp_modify]
  exact ⟨rfl, h, id, _, _, rfl⟩

/-- What `createRun` makes: a run with a new identifier and one event. -/
def Created (C : Context) (input : RunInput) (id : JsString) (run : Run) : Prop :=
  input.valid C.toPlatform = true ∧ ∃ createdAt expiresAt eventId timestamp detail updatedAt,
    run = { input.run id createdAt (input.mandate expiresAt) with
      events := appendAudit C.host.numerals C.sha [] eventId timestamp .supervisor .info
        (js "Mandate created") detail
      updatedAt := updatedAt }

/-- What `createRun` does, in a world in `W` before and in `W' id` after the identifier `id` was
drawn. -/
theorem Stable.wp_createRun (hW : Stable Φ W) (hsem : Φ.sem = work) {W' : JsString → World → Prop}
    (hW' : ∀ id, Stable Φ (W' id)) (hdraw : ∀ {d d₁ id}, W d → Φ.rely d d₁ → id ∉ d₁.uuids →
      Φ.guar d₁ { d₁ with uuids := id :: d₁.uuids } ∧ W' id { d₁ with uuids := id :: d₁.uuids })
    {input : RunInput} {Q : Except JsError Run → World → Prop} (h : W d)
    (herror : ∀ e d', W d' → Q (.error e) d')
    (hok : ∀ id run d', W' id d' → Created C input id run → Q (.ok run) d') :
    (createRun C input).wp Φ Q d := by
  unfold createRun
  refine Prog.wp_ite (fun _ => Prog.wp_throw.2 (herror _ _ h)) fun hvalid => ?_
  rw [Prog.wp_bind]
  refine hW.wp_now hsem h fun now d h => ?_
  show Prog.wp _ _ _ _
  rw [Prog.wp_bind]
  refine hW.wp_now hsem h fun hour d h => ?_
  show Prog.wp _ _ _ _
  rw [Prog.wp_bind]
  refine hW.wp_now hsem h fun early d h => ?_
  show Prog.wp _ _ _ _
  rw [Prog.wp_bind]
  refine hW.wp_now hsem h fun late d h => ?_
  refine Prog.wp_ite (fun _ => Prog.wp_throw.2 (herror _ _ h)) fun _ => ?_
  unfold perform
  rw [Prog.wp_bind, Prog.wp_await]
  intro d₁ hrely r d₂ huuid
  rw [hsem] at huuid
  obtain ⟨id, rfl, hfresh, rfl⟩ := huuid
  obtain ⟨hg, h'⟩ := hdraw h hrely hfresh
  refine ⟨hg, ?_⟩
  show Prog.wp _ _ _ _
  refine Method.wp_call (Method.wp_mono ((hW' id).wp_log hsem h') ?_)
  rintro _ run d ⟨rfl, h, eventId, timestamp, updatedAt, rfl⟩
  refine Prog.wp_pure.2 (hok id _ d h ⟨by simpa using hvalid, ?_⟩)
  exact ⟨_, _, eventId, timestamp, _, updatedAt, rfl⟩

end Exact

end Runs

end Obolos
