import Obolos.Broker.Routes
import Obolos.Crash.Reach
import Mathlib.Algebra.Order.BigOperators.Group.List

/-!
# The request for a verification

A run that is made by `createRun` and acted on, with the broker as its gateway: purchases and
summaries are those that `/data` and `/report` accept.  `verification_accepted_iff` : the requests
for a verification that the run sends are accepted exactly if its title is short enough, and it is
known before anything is paid for whether it is.
-/

namespace Obolos

namespace Broker

open Json Runs Method Evidence

/-! ### The broker as the gateway -/

/-- The records that the broker sent last, and the bodies of the requests to `/verify`. -/
structure Exchange where
  records : List Json
  requests : List Json

variable (C : Context) (S : Schemas)

/-- A time that the clock shows: it is written as a date, and so is the time an hour later. -/
def Shown (time : ℤ) : Prop :=
  S.isDatetime (C.isoString time) = true ∧ S.isDatetime (C.isoString (time + 3600000)) = true

/-- A purchase that `/data` accepts, with the records it answers and what the engine reads of them. -/
structure Sold (p : DataPurchase) (records : List Json) (evidence : List RepoEvidence) : Prop where
  accepted : dataSchema S (dataJson p) = true
  valid : evidenceArray S.toTexts records = true
  covers : brokerCovers p.repos records = true
  read : records.mapM readRecord = some evidence

/-- A summary that `/report` accepts. -/
def Written (evidence : List RepoEvidence) (summary : JsString) : Prop :=
  ∃ content, content.length ≤ 12000 ∧
    formatWorkerReport C.readNumber content (evidence.map RepoEvidence.repo) = .ok summary

/-- What an effect of the engine does. -/
def served (d : Exchange) : (o : Runs.Effect) → Except JsError (Runs.Answer o) → Exchange → Prop
  | .now, r, d' => (∃ time, r = .ok time ∧ Shown C S time) ∧ d' = d
  | .randomUUID, r, d' => (∃ id, r = .ok id ∧ isId id = true) ∧ d' = d
  | .purchaseData p, r, d' =>
    (∃ e, r = .error e) ∧ d' = d ∨ ∃ evidence receipt records, r = .ok (evidence, receipt) ∧
      Sold S p records evidence ∧ d' = { d with records := records }
  | .generateReport _ evidence, r, d' => (∀ summary, r = .ok summary → Written C evidence summary) ∧
      d' = d
  | .verify p, _, d' => d' = { d with requests := d.requests ++ [verifyJson d.records p] }
  | _, _, d' => d' = d

/-- The same record, with its keys in another order. -/
def Reordered (x y : Json) : Prop :=
  ∃ fields fields' : List (JsString × Json), x = .obj fields ∧ y = .obj fields' ∧
    fields.Perm fields' ∧ (fields.map Prod.fst).Nodup

/-- A run that was created and acted on; a store may keep it between two actions. -/
inductive Reached : Run → Exchange → Prop
  | created {input : RunInput} {run : Run} {d : Exchange}
      (made : (createRun C input).Reaches (served C S) ⟨[], []⟩ (Pure.pure run) d) : Reached run d
  | acted {run run' : Run} {d d' : Exchange} {r : Except JsError Unit} (action : RunAction)
      (before : Reached run d)
      (done : (action.run C run).Reaches (served C S) d (Pure.pure (r, run')) d') : Reached run' d'
  | stored {run : Run} {d : Exchange} {records : List Json} (before : Reached run d)
      (reordered : List.Forall₂ Reordered d.records records) :
      Reached (run.reread C.layout) { d with records := records }

/-! ### What a run keeps -/

/-- The terms of a mandate that are sent. -/
structure Sendable (m : Mandate) : Prop where
  expiresAt : S.isDatetime m.expiresAt = true
  price : isCount (some (.num m.verificationPrice)) = true

/-- What every run keeps. -/
structure Base (run : Run) (d : Exchange) : Prop where
  titled : run.title = title run.repos
  named : (1 ≤ run.repos.length ∧ run.repos.length ≤ 3) ∧
    ∀ repo ∈ run.repos, (repoName repo).length ≤ 100
  id : isId run.id = true
  mandate : Sendable S run.mandate
  pending : ∀ a, run.approval = some a → Sendable S a.proposedMandate
  sent : ∀ body ∈ d.requests, verifySchema S body = true ↔ (title run.repos).length ≤ 300

/-- What a run keeps that has not failed: its evidence and its report are as the broker has them. -/
structure Active (run : Run) (d : Exchange) : Prop where
  base : Base S run d
  bought : run.stage = .report ∨ run.stage = .verification →
    evidenceArray S.toTexts d.records = true ∧ d.records.mapM readRecord = some run.evidence
  drafted : run.stage = .verification → ∃ r, run.report = some r ∧ r.title = run.title ∧
    r.evidence = run.evidence ∧ Drafted S r

/-- What a run keeps between its actions. -/
structure Held (run : Run) (d : Exchange) : Prop where
  base : Base S run d
  active : run.status ≠ .failed → Active S run d

variable {C S} {run run' : Run} {d : Exchange} {I : Run → Exchange → Prop}

/-- What the actions are verified against. -/
abbrev alone (C : Context) (S : Schemas) : Prog.Spec Exchange Runs.Effect Runs.Answer JsError :=
  Prog.Reaches.alone (served C S)

/-- A change that leaves the terms alone. -/
theorem Base.keep (h : Base S run d) (htitle : run'.title = run.title)
    (hrepos : run'.repos = run.repos) (hid : run'.id = run.id) (hmandate : run'.mandate = run.mandate)
    (happroval : run'.approval = run.approval) : Base S run' d where
  titled := by rw [htitle, hrepos, h.titled]
  named := hrepos ▸ h.named
  id := hid ▸ h.id
  mandate := hmandate ▸ h.mandate
  pending := happroval ▸ h.pending
  sent := hrepos ▸ h.sent

theorem Base.records (h : Base S run d) (records : List Json) :
    Base S run { d with records := records } :=
  ⟨h.titled, h.named, h.id, h.mandate, h.pending, h.sent⟩

/-- A change that also leaves the stage, the evidence and the report alone. -/
theorem Active.keep (h : Active S run d) (hbase : Base S run' d) (htitle : run'.title = run.title)
    (hstage : run'.stage = run.stage) (hevidence : run'.evidence = run.evidence)
    (hreport : run'.report = run.report) : Active S run' d where
  base := hbase
  bought := by rw [hstage, hevidence]; exact h.bought
  drafted := by rw [hstage, hevidence, hreport, htitle]; exact h.drafted

/-- A run in an early stage. -/
theorem Active.early (hbase : Base S run d) (hreport : run.stage ≠ .report)
    (hverification : run.stage ≠ .verification) : Active S run d where
  base := hbase
  bought h := (h.elim hreport hverification).elim
  drafted h := (hverification h).elim

/-! ### Effects -/

/-- A property that logging keeps. -/
structure Quiet (I : Run → Exchange → Prop) : Prop where
  logged : ∀ {run d} events updatedAt, I run d →
    I { run with events := events, updatedAt := updatedAt } d

theorem quiet_base : Quiet (Base S) := ⟨fun _ _ h => h.keep rfl rfl rfl rfl rfl⟩

theorem quiet_active : Quiet (Active S) :=
  ⟨fun _ _ h => h.keep (quiet_base.logged _ _ h.base) rfl rfl rfl rfl⟩

theorem quiet_held : Quiet (Held S) :=
  ⟨fun _ _ h => ⟨quiet_base.logged _ _ h.base, fun hs => quiet_active.logged _ _ (h.active hs)⟩⟩

/-- An effect that leaves the exchange alone. -/
theorem keeps_await {o : Runs.Effect} (ho : ∀ d r d', served C S d o r d' → d' = d) :
    Keeps (alone C S) I (await o) := by
  intro run d h
  rw [wp_await]
  rintro d₁ rfl r d₂ hsem
  obtain rfl := ho _ _ _ hsem
  exact ⟨trivial, h⟩

theorem keeps_now : Keeps (alone C S) I (await .now) := keeps_await fun _ _ _ h => h.2

theorem keeps_uuid : Keeps (alone C S) I (await .randomUUID) := keeps_await fun _ _ _ h => h.2

theorem wp_clock {Q : Except JsError ℤ → Run → Exchange → Prop}
    (hQ : ∀ time, Shown C S time → Q (.ok time) run d) :
    Method.wp (alone C S) (await Runs.Effect.now) Q run d := by
  rw [wp_await]
  rintro d₁ rfl r d₂ ⟨⟨time, rfl, hshown⟩, rfl⟩
  exact ⟨trivial, hQ time hshown⟩

theorem Quiet.log (hI : Quiet I) {actor : Actor} {kind : Runs.Kind}
    {title detail : JsString} :
    Keeps (alone C S) I (log C actor kind title detail) := by
  refine Keeps.bind keeps_uuid fun id => Keeps.bind keeps_now fun timestamp => ?_
  refine Keeps.bind (Keeps.modify fun run d h => ?_) fun _ => Keeps.bind keeps_now fun updatedAt => ?_
  · exact hI.logged _ run.updatedAt h
  · exact Keeps.modify fun run d h => hI.logged run.events _ h

theorem keeps_refuse {bad : Prop} [Decidable bad] {message : String} :
    Keeps (alone C S) I (Runs.refuse bad message) := Keeps.onlyIf (Keeps.throw _)

theorem keeps_live : Keeps (alone C S) I requireLiveRun := Keeps.bind Keeps.self fun _ => keeps_refuse

theorem keeps_isPast {text : JsString} : Keeps (alone C S) I (isPast C text) := by
  unfold isPast
  split
  · exact Keeps.pure _
  · exact Keeps.bind keeps_now fun _ => Keeps.pure _

theorem keeps_isOver {text : JsString} : Keeps (alone C S) I (isOver C text) := by
  unfold isOver
  split
  · exact Keeps.pure _
  · exact Keeps.bind keeps_now fun _ => Keeps.pure _

theorem keeps_assessQuote {m : Mandate} {p : Provider} {units : ℕ} {spent : ℚ} :
    Keeps (alone C S) I (assessQuote C m p units spent) := by
  refine Keeps.ite (Keeps.pure _) (Keeps.bind keeps_isOver fun _ => ?_)
  exact Keeps.ite (Keeps.pure _) <| Keeps.ite (Keeps.pure _) <| Keeps.ite (Keeps.pure _) <|
    Keeps.ite (Keeps.pure _) <| Keeps.ite (Keeps.pure _) (Keeps.pure _)

theorem keeps_findApproved {run₀ : Run} {providers : List Provider} :
    Keeps (alone C S) I (findApproved C run₀ providers) := by
  induction providers with
  | nil => exact Keeps.pure _
  | cons p rest ih => exact Keeps.bind keeps_assessQuote fun _ => Keeps.ite (Keeps.pure _) ih

theorem keeps_validateReceipt {r : Receipt} {requestId network : JsString} {amount : ℚ} :
    Keeps (alone C S) I (validateReceipt r requestId network amount) :=
  Keeps.bind Keeps.self fun _ => Keeps.bind keeps_refuse fun _ => keeps_refuse

/-! ### The stages -/

/-- The outcome of a stage: a run that failed in the last one need not have its report any more. -/
def After (S : Schemas) : Except JsError Unit → Run → Exchange → Prop
  | .ok _, run, d => Active S run d
  | .error _, run, d => Base S run d

theorem after_of_keeps {m : Engine Unit} (hm : Keeps (alone C S) (Active S) m)
    (h : Active S run d) : m.wp (alone C S) (After S) run d := by
  refine wp_mono (hm run d h) fun r run d h => ?_
  cases r with
  | ok a => exact h
  | error e => exact h.base

theorem keeps_acceptMandate : Keeps (alone C S) (Active S) (acceptMandate C) := by
  refine Keeps.bind quiet_active.log fun _ => Keeps.modify fun run d h => ?_
  refine Active.early ?_ ?_ ?_
  · exact h.base.keep rfl rfl rfl rfl rfl
  · intro hstage; cases hstage
  · intro hstage; cases hstage

theorem keeps_discoverServices : Keeps (alone C S) (Active S) (discoverServices C) := by
  refine Keeps.bind Keeps.self fun run => Keeps.bind (keeps_await fun _ _ _ h => h) fun _ => ?_
  refine Keeps.bind (Keeps.modify fun run d h => ?_) fun _ => Keeps.bind Keeps.self fun run => ?_
  · exact h.keep (h.base.keep rfl rfl rfl rfl rfl) rfl rfl rfl rfl
  · split
    · exact Keeps.throw _
    · refine Keeps.bind (Keeps.modify fun run d h => ?_) fun _ => quiet_active.log
      refine Active.early ?_ ?_ ?_
      · exact h.base.keep rfl rfl rfl rfl rfl
      · intro hstage; cases hstage
      · intro hstage; cases hstage

/-- The mandate that is proposed has the service of the run, and an expiry within the hour. -/
theorem Sendable.proposal (h : Sendable S run.mandate) (p : Provider) {time : ℤ}
    (hshown : Shown C S time) :
    Sendable S (run.proposal C p (C.isoString (time + 3600000))) :=
  ⟨hshown.2, h.price⟩

theorem keeps_requestApproval {p : Provider} {reason : JsString} :
    Keeps (alone C S) (Active S) (requestApproval C p reason) := by
  intro run d h
  unfold requestApproval
  rw [wp_bind, wp_self]
  simp only
  rw [wp_bind]
  refine wp_clock fun time hshown => ?_
  simp only
  have hproposal := h.base.mandate.proposal p hshown
  refine keeps_uuid.wp_bind h (fun nonce run' d' h' => ?_) fun _ _ _ h' => h'
  refine keeps_now.wp_bind h' (fun time' run' d' h' => ?_) fun _ _ _ h' => h'
  rw [wp_bind, wp_modify]
  refine quiet_active.log _ _ ?_
  refine h'.keep ⟨h'.base.titled, h'.base.named, h'.base.id, h'.base.mandate, ?_, h'.base.sent⟩ rfl rfl rfl rfl
  rintro a ha
  cases ha
  exact hproposal

/-- A purchase. -/
theorem wp_purchase {p : DataPurchase}
    {Q : Except JsError (List RepoEvidence × Receipt) → Run → Exchange → Prop}
    (herror : ∀ e, Q (.error e) run d) (hok : ∀ evidence receipt records, Sold S p records evidence →
      Q (.ok (evidence, receipt)) run { d with records := records }) :
    Method.wp (alone C S) (await (Runs.Effect.purchaseData p)) Q run d := by
  rw [wp_await]
  rintro d₁ rfl r d₂ (⟨⟨e, rfl⟩, rfl⟩ | ⟨evidence, receipt, records, rfl, hsold, rfl⟩)
  · exact ⟨trivial, herror e⟩
  · exact ⟨trivial, hok evidence receipt records hsold⟩

theorem wp_payForData {approved : Provider} (h : Active S run d) :
    (payForData C approved).wp (alone C S) (After S) run d := by
  unfold payForData
  rw [wp_bind, wp_self]
  simp only
  refine (Keeps.onlyIf quiet_active.log).wp_bind h (fun _ run' d h => ?_) fun _ _ _ h => h.base
  rw [wp_bind, wp_modify]
  have hselected : Active S { run' with selectedProvider := some approved.id } d :=
    h.keep (h.base.keep rfl rfl rfl rfl rfl) rfl rfl rfl rfl
  simp only
  refine quiet_active.log.wp_bind hselected (fun _ run' d h => ?_) fun _ _ _ h => h.base
  rw [wp_bind]
  refine wp_purchase (fun e => h.base) fun evidence receipt records hsold => ?_
  simp only
  -- the records change before the evidence does
  have hbase : Base S run' { d with records := records } := h.base.records records
  have hI : Keeps (alone C S) (fun run d' => Base S run d' ∧ d'.records = records)
      (validateReceipt receipt (run.id ++ js ":data") (js "hedera:testnet")
        (C.amount approved.unitPriceAtomic run.repos.length)) := keeps_validateReceipt
  refine hI.wp_bind ⟨hbase, rfl⟩ (fun _ run' d' h' => ?_) fun _ _ _ h' => h'.1
  have hI : Keeps (alone C S) (fun run d' => Base S run d' ∧ d'.records = records)
      (Runs.refuse (run.covered evidence = false)
        "Purchased evidence does not cover the requested repositories.") := keeps_refuse
  refine hI.wp_bind h' (fun _ run' d' h' => ?_) fun _ _ _ h' => h'.1
  rw [wp_bind, wp_modify]
  refine after_of_keeps quiet_active.log ⟨?_, fun _ => ?_, fun hstage => ?_⟩
  · exact h'.1.keep rfl rfl rfl rfl rfl
  · rw [h'.2]
    exact ⟨hsold.valid, hsold.read⟩
  · cases hstage

theorem wp_purchaseStage (h : Active S run d) :
    (purchaseStage C).wp (alone C S) (After S) run d := by
  have hrefresh : Keeps (alone C S) (Active S) (onlyIf (run.mode = .live) do
      let providers ← await (.discover run.id)
      Method.modify fun run => { run with providers := providers }) := by
    refine Keeps.onlyIf (Keeps.bind (keeps_await fun _ _ _ h => h) fun _ => ?_)
    exact Keeps.modify fun run d h => h.keep (h.base.keep rfl rfl rfl rfl rfl) rfl rfl rfl rfl
  unfold purchaseStage
  rw [wp_bind, wp_self]
  simp only
  refine hrefresh.wp_bind h (fun _ run d h => ?_) fun _ _ _ h => h.base
  rw [wp_bind, wp_self]
  simp only
  refine keeps_findApproved.wp_bind h (fun approved run' d h => ?_) fun _ _ _ h => h.base
  split
  · exact wp_payForData h
  · split
    · exact wp_throw.2 h.base
    · exact after_of_keeps (Keeps.bind keeps_assessQuote fun _ => keeps_requestApproval) h

/-- The name of a record that the broker accepts. -/
theorem length_repo {x : Json} {e : RepoEvidence} (h : evidenceSchema S.toTexts x = true)
    (hread : readRecord x = some e) : e.repo.length ≤ 200 := by
  cases x with
  | obj fields =>
    simp only [evidenceSchema, Bool.and_eq_true] at h
    simp only [readRecord, Option.bind_eq_bind, Option.bind_eq_some_iff, Option.pure_def] at hread
    obtain ⟨repo, ⟨y, hy, hrepo⟩, _, _, _, _, _, _, _, _, _, _, _, _, he⟩ := hread
    obtain rfl := Option.some.inj he
    have hget : Json.get (js "repo") fields = some y := hy
    have hbroker := h.1.1.1.1.1.1.1.1.1.2
    rw [hget] at hbroker
    cases y with
    | str s =>
      obtain rfl := Option.some.inj hrepo
      simp only [textWith, isBrokerRepo, Bool.and_eq_true, decide_eq_true_eq] at hbroker
      exact hbroker.1.1.1.1
    | _ => cases hrepo
  | _ => cases h

/-- The records that are read have names that the broker accepts. -/
theorem names_of_records {records : List Json} {evidence : List RepoEvidence}
    (h : evidenceArray S.toTexts records = true) (hread : records.mapM readRecord = some evidence) :
    evidence.length ≤ 3 ∧ ∀ e ∈ evidence, e.repo.length ≤ 200 := by
  have hall : ∀ {records : List Json} {evidence : List RepoEvidence},
      records.all (evidenceSchema S.toTexts) = true → records.mapM readRecord = some evidence →
      evidence.length = records.length ∧ ∀ e ∈ evidence, e.repo.length ≤ 200 := by
    intro records
    induction records with
    | nil =>
      intro evidence _ hread
      rw [List.mapM_nil] at hread
      obtain rfl := Option.some.inj hread
      exact ⟨rfl, fun e he => absurd he List.not_mem_nil⟩
    | cons x records ih =>
      intro evidence hschema hread
      rw [List.all_cons, Bool.and_eq_true] at hschema
      simp only [List.mapM_cons, Option.bind_eq_bind, Option.bind_eq_some_iff,
        Option.pure_def] at hread
      obtain ⟨e, he, rest, hrest, heq⟩ := hread
      obtain rfl := Option.some.inj heq
      obtain ⟨hlength, hnames⟩ := ih hschema.2 hrest
      refine ⟨by rw [List.length_cons, List.length_cons, hlength], fun e' he' => ?_⟩
      rcases List.mem_cons.1 he' with rfl | he'
      · exact length_repo hschema.1 he
      · exact hnames e' he'
  rw [evidenceArray, Bool.and_eq_true, decide_eq_true_eq] at h
  obtain ⟨hlength, hnames⟩ := hall h.2 hread
  exact ⟨by omega, hnames⟩

/-- What the worker writes about the evidence of a run can be sent. -/
theorem length_written {evidence : List RepoEvidence} {summary : JsString} {records : List Json}
    (h : evidenceArray S.toTexts records = true) (hread : records.mapM readRecord = some evidence)
    (hwritten : Written C evidence summary) : 1 ≤ summary.length ∧ summary.length ≤ 12000 := by
  obtain ⟨content, -, hformat⟩ := hwritten
  obtain ⟨output, hparse, hcovers, -, rfl⟩ := formatWorkerReport_eq_ok.1 hformat
  obtain ⟨hcount, hnames⟩ := names_of_records h hread
  refine length_summary hparse hcovers (by rwa [List.length_map]) fun repo hrepo => ?_
  obtain ⟨e, he, rfl⟩ := List.mem_map.1 hrepo
  exact hnames e he

theorem wp_draftReport (h : Active S run d) (hstage : run.stage = .report) :
    (draftReport C).wp (alone C S) (After S) run d := by
  obtain ⟨hrecords, hread⟩ := h.bought (Or.inl hstage)
  unfold draftReport
  rw [wp_bind, wp_self]
  simp only
  rw [wp_bind, wp_await]
  rintro d₁ rfl r d₂ ⟨hwritten, rfl⟩
  refine ⟨trivial, ?_⟩
  cases r with
  | error e => exact h.base
  | ok summary =>
    simp only
    rw [wp_bind]
    refine wp_clock fun time hshown => ?_
    simp only
    rw [wp_bind, wp_modify]
    refine after_of_keeps quiet_active.log ⟨?_, fun _ => ⟨hrecords, hread⟩, fun _ => ?_⟩
    · exact h.base.keep rfl rfl rfl rfl rfl
    · exact ⟨_, rfl, rfl, rfl, length_written hrecords hread (hwritten summary rfl), hshown.1, rfl⟩

/-- The request of a run in its last stage is refused only for the title. -/
theorem Active.sends (h : Active S run d) (hstage : run.stage = .verification) {r : Report}
    (hr : run.report = some r) : Base S run { d with requests := d.requests ++ [verifyJson d.records {
      runId := run.id, requestId := run.id ++ js ":verify"
      maxAmountAtomic := run.mandate.verificationPrice, report := r
      mandateExpiresAt := run.mandate.expiresAt }] } := by
  refine ⟨h.base.titled, h.base.named, h.base.id, h.base.mandate, h.base.pending, fun body hbody => ?_⟩
  rcases List.mem_append.1 hbody with hbody | hbody
  · exact h.base.sent body hbody
  · obtain ⟨r', hr', htitle, -, hdrafted⟩ := h.drafted hstage
    obtain rfl := Option.some.inj (hr.symm.trans hr')
    rw [List.mem_singleton.1 hbody, ← h.base.titled, ← htitle]
    exact verifySchema_json h.base.id rfl h.base.mandate.expiresAt h.base.mandate.price hdrafted
      (h.bought (Or.inr hstage)).1

theorem wp_verifyReport (h : Active S run d) (hstage : run.stage = .verification) :
    (verifyReport C).wp (alone C S) (After S) run d := by
  unfold verifyReport
  rw [wp_bind, wp_self]
  simp only
  refine wp_bind.2 (wp_onlyIf (fun _ => wp_throw.2 h.base) fun _ => ?_)
  show Method.wp _ _ _ _ _
  split
  · exact wp_throw.2 h.base
  · rename_i report hreport
    have hsent := h.sends hstage hreport
    rw [wp_bind, wp_await]
    rintro d₁ rfl r d₂ hsem
    obtain rfl : d₂ = _ := hsem
    refine ⟨trivial, ?_⟩
    cases r with
    | error e => exact hsent
    | ok result =>
      simp only
      have hI : Keeps (alone C S) (Base S) (validateReceipt result.1 (run.id ++ js ":verify")
        (js "arc:testnet") run.mandate.verificationPrice) := keeps_validateReceipt
      refine hI.wp_bind hsent (fun _ run' d' h' => ?_) fun _ _ _ h' => h'
      rw [wp_bind, wp_modify]
      refine wp_bind.2 (wp_onlyIf (fun _ => wp_throw.2 ?_) fun _ => ?_)
      · exact h'.keep rfl rfl rfl rfl rfl
      · show Method.wp _ _ _ _ _
        rw [wp_bind, wp_modify]
        refine wp_bind.2 (wp_onlyIf (fun _ => wp_throw.2 ?_) fun _ => ?_)
        · exact h'.keep rfl rfl rfl rfl rfl
        · show Method.wp _ _ _ _ _
          rw [wp_bind, wp_modify]
          refine after_of_keeps quiet_active.log (Active.early ?_ ?_ ?_)
          · exact h'.keep rfl rfl rfl rfl rfl
          · intro hstage; cases hstage
          · intro hstage; cases hstage

/-- A method that only looks at the run. -/
theorem wp_look {α β : Type} {m : Engine α} {f : α → Engine β}
    {Q : Except JsError β → Run → Exchange → Prop}
    (hm : Keeps (alone C S) (fun run' d' => run' = run ∧ d' = d) m)
    (hf : ∀ a, (f a).wp (alone C S) Q run d) (he : ∀ e, Q (.error e) run d) :
    (m >>= f).wp (alone C S) Q run d := by
  refine hm.wp_bind ⟨rfl, rfl⟩ ?_ ?_
  · rintro a _ _ ⟨rfl, rfl⟩
    exact hf a
  · rintro e _ _ ⟨rfl, rfl⟩
    exact he e

theorem wp_advanceStage (h : Active S run d) :
    (advanceStage C).wp (alone C S) (After S) run d := by
  unfold advanceStage
  rw [wp_bind, wp_self]
  simp only
  refine wp_look keeps_isPast (fun expired => ?_) fun _ => h.base
  refine wp_look keeps_refuse (fun _ => ?_) fun _ => h.base
  split
  · exact after_of_keeps keeps_acceptMandate h
  · exact after_of_keeps keeps_discoverServices h
  · exact wp_purchaseStage h
  · rename_i hstage
    exact wp_draftReport h hstage
  · rename_i hstage
    exact wp_verifyReport h hstage
  · exact wp_pure.2 h

/-! ### The actions -/

/-- A run that goes on. -/
theorem Active.held {status : RunStatus} (h : Active S run d) :
    Held S { run with status := status } d := by
  have hbase : Base S { run with status := status } d := h.base.keep rfl rfl rfl rfl rfl
  exact ⟨hbase, fun _ => h.keep hbase rfl rfl rfl rfl⟩

theorem wp_advanceRun (h : Held S run d) :
    (advanceRun C).wp (alone C S) (fun _ => Held S) run d := by
  unfold advanceRun
  refine wp_look keeps_live (fun _ => ?_) fun _ => h
  rw [wp_bind, wp_self]
  simp only
  refine wp_ite (fun _ => wp_pure.2 h) fun hrests => ?_
  have hactive := h.active fun hfailed => hrests (Or.inr (Or.inl hfailed))
  have hrunning : Active S { run with status := .running } d :=
    hactive.keep (h.base.keep rfl rfl rfl rfl rfl) rfl rfl rfl rfl
  rw [wp_bind, wp_modify]
  refine wp_tryCatch.2 (wp_mono (wp_advanceStage hrunning) fun r run' d' hafter => ?_)
  cases r with
  | ok a => exact ⟨hafter.base, fun _ => hafter⟩
  | error e =>
    simp only
    unfold stopRun
    rw [wp_bind, wp_modify]
    refine quiet_held.log _ _ ⟨?_, fun hs => absurd rfl hs⟩
    exact Base.keep hafter rfl rfl rfl rfl rfl

theorem wp_applyShock {liveQuotes : Option (List Provider)} (h : Held S run d) :
    (applyShock C liveQuotes).wp (alone C S) (fun _ => Held S) run d := by
  unfold applyShock
  refine wp_look keeps_live (fun _ => ?_) fun _ => h
  rw [wp_bind, wp_self]
  simp only
  refine wp_look keeps_refuse (fun _ => ?_) fun _ => h
  refine wp_look keeps_refuse (fun _ => ?_) fun _ => h
  rw [wp_bind, wp_modify]
  have hbase : Base S { run with providers := liveQuotes.getD [], shockApplied := true } d :=
    h.base.keep rfl rfl rfl rfl rfl
  refine quiet_held.log _ _ ⟨hbase, fun hs => (h.active hs).keep hbase rfl rfl rfl rfl⟩

theorem keeps_checkSignature {a : ApprovalRequest} {signature : Option JsString} :
    Keeps (alone C S) I (checkSignature C a signature) := by
  refine Keeps.bind keeps_refuse fun _ => ?_
  split
  · exact Keeps.throw _
  · exact Keeps.bind (Keeps.ofExcept _) fun _ => keeps_refuse

theorem wp_approveRun {signature : Option JsString} (h : Held S run d) :
    (approveRun C signature).wp (alone C S) (fun _ => Held S) run d := by
  unfold approveRun
  refine wp_look keeps_live (fun _ => ?_) fun _ => h
  rw [wp_bind, wp_self]
  simp only
  split
  · exact wp_throw.2 h
  · rename_i a happroval
    refine wp_bind.2 (wp_onlyIf (fun _ => wp_throw.2 h) fun hwaiting => ?_)
    rw [ne_eq, not_not] at hwaiting
    have hactive := h.active fun hfailed => by rw [hwaiting] at hfailed; cases hfailed
    show Method.wp _ _ _ _ _
    refine wp_look keeps_isPast (fun expired => ?_) fun _ => h
    refine wp_look keeps_refuse (fun _ => ?_) fun _ => h
    refine wp_look keeps_refuse (fun _ => ?_) fun _ => h
    refine wp_look (Keeps.onlyIf keeps_checkSignature) (fun _ => ?_) fun _ => h
    refine wp_look keeps_now (fun verifiedAt => ?_) fun _ => h
    rw [wp_bind, wp_modify]
    refine quiet_held.log _ _ ⟨?_, fun _ => ?_⟩
    · exact ⟨h.base.titled, h.base.named, h.base.id, h.base.pending a happroval,
        fun _ hnone => (by cases hnone), h.base.sent⟩
    · refine hactive.keep ?_ rfl rfl rfl rfl
      exact ⟨h.base.titled, h.base.named, h.base.id, h.base.pending a happroval,
        fun _ hnone => (by cases hnone), h.base.sent⟩

theorem wp_pauseRun (h : Held S run d) :
    (pauseRun C).wp (alone C S) (fun _ => Held S) run d := by
  unfold pauseRun
  refine wp_look keeps_live (fun _ => ?_) fun _ => h
  rw [wp_bind, wp_self]
  simp only
  refine wp_bind.2 (wp_onlyIf (fun _ => wp_throw.2 h) fun hstatus => ?_)
  have hactive := h.active fun hfailed => hstatus (by rw [hfailed]; exact List.mem_cons_self)
  show Method.wp _ _ _ _ _
  rw [wp_bind, wp_modify]
  exact quiet_held.log _ _ hactive.held

/-- Every action keeps what a run keeps. -/
theorem wp_action (a : RunAction) (h : Held S run d) :
    (a.run C).wp (alone C S) (fun _ => Held S) run d := by
  cases a with
  | advance => exact wp_advanceRun h
  | approve signature => exact wp_approveRun h
  | pause => exact wp_pauseRun h
  | shock liveQuotes => exact wp_applyShock h

/-! ### Runs -/

/-- The names of the repositories of a new run. -/
theorem named_of_valid {input : RunInput} (hvalid : input.valid C.toPlatform = true) :
    (1 ≤ input.repos.length ∧ input.repos.length ≤ 3) ∧
      ∀ repo ∈ input.repos, (repoName repo).length ≤ 100 := by
  simp only [RunInput.valid, Bool.and_eq_true, decide_eq_true_eq] at hvalid
  obtain ⟨⟨⟨⟨⟨⟨⟨⟨hlength, hrepos⟩, -⟩, -⟩, -⟩, -⟩, -⟩, -⟩, -⟩ := hvalid
  refine ⟨hlength, fun repo hrepo => ?_⟩
  have hname := List.all_eq_true.1 hrepos repo hrepo
  simp only [Runs.isRepo, isRepoPart, Bool.and_eq_true, decide_eq_true_eq] at hname
  exact hname.2.1.2

theorem isCount_natCast {n : ℕ} (h : n < 2 ^ 53) : isCount (some (.num n)) = true := by
  simp only [isCount, Rat.den_natCast, Rat.num_natCast, Bool.and_eq_true, beq_self_eq_true,
    true_and]
  exact decide_eq_true ⟨by omega, by omega⟩

/-- The mandate of a new run can be sent. -/
theorem Sendable.new (hdates : ∀ s, C.isDatetime s = true → S.isDatetime s = true)
    {input : RunInput} (hvalid : input.valid C.toPlatform = true) {time : ℤ}
    (hshown : Shown C S time) : Sendable S (input.mandate (C.isoString (time + 3600000))) := by
  simp only [RunInput.valid, Bool.and_eq_true] at hvalid
  obtain ⟨⟨-, hexpiry⟩, hservice⟩ := hvalid
  constructor
  · show S.isDatetime (input.expiresAt.getD _) = true
    cases he : input.expiresAt with
    | none => exact hshown.2
    | some s =>
      rw [he] at hexpiry
      exact hdates s hexpiry
  · show isCount (some (.num (Mandate.verificationPrice _))) = true
    unfold Mandate.verificationPrice
    dsimp only [RunInput.mandate]
    cases hs : input.verificationService with
    | none => rfl
    | some service =>
      rw [hs] at hservice
      simp only [Option.all_some, VerificationService.valid, Bool.and_eq_true,
        decide_eq_true_eq] at hservice
      obtain ⟨⟨⟨-, hprice⟩, -⟩, -⟩ := hservice
      exact isCount_natCast (by omega)

theorem wp_createRun (hdates : ∀ s, C.isDatetime s = true → S.isDatetime s = true)
    {input : RunInput} : (createRun C input).wp (alone C S)
      (fun r d => ∀ run, r = .ok run → Held S run d) ⟨[], []⟩ := by
  have hnow : ∀ {d : Exchange} {Q : Except JsError ℤ → Exchange → Prop},
      (∀ time, Shown C S time → Q (.ok time) d) → (Runs.perform .now).wp (alone C S) Q d := by
    intro d Q hQ
    unfold Runs.perform
    rw [Prog.wp_await]
    rintro d₁ rfl r d₂ ⟨⟨time, rfl, hshown⟩, rfl⟩
    exact ⟨trivial, hQ time hshown⟩
  unfold createRun
  refine Prog.wp_ite (fun _ => Prog.wp_throw.2 fun _ h => (by cases h)) fun hvalid => ?_
  rw [Prog.wp_bind]
  refine hnow fun now _ => ?_
  show Prog.wp _ _ _ _
  rw [Prog.wp_bind]
  refine hnow fun hour hshown => ?_
  show Prog.wp _ _ _ _
  rw [Prog.wp_bind]
  refine hnow fun early _ => ?_
  show Prog.wp _ _ _ _
  rw [Prog.wp_bind]
  refine hnow fun late _ => ?_
  refine Prog.wp_ite (fun _ => Prog.wp_throw.2 fun _ h => (by cases h)) fun _ => ?_
  unfold Runs.perform
  rw [Prog.wp_bind, Prog.wp_await]
  rintro d₁ rfl r d₂ ⟨⟨id, rfl, hid⟩, rfl⟩
  refine ⟨trivial, ?_⟩
  show Prog.wp _ _ _ _
  have hbase : Base S (input.run id (C.isoString now)
      (input.mandate (C.isoString (hour + 3600000)))) ⟨[], []⟩ := by
    have hvalid : input.valid C.toPlatform = true := by simpa using hvalid
    refine ⟨rfl, named_of_valid hvalid, hid, Sendable.new hdates hvalid hshown, ?_, ?_⟩
    · intro a ha
      cases ha
    · exact fun body hbody => absurd hbody List.not_mem_nil
  refine Method.wp_call (wp_mono (quiet_active.log _ _ (Active.early hbase ?_ ?_)) ?_)
  · intro hstage; cases hstage
  · intro hstage; cases hstage
  · intro r run' d' hactive
    show Prog.wp _ (Prog.ofExcept r >>= _) _ _
    rw [Prog.wp_bind, Prog.wp_ofExcept]
    cases r with
    | error e => exact fun _ h => (by cases h)
    | ok a =>
      refine Prog.wp_pure.2 fun run h => ?_
      obtain rfl := Except.ok.inj h
      exact ⟨hactive.base, fun _ => hactive⟩

/-! ### Reading back -/

namespace Reordered

variable {x y : Json}

theorem prop_eq (h : Reordered x y) (key : String) : x.prop key = y.prop key := by
  obtain ⟨fields, fields', rfl, rfl, hperm, hnodup⟩ := h
  exact get_perm hnodup hperm

theorem evidenceSchema_eq (h : Reordered x y) (T : Texts) : evidenceSchema T x = evidenceSchema T y := by
  have hget := h.prop_eq
  obtain ⟨fields, fields', rfl, rfl, hperm, hnodup⟩ := h
  have hkeys : (fields.all fun field => (evidenceKeys.map js).contains field.1) =
      fields'.all fun field => (evidenceKeys.map js).contains field.1 := by
    rw [Bool.eq_iff_iff, List.all_eq_true, List.all_eq_true]
    exact forall_congr' fun field => imp_congr_left hperm.mem_iff
  have hfield : ∀ key : String, Json.get (js key) fields = Json.get (js key) fields' := hget
  simp only [evidenceSchema, hkeys, hfield]

theorem readRecord_eq (h : Reordered x y) : readRecord x = readRecord y := by
  simp only [readRecord, h.prop_eq]

end Reordered

theorem mapM_reordered {records records' : List Json} (h : List.Forall₂ Reordered records records') :
    records.mapM readRecord = records'.mapM readRecord := by
  induction h with
  | nil => rfl
  | cons hxy _ ih => rw [List.mapM_cons, List.mapM_cons, hxy.readRecord_eq, ih]

theorem evidenceArray_reordered {records records' : List Json} {T : Texts}
    (h : List.Forall₂ Reordered records records') : evidenceArray T records = evidenceArray T records' := by
  have hall : records.all (evidenceSchema T) = records'.all (evidenceSchema T) := by
    induction h with
    | nil => rfl
    | cons hxy _ ih => rw [List.all_cons, List.all_cons, hxy.evidenceSchema_eq, ih]
  rw [evidenceArray, evidenceArray, hall, h.length_eq]

theorem Active.stored (h : Active S run d) {records : List Json}
    (hrecords : List.Forall₂ Reordered d.records records) :
    Active S run { d with records := records } where
  base := h.base.records records
  bought hstage := by
    obtain ⟨hvalid, hread⟩ := h.bought hstage
    rw [evidenceArray_reordered hrecords] at hvalid
    rw [mapM_reordered hrecords] at hread
    exact ⟨hvalid, hread⟩
  drafted := h.drafted

/-- **Run lemma.**  What a run keeps. -/
theorem Reached.held (hdates : ∀ s, C.isDatetime s = true → S.isDatetime s = true)
    (h : Reached C S run d) : Held S run d := by
  induction h with
  | created made => exact Prog.wp_pure.1 (made.wp (wp_createRun hdates)) _ rfl
  | acted action before done ih => exact Prog.wp_pure.1 (done.wp (wp_action action ih))
  | stored before reordered ih =>
    refine ⟨quiet_base.logged _ _ (ih.base.records _), fun hs => ?_⟩
    exact quiet_active.logged _ _ ((ih.active hs).stored reordered)

/-! ### Titles -/

/-- The length of all names of repositories. -/
def namesLength (repos : List JsString) : ℕ := (repos.map fun repo => (repoName repo).length).sum

theorem length_title {repos : List JsString} (h : 1 ≤ repos.length) :
    (title repos).length = 8 + namesLength repos + 2 * (repos.length - 1) := by
  have hjoin : ∀ {l : List JsString}, 1 ≤ l.length →
      (List.intercalate (js ", ") l).length = (l.map List.length).sum + 2 * (l.length - 1) := by
    intro l
    induction l with
    | nil => exact fun h => absurd h (by decide)
    | cons a l ih =>
      intro _
      cases l with
      | nil => simp
      | cons b l =>
        have hcons : List.intercalate (js ", ") (a :: b :: l) =
            a ++ (js ", " ++ List.intercalate (js ", ") (b :: l)) := by
          simp [List.intercalate]
        have hcomma : (js ", ").length = 2 := rfl
        have hrest := ih (Nat.succ_le_succ (Nat.zero_le _))
        rw [hcons, List.length_append, List.length_append, hcomma, hrest]
        simp only [List.map_cons, List.sum_cons, List.length_cons]
        omega
  have hcompare : (js "Compare ").length = 8 := rfl
  rw [title, List.length_append, hcompare, hjoin (by rwa [List.length_map]), List.length_map,
    List.map_map, namesLength]
  exact (Nat.add_assoc _ _ _).symm

/-- A title is too long only for three repositories with long names. -/
theorem title_fits_iff {repos : List JsString} (h : 1 ≤ repos.length ∧ repos.length ≤ 3)
    (hnames : ∀ repo ∈ repos, (repoName repo).length ≤ 100) :
    (title repos).length ≤ 300 ↔ ¬ (repos.length = 3 ∧ 288 < namesLength repos) := by
  have hsum : namesLength repos ≤ repos.length * 100 := by
    have hle := List.sum_le_card_nsmul (repos.map fun repo => (repoName repo).length) 100
      (by simpa using hnames)
    rwa [List.length_map] at hle
  rw [length_title h.1]
  omega

/-- A request that is accepted has a report that is. -/
theorem report_of_verifySchema {body : Json} (h : verifySchema S body = true) :
    (body.prop "report").any (reportSchema S) = true := by
  cases body with
  | obj fields =>
    simp only [verifySchema, Bool.and_eq_true] at h
    exact h.1.2
  | _ => cases h

/-- **Requests for a verification.**  The broker accepts the requests of a run, with their reports,
exactly if the run is not for three repositories whose names have more than 288 characters. -/
theorem verification_accepted_iff (hdates : ∀ s, C.isDatetime s = true → S.isDatetime s = true)
    (h : Reached C S run d) : ∀ body ∈ d.requests,
      (verifySchema S body = true ∧ (body.prop "report").any (reportSchema S) = true) ↔
        ¬ (run.repos.length = 3 ∧ 288 < namesLength run.repos) := by
  intro body hbody
  have hbase := (h.held hdates).base
  rw [← title_fits_iff hbase.named.1 hbase.named.2, ← hbase.sent body hbody]
  exact ⟨fun h => h.1, fun h => ⟨h, report_of_verifySchema h⟩⟩

/-! ### Two runs -/

namespace Demo

/-- A platform on which all events have one hash. -/
def platform : Platform := { Platform.plain with
  sha := ⟨fun _ => js "hash", fun _ h => absurd (congrArg List.length h) (by decide)⟩ }

def context : Context := platform.withFile ⟨none, none⟩

/-- Schemas that take every text for a date. -/
def schemas : Schemas where
  host := .plain
  toLowerCase := JsString.toLowerCase
  isDatetime _ := true
  isMarket _ := false

/-- A record of evidence. -/
def record (repo : JsString) : Json :=
  .obj [(js "repo", .str repo), (js "description", .str []), (js "stars", .num 5),
    (js "forks", .num 2), (js "openIssues", .num 1), (js "pushedAt", .str (js "now")),
    (js "language", .str []), (js "license", .str []), (js "sourceUrl", .str (sourceUrl repo)),
    (js "fetchedAt", .str (js "now"))]

/-- What the worker answers for the repositories. -/
def content (repos : List JsString) : JsString :=
  stringify Platform.plain.host.numerals (.obj [(js "analysis", .str (js "Active.")),
    (js "repositories", .arr (repos.map fun repo => .obj [(js "repo", .str repo),
      (js "stars", .num 5), (js "forks", .num 2), (js "openIssues", .num 1)]))])

def provider : Provider where
  id := js "repo-standard"
  name := js "Standard"
  network := js "hedera:testnet"
  asset := js "HBAR"
  unitPriceAtomic := 100000

def receipt (p : DataPurchase) : Receipt where
  requestId := p.requestId
  mode := js "live"
  network := js "hedera:testnet"
  asset := js "HBAR"
  amountAtomic := p.maxAmountAtomic
  status := js "settled"
  transactionId := some (js "transaction")

/-- Whether the broker sells the records for a purchase. -/
def sells (p : DataPurchase) (records : List Json) : Bool :=
  dataSchema schemas (dataJson p) && evidenceArray schemas.toTexts records &&
    brokerCovers p.repos records

/-- Answers to the effects; the last one fails when its request was sent. -/
def respond (d : Exchange) : (o : Runs.Effect) → Except JsError (Runs.Answer o) × Exchange
  | .now => (.ok 0, d)
  | .randomUUID => (.ok (js "a"), d)
  | .discover _ => (.ok [provider], d)
  | .purchaseData p =>
    let records := p.repos.map record
    match records.mapM readRecord with
    | some evidence =>
      if sells p records then (.ok (evidence, receipt p), { d with records := records })
      else (.error .other, d)
    | none => (.error .other, d)
  | .generateReport _ evidence =>
    let repos := evidence.map RepoEvidence.repo
    if (content repos).length ≤ 12000 then
      (formatWorkerReport context.readNumber (content repos) repos, d)
    else (.error .other, d)
  | .verify p => (.error .other, { d with requests := d.requests ++ [verifyJson d.records p] })
  | _ => (.error .other, d)

theorem respond_served (d : Exchange) (o : Runs.Effect) :
    served context schemas d o (respond d o).1 (respond d o).2 := by
  cases o with
  | now => exact ⟨⟨0, rfl, rfl, rfl⟩, rfl⟩
  | randomUUID => exact ⟨⟨_, rfl, by decide⟩, rfl⟩
  | purchaseData p =>
    simp only [respond]
    split
    · rename_i evidence hread
      split
      · rename_i hsells
        simp only [sells, Bool.and_eq_true] at hsells
        exact Or.inr ⟨evidence, _, _, rfl, ⟨hsells.1.1, hsells.1.2, hsells.2, hread⟩, rfl⟩
      · exact Or.inl ⟨⟨_, rfl⟩, rfl⟩
    · exact Or.inl ⟨⟨_, rfl⟩, rfl⟩
  | generateReport runId evidence =>
    simp only [respond]
    split
    · rename_i hlength
      exact ⟨fun summary h => ⟨_, hlength, h⟩, rfl⟩
    · exact ⟨fun summary h => (by cases h), rfl⟩
  | _ => rfl

/-- The run for the repositories after so many steps. -/
def after (repos : List JsString) : ℕ → Option (Run × Exchange)
  | 0 =>
    match (createRun context ⟨repos, none, none, none, none, none, none⟩).exec respond ⟨[], []⟩ with
    | (.ok run, d) => some (run, d)
    | (.error _, _) => none
  | n + 1 =>
    match after repos n with
    | none => none
    | some (run, d) =>
      match (RunAction.advance.run context run).exec respond d with
      | (.ok (_, run), d) => some (run, d)
      | (.error _, _) => none

theorem reached {repos : List JsString} {n : ℕ} {run : Run} {d : Exchange}
    (h : after repos n = some (run, d)) : Reached context schemas run d := by
  induction n generalizing run d with
  | zero =>
    have hexec := Prog.Reaches.exec respond_served
      (createRun context ⟨repos, none, none, none, none, none, none⟩) ⟨[], []⟩
    unfold after at h
    split at h
    · rename_i run' d' heq
      cases h
      rw [heq] at hexec
      exact .created hexec
    · cases h
  | succ n ih =>
    unfold after at h
    split at h
    · cases h
    · rename_i run' d' hbefore
      have hexec := Prog.Reaches.exec respond_served (RunAction.advance.run context run') d'
      split at h
      · rename_i r run'' d'' heq
        cases h
        rw [heq] at hexec
        exact .acted .advance (ih hbefore) hexec
      · cases h

/-- The name of a repository with a name of this length. -/
def repo (owner : String) (length : ℕ) : JsString := js owner ++ 47 :: List.replicate length 97

def short : List JsString := [repo "a" 5]

def long : List JsString := [repo "a" 97, repo "b" 97, repo "c" 97]

/-- The run for the repositories has sent a request. -/
def sent (repos : List JsString) : Bool :=
  (after repos 5).any fun p => decide (p.1.repos = repos) && decide (p.2.requests ≠ [])

theorem sent_iff {repos : List JsString} (h : sent repos = true) :
    ∃ run d body, Reached context schemas run d ∧ run.repos = repos ∧ body ∈ d.requests := by
  obtain ⟨⟨run, d⟩, hafter, hp⟩ := Option.any_eq_true _ _ |>.1 h
  rw [Bool.and_eq_true, decide_eq_true_eq, decide_eq_true_eq] at hp
  obtain ⟨body, hbody⟩ := List.exists_mem_of_ne_nil _ hp.2
  exact ⟨run, d, body, reached hafter, hp.1, hbody⟩

end Demo

/-- The request for a repository with a short name is accepted. -/
theorem verification_accepted_short : ∃ run d body,
    Reached Demo.context Demo.schemas run d ∧ run.repos = Demo.short ∧ body ∈ d.requests ∧
      verifySchema Demo.schemas body = true := by
  have hsent : Demo.sent Demo.short = true := by decide +kernel
  obtain ⟨run, d, body, hreached, hrepos, hbody⟩ := Demo.sent_iff hsent
  have hiff := verification_accepted_iff (fun _ _ => rfl) hreached body hbody
  refine ⟨run, d, body, hreached, hrepos, hbody, (hiff.2 ?_).1⟩
  rw [hrepos]
  decide

/-- The request for three repositories with long names is refused, after the data was paid for. -/
theorem long_title_refused : ∃ run d body,
    Reached Demo.context Demo.schemas run d ∧ run.repos = Demo.long ∧ body ∈ d.requests ∧
      verifySchema Demo.schemas body = false := by
  have hsent : Demo.sent Demo.long = true := by decide +kernel
  obtain ⟨run, d, body, hreached, hrepos, hbody⟩ := Demo.sent_iff hsent
  refine ⟨run, d, body, hreached, hrepos, hbody, ?_⟩
  have hlong : ¬ (title Demo.long).length ≤ 300 := by decide +kernel
  have hbase := (hreached.held fun _ _ => rfl).base
  rw [← Bool.not_eq_true, hbase.sent body hbody, hrepos]
  exact hlong

end Broker

end Obolos
