import Obolos.Economy.ProviderInvariant

/-!
# Every run of the queue

The two functions are verified call by call against what the others may do meanwhile (`Keeps`), and
every statement of theirs is a `Step`.  A job that was read keeps its identity (`Seen`), and what
was final stays final, so what was checked before a long chain lookup is still true after it.
-/

namespace Obolos

namespace Provider

open Market (Log)
open Prog (post wp_seq wp_post_mono wp_await wp_ite wp_pure wp_throw wp_mono)
open ServiceDefinition (distinct_of_validate)

variable {ι : Type} {H : Host} {C : Config} {J : Jsonb} {chain : Chain}

/-- What the calls rely on, and what they guarantee. -/
def protocol (ι : Type) (H : Host) (C : Config) (chain : Chain) : Protocol ι JobDb where
  inv := Inv H C chain
  rely _ d d' := Keeps H C chain d d'
  guar _ d d' := Step H C chain d d'

/-- What the calls of process `i` are verified against. -/
abbrev spec (H : Host) (C : Config) (J : Jsonb) (chain : Chain) (i : ι) :
    Prog.Spec JobDb Effect Answer ApiError :=
  (protocol ι H C chain).spec (system H C J chain) i

/-- The others keep a condition. -/
def Stable (H : Host) (C : Config) (chain : Chain) (I : JobDb → Prop) : Prop :=
  ∀ d d', Keeps H C chain d d' → I d → I d'

variable {i : ι} {d : JobDb} {α β : Type} {I : JobDb → Prop} {service : ServiceDefinition}
  {request : ServiceRequest} {orderId outputHash attestationHash requestHash : Bytes32}
  {token : JsString} {job : JobRow} {output : Json}

theorem stable_inv : Stable H C chain (Inv H C chain) := fun _ _ h _ => h.inv

/-- What is final stays final. -/
theorem Stable.final (hstable : Stable H C chain I) (n : ℕ) :
    Stable H C chain fun d => I d ∧ n ≤ d.final :=
  fun d d' h hI => ⟨hstable d d' h hI.1, hI.2.trans h.final⟩

/-! ### One effect -/

/-- An effect from a condition that the others keep. -/
theorem wp_perform {o : Effect} {P : Answer o → JobDb → Prop} (hI : I d)
    (hstable : Stable H C chain I)
    (h : ∀ d r d', I d → sem J chain d o r d' →
      Step H C chain d d' ∧ ∀ a, r = .ok a → P a d') :
    (perform o).wp (spec H C J chain i) (post I P) d := by
  refine wp_await.2 fun d₁ hrely r d₂ hsem => ?_
  have hI₁ := hstable d d₁ hrely hI
  obtain ⟨hstep, hP⟩ := h d₁ r d₂ hI₁ hsem
  refine ⟨hstep, ?_⟩
  have hI₂ := hstable d₁ d₂ hstep.keeps hI₁
  cases r with
  | ok a => exact ⟨hI₂, hP a rfl⟩
  | error e => exact hI₂

/-- An effect that leaves the table alone. -/
theorem wp_read {o : Effect} {P : Answer o → JobDb → Prop} (hI : I d)
    (hinv : ∀ d, I d → Inv H C chain d) (hstable : Stable H C chain I)
    (h : ∀ d r d', I d → sem J chain d o r d' → d' = d ∧ ∀ a, r = .ok a → P a d) :
    (perform o).wp (spec H C J chain i) (post I P) d := by
  refine wp_perform hI hstable fun d r d' hI hsem => ?_
  obtain ⟨rfl, hP⟩ := h d r d' hI hsem
  exact ⟨.refl (hinv _ hI), hP⟩

section Chain

variable (hI : I d) (hinv : ∀ d, I d → Inv H C chain d) (hstable : Stable H C chain I)

include hI hinv hstable

theorem wp_getChainId :
    (perform .getChainId).wp (spec H C J chain i) (post I fun _ _ => True) d :=
  wp_read hI hinv hstable fun _ _ _ _ hsem => ⟨hsem, fun _ _ => trivial⟩

theorem wp_dateNow : (perform .dateNow).wp (spec H C J chain i) (post I fun _ _ => True) d :=
  wp_read hI hinv hstable fun _ _ _ _ hsem => ⟨hsem, fun _ _ => trivial⟩

theorem wp_getTransactionReceipt {hash : Bytes32} :
    (perform (.getTransactionReceipt hash)).wp (spec H C J chain i)
      (post I fun (receipt : TransactionReceipt) _ => receipt.transactionHash = hash ∧
        ∀ block, receipt.blockHash = some block → chain.mined block receipt) d :=
  wp_read hI hinv hstable fun _ _ _ _ hsem => hsem

theorem wp_getFinalizedBlock :
    (perform .getFinalizedBlock).wp (spec H C J chain i)
      (post I fun (block : Block) d => ∀ number, block.number = some number →
        number ≤ d.final) d :=
  wp_read hI hinv hstable fun _ _ _ _ hsem => hsem

theorem wp_getBlock {n : ℕ} :
    (perform (.getBlock n)).wp (spec H C J chain i)
      (post I fun (block : Block) d => n ≤ d.final → block.hash = some (chain.block n)) d :=
  wp_read hI hinv hstable fun _ _ _ _ hsem => hsem

theorem wp_selectDefinition {serviceHash : Bytes32} :
    (perform (.selectDefinition serviceHash)).wp (spec H C J chain i)
      (post I fun (definition : Option Json) _ => ∀ x, definition = some x → x.Distinct) d :=
  wp_read hI hinv hstable fun _ _ _ _ hsem => ⟨hsem.1, fun _ ha x hx => hsem.2 x (hx ▸ ha)⟩

end Chain

theorem wp_check {x : Except JsError α} (hI : I d) :
    (check x).wp (spec H C J chain i) (post I fun a _ => x = .ok a) d :=
  Prog.wp_ofExcept_post hI fun _ ha => ApiError.lift_ok.1 ha

/-- `if(bad) throw …;` before the rest of a function. -/
theorem wp_throwIf {bad : Prop} [Decidable bad] {e : ApiError} {f : β → Exec α} {p : Exec α}
    {P : α → JobDb → Prop} (hI : I d)
    (hp : ¬ bad → p.wp (spec H C J chain i) (post I P) d) :
    (if bad then (throw e : Exec β) >>= f else p).wp (spec H C J chain i) (post I P) d :=
  wp_ite (fun _ => wp_seq (P := fun _ _ => False) (wp_throw.2 hI) (fun _ h => h)
    fun _ _ _ h => h.elim) hp

/-- The same at the end of a function. -/
theorem wp_throwIf_end {bad : Prop} [Decidable bad] {e : ApiError} {P : Prop} (hI : I d)
    (hp : ¬ bad → P) :
    (if bad then throw e else pure () : Exec Unit).wp (spec H C J chain i)
      (post I fun _ _ => P) d :=
  wp_ite (fun _ => wp_throw.2 hI) fun h => wp_pure.2 ⟨hI, hp h⟩

/-! ### Queueing -/

theorem wp_compareSchema {schema expected : Json} (hI : I d) :
    (compareSchema H schema expected).wp (spec H C J chain i)
      (post I fun _ _ => SameHash H schema expected) d := by
  unfold compareSchema
  refine wp_seq (wp_check hI) (fun _ h => h) fun a d hI ha => ?_
  refine wp_seq (wp_check hI) (fun _ h => h) fun b d hI hb => ?_
  refine wp_throwIf_end hI fun h => ?_
  obtain rfl := not_not.1 h
  exact ⟨a, ha, hb⟩

theorem wp_validateProviderBinding {category : ResourceCategory} (hI : I d) :
    (validateProviderBinding H C service category).wp (spec H C J chain i)
      (post I fun _ _ => Offers H C service) d := by
  unfold validateProviderBinding
  cases hdeployment : C.deployment with
  | none => exact wp_throw.2 hI
  | some deployment =>
    refine wp_throwIf hI fun hoffer => ?_
    have hoffer := not_not.1 hoffer
    obtain rfl : service.category = category := hoffer.2.2.2.1
    refine wp_seq (wp_compareSchema hI) (fun _ h => h) fun _ d hI hinput => ?_
    refine wp_post_mono (wp_compareSchema hI) (fun _ h => h) fun _ _ _ houtput => ?_
    exact ⟨⟨deployment, hdeployment, hoffer⟩, hinput, houtput⟩

/-- A receipt of a canonical block up to the final one. -/
theorem final_of_canonical {receipt : TransactionReceipt} {block : Block}
    (hle : receipt.blockNumber ≤ d.final) (hblock : block.hash = some (chain.block receipt.blockNumber))
    (hsame : block.hash = receipt.blockHash)
    (hmined : ∀ hash, receipt.blockHash = some hash → chain.mined hash receipt) :
    chain.Final d.final receipt :=
  ⟨hle, hsame ▸ hblock, hmined _ (hsame ▸ hblock)⟩

theorem wp_paidBlock (hI : I d) (hinv : ∀ d, I d → Inv H C chain d)
    (hstable : Stable H C chain I) :
    (paidBlock H service request).wp (spec H C J chain i)
      (post I fun _ d => IsPaid H chain d.final service request) d := by
  unfold paidBlock
  refine wp_seq (wp_getChainId hI hinv hstable) (fun _ h => h) fun chainId d hI _ => ?_
  refine wp_seq (wp_getTransactionReceipt hI hinv hstable) (fun _ h => h)
    fun receipt d hI hreceipt => ?_
  refine wp_seq (wp_getFinalizedBlock hI hinv hstable) (fun _ h => h)
    fun finalized d hI hfinal => ?_
  refine wp_throwIf hI fun hnumber => ?_
  have hle : receipt.blockNumber ≤ d.final := by
    cases hn : finalized.number with
    | none => simp [hn] at hnumber
    | some number =>
      simp only [hn, Option.all_some, decide_eq_true_eq, not_lt, gt_iff_lt] at hnumber
      exact hnumber.trans (hfinal number hn)
  -- From here on the height of the receipt is known to be final.
  refine wp_seq (wp_check (I := fun d => I d ∧ receipt.blockNumber ≤ d.final) ⟨hI, hle⟩)
    (fun _ h => h.1) fun v d hI' hv => ?_
  refine wp_seq (wp_getBlock hI' (fun d h => hinv d h.1) (hstable.final _)) (fun _ h => h.1)
    fun block d hI' hblock => ?_
  refine wp_throwIf hI'.1 fun hsame => wp_pure.2 ⟨hI'.1, ?_⟩
  exact ⟨receipt, chainId, v, final_of_canonical hI'.2 (hblock hI'.2) (not_not.1 hsame) hreceipt.2,
    hreceipt.1, hv⟩

/-- The job of the response is completed, with its output. -/
def Finished (response : ServiceResponse) (d : JobDb) : Prop :=
  ∃ row, d.jobs.get response.orderId = some row ∧ row.state = .completed ∧
    row.output = some response.output ∧ row.outputHash = some response.outputHash

/-- What is answered to a buyer's platform: it accepts the response, which is the output of the
job. -/
structure Answered (H : Host) (C : Config) (value : Json) (response : ServiceResponse)
    (d : JobDb) : Prop where
  terms : ∃ service request, ServiceRequest.parse H value = .ok request ∧
    request.check H service = .ok () ∧ Offers H C service ∧
    ServiceResponse.accept H service request response.json = .ok response
  finished : Finished response d

theorem Finished.stable {response : ServiceResponse} {d d' : JobDb} (h : Finished response d)
    (hkeeps : Keeps H C chain d d') : Finished response d' := by
  obtain ⟨row, hrow, hcompleted, hrest⟩ := h
  obtain ⟨row', hrow', hb⟩ := hkeeps.rows _ row hrow
  obtain rfl := hb.completed hcompleted
  exact ⟨row', hrow', hcompleted, hrest⟩

theorem wp_finishedWork (hinv : Inv H C chain d) (hrow : d.jobs.get request.orderId = some job) :
    (finishedWork H service request requestHash job).wp (spec H C J chain i)
      (post (Inv H C chain) fun reply d => ∃ response, reply = .response response ∧
        ServiceResponse.accept H service request response.json = .ok response ∧
        Finished response d) d := by
  unfold finishedWork
  refine wp_throwIf hinv fun _ => wp_throwIf hinv fun _ => wp_throwIf hinv fun hcompleted => ?_
  have hcompleted := not_not.1 hcompleted
  obtain ⟨_, output, a, _, hattested⟩ := (hinv.rows _ _ hrow).attested hcompleted
  rw [hattested.output_eq]
  -- The checks leave the table alone.
  refine wp_seq (wp_check (I := fun d => Inv H C chain d ∧ d.jobs.get request.orderId = some job)
    ⟨hinv, hrow⟩) (fun _ h => h.1) fun _ d hI hschema => ?_
  refine wp_seq (wp_check (I := fun d => Inv H C chain d ∧ d.jobs.get request.orderId = some job)
    hI) (fun _ h => h.1) fun outputHash d hI hhash => ?_
  refine wp_throwIf hI.1 fun hsame => wp_pure.2 ⟨hI.1, _, rfl, ?_, job, hI.2, hcompleted,
    hattested.output_eq, not_not.1 hsame⟩
  obtain ⟨hassert, hvalid, hmatches⟩ := Json.validateSchemaValue_ok.1 hschema
  exact ServiceResponse.accept_ok.2 ⟨ServiceResponse.parse_json _, ⟨rfl, rfl, rfl⟩, hhash,
    Json.validateSchemaValue_ok.2
      ⟨Json.assertJson_mono (by decide) hassert, hvalid, hmatches⟩⟩

theorem wp_selectJob (hinv : Inv H C chain d) :
    (perform (.selectJob orderId)).wp (spec H C J chain i)
      (post (Inv H C chain) fun (o : Option JobRow) d => o = d.jobs.get orderId) d :=
  wp_read hinv (fun _ h => h) stable_inv fun _ _ _ _ hsem => Statement.Answers.read hsem

theorem wp_insertJob {job : NewJob} (hlower : ∀ a : Address, H.isAddress a.text = true)
    (hI : I d) (hinv : ∀ d, I d → Inv H C chain d) (hstable : Stable H C chain I)
    (hpayable : ∀ d, I d → Payable H C chain d.final job) :
    (perform (.insertJob job)).wp (spec H C J chain i) (post I fun _ _ => True) d := by
  refine wp_perform hI hstable fun d r d' hI hsem => ⟨?_, fun _ _ => trivial⟩
  rcases hsem.changes with rfl | ⟨u, hdone⟩
  · exact .refl (hinv _ hI)
  · exact step_insert hlower (hinv _ hI) (hpayable d hI) hdone

theorem wp_queuePaidProviderWork {category : JsString} {value : Json}
    (hlower : ∀ a : Address, H.isAddress a.text = true) (hvalue : value.Distinct)
    (hinv : Inv H C chain d) :
    (queuePaidProviderWork H C category value).wp (spec H C J chain i)
      (post (Inv H C chain) fun reply d => ∃ response, reply = .response response ∧
        Answered H C value response d) d := by
  unfold queuePaidProviderWork
  refine wp_seq (wp_check hinv) (fun _ h => h) fun category d hinv _ => ?_
  refine wp_seq (wp_check hinv) (fun _ h => h) fun request d hinv hrequest => ?_
  refine wp_seq (wp_selectDefinition hinv (fun _ h => h) stable_inv) (fun _ h => h)
    fun definition d hinv hdistinct => ?_
  cases definition with
  | none => exact wp_throw.2 hinv
  | some definition =>
    refine wp_seq (wp_check hinv) (fun _ h => h) fun service d hinv hservice => ?_
    refine wp_seq (wp_validateProviderBinding hinv) (fun _ h => h) fun _ d hinv hoffers => ?_
    refine wp_seq (wp_check hinv) (fun _ h => h) fun _ d hinv hvalid => ?_
    refine wp_seq (wp_paidBlock hinv (fun _ h => h) stable_inv) (fun _ h => h)
      fun paidAt d hinv hpaid => ?_
    -- What was paid stays paid.
    have hstable : Stable H C chain fun d =>
        Inv H C chain d ∧ IsPaid H chain d.final service request :=
      fun _ _ h hI => ⟨h.inv, hI.2.mono h.final⟩
    refine wp_seq (wp_check (I := fun d => Inv H C chain d ∧ IsPaid H chain d.final service request)
      ⟨hinv, hpaid⟩) (fun _ h => h.1) fun requestHash d hI hhash => ?_
    refine wp_seq (wp_insertJob hlower hI (fun _ h => h.1) hstable fun d hI =>
      ⟨definition, value, service, request, hdistinct _ rfl, hservice, hvalue, hrequest, hvalid,
        hoffers, hI.2, hhash, rfl, rfl, rfl⟩) (fun _ h => h.1) fun _ d hI _ => ?_
    refine wp_seq (wp_selectJob hI.1) (fun _ h => h) fun job d hinv hjob => ?_
    cases job with
    | none => exact wp_throw.2 hinv
    | some job =>
      refine wp_post_mono (wp_finishedWork hinv hjob.symm) (fun _ h => h) fun reply d _ h => ?_
      obtain ⟨response, rfl, haccept, hfinished⟩ := h
      exact ⟨response, rfl, ⟨service, request, hrequest, hvalid, hoffers, haccept⟩, hfinished⟩

/-! ### Claims -/

/-- The job is held under the claim. -/
def Held (claimId : JsString) (job : ClaimedJob) (d : JobDb) : Prop :=
  ∃ row, d.jobs.get job.orderId = some row ∧ row.claimToken = some claimId ∧ row.claimed = job

variable {claimId model : JsString} {held : ClaimedJob}

theorem Held.stable {d d' : JobDb} (h : Held claimId held d) (hkeeps : Keeps H C chain d d') :
    Held claimId held d' := by
  obtain ⟨row, hrow, htoken, rfl⟩ := h
  obtain ⟨row', hrow', hb⟩ := hkeeps.rows _ row hrow
  obtain ⟨htoken', hlease⟩ := hb.claim claimId htoken
  refine ⟨row', hrow', htoken', ?_⟩
  simp only [JobRow.claimed, hb.identity, hlease, htoken', htoken]

/-- One claim holds one job. -/
theorem Held.unique {held' : ClaimedJob} (hinv : Inv H C chain d) (h : Held claimId held d)
    (h' : Held claimId held' d) : held' = held := by
  obtain ⟨row, hrow, htoken, rfl⟩ := h
  obtain ⟨row', hrow', htoken', rfl⟩ := h'
  have hid := hinv.unique _ _ _ _ _ hrow hrow' htoken htoken'
  rw [hid] at hrow
  rw [Option.some.inj (hrow.symm.trans hrow')]

theorem held_claimed {row : JobRow} (hrow : d.jobs.get row.orderId = some row)
    (htoken : row.claimToken = some claimId) : Held claimId row.claimed d :=
  ⟨row, hrow, htoken, rfl⟩

/-- The job of a claim, if it has one. -/
theorem wp_selectClaimed (hI : I d) (hinv : ∀ d, I d → Inv H C chain d)
    (hstable : Stable H C chain I) :
    (perform (.selectClaimed claimId)).wp (spec H C J chain i)
      (post I fun (o : Option JobRow) d => (∀ job, o = some job → Held claimId job.claimed d) ∧
        (o = none → ∀ held, ¬ Held claimId held d)) d := by
  refine wp_read hI hinv hstable fun d r d' _ hsem => ?_
  obtain ⟨rfl, ha⟩ := Statement.Answers.read hsem
  refine ⟨rfl, fun o ho => ⟨fun job hjob => ?_, fun hnone held h => ?_⟩⟩
  · obtain ⟨hrow, htoken⟩ := find_claimed ((ha o ho).symm.trans hjob)
    exact held_claimed hrow htoken
  · obtain ⟨row, hrow, htoken, -⟩ := h
    have hfind := List.find?_eq_none.1 ((ha o ho).symm.trans hnone) row (Table.get_eq_some.1 hrow).1
    simp [htoken] at hfind

theorem wp_reportHealth (hI : I d) (hinv : ∀ d, I d → Inv H C chain d)
    (hstable : Stable H C chain I) :
    (perform (.reportHealth model)).wp (spec H C J chain i) (post I fun _ _ => True) d :=
  wp_read hI hinv hstable fun _ _ _ _ hsem => ⟨hsem, fun _ _ => trivial⟩

theorem wp_claimWork (hinv : Inv H C chain d) :
    (claimWork claimId model).wp (spec H C J chain i)
      (post (Inv H C chain) fun reply d => ∃ o, reply = .job o ∧
        ∀ held, o = some held → Held claimId held d) d := by
  unfold claimWork
  refine wp_seq (wp_reportHealth hinv (fun _ h => h) stable_inv) (fun _ h => h) fun _ d hinv _ => ?_
  refine wp_seq (wp_selectClaimed hinv (fun _ h => h) stable_inv) (fun _ h => h)
    fun o d hinv ho => ?_
  cases o with
  | some job =>
    refine wp_pure.2 ⟨hinv, _, rfl, fun held h => ?_⟩
    cases h
    exact ho.1 job rfl
  | none =>
    refine wp_seq (wp_perform (P := fun o d => ∀ row, o = some row → Held claimId row.claimed d)
      hinv stable_inv fun d r d' hinv hsem => ?_) (fun _ h => h) fun o d hinv ho => ?_
    · obtain ⟨locked, hsem⟩ := hsem
      rcases hsem.changes with rfl | ⟨o, hdone⟩
      · refine ⟨.refl hinv, fun o ho row hrow => ?_⟩
        subst ho hrow
        obtain ⟨hget, htoken⟩ := (step_claim hinv hsem.ok).2 row rfl
        exact held_claimed hget htoken
      · refine ⟨(step_claim hinv hdone).1, fun o' ho row hrow => ?_⟩
        subst ho hrow
        obtain ⟨hget, htoken⟩ := (step_claim hinv hsem.ok).2 row rfl
        exact held_claimed hget htoken
    · refine wp_pure.2 ⟨hinv, _, rfl, fun held h => ?_⟩
      obtain ⟨row, rfl, rfl⟩ := Option.map_eq_some_iff.1 h
      exact ho row rfl

/-- A claim that holds a job is answered with this job. -/
theorem wp_claimWork_held (hinv : Inv H C chain d) (hheld : Held claimId held d) :
    (claimWork claimId model).wp (spec H C J chain i)
      (post (Inv H C chain) fun reply _ => reply = .job (some held)) d := by
  have hstable : Stable H C chain fun d => Inv H C chain d ∧ Held claimId held d :=
    fun _ _ h hI => ⟨h.inv, hI.2.stable h⟩
  have hI : Inv H C chain d ∧ Held claimId held d := ⟨hinv, hheld⟩
  unfold claimWork
  refine wp_seq (wp_reportHealth (I := fun d => Inv H C chain d ∧ Held claimId held d) hI
    (fun _ h => h.1) hstable) (fun _ h => h.1) fun _ d hI _ => ?_
  refine wp_seq (wp_selectClaimed (I := fun d => Inv H C chain d ∧ Held claimId held d) hI
    (fun _ h => h.1) hstable) (fun _ h => h.1) fun o d hI ho => ?_
  cases o with
  | none => exact absurd hI.2 (ho.2 rfl held)
  | some job =>
    refine wp_pure.2 ⟨hI.1, ?_⟩
    rw [hI.2.unique hI.1 (ho.1 job rfl)]

/-! ### Reports of the worker -/

/-- The job was read, and keeps its identity. -/
structure Seen (H : Host) (C : Config) (chain : Chain) (orderId : Bytes32) (job : JobRow)
    (d : JobDb) : Prop where
  inv : Inv H C chain d
  row : ∃ row, d.jobs.get orderId = some row ∧ row.toJobIdentity = job.toJobIdentity

theorem Seen.stable : Stable H C chain (Seen H C chain orderId job) := by
  intro d d' h hseen
  obtain ⟨row, hrow, hid⟩ := hseen.row
  obtain ⟨row', hrow', hb⟩ := h.rows _ row hrow
  exact ⟨h.inv, row', hrow', hb.identity.trans hid⟩

theorem wp_jobOf (hinv : Inv H C chain d) :
    (jobOf orderId token).wp (spec H C J chain i)
      (post (Inv H C chain) fun job d => Seen H C chain orderId job d) d := by
  unfold jobOf
  refine wp_seq (wp_read (P := fun (o : Option JobRow) d => ∀ job, o = some job →
    d.jobs.get orderId = some job) hinv (fun _ h => h) stable_inv fun d r d' _ hsem => ?_)
    (fun _ h => h) fun o d hinv ho => ?_
  · obtain ⟨rfl, ha⟩ := Statement.Answers.read hsem
    refine ⟨rfl, fun o ho job hjob => ?_⟩
    exact (Option.filter_eq_some_iff.1 ((ha o ho).symm.trans hjob)).1
  · cases o with
    | none => exact wp_throw.2 hinv
    | some job => exact wp_pure.2 ⟨hinv, hinv, job, ho job rfl, rfl⟩

/-- A report that ends with one statement. -/
theorem wp_statement {o : Effect} (hinv : Inv H C chain d)
    (h : ∀ d r d', Inv H C chain d → sem J chain d o r d' → Step H C chain d d') :
    (perform o).wp (spec H C J chain i) (post (Inv H C chain) fun _ _ => True) d :=
  wp_perform hinv stable_inv fun d r d' hinv hsem => ⟨h d r d' hinv hsem, fun _ _ => trivial⟩

theorem wp_retryRead (hinv : Inv H C chain d) :
    (retryRead H orderId token).wp (spec H C J chain i)
      (post (Inv H C chain) fun _ _ => True) d := by
  unfold retryRead
  refine wp_seq (wp_jobOf hinv) (fun _ h => h) fun job d hinv _ => ?_
  refine wp_seq (wp_check hinv) (fun _ h => h) fun service d hinv _ => ?_
  refine wp_seq (wp_check hinv) (fun _ h => h) fun request d hinv _ => ?_
  refine wp_throwIf hinv fun _ => ?_
  refine wp_seq (wp_check hinv) (fun _ h => h) fun requestHash d hinv _ => ?_
  refine wp_throwIf hinv fun _ => ?_
  refine wp_seq (wp_statement hinv fun d r d' hinv hsem => ?_) (fun _ h => h) fun o d hinv _ => ?_
  · rcases hsem.changes with rfl | ⟨o, hdone⟩
    · exact .refl hinv
    · exact step_retry hinv hdone
  · cases o with
    | none => exact wp_throw.2 hinv
    | some _ => exact wp_pure.2 ⟨hinv, trivial⟩

theorem wp_failWork (hinv : Inv H C chain d) :
    (failWork orderId token).wp (spec H C J chain i)
      (post (Inv H C chain) fun _ _ => True) d := by
  unfold failWork
  refine wp_seq (wp_jobOf hinv) (fun _ h => h) fun job d hinv _ => ?_
  refine wp_seq (wp_statement hinv fun d r d' hinv hsem => ?_) (fun _ h => h)
    fun _ d hinv _ => wp_pure.2 ⟨hinv, trivial⟩
  rcases hsem.changes with rfl | ⟨u, hdone⟩
  · exact .refl hinv
  · exact step_fail hinv hdone

theorem wp_storageExpired (hI : I d) (hinv : ∀ d, I d → Inv H C chain d)
    (hstable : Stable H C chain I) :
    (storageExpired job output).wp (spec H C J chain i) (post I fun _ _ => True) d := by
  unfold storageExpired
  split
  · exact wp_throw.2 hI
  · refine wp_seq (wp_check hI) (fun _ h => h) fun expiresAt d hI _ => ?_
    refine wp_ite (fun _ => wp_pure.2 ⟨hI, trivial⟩) fun _ => ?_
    exact wp_seq (wp_dateNow hI hinv hstable) (fun _ h => h)
      fun now d hI _ => wp_pure.2 ⟨hI, trivial⟩

theorem wp_checkAttestation (hI : I d) (hinv : ∀ d, I d → Inv H C chain d)
    (hstable : Stable H C chain I) :
    (checkAttestation C service orderId outputHash attestationHash).wp (spec H C J chain i)
      (post I fun _ d => IsAttested C chain d.final service orderId outputHash attestationHash)
      d := by
  unfold checkAttestation
  refine wp_seq (wp_getTransactionReceipt hI hinv hstable) (fun _ h => h)
    fun receipt d hI hreceipt => ?_
  refine wp_seq (wp_getFinalizedBlock hI hinv hstable) (fun _ h => h)
    fun finalized d hI hfinal => ?_
  -- A block without a number counts as block zero.
  have hle : finalized.number.getD 0 ≤ d.final := by
    cases hn : finalized.number with
    | none => exact Nat.zero_le _
    | some number => exact hfinal number hn
  refine wp_seq (wp_getChainId (I := fun d => I d ∧ finalized.number.getD 0 ≤ d.final) ⟨hI, hle⟩
    (fun d h => hinv d h.1) (hstable.final _)) (fun _ h => h.1) fun chainId d hI _ => ?_
  cases hdeployment : C.deployment with
  | none => exact wp_throw.2 hI.1
  | some deployment =>
    refine wp_throwIf hI.1 fun hbad => ?_
    simp only [not_or, not_not, not_lt, gt_iff_lt, Bool.not_eq_false] at hbad
    obtain ⟨-, hsuccess, hnumber, hlogs⟩ := hbad
    refine wp_seq (wp_getBlock (I := fun d => I d ∧ receipt.blockNumber ≤ d.final)
      ⟨hI.1, hnumber.trans hI.2⟩ (fun d h => hinv d h.1) (hstable.final _)) (fun _ h => h.1)
      fun block d hI hblock => ?_
    refine wp_ite (fun _ => wp_throw.2 hI.1) fun hsame => wp_pure.2 ⟨hI.1, ?_⟩
    simp only [not_or, not_not] at hsame
    exact ⟨deployment, receipt, hdeployment,
      final_of_canonical hI.2 (hblock hI.2) hsame.2 hreceipt.2, hreceipt.1, hsuccess, hlogs⟩

theorem wp_recordOutput (hseen : Seen H C chain orderId job d)
    (hservice : ServiceDefinition.validate H job.definition = .ok service)
    (hdistinct : output.Distinct) (hhash : output.canonicalJsonHash H = .ok outputHash)
    (hschema : output.validateSchemaValue H service.outputSchema (64 * 1024) = .ok ()) :
    (recordOutput C service job orderId token output outputHash attestationHash).wp
      (spec H C J chain i) (post (Inv H C chain) fun _ _ => True) d := by
  have hinv : ∀ d, Seen H C chain orderId job d → Inv H C chain d := fun _ h => h.inv
  unfold recordOutput
  refine wp_seq (I := Seen H C chain orderId job) (P := fun _ _ => True) ?_ hinv
    fun expired d hseen _ => ?_
  · exact wp_ite (fun _ => wp_storageExpired hseen hinv Seen.stable)
      fun _ => wp_pure.2 ⟨hseen, trivial⟩
  refine wp_throwIf hseen.inv fun _ => ?_
  refine wp_seq (wp_checkAttestation hseen hinv Seen.stable) hinv fun _ d hseen hattested => ?_
  -- What is attested stays attested until the statement is executed.
  refine wp_seq (wp_perform (I := fun d => Seen H C chain orderId job d ∧
    IsAttested C chain d.final service orderId outputHash attestationHash) (P := fun _ _ => True)
    ⟨hseen, hattested⟩ (fun d d' h hI => ⟨Seen.stable d d' h hI.1, hI.2.mono h.final⟩)
    fun d r d' hI hsem => ⟨?_, fun _ _ => trivial⟩) (fun _ h => h.1.inv) fun o d hI _ => ?_
  · rcases hsem.changes with rfl | ⟨o, hdone⟩
    · exact .refl hI.1.inv
    · refine step_complete hI.1.inv (fun row hrow => ?_) hdone
      obtain ⟨row', hrow', hid⟩ := hI.1.row
      obtain rfl := Option.some.inj (hrow.symm.trans hrow')
      have hdefinition : row.definition = job.definition := by rw [hid]
      have horder : row.orderId = orderId := (Table.get_eq_some.1 hrow).2
      exact ⟨hdistinct, hhash, service, hdefinition ▸ hservice, hschema, horder ▸ hI.2⟩
  · cases o with
    | none => exact wp_throw.2 hI.1.inv
    | some _ => exact wp_pure.2 ⟨hI.1.inv, trivial⟩

theorem wp_completeWork {output : Option Json} (hinv : Inv H C chain d)
    (hdistinct : ∀ x, output = some x → x.Distinct) :
    (completeWork H C orderId token output attestationHash).wp (spec H C J chain i)
      (post (Inv H C chain) fun _ _ => True) d := by
  unfold completeWork
  refine wp_seq (wp_jobOf hinv) (fun _ h => h) fun job d _ hseen => ?_
  refine wp_seq (wp_check hseen) (fun _ h => h.inv) fun service d hseen hservice => ?_
  cases output with
  | none => exact wp_throw.2 hseen.inv
  | some output =>
    refine wp_seq (wp_check hseen) (fun _ h => h.inv) fun _ d hseen hschema => ?_
    refine wp_seq (wp_check hseen) (fun _ h => h.inv) fun outputHash d hseen hhash => ?_
    refine wp_ite (fun _ => ?_) fun _ => ?_
    · exact wp_ite (fun _ => wp_throw.2 hseen.inv) fun _ => wp_pure.2 ⟨hseen.inv, trivial⟩
    · exact wp_recordOutput hseen hservice (hdistinct _ rfl) hhash hschema

/-- The output of a report is a part of its body. -/
theorem distinct_of_parse {value : Json} {output : Option Json} (hvalue : value.Distinct)
    (h : WorkAction.parse H value = .ok (.complete orderId token output attestationHash)) :
    ∀ x, output = some x → x.Distinct := by
  unfold WorkAction.parse at h
  split at h
  · cases h
  · split_ifs at h
    · simp only [bind_eq_ok, pure_eq_ok] at h
      obtain ⟨_, -, _, -, _, -, h⟩ := h
      cases h
    · simp only [bind_eq_ok, pure_eq_ok] at h
      obtain ⟨_, -, _, -, _, -, h⟩ := h
      cases h
    · simp only [bind_eq_ok, pure_eq_ok] at h
      obtain ⟨fields, hfields, _, -, _, -, _, -, h⟩ := h
      cases h
      obtain rfl := Tasks.of_strictFields hfields
      exact fun x hx => hvalue.field (Json.mem_of_get hx)
    · simp only [bind_eq_ok, pure_eq_ok] at h
      obtain ⟨_, -, _, -, _, -, h⟩ := h
      cases h

theorem wp_providerWorkAction {value : Json} (hvalue : value.Distinct) (hinv : Inv H C chain d) :
    (providerWorkAction H C value).wp (spec H C J chain i)
      (post (Inv H C chain) fun _ _ => True) d := by
  unfold providerWorkAction
  refine wp_seq (wp_check hinv) (fun _ h => h) fun action d hinv haction => ?_
  cases action with
  | claim claimId model => exact wp_post_mono (wp_claimWork hinv) (fun _ h => h) fun _ _ _ _ => trivial
  | retryRead orderId token => exact wp_retryRead hinv
  | failed orderId token => exact wp_failWork hinv
  | complete orderId token output attestationHash =>
    exact wp_completeWork hinv (distinct_of_parse hvalue haction)

/-! ### Soundness -/

theorem sound (hlower : ∀ a : Address, H.isAddress a.text = true) :
    (protocol ι H C chain).Sound (system H C J chain) where
  rely_refl _ _ hinv := .refl hinv
  rely_trans _ _ _ _ h h' := h.trans h'
  guar_inv _ _ _ _ h := h.keeps.inv
  guar_rely _ _ _ _ _ h _ := h.keeps
  env_inv _ _ _ hinv h := (keeps_clock hinv h).inv
  env_rely _ _ _ _ hinv h _ := keeps_clock hinv h
  start i d p hinv hp := by
    obtain ⟨request, hvalue, rfl⟩ := hp
    cases request with
    | queue category value =>
      exact wp_mono (wp_queuePaidProviderWork hlower hvalue hinv) fun _ _ _ => trivial
    | act value => exact wp_mono (wp_providerWorkAction hvalue hinv) fun _ _ _ => trivial

/-- An empty table. -/
def JobDb.fresh (now final : ℕ) : JobDb := ⟨Table.empty, now, final⟩

theorem inv_fresh (now final : ℕ) : Inv H C chain (JobDb.fresh now final) :=
  ⟨fun _ _ hrow => (by cases hrow), Table.unique_empty⟩

end Provider

end Obolos
