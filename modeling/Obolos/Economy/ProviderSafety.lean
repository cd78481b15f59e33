import Obolos.Crash.Reach
import Obolos.Economy.ProviderRuns

/-!
# What a buyer and a seller can rely on

Whatever the interleaving of the calls, the crashes and the answers that are lost:

* `jobs_become`, `jobs_move` : a job is never lost or changed into another one, who has claimed it
  and when stays, and a completed job stays as it is.
* `jobs_attested` : every job was paid for, and what a completed job has put out was attested.
* `claim_repeated` : a claim that is repeated is answered with the same job.
* `output_delivered` : what a buyer's platform is answered it accepts, and all answers for one order
  have the same output.
-/

namespace Obolos

namespace Provider

variable {ι : Type} [DecidableEq ι] {H : Host} {C : Config} {J : Jsonb} {chain : Chain}
  {now final : ℕ} {s t u v : System.State ι JobDb Effect Answer ApiError Reply}
  {τ σ : List (Tr (System.State ι JobDb Effect Answer ApiError Reply)
    (System.Action ι Effect Answer ApiError Reply))}
  {id : Bytes32} {row : JobRow}

theorem inv_run (hlower : ∀ a : Address, H.isAddress a.text = true)
    (h : (system H C J chain).lts.Run (System.State.idle (JobDb.fresh now final)) τ s) :
    Inv H C chain s.world :=
  ((sound hlower).run (inv_fresh now final) h).1

theorem keeps_run (hlower : ∀ a : Address, H.isAddress a.text = true)
    (h : (system H C J chain).lts.Run (System.State.idle (JobDb.fresh now final)) τ s)
    (h' : (system H C J chain).lts.Run s σ t) : Keeps H C chain s.world t.world :=
  (sound hlower).rel (T := fun d d' => Inv H C chain d → Keeps H C chain d d')
    (inv_fresh now final) h h' (fun _ => Keeps.refl)
    (fun _ _ _ h h' hinv => (h hinv).trans (h' (h hinv).inv))
    (fun _ _ _ _ hg _ => hg.keeps) (fun _ _ _ _ he hinv => keeps_clock hinv he)
    (inv_run hlower h)

/-- **What stays.**  Between any two states no job is lost: its request, its definition and the time
of its payment stay, who has claimed it and when stays, and a completed job stays as it is. -/
theorem jobs_become (hlower : ∀ a : Address, H.isAddress a.text = true)
    (h : (system H C J chain).lts.Run (System.State.idle (JobDb.fresh now final)) τ s)
    (h' : (system H C J chain).lts.Run s σ t) (hrow : s.world.jobs.get id = some row) :
    ∃ row', t.world.jobs.get id = some row' ∧ row.Becomes row' :=
  (keeps_run hlower h h').rows id row hrow

/-- **What may happen.**  Every step of a run leaves a job alone, or a queued job is claimed, a
running job fails or is completed, or a job is run again that is read-only and has put out
nothing.  A job that is new is queued. -/
theorem jobs_move (hlower : ∀ a : Address, H.isAddress a.text = true)
    (h : (system H C J chain).lts.Run (System.State.idle (JobDb.fresh now final)) τ s)
    {e : Tr (System.State ι JobDb Effect Answer ApiError Reply)
      (System.Action ι Effect Answer ApiError Reply)} (he : e ∈ τ) (id : Bytes32) :
    (∀ row, e.pre.world.jobs.get id = some row →
      ∃ row', e.post.world.jobs.get id = some row' ∧ row.Moves e.pre.world.now row') ∧
    ∀ row, e.pre.world.jobs.get id = none → e.post.world.jobs.get id = some row → row.New := by
  obtain ⟨τ₁, τ₂, rfl⟩ := List.append_of_mem he
  obtain ⟨hpre, hstep, -⟩ := h.split_at
  have hholds := (sound hlower).run (inv_fresh now final) hpre
  have hsame : e.post.world.jobs = e.pre.world.jobs →
      (∀ row, e.pre.world.jobs.get id = some row →
        ∃ row', e.post.world.jobs.get id = some row' ∧ row.Moves e.pre.world.now row') ∧
      ∀ row, e.pre.world.jobs.get id = none → e.post.world.jobs.get id = some row → row.New := by
    intro hjobs
    refine ⟨fun row hrow => ⟨row, by rw [hjobs, hrow], .stays⟩, fun row hnone hrow => ?_⟩
    rw [hjobs, hnone] at hrow
    cases hrow
  obtain ⟨_, _, _, _, _, hguar⟩ | ⟨_, _, henv⟩ | hworld := (sound hlower).step_world hholds hstep
  · refine ⟨fun row hrow => ?_, hguar.added id⟩
    obtain ⟨row', hrow', -⟩ := hguar.keeps.rows id row hrow
    exact ⟨row', hrow', hguar.moves id row row' hrow hrow'⟩
  · obtain ⟨now, final, -, -, hworld⟩ := henv
    exact hsame (by rw [hworld])
  · exact hsame (by rw [hworld])

/-- **What was paid and attested.**  Every job is for a request that was settled in a final block, to
a service of this provider; and the output of a completed job matches the schema of the service and
was attested by the seller in a final block. -/
theorem jobs_attested (hlower : ∀ a : Address, H.isAddress a.text = true)
    (h : (system H C J chain).lts.Run (System.State.idle (JobDb.fresh now final)) τ s)
    (hrow : s.world.jobs.get id = some row) :
    (∃ service request, row.Bound H C chain s.world.final service request) ∧
      (row.state ≠ .completed → row.output = none ∧ row.attestationHash = none) ∧
      (row.state = .completed → ∃ service output outputHash attestationHash,
        row.Attested H C chain s.world.final service output outputHash attestationHash) := by
  have hok := (inv_run hlower h).rows id row hrow
  exact ⟨hok.bound, fun hopen => ⟨(hok.pending hopen).1, (hok.pending hopen).2.2⟩, hok.attested⟩

/-! ### Claims -/

/-- What is answered to a claim. -/
def ClaimAnswer (claimId : JsString) : Except ApiError Reply → JobDb → Prop
  | .ok (.job (some held)), d => Held claimId held d
  | _, _ => True

omit [DecidableEq ι] in
theorem wp_claim {i : ι} {d : JobDb} {value : Json} {claimId model : JsString}
    (hparse : WorkAction.parse H value = .ok (.claim claimId model)) (hinv : Inv H C chain d) :
    (providerWorkAction H C value).wp (spec H C J chain i) (ClaimAnswer claimId) d := by
  unfold providerWorkAction check
  rw [hparse]
  refine Prog.wp_mono (wp_claimWork hinv) fun r d hr => ?_
  cases r with
  | error e => trivial
  | ok reply =>
    obtain ⟨-, o, rfl, ho⟩ := hr
    cases o with
    | none => trivial
    | some held => exact ho held rfl

omit [DecidableEq ι] in
theorem wp_claim_held {i : ι} {d : JobDb} {value : Json} {claimId model : JsString}
    {held : ClaimedJob} (hparse : WorkAction.parse H value = .ok (.claim claimId model))
    (hinv : Inv H C chain d) (hheld : Held claimId held d) :
    (providerWorkAction H C value).wp (spec H C J chain i)
      (fun r _ => ∀ reply, r = .ok reply → reply = .job (some held)) d := by
  unfold providerWorkAction check
  rw [hparse]
  refine Prog.wp_mono (wp_claimWork_held hinv hheld) fun r d hr => ?_
  cases r with
  | error e => exact fun _ h => by cases h
  | ok reply => exact fun _ h => by rw [← Except.ok.inj h]; exact hr.2

/-- **A claim is attached to one job.**  Once a claim was answered with a job, every repetition of it
that is answered, by any process at any time, is answered with the same job. -/
theorem claim_repeated (hlower : ∀ a : Address, H.isAddress a.text = true) {i j : ι}
    {value value' : Json} {claimId model model' : JsString} {held : ClaimedJob} {reply : Reply}
    (h : (system H C J chain).lts.Run (System.State.idle (JobDb.fresh now final)) τ s)
    (hfree : s.processes i = none) (hvalue : value.Distinct)
    (hparse : WorkAction.parse H value = .ok (.claim claimId model))
    (ha : (system H C J chain).Answers s i (providerWorkAction H C value)
      (.ok (.job (some held))) t)
    (h' : (system H C J chain).lts.Run t σ u) (hfree' : u.processes j = none)
    (hvalue' : value'.Distinct)
    (hparse' : WorkAction.parse H value' = .ok (.claim claimId model'))
    (ha' : (system H C J chain).Answers u j (providerWorkAction H C value') (.ok reply) v) :
    reply = .job (some held) := by
  have hsound : (protocol ι H C chain).Sound (system H C J chain) := sound hlower
  have hstart : (system H C J chain).starts i s.world (providerWorkAction H C value) :=
    ⟨.act value, hvalue, rfl⟩
  have hstart' : (system H C J chain).starts j u.world (providerWorkAction H C value') :=
    ⟨.act value', hvalue', rfl⟩
  have hheld : Held claimId held t.world := by
    refine hsound.answers (Q := ClaimAnswer claimId) (hsound.run (inv_fresh now final) h) hstart
      hfree (fun r d d' hkeeps hr => ?_) (wp_claim hparse (inv_run hlower h)) ha
    unfold ClaimAnswer at hr ⊢
    split at hr
    · exact hr.stable hkeeps
    · trivial
  obtain ⟨ρ, hrun⟩ := System.run_of_answers hfree hstart ha
  have hinv := inv_run hlower ((h.append hrun).append h')
  have hheld' := hheld.stable (keeps_run hlower (h.append hrun) h')
  exact hsound.answers (hsound.run (inv_fresh now final) ((h.append hrun).append h')) hstart' hfree'
    (fun _ _ _ _ hr => hr) (wp_claim_held hparse' hinv hheld') ha' reply rfl

/-! ### Deliveries -/

/-- What is answered to a buyer's platform. -/
def QueueAnswer (H : Host) (C : Config) (value : Json) : Except ApiError Reply → JobDb → Prop
  | .ok reply, d => ∃ response, reply = .response response ∧ Answered H C value response d
  | .error _, _ => True

/-- What was answered is still true later. -/
theorem answered_of_answers (hlower : ∀ a : Address, H.isAddress a.text = true) {i : ι}
    {category : JsString} {value : Json} {reply : Reply}
    (h : (system H C J chain).lts.Run (System.State.idle (JobDb.fresh now final)) τ s)
    (hfree : s.processes i = none) (hvalue : value.Distinct)
    (ha : (system H C J chain).Answers s i (queuePaidProviderWork H C category value)
      (.ok reply) t) :
    (∃ response, reply = .response response ∧ Answered H C value response t.world) ∧
      ∃ ρ, (system H C J chain).lts.Run s ρ t := by
  have hstart : (system H C J chain).starts i s.world
      (queuePaidProviderWork H C category value) := ⟨.queue category value, hvalue, rfl⟩
  refine ⟨?_, System.run_of_answers hfree hstart ha⟩
  have hsound : (protocol ι H C chain).Sound (system H C J chain) := sound hlower
  refine hsound.answers (Q := QueueAnswer H C value) (hsound.run (inv_fresh now final) h) hstart
    hfree (fun r d d' hkeeps hr => ?_) ?_ ha
  · unfold QueueAnswer at hr ⊢
    split at hr
    · obtain ⟨response, rfl, hanswered⟩ := hr
      exact ⟨response, rfl, hanswered.terms, hanswered.finished.stable hkeeps⟩
    · trivial
  · refine Prog.wp_mono (wp_queuePaidProviderWork hlower hvalue (inv_run hlower h)) fun r d hr => ?_
    cases r with
    | error e => trivial
    | ok reply => exact hr.2

/-- A response for a job that was attested. -/
theorem Answered.attested {value : Json} {response : ServiceResponse} {d : JobDb}
    (h : Answered H C value response d) (hinv : Inv H C chain d) :
    ∃ service request attestationHash, ServiceRequest.parse H value = .ok request ∧
      request.check H service = .ok () ∧ Offers H C service ∧
      ServiceResponse.accept H service request response.json = .ok response ∧
      IsAttested C chain d.final service response.orderId response.outputHash attestationHash := by
  obtain ⟨service, request, hrequest, hvalid, hoffers, haccept⟩ := h.terms
  obtain ⟨row, hrow, hcompleted, -, hhash⟩ := h.finished
  have hok := hinv.rows _ row hrow
  obtain ⟨service', _, outputHash, attestationHash, ha⟩ := hok.attested hcompleted
  obtain ⟨service'', _, hbound⟩ := hok.bound
  have hkey : row.orderId = response.orderId := (Table.get_eq_some.1 hrow).2
  obtain rfl : service'' = service' :=
    Except.ok.inj (hbound.service_valid.symm.trans ha.service_valid)
  obtain rfl : outputHash = response.outputHash :=
    Option.some.inj (ha.outputHash_eq.symm.trans hhash)
  -- Both services are offers of the one seller.
  obtain ⟨_, -, hoffer⟩ := hoffers.terms
  obtain ⟨_, -, hoffer'⟩ := hbound.offer.terms
  have hseller : service''.seller = service.seller := hoffer'.2.2.1.trans hoffer.2.2.1.symm
  have hattested := ha.attested
  unfold IsAttested at hattested
  rw [hseller, hkey] at hattested
  exact ⟨service, request, attestationHash, hrequest, hvalid, hoffers, haccept, hattested⟩

/-- **What is delivered.**  What a buyer's platform is answered for a request it accepts, the seller
has attested this output for the order, and whoever else is answered for the same order at any time
is answered the same output. -/
theorem output_delivered (hlower : ∀ a : Address, H.isAddress a.text = true) {i j : ι}
    {category category' : JsString} {value value' : Json} {reply reply' : Reply}
    (h : (system H C J chain).lts.Run (System.State.idle (JobDb.fresh now final)) τ s)
    (hfree : s.processes i = none) (hvalue : value.Distinct)
    (ha : (system H C J chain).Answers s i (queuePaidProviderWork H C category value)
      (.ok reply) t)
    (h' : (system H C J chain).lts.Run t σ u) (hfree' : u.processes j = none)
    (hvalue' : value'.Distinct)
    (ha' : (system H C J chain).Answers u j (queuePaidProviderWork H C category' value')
      (.ok reply') v) :
    ∃ response response' service request attestationHash,
      reply = .response response ∧ reply' = .response response' ∧
      ServiceRequest.parse H value = .ok request ∧ request.check H service = .ok () ∧
      Offers H C service ∧
      ServiceResponse.accept H service request response.json = .ok response ∧
      IsAttested C chain t.world.final service response.orderId response.outputHash
        attestationHash ∧
      (response'.orderId = response.orderId →
        response'.output = response.output ∧ response'.outputHash = response.outputHash) := by
  obtain ⟨⟨response, hreply, hanswered⟩, ρ, hrun⟩ := answered_of_answers hlower h hfree hvalue ha
  obtain ⟨⟨response', hreply', hanswered'⟩, ρ', hrun'⟩ :=
    answered_of_answers hlower ((h.append hrun).append h') hfree' hvalue' ha'
  obtain ⟨service, request, attestationHash, hrequest, hvalid, hoffers, haccept, hattested⟩ :=
    hanswered.attested (inv_run hlower (h.append hrun))
  refine ⟨response, response', service, request, attestationHash, hreply, hreply', hrequest,
    hvalid, hoffers, haccept, hattested, fun hsame => ?_⟩
  -- The job is completed at the first answer, and stays as it is.
  obtain ⟨row, hrow, -, houtput, hhash⟩ :=
    hanswered.finished.stable (keeps_run hlower (h.append hrun) (h'.append hrun'))
  obtain ⟨row', hrow', -, houtput', hhash'⟩ := hanswered'.finished
  rw [hsame] at hrow'
  obtain rfl := Option.some.inj (hrow.symm.trans hrow')
  exact ⟨Option.some.inj (houtput'.symm.trans houtput), Option.some.inj (hhash'.symm.trans hhash)⟩

/-! ### One job -/

namespace Sample

open ProviderWork (object record string integer providerSchemas)
open Market (Log Event)

/-- The provider, with its deployment. -/
def config : Config := ⟨some ⟨1, 2⟩, js "https://obolos.example"⟩

/-- A service that counts words. -/
def terms : ServiceTerms where
  settlementAddress := 1
  ledgerAddress := 2
  seller := referenceSeller
  endpoint := js "https://obolos.example/api/economy/reference/compute"
  category := .compute
  unit := js "compute-unit"
  quantity := 1
  unitPriceAtomic := 3
  inputSchema := (providerSchemas .compute).input
  outputSchema := (providerSchemas .compute).output

/-- The service with its hash. -/
def service : ServiceDefinition :=
  { terms with serviceHash := Host.plain.wordsHash (terms.words Host.plain) }

/-- What is to be counted. -/
def input : Json := record [("text", .str (js "a b"))]

/-- The request for order `11`, paid in transaction `1`. -/
def request : ServiceRequest where
  orderId := 11
  agentId := 4
  payer := 5
  serviceHash := service.serviceHash
  inputHash := Host.plain.textHash (Json.canonicalJson Host.plain.numerals input)
  category := .compute
  unit := js "compute-unit"
  quantity := 1
  unitPriceAtomic := 3
  amountAtomic := 3
  settlementAddress := 1
  ledgerAddress := 2
  transactionHash := 1
  input := input

/-- What was counted. -/
def output : Json :=
  record [("characters", .num 3), ("words", .num 2), ("bytes", .num 3), ("sha256", .str (js "0"))]

/-- Its hash. -/
def outputHash : Bytes32 := Host.plain.textHash (Json.canonicalJson Host.plain.numerals output)

/-- The canonical blocks. -/
def blockHash (n : ℕ) : Bytes32 := BitVec.ofNat 256 (n + 1)

/-- The payment, and the attestation of the delivery. -/
def receipt (hash : Bytes32) : TransactionReceipt where
  blockNumber := hash.toNat
  blockHash := some (blockHash hash.toNat)
  status := .success
  transactionHash := hash
  logs :=
    if hash = 1 then
      [⟨1, .OrderSettled 11 0 5 3 3 0 0 0 1 1⟩,
        ⟨2, .OrderPaid 11 4 referenceSeller service.serviceHash
          ResourceCategory.compute.index (Host.plain.textHash service.unit) 1 3 3
          request.inputHash⟩]
    else [⟨2, .DeliveryAttested 11 referenceSeller outputHash⟩]

/-- A chain with these two transactions. -/
def twoBlocks : Chain where
  block := blockHash
  mined hash r := ∃ n, hash = blockHash n ∧ r = receipt (BitVec.ofNat 256 n)

/-- What the effects are answered. -/
def respond (d : JobDb) : (o : Effect) → Except ApiError (Answer o) × JobDb
  | .selectDefinition _ => (.ok (some service.json), d)
  | .reportHealth _ => (.ok (), d)
  | .insertJob job => execute (insertJob .identity job) d
  | .selectJob orderId => execute (selectJob orderId) d
  | .selectJobOf orderId token => execute (selectJobOf orderId token) d
  | .selectClaimed token => execute (selectClaimed token) d
  | .claimJob token => execute (claimJob (fun _ => false) token) d
  | .retryJob orderId token => execute (retryJob orderId token) d
  | .failJob orderId token => execute (failJob orderId token) d
  | .completeJob orderId token output outputHash attestationHash =>
    execute (completeJob .identity orderId token output outputHash attestationHash) d
  | .getChainId => (.ok chainId, d)
  | .getTransactionReceipt hash => (.ok (receipt hash), d)
  | .getFinalizedBlock => (.ok ⟨some d.final, some (blockHash d.final), 0⟩, d)
  | .getBlock n => (.ok ⟨some n, some (blockHash n), 60⟩, d)
  | .dateNow => (.ok d.now, d)
where
  /-- The answer of a statement. -/
  execute {α : Type} (f : Statement JobDb ApiError α) (d : JobDb) : Except ApiError α × JobDb :=
    match f d with
    | .ok (a, d') => (.ok a, d')
    | .error e => (.error e, d)

/-- The empty table; two blocks are final. -/
def start : JobDb := .fresh 100000 2

/-- The table after a call. -/
def after (request : Request) (d : JobDb) : JobDb :=
  ((handle .plain config request).exec respond d).2

/-- The buyer's platform asks for the result. -/
def queue : Request := .queue (js "compute") request.json

/-- The claim of the worker. -/
def claimId : JsString := js "00000000-0000-4000-8000-000000000001"

/-- The worker claims a job. -/
def claim : Request :=
  .act (.obj [(js "action", .str (js "claim")), (js "claimId", .str claimId),
    (js "model", .str (js "gpt-5-nano"))])

/-- The worker completes it. -/
def complete : Request :=
  .act (.obj [(js "action", .str (js "complete")), (js "orderId", .str (11 : Bytes32).text),
    (js "token", .str claimId), (js "output", output),
    (js "attestationHash", .str (2 : Bytes32).text)])

/-- The job is queued, claimed and completed. -/
def queued : JobDb := after queue start

/-- The job is claimed. -/
def claimed : JobDb := after claim queued

/-- The job is completed. -/
def completed : JobDb := after complete claimed

/-- The result is delivered. -/
def delivered : JobDb := after queue completed

theorem distinct_record {fields : List (String × Json)} (hnodup : (fields.map Prod.fst).Nodup)
    (hfields : ∀ f ∈ fields, f.2.Distinct) : (record fields).Distinct := by
  refine .obj ?_ fun f hf => ?_
  · rw [List.map_map, show Prod.fst ∘ (fun f : String × Json => (js f.1, f.2)) = js ∘ Prod.fst from
      rfl, ← List.map_map]
    exact hnodup.map fun _ _ h => js_inj.1 h
  · obtain ⟨g, hg, rfl⟩ := List.mem_map.1 hf
    exact hfields g hg

theorem distinct_object {properties : List (String × Json)}
    (hnodup : (properties.map Prod.fst).Nodup) (hfields : ∀ p ∈ properties, p.2.Distinct) :
    (object properties).Distinct := by
  refine .obj (by simp [js_inj]) ?_
  simp only [List.forall_mem_cons, List.not_mem_nil, false_imp_iff, implies_true, and_true]
  refine ⟨.str _, distinct_record hnodup hfields, .arr fun x hx => ?_, .bool _⟩
  obtain ⟨p, -, rfl⟩ := List.mem_map.1 hx
  exact .str _

theorem distinct_service : service.Distinct := by
  have hstring : ∀ n, (string n).Distinct := fun n =>
    .obj (by simp [js_inj]) (by simp [Json.Distinct.str, Json.Distinct.num])
  have hinteger : integer.Distinct :=
    .obj (by simp [js_inj]) (by simp [Json.Distinct.str, Json.Distinct.num])
  exact ⟨distinct_object (by simp) (by simp [hstring]),
    distinct_object (by simp) (by simp [hstring, hinteger])⟩

theorem distinct_input : input.Distinct := distinct_record (by simp) (by simp [Json.Distinct.str])

theorem distinct_output : output.Distinct :=
  distinct_record (by simp) (by simp [Json.Distinct.str, Json.Distinct.num])

theorem execute_sends {α : Type} (f : Statement JobDb ApiError α) (d : JobDb) :
    Sends f d (respond.execute f d).1 (respond.execute f d).2 := by
  unfold respond.execute
  cases h : f d with
  | ok x => exact .done h
  | error e => exact .refused h

theorem respond_sem (d : JobDb) (o : Effect) :
    sem .identity twoBlocks d o (respond d o).1 (respond d o).2 := by
  cases o with
  | selectDefinition _ =>
    refine ⟨rfl, fun x hx => ?_⟩
    rw [← Option.some.inj (Except.ok.inj hx)]
    exact ServiceDefinition.distinct_json distinct_service
  | claimJob token => exact ⟨_, execute_sends _ d⟩
  | getTransactionReceipt hash =>
    refine ⟨rfl, fun r hr => ?_⟩
    rw [← Except.ok.inj hr]
    refine ⟨rfl, fun block hblock => ⟨hash.toNat, (Option.some.inj hblock).symm, ?_⟩⟩
    rw [BitVec.ofNat_toNat, BitVec.setWidth_eq]
  | getFinalizedBlock =>
    refine ⟨rfl, fun block hblock number hnumber => ?_⟩
    rw [← Except.ok.inj hblock] at hnumber
    exact (Option.some.inj hnumber).ge
  | getBlock n => exact ⟨rfl, fun block hblock _ => by rw [← Except.ok.inj hblock]; rfl⟩
  | insertJob | selectJob | selectJobOf | selectClaimed | retryJob | failJob | completeJob =>
    exact execute_sends _ d
  | reportHealth | getChainId | dateNow => exact rfl

/-- The provider of the sample. -/
abbrev provider : System Unit JobDb Effect Answer ApiError Reply :=
  system .plain config .identity twoBlocks

/-- The runs from a state in which nothing is under way. -/
def Leads (d d' : JobDb) : Prop :=
  ∃ τ, provider.lts.Run (System.State.idle d) τ (System.State.idle d')

theorem leads_after {request : Request} (d : JobDb) (hvalue : request.value.Distinct) :
    Leads d (after request d) :=
  System.run_to_end (S := provider) (s := System.State.idle d) (i := ())
    (Prog.Reaches.exec respond_sem (handle .plain config request) d) rfl ⟨request, hvalue, rfl⟩

theorem Leads.trans {d d' d'' : JobDb} (h : Leads d d') (h' : Leads d' d'') : Leads d d'' := by
  obtain ⟨τ, hτ⟩ := h
  obtain ⟨σ, hσ⟩ := h'
  exact ⟨_, hτ.append hσ⟩

theorem distinct_queue : queue.value.Distinct := ServiceRequest.distinct_json distinct_input

theorem distinct_claim : claim.value.Distinct := by
  refine .obj (by decide) ?_
  simp only [List.forall_mem_cons, List.not_mem_nil, false_imp_iff, implies_true, and_true]
  exact ⟨.str _, .str _, .str _⟩

theorem distinct_complete : complete.value.Distinct := by
  refine .obj (by decide) ?_
  simp only [List.forall_mem_cons, List.not_mem_nil, false_imp_iff, implies_true, and_true]
  exact ⟨.str _, .str _, .str _, distinct_output, .str _⟩

theorem leads_queued : Leads start queued := leads_after start distinct_queue

theorem leads_claimed : Leads queued claimed := leads_after queued distinct_claim

theorem leads_completed : Leads claimed completed := leads_after claimed distinct_complete

-- From here on the states are only used through these lemmas.
attribute [irreducible] queued claimed completed delivered

/-- The states and the claims of the jobs. -/
def shape (d : JobDb) : List (Bytes32 × JobState × Bool) :=
  d.jobs.rows.map fun row => (row.orderId, row.state, row.claimToken.isSome)

/-- The answer to a call. -/
def answer (request : Request) (d : JobDb) : Except ApiError Reply :=
  ((handle .plain config request).exec respond d).1

/-- A claim is answered with a job. -/
def isJob : Except ApiError Reply → Bool
  | .ok (.job (some _)) => true
  | _ => false

/-- The states of the job, and the answers to a claim and to a repeated one, and to the two requests
of the buyer's platform; they are evaluated together, because one state is made from another. -/
theorem shapes : shape queued = [(11, .queued, false)] ∧ shape claimed = [(11, .running, true)] ∧
    shape completed = [(11, .completed, true)] ∧ isJob (answer claim queued) = true ∧
    (answer claim claimed).isOk = true ∧ (answer queue completed).isOk = true ∧
    (answer queue delivered).isOk = true := by
  decide +kernel

/-- The only job. -/
theorem row_of_shape {d : JobDb} {id : Bytes32} {state : JobState} {b : Bool}
    (h : shape d = [(id, state, b)]) :
    ∃ row, d.jobs.get id = some row ∧ row.state = state ∧ row.claimToken.isSome = b := by
  obtain ⟨row, hrow, heq⟩ := List.map_eq_singleton_iff.1 h
  simp only [Prod.mk.injEq] at heq
  obtain ⟨rfl, hstate, hb⟩ := heq
  exact ⟨row, Table.get_eq_some.2 ⟨by rw [hrow]; simp, rfl⟩, hstate, hb⟩

/-- The states of two runs, with names for them: they are never computed. -/
theorem Leads.states {d d' d'' : JobDb} (h : Leads d d') (h' : Leads d' d'') :
    ∃ e e', e = d' ∧ e' = d'' ∧
      (∃ τ, provider.lts.Run (System.State.idle d) τ (System.State.idle e)) ∧
      ∃ σ, provider.lts.Run (System.State.idle e) σ (System.State.idle e') :=
  ⟨_, _, rfl, rfl, h, h'⟩

/-- A job that is running, before and after it is completed. -/
theorem jobs_become_completed : ∃ row row', claimed.jobs.get 11 = some row ∧
    row.state = .running ∧ completed.jobs.get 11 = some row' ∧ row.Becomes row' := by
  obtain ⟨row, hrow, hstate, -⟩ := row_of_shape shapes.2.1
  obtain ⟨d, d', hd, hd', ⟨τ, hrun⟩, σ, hrun'⟩ :=
    (leads_queued.trans leads_claimed).states leads_completed
  rw [← hd] at hrow ⊢
  rw [← hd']
  obtain ⟨row', hrow', hbecomes⟩ := jobs_become (fun _ => rfl) hrun hrun' hrow
  exact ⟨row, row', hrow, hstate, hrow', hbecomes⟩

/-- A job that has been completed. -/
theorem jobs_attested_completed : ∃ row, completed.jobs.get 11 = some row ∧
    ∃ service output outputHash attestationHash,
      row.Attested .plain config twoBlocks completed.final service output outputHash
        attestationHash := by
  obtain ⟨row, hrow, hstate, -⟩ := row_of_shape shapes.2.2.1
  obtain ⟨d, d', -, hd', ⟨τ, hrun⟩, σ, hrun'⟩ :=
    (leads_queued.trans leads_claimed).states leads_completed
  rw [← hd'] at hrow ⊢
  exact ⟨row, hrow, (jobs_attested (fun _ => rfl) (hrun.append hrun') hrow).2.2 hstate⟩

/-- The step in which the job is queued, and the one in which it is claimed. -/
theorem jobs_move_claimed : ∃ τ,
    provider.lts.Run (System.State.idle start) τ (System.State.idle claimed) ∧
      (∃ e ∈ τ, ∃ row, e.pre.world.jobs.get 11 = none ∧ e.post.world.jobs.get 11 = some row ∧
        row.New) ∧
      ∃ e ∈ τ, ∃ row row', e.pre.world.jobs.get 11 = some row ∧ row.state = .queued ∧
        e.post.world.jobs.get 11 = some row' ∧ row'.state ≠ .queued ∧
        row.Moves e.pre.world.now row' := by
  obtain ⟨row, hrow, hqueued, -⟩ := row_of_shape shapes.1
  obtain ⟨row', hrow', hrunning, -⟩ := row_of_shape shapes.2.1
  obtain ⟨d, d', hd, hd', ⟨τ, hrun⟩, σ, hrun'⟩ := leads_queued.states leads_claimed
  rw [← hd] at hrow
  rw [← hd'] at hrow' ⊢
  have hlower : ∀ a : Address, Host.plain.isAddress a.text = true := fun _ => rfl
  refine ⟨τ ++ σ, hrun.append hrun', ?_, ?_⟩
  · -- The first step after which there is a job.
    obtain ⟨e, he, hpre, hpost⟩ := hrun.exists_change
      (P := fun s => ∃ row, s.world.jobs.get 11 = some row) (fun ⟨r, hr⟩ => by cases hr) ⟨row, hrow⟩
    obtain ⟨r, hr⟩ := hpost
    have hmem : e ∈ τ ++ σ := List.mem_append_left _ he
    have hnone : e.pre.world.jobs.get 11 = none :=
      Option.eq_none_iff_forall_ne_some.2 fun r hr => hpre ⟨r, hr⟩
    exact ⟨e, hmem, r, hnone, hr, (jobs_move hlower (hrun.append hrun') hmem 11).2 r hnone hr⟩
  · -- The first step after which the job is no longer queued.
    obtain ⟨e, he, hpre, hpost⟩ := hrun'.exists_change
      (P := fun s => ∀ row, s.world.jobs.get 11 = some row → row.state ≠ .queued)
      (fun h => h row hrow hqueued) fun r hr => by
        obtain rfl := Option.some.inj (hr.symm.trans hrow')
        rw [hrunning]
        exact fun h => by cases h
    obtain ⟨r, hr⟩ := not_forall.1 hpre
    obtain ⟨hr, hstate⟩ := Classical.not_imp.1 hr
    have hmem : e ∈ τ ++ σ := List.mem_append_right _ he
    obtain ⟨r', hr', hmoves⟩ := (jobs_move hlower (hrun.append hrun') hmem 11).1 r hr
    exact ⟨e, hmem, r, r', hr, not_not.1 hstate, hr', hpost r' hr', hmoves⟩

/-- The answer to a call that nothing disturbs. -/
theorem answers_after {request : Request} {d : JobDb} {r : Except ApiError Reply}
    (hr : answer request d = r) :
    ∃ t σ, provider.Answers (System.State.idle d) () (handle .plain config request) r t ∧
      provider.lts.Run t σ (System.State.idle (after request d)) :=
  System.answers_to_end (S := provider) (s := System.State.idle d) (i := ())
    (hr ▸ Prog.Reaches.exec respond_sem (handle .plain config request) d) rfl

theorem exists_held {r : Except ApiError Reply} (h : isJob r = true) :
    ∃ held, r = .ok (.job (some held)) := by
  unfold isJob at h
  split at h
  · exact ⟨_, rfl⟩
  · cases h

theorem exists_reply {r : Except ApiError Reply} (h : r.isOk = true) : ∃ reply, r = .ok reply := by
  cases r with
  | ok reply => exact ⟨reply, rfl⟩
  | error e => cases h

theorem parse_claim :
    WorkAction.parse .plain claim.value = .ok (.claim claimId (js "gpt-5-nano")) := by
  rfl

/-- The job is claimed, and the claim is repeated. -/
theorem claim_repeated_claimed : ∃ held, answer claim queued = .ok (.job (some held)) ∧
    answer claim claimed = .ok (.job (some held)) := by
  obtain ⟨held, hfirst⟩ := exists_held shapes.2.2.2.1
  obtain ⟨reply, hagain⟩ := exists_reply shapes.2.2.2.2.1
  obtain ⟨τ, hrun⟩ := leads_queued
  obtain ⟨t, σ, ha, h'⟩ := answers_after hfirst
  rw [show after claim queued = claimed by unfold claimed; rfl] at h'
  obtain ⟨v, -, ha', -⟩ := answers_after hagain
  have hsame := claim_repeated (fun _ => rfl) hrun rfl distinct_claim parse_claim ha h' rfl
    distinct_claim parse_claim ha'
  exact ⟨held, hfirst, hsame ▸ hagain⟩

/-- The output of the completed job is delivered twice. -/
theorem output_delivered_completed : ∃ response response' service attestationHash final,
    answer queue completed = .ok (.response response) ∧
    answer queue delivered = .ok (.response response') ∧
      IsAttested config twoBlocks final service response.orderId response.outputHash
        attestationHash ∧
      (response'.orderId = response.orderId → response'.outputHash = response.outputHash) := by
  obtain ⟨reply, hfirst⟩ := exists_reply shapes.2.2.2.2.2.1
  obtain ⟨reply', hagain⟩ := exists_reply shapes.2.2.2.2.2.2
  obtain ⟨τ, hrun⟩ := (leads_queued.trans leads_claimed).trans leads_completed
  obtain ⟨t, σ, ha, h'⟩ := answers_after hfirst
  rw [show after queue completed = delivered by unfold delivered; rfl] at h'
  obtain ⟨v, -, ha', -⟩ := answers_after hagain
  have hqueue : handle .plain config queue =
      queuePaidProviderWork .plain config (js "compute") request.json := rfl
  rw [hqueue] at ha ha'
  obtain ⟨response, response', service, -, attestationHash, rfl, rfl, -, -, -, -, hattested, hsame⟩ :=
    output_delivered (fun _ => rfl) hrun rfl distinct_queue ha h' rfl distinct_queue ha'
  exact ⟨response, response', service, attestationHash, t.world.final, hfirst, hagain, hattested,
    fun h => (hsame h).2⟩

end Sample

end Provider

end Obolos
