import Obolos.Economy.OrderInvariant

/-!
# Every run of the handlers

The handlers are verified one by one against what the others may do to the table meanwhile
(`Keeps`), and every statement of theirs is a `Step`.  So whatever the interleaving, the crashes
and the answers of the provider, the invariant holds (`orders_run`).
-/

namespace Obolos

namespace Marketplace

open Prog (post wp_seq wp_catch wp_post_mono wp_await wp_ite wp_pure wp_throw wp_mono)

variable {ι : Type} {H : Host} {J : Jsonb} {deployment : Option EconomyDeployment}

/-- What the handlers rely on, and what they guarantee. -/
def protocol (ι : Type) (H : Host) : Protocol ι (OrderDb ι) where
  inv := Inv H
  rely _ d d' := Keeps H d d'
  guar i d d' := Step H i d d'

/-- What the handlers of process `i` are verified against. -/
abbrev spec (H : Host) (J : Jsonb) (deployment : Option EconomyDeployment) (i : ι) :
    Prog.Spec (OrderDb ι) Effect Answer ApiError :=
  (protocol ι H).spec (system H J deployment) i

variable {i : ι} {d : OrderDb ι} {α : Type} {I I' : OrderDb ι → Prop}

/-! ### One effect -/

/-- An effect from a condition that the others keep. -/
theorem wp_perform {o : Effect} {P : Answer o → OrderDb ι → Prop} (hI : I d)
    (hstable : ∀ d d', Keeps H d d' → I d → I d')
    (h : ∀ d r d', I d → sem J i d o r d' → Step H i d d' ∧ ∀ a, r = .ok a → P a d') :
    (perform o).wp (spec H J deployment i) (post I P) d := by
  refine wp_await.2 fun d₁ hrely r d₂ hsem => ?_
  have hI₁ := hstable d d₁ hrely hI
  obtain ⟨hstep, hP⟩ := h d₁ r d₂ hI₁ hsem
  refine ⟨hstep, ?_⟩
  have hI₂ := hstable d₁ d₂ hstep.keeps hI₁
  cases r with
  | ok a => exact ⟨hI₂, hP a rfl⟩
  | error e => exact hI₂

/-- An effect that leaves the table alone. -/
theorem wp_read {o : Effect} {P : Answer o → Prop} (hI : I d)
    (hstable : ∀ d d', Keeps H d d' → I d → I d')
    (h : ∀ (d : OrderDb ι) r d', sem J i d o r d' → d' = d ∧ ∀ a, r = .ok a → P a) :
    (perform o).wp (spec H J deployment i) (post I fun a _ => P a) d := by
  refine wp_perform hI hstable fun d r d' _ hsem => ?_
  obtain ⟨rfl, hP⟩ := h d r d' hsem
  exact ⟨.refl i _, hP⟩

theorem wp_check {x : Except JsError α} (hI : I d) :
    (check x).wp (spec H J deployment i) (post I fun a _ => x = .ok a) d :=
  Prog.wp_ofExcept_post hI fun _ ha => ApiError.lift_ok.1 ha

theorem wp_fail {status : ℕ} {code message : String} {P : α → OrderDb ι → Prop} (hI : I d) :
    (fail status code message : Exec α).wp (spec H J deployment i) (post I P) d :=
  wp_throw.2 hI

/-- `if(bad) throw fail(…);` before the rest of a function. -/
theorem wp_failIf {β : Type} {bad : Prop} [Decidable bad] {status : ℕ} {code message : String}
    {f : β → Exec α} {p : Exec α} {P : α → OrderDb ι → Prop} (hI : I d)
    (hp : ¬ bad → p.wp (spec H J deployment i) (post I P) d) :
    (if bad then fail status code message >>= f else p).wp (spec H J deployment i) (post I P) d :=
  wp_ite (fun _ => wp_seq (P := fun _ _ => False) (wp_fail hI) (fun _ h => h)
    fun _ _ _ h => h.elim) hp

theorem stable_inv (d d' : OrderDb ι) (h : Keeps H d d') (hinv : Inv H d) : Inv H d' := h.inv hinv

/-! ### An attempt to deliver -/

/-- The order was claimed under the token of this process. -/
structure Claimed (H : Host) (i : ι) (token : JsString) (row : OrderRow) (d : OrderDb ι) : Prop where
  inv : Inv H d
  drawn : d.drawn token = some i
  row : ∃ row', d.orders.get row.orderId = some row' ∧
    row'.toOrderIdentity = row.toOrderIdentity

variable {token userId : JsString} {row : OrderRow} {orderId : Bytes32}

theorem Claimed.stable (d d' : OrderDb ι) (h : Keeps H d d') (hc : Claimed H i token row d) :
    Claimed H i token row d' := by
  obtain ⟨row', hrow, hid⟩ := hc.row
  obtain ⟨row'', hrow', hb⟩ := h.rows _ row' hrow
  exact ⟨h.inv hc.inv, h.drawn _ _ hc.drawn, row'', hrow', hb.1.trans hid⟩

theorem wp_requestRemoteService {service : ServiceDefinition} {request : ServiceRequest}
    {receipt : Market.ServiceReceipt} (hI : I d) (hstable : ∀ d d', Keeps H d d' → I d → I d') :
    (requestRemoteService H service request receipt).wp (spec H J deployment i)
      (post I fun result _ => ∃ body, body.Distinct ∧
        ServiceResponse.accept H service request body = .ok result) d := by
  unfold requestRemoteService
  refine wp_seq (wp_check hI) (fun _ h => h) fun _ d hI _ => ?_
  refine wp_seq (wp_check hI) (fun _ h => h) fun _ d hI _ => ?_
  refine wp_seq (wp_check hI) (fun _ h => h) fun _ d hI _ => ?_
  refine wp_seq (wp_read hI hstable fun _ _ _ h => h) (fun _ h => h) fun body d hI hbody => ?_
  cases haccept : ServiceResponse.accept H service request body with
  | ok result => exact wp_pure.2 ⟨hI, body, hbody, haccept⟩
  | error e => exact wp_fail hI

theorem wp_attemptDelivery (hc : Claimed H i token row d) :
    (attemptDelivery H userId row.orderId token row).wp (spec H J deployment i)
      (post (Claimed H i token row) fun _ _ => True) d := by
  unfold attemptDelivery
  refine wp_seq (wp_check hc) (fun _ h => h)
    fun service d hc hservice => ?_
  refine wp_seq (wp_check hc) (fun _ h => h) fun request d hc _ => ?_
  refine wp_seq (wp_requestRemoteService hc Claimed.stable) (fun _ h => h)
    fun result d hc hresult => ?_
  obtain ⟨body, hbody, haccept⟩ := hresult
  refine wp_perform hc Claimed.stable fun d r d' hc hsem => ⟨?_, fun _ _ => trivial⟩
  rcases hsem.changes with rfl | ⟨o, hdone⟩
  · exact .refl i _
  · obtain ⟨hparse, -, hhash, hschema⟩ := ServiceResponse.accept_ok.1 haccept
    refine step_complete hc.drawn (fun row' hrow' => ?_) hdone
    -- the row still has the definition that was validated
    obtain ⟨row'', hrow'', hid⟩ := hc.row
    obtain rfl := Option.some.inj (hrow'.symm.trans hrow'')
    have hdefinition : row'.definition = row.definition := by rw [hid]
    exact ⟨ServiceResponse.distinct_of_parse hparse hbody, hhash, service,
      hdefinition ▸ hservice, hschema⟩

theorem wp_deliveryFailed (hc : Claimed H i token row d) :
    (deliveryFailed userId row.orderId token : Exec α).wp (spec H J deployment i)
      (post (Claimed H i token row) fun _ _ => True) d := by
  unfold deliveryFailed
  refine wp_seq (wp_perform (P := fun _ _ => True) hc Claimed.stable
    fun d r d' hc hsem => ⟨?_, fun _ _ => trivial⟩) (fun _ h => h) fun _ d hc _ => wp_fail hc
  rcases hsem.changes with rfl | ⟨u, hdone⟩
  · exact .refl i _
  · exact step_release hdone hc.inv

theorem wp_deliverClaimed (hc : Claimed H i token row d) :
    (deliverClaimed H userId row.orderId token row).wp (spec H J deployment i)
      (post (Inv H) fun _ _ => True) d := by
  unfold deliverClaimed
  refine wp_seq (wp_catch (wp_attemptDelivery hc) (fun _ _ h _ => ⟨h, trivial⟩)
    fun _ d hc => wp_deliveryFailed hc) (fun _ h => h.inv) fun completed d hc _ => ?_
  cases completed with
  | none => exact wp_fail hc.inv
  | some row' => exact wp_pure.2 ⟨hc.inv, trivial⟩

theorem wp_deliverEconomyOrder (hinv : Inv H d) :
    (deliverEconomyOrder H userId row).wp (spec H J deployment i)
      (post (Inv H) fun _ _ => True) d := by
  unfold deliverEconomyOrder
  refine wp_seq (wp_perform (P := fun token d => d.drawn token = some i) hinv stable_inv
    fun d r d' _ hsem => ?_) (fun _ h => h) fun token d hinv hdrawn => ?_
  · obtain ⟨token, hfresh, rfl, rfl⟩ := hsem
    refine ⟨step_draw hfresh, fun token' h => ?_⟩
    cases h
    exact Function.update_self _ _ _
  have hstable : ∀ d d' : OrderDb ι, Keeps H d d' → (Inv H d ∧ d.drawn token = some i) →
      Inv H d' ∧ d'.drawn token = some i := fun d d' h hd =>
    ⟨h.inv hd.1, h.drawn _ _ hd.2⟩
  refine wp_seq (wp_perform (P := fun o d => ∀ row', o = some row' →
      d.orders.get row.orderId = some row') ⟨hinv, hdrawn⟩ hstable
    fun d r d' hd hsem => ?_) (fun _ h => h.1) fun claimed d hd hrow => ?_
  · rcases hsem.changes with rfl | ⟨o, hdone⟩
    · refine ⟨.refl i _, fun o ho => ?_⟩
      subst ho
      exact (step_claim (H := H) hd.2 hsem.ok).2
    · refine ⟨(step_claim hd.2 hdone).1, fun o' ho => ?_⟩
      subst ho
      exact (step_claim (H := H) hd.2 hsem.ok).2
  cases claimed with
  | none => exact wp_fail hd.1
  | some row' =>
    have hget := hrow row' rfl
    have hkey : row'.orderId = row.orderId := (Table.get_eq_some.1 hget).2
    rw [← hkey]
    exact wp_deliverClaimed ⟨hd.1, hd.2, row', hkey ▸ hget, rfl⟩

theorem wp_retryEconomyDelivery {orderId : JsString} (hinv : Inv H d) :
    (retryEconomyDelivery H userId orderId).wp (spec H J deployment i)
      (post (Inv H) fun _ _ => True) d := by
  unfold retryEconomyDelivery
  cases readBytes32 orderId.toLowerCase with
  | none => exact wp_fail hinv
  | some orderId =>
    refine wp_seq (wp_read (P := fun _ => True) hinv stable_inv
      fun d r d' hsem => ⟨(Statement.Answers.read hsem).1, fun _ _ => trivial⟩) (fun _ h => h)
      fun row d hinv _ => ?_
    cases row with
    | none => exact wp_fail hinv
    | some row =>
      refine wp_ite (fun _ => ?_) fun _ => wp_deliverEconomyOrder hinv
      exact wp_pure.2 ⟨hinv, trivial⟩

/-! ### Recording an order -/

theorem wp_checkTerms {deployment' : EconomyDeployment} {user : User} {platformAgentId : JsString}
    {request : ServiceRequest} (hinv : Inv H d) :
    (checkTerms H deployment' user platformAgentId request).wp (spec H J deployment i)
      (post (Inv H) fun service _ => (∃ x : Json, x.Distinct ∧
        ServiceDefinition.validate H x = .ok service) ∧ request.check H service = .ok ()) d := by
  unfold checkTerms
  refine wp_seq (wp_read (P := fun x => ∀ y, x = some y → y.Distinct) hinv stable_inv
    fun d r d' hsem => ⟨hsem.1, fun x hx y hy => hsem.2 y (hy ▸ hx)⟩) (fun _ h => h)
    fun definition d hinv hdistinct => ?_
  cases definition with
  | none => exact wp_fail hinv
  | some x =>
    refine wp_seq (wp_check hinv) (fun _ h => h) fun service d hinv hservice => ?_
    refine wp_seq (wp_check hinv) (fun _ h => h) fun _ d hinv hvalid => ?_
    refine wp_failIf hinv fun _ => wp_failIf hinv fun _ => ?_
    refine wp_seq (wp_read (P := fun _ => True) hinv stable_inv
      fun d r d' hsem => ⟨hsem, fun _ _ => trivial⟩) (fun _ h => h) fun agent d hinv _ => ?_
    refine wp_failIf hinv fun _ => ?_
    refine wp_seq (wp_read (P := fun _ => True) hinv stable_inv
      fun d r d' hsem => ⟨hsem, fun _ _ => trivial⟩) (fun _ h => h) fun owner d hinv _ => ?_
    refine wp_failIf hinv fun _ => ?_
    exact wp_pure.2 ⟨hinv, ⟨x, hdistinct x rfl, hservice⟩, hvalid⟩

theorem wp_finalizedPayment {service : ServiceDefinition} {request : ServiceRequest}
    (hinv : Inv H d) :
    (finalizedPayment H service request).wp (spec H J deployment i)
      (post (Inv H) fun receipt _ =>
        ∃ v, request.verifyServiceSettlement H service receipt = .ok v) d := by
  unfold finalizedPayment
  refine wp_catch (I := Inv H) (P := fun receipt _ =>
    ∃ v, request.verifyServiceSettlement H service receipt = .ok v) ?_ (fun _ _ h hv => ⟨h, hv⟩)
    fun _ d hinv => wp_fail hinv
  refine wp_seq (wp_read (P := fun _ => True) hinv stable_inv
    fun d r d' hsem => ⟨hsem, fun _ _ => trivial⟩) (fun _ h => h) fun receipt d hinv _ => ?_
  refine wp_seq (wp_check hinv) (fun _ h => h) fun v d hinv hv => ?_
  exact wp_pure.2 ⟨hinv, v, hv⟩

/-- An order as `createEconomyOrder` inserts it. -/
structure Checked (H : Host) (order : NewOrder) : Prop where
  terms : ∃ (x z : Json) (service : ServiceDefinition) (request : ServiceRequest),
    x.Distinct ∧ ServiceDefinition.validate H x = .ok service ∧
      z.Distinct ∧ ServiceRequest.parse H z = .ok request ∧
      request.check H service = .ok () ∧
      (∃ v, request.verifyServiceSettlement H service order.receipt = .ok v) ∧
      request.json.canonicalJsonHash H = .ok order.requestHash ∧
      (order.orderId = request.orderId ∧ order.serviceHash = service.serviceHash ∧
        order.transactionHash = request.transactionHash) ∧
      order.request = request.json ∧ order.definition = service.json

theorem wp_insertPaidOrder {order : NewOrder} (hlower : ∀ a : Address, H.isAddress a.text = true)
    (hinv : Inv H d) (horder : Checked H order) :
    (insertPaidOrder order).wp (spec H J deployment i) (post (Inv H) fun _ _ => True) d := by
  unfold insertPaidOrder
  refine wp_catch (I := Inv H) (P := fun _ _ => True) ?_ (fun _ _ h _ => ⟨h, trivial⟩) ?_
  · refine wp_perform hinv stable_inv fun d r d' _ hsem => ⟨?_, fun _ _ => trivial⟩
    rcases hsem.changes with rfl | ⟨o, hdone⟩
    · exact .refl i _
    · obtain ⟨x, z, service, request, hx, hservice, hz, hrequest, hvalid, hpaid, hhash, hids, hr,
        hd⟩ := horder.terms
      refine (step_insert (fun request' definition hrequest' hdefinition => ?_) hdone).1
      exact bound_stored hlower hx hservice hz hrequest hvalid hpaid hhash hids (hr ▸ hrequest')
        (hd ▸ hdefinition)
  · intro e d hinv
    cases e with
    | database code =>
      refine wp_ite (fun _ => wp_fail hinv) fun _ => ?_
      exact wp_throw.2 hinv
    | _ => exact wp_throw.2 hinv

theorem wp_existingOrder {order : NewOrder} (hinv : Inv H d) :
    (existingOrder order).wp (spec H J deployment i) (post (Inv H) fun _ _ => True) d := by
  unfold existingOrder
  refine wp_seq (wp_read (P := fun _ => True) hinv stable_inv
    fun d r d' hsem => ⟨(Statement.Answers.read hsem).1, fun _ _ => trivial⟩) (fun _ h => h)
    fun row d hinv _ => ?_
  cases row with
  | none => exact wp_fail hinv
  | some row =>
    refine wp_ite (fun _ => wp_fail hinv) fun _ => ?_
    exact wp_pure.2 ⟨hinv, trivial⟩

theorem wp_recordOrder {order : NewOrder} (hlower : ∀ a : Address, H.isAddress a.text = true)
    (hinv : Inv H d) (horder : Checked H order) :
    (recordOrder H order).wp (spec H J deployment i) (post (Inv H) fun _ _ => True) d := by
  unfold recordOrder
  refine wp_seq (wp_insertPaidOrder hlower hinv horder) (fun _ h => h) fun inserted d hinv _ => ?_
  refine wp_seq (P := fun _ _ => True) ?_ (fun _ h => h) fun row d hinv _ => ?_
  · cases inserted with
    | none => exact wp_existingOrder hinv
    | some row => exact wp_pure.2 ⟨hinv, trivial⟩
  · refine wp_ite (fun _ => ?_) fun _ => wp_deliverEconomyOrder hinv
    exact wp_pure.2 ⟨hinv, trivial⟩

theorem createOrderInput_ok {value : Json} {platformAgentId : JsString} {request : ServiceRequest}
    (hvalue : value.Distinct) (h : createOrderInput H value = .ok (platformAgentId, request)) :
    ∃ z : Json, z.Distinct ∧ ServiceRequest.parse H z = .ok request := by
  simp only [createOrderInput, bind_eq_ok, pure_eq_ok] at h
  obtain ⟨fields, hfields, _, -, r, hr, heq⟩ := h
  obtain rfl : r = request := (Prod.mk.inj heq).2
  obtain ⟨z, hget, hz⟩ := Option.bind_eq_some_iff.1 (Json.field_ok.1 hr)
  obtain ⟨-, -, rfl, -, -⟩ := Json.strictFields_same hvalue hvalue (.refl hvalue) hfields
  refine ⟨z, hvalue.field (Json.mem_of_get hget), ?_⟩
  cases hparse : ServiceRequest.parse H z with
  | ok r' => rw [hparse] at hz; rw [Option.some.inj hz]
  | error e => rw [hparse] at hz; cases hz

theorem wp_createEconomyOrder {deployment' : Option EconomyDeployment} {user : User}
    {value : Json} (hlower : ∀ a : Address, H.isAddress a.text = true) (hvalue : value.Distinct)
    (hinv : Inv H d) :
    (createEconomyOrder H deployment' user value).wp (spec H J deployment i)
      (post (Inv H) fun _ _ => True) d := by
  unfold createEconomyOrder
  cases deployment' with
  | none => exact wp_fail hinv
  | some deployment' =>
    refine wp_seq (wp_check hinv) (fun _ h => h) fun input d hinv hinput => ?_
    obtain ⟨platformAgentId, request⟩ := input
    obtain ⟨z, hz, hrequest⟩ := createOrderInput_ok hvalue hinput
    refine wp_seq (wp_checkTerms hinv) (fun _ h => h) fun service d hinv hterms => ?_
    obtain ⟨⟨x, hx, hservice⟩, hvalid⟩ := hterms
    refine wp_seq (wp_finalizedPayment hinv) (fun _ h => h) fun receipt d hinv hpaid => ?_
    refine wp_seq (wp_check hinv) (fun _ h => h) fun requestHash d hinv hhash => ?_
    exact wp_recordOrder hlower hinv ⟨x, z, service, request, hx, hservice, hz, hrequest, hvalid,
      hpaid, hhash, ⟨rfl, rfl, rfl⟩, rfl, rfl⟩

/-! ### Soundness -/

/-- The clock goes on. -/
theorem keeps_clock {d' : OrderDb ι} (h : ∃ now, d.now ≤ now ∧ d' = { d with now }) :
    Keeps H d d' := by
  obtain ⟨now, hle, rfl⟩ := h
  exact ⟨hle, fun _ _ h => h, fun _ row hrow => ⟨row, hrow, .refl row⟩,
    fun hinv => ⟨hinv.rows, hinv.unique, hinv.few⟩⟩

theorem sound (hlower : ∀ a : Address, H.isAddress a.text = true) :
    (protocol ι H).Sound (system H J deployment) where
  rely_refl _ d _ := .refl d
  rely_trans _ _ _ _ h h' := h.trans h'
  guar_inv _ _ _ hinv h := h.keeps.inv hinv
  guar_rely _ _ _ _ _ h _ := h.keeps
  env_inv _ _ _ hinv h := (keeps_clock h).inv hinv
  env_rely _ _ _ _ _ h _ := keeps_clock h
  start i d p hinv hp := by
    rcases hp with ⟨user, value, hvalue, rfl⟩ | ⟨userId, orderId, rfl⟩
    · exact wp_mono (wp_createEconomyOrder hlower hvalue hinv) fun _ _ _ => trivial
    · exact wp_mono (wp_retryEconomyDelivery hinv) fun _ _ _ => trivial

/-- An empty table. -/
def OrderDb.fresh (ι : Type) (now : ℕ) : OrderDb ι := ⟨Table.empty, now, fun _ => none⟩

theorem inv_fresh (now : ℕ) : Inv H (OrderDb.fresh ι now) where
  rows _ _ hrow := by cases hrow
  unique := Table.unique_empty
  few := by simp [OrderDb.fresh]

end Marketplace

end Obolos
