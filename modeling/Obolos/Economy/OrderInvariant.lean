import Obolos.Economy.Marketplace
import Obolos.Economy.StoredTerms
import Mathlib.Data.Set.Finite.Basic
import Mathlib.Data.Fintype.EquivFin

/-!
# What is always true of the orders

`Inv` : every row is bound to a service and a request whose payment was verified, is claimed by
the holder of its token exactly while it is being delivered, and carries an output exactly when it
is fulfilled; and a transaction pays for one order.

`Step` is what one statement of one process may do to the table, whatever else is going on: the
identity of an order stays, a fulfilled order stays as it is, and an order is only fulfilled by
the process that drew its token.
-/

namespace Obolos

theorem ServiceDefinition.distinct_of_validate {H : Host} {x : Json} {service : ServiceDefinition}
    (hx : x.Distinct) (h : validate H x = .ok service) : service.Distinct := by
  simp only [validate, bind_eq_ok, pure_eq_ok] at h
  obtain ⟨_, hparse, _, -, rfl⟩ := h
  exact (parse_same hx hx (.refl hx) hparse).1

namespace Marketplace

/-- The row of a paid order is bound to a service and a request. -/
structure OrderRow.Bound (H : Host) (row : OrderRow) (service : ServiceDefinition)
    (request : ServiceRequest) : Prop where
  service_valid : ServiceDefinition.validate H row.definition = .ok service
  request_parsed : ServiceRequest.parse H row.request = .ok request
  request_valid : request.check H service = .ok ()
  paid : ∃ v, request.verifyServiceSettlement H service row.receipt = .ok v
  orderId_eq : row.orderId = request.orderId
  serviceHash_eq : row.serviceHash = service.serviceHash
  transactionHash_eq : row.transactionHash = request.transactionHash

/-- The output of a fulfilled order has its hash, and the schema of the service. -/
structure OrderRow.Delivered (H : Host) (row : OrderRow) : Prop where
  output : ∃ output outputHash service, row.output = some output ∧
    row.outputHash = some outputHash ∧ output.canonicalJsonHash H = .ok outputHash ∧
    ServiceDefinition.validate H row.definition = .ok service ∧
    output.validateSchemaValue H service.outputSchema (128 * 1024) = .ok ()

/-- What is true of a row, given who drew which token. -/
structure OrderRow.Ok {ι : Type} (H : Host) (drawn : JsString → Option ι) (row : OrderRow) :
    Prop where
  bound : ∃ service request, row.Bound H service request
  distinct : row.definition.Distinct
  claimed : row.state = .delivering ↔ row.deliveryToken.isSome = true
  leased : row.deliveryToken.isSome = row.deliveryLeaseUntil.isSome
  drawn : ∀ token, row.deliveryToken = some token → (drawn token).isSome = true
  pending : row.state ≠ .fulfilled → row.output = none ∧ row.outputHash = none
  delivered : row.state = .fulfilled → row.Delivered H

/-- The invariant. -/
structure Inv {ι : Type} (H : Host) (d : OrderDb ι) : Prop where
  rows : ∀ id row, d.orders.get id = some row → row.Ok H d.drawn
  unique : d.orders.Unique fun row => some row.transactionHash
  few : {token | (d.drawn token).isSome = true}.Finite

/-- What becomes of a row: its identity stays, and a fulfilled order stays as it is. -/
def OrderRow.Becomes (row row' : OrderRow) : Prop :=
  row'.toOrderIdentity = row.toOrderIdentity ∧ (row.state = .fulfilled → row' = row)

/-- What may happen to the table in any time. -/
structure Keeps {ι : Type} (H : Host) (d d' : OrderDb ι) : Prop where
  now : d.now ≤ d'.now
  drawn : ∀ token i, d.drawn token = some i → d'.drawn token = some i
  rows : ∀ id row, d.orders.get id = some row →
    ∃ row', d'.orders.get id = some row' ∧ row.Becomes row'
  inv : Inv H d → Inv H d'

/-- What a process may do in one step. -/
structure Step {ι : Type} (H : Host) (i : ι) (d d' : OrderDb ι) : Prop where
  keeps : Keeps H d d'
  fulfils : ∀ id row row', d.orders.get id = some row → d'.orders.get id = some row' →
    row.state ≠ .fulfilled → row'.state = .fulfilled →
      row.state = .delivering ∧
        ∃ token, row.deliveryToken = some token ∧ d.drawn token = some i

variable {ι : Type} {H : Host} {i : ι} {d d' d'' : OrderDb ι} {row row' row'' : OrderRow}

namespace OrderRow

theorem Becomes.refl (row : OrderRow) : row.Becomes row := ⟨rfl, fun _ => rfl⟩

theorem Becomes.trans (h : row.Becomes row') (h' : row'.Becomes row'') : row.Becomes row'' := by
  refine ⟨h'.1.trans h.1, fun hf => ?_⟩
  have he := h.2 hf
  rw [h'.2 (he ▸ hf), he]

/-- Tokens that were drawn later change nothing. -/
theorem Ok.mono {drawn drawn' : JsString → Option ι} (h : row.Ok H drawn)
    (hmono : ∀ token i, drawn token = some i → drawn' token = some i) : row.Ok H drawn' := by
  refine { h with drawn := fun token htoken => ?_ }
  obtain ⟨i, hi⟩ := Option.isSome_iff_exists.1 (h.drawn token htoken)
  exact Option.isSome_iff_exists.2 ⟨i, hmono token i hi⟩

end OrderRow

theorem Keeps.refl (d : OrderDb ι) : Keeps H d d :=
  ⟨le_rfl, fun _ _ h => h, fun _ row h => ⟨row, h, .refl row⟩, fun h => h⟩

theorem Keeps.trans (h : Keeps H d d') (h' : Keeps H d' d'') : Keeps H d d'' := by
  refine ⟨h.now.trans h'.now, fun token i hi => h'.drawn token i (h.drawn token i hi), ?_,
    fun hinv => h'.inv (h.inv hinv)⟩
  intro id row hrow
  obtain ⟨row', hrow', hb⟩ := h.rows id row hrow
  obtain ⟨row'', hrow'', hb'⟩ := h'.rows id row' hrow'
  exact ⟨row'', hrow'', hb.trans hb'⟩

theorem Step.refl (i : ι) (d : OrderDb ι) : Step H i d d := by
  refine ⟨.refl d, fun id row row' hrow hrow' hopen hclosed => ?_⟩
  obtain rfl := Option.some.inj (hrow.symm.trans hrow')
  exact absurd hclosed hopen

/-! ### Changing a row -/

section Replace

variable {id : Bytes32} (hrow : d.orders.get id = some row)
  (hid : row'.toOrderIdentity = row.toOrderIdentity)

include hrow hid

theorem orderId_of_get : row'.orderId = id := by
  have hkey : row.orderId = id := (Table.get_eq_some.1 hrow).2
  rw [hid]
  exact hkey

theorem get_replace (k : Bytes32) :
    (d.orders.replace row').get k = if k = id then some row' else d.orders.get k := by
  have hkey := orderId_of_get hrow hid
  have hrow' : d.orders.get row'.orderId = some row := by
    rw [hkey]
    exact hrow
  rw [Table.get_replace (r := row') hrow']
  simp only [hkey]

theorem get_replaced : (d.orders.replace row').get id = some row' := by
  rw [get_replace hrow hid, if_pos rfl]

theorem inv_replace (hok : Inv H d → row'.Ok H d.drawn) (hinv : Inv H d) :
    Inv H { d with orders := d.orders.replace row' } := by
  refine ⟨fun k r hr => ?_, ?_, hinv.few⟩
  · rw [get_replace hrow hid] at hr
    split_ifs at hr with hk
    · cases hr
      exact hok hinv
    · exact hinv.rows k r hr
  · have hrow' : d.orders.get row'.orderId = some row := by
      rw [orderId_of_get hrow hid]
      exact hrow
    exact hinv.unique.replace_same hrow' (by simp only [hid])

theorem keeps_replace (hopen : row.state ≠ .fulfilled) (hok : Inv H d → row'.Ok H d.drawn) :
    Keeps H d { d with orders := d.orders.replace row' } := by
  refine ⟨le_rfl, fun _ _ h => h, fun k r hr => ?_, inv_replace hrow hid hok⟩
  by_cases hk : k = id
  · subst hk
    obtain rfl := Option.some.inj (hr.symm.trans hrow)
    exact ⟨row', by rw [get_replace hrow hid, if_pos rfl], hid, fun h => absurd h hopen⟩
  · exact ⟨r, by rw [get_replace hrow hid, if_neg hk]; exact hr, .refl r⟩

/-- The step of a process that changes a row. -/
theorem step_replace (hopen : row.state ≠ .fulfilled) (hok : Inv H d → row'.Ok H d.drawn)
    (hfulfils : row'.state = .fulfilled → row.state = .delivering ∧
      ∃ token, row.deliveryToken = some token ∧ d.drawn token = some i) :
    Step H i d { d with orders := d.orders.replace row' } := by
  refine ⟨keeps_replace hrow hid hopen hok, fun k r r' hr hr' hropen hrclosed => ?_⟩
  rw [get_replace hrow hid] at hr'
  split_ifs at hr' with hk
  · subst hk
    cases hr'
    obtain rfl := Option.some.inj (hr.symm.trans hrow)
    exact hfulfils hrclosed
  · obtain rfl := Option.some.inj (hr.symm.trans hr')
    exact absurd hrclosed hropen

end Replace

/-! ### The statements -/

variable {J : Jsonb} {orderId : Bytes32} {userId token message : JsString} {o : Option OrderRow}

theorem ok_claim (h : row.Ok H d.drawn) (hopen : row.state ≠ .fulfilled)
    (hdrawn : d.drawn token = some i) : (row.claim d.now token).Ok H d.drawn where
  bound := by
    obtain ⟨service, request, hb⟩ := h.bound
    exact ⟨service, request, hb.1, hb.2, hb.3, hb.4, hb.5, hb.6, hb.7⟩
  distinct := h.distinct
  claimed := ⟨fun _ => rfl, fun _ => rfl⟩
  leased := rfl
  drawn := fun token' htoken => by
    obtain rfl : token = token' := Option.some.inj htoken
    rw [hdrawn]; rfl
  pending := fun _ => h.pending hopen
  delivered := fun hf => by cases hf

theorem ok_release (h : row.Ok H d.drawn) (hopen : row.state ≠ .fulfilled) :
    (row.release d.now message).Ok H d.drawn where
  bound := by
    obtain ⟨service, request, hb⟩ := h.bound
    exact ⟨service, request, hb.1, hb.2, hb.3, hb.4, hb.5, hb.6, hb.7⟩
  distinct := h.distinct
  claimed := ⟨fun hf => (by cases hf), fun hf => (by cases hf)⟩
  leased := rfl
  drawn := fun token' htoken => by cases htoken
  pending := fun _ => h.pending hopen
  delivered := fun hf => by cases hf

/-- An output that can be recorded for a definition. -/
structure Recordable (H : Host) (definition output : Json) (outputHash : Bytes32) : Prop where
  distinct : output.Distinct
  hash : output.canonicalJsonHash H = .ok outputHash
  service : ∃ service, ServiceDefinition.validate H definition = .ok service ∧
    output.validateSchemaValue H service.outputSchema (128 * 1024) = .ok ()

theorem ok_fulfil {output stored : Json} {outputHash : Bytes32} (h : row.Ok H d.drawn)
    (hrecord : Recordable H row.definition output outputHash)
    (hstored : J.store output = some stored) :
    (row.fulfil d.now stored outputHash).Ok H d.drawn where
  bound := by
    obtain ⟨service, request, hb⟩ := h.bound
    exact ⟨service, request, hb.1, hb.2, hb.3, hb.4, hb.5, hb.6, hb.7⟩
  distinct := h.distinct
  claimed := ⟨fun hf => (by cases hf), fun hf => (by cases hf)⟩
  leased := rfl
  drawn := fun token' htoken => by cases htoken
  pending := fun hopen => absurd rfl hopen
  delivered := fun _ => by
    obtain ⟨service, hservice, hschema⟩ := hrecord.service
    obtain ⟨hdistinct, hsame⟩ := J.store_same hrecord.distinct
      (Json.finite_of_canonicalJsonHash hrecord.hash) hstored
    have hsame' := hsame.symm hdistinct hrecord.distinct
    have hout := (ServiceDefinition.distinct_of_validate h.distinct hservice).2
    exact ⟨stored, outputHash, service, rfl, rfl,
      Json.canonicalJsonHash_same hrecord.distinct hdistinct hsame' hrecord.hash, hservice,
      Json.validateSchemaValue_same hrecord.distinct hdistinct hsame' hout hout (.refl hout)
        hschema⟩

theorem validate_ok {x : Json} {service : ServiceDefinition} :
    ServiceDefinition.validate H x = .ok service ↔
      ServiceDefinition.parse H x = .ok service ∧ service.check H = .ok () := by
  simp only [ServiceDefinition.validate, bind_eq_ok, pure_eq_ok]
  constructor
  · rintro ⟨_, hparse, _, hcheck, rfl⟩
    exact ⟨hparse, hcheck⟩
  · rintro ⟨hparse, hcheck⟩
    exact ⟨_, hparse, _, hcheck, rfl⟩

/-- The row of an order that was checked: what is stored is accepted again. -/
theorem bound_stored {x z request' definition : Json} {service : ServiceDefinition}
    {request : ServiceRequest} {order : NewOrder} {a : Bytes32} {now : ℕ}
    (hlower : ∀ a : Address, H.isAddress a.text = true)
    (hx : x.Distinct) (hservice : ServiceDefinition.validate H x = .ok service)
    (hz : z.Distinct) (hrequest : ServiceRequest.parse H z = .ok request)
    (hvalid : request.check H service = .ok ())
    (hpaid : ∃ v, request.verifyServiceSettlement H service order.receipt = .ok v)
    (hhash : request.json.canonicalJsonHash H = .ok a)
    (horder : order.orderId = request.orderId ∧ order.serviceHash = service.serviceHash ∧
      order.transactionHash = request.transactionHash)
    (hrequest' : J.store request.json = some request')
    (hdefinition : J.store service.json = some definition) :
    definition.Distinct ∧
      ∃ service request'', (order.stored now request' definition).Bound H service request'' := by
  obtain ⟨hparse, hcheck⟩ := validate_ok.1 hservice
  obtain ⟨hdistinct, hd, service', hparse', hs, hd'⟩ :=
    ServiceDefinition.stored hlower hx hparse hdefinition
  obtain ⟨hi, request'', hrequest'', hr, hi'⟩ :=
    ServiceRequest.stored hlower hz hrequest hhash hrequest'
  refine ⟨hdistinct, service', request'',
    validate_ok.2 ⟨hparse', ServiceDefinition.check_same hs hcheck⟩, hrequest'',
    ServiceRequest.check_same hs hr hd hd' hi hi' hvalid, ?_, ?_, ?_, ?_⟩
  · obtain ⟨v, hv⟩ := hpaid
    exact ⟨v, (ServiceRequest.verify_same hs hr).trans hv⟩
  · rw [← hr.fields]; exact horder.1
  · rw [← hs.fields]; exact horder.2.1
  · rw [← hr.fields]; exact horder.2.2

theorem open_of_delivering (h : row.state = .delivering) : row.state ≠ .fulfilled := by
  rw [h]
  exact fun h => by cases h

/-- Drawing a token. -/
theorem step_draw (hfresh : d.drawn token = none) :
    Step H i d { d with drawn := Function.update d.drawn token (some i) } := by
  have hmono : ∀ token' j, d.drawn token' = some j →
      Function.update d.drawn token (some i) token' = some j := by
    intro token' j hj
    rw [Function.update_of_ne (fun he => by rw [he, hfresh] at hj; cases hj)]
    exact hj
  refine ⟨⟨le_rfl, hmono, fun _ row hrow => ⟨row, hrow, .refl row⟩,
    fun hinv => ⟨?_, hinv.unique, ?_⟩⟩, (Step.refl (H := H) i d).fulfils⟩
  · intro id row hrow
    exact (hinv.rows id row hrow).mono hmono
  · refine (hinv.few.insert token).subset fun token' htoken' => ?_
    by_cases he : token' = token
    · exact Or.inl he
    · refine Or.inr ?_
      simp only [Set.mem_ofPred_eq, Function.update_of_ne he] at htoken'
      exact htoken'

/-- Claiming a delivery. -/
theorem step_claim (hdrawn : d.drawn token = some i)
    (h : claimDelivery orderId userId token d = .ok (o, d')) :
    Step H i d d' ∧ ∀ row', o = some row' → d'.orders.get orderId = some row' := by
  rcases claimDelivery_ok h with ⟨rfl, rfl⟩ | ⟨row, hrow, -, hstate, -, -, rfl, rfl⟩
  · exact ⟨.refl i _, fun row' ho => by cases ho⟩
  · have hopen : row.state ≠ .fulfilled := by
      intro hf
      rcases hstate with hs | ⟨hs, -⟩ <;> rw [hf] at hs <;> cases hs
    have hid : (row.claim d.now token).toOrderIdentity = row.toOrderIdentity := rfl
    refine ⟨step_replace hrow hid hopen (fun hinv => ok_claim (hinv.rows _ _ hrow) hopen hdrawn)
      fun hf => (by cases hf), fun row' ho => ?_⟩
    cases ho
    exact (get_replace hrow hid _).trans (if_pos rfl)

/-- Releasing an order. -/
theorem step_release {u : Unit} (h : releaseDelivery orderId userId token message d = .ok (u, d'))
    (hinv : Inv H d) : Step H i d d' := by
  rcases releaseDelivery_ok h with rfl | ⟨row, hrow, htoken, -, rfl⟩
  · exact .refl i _
  · have hok := hinv.rows _ _ hrow
    have hopen : row.state ≠ .fulfilled :=
      open_of_delivering (hok.claimed.2 (by rw [htoken]; rfl))
    exact step_replace hrow rfl hopen (fun _ => ok_release hok hopen) fun hf => by cases hf

/-- Recording a new order. -/
theorem step_insert {order : NewOrder}
    (hnew : ∀ request definition, J.store order.request = some request →
      J.store order.definition = some definition → definition.Distinct ∧
        ∃ service request', (order.stored d.now request definition).Bound H service request')
    (h : insertOrder J order d = .ok (o, d')) :
    Step H i d d' ∧ ∀ row', o = some row' → d'.orders.get order.orderId = some row' := by
  rcases insertOrder_ok h with ⟨rfl, rfl, -⟩ |
    ⟨request, definition, hrequest, hdefinition, hfree, hother, rfl, rfl⟩
  · exact ⟨.refl i _, fun row' ho => by cases ho⟩
  obtain ⟨hdistinct, hbound⟩ := hnew request definition hrequest hdefinition
  have hget : ∀ k, (d.orders.insert (order.stored d.now request definition)).get k =
      if k = order.orderId then some (order.stored d.now request definition)
      else d.orders.get k := fun k => Table.get_insert hfree
  have hok : (order.stored d.now request definition).Ok H d.drawn :=
    ⟨hbound, hdistinct, ⟨fun hf => (by cases hf), fun hf => (by cases hf)⟩, rfl,
      fun token htoken => (by cases htoken), fun _ => ⟨rfl, rfl⟩, fun hf => (by cases hf)⟩
  refine ⟨⟨⟨le_rfl, fun _ _ h => h, ?_, fun hinv => ⟨?_, ?_, hinv.few⟩⟩, ?_⟩, ?_⟩
  · intro id row hrow
    refine ⟨row, ?_, .refl row⟩
    rw [hget, if_neg]
    · exact hrow
    · rintro rfl
      rw [hfree] at hrow
      cases hrow
  · intro id row hrow
    rw [hget] at hrow
    split_ifs at hrow with hid
    · cases hrow
      exact hok
    · exact hinv.rows id row hrow
  · refine hinv.unique.insert hfree fun k row v hrow hv hv' => ?_
    cases hv
    exact hother k row hrow (Option.some.inj hv')
  · intro id row row' hrow hrow' hopen hclosed
    rw [hget] at hrow'
    split_ifs at hrow' with hid
    · cases hrow'
      cases hclosed
    · obtain rfl := Option.some.inj (hrow.symm.trans hrow')
      exact absurd hclosed hopen
  · intro row' ho
    cases ho
    exact (hget _).trans (if_pos rfl)

/-- Completing a delivery. -/
theorem step_complete {output : Json} {outputHash : Bytes32} (hdrawn : d.drawn token = some i)
    (hrecord : ∀ row, d.orders.get orderId = some row →
      Recordable H row.definition output outputHash)
    (h : completeDelivery J orderId userId token output outputHash d = .ok (o, d')) :
    Step H i d d' := by
  rcases completeDelivery_ok h with ⟨-, rfl⟩ | ⟨row, stored, hrow, hstate, htoken, hstored, -, rfl⟩
  · exact .refl i _
  · exact step_replace hrow rfl (open_of_delivering hstate)
      (fun hinv => ok_fulfil (hinv.rows _ _ hrow) (hrecord row hrow) hstored)
      fun _ => ⟨hstate, token, htoken, hdrawn⟩

end Marketplace

end Obolos
