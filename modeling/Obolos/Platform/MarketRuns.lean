import Obolos.Crash.Reach
import Obolos.Economy.KeyOrder
import Obolos.Platform.Marketplace

/-!
# Every run of the hosted market

`Inv` : every order satisfies its constraints, no two orders share a job, a purchase of evidence or
a transaction, and a recorded result is what the service of the order answers for its report and
its payment.

`Step` is what one statement of one process may do to the orders: what was written of an order
stays (`OrderRow.Becomes`), its status goes one step at most, and only the process that drew the
token of the order records its result.  The handlers are verified against it one by one, and so
`market_orders` holds of every run.
-/

namespace Obolos

namespace HostedMarket

open Prog (post wp_seq wp_catch wp_post_mono wp_await wp_ite wp_pure wp_throw wp_mono)

variable {ι : Type} {M : Market}

/-! ### What is always true of the orders -/

/-- How far an order is. -/
def OrderStatus.rank : OrderStatus → ℕ
  | .quoted => 0
  | .paid => 1
  | .fulfilled => 2

namespace OrderRow

/-- What the service of the order answers, by the snapshot of the service, the report and the
recorded payment. -/
def Computed (M : Market) (answers : List (RemoteRequest × Json)) (row : OrderRow) (x : Json) :
    Prop :=
  match row.serviceSnapshot.providerEndpoint with
  | some endpoint =>
    (remoteRequest M row.toOrderIdentity endpoint (hashText row.transactionHash), x) ∈ answers
  | none => M.verifyMetricReport row.report (row.proof.bind (Json.prop "timestamp")) = .ok x

/-- What is true of a row, given what remote verifications were answered. -/
structure Ok (M : Market) (answers : List (RemoteRequest × Json)) (row : OrderRow) : Prop where
  state : row.State
  lease : row.Lease
  result : ∀ r, row.result = some r → ∃ x, M.jsonb.store x = some r ∧ row.Computed M answers x

/-- What becomes of a row: what was written stays. -/
structure Becomes (row row' : OrderRow) : Prop where
  identity : row'.toOrderIdentity = row.toOrderIdentity
  status : row.status.rank ≤ row'.status.rank
  hash : ∀ hash, row.transactionHash = some hash → row'.transactionHash = some hash
  proof : ∀ proof, row.proof = some proof → row'.proof = some proof
  result : ∀ r, row.result = some r → row' = row

/-- A new row: nothing is paid, proved or delivered. -/
structure Quoted (row : OrderRow) : Prop where
  status : row.status = .quoted
  hash : row.transactionHash = none
  proof : row.proof = none
  result : row.result = none

end OrderRow

/-- The invariant. -/
structure Inv (M : Market) (d : Db ι) : Prop where
  rows : ∀ id row, d.orders.get id = some row → row.Ok M d.answers
  jobs : d.orders.Unique fun row => some row.jobId
  transactions : d.orders.Unique fun row => some row.dataTransactionId
  sources : d.orders.Unique fun row => some row.dataSourceId
  hashes : d.orders.Unique fun row => row.transactionHash

/-- What may happen to the orders in any time. -/
structure Keeps (M : Market) (d d' : Db ι) : Prop where
  drawn : ∀ token i, d.drawn token = some i → d'.drawn token = some i
  answers : ∀ x, x ∈ d.answers → x ∈ d'.answers
  rows : ∀ id row, d.orders.get id = some row →
    ∃ row', d'.orders.get id = some row' ∧ row.Becomes row'
  inv : Inv M d → Inv M d'

/-- What a process may do in one step. -/
structure Step (M : Market) (i : ι) (d d' : Db ι) : Prop where
  keeps : Keeps M d d'
  inserts : ∀ id row, d.orders.get id = none → d'.orders.get id = some row → row.Quoted
  next : ∀ id row row', d.orders.get id = some row → d'.orders.get id = some row' →
    row'.status.rank ≤ row.status.rank + 1
  records : ∀ id row row', d.orders.get id = some row → d'.orders.get id = some row' →
    row.result = none → row'.result ≠ none →
      ∃ token, row.deliveryToken = some token ∧ d.drawn token = some i

variable {i : ι} {d d' d'' : Db ι} {row row' row'' : OrderRow}
  {answers answers' : List (RemoteRequest × Json)}

namespace OrderRow

theorem Becomes.refl (row : OrderRow) : row.Becomes row :=
  ⟨rfl, le_rfl, fun _ h => h, fun _ h => h, fun _ _ => rfl⟩

theorem Becomes.trans (h : row.Becomes row') (h' : row'.Becomes row'') : row.Becomes row'' := by
  refine ⟨h'.identity.trans h.identity, h.status.trans h'.status,
    fun hash hhash => h'.hash hash (h.hash hash hhash),
    fun proof hproof => h'.proof proof (h.proof proof hproof), fun r hr => ?_⟩
  obtain rfl := h.result r hr
  exact h'.result r hr

/-- An order that is paid keeps its payment. -/
theorem Becomes.payment (h : row.Becomes row') (hstate : row.State) (hpaid : row.status ≠ .quoted) :
    row'.transactionHash = row.transactionHash ∧ row'.proof = row.proof := by
  have hsome : row.transactionHash ≠ none ∧ row.proof.isSome = true := by
    rcases hstate with ⟨hquoted, -⟩ | ⟨-, hhash, hproof, -⟩ | ⟨-, hhash, hproof, -⟩
    · exact absurd hquoted hpaid
    · exact ⟨hhash, hproof⟩
    · exact ⟨hhash, hproof⟩
  obtain ⟨hash, hhash⟩ := Option.ne_none_iff_exists'.1 hsome.1
  obtain ⟨proof, hproof⟩ := Option.isSome_iff_exists.1 hsome.2
  exact ⟨(h.hash hash hhash).trans hhash.symm, (h.proof proof hproof).trans hproof.symm⟩

/-- The result depends on what is kept. -/
theorem Computed.of_eq {x : Json} (h : row.Computed M answers x)
    (hid : row'.toOrderIdentity = row.toOrderIdentity)
    (hhash : row'.transactionHash = row.transactionHash) (hproof : row'.proof = row.proof) :
    row'.Computed M answers x := by
  unfold Computed at h ⊢
  rw [hid, hhash, hproof]
  exact h

/-- Later answers change nothing. -/
theorem Computed.mono {x : Json} (h : row.Computed M answers x)
    (hanswers : ∀ x, x ∈ answers → x ∈ answers') : row.Computed M answers' x := by
  unfold Computed at h ⊢
  split at h
  · exact hanswers _ h
  · exact h

theorem Ok.mono (h : row.Ok M answers) (hanswers : ∀ x, x ∈ answers → x ∈ answers') :
    row.Ok M answers' := by
  refine ⟨h.state, h.lease, fun r hr => ?_⟩
  obtain ⟨x, hx, hcomputed⟩ := h.result r hr
  exact ⟨x, hx, hcomputed.mono hanswers⟩

/-- An order that is only paid has no result. -/
theorem State.pending (h : row.State) (hpaid : row.status = .paid) : row.result = none := by
  rcases h with ⟨-, -, -, hresult⟩ | ⟨-, -, -, hresult⟩ | ⟨hfulfilled, -⟩
  · exact Option.isNone_iff_eq_none.1 hresult
  · exact Option.isNone_iff_eq_none.1 hresult
  · rw [hpaid] at hfulfilled
    cases hfulfilled

/-- A quoted order has no payment. -/
theorem State.unpaid (h : row.State) (hquoted : row.status = .quoted) :
    row.transactionHash = none ∧ row.proof = none ∧ row.result = none := by
  rcases h with ⟨-, hhash, hproof, hresult⟩ | ⟨hs, -⟩ | ⟨hs, -⟩
  · exact ⟨hhash, Option.isNone_iff_eq_none.1 hproof, Option.isNone_iff_eq_none.1 hresult⟩
  · rw [hquoted] at hs
    cases hs
  · rw [hquoted] at hs
    cases hs

/-- An order with a transaction is not quoted. -/
theorem State.paid (h : row.State) {hash : Bytes32} (hhash : row.transactionHash = some hash) :
    row.status ≠ .quoted := by
  intro hquoted
  have hnone := (h.unpaid hquoted).1
  rw [hhash] at hnone
  cases hnone

end OrderRow

theorem Keeps.refl (d : Db ι) : Keeps M d d :=
  ⟨fun _ _ h => h, fun _ h => h, fun _ row h => ⟨row, h, .refl row⟩, fun h => h⟩

theorem Keeps.trans (h : Keeps M d d') (h' : Keeps M d' d'') : Keeps M d d'' := by
  refine ⟨fun token i hi => h'.drawn token i (h.drawn token i hi),
    fun x hx => h'.answers x (h.answers x hx), fun id row hrow => ?_,
    fun hinv => h'.inv (h.inv hinv)⟩
  obtain ⟨row', hrow', hb⟩ := h.rows id row hrow
  obtain ⟨row'', hrow'', hb'⟩ := h'.rows id row' hrow'
  exact ⟨row'', hrow'', hb.trans hb'⟩

/-- A step that keeps the orders. -/
theorem step_same (horders : d'.orders = d.orders) (hkeeps : Keeps M d d') : Step M i d d' := by
  refine ⟨hkeeps, fun id row hnone hrow => ?_, fun id row row' hrow hrow' => ?_,
    fun id row row' hrow hrow' hnone hsome => ?_⟩
  · rw [horders, hnone] at hrow
    cases hrow
  · rw [horders, hrow] at hrow'
    cases hrow'
    exact Nat.le_succ _
  · rw [horders, hrow] at hrow'
    cases hrow'
    exact absurd hnone hsome

theorem Step.refl (i : ι) (d : Db ι) : Step M i d d := step_same rfl (.refl d)

/-! ### Changing a row -/

section Replace

variable {id : JsString} (hrow : d.orders.get id = some row)
  (hb : row.Becomes row')

include hrow hb

theorem id_of_get : row'.id = id := by
  have hid : row.id = id := (Table.get_eq_some.1 hrow).2
  rw [hb.identity]
  exact hid

theorem get_replace (k : JsString) :
    (d.orders.replace row').get k = if k = id then some row' else d.orders.get k := by
  have hkey := id_of_get hrow hb
  have hrow' : d.orders.get row'.id = some row := by
    rw [hkey]
    exact hrow
  rw [Table.get_replace (r := row') hrow']
  simp only [hkey]

/-- A row is changed, and its transaction is that of no other row. -/
theorem inv_replace (hok : row'.Ok M d.answers)
    (hhash : row'.transactionHash = row.transactionHash ∨ ∀ k r hash, k ≠ id →
      d.orders.get k = some r → row'.transactionHash = some hash → r.transactionHash ≠ some hash)
    (hinv : Inv M d) : Inv M { d with orders := d.orders.replace row' } := by
  have hkey := id_of_get hrow hb
  have hrow' : d.orders.get row'.id = some row := by
    rw [hkey]
    exact hrow
  refine ⟨fun k r hr => ?_, hinv.jobs.replace_same hrow' ?_,
    hinv.transactions.replace_same hrow' ?_, hinv.sources.replace_same hrow' ?_, ?_⟩
  · rw [get_replace hrow hb] at hr
    split_ifs at hr with hk
    · cases hr
      exact hok
    · exact hinv.rows k r hr
  · rw [hb.identity]
  · rw [hb.identity]
  · rw [hb.identity]
  · rcases hhash with hsame | hother
    · exact hinv.hashes.replace_same hrow' hsame
    · refine hinv.hashes.replace hrow' fun k r hash hk hr hnew => ?_
      exact hother k r hash (hkey ▸ hk) hr hnew

/-- The step of a process that changes a row. -/
theorem step_replace (hok : Inv M d → row'.Ok M d.answers)
    (hhash : row'.transactionHash = row.transactionHash ∨ ∀ k r hash, k ≠ id →
      d.orders.get k = some r → row'.transactionHash = some hash → r.transactionHash ≠ some hash)
    (hnext : row'.status.rank ≤ row.status.rank + 1)
    (hrecords : row.result = none → row'.result ≠ none →
      ∃ token, row.deliveryToken = some token ∧ d.drawn token = some i) :
    Step M i d { d with orders := d.orders.replace row' } := by
  refine ⟨⟨fun _ _ h => h, fun _ h => h, fun k r hr => ?_,
    fun hinv => inv_replace hrow hb (hok hinv) hhash hinv⟩, fun k r hnone hr => ?_,
    fun k r r' hr hr' => ?_, fun k r r' hr hr' hnone hsome => ?_⟩
  · by_cases hk : k = id
    · subst hk
      obtain rfl := Option.some.inj (hr.symm.trans hrow)
      exact ⟨row', (get_replace hrow hb k).trans (if_pos rfl), hb⟩
    · exact ⟨r, (get_replace hrow hb k).trans ((if_neg hk).trans hr), .refl r⟩
  · rw [get_replace hrow hb] at hr
    split_ifs at hr with hk
    · subst hk
      rw [hrow] at hnone
      cases hnone
    · rw [hnone] at hr
      cases hr
  · rw [get_replace hrow hb] at hr'
    split_ifs at hr' with hk
    · subst hk
      cases hr'
      obtain rfl := Option.some.inj (hr.symm.trans hrow)
      exact hnext
    · obtain rfl := Option.some.inj (hr.symm.trans hr')
      exact Nat.le_succ _
  · rw [get_replace hrow hb] at hr'
    split_ifs at hr' with hk
    · subst hk
      cases hr'
      obtain rfl := Option.some.inj (hr.symm.trans hrow)
      exact hrecords hnone hsome
    · obtain rfl := Option.some.inj (hr.symm.trans hr')
      exact absurd hnone hsome

end Replace

/-! ### The statements -/

variable {J : Jsonb} {id runnerId token message : JsString} {scope : OrderScope} {hash : Bytes32}
  {o : Option OrderRow} {proof result : Json}

/-- Recording a new order. -/
theorem step_insert {order : NewOrder} (h : insertOrder J order d = .ok (o, d')) :
    Step M i d d' ∧ ∀ row', o = some row' → d'.orders.get row'.id = some row' := by
  rcases insertOrder_ok h with ⟨rfl, rfl⟩ | ⟨report, service, -, hother, rfl, rfl⟩
  · exact ⟨.refl i _, fun row' ho => by cases ho⟩
  -- The insert is refused where the identifier is taken.
  have hfree : d.orders.get order.id = none := by
    cases hget : d.orders.get order.id with
    | none => rfl
    | some r => exact absurd (Table.get_eq_some.1 hget).2 (hother _ r hget).1
  have hget : ∀ k, (d.orders.insert (order.stored d.now service report)).get k =
      if k = order.id then some (order.stored d.now service report) else d.orders.get k :=
    fun k => Table.get_insert hfree
  have hold : ∀ k r, d.orders.get k = some r → k ≠ order.id := by
    rintro k r hr rfl
    rw [hfree] at hr
    cases hr
  have hok : (order.stored d.now service report).Ok M d.answers :=
    ⟨Or.inl ⟨rfl, rfl, rfl, rfl⟩, Iff.rfl.trans ⟨fun _ => rfl, fun _ => rfl⟩,
      fun r hr => by cases hr⟩
  refine ⟨⟨⟨fun _ _ h => h, fun _ h => h, fun k r hr => ?_, fun hinv => ?_⟩,
    fun k r hnone hr => ?_, fun k r r' hr hr' => ?_, fun k r r' hr hr' hnone hsome => ?_⟩, ?_⟩
  · exact ⟨r, (hget k).trans ((if_neg (hold k r hr)).trans hr), .refl r⟩
  · refine ⟨fun k r hr => ?_, hinv.jobs.insert hfree fun k r v hr hv hv' => ?_,
      hinv.transactions.insert hfree fun k r v hr hv hv' => ?_,
      hinv.sources.insert hfree fun k r v hr hv hv' => ?_,
      hinv.hashes.insert hfree fun k r v hr hv hv' => ?_⟩
    · rw [hget] at hr
      split_ifs at hr with hk
      · cases hr
        exact hok
      · exact hinv.rows k r hr
    -- Of the values that are unique the new order has all but the hash of a payment.
    · cases hv
      exact (hother k r hr).2.1 (Option.some.inj hv')
    · cases hv
      exact (hother k r hr).2.2.1 (Option.some.inj hv')
    · cases hv
      exact (hother k r hr).2.2.2 (Option.some.inj hv')
    · cases hv
  · rw [hget] at hr
    split_ifs at hr with hk
    · cases hr
      exact ⟨rfl, rfl, rfl, rfl⟩
    · rw [hnone] at hr
      cases hr
  · rw [hget, if_neg (hold k r hr), hr] at hr'
    cases hr'
    exact Nat.le_succ _
  · rw [hget, if_neg (hold k r hr), hr] at hr'
    cases hr'
    exact absurd hnone hsome
  · intro row' ho
    cases ho
    exact (hget _).trans (if_pos rfl)

/-- A transaction pays for an order. -/
theorem step_pay (hinv : Inv M d) (h : markPaid J id runnerId hash proof d = .ok (o, d')) :
    Step M i d d' ∧ ∀ row', o = some row' → d'.orders.get row'.id = some row' := by
  rcases markPaid_ok h with ⟨rfl, rfl⟩ |
    ⟨row, stored, hrow, hquoted, -, hother, hstate, hlease, rfl, rfl⟩
  · exact ⟨.refl i _, fun row' ho => by cases ho⟩
  obtain ⟨hhash, hproof, hresult⟩ := (hinv.rows id row hrow).state.unpaid hquoted
  have hb : row.Becomes (row.pay hash stored) := by
    refine ⟨rfl, ?_, fun h hh => ?_, fun p hp => ?_, fun r hr => ?_⟩
    · rw [hquoted]
      exact Nat.zero_le _
    · rw [hhash] at hh
      cases hh
    · rw [hproof] at hp
      cases hp
    · rw [hresult] at hr
      cases hr
  refine ⟨step_replace hrow hb (fun _ => ⟨hstate, hlease, fun r hr => ?_⟩) (Or.inr ?_) ?_ ?_, ?_⟩
  · exact absurd (hresult.symm.trans hr) (Option.some_ne_none r).symm
  · intro k r h hk hr hh
    cases hh
    exact hother k r hk hr
  · exact Nat.le_add_left _ _
  · exact fun _ hsome => absurd hresult hsome
  · intro row' ho
    cases ho
    exact (get_replace hrow hb _).trans (if_pos (id_of_get hrow hb))

/-- Claiming a delivery. -/
theorem step_claim (hinv : Inv M d) (h : claimDelivery id scope token d = .ok (o, d')) :
    Step M i d d' ∧ ∀ row', o = some row' → d'.orders.get id = some row' ∧
      row'.status = .paid := by
  rcases claimDelivery_ok h with ⟨rfl, rfl⟩ | ⟨row, hrow, hpaid, -, hstate, hlease, rfl, rfl⟩
  · exact ⟨.refl i _, fun row' ho => by cases ho⟩
  have hresult := (hinv.rows id row hrow).state.pending hpaid
  have hb : row.Becomes (row.claim d.now token) := by
    refine ⟨rfl, le_rfl, fun _ h => h, fun _ h => h, fun r hr => ?_⟩
    rw [hresult] at hr
    cases hr
  refine ⟨step_replace hrow hb (fun _ => ⟨hstate, hlease, fun r hr => ?_⟩) (Or.inl rfl)
    (Nat.le_succ _) fun _ hsome => absurd hresult hsome, fun row' ho => ?_⟩
  · exact absurd (hresult.symm.trans hr) (Option.some_ne_none r).symm
  · cases ho
    exact ⟨(get_replace hrow hb _).trans (if_pos rfl), hpaid⟩

/-- Giving a delivery up. -/
theorem step_fail {u : Unit} (hinv : Inv M d) (h : failDelivery id token message d = .ok (u, d')) :
    Step M i d d' := by
  rcases failDelivery_ok h with rfl | ⟨row, hrow, hpaid, hstate, hlease, rfl⟩
  · exact .refl i _
  have hresult := (hinv.rows id row hrow).state.pending hpaid
  have hb : row.Becomes (row.giveUp message) := by
    refine ⟨rfl, le_rfl, fun _ h => h, fun _ h => h, fun r hr => ?_⟩
    rw [hresult] at hr
    cases hr
  refine step_replace hrow hb (fun _ => ⟨hstate, hlease, fun r hr => ?_⟩) (Or.inl rfl)
    (Nat.le_succ _) fun _ hsome => absurd hresult hsome
  exact absurd (hresult.symm.trans hr) (Option.some_ne_none r).symm

/-- Recording a result. -/
theorem step_complete (hdrawn : d.drawn token = some i) (hinv : Inv M d)
    (hcomputed : ∀ row, d.orders.get id = some row → row.status = .paid →
      row.Computed M d.answers result)
    (h : completeDelivery M.jsonb id token result d = .ok (o, d')) : Step M i d d' := by
  rcases completeDelivery_ok h with ⟨-, rfl⟩ |
    ⟨row, stored, hrow, hpaid, htoken, hstored, hstate, hlease, -, rfl⟩
  · exact .refl i _
  have hb : row.Becomes (row.fulfil stored) := by
    refine ⟨rfl, ?_, fun _ h => h, fun _ h => h, fun r hr => ?_⟩
    · rw [hpaid]
      exact Nat.le_succ 1
    · rw [(hinv.rows id row hrow).state.pending hpaid] at hr
      cases hr
  refine step_replace hrow hb (fun _ => ⟨hstate, hlease, fun r hr => ?_⟩) (Or.inl rfl) ?_
    fun _ _ => ⟨token, htoken, hdrawn⟩
  · cases hr
    exact ⟨result, hstored, (hcomputed row hrow hpaid).of_eq rfl rfl rfl⟩
  · rw [hpaid]
    exact Nat.le_refl 2

/-- Drawing a token. -/
theorem step_draw (hfresh : d.drawn token = none) :
    Step M i d { d with drawn := Function.update d.drawn token (some i) } := by
  refine step_same rfl ⟨fun token' j hj => ?_, fun _ h => h, fun _ row hrow =>
    ⟨row, hrow, .refl row⟩, fun hinv => ⟨hinv.rows, hinv.jobs, hinv.transactions, hinv.sources,
      hinv.hashes⟩⟩
  show Function.update d.drawn token (some i) token' = some j
  rw [Function.update_of_ne (fun he => by rw [he, hfresh] at hj; cases hj)]
  exact hj

/-- An answer of a provider. -/
theorem step_answer (more : List (RemoteRequest × Json)) :
    Step M i d { d with answers := d.answers ++ more } := by
  have hmono : ∀ x, x ∈ d.answers → x ∈ d.answers ++ more := fun _ hx =>
    List.mem_append_left _ hx
  refine step_same rfl ⟨fun _ _ h => h, hmono, fun _ row hrow => ⟨row, hrow, .refl row⟩,
    fun hinv => ⟨fun id row hrow => (hinv.rows id row hrow).mono hmono, hinv.jobs,
      hinv.transactions, hinv.sources, hinv.hashes⟩⟩

/-! ### One effect -/

/-- What the handlers rely on, and what they guarantee. -/
def protocol (ι : Type) (M : Market) : Protocol ι (Db ι) where
  inv := Inv M
  rely _ d d' := Keeps M d d'
  guar i d d' := Step M i d d'

/-- What the handlers of process `i` are verified against. -/
abbrev spec (M : Market) (i : ι) : Prog.Spec (Db ι) Effect Answer ApiError :=
  (protocol ι M).spec (system M) i

variable {α : Type} {I : Db ι → Prop}

/-- An effect from a condition that the others keep. -/
theorem wp_perform {o : Effect} {P : Answer o → Db ι → Prop} (hI : I d)
    (hstable : ∀ d d', Keeps M d d' → I d → I d')
    (h : ∀ d r d', I d → sem M i d o r d' → Step M i d d' ∧ ∀ a, r = .ok a → P a d') :
    (perform o).wp (spec M i) (post I P) d := by
  refine wp_await.2 fun d₁ hrely r d₂ hsem => ?_
  have hI₁ := hstable d d₁ hrely hI
  obtain ⟨hstep, hP⟩ := h d₁ r d₂ hI₁ hsem
  refine ⟨hstep, ?_⟩
  have hI₂ := hstable d₁ d₂ hstep.keeps hI₁
  cases r with
  | ok a => exact ⟨hI₂, hP a rfl⟩
  | error e => exact hI₂

/-- An effect that leaves the database alone. -/
theorem wp_same {o : Effect} (hI : I d) (hstable : ∀ d d', Keeps M d d' → I d → I d')
    (h : ∀ (d : Db ι) r d', sem M i d o r d' → d' = d) :
    (perform o).wp (spec M i) (post I fun _ _ => True) d := by
  refine wp_perform hI hstable fun d r d' _ hsem => ?_
  obtain rfl := h d r d' hsem
  exact ⟨.refl i _, fun _ _ => trivial⟩

theorem wp_check {x : Except JsError α} (hI : I d) :
    (check x).wp (spec M i) (post I fun a _ => x = .ok a) d :=
  Prog.wp_ofExcept_post hI fun _ ha => ApiError.lift_ok.1 ha

theorem wp_fail {status : ℕ} {code message : String} {P : α → Db ι → Prop} (hI : I d) :
    (fail status code message : Exec α).wp (spec M i) (post I P) d :=
  wp_throw.2 hI

theorem wp_parseUuid {id : JsString} (hI : I d) :
    (parseUuid M id).wp (spec M i) (post I fun _ _ => True) d := by
  unfold parseUuid
  exact wp_ite (fun _ => wp_pure.2 ⟨hI, trivial⟩) fun _ => wp_throw.2 hI

theorem stable_inv (d d' : Db ι) (h : Keeps M d d') (hinv : Inv M d) : Inv M d' := h.inv hinv

/-! ### Orders that were read -/

/-- The row was read from the orders. -/
structure Seen (M : Market) (row : OrderRow) (d : Db ι) : Prop where
  inv : Inv M d
  state : row.State
  row : ∃ row', d.orders.get row.id = some row' ∧ row.Becomes row'

theorem Seen.stable (d d' : Db ι) (h : Keeps M d d') (hs : Seen M row d) : Seen M row d' := by
  obtain ⟨row', hrow, hb⟩ := hs.row
  obtain ⟨row'', hrow', hb'⟩ := h.rows _ row' hrow
  exact ⟨h.inv hs.inv, hs.state, row'', hrow', hb.trans hb'⟩

theorem seen_of_get (hinv : Inv M d) (hrow : d.orders.get row.id = some row) : Seen M row d :=
  ⟨hinv, (hinv.rows _ row hrow).state, row, hrow, .refl row⟩

theorem wp_getMarketOrder {id : JsString} {scope : OrderScope} (hinv : Inv M d) :
    (getMarketOrder M id scope).wp (spec M i) (post (Inv M) fun row d => Seen M row d) d := by
  unfold getMarketOrder
  refine wp_seq (wp_parseUuid hinv) (fun _ h => h) fun _ d hinv _ => ?_
  refine wp_seq (wp_perform (P := fun row d => ∀ r, row = some r → Seen M r d) hinv stable_inv
    fun d r d' hinv hsem => ?_) (fun _ h => h) fun row d hinv hseen => ?_
  · obtain ⟨rfl, hread⟩ := Statement.Answers.read hsem
    refine ⟨.refl i _, fun a ha row hrow => ?_⟩
    have hget := (Option.filter_eq_some_iff.1 ((hread a ha).symm.trans hrow)).1
    refine seen_of_get hinv ?_
    rw [show row.id = id from (Table.get_eq_some.1 hget).2]
    exact hget
  · cases row with
    | none => exact wp_fail hinv
    | some row => exact wp_pure.2 ⟨hinv, hseen row rfl⟩

/-! ### An attempt to deliver -/

/-- The order was claimed under the token of this process. -/
structure Claimed (M : Market) (i : ι) (transactionHash token : JsString) (row : OrderRow)
    (d : Db ι) : Prop where
  seen : Seen M row d
  paid : row.status = .paid
  hash : hashText row.transactionHash = transactionHash
  drawn : d.drawn token = some i

variable {transactionHash : JsString}

theorem Claimed.stable (d d' : Db ι) (h : Keeps M d d')
    (hc : Claimed M i transactionHash token row d) : Claimed M i transactionHash token row d' :=
  ⟨hc.seen.stable d d' h, hc.paid, hc.hash, h.drawn _ _ hc.drawn⟩

/-- What was computed for the claimed order is computed for what became of it. -/
theorem Claimed.computed {x : Json} (hc : Claimed M i transactionHash token row d)
    (hcomputed : row.Computed M d.answers x) (hrow : d.orders.get row.id = some row') :
    row'.Computed M d.answers x := by
  obtain ⟨row'', hrow', hb⟩ := hc.seen.row
  obtain rfl := Option.some.inj (hrow.symm.trans hrow')
  have hopen : row.status ≠ .quoted := by
    rw [hc.paid]
    exact fun h => by cases h
  obtain ⟨hhash, hproof⟩ := hb.payment hc.seen.state hopen
  exact hcomputed.of_eq hb.identity hhash hproof

theorem wp_verify (hc : Claimed M i transactionHash token row d) :
    (verify M transactionHash row).wp (spec M i)
      (post (Claimed M i transactionHash token row) fun x d => row.Computed M d.answers x) d := by
  unfold verify
  cases hservice : row.serviceSnapshot.providerEndpoint with
  | some endpoint =>
    refine wp_perform hc Claimed.stable fun d r d' hc hsem => ?_
    obtain rfl := hsem
    refine ⟨step_answer _, fun x hx => ?_⟩
    subst hx
    unfold OrderRow.Computed
    rw [hservice, hc.hash]
    exact List.mem_append_right _ (List.mem_singleton_self _)
  | none =>
    refine wp_post_mono (wp_check hc) (fun _ h => h) fun x d _ hx => ?_
    unfold OrderRow.Computed
    rw [hservice]
    exact hx

theorem wp_attemptDelivery (hc : Claimed M i transactionHash token row d) :
    (attemptDelivery M row.id transactionHash token row).wp (spec M i)
      (post (Claimed M i transactionHash token row) fun _ _ => True) d := by
  unfold attemptDelivery
  refine wp_seq (wp_verify hc) (fun _ h => h) fun x d hc hcomputed => ?_
  have hstable : ∀ d d' : Db ι, Keeps M d d' →
      Claimed M i transactionHash token row d ∧ row.Computed M d.answers x →
      Claimed M i transactionHash token row d' ∧ row.Computed M d'.answers x :=
    fun d d' h hd => ⟨hd.1.stable d d' h, hd.2.mono h.answers⟩
  refine wp_post_mono (P := fun _ _ => True) (wp_perform ⟨hc, hcomputed⟩ hstable
    fun d r d' hd hsem => ⟨?_, fun _ _ => trivial⟩) (fun _ h => h.1) fun _ _ _ h => h
  rcases hsem.changes with rfl | ⟨o, hdone⟩
  · exact .refl i _
  · exact step_complete hd.1.drawn hd.1.seen.inv
      (fun row' hrow' _ => hd.1.computed hd.2 hrow') hdone

theorem wp_deliveryFailed {id : JsString} (hc : Claimed M i transactionHash token row d) :
    (deliveryFailed id token : Exec α).wp (spec M i)
      (post (Claimed M i transactionHash token row) fun _ _ => True) d := by
  unfold deliveryFailed
  refine wp_seq (wp_perform (P := fun _ _ => True) hc Claimed.stable
    fun d r d' hc hsem => ⟨?_, fun _ _ => trivial⟩) (fun _ h => h) fun _ d hc _ => wp_fail hc
  rcases hsem.changes with rfl | ⟨u, hdone⟩
  · exact .refl i _
  · exact step_fail hc.seen.inv hdone

theorem wp_deliveredMeanwhile {id : JsString} {scope : OrderScope} {message : String}
    (hinv : Inv M d) :
    (deliveredMeanwhile M id scope transactionHash message).wp (spec M i)
      (post (Inv M) fun _ _ => True) d := by
  unfold deliveredMeanwhile
  refine wp_seq (wp_getMarketOrder hinv) (fun _ h => h) fun current d hinv _ => ?_
  exact wp_ite (fun _ => wp_pure.2 ⟨hinv, trivial⟩) fun _ => wp_fail hinv

theorem wp_deliverClaimed {scope : OrderScope} (hc : Claimed M i transactionHash token row d) :
    (deliverClaimed M row.id scope transactionHash token row).wp (spec M i)
      (post (Inv M) fun _ _ => True) d := by
  unfold deliverClaimed
  refine wp_seq (wp_catch (wp_attemptDelivery hc) (fun _ _ h _ => ⟨h, trivial⟩)
    fun _ d hc => wp_deliveryFailed hc) (fun _ h => h.seen.inv) fun completed d hc _ => ?_
  cases completed with
  | none => exact wp_deliveredMeanwhile hc.seen.inv
  | some row' => exact wp_pure.2 ⟨hc.seen.inv, trivial⟩

theorem wp_deliverPaidMarketOrder {scope : OrderScope} (hseen : Seen M row d)
    (hpaid : row.status ≠ .quoted) :
    (deliverPaidMarketOrder M row scope).wp (spec M i) (post (Inv M) fun _ _ => True) d := by
  unfold deliverPaidMarketOrder
  refine wp_seq (wp_perform (P := fun token d => d.drawn token = some i) hseen Seen.stable
    fun d r d' _ hsem => ?_) (fun _ h => h.inv) fun token d hseen hdrawn => ?_
  · obtain ⟨token, hfresh, rfl, rfl⟩ := hsem
    refine ⟨step_draw hfresh, fun token' h => ?_⟩
    cases h
    exact Function.update_self _ _ _
  have hstable : ∀ d d' : Db ι, Keeps M d d' → Seen M row d ∧ d.drawn token = some i →
      Seen M row d' ∧ d'.drawn token = some i := fun d d' h hd =>
    ⟨hd.1.stable d d' h, h.drawn _ _ hd.2⟩
  refine wp_seq (wp_perform (P := fun o d => ∀ row', o = some row' →
      d.orders.get row.id = some row' ∧ row'.status = .paid) ⟨hseen, hdrawn⟩ hstable
    fun d r d' hd hsem => ?_) (fun _ h => h.1.inv) fun claimed d hd hrow => ?_
  · rcases hsem.changes with rfl | ⟨o, hdone⟩
    · refine ⟨.refl i _, fun o ho => ?_⟩
      subst ho
      exact (step_claim (i := i) hd.1.inv hsem.ok).2
    · refine ⟨(step_claim hd.1.inv hdone).1, fun o' ho => ?_⟩
      subst ho
      exact (step_claim (i := i) hd.1.inv hsem.ok).2
  cases claimed with
  | none => exact wp_deliveredMeanwhile hd.1.inv
  | some row' =>
    obtain ⟨hget, hstatus⟩ := hrow row' rfl
    have hkey : row'.id = row.id := (Table.get_eq_some.1 hget).2
    have hhash : row'.transactionHash = row.transactionHash := by
      obtain ⟨row'', hrow'', hb⟩ := hd.1.row
      obtain rfl := Option.some.inj (hget.symm.trans hrow'')
      exact (hb.payment hd.1.state hpaid).1
    show (deliverClaimed M row.id scope (hashText row.transactionHash) token row').wp _ _ _
    rw [← hhash, ← hkey]
    exact wp_deliverClaimed ⟨seen_of_get hd.1.inv (hkey ▸ hget), hstatus, rfl, hd.2⟩

/-! ### The handlers -/

theorem wp_retryMarketDelivery {userId id : JsString} (hinv : Inv M d) :
    (retryMarketDelivery M userId id).wp (spec M i) (post (Inv M) fun _ _ => True) d := by
  unfold retryMarketDelivery
  refine wp_seq (wp_getMarketOrder hinv) (fun _ h => h) fun row d hinv hseen => ?_
  refine wp_ite (fun _ => wp_pure.2 ⟨hinv, trivial⟩) fun _ => ?_
  refine wp_ite (fun _ => wp_fail hinv) fun hpaid => ?_
  refine wp_deliverPaidMarketOrder hseen fun hquoted => hpaid (Or.inl ?_)
  rw [hquoted]
  exact fun h => by cases h

theorem wp_payQuoted {runner : Runner} {id : JsString} {hash : Bytes32} {proof : Json}
    (hinv : Inv M d) :
    (payQuoted M runner id hash proof).wp (spec M i)
      (post (Inv M) fun row d => Seen M row d) d := by
  unfold payQuoted
  refine wp_catch (I := Inv M) (P := fun row d => Seen M row d) ?_ (fun _ _ h hs => ⟨h, hs⟩) ?_
  · refine wp_seq (wp_perform (P := fun row d => ∀ r, row = some r → Seen M r d) hinv stable_inv
      fun d r d' hinv hsem => ?_) (fun _ h => h) fun row d hinv hseen => ?_
    · rcases hsem.changes with rfl | ⟨o, hdone⟩
      · refine ⟨.refl i _, fun o ho row hrow => ?_⟩
        subst ho
        exact seen_of_get hinv ((step_pay (i := i) hinv hsem.ok).2 row hrow)
      · obtain ⟨hstep, -⟩ := step_pay (i := i) hinv hdone
        refine ⟨hstep, fun o' ho row hrow => ?_⟩
        subst ho
        exact seen_of_get (hstep.keeps.inv hinv) ((step_pay (i := i) hinv hsem.ok).2 row hrow)
    · cases row with
      | some row => exact wp_pure.2 ⟨hinv, hseen row rfl⟩
      | none => exact wp_getMarketOrder hinv
  · intro e d hinv
    cases e with
    | database code =>
      refine wp_ite (fun _ => wp_fail hinv) fun _ => ?_
      exact wp_throw.2 hinv
    | _ => exact wp_throw.2 hinv

theorem wp_confirmRead {runner : Runner} {id : JsString} {hash : Bytes32} (hseen : Seen M row d) :
    (confirmRead M runner id hash row).wp (spec M i) (post (Inv M) fun _ _ => True) d := by
  unfold confirmRead
  refine wp_seq (P := fun row d => Seen M row d) ?_ (fun _ h => h) fun row d hinv hseen => ?_
  · refine wp_ite (fun _ => ?_) fun _ => wp_pure.2 ⟨hseen.inv, hseen⟩
    refine wp_seq (wp_same hseen.inv stable_inv fun _ _ _ h => h) (fun _ h => h)
      fun proof d hinv _ => wp_payQuoted hinv
  · refine wp_ite (fun _ => wp_fail hinv) fun hhash => ?_
    refine wp_ite (fun _ => wp_pure.2 ⟨hinv, trivial⟩) fun _ => ?_
    exact wp_deliverPaidMarketOrder hseen (hseen.state.paid (not_not.1 hhash))

theorem wp_confirmMarketOrder {runner : Runner} {id : JsString} {body : Json} (hinv : Inv M d) :
    (confirmMarketOrder M runner id body).wp (spec M i) (post (Inv M) fun _ _ => True) d := by
  unfold confirmMarketOrder
  refine wp_seq (wp_check hinv) (fun _ h => h) fun hash d hinv _ => ?_
  refine wp_seq (wp_getMarketOrder hinv) (fun _ h => h) fun row d hinv hseen => ?_
  refine wp_ite (fun _ => wp_fail hinv) fun _ => ?_
  exact wp_ite (fun _ => wp_pure.2 ⟨hinv, trivial⟩) fun _ => wp_confirmRead hseen

theorem wp_checkMandate {runner : Runner} {input : OrderInput} (hinv : Inv M d) :
    (checkMandate runner input).wp (spec M i) (post (Inv M) fun _ _ => True) d := by
  unfold checkMandate
  refine wp_seq (wp_same hinv stable_inv fun d r d' hsem => (Statement.Answers.read hsem).1)
    (fun _ h => h) fun job d hinv _ => ?_
  cases job with
  | none => exact wp_fail hinv
  | some job =>
    refine wp_seq (wp_same hinv stable_inv fun _ _ _ h => h) (fun _ h => h)
      fun valid d hinv _ => ?_
    cases job.mandate.verificationService with
    | none => exact wp_fail hinv
    | some signed => exact wp_ite (fun _ => wp_fail hinv) fun _ => wp_pure.2 ⟨hinv, trivial⟩

theorem wp_selectVerification {input : OrderInput} {job : JobRow} {signed : VerificationService}
    (hinv : Inv M d) :
    (selectVerification M input job signed).wp (spec M i) (post (Inv M) fun _ _ => True) d := by
  unfold selectVerification
  refine wp_seq (wp_parseUuid hinv) (fun _ h => h) fun _ d hinv _ => ?_
  refine wp_seq (wp_same hinv stable_inv fun d r d' hsem => (Statement.Answers.read hsem).1)
    (fun _ h => h) fun service d hinv _ => ?_
  cases service with
  | none => exact wp_fail hinv
  | some service =>
    refine wp_ite (fun _ => wp_fail hinv) fun _ => ?_
    exact wp_ite (fun _ => wp_fail hinv) fun _ => wp_pure.2 ⟨hinv, trivial⟩

theorem wp_paidEvidence {input : OrderInput} {job : JobRow} {digest : JsString}
    (hinv : Inv M d) :
    (paidEvidence M input job digest).wp (spec M i) (post (Inv M) fun _ _ => True) d := by
  unfold paidEvidence
  refine wp_seq (wp_same hinv stable_inv fun d r d' hsem => (Statement.Answers.read hsem).1)
    (fun _ h => h) fun payments d hinv _ => ?_
  match payments with
  | [] => exact wp_fail hinv
  | [paid] => exact wp_ite (fun _ => wp_pure.2 ⟨hinv, trivial⟩) fun _ => wp_fail hinv
  | _ :: _ :: _ => exact wp_fail hinv

theorem wp_insertMarketOrder {order : NewOrder} (hinv : Inv M d) :
    (insertMarketOrder order).wp (spec M i) (post (Inv M) fun _ _ => True) d := by
  unfold insertMarketOrder
  refine wp_catch (I := Inv M) (P := fun _ _ => True) ?_ (fun _ _ h _ => ⟨h, trivial⟩) ?_
  · refine wp_perform hinv stable_inv fun d r d' _ hsem => ⟨?_, fun _ _ => trivial⟩
    rcases hsem.changes with rfl | ⟨o, hdone⟩
    · exact .refl i _
    · exact (step_insert hdone).1
  · intro e d hinv
    cases e with
    | database code =>
      refine wp_ite (fun _ => wp_fail hinv) fun _ => ?_
      exact wp_throw.2 hinv
    | _ => exact wp_throw.2 hinv

theorem wp_orderJob {runner : Runner} {input : OrderInput} {digest : JsString} (hinv : Inv M d) :
    (orderJob M runner input digest).wp (spec M i) (post (Inv M) fun _ _ => True) d := by
  unfold orderJob
  refine wp_seq (wp_checkMandate hinv) (fun _ h => h) fun terms d hinv _ => ?_
  refine wp_seq (wp_selectVerification hinv) (fun _ h => h) fun selected d hinv _ => ?_
  refine wp_seq (wp_paidEvidence hinv) (fun _ h => h) fun paid d hinv _ => ?_
  refine wp_seq (wp_same hinv stable_inv fun _ _ _ h => h) (fun _ h => h) fun now d hinv _ => ?_
  cases M.texts.host.dateParse terms.1.mandate.expiresAt with
  | none => exact wp_throw.2 hinv
  | some expiry =>
    refine wp_seq (wp_perform (P := fun _ _ => True) hinv stable_inv fun d r d' _ hsem => ?_)
      (fun _ h => h) fun id d hinv _ => ?_
    · obtain ⟨token, hfresh, -, rfl⟩ := hsem
      exact ⟨step_draw hfresh, fun _ _ => trivial⟩
    refine wp_seq (wp_insertMarketOrder hinv) (fun _ h => h) fun inserted d hinv _ => ?_
    cases inserted with
    | some row => exact wp_pure.2 ⟨hinv, trivial⟩
    | none =>
      refine wp_seq (wp_same hinv stable_inv fun d r d' hsem => (Statement.Answers.read hsem).1)
        (fun _ h => h) fun replay d hinv _ => ?_
      cases replay with
      | none => exact wp_fail hinv
      | some replay => exact wp_ite (fun _ => wp_pure.2 ⟨hinv, trivial⟩) fun _ => wp_fail hinv

theorem wp_createMarketOrder {runner : Runner} {body : Json} (hinv : Inv M d) :
    (createMarketOrder M runner body).wp (spec M i) (post (Inv M) fun _ _ => True) d := by
  unfold createMarketOrder
  refine wp_seq (wp_check hinv) (fun _ h => h) fun input d hinv _ => ?_
  refine wp_seq (wp_same hinv stable_inv fun d r d' hsem => (Statement.Answers.read hsem).1)
    (fun _ h => h) fun old d hinv _ => ?_
  cases old with
  | none => exact wp_orderJob hinv
  | some old =>
    unfold replayOrder
    refine wp_seq (wp_getMarketOrder hinv) (fun _ h => h) fun _ d hinv _ => ?_
    exact wp_ite (fun _ => wp_pure.2 ⟨hinv, trivial⟩) fun _ => wp_fail hinv

/-! ### Soundness -/

/-- The clock goes on, and other tables change. -/
theorem keeps_env {d' : Db ι} (h : ∃ now catalog, d.now ≤ now ∧ d' = { d with
    now := now
    catalog := catalog }) : d'.orders = d.orders ∧ Keeps M d d' := by
  obtain ⟨now, catalog, -, rfl⟩ := h
  exact ⟨rfl, fun _ _ h => h, fun _ h => h, fun _ row hrow => ⟨row, hrow, .refl row⟩,
    fun hinv => ⟨hinv.rows, hinv.jobs, hinv.transactions, hinv.sources, hinv.hashes⟩⟩

theorem sound : (protocol ι M).Sound (system M) where
  rely_refl _ d _ := .refl d
  rely_trans _ _ _ _ h h' := h.trans h'
  guar_inv _ _ _ hinv h := h.keeps.inv hinv
  guar_rely _ _ _ _ _ h _ := h.keeps
  env_inv _ _ _ hinv h := (keeps_env h).2.inv hinv
  env_rely _ _ _ _ _ h _ := (keeps_env h).2
  start i d p hinv hp := by
    rcases hp with ⟨runner, body, rfl⟩ | ⟨runner, id, body, rfl⟩ | ⟨userId, id, rfl⟩
    · exact wp_mono (wp_createMarketOrder hinv) fun _ _ _ => trivial
    · exact wp_mono (wp_confirmMarketOrder hinv) fun _ _ _ => trivial
    · exact wp_mono (wp_retryMarketDelivery hinv) fun _ _ _ => trivial

/-- No orders yet. -/
def Db.fresh (ι : Type) (now : ℕ) (catalog : Catalog) : Db ι :=
  ⟨Table.empty, now, catalog, fun _ => none, []⟩

theorem inv_fresh (now : ℕ) (catalog : Catalog) : Inv M (Db.fresh ι now catalog) where
  rows _ _ hrow := by cases hrow
  jobs := Table.unique_empty
  transactions := Table.unique_empty
  sources := Table.unique_empty
  hashes := Table.unique_empty

/-! ### The constraints -/

/-- No update of an order is refused by a constraint. -/
structure Db.Unviolated (M : Market) (d : Db ι) : Prop where
  markPaid : ∀ id runnerId hash proof,
    markPaid M.jsonb id runnerId hash proof d ≠ .error .checkViolation
  claimDelivery : ∀ id scope token, claimDelivery id scope token d ≠ .error .checkViolation
  completeDelivery : ∀ id token result,
    completeDelivery M.jsonb id token result d ≠ .error .checkViolation
  failDelivery : ∀ id token message, failDelivery id token message d ≠ .error .checkViolation

/-- A row that satisfies the constraints is not refused. -/
theorem OrderRow.checked_error {e : ApiError} (h : row.checked = .error e) :
    ¬ (row.State ∧ row.Lease) := by
  intro hok
  rw [OrderRow.checked, if_pos hok] at h
  cases h

/-- A paid order, whatever becomes of its delivery. -/
theorem OrderRow.State.of_paid (h : row.State) (hpaid : row.status = .paid) :
    row.transactionHash ≠ none ∧ row.proof.isSome = true ∧ row.result.isNone = true := by
  rcases h with ⟨hs, -⟩ | ⟨-, hpayment⟩ | ⟨hs, -⟩
  · rw [hpaid] at hs
    cases hs
  · exact hpayment
  · rw [hpaid] at hs
    cases hs

theorem Inv.unviolated (hinv : Inv M d) : d.Unviolated M where
  markPaid id runnerId hash proof h := by
    unfold HostedMarket.markPaid at h
    split at h
    · simp [ApiError.untranslatable, ApiError.checkViolation, js_inj] at h
    · rename_i stored hstored
      obtain ⟨row, hrow, hcond, hset⟩ := Table.update_error.1 (Db.run_error.1 h)
      rw [Bool.and_eq_true, decide_eq_true_eq] at hcond
      have hok := hinv.rows id row hrow
      split_ifs at hset with hany
      · simp [ApiError.uniqueViolation, ApiError.checkViolation, js_inj] at hset
      -- A paid order has a hash and a proof; an order that was unpaid has no result.
      · refine OrderRow.checked_error hset ⟨Or.inr (Or.inl ⟨rfl, ?_, rfl, ?_⟩), hok.lease⟩
        · exact fun h => by cases h
        · exact Option.isNone_iff_eq_none.2 (hok.state.unpaid hcond.1).2.2
  claimDelivery id scope token h := by
    obtain ⟨row, hrow, hcond, hset⟩ := Table.update_error.1 (Db.run_error.1 h)
    simp only [Bool.and_eq_true, decide_eq_true_eq] at hcond
    have hok := hinv.rows id row hrow
    unfold increment at hset
    split_ifs at hset with hmax
    -- The lease is written as a whole: the token and the time at which it ends.
    · refine OrderRow.checked_error hset ⟨Or.inr (Or.inl ⟨hcond.1.1, ?_⟩), ?_⟩
      · exact hok.state.of_paid hcond.1.1
      · exact ⟨fun h => (by cases h), fun h => (by cases h)⟩
    · simp [ApiError.outOfRange, ApiError.checkViolation, js_inj, bind, Except.bind] at hset
  completeDelivery id token result h := by
    unfold HostedMarket.completeDelivery at h
    split at h
    · simp [ApiError.untranslatable, ApiError.checkViolation, js_inj] at h
    · rename_i stored hstored
      obtain ⟨row, hrow, hcond, hset⟩ := Table.update_error.1 (Db.run_error.1 h)
      obtain ⟨hpaid, -⟩ := of_decide_eq_true hcond
      obtain ⟨hhash, hproof, -⟩ := (hinv.rows id row hrow).state.of_paid hpaid
      exact OrderRow.checked_error hset
        ⟨Or.inr (Or.inr ⟨rfl, hhash, hproof, rfl⟩), Iff.intro (fun _ => rfl) fun _ => rfl⟩
  failDelivery id token message h := by
    unfold HostedMarket.failDelivery at h
    cases hrun : Db.run (Table.update id
        (fun row => decide (row.status = .paid ∧ row.deliveryToken = some token))
        fun row => (row.giveUp message).checked) d with
    | ok x =>
      rw [hrun] at h
      cases h
    | error e =>
      rw [hrun] at h
      cases h
      obtain ⟨row, hrow, hcond, hset⟩ := Table.update_error.1 (Db.run_error.1 hrun)
      obtain ⟨hpaid, -⟩ := of_decide_eq_true hcond
      exact OrderRow.checked_error hset
        ⟨Or.inr (Or.inl ⟨hpaid, (hinv.rows id row hrow).state.of_paid hpaid⟩),
          Iff.intro (fun _ => rfl) fun _ => rfl⟩

/-! ### Every run -/

/-- Only an effect of a process changes the orders. -/
theorem step_orders [DecidableEq ι] {a : System.Action ι Effect Answer ApiError PublicOrder}
    {s t : System.State ι (Db ι) Effect Answer ApiError PublicOrder}
    (hs : (protocol ι M).Holds (system M) s) (hst : (system M).lts.step s a t) :
    (∃ i o answer, a = .effect i o answer ∧ Step M i s.world t.world) ∨
      t.world.orders = s.world.orders := by
  rcases sound.step_world hs hst with ⟨i, o, answer, ha, -, hguar⟩ | ⟨live, -, henv⟩ | hworld
  · exact Or.inl ⟨i, o, answer, ha, hguar⟩
  · exact Or.inr (keeps_env (M := M) henv).1
  · exact Or.inr (by rw [hworld])

/-- **The orders of the hosted market.**  After every run, no two orders share a job, a purchase of
evidence or a transaction, and no update violates a constraint; a recorded result is what the
service of the order answers for what the order says.  What was written of an order stays in every
further run.  A new order is quoted, without a payment and a result; in one step the status goes on
by one at most, and the result is recorded by the attempt that holds the token of the order. -/
theorem market_orders [DecidableEq ι] {now : ℕ} {catalog : Catalog} {τ σ : List (Tr _ _)}
    {s t : System.State ι (Db ι) Effect Answer ApiError PublicOrder}
    (h : (system M).lts.Run (System.State.idle (Db.fresh ι now catalog)) τ s)
    (h' : (system M).lts.Run s σ t) :
    (∀ id id' row row', s.world.orders.get id = some row → s.world.orders.get id' = some row' →
      row.jobId = row'.jobId ∨ row.dataTransactionId = row'.dataTransactionId ∨
        row.dataSourceId = row'.dataSourceId ∨
        (∃ hash, row.transactionHash = some hash ∧ row'.transactionHash = some hash) → id = id') ∧
    (∀ id row, s.world.orders.get id = some row → row.State ∧ row.Lease ∧
      ∀ r, row.result = some r →
        ∃ x, M.jsonb.store x = some r ∧ row.Computed M s.world.answers x) ∧
    (∀ id row, s.world.orders.get id = some row →
      ∃ row', t.world.orders.get id = some row' ∧ row.Becomes row') ∧
    (∀ a u, (system M).lts.step s a u → ∀ id row, s.world.orders.get id = none →
      u.world.orders.get id = some row → row.Quoted) ∧
    (∀ a u, (system M).lts.step s a u → ∀ id row row', s.world.orders.get id = some row →
      u.world.orders.get id = some row' → row'.status.rank ≤ row.status.rank + 1 ∧
        ∀ r, row.result = none → row'.result = some r →
          (∃ i o answer token, a = .effect i o answer ∧ row.deliveryToken = some token ∧
            s.world.drawn token = some i) ∧
          ∃ x, M.jsonb.store x = some r ∧ row'.Computed M u.world.answers x) ∧
    s.world.Unviolated M := by
  have hholds := sound.run (inv_fresh now catalog) h
  have hinv : Inv M s.world := hholds.1
  refine ⟨fun id id' row row' hrow hrow' hsame => ?_, fun id row hrow => ?_, ?_,
    fun a u hst id row hnone hrow => ?_, fun a u hst id row row' hrow hrow' => ?_,
    hinv.unviolated⟩
  · rcases hsame with hjob | hdata | hsource | ⟨hash, hhash, hhash'⟩
    · exact hinv.jobs _ _ _ _ _ hrow hrow' rfl (congrArg some hjob.symm)
    · exact hinv.transactions _ _ _ _ _ hrow hrow' rfl (congrArg some hdata.symm)
    · exact hinv.sources _ _ _ _ _ hrow hrow' rfl (congrArg some hsource.symm)
    · exact hinv.hashes _ _ _ _ _ hrow hrow' hhash hhash'
  · have hok := hinv.rows id row hrow
    exact ⟨hok.state, hok.lease, hok.result⟩
  · exact (sound.rel (T := Keeps M) (inv_fresh now catalog) h h' Keeps.refl
      (fun _ _ _ h h' => h.trans h') (fun i d d' _ hg => Step.keeps hg)
      fun live d d' _ he => (keeps_env he).2).rows
  · rcases step_orders hholds hst with ⟨i, o, answer, rfl, hstep⟩ | hsame
    · exact hstep.inserts id row hnone hrow
    · rw [hsame, hnone] at hrow
      cases hrow
  · have hu : Inv M u.world := (sound.step hholds hst).1
    rcases step_orders hholds hst with ⟨i, o, answer, rfl, hstep⟩ | hsame
    · refine ⟨hstep.next id row row' hrow hrow', fun r hnone hsome => ⟨?_, ?_⟩⟩
      · obtain ⟨token, htoken, hdrawn⟩ := hstep.records id row row' hrow hrow' hnone
          (by rw [hsome]; exact fun h => by cases h)
        exact ⟨i, o, answer, token, rfl, htoken, hdrawn⟩
      · exact (hu.rows id row' hrow').result r hsome
    · rw [hsame, hrow] at hrow'
      cases hrow'
      refine ⟨Nat.le_succ _, fun r hnone hsome => ?_⟩
      rw [hnone] at hsome
      cases hsome

namespace Sample

open Runs.Evidence.Sample (texts time repo snapshot)

/-- A report on one repository. -/
def report : Json :=
  .obj [(js "title", .str (js "Report")),
    (js "summary", .str (js "octocat/hello | stars=3 | forks=1 | openIssues=0")),
    (js "recommendation", .str (js "Use it.")), (js "generatedBy", .str (js "model")),
    (js "createdAt", .str time), (js "checks", .arr []), (js "verified", .bool true),
    (js "evidence", .arr [Runs.Evidence.evidenceOf repo (snapshot (.str time))])]

/-- A check that the report passes. -/
def passed (label detail : String) : Json :=
  .obj [(js "label", .str (js label)), (js "passed", .bool true), (js "detail", .str (js detail))]

/-- What the report is certified for. -/
def verdict : Json :=
  .obj [(js "checks", .arr [
    passed "Metrics: octocat/hello"
      "Exactly one stars, forks and openIssues row must match the submitted evidence.",
    passed "Evidence integrity and freshness"
      "Unique GitHub evidence must be at most one hour old; its provenance is checked separately by paid delivery.",
    passed "Claim scope"
      "Only canonical metric rows are certified against evidence. Free-text judgments are not certified; extra numeric metric claims are rejected."])]

/-- A market. -/
def market : Market where
  texts := texts
  jsonb := .identity
  appOrigin := js "https://market"
  sha256 text := text
  verifyMetricReport _ _ := .ok verdict

/-- Its service. -/
def service : ServiceRow where
  id := js "service"
  revision := 1
  name := js "Metrics"
  recipient := js "0x2222222222222222222222222222222222222222"
  priceAtomic := 1000
  active := true
  providerEndpoint := none

/-- The transaction that paid for the evidence. -/
def dataTransactionId : JsString := js "0.0.2@1700000000.000000001"

/-- A job with a mandate for the service. -/
def job : JobRow where
  agentId := js "agent"
  runnerId := some (js "runner")
  running := true
  repos := [repo]
  ownerId := js "owner"
  address := js "0x1111111111111111111111111111111111111111"
  mandate := ⟨[js "repo-standard"], 100000, 1000, 100000, time, some (service.verification market)⟩
  approved := true
  revoked := false
  expiresAt := 1767225600000

/-- The other tables. -/
def catalog : Catalog where
  jobs id := if id = js "job" then some job else none
  active id := decide (id = js "runner")
  services id := if id = js "service" then some service else none
  payments id := if id = dataTransactionId then
    [⟨dataTransactionId, js "repo-standard", [repo],
      some [Runs.Evidence.evidenceOf repo (snapshot (.str time))], 100000⟩] else []

/-- The runner of the job. -/
def runner : Runner := ⟨js "runner", js "agent"⟩

/-- The body of a new order. -/
def orderBody : Json :=
  .obj [(js "jobId", .str (js "job")),
    (js "payer", .str (js "0x1111111111111111111111111111111111111111")),
    (js "dataTransactionId", .str dataTransactionId), (js "report", report)]

/-- The transaction that pays for the order. -/
def payment : Bytes32 := 7

/-- The body of its confirmation. -/
def confirmBody : Json := .obj [(js "transactionHash", .str payment.text)]

/-- What the chain says of it. -/
def paidProof : Json :=
  .obj [(js "chainId", .num 5042002), (js "transactionHash", .str payment.text),
    (js "timestamp", .str (js "1767225600"))]

/-- The time of the requests. -/
def now : ℕ := 1767225000000

/-- The answer of a statement, in a database where `n` tokens were drawn. -/
def execute {α : Type} (f : Statement (Db Unit) ApiError α) (e : Db Unit × ℕ) :
    Except ApiError α × (Db Unit × ℕ) :=
  match f e.1 with
  | .ok (a, d) => (.ok a, (d, e.2))
  | .error x => (.error x, e)

/-- The next token. -/
def nextToken (n : ℕ) : JsString := List.replicate n 97

/-- What the effects are answered. -/
def respond (e : Db Unit × ℕ) : (o : Effect) → Except ApiError (Answer o) × (Db Unit × ℕ)
  | .selectJobOrder jobId runnerId => execute (selectJobOrder jobId runnerId) e
  | .selectOrder id scope => execute (selectOrder id scope) e
  | .selectJob jobId runner => execute (selectJob jobId runner) e
  | .selectService id => execute (selectService id) e
  | .selectPayments id => execute (selectPayments id) e
  | .insertOrder order => execute (insertOrder market.jsonb order) e
  | .markPaid id runnerId hash proof => execute (markPaid market.jsonb id runnerId hash proof) e
  | .claimDelivery id scope token => execute (claimDelivery id scope token) e
  | .completeDelivery id token result => execute (completeDelivery market.jsonb id token result) e
  | .failDelivery id token message => execute (failDelivery id token message) e
  | .validateSignedMandate _ => (.ok true, e)
  | .verifyMarketTransfer _ _ => (.ok paidProof, e)
  | .now => (.ok now, e)
  | .randomUUID => (.ok (nextToken e.2), ({ e.1 with
      drawn := Function.update e.1.drawn (nextToken e.2) (some ()) }, e.2 + 1))
  | .requestRemoteVerification _ =>
    (.error (.thrown .other), { e.1 with answers := e.1.answers ++ [] }, e.2)

/-- The next tokens are not drawn yet. -/
def Fresh (e : Db Unit × ℕ) : Prop := ∀ n, e.2 ≤ n → e.1.drawn (nextToken n) = none

theorem execute_answers {α : Type} {f : Statement (Db Unit) ApiError α} {e : Db Unit × ℕ}
    (hf : ∀ a d', f e.1 = .ok (a, d') → d'.drawn = e.1.drawn) (hfresh : Fresh e) :
    Statement.Answers ApiError.lost f e.1 (execute f e).1 (execute f e).2.1 ∧
      Fresh (execute f e).2 := by
  unfold execute
  cases h : f e.1 with
  | ok x =>
    obtain ⟨a, d⟩ := x
    refine ⟨.done h, fun n hn => ?_⟩
    show d.drawn (nextToken n) = none
    rw [hf a d h]
    exact hfresh n hn
  | error x => exact ⟨.refused h, hfresh⟩

theorem nextToken_inj {m n : ℕ} (h : nextToken m = nextToken n) : m = n := by
  have hlength := congrArg List.length h
  simpa [nextToken] using hlength

theorem respond_sem (e : Db Unit × ℕ) (o : Effect) (hfresh : Fresh e) :
    sem market () e.1 o (respond e o).1 (respond e o).2.1 ∧ Fresh (respond e o).2 := by
  have hread : ∀ {α : Type} {f : Db Unit → α} {a : α} {d' : Db Unit},
      (Statement.read f : Statement (Db Unit) ApiError α) e.1 = .ok (a, d') →
        d'.drawn = e.1.drawn := by
    intro α f a d' h
    cases h
    rfl
  cases o with
  | selectJobOrder jobId runnerId => exact execute_answers (fun _ _ h => hread h) hfresh
  | selectOrder id scope => exact execute_answers (fun _ _ h => hread h) hfresh
  | selectJob jobId runner => exact execute_answers (fun _ _ h => hread h) hfresh
  | selectService id => exact execute_answers (fun _ _ h => hread h) hfresh
  | selectPayments id => exact execute_answers (fun _ _ h => hread h) hfresh
  | insertOrder order =>
    refine execute_answers (fun o d' h => ?_) hfresh
    rcases insertOrder_ok h with ⟨-, rfl⟩ | ⟨_, _, -, -, -, rfl⟩ <;> rfl
  | markPaid id runnerId hash proof =>
    refine execute_answers (fun o d' h => ?_) hfresh
    rcases markPaid_ok h with ⟨-, rfl⟩ | ⟨_, _, -, -, -, -, -, -, -, rfl⟩ <;> rfl
  | claimDelivery id scope token =>
    refine execute_answers (fun o d' h => ?_) hfresh
    rcases claimDelivery_ok h with ⟨-, rfl⟩ | ⟨_, -, -, -, -, -, -, rfl⟩ <;> rfl
  | completeDelivery id token result =>
    refine execute_answers (fun o d' h => ?_) hfresh
    rcases completeDelivery_ok h with ⟨-, rfl⟩ | ⟨_, _, -, -, -, -, -, -, -, rfl⟩ <;> rfl
  | failDelivery id token message =>
    refine execute_answers (fun o d' h => ?_) hfresh
    rcases failDelivery_ok h with rfl | ⟨_, -, -, -, -, rfl⟩ <;> rfl
  | randomUUID =>
    refine ⟨⟨nextToken e.2, hfresh _ le_rfl, rfl, rfl⟩, fun n hn => ?_⟩
    have hne : nextToken n ≠ nextToken e.2 := fun h => by
      have hn' : e.2 + 1 ≤ n := hn
      have := nextToken_inj h
      omega
    exact (Function.update_of_ne hne ..).trans (hfresh n (Nat.le_of_succ_le hn))
  | requestRemoteVerification request => exact ⟨rfl, hfresh⟩
  | _ => exact ⟨rfl, hfresh⟩

/-- The database after a request. -/
def after (p : Exec PublicOrder) (e : Db Unit × ℕ) : Db Unit × ℕ := (p.exec respond e).2

/-- The order is quoted. -/
def quoted : Db Unit × ℕ :=
  after (createMarketOrder market runner orderBody) (Db.fresh Unit now catalog, 0)

/-- The order is paid and fulfilled. -/
def confirmed : Db Unit × ℕ :=
  after (confirmMarketOrder market runner (nextToken 0) confirmBody) quoted

/-- A request that is answered. -/
theorem run_request {p : Exec PublicOrder} {e : Db Unit × ℕ} (hfresh : Fresh e)
    (hstart : (system market).starts () e.1 p) :
    (∃ τ, (system market).lts.Run (System.State.idle e.1) τ
      (System.State.idle (after p e).1)) ∧ Fresh (after p e) := by
  obtain ⟨hreach, hend⟩ := Prog.Reaches.exec_view Prod.fst Fresh respond_sem p e hfresh
  exact ⟨System.run_to_end (S := system market) (s := System.State.idle e.1) (i := ()) hreach rfl
    hstart, hend⟩

theorem run_quoted : (∃ τ, (system market).lts.Run (System.State.idle (Db.fresh Unit now catalog))
    τ (System.State.idle quoted.1)) ∧ Fresh quoted := by
  have hfresh : Fresh (Db.fresh Unit now catalog, 0) := fun _ _ => rfl
  exact run_request hfresh (Or.inl ⟨runner, orderBody, rfl⟩)

theorem run_confirmed : ∃ τ, (system market).lts.Run (System.State.idle quoted.1) τ
    (System.State.idle confirmed.1) :=
  (run_request run_quoted.2
    (Or.inr (Or.inl ⟨runner, nextToken 0, confirmBody, rfl⟩))).1

end Sample

/-- An order that is quoted, and then paid and fulfilled. -/
theorem market_orders_sample :
    (Sample.quoted.1.orders.rows.map fun row => (row.status, row.transactionHash)) =
      [(.quoted, none)] ∧
    (Sample.confirmed.1.orders.rows.map fun row => (row.status, row.transactionHash)) =
      [(.fulfilled, some Sample.payment)] ∧
    (∀ id row, Sample.quoted.1.orders.get id = some row →
      ∃ row', Sample.confirmed.1.orders.get id = some row' ∧ row.Becomes row') ∧
    Sample.quoted.1.Unviolated Sample.market := by
  obtain ⟨⟨τ, hquoted⟩, -⟩ := Sample.run_quoted
  obtain ⟨σ, hconfirmed⟩ := Sample.run_confirmed
  obtain ⟨-, -, hbecomes, -, -, hunviolated⟩ := market_orders hquoted hconfirmed
  dsimp only [System.State.idle] at hbecomes hunviolated
  exact ⟨by decide +kernel, by decide +kernel, hbecomes, hunviolated⟩

end HostedMarket

end Obolos
