import Obolos.Economy.PaidOrders

/-!
# What holds in every run, and what can always be done

`orders_run` : in every run of the handlers the identity of an order stays, a transaction pays for
one order, only the holder of the token fulfils an order, once and with a valid output, and an
order that is not fulfilled can be retried: its provider is asked again.

The last holds up to `2^31 - 1` attempts.  They are counted in an `integer` column, and after the
last one every claim is refused (`attempts_exhausted`).
-/

namespace Obolos

namespace Marketplace

open Prog (Reaches)

variable {ι : Type} {H : Host} {J : Jsonb} {deployment : Option EconomyDeployment} {i : ι}
  {d d' : OrderDb ι} {row : OrderRow} {service : ServiceDefinition} {request : ServiceRequest}
  {orderId : Bytes32} {userId token message : JsString}

/-! ### Statements that are granted -/

/-- Nobody is delivering the order, or no longer. -/
def OrderRow.Free (row : OrderRow) (now : ℕ) : Prop :=
  row.state = .paid ∨ row.state = .delivering ∧ expired now row.deliveryLeaseUntil = true

theorem OrderRow.Free.open {now : ℕ} (h : row.Free now) : row.state ≠ .fulfilled := by
  intro hf
  rcases h with hs | ⟨hs, -⟩ <;> rw [hf] at hs <;> cases hs

theorem OrderRow.Bound.claim (h : row.Bound H service request) (now : ℕ) (token : JsString) :
    (row.claim now token).Bound H service request :=
  ⟨h.1, h.2, h.3, h.4, h.5, h.6, h.7⟩

theorem consistent_claim (h : row.Ok H d.drawn) (hopen : row.state ≠ .fulfilled) :
    (row.claim d.now token).Consistent := by
  have houtput : row.output = none := (h.pending hopen).1
  simp [OrderRow.Consistent, OrderRow.claim, houtput]

/-- A claim is granted while there are attempts left. -/
theorem claim_granted (hinv : Inv H d) (hrow : d.orders.get orderId = some row)
    (hfree : row.Free d.now) (hattempts : row.deliveryAttempts < int4Max) :
    claimDelivery orderId row.userId token d =
      .ok (some (row.claim d.now token),
        { d with orders := d.orders.replace (row.claim d.now token) }) := by
  refine OrderDb.run_ok.2 ⟨_, Table.update_ok.2 (Or.inr ⟨row, _, hrow, ?_, ?_, rfl, rfl⟩), rfl⟩
  · exact decide_eq_true ⟨rfl, hfree⟩
  · simp only [bind_eq_ok, increment_ok, OrderRow.checked_ok]
    exact ⟨_, ⟨hattempts, rfl⟩, consistent_claim (hinv.rows _ _ hrow) hfree.open, trivial⟩

theorem release_granted (message : JsString) (hinv : Inv H d) (hrow : d.orders.get orderId = some row)
    (htoken : row.deliveryToken = some token) :
    releaseDelivery orderId row.userId token message d =
      .ok ((), { d with orders := d.orders.replace (row.release d.now message) }) := by
  have hok := hinv.rows _ _ hrow
  have hopen := open_of_delivering (hok.claimed.2 (by rw [htoken]; rfl))
  have houtput : row.output = none := (hok.pending hopen).1
  have hrun : OrderDb.run (Table.update orderId
      (fun row' => row'.userId = row.userId ∧ row'.deliveryToken = some token)
      fun row' => (row'.release d.now message).checked) d =
      .ok (some (row.release d.now message),
        { d with orders := d.orders.replace (row.release d.now message) }) := by
    refine OrderDb.run_ok.2 ⟨_, Table.update_ok.2 (Or.inr ⟨row, _, hrow, ?_, ?_, rfl, rfl⟩), rfl⟩
    · exact decide_eq_true ⟨rfl, htoken⟩
    · exact OrderRow.checked_ok.2
        ⟨by simp [OrderRow.Consistent, OrderRow.release, houtput], rfl⟩
  rw [releaseDelivery, hrun]
  rfl

/-! ### Reaching the provider -/

/-- After a claim the provider is asked: everything before that is accepted again.  When it does not
answer, the order is released. -/
theorem deliverClaimed_eq (userId : JsString) (orderId : Bytes32) (token : JsString)
    (hb : row.Bound H service request) :
    ∃ k, deliverClaimed H userId orderId token row = .call (.requestService service request) k ∧
      ∃ g : Option OrderRow → Exec PublicOrder,
        ∀ e, k (.error e) = deliveryFailed userId orderId token >>= g := by
  obtain ⟨v, hpaid⟩ := hb.paid
  rw [deliverClaimed, attemptDelivery, check_bind hb.service_valid, check_bind hb.request_parsed,
    requestRemoteService, check_bind (validate_ok.1 hb.service_valid).2,
    check_bind hb.request_valid, check_bind hpaid]
  exact ⟨_, rfl, _, fun e => rfl⟩

/-- The world after a token was drawn and a claim was granted under it. -/
def claimedWorld (d : OrderDb ι) (i : ι) (row : OrderRow) (token : JsString) : OrderDb ι :=
  { d with
    orders := d.orders.replace (row.claim d.now token)
    drawn := Function.update d.drawn token (some i) }

/-- A delivery that may be claimed gets there. -/
theorem reaches_deliverClaimed (row' : OrderRow) (hinv : Inv H d)
    (hrow : d.orders.get row'.orderId = some row) (hfree : row.Free d.now)
    (hattempts : row.deliveryAttempts < int4Max) (htoken : d.drawn token = none) :
    Reaches (sem J i) (deliverEconomyOrder H row.userId row') d
      (deliverClaimed H row.userId row'.orderId token (row.claim d.now token))
      (claimedWorld d i row token) := by
  let d₁ : OrderDb ι := { d with drawn := Function.update d.drawn token (some i) }
  have hinv₁ : Inv H d₁ := (step_draw (H := H) htoken).keeps.inv hinv
  have hdraw : sem J i d .randomUUID (.ok token) d₁ := ⟨token, htoken, rfl, rfl⟩
  have hclaim : sem J i d₁ (.claimDelivery row'.orderId row.userId token)
      (.ok (some (row.claim d.now token))) (claimedWorld d i row token) :=
    .done (claim_granted hinv₁ hrow hfree hattempts)
  exact .seq (.effect hdraw) (.seq (.effect hclaim) (.refl _ _))

/-- A token that nobody has drawn. -/
theorem exists_token (hinv : Inv H d) : ∃ token, d.drawn token = none := by
  obtain ⟨token, htoken⟩ := hinv.few.exists_notMem
  exact ⟨token, Option.not_isSome_iff_eq_none.1 htoken⟩

/-- A retry of an order that nobody delivers is granted its claim. -/
theorem reaches_claimed (hinv : Inv H d) (hrow : d.orders.get orderId = some row)
    (hfree : row.Free d.now) (hattempts : row.deliveryAttempts < int4Max)
    (htoken : d.drawn token = none) :
    Reaches (sem J i) (retryEconomyDelivery H row.userId orderId.text) d
      (deliverClaimed H row.userId orderId token (row.claim d.now token))
      (claimedWorld d i row token) := by
  have hkey : row.orderId = orderId := (Table.get_eq_some.1 hrow).2
  have hselect : sem J i d (.selectOrder orderId row.userId) (.ok (some row)) d := by
    refine .done ?_
    show Except.ok ((d.orders.get orderId).filter fun row' => row'.userId = row.userId, d) = _
    rw [hrow]
    simp
  have hdeliver := reaches_deliverClaimed (J := J) (i := i) row hinv (hkey ▸ hrow) hfree hattempts
    htoken
  rw [hkey] at hdeliver
  unfold retryEconomyDelivery
  rw [Bytes32.toLowerCase_text, readBytes32_text]
  refine .seq (.effect hselect) ?_
  show Reaches (sem J i) (if row.state = .fulfilled then _ else _) d _ _
  rw [if_neg hfree.open]
  exact hdeliver

/-- After its claim a retry asks the provider. -/
theorem reaches_requestService (hinv : Inv H d) (hrow : d.orders.get orderId = some row)
    (hfree : row.Free d.now) (hattempts : row.deliveryAttempts < int4Max) (i : ι)
    (hb : row.Bound H service request) :
    ∃ k d', Reaches (sem J i) (retryEconomyDelivery H row.userId orderId.text) d
      (.call (.requestService service request) k) d' := by
  obtain ⟨token, htoken⟩ := exists_token hinv
  obtain ⟨k, hk, -⟩ := deliverClaimed_eq row.userId orderId token (hb.claim d.now token)
  have hclaimed := reaches_claimed (J := J) (i := i) hinv hrow hfree hattempts htoken
  rw [hk] at hclaimed
  exact ⟨k, _, hclaimed⟩

/-- When the provider does not answer, the order is released, one attempt later. -/
theorem reaches_released (hinv : Inv H d) (hrow : d.orders.get orderId = some row)
    (hpaid : row.state = .paid) (hattempts : row.deliveryAttempts < int4Max) (i : ι) :
    ∃ e d' row', Reaches (sem J i) (retryEconomyDelivery H row.userId orderId.text) d
        (.throw e) d' ∧ d'.orders.get orderId = some row' ∧ row'.state = .paid ∧
      row'.deliveryAttempts = row.deliveryAttempts + 1 := by
  have hfree : row.Free d.now := Or.inl hpaid
  obtain ⟨token, htoken⟩ := exists_token hinv
  obtain ⟨service, request, hb⟩ := (hinv.rows _ _ hrow).bound
  obtain ⟨k, hk, g, hg⟩ := deliverClaimed_eq row.userId orderId token (hb.claim d.now token)
  have hclaimed := reaches_claimed (J := J) (i := i) hinv hrow hfree hattempts htoken
  -- The world after the claim, and after the release.
  have hinv₁ : Inv H (claimedWorld d i row token) := by
    have hdraw := step_draw (H := H) (i := i) htoken
    have hdrawn : ({ d with drawn := Function.update d.drawn token (some i) } : OrderDb ι).drawn
        token = some i := Function.update_self ..
    exact (step_claim hdrawn
      (claim_granted (hdraw.keeps.inv hinv) hrow hfree hattempts)).1.keeps.inv (hdraw.keeps.inv hinv)
  have hrow₁ : (claimedWorld d i row token).orders.get orderId = some (row.claim d.now token) :=
    get_replaced hrow rfl
  have hrelease := fun message => release_granted message hinv₁ hrow₁ rfl
  have hsilent : sem J i (claimedWorld d i row token) (.requestService service request)
      (.error (.thrown .other)) (claimedWorld d i row token) :=
    ⟨rfl, fun body hbody => by cases hbody⟩
  rw [hk] at hclaimed
  have hfailed : Reaches (sem J i) (deliveryFailed row.userId orderId token >>= g)
      (claimedWorld d i row token) (throw _) _ :=
    Reaches.seq_throw (.seq (.effect (.done (hrelease _))) (.refl _ _))
  rw [← hg] at hfailed
  exact ⟨_, _, _, hclaimed.trans (.step hsilent hfailed), get_replaced hrow₁ rfl, rfl, rfl⟩

/-- An order that is not fulfilled is free again once its lease has run out. -/
theorem free_of_open (hok : row.Ok H d.drawn) (hopen : row.state ≠ .fulfilled) :
    ∃ lease, ∀ now, lease < now → row.Free now := by
  cases hstate : row.state with
  | paid => exact ⟨0, fun _ _ => Or.inl hstate⟩
  | fulfilled => exact absurd hstate hopen
  | delivering =>
    have hlease : row.deliveryLeaseUntil.isSome = true := by
      rw [← hok.leased]
      exact hok.claimed.1 hstate
    obtain ⟨lease, hlease⟩ := Option.isSome_iff_exists.1 hlease
    refine ⟨lease, fun now hnow => Or.inr ⟨hstate, ?_⟩⟩
    rw [hlease]
    exact decide_eq_true hnow

/-! ### Who fulfils an order -/

/-- When a row is changed to one that is not fulfilled, no other is. -/
theorem open_of_replace {id : Bytes32} {row₀ row' : OrderRow} (row₁ : OrderRow)
    (hrow₀ : d.orders.get id = some row₀) (hid : row₁.toOrderIdentity = row₀.toOrderIdentity)
    (hnew : row₁.state ≠ .fulfilled) (hrow : d.orders.get orderId = some row)
    (hopen : row.state ≠ .fulfilled) (hrow' : (d.orders.replace row₁).get orderId = some row') :
    row'.state ≠ .fulfilled := by
  rw [get_replace hrow₀ hid] at hrow'
  split_ifs at hrow' with hk
  · cases hrow'
    exact hnew
  · obtain rfl := Option.some.inj (hrow'.symm.trans hrow)
    exact hopen

/-- An order is fulfilled by the effect that completes the delivery under its token. -/
theorem fulfils_effect {o : Effect} {r : Except ApiError (Answer o)} {row' : OrderRow}
    (hsem : sem J i d o r d') (hrow : d.orders.get orderId = some row)
    (hrow' : d'.orders.get orderId = some row') (hopen : row.state ≠ .fulfilled)
    (hclosed : row'.state = .fulfilled) :
    ∃ userId token output outputHash, o = .completeDelivery orderId userId token output outputHash ∧
      row.state = .delivering ∧ row.deliveryToken = some token := by
  -- Every other effect leaves the row, or changes it to one that is not fulfilled.
  have hsame : d'.orders ≠ d.orders := by
    intro he
    rw [he, hrow] at hrow'
    cases hrow'
    exact hopen hclosed
  cases o with
  | selectService => exact absurd (by rw [hsem.1]) hsame
  | selectAgent => exact absurd (by rw [show d' = d from hsem]) hsame
  | selectOrder => exact absurd (by rw [(Statement.Answers.read hsem).1]) hsame
  | readAgent => exact absurd (by rw [show d' = d from hsem]) hsame
  | getFinalizedReceipt => exact absurd (by rw [show d' = d from hsem]) hsame
  | requestService => exact absurd (by rw [hsem.1]) hsame
  | randomUUID =>
    obtain ⟨_, _, _, rfl⟩ := hsem
    exact absurd rfl hsame
  | insertOrder order =>
    rcases hsem.changes with rfl | ⟨o, hdone⟩
    · exact absurd rfl hsame
    rcases insertOrder_ok hdone with ⟨-, rfl, -⟩ | ⟨x, y, -, -, hfree, -, -, rfl⟩
    · exact absurd rfl hsame
    have hget := hrow'.symm.trans (Table.get_insert hfree)
    split_ifs at hget with hk
    · cases hget
      cases hclosed
    · obtain rfl := Option.some.inj (hget.trans hrow)
      exact absurd hclosed hopen
  | claimDelivery id userId token =>
    rcases hsem.changes with rfl | ⟨o, hdone⟩
    · exact absurd rfl hsame
    rcases claimDelivery_ok hdone with ⟨-, rfl⟩ | ⟨row₀, hrow₀, -, -, -, -, -, rfl⟩
    · exact absurd rfl hsame
    exact absurd hclosed (open_of_replace (row₀.claim d.now token) hrow₀ rfl
      (fun hf => by cases hf) hrow hopen hrow')
  | releaseDelivery id userId token message =>
    rcases hsem.changes with rfl | ⟨o, hdone⟩
    · exact absurd rfl hsame
    rcases releaseDelivery_ok hdone with rfl | ⟨row₀, hrow₀, -, -, rfl⟩
    · exact absurd rfl hsame
    exact absurd hclosed (open_of_replace (row₀.release d.now message) hrow₀ rfl
      (fun hf => by cases hf) hrow hopen hrow')
  | completeDelivery id userId token output outputHash =>
    rcases hsem.changes with rfl | ⟨o, hdone⟩
    · exact absurd rfl hsame
    rcases completeDelivery_ok hdone with ⟨-, rfl⟩ | ⟨row₀, x, hrow₀, hstate, htoken, -, -, rfl⟩
    · exact absurd rfl hsame
    have hget := hrow'.symm.trans
      (get_replace hrow₀ (rfl : (row₀.fulfil d.now x outputHash).toOrderIdentity = _) orderId)
    split_ifs at hget with hk
    · subst hk
      obtain rfl := Option.some.inj (hrow.symm.trans hrow₀)
      exact ⟨userId, token, output, outputHash, rfl, hstate, htoken⟩
    · obtain rfl := Option.some.inj (hget.trans hrow)
      exact absurd hclosed hopen

/-! ### Every run -/

section Runs

variable [DecidableEq ι] {s t : System.State ι (OrderDb ι) Effect Answer ApiError PublicOrder}
  {now : ℕ} {τ σ : List (Tr (System.State ι (OrderDb ι) Effect Answer ApiError PublicOrder)
    (System.Action ι Effect Answer ApiError PublicOrder))}

/-- The step that fulfils an order completes the delivery under the token of the order, and is a
step of the process that drew the token. -/
theorem fulfilled_by (hlower : ∀ a : Address, H.isAddress a.text = true)
    {e : Tr (System.State ι (OrderDb ι) Effect Answer ApiError PublicOrder)
      (System.Action ι Effect Answer ApiError PublicOrder)} {row' : OrderRow}
    (hpre : (protocol ι H).Holds (system H J deployment) e.pre)
    (hstep : (system H J deployment).lts.step e.pre e.lab e.post)
    (hrow : e.pre.world.orders.get orderId = some row)
    (hrow' : e.post.world.orders.get orderId = some row') (hopen : row.state ≠ .fulfilled)
    (hclosed : row'.state = .fulfilled) :
    ∃ i userId token output outputHash r,
      e.lab = .effect i (.completeDelivery orderId userId token output outputHash) r ∧
        row.state = .delivering ∧ row.deliveryToken = some token ∧
        e.pre.world.drawn token = some i := by
  have hsame : e.post.world.orders ≠ e.pre.world.orders := by
    intro he
    rw [he, hrow] at hrow'
    cases hrow'
    exact hopen hclosed
  rcases (sound hlower).step_world hpre hstep with
    ⟨i, o, r, hlab, hsem, hguar⟩ | ⟨live, -, now, -, he⟩ | he
  · obtain ⟨userId, token, output, outputHash, rfl, hstate, htoken⟩ :=
      fulfils_effect hsem hrow hrow' hopen hclosed
    obtain ⟨-, token', htoken', hdrawn⟩ := hguar.fulfils orderId row row' hrow hrow' hopen hclosed
    obtain rfl := Option.some.inj (htoken.symm.trans htoken')
    exact ⟨i, userId, token, output, outputHash, r, hlab, hstate, htoken, hdrawn⟩
  · exact absurd (by rw [he]) hsame
  · exact absurd (by rw [he]) hsame

/-- **Every run of the handlers.**  Between any two of its states the identity of an order stays,
and a fulfilled order stays as it is; a transaction pays for one order, and the row of an order is
that of one request; an order carries a valid output once it is fulfilled, and none before; it is
fulfilled by the holder of its token; and after its lease it can be retried, as long as there are
attempts left. -/
theorem orders_run (hlower : ∀ a : Address, H.isAddress a.text = true)
    (h : (system H J deployment).lts.Run (System.State.idle (OrderDb.fresh ι now)) τ s)
    (h' : (system H J deployment).lts.Run s σ t) :
    (∀ id row, s.world.orders.get id = some row → ∃ row', t.world.orders.get id = some row' ∧
      row'.toOrderIdentity = row.toOrderIdentity ∧ (row.state = .fulfilled → row' = row)) ∧
    (∀ id id' row row', s.world.orders.get id = some row → s.world.orders.get id' = some row' →
      row.transactionHash = row'.transactionHash → id = id') ∧
    (∀ id row, s.world.orders.get id = some row →
      row.orderId = id ∧ (∃ service request, row.Bound H service request) ∧
        (row.state ≠ .fulfilled → row.output = none ∧ row.outputHash = none) ∧
        (row.state = .fulfilled → row.Delivered H)) ∧
    (∀ e ∈ τ, ∀ id row row', e.pre.world.orders.get id = some row →
      e.post.world.orders.get id = some row' → row.state ≠ .fulfilled → row'.state = .fulfilled →
        ∃ i userId token output outputHash r,
          e.lab = .effect i (.completeDelivery id userId token output outputHash) r ∧
            row.state = .delivering ∧ row.deliveryToken = some token ∧
            e.pre.world.drawn token = some i) ∧
    (∀ id row, s.world.orders.get id = some row → row.state ≠ .fulfilled →
      row.deliveryAttempts < int4Max → ∃ service request lease, row.Bound H service request ∧
        ∀ i now, s.world.now ≤ now → lease < now → ∃ ρ u k,
          (system H J deployment).lts.Run ⟨{ s.world with now }, Function.update s.processes i
              (some (retryEconomyDelivery H row.userId id.text))⟩ ρ u ∧
            u.processes i = some (.call (.requestService service request) k)) := by
  have hsound : (protocol ι H).Sound (system H J deployment) := sound hlower
  have hs := hsound.run (inv_fresh now) h
  have hkeeps : Keeps H s.world t.world :=
    hsound.rel (inv_fresh now) h h' (fun d => .refl d) (fun _ _ _ => .trans)
      (fun _ _ _ _ hg => hg.keeps) fun _ _ _ _ he => keeps_clock he
  refine ⟨hkeeps.rows, fun id id' row row' hrow hrow' he => ?_, fun id row hrow => ?_,
    fun e he id row row' hrow hrow' hopen hclosed => ?_, fun id row hrow hopen hattempts => ?_⟩
  · exact hs.1.unique id id' row row' _ hrow hrow' rfl (by rw [he])
  · have hok := hs.1.rows id row hrow
    exact ⟨(Table.get_eq_some.1 hrow).2, hok.bound, hok.pending, hok.delivered⟩
  · obtain ⟨ρ, ρ', rfl⟩ := List.append_of_mem he
    obtain ⟨hbefore, hstep, -⟩ := h.split_at
    exact fulfilled_by hlower (hsound.run (inv_fresh now) hbefore) hstep hrow hrow' hopen hclosed
  · have hok := hs.1.rows id row hrow
    obtain ⟨service, request, hb⟩ := hok.bound
    obtain ⟨lease, hfree⟩ := free_of_open hok hopen
    -- A retry runs alone after the lease ended: it gets as far as the request of the service.
    refine ⟨service, request, lease, hb, fun i now' hle hlt => ?_⟩
    have hinv' : Inv H { s.world with now := now' } := (keeps_clock ⟨now', hle, rfl⟩).inv hs.1
    obtain ⟨k, d', hreach⟩ := reaches_requestService (J := J) hinv' hrow (hfree now' hlt) hattempts
      i hb
    obtain ⟨ρ, hrun⟩ := System.run_of_reaches (S := system H J deployment)
      (s := ⟨{ s.world with now := now' }, Function.update s.processes i
        (some (retryEconomyDelivery H row.userId id.text))⟩) hreach (Function.update_self ..)
    exact ⟨ρ, _, k, hrun, Function.update_self ..⟩

end Runs

/-- The order that is recorded in an empty table can be retried. -/
theorem orders_run_first :
    ∃ s : System.State Unit (OrderDb Unit) Effect Answer ApiError PublicOrder,
      s.world.orders.get 11 = some Demo.row₁ ∧
      ∃ service request lease, Demo.row₁.Bound Obolos.Demo.host service request ∧
        ∀ i now, s.world.now ≤ now → lease < now → ∃ ρ u k,
          (system Obolos.Demo.host Demo.column (some Demo.active)).lts.Run
            ⟨{ s.world with now }, Function.update s.processes i
              (some (retryEconomyDelivery Obolos.Demo.host (js "u") (11 : Bytes32).text))⟩ ρ u ∧
            u.processes i = some (.call (.requestService service request) k) := by
  obtain ⟨τ, s, hrun, -, -, hrow, -⟩ := Demo.recorded_11
  have h := orders_run (fun _ => rfl) hrun (LTS.Run.nil s)
  exact ⟨s, hrow, h.2.2.2.2 11 Demo.row₁ hrow (by decide) (by decide)⟩

section Runs

variable [DecidableEq ι] {s t : System.State ι (OrderDb ι) Effect Answer ApiError PublicOrder}
  {now : ℕ} {τ σ : List (Tr (System.State ι (OrderDb ι) Effect Answer ApiError PublicOrder)
    (System.Action ι Effect Answer ApiError PublicOrder))}

/-! ### The last attempt -/

/-- One attempt after the other fails, up to any number the column holds. -/
theorem attempts_reach (hlower : ∀ a : Address, H.isAddress a.text = true) (i : ι)
    (h : (system H J deployment).lts.Run (System.State.idle (OrderDb.fresh ι now)) τ s)
    (hidle : s.processes i = none) (hrow : s.world.orders.get orderId = some row)
    (hpaid : row.state = .paid) (n : ℕ) (hle : row.deliveryAttempts ≤ n) (hn : n ≤ int4Max) :
    ∃ σ t row', (system H J deployment).lts.Run (System.State.idle (OrderDb.fresh ι now)) σ t ∧
      t.processes i = none ∧ t.world.orders.get orderId = some row' ∧ row'.state = .paid ∧
      row'.deliveryAttempts = n := by
  induction n, hle using Nat.le_induction with
  | base => exact ⟨τ, s, row, h, hidle, hrow, hpaid, rfl⟩
  | succ n hle ih =>
    obtain ⟨σ, t, row', hrun, hidle', hrow', hpaid', rfl⟩ := ih (by omega)
    have ht := (sound hlower).run (inv_fresh now) hrun
    obtain ⟨e, d', row'', hreach, hrow'', hpaid'', hattempts⟩ :=
      reaches_released (J := J) ht.1 hrow' hpaid' (by omega) i
    have hstarts : (system H J deployment).starts i t.world
        (retryEconomyDelivery H row'.userId orderId.text) := Or.inr ⟨_, _, rfl⟩
    obtain ⟨ρ, hmore⟩ := System.run_to_end (r := .error e) hreach hidle' hstarts
    exact ⟨σ ++ ρ, _, row'', hrun.append hmore, hidle', hrow'', hpaid'', hattempts⟩

/-- A paid order without attempts left. -/
def OrderRow.Stuck (row : OrderRow) : Prop :=
  row.state = .paid ∧ row.deliveryToken = none ∧ row.deliveryAttempts = int4Max

end Runs

/-- When another row is changed, this one stays. -/
theorem get_replace_other {id : Bytes32} {row₀ : OrderRow} (row₁ : OrderRow)
    (hrow₀ : d.orders.get id = some row₀) (hid : row₁.toOrderIdentity = row₀.toOrderIdentity)
    (hrow : d.orders.get orderId = some row) (hne : row ≠ row₀) :
    (d.orders.replace row₁).get orderId = some row := by
  rw [get_replace hrow₀ hid, if_neg]
  · exact hrow
  · rintro rfl
    exact hne (Option.some.inj (hrow.symm.trans hrow₀))

/-- No claim of such an order is granted. -/
theorem stuck_claim {r : Except ApiError (Option OrderRow)} (hstuck : row.Stuck)
    (hrow : d.orders.get orderId = some row)
    (hsem : sem J i d (.claimDelivery orderId userId token) r d') (row' : OrderRow) :
    r ≠ .ok (some row') := by
  rintro rfl
  rcases claimDelivery_ok hsem.ok with ⟨h, -⟩ | ⟨row₀, hrow₀, -, -, hattempts, -⟩
  · cases h
  · obtain rfl := Option.some.inj (hrow.symm.trans hrow₀)
    exact absurd hattempts (by rw [hstuck.2.2]; exact lt_irrefl _)

/-- No statement changes such an order. -/
theorem stuck_effect {o : Effect} {r : Except ApiError (Answer o)} (hstuck : row.Stuck)
    (hrow : d.orders.get orderId = some row) (hsem : sem J i d o r d') :
    d'.orders.get orderId = some row := by
  have hsame : d'.orders = d.orders → d'.orders.get orderId = some row := fun he => he ▸ hrow
  cases o with
  | selectService => exact hsame (by rw [hsem.1])
  | selectAgent => exact hsame (by rw [show d' = d from hsem])
  | selectOrder => exact hsame (by rw [(Statement.Answers.read hsem).1])
  | readAgent => exact hsame (by rw [show d' = d from hsem])
  | getFinalizedReceipt => exact hsame (by rw [show d' = d from hsem])
  | requestService => exact hsame (by rw [hsem.1])
  | randomUUID =>
    obtain ⟨_, _, _, rfl⟩ := hsem
    exact hrow
  | insertOrder order =>
    rcases hsem.changes with rfl | ⟨o, hdone⟩
    · exact hrow
    rcases insertOrder_ok hdone with ⟨-, rfl, -⟩ | ⟨x, y, -, -, hfree, -, -, rfl⟩
    · exact hrow
    refine (Table.get_insert hfree).trans ((if_neg ?_).trans hrow)
    rintro rfl
    cases hrow.symm.trans hfree
  | claimDelivery id userId token =>
    rcases hsem.changes with rfl | ⟨o, hdone⟩
    · exact hrow
    rcases claimDelivery_ok hdone with ⟨-, rfl⟩ | ⟨row₀, hrow₀, -, -, hattempts, -, -, rfl⟩
    · exact hrow
    refine get_replace_other (row₀.claim d.now token) hrow₀ rfl hrow fun he => ?_
    rw [← he, hstuck.2.2] at hattempts
    exact lt_irrefl _ hattempts
  | releaseDelivery id userId token message =>
    rcases hsem.changes with rfl | ⟨o, hdone⟩
    · exact hrow
    rcases releaseDelivery_ok hdone with rfl | ⟨row₀, hrow₀, htoken, -, rfl⟩
    · exact hrow
    refine get_replace_other (row₀.release d.now message) hrow₀ rfl hrow fun he => ?_
    rw [← he, hstuck.2.1] at htoken
    cases htoken
  | completeDelivery id userId token output outputHash =>
    rcases hsem.changes with rfl | ⟨o, hdone⟩
    · exact hrow
    rcases completeDelivery_ok hdone with ⟨-, rfl⟩ | ⟨row₀, x, hrow₀, hstate, -, -, -, rfl⟩
    · exact hrow
    refine get_replace_other (row₀.fulfil d.now x outputHash) hrow₀ rfl hrow fun he => ?_
    rw [← he, hstuck.1] at hstate
    cases hstate

section Stuck

variable [DecidableEq ι] {s t : System.State ι (OrderDb ι) Effect Answer ApiError PublicOrder}
  {σ : List (Tr (System.State ι (OrderDb ι) Effect Answer ApiError PublicOrder)
    (System.Action ι Effect Answer ApiError PublicOrder))}

/-- A step leaves such an order as it is. -/
theorem stuck_step {a : System.Action ι Effect Answer ApiError PublicOrder} (hstuck : row.Stuck)
    (hrow : s.world.orders.get orderId = some row)
    (hstep : (system H J deployment).lts.step s a t) : t.world.orders.get orderId = some row := by
  cases hstep with
  | effect running sem => exact stuck_effect hstuck hrow sem
  | env env =>
    obtain ⟨now, -, rfl⟩ := env
    exact hrow
  | _ => exact hrow

/-- It is never claimed again. -/
theorem stuck_run (hstuck : row.Stuck) (hrow : s.world.orders.get orderId = some row)
    (h : (system H J deployment).lts.Run s σ t) :
    t.world.orders.get orderId = some row ∧
      ∀ e ∈ σ, ∀ i userId token r, e.lab = .effect i (.claimDelivery orderId userId token) r →
        ∀ row', r ≠ .ok (some row') := by
  have hstay : ∀ (u : System.State ι (OrderDb ι) Effect Answer ApiError PublicOrder) a v,
      u.world.orders.get orderId = some row → (system H J deployment).lts.step u a v →
        v.world.orders.get orderId = some row :=
    fun u a v hrow hstep => stuck_step hstuck hrow hstep
  refine ⟨h.invariant hrow hstay, fun e he i userId token r hlab row' => ?_⟩
  have hpre := h.invariant_of_mem hrow hstay he
  have hstep := h.step_of_mem he
  rw [hlab] at hstep
  generalize e.pre = u at hpre hstep
  generalize e.post = v at hstep
  cases hstep with
  | effect running sem => exact stuck_claim (J := J) (i := i) hstuck hpre.1 sem row'

end Stuck

/-- **The last attempt.**  After `2^31 - 1` attempts the order is paid, nobody delivers it, and no
claim of it is granted any more. -/
theorem attempts_exhausted :
    ∃ τ s row, (system Obolos.Demo.host Demo.column (some Demo.active)).lts.Run
        (System.State.idle (OrderDb.fresh Unit 0)) τ s ∧
      s.world.orders.get 11 = some row ∧ row.state = .paid ∧
      ∀ σ t, (system Obolos.Demo.host Demo.column (some Demo.active)).lts.Run s σ t →
        t.world.orders.get 11 = some row ∧
          ∀ e ∈ σ, ∀ i userId token r, e.lab = .effect i (.claimDelivery 11 userId token) r →
            ∀ row', r ≠ .ok (some row') := by
  have hlower : ∀ a : Address, Obolos.Demo.host.isAddress a.text = true := fun _ => rfl
  obtain ⟨τ, s, hrun, hidle, -, hrow, -⟩ := Demo.recorded_11
  obtain ⟨σ, t, row, hrun', -, hrow', hpaid, hattempts⟩ :=
    attempts_reach hlower () hrun (by rw [hidle]) hrow rfl int4Max (Nat.zero_le _) le_rfl
  have hok := ((sound hlower).run (inv_fresh 0) hrun').1.rows _ _ hrow'
  have htoken : row.deliveryToken = none := by
    rw [← Option.not_isSome_iff_eq_none]
    intro hsome
    have hdelivering := hok.claimed.2 hsome
    rw [hpaid] at hdelivering
    cases hdelivering
  exact ⟨σ, t, row, hrun', hrow', hpaid,
    fun ρ u hmore => stuck_run ⟨hpaid, htoken, hattempts⟩ hrow' hmore⟩

end Marketplace

end Obolos
