import Obolos.Platform.DataService

/-!
# One settlement for a payment

Any number of instances serve requests, each can be killed between any two steps, and every query
and every call may fail, before or after it had its effect.

Who inserted a row knows that nobody has settled its transaction, and that nobody else ever will
(`Owned`).  So the settlements that are started are for different transactions, and the unique
columns of their rows make the offers different too (`settled_once`).
-/

namespace Obolos

namespace DataService

variable {ι : Type} (P : Service)

/-! ### The semantics -/

/-- What a request has been answered, with one answer more. -/
def Seen.answered (seen : Seen) : (o : Effect) → Except JsError (Answer o) → Seen
  | .verifyOffer _, .ok offer => { seen with offer := some offer }
  | .verifyPayment payload requirements, .ok verified =>
    { seen with payment := some ⟨payload, requirements, verified⟩ }
  | .now, .ok time => { seen with times := seen.times ++ [time] }
  | _, _ => seen

/-- What an effect of process `i` answers and does.  A query or a call that fails may have had its
effect.  An insertion and a settlement are recorded with what their process was answered before. -/
def sem [DecidableEq ι] (i : ι) (w : World ι) : (o : Effect) → Except JsError (Answer o) → World ι → Prop
  | .claim row, r, w' =>
    (∃ e, r = .error e ∧ w' = w) ∨
    (w.payments.conflict row = true ∧ r = .ok false ∧ w' = w) ∨
    (w.payments.conflict row = false ∧ r ≠ .ok false ∧ w' = w.insert i row)
  | .settlePayment payload requirements, _, w' =>
    w' = { w with calls := w.calls ++ [⟨i, payload, requirements, w.seen i⟩] }
  | .record id settlement evidence, r, w' =>
    (∃ e, r = .error e ∧ w' = w) ∨
    w' = { w with payments := w.payments.record id settlement evidence }
  | o, r, w' => w' = w.saw i ((w.seen i).answered o r)

/-- Instances that serve any requests.  Every request is a process of its own: one that was answered
something is not started again. -/
def system [DecidableEq ι] : System ι (World ι) Effect Answer JsError Response where
  sem := sem
  starts i w p := w.seen i = Seen.none ∧ ∃ request, p = publicDataRequest P request
  env _ _ _ := False

/-! ### The invariant -/

/-- The payment that a request has verified is valid, its transaction is `id`, and it is paid by
`payer`, also by the offer that was verified. -/
structure Verifies (seen : Seen) (payment : Payment) (payer id : JsString) : Prop where
  verified : seen.payment = some payment
  valid : payment.verified.isValid = true
  pays : payment.verified.payer = some payer
  native : P.native payment.payload = some (.ok (some id))
  offered : ∀ offer, seen.offer = some offer → payer = offer.payer

/-- The settlement of a row is that of the payer and the transaction that were verified before it
was inserted. -/
def Proven (claim : Claim ι) (row : PaymentRow) : Prop :=
  ∃ payment payer settlement id, Verifies P claim.seen payment payer row.transactionId ∧
    row.settlement = some settlement ∧ settlement.payer = some payer ∧
    settlement.transaction = some id ∧
    normalizeTransactionId id = normalizeTransactionId row.transactionId

/-- What is known of a row from its claim. -/
structure Claimed (claim : Claim ι) (row : PaymentRow) : Prop where
  offerId : row.offerId = claim.seen.offer.map A2AOffer.offerId
  requestKey : row.offerRequestKey = claim.seen.offer.map A2AOffer.requestKey
  proven : row.state = .settled → Proven P claim row

/-- The offer and its mandate had not expired when they were checked after the insertion. -/
def Active (seen : Seen) : Prop :=
  ∀ offer, seen.offer = some offer → ∃ first second, seen.times = [first, second] ∧
    P.expired offer.expiresAt first = false ∧ P.expired offer.mandateExpiresAt second = false

/-- What a settlement was started for: the payment that its request verified, by who inserted the
row of its transaction. -/
structure Authorized (claims : JsString → Option (Claim ι)) (call : Call ι) (payer id : JsString) :
    Prop where
  verifies : ∃ verified, Verifies P call.seen ⟨call.payload, call.requirements, verified⟩ payer id
  active : Active P call.seen
  claimed : ∃ times, claims id = some ⟨call.process, { call.seen with times := times }⟩

/-- The settlement of a transaction was started. -/
def World.Started (w : World ι) (id : JsString) : Prop :=
  ∃ call ∈ w.calls, P.native call.payload = some (.ok (some id))

/-- The invariant. -/
structure Inv (w : World ι) : Prop where
  offers : w.payments.Unique PaymentRow.offerId
  keys : w.payments.Unique PaymentRow.offerRequestKey
  rows : ∀ id row, w.payments.get id = some row → ∃ claim, w.claims id = some claim
  claims : ∀ id claim, w.claims id = some claim →
    ∃ row, w.payments.get id = some row ∧ Claimed P claim row
  calls : ∀ call ∈ w.calls, ∃ payer id, Authorized P w.claims call payer id
  once : w.calls.Pairwise fun call call' => P.native call.payload ≠ P.native call'.payload

/-- What others leave: claims are for good, nobody settles what another process claimed, and what a
process was answered is its own. -/
structure Kept (i : ι) (w w' : World ι) : Prop where
  inv : Inv P w'
  claims : ∀ id claim, w.claims id = some claim → w'.claims id = some claim
  calls : ∀ id claim, w.claims id = some claim → claim.process = i →
    (w'.Started P id ↔ w.Started P id)
  seen : w'.seen i = w.seen i

/-- What a process does: it claims what is free, and settles what it claimed. -/
structure Made (i : ι) (w w' : World ι) : Prop where
  inv : Inv P w'
  claims : ∀ id claim, w.claims id = some claim → w'.claims id = some claim
  calls : ∀ id claim, w.claims id = some claim → claim.process ≠ i →
    (w'.Started P id ↔ w.Started P id)
  seen : ∀ j, j ≠ i → w'.seen j = w.seen j

/-- The rely and the guarantee of the instances. -/
def protocol : Protocol ι (World ι) := ⟨Inv P, Kept P, Made P⟩

variable {P} {i : ι} {w w' : World ι} {seen : Seen}

theorem Kept.refl (h : Inv P w) : Kept P i w w := ⟨h, fun _ _ h => h, fun _ _ _ _ => Iff.rfl, rfl⟩

theorem Kept.trans {w'' : World ι} (h : Kept P i w w') (h' : Kept P i w' w'') : Kept P i w w'' where
  inv := h'.inv
  claims id claim hc := h'.claims id claim (h.claims id claim hc)
  calls id claim hc hi := (h'.calls id claim (h.claims id claim hc) hi).trans (h.calls id claim hc hi)
  seen := h'.seen.trans h.seen

theorem Made.refl (h : Inv P w) : Made P i w w :=
  ⟨h, fun _ _ h => h, fun _ _ _ _ => Iff.rfl, fun _ _ => rfl⟩

theorem seen_saw [DecidableEq ι] : (w.saw i seen).seen i = seen := Function.update_self ..

theorem Inv.saw [DecidableEq ι] (h : Inv P w) (i : ι) (seen : Seen) : Inv P (w.saw i seen) :=
  ⟨h.offers, h.keys, h.rows, h.claims, h.calls, h.once⟩

theorem made_saw [DecidableEq ι] (h : Inv P w) : Made P i w (w.saw i seen) :=
  ⟨h.saw i seen, fun _ _ h => h, fun _ _ _ _ => Iff.rfl, fun _ hj => Function.update_of_ne hj ..⟩

/-- What a process knows after its insertion: nobody has settled its transaction. -/
structure Owned (P : Service) (i : ι) (id : JsString) (claimed : Seen) (w : World ι) : Prop where
  claim : w.claims id = some ⟨i, claimed⟩
  free : ¬ w.Started P id

theorem Owned.kept {id : JsString} {claimed : Seen} (h : Owned P i id claimed w)
    (hkept : Kept P i w w') : Owned P i id claimed w' :=
  ⟨hkept.claims _ _ h.claim, fun hstarted => h.free ((hkept.calls _ _ h.claim rfl).1 hstarted)⟩

theorem inv_empty : Inv P (World.empty : World ι) where
  offers := Table.unique_empty
  keys := Table.unique_empty
  rows id row h := by cases h
  claims id claim h := by cases h
  calls call h := absurd h List.not_mem_nil
  once := List.Pairwise.nil

/-! ### Insertions -/

/-- A row that conflicts with none. -/
theorem conflict_eq_false {t : Payments} {row : PaymentRow} (h : t.conflict row = false) :
    t.get row.transactionId = none ∧
    (∀ id r v, t.get id = some r → row.offerId = some v → r.offerId ≠ some v) ∧
    (∀ id r v, t.get id = some r → row.offerRequestKey = some v → r.offerRequestKey ≠ some v) := by
  have hfree : ∀ u : PaymentRow → Option JsString, t.taken u row = false →
      ∀ id r v, t.get id = some r → u row = some v → u r ≠ some v := by
    intro u hu id r v hr hv hrv
    have hany : t.taken u row = true := by
      refine Table.any_iff.2 ⟨id, r, hr, ?_⟩
      rw [hrv, hv]
      simp
    rw [hu] at hany
    cases hany
  rw [Payments.conflict, Bool.or_eq_false_iff, Bool.or_eq_false_iff] at h
  obtain ⟨⟨hget, hoffer⟩, hkey⟩ := h
  exact ⟨Option.not_isSome_iff_eq_none.1 (by rw [hget]; exact Bool.false_ne_true),
    hfree _ hoffer, hfree _ hkey⟩

variable {row : PaymentRow} {claim : Claim ι}

theorem claims_insert [DecidableEq ι] (id : JsString) : (w.insert i row).claims id =
    if id = row.transactionId then some ⟨i, w.seen i⟩ else w.claims id := rfl

/-- A transaction without a row was not claimed. -/
theorem Inv.unclaimed (h : Inv P w) {id : JsString} (hfree : w.payments.get id = none) :
    w.claims id = none := by
  cases hclaim : w.claims id with
  | none => rfl
  | some claim =>
    obtain ⟨row, hrow, -⟩ := h.claims id claim hclaim
    rw [hfree] at hrow
    cases hrow

/-- A transaction that was not claimed was not settled. -/
theorem Inv.unsettled (h : Inv P w) {id : JsString} (hfree : w.claims id = none) :
    ¬ w.Started P id := by
  rintro ⟨call, hcall, hnative⟩
  obtain ⟨payer, id', ⟨verified, hverifies⟩, -, times, hclaim⟩ := h.calls call hcall
  have hsame := hverifies.native.symm.trans hnative
  obtain rfl : id' = id := by simpa using hsame
  rw [hfree] at hclaim
  cases hclaim

/-- An insertion leaves the claims of other transactions. -/
theorem Inv.claims_insert [DecidableEq ι] (h : Inv P w)
    (hget : w.payments.get row.transactionId = none) {id : JsString}
    (hclaim : w.claims id = some claim) :
    (w.insert i row).claims id = some claim := by
  rw [DataService.claims_insert, if_neg, hclaim]
  rintro rfl
  rw [h.unclaimed hget] at hclaim
  cases hclaim

/-- An insertion keeps the invariant. -/
theorem Inv.insert [DecidableEq ι] (h : Inv P w) (hfree : w.payments.conflict row = false)
    (hclaimed : Claimed P ⟨i, w.seen i⟩ row) : Inv P (w.insert i row) := by
  obtain ⟨hget, hoffer, hkey⟩ := conflict_eq_false hfree
  have hrows : ∀ id, (w.insert i row).payments.get id =
      if id = row.transactionId then some row else w.payments.get id :=
    fun id => Table.get_insert hget
  refine ⟨h.offers.insert hget hoffer, h.keys.insert hget hkey, ?_, ?_, ?_, h.once⟩
  · intro id row' hrow
    rw [hrows] at hrow
    rw [DataService.claims_insert]
    split_ifs at hrow ⊢ with hid
    · exact ⟨_, rfl⟩
    · exact h.rows id row' hrow
  · intro id claim' hclaim
    rw [DataService.claims_insert] at hclaim
    rw [hrows]
    split_ifs at hclaim ⊢ with hid
    · cases hclaim
      exact ⟨row, rfl, hclaimed⟩
    · exact h.claims id claim' hclaim
  · intro call hcall
    obtain ⟨payer, id, hverifies, hactive, times, hclaim⟩ := h.calls call hcall
    exact ⟨payer, id, hverifies, hactive, times, h.claims_insert hget hclaim⟩

/-- An insertion, and what its process knows then. -/
theorem made_insert [DecidableEq ι] (h : Inv P w) (hfree : w.payments.conflict row = false)
    (hclaimed : Claimed P ⟨i, w.seen i⟩ row) :
    Made P i w (w.insert i row) ∧ Owned P i row.transactionId (w.seen i) (w.insert i row) := by
  obtain ⟨hget, -, -⟩ := conflict_eq_false hfree
  exact ⟨⟨h.insert hfree hclaimed, fun id claim hclaim => h.claims_insert hget hclaim,
    fun _ _ _ _ => Iff.rfl, fun _ hj => Function.update_of_ne hj ..⟩,
    if_pos rfl, h.unsettled (h.unclaimed hget)⟩

/-! ### Settlements -/

theorem started_append {call : Call ι} {id : JsString} :
    World.Started P { w with calls := w.calls ++ [call] } id ↔
      w.Started P id ∨ P.native call.payload = some (.ok (some id)) := by
  simp only [World.Started, List.mem_append, List.mem_singleton, or_and_right, exists_or,
    exists_eq_left]

/-- Who owns a transaction may settle it. -/
theorem made_settle {call : Call ι} {payer id : JsString} {claimed : Seen} (h : Inv P w)
    (howned : Owned P i id claimed w) (hcall : Authorized P w.claims call payer id) :
    Made P i w { w with calls := w.calls ++ [call] } := by
  obtain ⟨verified, hverifies⟩ := hcall.verifies
  have hnative : P.native call.payload = some (.ok (some id)) := hverifies.native
  refine ⟨⟨h.offers, h.keys, h.rows, h.claims, fun c hc => ?_, ?_⟩, fun _ _ hc => hc, ?_,
    fun _ _ => rfl⟩
  · rcases List.mem_append.1 hc with hc | hc
    · exact h.calls c hc
    · rw [List.mem_singleton.1 hc]
      exact ⟨payer, id, hcall⟩
  · refine List.pairwise_append.2 ⟨h.once, List.pairwise_singleton .., fun c hc c' hc' hsame => ?_⟩
    rw [List.mem_singleton.1 hc', hnative] at hsame
    exact howned.free ⟨c, hc, hsame⟩
  · intro id' claim hclaim hother
    rw [started_append, or_iff_left]
    intro hsame
    obtain rfl : id = id' := by simpa using hnative.symm.trans hsame
    rw [howned.claim] at hclaim
    cases hclaim
    exact hother rfl

/-- What is read after a row was recorded. -/
theorem get_record {t : Payments} {id : JsString} {settlement : Settlement} {evidence : List Json}
    (k : JsString) : (t.record id settlement evidence).get k = (t.get k).map fun row =>
      if k = id ∧ row.state = .pending then row.settle settlement evidence else row := by
  unfold Payments.record
  cases hrow : t.get id with
  | none =>
    cases hk : t.get k with
    | none => rfl
    | some row =>
      have hne : k ≠ id := by
        rintro rfl
        rw [hrow] at hk
        cases hk
      rw [Option.map_some, if_neg fun hboth => hne hboth.1]
  | some row =>
    have hkey : row.transactionId = id := Table.key_of_get hrow
    dsimp only
    by_cases hpending : row.state = .pending
    · have hget : t.get (row.settle settlement evidence).transactionId = some row := by
        rw [← hrow, ← hkey]
        rfl
      rw [if_pos hpending, Table.get_replace hget]
      by_cases hk : k = id
      · subst hk
        have heq : k = (row.settle settlement evidence).transactionId := hkey.symm
        rw [if_pos heq, hrow, Option.map_some, if_pos ⟨rfl, hpending⟩]
      · have hne : k ≠ (row.settle settlement evidence).transactionId := fun he => hk (he.trans hkey)
        rw [if_neg hne]
        cases hother : t.get k <;> simp [hk]
    · rw [if_neg hpending]
      by_cases hk : k = id
      · subst hk
        rw [hrow, Option.map_some, if_neg fun hboth => hpending hboth.2]
      · cases hother : t.get k <;> simp [hk]

/-- A column that a settlement does not change stays unique. -/
theorem unique_record {t : Payments} {id : JsString} {settlement : Settlement}
    {evidence : List Json} {u : PaymentRow → Option JsString} (h : t.Unique u)
    (hu : ∀ row : PaymentRow, u (row.settle settlement evidence) = u row) :
    (t.record id settlement evidence).Unique u := by
  have hsame : ∀ k row, (t.record id settlement evidence).get k = some row →
      ∃ row', t.get k = some row' ∧ u row' = u row := by
    intro k row hrow
    rw [get_record, Option.map_eq_some_iff] at hrow
    obtain ⟨row', hrow', rfl⟩ := hrow
    refine ⟨row', hrow', ?_⟩
    split_ifs
    · exact (hu row').symm
    · rfl
  intro k k' r r' v hr hr' hv hv'
  obtain ⟨q, hq, hqu⟩ := hsame k r hr
  obtain ⟨q', hq', hqu'⟩ := hsame k' r' hr'
  exact h k k' q q' v hq hq' (hqu.trans hv) (hqu'.trans hv')

/-- Recording a settlement of the payer and the transaction that were verified. -/
theorem made_record {id payer : JsString} {claimed : Seen} {payment : Payment}
    {settlement : Settlement} {evidence : List Json} (h : Inv P w)
    (hclaim : w.claims id = some ⟨i, claimed⟩) (hverifies : Verifies P claimed payment payer id)
    (hpayer : settlement.payer = some payer)
    (hid : settlement.transaction.map normalizeTransactionId = some (normalizeTransactionId id)) :
    Made P i w { w with payments := w.payments.record id settlement evidence } where
  inv := {
    offers := unique_record h.offers fun _ => rfl
    keys := unique_record h.keys fun _ => rfl
    rows := by
      intro k row hrow
      rw [get_record, Option.map_eq_some_iff] at hrow
      obtain ⟨row', hrow', -⟩ := hrow
      exact h.rows k row' hrow'
    claims := by
      intro k claim hk
      obtain ⟨row, hrow, hclaimed⟩ := h.claims k claim hk
      refine ⟨_, by rw [get_record, hrow, Option.map_some], ?_⟩
      split_ifs with hboth
      · obtain ⟨rfl, -⟩ := hboth
        rw [hclaim] at hk
        cases hk
        obtain ⟨original, horiginal, hsame⟩ := Option.map_eq_some_iff.1 hid
        have hkey : row.transactionId = k := Table.key_of_get hrow
        exact ⟨hclaimed.offerId, hclaimed.requestKey, fun _ => ⟨payment, payer, settlement, original,
          hkey.symm ▸ hverifies, rfl, hpayer, horiginal, by rw [hsame]; exact congrArg _ hkey.symm⟩⟩
      · exact hclaimed
    calls := h.calls
    once := h.once }
  claims _ _ hc := hc
  calls _ _ _ _ := Iff.rfl
  seen _ _ := rfl

/-! ### The programs -/

/-- What a process knows whatever the others do, and whatever it is answered. -/
structure Stable [DecidableEq ι] (P : Service) (i : ι) (A : World ι → Prop) : Prop where
  kept : ∀ w w', A w → Kept P i w w' → A w'
  saw : ∀ w seen, A w → A (w.saw i seen)

/-- Process `i` was answered this, and knows `A`. -/
structure At (P : Service) (i : ι) (A : World ι → Prop) (seen : Seen) (w : World ι) : Prop where
  inv : Inv P w
  knows : A w
  seen : w.seen i = seen

variable {A : World ι → Prop} {α : Type}

theorem stable_true [DecidableEq ι] : Stable P i fun _ : World ι => True :=
  ⟨fun _ _ _ _ => trivial, fun _ _ _ => trivial⟩

theorem stable_owned [DecidableEq ι] {id : JsString} {claimed : Seen} :
    Stable P i (Owned P i id claimed) :=
  ⟨fun _ _ h hkept => h.kept hkept, fun _ _ h => ⟨h.claim, h.free⟩⟩

theorem At.kept [DecidableEq ι] (hA : Stable P i A) (h : At P i A seen w) (hkept : Kept P i w w') :
    At P i A seen w' :=
  ⟨hkept.inv, hA.kept _ _ h.knows hkept, hkept.seen.trans h.seen⟩

variable [DecidableEq ι]

/-- What the programs are verified against. -/
abbrev spec (P : Service) (i : ι) : Prog.Spec (World ι) Effect Answer JsError :=
  (protocol P).spec (system P) i

/-- An effect that only answers. -/
theorem wp_query {o : Effect} {Q : Except JsError (Answer o) → World ι → Prop} (hA : Stable P i A)
    (h : At P i A seen w)
    (hquery : ∀ w r w', sem i w o r w' → w' = w.saw i ((w.seen i).answered o r))
    (hQ : ∀ r w', At P i A (seen.answered o r) w' → Q r w') : (perform o).wp (spec P i) Q w := by
  refine Prog.wp_await.2 fun w₁ hrely r w₂ hsem => ?_
  have hkept : Kept P i w w₁ := hrely
  have h₁ := h.kept hA hkept
  have hsaw := hquery w₁ r w₂ hsem
  subst hsaw
  refine ⟨made_saw hkept.inv, hQ r _ ⟨hkept.inv.saw i _, hA.saw _ _ h₁.knows, ?_⟩⟩
  rw [seen_saw, h₁.seen]

/-- The readings of the clock that found the authority of an offer active. -/
def Fresh (P : Service) (offer : Option A2AOffer) (seen : Seen) (times : List ℤ) : Prop :=
  ∀ o, offer = some o → ∃ first second, times = seen.times ++ [first, second] ∧
    P.expired o.expiresAt first = false ∧ P.expired o.mandateExpiresAt second = false

/-- The authority of an offer is checked. -/
theorem wp_authority {offer : Option A2AOffer} (hA : Stable P i A) (h : At P i A seen w) :
    (authority P offer).wp (spec P i) (Prog.post (Inv P) fun late w' => ∃ times,
      At P i A { seen with times := times } w' ∧ (late = false → Fresh P offer seen times)) w := by
  cases offer with
  | none => exact Prog.wp_pure.2 ⟨h.inv, seen.times, h, fun _ o ho => by cases ho⟩
  | some offer =>
    unfold authority
    refine Prog.wp_bind.2 (wp_query hA h (fun _ _ _ hsem => hsem) fun r w₁ h₁ => ?_)
    cases r with
    | error e => exact h₁.inv
    | ok first =>
      refine Prog.wp_ite (fun _ => ?_) fun hactive => ?_
      · exact Prog.wp_pure.2 ⟨h₁.inv, _, h₁, fun hfalse => by cases hfalse⟩
      · refine Prog.wp_bind.2 (wp_query hA h₁ (fun _ _ _ hsem => hsem) fun r w₂ h₂ => ?_)
        cases r with
        | error e => exact h₂.inv
        | ok second =>
          refine Prog.wp_pure.2 ⟨h₂.inv, _, h₂, fun hlate o ho => ?_⟩
          cases ho
          exact ⟨first, second, List.append_assoc .., Bool.not_eq_true _ ▸ hactive, hlate⟩

/-- A settlement that passes the checks. -/
theorem validateSettlement_payer {settlement : Settlement} {payer : JsString} {u : Unit}
    (h : validateSettlement settlement payer = .ok u) : settlement.payer = some payer := by
  unfold validateSettlement at h
  split_ifs at h with hbad
  · cases h
  · by_contra hne
    exact hbad (Or.inr (Or.inr (Or.inl hne)))

/-- The program keeps the invariant. -/
def Keeps (P : Service) (i : ι) (p : Prog Effect Answer JsError α) (w : World ι) : Prop :=
  p.wp (spec P i) (fun _ w => Inv P w) w

/-- Only the owner of a transaction settles it. -/
theorem keeps_settleClaimed {payload : Payload} {requirements : Terms} {verified : Verified}
    {quote : Quote} {payer id : JsString} {evidence : List Json} {claimed : Seen}
    (h : At P i (Owned P i id claimed) seen w)
    (hverifies : Verifies P claimed ⟨payload, requirements, verified⟩ payer id)
    (hseen : seen = { claimed with times := seen.times }) (hactive : Active P seen) :
    Keeps P i (settleClaimed payload requirements quote payer evidence id) w := by
  unfold settleClaimed
  refine Prog.wp_bind.2 (Prog.wp_await.2 fun w₁ hrely r w₂ hsem => ?_)
  have hkept : Kept P i w w₁ := hrely
  have h₁ := h.kept stable_owned hkept
  obtain rfl : w₂ = { w₁ with
    calls := w₁.calls ++ [⟨i, payload, requirements, w₁.seen i⟩] } := hsem
  have hcall : Authorized P w₁.claims ⟨i, payload, requirements, w₁.seen i⟩ payer id := by
    rw [h₁.seen, hseen]
    exact ⟨⟨verified, hverifies.verified, hverifies.valid, hverifies.pays, hverifies.native,
      hverifies.offered⟩, hseen ▸ hactive, claimed.times, h₁.knows.claim⟩
  have hmade := made_settle hkept.inv h₁.knows hcall
  refine ⟨hmade, ?_⟩
  cases r with
  | error e => exact hmade.inv
  | ok settlement =>
    refine Prog.wp_ite (fun _ => Prog.wp_pure.2 hmade.inv) fun _ => ?_
    cases hvalid : validateSettlement settlement payer with
    | error e => exact Prog.wp_pure.2 hmade.inv
    | ok u =>
      refine Prog.wp_ite (fun _ => Prog.wp_pure.2 hmade.inv) fun hsame => ?_
      refine Prog.wp_bind.2 (Prog.wp_await.2 fun w₃ hrely₃ r₃ w₄ hsem₄ => ?_)
      have hkept₃ : Kept P i _ w₃ := hrely₃
      have hrecord : Made P i w₃
          { w₃ with payments := w₃.payments.record id settlement evidence } :=
        made_record hkept₃.inv (hkept₃.claims _ _ h₁.knows.claim) hverifies
          (validateSettlement_payer hvalid) (not_not.1 hsame)
      rcases hsem₄ with ⟨e, rfl, rfl⟩ | rfl
      · exact ⟨Made.refl hkept₃.inv, hkept₃.inv⟩
      · refine ⟨hrecord, ?_⟩
        cases r₃ with
        | error e => exact hrecord.inv
        | ok _ => exact Prog.wp_pure.2 hrecord.inv

/-- Who inserts the row of a transaction owns it. -/
theorem keeps_claimPayment {token : Option Token} {repos : List JsString} {quote : Quote}
    {payload : Payload} {requirements : Terms} {verified : Verified} {payer : JsString}
    {evidence : List Json} {id : JsString} {offer : Option A2AOffer}
    (h : At P i (fun _ => True) seen w) (hoffer : seen.offer = offer)
    (hverifies : Verifies P seen ⟨payload, requirements, verified⟩ payer id) :
    Keeps P i (claimPayment P token repos quote offer payload requirements payer evidence id)
      w := by
  subst hoffer
  unfold claimPayment
  refine Prog.wp_bind.2 (Prog.wp_mono (wp_authority stable_true h) fun r w₁ hr => ?_)
  cases r with
  | error e => exact hr
  | ok late =>
  obtain ⟨-, times, h₁, -⟩ := hr
  refine Prog.wp_ite (fun _ => Prog.wp_pure.2 h₁.inv) fun _ => ?_
  refine Prog.wp_bind.2 (Prog.wp_await.2 fun w₂ hrely r w₃ hsem => ?_)
  have hkept : Kept P i w₁ w₂ := hrely
  have h₂ := h₁.kept stable_true hkept
  -- No answer, a key that is taken, or the row is inserted and this call owns it.
  rcases hsem with ⟨e, rfl, rfl⟩ | ⟨-, rfl, rfl⟩ | ⟨hfree, hr, rfl⟩
  · exact ⟨Made.refl h₂.inv, h₂.inv⟩
  · exact ⟨Made.refl h₂.inv, Prog.wp_ite (fun _ => Prog.wp_pure.2 h₂.inv) fun hne => absurd rfl hne⟩
  · have hclaimed : Claimed P ⟨i, w₂.seen i⟩ (pendingRow token repos quote id seen.offer) := by
      rw [h₂.seen]
      exact ⟨rfl, rfl, fun hsettled => by cases hsettled⟩
    obtain ⟨hmade, howned⟩ := made_insert h₂.inv hfree hclaimed
    refine ⟨hmade, ?_⟩
    cases r with
    | error e => exact hmade.inv
    | ok claimed =>
      refine Prog.wp_ite (fun _ => Prog.wp_pure.2 hmade.inv) fun _ => ?_
      rw [h₂.seen] at howned
      have h₃ : At P i (Owned P i id { seen with times := times }) { seen with times := [] }
          (w₂.insert i (pendingRow token repos quote id seen.offer)) := by
        refine ⟨hmade.inv, howned, ?_⟩
        show Function.update _ _ _ _ = _
        rw [Function.update_self, h₂.seen]
      refine Prog.wp_bind.2 (Prog.wp_mono (wp_authority stable_owned h₃) fun r w₄ hr => ?_)
      cases r with
      | error e => exact hr
      | ok late =>
      obtain ⟨-, later, h₄, hfresh⟩ := hr
      refine Prog.wp_ite (fun _ => Prog.wp_pure.2 h₄.inv) fun hlate => ?_
      have hpayer : Verifies P { seen with times := times } ⟨payload, requirements, verified⟩ payer
          id := ⟨hverifies.verified, hverifies.valid, hverifies.pays, hverifies.native,
        hverifies.offered⟩
      refine keeps_settleClaimed h₄ hpayer rfl fun o ho => ?_
      exact hfresh (Bool.not_eq_true _ ▸ hlate) o ho

/-- A query, before the rest of a program. -/
theorem keeps_query {o : Effect} {f : Answer o → Prog Effect Answer JsError α}
    (h : At P i (fun _ => True) seen w)
    (hquery : ∀ w r w', sem i w o r w' → w' = w.saw i ((w.seen i).answered o r))
    (hf : ∀ a w', At P i (fun _ => True) (seen.answered o (.ok a)) w' → Keeps P i (f a) w') :
    Keeps P i (perform o >>= f) w := by
  refine Prog.wp_bind.2 (wp_query stable_true h hquery fun r w' h' => ?_)
  cases r with
  | error e => exact h'.inv
  | ok a => exact hf a w' h'

/-- A part, before the rest of a program. -/
theorem keeps_bind {β : Type} {p : Prog Effect Answer JsError β}
    {f : β → Prog Effect Answer JsError α} {B : β → World ι → Prop}
    (hp : p.wp (spec P i) (Prog.post (Inv P) B) w)
    (hf : ∀ a w', Inv P w' → B a w' → Keeps P i (f a) w') : Keeps P i (p >>= f) w := by
  refine Prog.wp_bind.2 (Prog.wp_mono hp fun r w' h' => ?_)
  cases r with
  | error e => exact h'
  | ok a => exact hf a w' h'.1 h'.2

theorem keeps_pure {a : α} (h : Inv P w) : Keeps P i (pure a) w := Prog.wp_pure.2 h

/-- A query, and what is known of its answer. -/
theorem wp_answered {o : Effect} (h : At P i (fun _ => True) seen w)
    (hquery : ∀ w r w', sem i w o r w' → w' = w.saw i ((w.seen i).answered o r)) :
    (perform o).wp (spec P i) (Prog.post (Inv P) fun a w' =>
      At P i (fun _ => True) (seen.answered o (.ok a)) w') w := by
  refine wp_query stable_true h hquery fun r w' h' => ?_
  cases r with
  | error e => exact h'.inv
  | ok a => exact ⟨h'.inv, h'⟩

/-- A part whose exceptions are handled as no result. -/
theorem wp_optional {β : Type} {p : Prog Effect Answer JsError β} {B : β → World ι → Prop}
    (hp : p.wp (spec P i) (Prog.post (Inv P) B) w) :
    (tryCatch (some <$> p) fun _ => pure none).wp (spec P i)
      (Prog.post (Inv P) fun a w' => ∀ x, a = some x → B x w') w := by
  refine Prog.wp_tryCatch.2 (Prog.wp_map.2 (Prog.wp_mono hp fun r w' h' => ?_))
  cases r with
  | error e => exact Prog.wp_pure.2 ⟨h', fun x hx => by cases hx⟩
  | ok a =>
    refine ⟨h'.1, fun x hx => ?_⟩
    cases hx
    exact h'.2

/-- A payment whose payer is verified. -/
theorem keeps_verifiedPayment {token : Option Token} {repos : List JsString} {quote : Quote}
    {payload : Payload} {requirements : Terms} (h : At P i (fun _ => True) seen w) :
    Keeps P i (verifiedPayment P token repos quote seen.offer payload requirements) w := by
  refine keeps_query h (fun _ _ _ hsem => hsem) fun verified w₁ h₁ => ?_
  cases hpayer : verified.payer with
  | none => exact keeps_pure h₁.inv
  | some payer =>
    refine Prog.wp_ite (fun _ => keeps_pure h₁.inv) fun hvalid => ?_
    refine Prog.wp_ite (fun _ => keeps_pure h₁.inv) fun hsame => ?_
    simp only [not_or, Bool.not_eq_false] at hvalid
    have hoffer : ∀ o, seen.offer = some o → payer = o.payer := by
      intro o ho
      by_contra hne
      rw [ho] at hsame
      exact hsame (decide_eq_true hne)
    refine keeps_bind (wp_optional (wp_answered h₁ fun _ _ _ hsem => hsem)) fun evidence w₂ hinv₂ h₂ => ?_
    cases evidence with
    | none => exact keeps_pure hinv₂
    | some evidence =>
      cases htransaction : payload.transaction with
      | none => exact keeps_pure hinv₂
      | some transaction =>
        show Keeps P i (Prog.ofExcept (P.nativeId transaction) >>= _) w₂
        refine Prog.wp_bind.2 (Prog.wp_ofExcept.2 ?_)
        cases hnative : P.nativeId transaction with
        | error e => exact hinv₂
        | ok id =>
          cases id with
          | none => exact keeps_pure hinv₂
          | some id =>
            refine Prog.wp_ite (fun _ => keeps_pure hinv₂) fun _ => ?_
            have hseen : At P i (fun _ => True)
                ⟨seen.offer, some ⟨payload, requirements, verified⟩, seen.times⟩ w₂ :=
              h₂ evidence rfl
            refine keeps_claimPayment hseen rfl ⟨rfl, hvalid.1, hpayer, ?_, hoffer⟩
            rw [Service.native, htransaction, Option.map_some, hnative]

theorem keeps_payEvidence {request : Request} {token : Option Token} {quote : Quote}
    {url payTo : JsString} {repos : List JsString} (h : At P i (fun _ => True) seen w) :
    Keeps P i (payEvidence P request token quote url payTo repos seen.offer) w := by
  refine keeps_query h (fun _ _ _ hsem => hsem) fun requirements w₁ h₁ => ?_
  cases request.signature with
  | none => exact keeps_pure h₁.inv
  | some signature =>
    refine Prog.wp_ite (fun _ => keeps_pure h₁.inv) fun _ => ?_
    refine Prog.wp_ite (fun _ => keeps_pure h₁.inv) fun _ => ?_
    cases P.decodePaymentSignatureHeader signature with
    | none => exact keeps_pure h₁.inv
    | some payload =>
      exact Prog.wp_ite (fun _ => keeps_pure h₁.inv) fun _ => keeps_verifiedPayment h₁

/-- The offer of a request is the one that was verified. -/
theorem wp_readOffer {request : Request} {token : Option Token} {quote : Quote}
    {url payTo : JsString} {repos : List JsString} (h : At P i (fun _ => True) Seen.none w) :
    (readOffer request token quote url payTo repos).wp (spec P i) (Prog.post (Inv P)
      fun offer w' => At P i (fun _ => True) ⟨offer, none, []⟩ w') w := by
  unfold readOffer
  split
  · exact Prog.wp_pure.2 ⟨h.inv, h⟩
  · refine Prog.wp_ite (fun _ => Prog.wp_throw.2 h.inv) fun _ => ?_
    refine Prog.wp_bind.2 (wp_query stable_true h (fun _ _ _ hsem => hsem) fun r w₁ h₁ => ?_)
    cases r with
    | error e => exact h₁.inv
    | ok offer =>
      exact Prog.wp_ite (fun _ => Prog.wp_pure.2 ⟨h₁.inv, h₁⟩) fun _ => Prog.wp_throw.2 h₁.inv
  · exact Prog.wp_throw.2 h.inv

/-- The repositories of a request, and their price. -/
theorem wp_readPrices {request : Request} {token : Option Token} {payTo : JsString}
    (h : At P i (fun _ => True) Seen.none w) :
    (do
      let prices ← priceBook token
      some <$> Prog.ofExcept (readQuote P request prices payTo)).wp (spec P i)
      (fun _ w' => At P i (fun _ => True) Seen.none w') w := by
  have hprices : (priceBook token).wp (spec P i)
      (fun _ w' => At P i (fun _ => True) Seen.none w') w := by
    cases token with
    | none =>
      refine wp_query stable_true h (fun _ _ _ hsem => hsem) fun r w' h' => ?_
      cases r <;> exact h'
    | some token => exact Prog.wp_pure.2 h
  refine Prog.wp_bind.2 (Prog.wp_mono hprices fun r w₁ h₁ => ?_)
  cases r with
  | error e => exact h₁
  | ok prices => exact Prog.wp_map.2 (Prog.wp_ofExcept.2 h₁)

theorem keeps_evidenceRequest {request : Request} {token : Option Token} {payTo : JsString}
    (h : At P i (fun _ => True) Seen.none w) :
    Keeps P i (evidenceRequest P request token payTo) w := by
  refine keeps_bind (B := fun _ w' => At P i (fun _ => True) Seen.none w') ?_
    fun read w₁ hinv₁ h₁ => ?_
  · refine Prog.wp_tryCatch.2 (Prog.wp_mono (wp_readPrices h) fun r w₁ h₁ => ?_)
    cases r with
    | error e => exact Prog.wp_pure.2 ⟨h₁.inv, h₁⟩
    | ok read => exact ⟨h₁.inv, h₁⟩
  cases read with
  | none => exact keeps_pure hinv₁
  | some read =>
    refine keeps_bind (wp_optional (wp_readOffer h₁)) fun offer w₂ hinv₂ h₂ => ?_
    cases offer with
    | none => exact keeps_pure hinv₂
    | some offer => exact keeps_payEvidence (h₂ offer rfl)

/-- A request keeps the invariant. -/
theorem keeps_publicDataRequest {request : Request} (h : At P i (fun _ => True) Seen.none w) :
    Keeps P i (publicDataRequest P request) w := by
  unfold publicDataRequest
  rw [Keeps, Prog.wp_tryCatch]
  have htoken : (requestToken request).wp (spec P i)
      (Prog.post (Inv P) fun _ w' => At P i (fun _ => True) Seen.none w') w := by
    refine Prog.wp_ite (fun _ => ?_) fun _ => Prog.wp_pure.2 ⟨h.inv, h⟩
    refine wp_query stable_true h (fun _ _ _ hsem => hsem) fun r w' h' => ?_
    cases r with
    | error e => exact h'.inv
    | ok token => exact ⟨h'.inv, h'⟩
  refine Prog.wp_mono (Q := fun _ w => Inv P w) ?_ fun r w₁ h₁ => ?_
  · refine keeps_bind htoken fun token w₁ _ h₁ => ?_
    refine Prog.wp_ite (fun _ => keeps_pure h₁.inv) fun _ => ?_
    refine keeps_bind (B := fun _ w' => At P i (fun _ => True) Seen.none w') ?_
      fun payTo w₂ _ h₂ => keeps_evidenceRequest h₂
    cases token with
    | none => exact Prog.wp_ofExcept_post h₁.inv fun _ _ => h₁
    | some token => exact Prog.wp_pure.2 ⟨h₁.inv, h₁⟩
  · cases r with
    | error e => exact keeps_pure h₁
    | ok a => exact h₁

/-! ### Runs -/

/-- The instances are verified. -/
theorem sound : (protocol P).Sound (system P : System ι _ _ _ _ _) where
  rely_refl _ _ h := Kept.refl h
  rely_trans _ _ _ _ h h' := Kept.trans h h'
  guar_inv _ _ _ _ h := h.inv
  guar_rely i j _ _ _ h hne :=
    ⟨h.inv, h.claims, fun id claim hclaim hj => h.calls id claim hclaim (hj ▸ hne), h.seen j hne⟩
  env_inv _ _ _ _ h := h.elim
  env_rely _ _ _ _ _ h _ := h.elim
  start i w p h hstart := by
    obtain ⟨hfresh, request, rfl⟩ := hstart
    exact Prog.wp_mono (keeps_publicDataRequest ⟨h, trivial, hfresh⟩) fun _ _ _ => trivial

/-- **One settlement for a payment.**  Whatever the interleaving and the crashes, settlements are
started for different transactions, different offers, and different pairs of a payer and a request.
A settlement is started only for the payment that its request verified, by who inserted the row of
its transaction; if the request verified an offer, only by the payer of that offer, and only when
the offer and its mandate had not expired at the two times that were read after the insertion.  A row
is settled only with the payer and the transaction that were verified before it was inserted. -/
theorem settled_once {τ : List (Tr _ _)}
    {s : System.State ι (World ι) Effect Answer JsError Response}
    (h : (system P).lts.Run (System.State.idle World.empty) τ s) :
    (s.world.calls.Pairwise fun call call' => P.native call.payload ≠ P.native call'.payload ∧
      ∀ offer offer', call.seen.offer = some offer → call'.seen.offer = some offer' →
        offer.offerId ≠ offer'.offerId ∧
        (offer.payer, offer.requestId) ≠ (offer'.payer, offer'.requestId)) ∧
    (∀ call ∈ s.world.calls, ∃ payer id, Authorized P s.world.claims call payer id) ∧
    ∀ id row, s.world.payments.get id = some row → row.state = .settled →
      ∃ claim, s.world.claims id = some claim ∧ Proven P claim row := by
  have hinv : Inv P s.world := (sound.run inv_empty h).1
  refine ⟨?_, hinv.calls, fun id row hrow hsettled => ?_⟩
  · refine hinv.once.imp_of_mem fun {call call'} hcall hcall' hne => ⟨hne, ?_⟩
    obtain ⟨payer, id, ⟨verified, hverifies⟩, -, times, hclaim⟩ := hinv.calls call hcall
    obtain ⟨payer', id', ⟨verified', hverifies'⟩, -, times', hclaim'⟩ := hinv.calls call' hcall'
    have hids : id ≠ id' := by
      rintro rfl
      exact hne (hverifies.native.trans hverifies'.native.symm)
    obtain ⟨row, hrow, hrowOf⟩ := hinv.claims _ _ hclaim
    obtain ⟨row', hrow', hrowOf'⟩ := hinv.claims _ _ hclaim'
    refine fun offer offer' ho ho' => ⟨fun hsame => hids ?_, fun hsame => hids ?_⟩
    · refine hinv.offers _ _ row row' offer.offerId hrow hrow' ?_ ?_
      · rw [hrowOf.offerId, ho, Option.map_some]
      · rw [hrowOf'.offerId, ho', Option.map_some, hsame]
    · refine hinv.keys _ _ row row' offer.requestKey hrow hrow' ?_ ?_
      · rw [hrowOf.requestKey, ho, Option.map_some]
      · obtain ⟨hpayer, hrequest⟩ := Prod.mk.inj hsame
        rw [hrowOf'.requestKey, ho', Option.map_some, A2AOffer.requestKey,
          A2AOffer.requestKey, hpayer, hrequest]
  · obtain ⟨claim, hclaim⟩ := hinv.rows id row hrow
    obtain ⟨row', hrow', hclaimed⟩ := hinv.claims id claim hclaim
    rw [hrow] at hrow'
    cases hrow'
    exact ⟨claim, hclaim, hclaimed.proven hsettled⟩

namespace Sample

open Runs.Evidence.Sample (texts repo time)

/-- A native transaction. -/
def transaction : JsString := js "0.0.7@1767225600.000000001"

/-- The terms of a payment for one repository. -/
def terms (payTo asset amount : JsString) : Terms :=
  ⟨some (js "exact"), some (js "hedera:testnet"), some asset, some amount, some payTo, some 60,
    some (js "0.0.9")⟩

/-- A signed payment. -/
def payload : Payload where
  x402Version := some 2
  resourceUrl := some (js "https://obolos.dev/x402/evidence/repo-standard")
  accepted := some (terms (js "0.0.5") (js "0.0.0") (js "100000"))
  transaction := some transaction

/-- A service. -/
def service : Service where
  texts := texts
  appOrigin := js "https://obolos.dev"
  payTo := some (js "0.0.5")
  decodePaymentSignatureHeader s := if s = js "signed" then some payload else none
  nativeId s := .ok (some s)

/-- A negotiated offer. -/
def offer : A2AOffer where
  offerId := js "1"
  paymentRequestId := js "a2a:1"
  requestId := js "request"
  payer := js "0.0.7"
  providerId := js "repo-standard"
  repos := [repo]
  resourceUrl := js "https://obolos.dev/x402/evidence/repo-standard"
  unitPriceAtomic := 100000
  amountAtomic := 100000
  mandateExpiresAt := time
  expiresAt := time
  payTo := js "0.0.5"

/-- The payer that is verified. -/
def verified : Verified := ⟨true, some (js "0.0.7")⟩

/-- A request that pays for the offer. -/
def request : Request where
  hts := false
  providerId := js "repo-standard"
  body := .obj [(js "repos", .arr [.str repo]), (js "a2aOfferToken", .str (js "token"))]
  idempotencyKey := some (js "a2a:1")
  signature := some (js "signed")

/-- What process `i` is answered. -/
def respond (i : ℕ) (w : World ℕ) : (o : Effect) → Except JsError (Answer o) × World ℕ
  | .tokenConfig => (.ok none, w.saw i (w.seen i))
  | .prices => (.ok ⟨100000, 120000⟩, w.saw i (w.seen i))
  | .verifyOffer _ => (.ok offer, w.saw i { w.seen i with offer := some offer })
  | .buildPaymentRequirements payTo asset amount =>
    (.ok (terms payTo asset amount), w.saw i (w.seen i))
  | .verifyPayment payload requirements =>
    (.ok verified, w.saw i { w.seen i with payment := some ⟨payload, requirements, verified⟩ })
  | .fetchRepoEvidence _ => (.ok [], w.saw i (w.seen i))
  | .now => (.ok 0, w.saw i { w.seen i with times := (w.seen i).times ++ [0] })
  | .claim row =>
    if w.payments.conflict row then (.ok false, w) else (.ok true, w.insert i row)
  | .settlePayment payload requirements =>
    (.ok ⟨true, some transaction, some (js "hedera:testnet"), some (js "0.0.7")⟩,
      { w with calls := w.calls ++ [⟨i, payload, requirements, w.seen i⟩] })
  | .record id settlement evidence =>
    (.ok (), { w with payments := w.payments.record id settlement evidence })

theorem respond_sem (i : ℕ) (w : World ℕ) (o : Effect) :
    sem i w o (respond i w o).1 (respond i w o).2 := by
  cases o with
  | claim row =>
    simp only [respond]
    split_ifs with h
    · exact Or.inr (Or.inl ⟨h, rfl, rfl⟩)
    · refine Or.inr (Or.inr ⟨Bool.not_eq_true _ ▸ h, fun hfalse => ?_, rfl⟩)
      cases hfalse
  | record id settlement evidence => exact Or.inr rfl
  | _ => rfl

/-- The world after the request was sent once. -/
def first : World ℕ := ((publicDataRequest service request).exec (respond 0) World.empty).2

/-- The world after the request was sent twice. -/
def served : World ℕ := ((publicDataRequest service request).exec (respond 1) first).2

/-- What the two requests leave. -/
theorem eval_served : first.seen 1 = Seen.none ∧
    (served.calls.map fun call => (call.process, call.payload, call.seen.offer, call.seen.times)) =
      [(0, payload, some offer, [0, 0])] ∧
    (served.payments.get transaction).map PaymentRow.state = some .settled := by
  decide +kernel

theorem run_served : ∃ τ, (system service).lts.Run (System.State.idle World.empty) τ
    (System.State.idle served) := by
  obtain ⟨τ, hfirst⟩ := System.run_exec (S := system service)
    (s := System.State.idle World.empty) (i := 0) (respond_sem 0) rfl ⟨rfl, request, rfl⟩
  obtain ⟨σ, hsecond⟩ := System.run_exec (S := system service)
    (s := System.State.idle first) (i := 1) (respond_sem 1) rfl
    ⟨eval_served.1, request, rfl⟩
  exact ⟨τ ++ σ, hfirst.append hsecond⟩

end Sample

/-- A request that is sent twice settles its payment once, by the payer of its offer. -/
theorem settled_once_sample :
    (Sample.served.calls.map fun call => (call.process, call.payload, call.seen.offer,
      call.seen.times)) = [(0, Sample.payload, some Sample.offer, [0, 0])] ∧
    (∀ call ∈ Sample.served.calls, ∃ payer id,
      Authorized Sample.service Sample.served.claims call payer id) ∧
    (Sample.served.payments.get Sample.transaction).map PaymentRow.state = some .settled ∧
    ∀ id row, Sample.served.payments.get id = some row → row.state = .settled →
      ∃ claim, Sample.served.claims id = some claim ∧ Proven Sample.service claim row := by
  obtain ⟨τ, hrun⟩ := Sample.run_served
  obtain ⟨-, hcalls, hrows⟩ := settled_once hrun
  exact ⟨Sample.eval_served.2.1, hcalls, Sample.eval_served.2.2, hrows⟩

end DataService

end Obolos
