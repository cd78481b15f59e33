import Obolos.Crash.Outcome
import Obolos.Crash.Reach
import Obolos.Economy.KeyOrder
import Obolos.Js.Base64
import Obolos.Platform.ScheduledDeliveries

/-!
# One delivery for a scheduled payment

`scheduled_deliveries` : the memo of a schedule determines the plan and the round that it pays for, and
whatever requests run at the same time, one schedule is delivered for one round of one plan.  Who asks
again gets what was recorded, and a request that fails has recorded nothing, unless the answer to its
insertion was lost (`recorded_and_failed`).

A row is never changed after its insertion, so what a process has read of the table stays true.
-/

namespace Obolos

namespace Schedules

open Json

section Requests

variable {ι : Type} (S : Service)

/-! ### The invariant -/

/-- A row that was inserted for a round of a plan. -/
structure Recorded (row : DeliveryRow) : Prop where
  state : row.state = .delivered
  made : ∃ plan round, row.fingerprint = fingerprint S plan round ∧ round < plan.count ∧
    some plan.payTo = S.payTo

/-- A response shows what a row holds; the first one shows it before it was stored. -/
def Shows (row : DeliveryRow) : Response → Prop
  | .refused _ _ => False
  | .delivered evidence proof true => evidence = row.evidence ∧ proof = row.proof
  | .delivered evidence proof false =>
    (evidence.bind fun x => S.column.store x.copied) = row.evidence ∧
      S.column.store proof.copied = some row.proof

/-- A response that delivers. -/
def Response.isDelivered : Response → Bool
  | .refused _ _ => false
  | .delivered _ _ _ => true

/-- A delivery is that of a row of the table. -/
def SentFrom (t : Deliveries) (x : Sent) : Prop :=
  x.response.isDelivered = true → ∃ request plan row, readScheduled S x.body = .ok (request, plan) ∧
    t.get request.scheduleId = some row ∧ row.fingerprint = fingerprint S plan request.round ∧
    Shows S row x.response

/-- The rows of a table are rows of another. -/
def Extends (t t' : Deliveries) : Prop := ∀ id row, t.get id = some row → t'.get id = some row

/-- The insertions of a process. -/
def World.own [DecidableEq ι] (d : World ι) (i : ι) : List (Insertion ι) :=
  d.inserts.filter fun x => x.process = i

/-- What holds of the world. -/
structure Good (d : World ι) : Prop where
  rows : ∀ id row, d.deliveries.get id = some row → Recorded S row
  inserts : d.deliveries.rows = d.inserts.map Insertion.row
  sent : ∀ x ∈ d.sent, SentFrom S d.deliveries x

variable {S} {i : ι} {d : World ι} {t t' : Deliveries}

theorem Extends.refl (t : Deliveries) : Extends t t := fun _ _ h => h

theorem Extends.trans {t'' : Deliveries} (h : Extends t t') (h' : Extends t' t'') : Extends t t'' :=
  fun id row hrow => h' id row (h id row hrow)

theorem good_empty : Good S (World.empty : World ι) where
  rows id row h := by cases h
  inserts := rfl
  sent x hx := absurd hx List.not_mem_nil

/-- A delivery stays that of its row. -/
theorem SentFrom.extends {x : Sent} (h : SentFrom S t x) (ht : Extends t t') : SentFrom S t' x := by
  intro hdelivered
  obtain ⟨request, plan, row, hread, hrow, hrest⟩ := h hdelivered
  exact ⟨request, plan, row, hread, ht _ _ hrow, hrest⟩

/-- The fingerprint tells the plan and the round. -/
theorem fingerprint_inj (hsha : Function.Injective S.sha.digest) {p q : SchedulePlan} {m n : ℕ}
    (h : fingerprint S p m = fingerprint S q n) : p = q ∧ m = n := by
  have hfinite : ∀ (p : SchedulePlan) (n : ℕ), (Json.arr [p.json, .num n]).finite = true := fun p n => by
    simp [SchedulePlan.json, finite, finiteItems, finiteFields, finite_texts_arr]
  have hsame := jsonHash_inj hsha (hfinite p m) (hfinite q n) h
  obtain ⟨id, payer, payTo, repos, price, count, interval, first, most⟩ := p
  obtain ⟨id', payer', payTo', repos', price', count', interval', first', most'⟩ := q
  simp only [SchedulePlan.json, Json.arr.injEq, List.cons.injEq, Json.obj.injEq, Prod.mk.injEq,
    Json.str.injEq, Json.num.injEq, Nat.cast_inj, and_true, true_and] at hsame
  obtain ⟨⟨rfl, rfl, rfl, hrepos, rfl, rfl, rfl, rfl, rfl⟩, rfl⟩ := hsame
  exact ⟨by rw [texts_inj hrepos], rfl⟩

variable (S) in
/-- The responses that deliver show the rows of the table, and those for one schedule are for one
round of one plan. -/
structure OneDelivery (d : World ι) : Prop where
  inserts : d.deliveries.rows = d.inserts.map Insertion.row
  sent : ∀ x ∈ d.sent, SentFrom S d.deliveries x
  once : ∀ x ∈ d.sent, ∀ y ∈ d.sent, x.response.isDelivered = true → y.response.isDelivered = true →
    ∀ request plan request' plan', readScheduled S x.body = .ok (request, plan) →
      readScheduled S y.body = .ok (request', plan') → request.scheduleId = request'.scheduleId →
        plan = plan' ∧ request.round = request'.round

theorem Good.oneDelivery (hsha : Function.Injective S.sha.digest) (h : Good S d) :
    OneDelivery S d where
  inserts := h.inserts
  sent := h.sent
  once x hx y hy hdelivered hdelivered' request plan request' plan' hread hread' hid := by
    obtain ⟨_, _, row, hread₁, hrow, hfingerprint, -⟩ := h.sent x hx hdelivered
    obtain ⟨_, _, row', hread₂, hrow', hfingerprint', -⟩ := h.sent y hy hdelivered'
    cases hread.symm.trans hread₁
    cases hread'.symm.trans hread₂
    rw [hid, hrow'] at hrow
    cases hrow
    exact fingerprint_inj hsha (hfingerprint.symm.trans hfingerprint')

/-! ### The insertion -/

/-- What an insertion does to the table. -/
theorem insertDelivery_ok {delivery : NewDelivery} {o : Option DeliveryRow}
    (h : insertDelivery S.column delivery t = .ok (o, t')) :
    (o = none ∧ t' = t ∧ (t.get delivery.scheduleId).isSome = true) ∨
      ∃ row, delivery.row S.column = some row ∧ o = some row ∧ t' = t.insert row ∧
        t.get delivery.scheduleId = none := by
  unfold insertDelivery at h
  cases hrow : delivery.row S.column with
  | none =>
    rw [hrow] at h
    cases h
  | some row =>
    have hkey : row.scheduleId = delivery.scheduleId := by
      simp only [NewDelivery.row, Option.bind_eq_bind, Option.bind_eq_some_iff] at hrow
      obtain ⟨_, -, _, -, hsome⟩ := hrow
      cases hsome
      rfl
    rw [hrow] at h
    rcases Table.insertNew_ok.1 h with ⟨ho, ht, r, hr⟩ | ⟨ho, ht, hfree, -⟩
    · rw [hkey] at hr
      exact Or.inl ⟨ho, ht, by rw [hr]; rfl⟩
    · rw [hkey] at hfree
      exact Or.inr ⟨row, rfl, ho, ht, hfree⟩

/-- The row of a delivery. -/
theorem NewDelivery.row_eq_some {delivery : NewDelivery} {row : DeliveryRow}
    (h : delivery.row S.column = some row) :
    row.scheduleId = delivery.scheduleId ∧ row.fingerprint = delivery.fingerprint ∧
      row.state = .delivered ∧
      Shows S row (.delivered (some (.arr delivery.evidence)) delivery.proof false) := by
  simp only [NewDelivery.row, Option.bind_eq_bind, Option.bind_eq_some_iff] at h
  obtain ⟨evidence, hevidence, proof, hproof, hsome⟩ := h
  cases hsome
  exact ⟨rfl, rfl, rfl, hevidence, hproof⟩

/-- Nothing is inserted by a statement that leaves the table. -/
theorem insertions_same (i : ι) (t : Deliveries) (id : JsString) (answered : Bool) :
    insertions i t t id answered = [] := by
  unfold insertions
  cases t.get id <;> rfl

/-- What the table is after an insertion, with what the client sees of it. -/
theorem insert_answers {delivery : NewDelivery} {r : Except JsError (Option DeliveryRow)}
    (h : Statement.Answers lost (insertDelivery S.column delivery) t r t') :
    (t' = t ∧ ∀ o, r = .ok o → o = none) ∨
      ∃ row, delivery.row S.column = some row ∧ t.get delivery.scheduleId = none ∧
        t' = t.insert row ∧ ∀ o, r = .ok o → o = some row := by
  cases r with
  | ok o =>
    rcases insertDelivery_ok h.ok with ⟨ho, ht, -⟩ | ⟨row, hrow, ho, ht, hfree⟩
    · refine Or.inl ⟨ht, fun o' ho' => ?_⟩
      cases ho'
      exact ho
    · refine Or.inr ⟨row, hrow, hfree, ht, fun o' ho' => ?_⟩
      cases ho'
      exact ho
  | error e =>
    rcases h.changes with ht | ⟨o, hdone⟩
    · exact Or.inl ⟨ht, fun o ho => by cases ho⟩
    · rcases insertDelivery_ok hdone with ⟨-, ht, -⟩ | ⟨row, hrow, -, ht, hfree⟩
      · exact Or.inl ⟨ht, fun o ho => by cases ho⟩
      · exact Or.inr ⟨row, hrow, hfree, ht, fun o ho => by cases ho⟩

/-! ### Responses -/

/-- The response to a result. -/
def responseOf : Except JsError Response → Response
  | .ok response => response
  | .error e => failed e

variable {body : Except JsError Json} {response : Response} {request : ScheduledRequest}
  {plan : SchedulePlan} {d₀ : World ι}

variable (S) in
/-- A request for a row that is there gets what the row holds, unless it is not read. -/
def Replays (body : Except JsError Json) (d₀ : World ι) (response : Response) : Prop :=
  ∀ request plan row, readScheduled S body = .ok (request, plan) →
    d₀.deliveries.get request.scheduleId = some row →
      row.fingerprint = fingerprint S plan request.round →
        response = .delivered row.evidence row.proof true ∨ response = failed .other

theorem failed_isDelivered (e : JsError) : (failed e).isDelivered = false := by
  cases e <;> rfl

theorem failed_lost {e : JsError} (h : lost e) : failed e = failed .other := by
  cases e with
  | zod => exact absurd rfl h
  | _ => rfl

/-- What is to be repeated for a request that was read. -/
theorem replays_of_read (hread : readScheduled S body = .ok (request, plan))
    (h : ∀ row, d₀.deliveries.get request.scheduleId = some row →
      row.fingerprint = fingerprint S plan request.round →
        response = .delivered row.evidence row.proof true ∨ response = failed .other) :
    Replays S body d₀ response := by
  intro request' plan' row hread' hrow hfingerprint
  cases hread.symm.trans hread'
  exact h row hrow hfingerprint

/-- Nothing is to be repeated for a schedule without a row. -/
theorem replays_of_none (hread : readScheduled S body = .ok (request, plan))
    (hfresh : d₀.deliveries.get request.scheduleId = none) : Replays S body d₀ response := by
  refine replays_of_read hread fun row hrow _ => ?_
  rw [hfresh] at hrow
  cases hrow

/-! ### What the processes do -/

variable [DecidableEq ι] (S)

/-- What others leave. -/
structure Kept (i : ι) (d d' : World ι) : Prop where
  good : Good S d'
  rows : Extends d.deliveries d'.deliveries
  own : d'.own i = d.own i

/-- What a process does. -/
structure Made (i : ι) (d d' : World ι) : Prop where
  good : Good S d'
  rows : Extends d.deliveries d'.deliveries
  own : ∀ j, j ≠ i → d'.own j = d.own j

/-- The rely and the guarantee of the requests. -/
def protocol (ι : Type) [DecidableEq ι] : Protocol ι (World ι) := ⟨Good S, Kept S, Made S⟩

variable {S} {d' : World ι}

theorem Kept.refl (h : Good S d) : Kept S i d d := ⟨h, .refl _, rfl⟩

theorem Kept.trans {d'' : World ι} (h : Kept S i d d') (h' : Kept S i d' d'') : Kept S i d d'' :=
  ⟨h'.good, h.rows.trans h'.rows, h'.own.trans h.own⟩

theorem Made.refl (h : Good S d) : Made S i d d := ⟨h, .refl _, fun _ _ => rfl⟩

/-- The insertions of other processes. -/
theorem own_append (d : World ι) (l : List (Insertion ι)) (t : Deliveries) (s : List Sent)
    (h : ∀ x ∈ l, x.process = i) {j : ι} (hj : j ≠ i) :
    World.own (⟨t, d.inserts ++ l, s⟩ : World ι) j = d.own j := by
  have hnone : l.filter (fun x => x.process = j) = [] := by
    rw [List.filter_eq_nil_iff]
    intro x hx
    rw [h x hx, decide_eq_true_eq]
    exact hj.symm
  rw [World.own, List.filter_append, hnone, List.append_nil]
  rfl

/-- A row is inserted. -/
theorem Good.insert {row : DeliveryRow} (h : Good S d) (hrow : Recorded S row)
    (hfree : d.deliveries.get row.scheduleId = none) (answered : Bool) :
    Made S i d { d with
      deliveries := d.deliveries.insert row
      inserts := d.inserts ++ [⟨i, row, answered⟩] } := by
  have hget : ∀ id, (d.deliveries.insert row).get id =
      if id = row.scheduleId then some row else d.deliveries.get id := fun id =>
    Table.get_insert hfree
  have hext : Extends d.deliveries (d.deliveries.insert row) := by
    intro id r hr
    rw [hget, if_neg, hr]
    rintro rfl
    rw [hfree] at hr
    cases hr
  refine ⟨⟨fun id r hr => ?_, ?_, fun x hx => (h.sent x hx).extends hext⟩, hext, fun j hj => ?_⟩
  · rw [hget] at hr
    split_ifs at hr with hid
    · cases hr
      exact hrow
    · exact h.rows id r hr
  · rw [List.map_append, ← h.inserts]
    simp only [Table.insert, dif_neg (Table.get_eq_none.1 hfree)]
    rfl
  · exact own_append d _ _ _ (fun x hx => by rw [List.mem_singleton.1 hx]) hj

/-! ### One request -/

/-- What a request has inserted when it has a response: one row at most, and no answer has come if
the response is a failure. -/
def Records (i : ι) (d₀ d : World ι) (response : Response) : Prop :=
  d.own i = d₀.own i ∨ ∃ row, d.own i = d₀.own i ++ [⟨i, row, response.isDelivered⟩]

variable (S) in
/-- What is known of a response. -/
structure Outcome (i : ι) (body : Except JsError Json) (d₀ : World ι) (response : Response)
    (d : World ι) : Prop where
  sent : SentFrom S d.deliveries ⟨body, response⟩
  records : Records i d₀ d response
  replays : Replays S body d₀ response

/-- Before the insertion. -/
structure Idle (i : ι) (d₀ d : World ι) : Prop where
  rows : Extends d₀.deliveries d.deliveries
  own : d.own i = d₀.own i

/-- What the requests are verified against. -/
abbrev spec (S : Service) (i : ι) : Prog.Spec (World ι) Effect Answer JsError :=
  (protocol S ι).spec (system S ι) i

theorem Outcome.kept (h : Outcome S i body d₀ response d) (hkept : Kept S i d d') :
    Outcome S i body d₀ response d' where
  sent := h.sent.extends hkept.rows
  records := by
    unfold Records
    rw [hkept.own]
    exact h.records
  replays := h.replays

theorem Idle.kept (h : Idle i d₀ d) (hkept : Kept S i d d') : Idle i d₀ d' :=
  ⟨h.rows.trans hkept.rows, hkept.own.trans h.own⟩

/-- A request that fails before its insertion. -/
theorem Idle.refused (h : Idle i d₀ d) (hrefused : response.isDelivered = false)
    (hreplays : Replays S body d₀ response) : Outcome S i body d₀ response d where
  sent hdelivered := by
    rw [hrefused] at hdelivered
    cases hdelivered
  records := Or.inl h.own
  replays := hreplays

/-- An effect that changes nothing. -/
theorem wp_quiet {o : Effect} {Q : Except JsError (Answer o) → World ι → Prop}
    (hidle : Idle i d₀ d) (hquiet : ∀ d r d', sem S i d o r d' → d' = d)
    (hQ : ∀ r d', Good S d' → Idle i d₀ d' → Q r d') : (perform o).wp (spec S i) Q d := by
  refine Prog.wp_await.2 fun d₁ hrely r d₂ hsem => ?_
  have hkept : Kept S i d d₁ := hrely
  obtain rfl := hquiet d₁ r d₂ hsem
  exact ⟨Made.refl hkept.good, hQ r d₂ hkept.good (hidle.kept hkept)⟩

variable (S) in
/-- What is to be shown of a request whose result is `r`. -/
def Settles (i : ι) (body : Except JsError Json) (d₀ : World ι) (r : Except JsError Response)
    (d : World ι) : Prop :=
  Outcome S i body d₀ (responseOf r) d

/-- A request that is refused before its insertion. -/
theorem wp_refuse {error : String} {status : ℕ} (h : Idle i d₀ d)
    (hreplays : Replays S body d₀ (.refused (js error) status)) :
    (refuse error status).wp (spec S i) (Settles S i body d₀) d :=
  Prog.wp_pure.2 (h.refused rfl hreplays)

/-- A request that fails before its insertion. -/
theorem Idle.failed (h : Idle i d₀ d) (e : JsError) (hreplays : ∀ response, Replays S body d₀ response) :
    Settles S i body d₀ (.error e) d :=
  h.refused (failed_isDelivered e) (hreplays _)

/-- The delivery of a row that was read. -/
theorem wp_replay {row : DeliveryRow} (hd : Good S d) (hidle : Idle i d₀ d)
    (hread : readScheduled S body = .ok (request, plan))
    (hrow : d.deliveries.get request.scheduleId = some row) :
    (replay S plan request row).wp (spec S i) (Settles S i body d₀) d := by
  have hsame : ∀ row', d₀.deliveries.get request.scheduleId = some row' → row' = row := by
    intro row' hrow'
    exact Option.some.inj ((hidle.rows _ _ hrow').symm.trans hrow)
  unfold replay
  refine Prog.wp_ite (fun hother => ?_) fun hfingerprint => ?_
  · refine wp_refuse hidle (replays_of_read hread fun row' hrow' hfingerprint => ?_)
    exact absurd (hsame row' hrow' ▸ hfingerprint) hother
  · rw [not_not] at hfingerprint
    refine Prog.wp_ite (fun _ => Prog.wp_pure.2 ?_) fun hpending => ?_
    · exact {
        sent := fun _ => ⟨request, plan, row, hread, hrow, hfingerprint, rfl, rfl⟩
        records := Or.inl hidle.own
        replays := replays_of_read hread fun row' hrow' _ => Or.inl (hsame row' hrow' ▸ rfl) }
    · exact absurd (hd.rows _ _ hrow).state hpending

/-- What the insertion of a delivery leaves, and what the process knows then. -/
theorem wp_insert {delivery : NewDelivery}
    {Q : Except JsError (Option DeliveryRow) → World ι → Prop} (hidle : Idle i d₀ d)
    (hrecorded : ∀ row, delivery.row S.column = some row → Recorded S row)
    (hsame : ∀ r d', Idle i d₀ d' → (∀ o, r = .ok o → o = none) → Q r d')
    (hnew : ∀ r d' row, delivery.row S.column = some row →
      d'.deliveries.get delivery.scheduleId = some row →
      d'.own i = d₀.own i ++ [⟨i, row, r.isOk⟩] → (∀ o, r = .ok o → o = some row) → Q r d') :
    (perform (.insert delivery)).wp (spec S i) Q d := by
  refine Prog.wp_await.2 fun d₁ hrely r d₂ hsem => ?_
  have hkept : Kept S i d d₁ := hrely
  have hidle₁ := hidle.kept hkept
  obtain ⟨t, ht, rfl⟩ := hsem
  rcases insert_answers ht with ⟨rfl, hr⟩ | ⟨row, hrow, hfree, rfl, hr⟩
  · rw [insertions_same, List.append_nil]
    exact ⟨Made.refl hkept.good, hsame r d₁ hidle₁ hr⟩
  · obtain ⟨hid, -, -, -⟩ := NewDelivery.row_eq_some hrow
    have hget : (d₁.deliveries.insert row).get delivery.scheduleId = some row := by
      rw [← hid, Table.get_insert (hid ▸ hfree), if_pos rfl]
    have hinsertion : insertions i d₁.deliveries (d₁.deliveries.insert row) delivery.scheduleId
        r.isOk = [⟨i, row, r.isOk⟩] := by
      unfold insertions
      rw [hfree, hget]
    rw [hinsertion]
    refine ⟨hkept.good.insert (hrecorded row hrow) (hid ▸ hfree) r.isOk,
      hnew r _ row hrow hget ?_ hr⟩
    rw [← hidle₁.own]
    unfold World.own
    rw [List.filter_append, List.filter_cons_of_pos (by simp), List.filter_nil]

/-- The first delivery for a schedule. -/
theorem wp_deliver {schedule : Json} (hidle : Idle i d₀ d)
    (hread : readScheduled S body = .ok (request, plan))
    (hfresh : d₀.deliveries.get request.scheduleId = none)
    (hpay : some plan.payTo = S.payTo) (hround : request.round < plan.count) :
    (deliver S plan request schedule).wp (spec S i) (Settles S i body d₀) d := by
  have hreplays : ∀ response, Replays S body d₀ response := fun _ => replays_of_none hread hfresh
  unfold deliver
  rw [Prog.wp_bind]
  refine wp_quiet hidle (fun _ _ _ hsem => hsem) fun r d _ hidle => ?_
  cases r with
  | error e => exact hidle.failed e hreplays
  | ok evidence =>
    show Prog.wp _ _ _ _
    rw [Prog.wp_bind]
    refine wp_insert hidle (fun row hrow => ?_) (fun r d hidle hr => ?_) fun r d row hrow hget hown hr => ?_
    · obtain ⟨-, hfingerprint, hstate, -⟩ := NewDelivery.row_eq_some hrow
      exact ⟨hstate, plan, request.round, hfingerprint, hround, hpay⟩
    · cases r with
      | error e => exact hidle.failed e hreplays
      | ok o =>
        obtain rfl := hr o rfl
        exact wp_refuse hidle (hreplays _)
    · obtain ⟨-, hfingerprint, -, hshows⟩ := NewDelivery.row_eq_some hrow
      cases r with
      | error e =>
        -- the row is there, but the answer was lost
        exact {
          sent := fun hdelivered => by
            have hfailed : (failed e).isDelivered = true := hdelivered
            rw [failed_isDelivered] at hfailed
            cases hfailed
          records := Or.inr ⟨row, by rw [hown, responseOf, failed_isDelivered]; rfl⟩
          replays := hreplays _ }
      | ok o =>
        obtain rfl := hr o rfl
        exact Prog.wp_pure.2 {
          sent := fun _ => ⟨request, plan, row, hread, hget, hfingerprint, hshows⟩
          records := Or.inr ⟨row, hown⟩
          replays := hreplays _ }

/-- A schedule that had no delivery. -/
theorem wp_proveSchedule (hidle : Idle i d₀ d) (hread : readScheduled S body = .ok (request, plan))
    (hfresh : d₀.deliveries.get request.scheduleId = none)
    (hpay : some plan.payTo = S.payTo) (hround : request.round < plan.count) :
    (proveSchedule S plan request).wp (spec S i) (Settles S i body d₀) d := by
  have hreplays : ∀ response, Replays S body d₀ response := fun _ => replays_of_none hread hfresh
  unfold proveSchedule
  rw [Prog.wp_bind]
  refine wp_quiet hidle (fun _ _ _ hsem => hsem) fun r d _ hidle => ?_
  cases r with
  | error e => exact hidle.failed e hreplays
  | ok price =>
    show Prog.wp _ _ _ _
    refine Prog.wp_ite (fun _ => wp_refuse hidle (hreplays _)) fun _ => ?_
    rw [Prog.wp_bind]
    refine wp_quiet hidle (fun _ _ _ hsem => hsem) fun r d _ hidle => ?_
    cases r with
    | error e => exact hidle.failed e hreplays
    | ok found =>
      cases found with
      | none => exact wp_refuse hidle (hreplays _)
      | some schedule =>
        show Prog.wp _ _ _ _
        rw [Prog.wp_bind, Prog.wp_ofExcept]
        cases executedAt S schedule with
        | error e => exact hidle.failed e hreplays
        | ok executed =>
          cases executed with
          | none => exact wp_refuse hidle (hreplays _)
          | some timestamp =>
            show Prog.wp _ _ _ _
            rw [Prog.wp_bind]
            refine wp_quiet hidle (fun _ _ _ hsem => hsem) fun r d _ hidle => ?_
            cases r with
            | error e => exact hidle.failed e hreplays
            | ok found =>
              cases found with
              | none => exact wp_refuse hidle (hreplays _)
              | some transfer =>
                show Prog.wp _ _ _ _
                rw [Prog.wp_bind, Prog.wp_ofExcept]
                cases validateScheduledProof S.toContext schedule transfer plan request.round
                    request.scheduleId with
                | error e => exact hidle.failed e hreplays
                | ok _ => exact wp_deliver hidle hread hfresh hpay hround

/-- A request that was read. -/
theorem wp_serveScheduled (hsha : Function.Injective S.sha.digest) (hd₀ : Good S d₀)
    (hidle : Idle i d₀ d) (hread : readScheduled S body = .ok (request, plan)) :
    (serveScheduled S request plan).wp (spec S i) (Settles S i body d₀) d := by
  have hmade : ∀ row, d₀.deliveries.get request.scheduleId = some row →
      row.fingerprint = fingerprint S plan request.round →
        some plan.payTo = S.payTo ∧ request.round < plan.count := by
    intro row hrow hfingerprint
    obtain ⟨plan', round, hmade, hround, hpay⟩ := (hd₀.rows _ _ hrow).made
    obtain ⟨rfl, rfl⟩ := fingerprint_inj hsha (hfingerprint.symm.trans hmade)
    exact ⟨hpay, hround⟩
  unfold serveScheduled
  refine Prog.wp_ite (fun hother => ?_) fun hpay => ?_
  · refine wp_refuse hidle (replays_of_read hread fun row hrow hfingerprint => ?_)
    exact absurd (hmade row hrow hfingerprint).1 hother
  · rw [not_not] at hpay
    refine Prog.wp_ite (fun hlate => ?_) fun hround => ?_
    · refine wp_refuse hidle (replays_of_read hread fun row hrow hfingerprint => ?_)
      exact absurd (hmade row hrow hfingerprint).2 (Nat.not_lt.2 hlate)
    · rw [Nat.not_le] at hround
      rw [Prog.wp_bind]
      refine Prog.wp_await.2 fun d₁ hrely r d₂ hsem => ?_
      have hkept : Kept S i d d₁ := hrely
      have hidle₁ := hidle.kept hkept
      obtain ⟨t, ht, rfl⟩ := hsem
      obtain ⟨rfl, hr⟩ := ht.read
      refine ⟨Made.refl hkept.good, ?_⟩
      cases r with
      | error e =>
        -- the row was not read
        have hlost : lost e := by
          cases ht with
          | refused hrefused => cases hrefused
          | unsent hbroken => exact hbroken
          | unanswered hbroken _ => exact hbroken
        exact hidle₁.refused (failed_isDelivered e)
          (replays_of_read hread fun _ _ _ => Or.inr (failed_lost hlost))
      | ok existing =>
        obtain rfl := hr existing rfl
        show Prog.wp _ _ _ _
        cases hrow : d₁.deliveries.get request.scheduleId with
        | some row => exact wp_replay hkept.good hidle₁ hread hrow
        | none =>
          refine wp_proveSchedule hidle₁ hread ?_ hpay hround
          cases hold : d₀.deliveries.get request.scheduleId with
          | none => rfl
          | some row => exact absurd ((hidle₁.rows _ _ hold).symm.trans hrow) (by simp)

/-- A request has a response. -/
theorem wp_scheduledRepositoryRequest (hsha : Function.Injective S.sha.digest) (hd : Good S d) :
    (scheduledRepositoryRequest S body).wp (spec S i)
      (fun r d' => ∃ response, r = .ok response ∧ Outcome S i body d response d') d := by
  have hidle : Idle i d d := ⟨.refl _, rfl⟩
  unfold scheduledRepositoryRequest
  rw [Prog.wp_tryCatch]
  refine Prog.wp_mono (Q := Settles S i body d) ?_ fun r d' h => ?_
  · rw [Prog.wp_bind, Prog.wp_ofExcept]
    cases hread : readScheduled S body with
    | error e =>
      refine hidle.failed e fun _ request plan row hread' => ?_
      rw [hread] at hread'
      cases hread'
    | ok read => exact wp_serveScheduled hsha hd hidle hread
  · cases r with
    | ok response => exact ⟨response, rfl, h⟩
    | error e => exact Prog.wp_pure.2 ⟨failed e, rfl, h⟩

/-- A request, with its response sent. -/
theorem wp_handle (hsha : Function.Injective S.sha.digest) (hd : Good S d) :
    (handle S body).wp (spec S i)
      (fun r d' => ∃ response, r = .ok response ∧ Records i d d' response ∧ Replays S body d response)
      d := by
  unfold handle
  rw [Prog.wp_bind]
  refine Prog.wp_mono (wp_scheduledRepositoryRequest hsha hd) ?_
  rintro r d' ⟨response, rfl, houtcome⟩
  show Prog.wp _ _ _ _
  rw [Prog.wp_bind]
  refine Prog.wp_await.2 fun d₁ hrely r d₂ hsem => ?_
  have hkept : Kept S i d' d₁ := hrely
  have houtcome₁ := houtcome.kept hkept
  obtain ⟨rfl, rfl⟩ := hsem
  refine ⟨⟨⟨hkept.good.rows, hkept.good.inserts, fun x hx => ?_⟩, .refl _, fun _ _ => rfl⟩, ?_⟩
  · rcases List.mem_append.1 hx with hx | hx
    · exact hkept.good.sent x hx
    · rw [List.mem_singleton.1 hx]
      exact houtcome₁.sent
  · exact Prog.wp_pure.2 ⟨response, rfl, houtcome₁.records, houtcome₁.replays⟩

theorem sound (hsha : Function.Injective S.sha.digest) :
    (protocol S ι).Sound (system S ι) where
  rely_refl _ _ h := Kept.refl h
  rely_trans _ _ _ _ h h' := Kept.trans h h'
  guar_inv _ _ _ _ h := h.good
  guar_rely _ _ _ _ _ h hj := ⟨h.good, h.rows, h.own _ hj⟩
  env_inv _ _ _ _ h := h.elim
  env_rely _ _ _ _ _ h _ := h.elim
  start _ _ _ hd hstart := by
    obtain ⟨body, rfl⟩ := hstart
    exact Prog.wp_mono (wp_handle hsha hd) fun _ _ _ => trivial

/-! ### All requests -/

/-- A plan that was accepted, at some time. -/
def Accepted (C : Context) (p : SchedulePlan) : Prop :=
  ∃ input now allowPast, validateSchedulePlan C input now allowPast = .ok p

end Requests

/-- **One delivery for a scheduled payment.**  A memo, and a schedule that is a proof, is that of one
round of one plan, and the rounds of a plan cost no more than it allows.  Over every run of concurrent
requests one schedule is delivered for one round of one plan.  A request for a schedule that was
delivered before gets what was recorded, unless it cannot read the table; a request that fails has
inserted nothing, unless it got no answer to its insertion. -/
theorem scheduled_deliveries (S : Service) (hsha : Function.Injective S.sha.digest) :
    (∀ p q, Accepted S.toContext p → Accepted S.toContext q →
      (∀ i j memo, scheduleMemo S.toContext p i = .ok memo →
        scheduleMemo S.toContext q j = .ok memo → p = q ∧ i = j) ∧
      ∀ schedule value value' i j id id',
        validateScheduledProof S.toContext schedule value p i id = .ok () →
          validateScheduledProof S.toContext schedule value' q j id' = .ok () →
            p = q ∧ i = j ∧ id = id') ∧
    (∀ p, Accepted S.toContext p →
      (∀ round : ℕ, round < p.count → ∃ memo, scheduleMemo S.toContext p round = .ok memo) ∧
      ((List.range p.count).map fun _ => p.amount).sum ≤ p.maxTotalAtomic) ∧
    ∀ (ι : Type) [DecidableEq ι] (τ : List (Tr _ _)) (s : System.State ι (World ι) _ _ _ _),
      (system S ι).lts.Run (System.State.idle World.empty) τ s → OneDelivery S s.world ∧
        ∀ i body r t, s.processes i = none → (system S ι).Answers s i (handle S body) r t →
          ∃ response, r = .ok response ∧ Records i s.world t.world response ∧
            Replays S body s.world response := by
  have hvalid : ∀ {p}, Accepted S.toContext p → p.Valid S.toContext := by
    rintro p ⟨input, now, allowPast, h⟩
    exact validateSchedulePlan_valid h
  refine ⟨fun p q hp hq => ⟨fun i j memo => ?_, fun schedule value value' i j id id' => ?_⟩,
    fun p hp => ⟨fun round hround => ?_, ?_⟩, fun ι _ τ s hrun => ⟨?_, ?_⟩⟩
  · exact scheduleMemo_inj hsha (hvalid hp) (hvalid hq)
  · exact validateScheduledProof_once hsha (hvalid hp) (hvalid hq)
  · exact ⟨_, (hvalid hp).memo hround⟩
  · rw [SchedulePlan.sum_amount]
    exact (hvalid hp).total
  · exact ((sound hsha).run good_empty hrun).1.oneDelivery hsha
  · intro i body r t hfree hanswers
    have hs := (sound hsha).run good_empty hrun
    refine (sound hsha).answers hs ⟨body, rfl⟩ hfree ?_ (wp_handle hsha hs.1) hanswers
    rintro r d d' hkept ⟨response, hr, hrecords, hreplays⟩
    have hkept : Kept S i d d' := hkept
    refine ⟨response, hr, ?_, hreplays⟩
    unfold Records
    rw [hkept.own]
    exact hrecords

namespace Sample

/-- Where the service runs. -/
def service : Service where
  texts := ⟨{ Host.plain with dateParse := fun _ => some 1767225600000 }, JsString.toLowerCase,
    fun _ => true⟩
  sha := .plain
  arithmetic := .none
  isDatetime _ := true
  number
    | .str s => (readDecimals 0 (s.takeWhile JsString.isDigit)).map fun n => ((n : ℚ) : WithTop ℚ)
    | _ => none
  bufferText
    | .str s => .ok (JsString.ofUtf8 (Base64.decode s))
    | _ => .error .other
  payTo := some (js "0.0.20")
  column := .identity

/-- Two rounds for one repository. -/
def twoRounds : SchedulePlan where
  id := js "plan"
  payer := js "0.0.10"
  payTo := js "0.0.20"
  repos := [js "octocat/hello"]
  unitPriceAtomic := 100
  count := 2
  intervalSeconds := 60
  firstExecutionAt := js "2026-01-01T00:00:00Z"
  maxTotalAtomic := 200

/-- The first round. -/
def firstRound : Except JsError Json :=
  .ok (.obj [(js "plan", twoRounds.json), (js "round", .num 0), (js "scheduleId", .str (js "0.0.30"))])

/-- The time of the first round. -/
def time : Json := .str (js "1767225600.000000000")

/-- Its schedule. -/
def schedule : Json :=
  .obj [(js "schedule_id", .str (js "0.0.30")), (js "payer_account_id", .str twoRounds.payer),
    (js "wait_for_expiry", .bool true), (js "executed_timestamp", time),
    (js "expiration_time", time), (js "memo", .str (memoText service.toContext twoRounds 0))]

/-- Its transfer. -/
def transfer : Json :=
  .obj [(js "transactions", .arr [.obj [(js "result", .str (js "SUCCESS")),
    (js "name", .str (js "CRYPTOTRANSFER")), (js "scheduled", .bool true),
    (js "consensus_timestamp", time),
    (js "transaction_id", .str (js "0.0.10-1767225000-000000001")), (js "charged_tx_fee", .num 10),
    (js "memo_base64",
      .str (Base64.encode (JsString.utf8 (memoText service.toContext twoRounds 0)))),
    (js "transfers", .arr [
      .obj [(js "account", .str twoRounds.payer), (js "amount", .num (-110))],
      .obj [(js "account", .str twoRounds.payTo), (js "amount", .num 100)]])]])]

/-- The answers to a request; that to the insertion may be lost. -/
def respond (loses : Bool) (d : World Unit) : (o : Effect) → Except JsError (Answer o) × World Unit
  | .select scheduleId => (.ok (d.deliveries.get scheduleId), d)
  | .price => (.ok (some 100), d)
  | .schedule _ => (.ok (some schedule), d)
  | .transactions _ => (.ok (some transfer), d)
  | .fetchRepoEvidence _ => (.ok [.obj [(js "repo", .str (js "octocat/hello"))]], d)
  | .insert delivery =>
    match insertDelivery service.column delivery d.deliveries with
    | .ok (o, t) =>
      (if loses then .error .other else .ok o, { d with
        deliveries := t
        inserts := d.inserts ++ insertions () d.deliveries t delivery.scheduleId (!loses) })
    | .error e => (.error e, d)
  | .send sent => (.ok (), { d with sent := d.sent ++ [sent] })

theorem respond_sem (loses : Bool) (d : World Unit) (o : Effect) :
    sem service () d o (respond loses d o).1 (respond loses d o).2 := by
  cases o with
  | select scheduleId => exact ⟨d.deliveries, .done rfl, rfl⟩
  | insert delivery =>
    cases hinsert : insertDelivery service.column delivery d.deliveries with
    | error e =>
      refine ⟨d.deliveries, ?_, ?_⟩
      · simp only [respond, hinsert]
        exact .refused hinsert
      · simp only [respond, hinsert, insertions_same, List.append_nil]
    | ok result =>
      obtain ⟨o, t⟩ := result
      refine ⟨t, ?_, ?_⟩
      · simp only [respond, hinsert]
        cases loses with
        | true => exact .unanswered (by rintro ⟨⟩) hinsert
        | false => exact .done hinsert
      · simp only [respond, hinsert]
        cases loses <;> rfl
  | send sent => exact ⟨rfl, rfl⟩
  | _ => rfl

/-- The world after a request. -/
def world (loses : Bool) (d : World Unit) : World Unit :=
  ((handle service firstRound).exec (respond loses) d).2

theorem run_world (loses : Bool) (d : World Unit) :
    ∃ τ, (system service Unit).lts.Run (System.State.idle d) τ
      (System.State.idle (world loses d)) :=
  System.run_exec (S := system service Unit) (s := System.State.idle d) (i := ())
    (respond_sem loses) rfl ⟨firstRound, rfl⟩

end Sample

/-- A request that fails although its row is recorded: the answer to the insertion was lost. -/
theorem recorded_and_failed : ∃ τ, (system Sample.service Unit).lts.Run
      (System.State.idle World.empty) τ (System.State.idle (Sample.world true World.empty)) ∧
    ((Sample.world true World.empty).sent.map fun x => x.response.isDelivered) = [false] ∧
    (Sample.world true World.empty).deliveries.rows.length = 1 := by
  obtain ⟨τ, hrun⟩ := Sample.run_world true World.empty
  exact ⟨τ, hrun, by decide +kernel, by decide +kernel⟩

/-- A delivery, and the same again. -/
theorem scheduled_deliveries_repeated :
    ((Sample.world false (Sample.world false World.empty)).sent.map fun x =>
      x.response.isDelivered) = [true, true] ∧
    OneDelivery Sample.service (Sample.world false (Sample.world false World.empty)) := by
  obtain ⟨τ, hrun⟩ := Sample.run_world false World.empty
  obtain ⟨σ, hagain⟩ := Sample.run_world false (Sample.world false World.empty)
  exact ⟨by decide +kernel,
    ((scheduled_deliveries Sample.service Runs.Sha256.plain_injective).2.2 Unit _ _
      (hrun.append hagain)).1⟩

end Schedules

end Obolos
