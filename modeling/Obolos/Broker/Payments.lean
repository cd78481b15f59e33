import Obolos.Broker.Journal
import Obolos.Crash.Reach
import Obolos.Js.Dates

/-!
# Payments of the broker

`Inv` is the invariant of the journal and of the operations that were started: every operation has
its own entry, which was saved before it was started and is never removed.  `execute` keeps it
(`wp_execute`), also when it is killed, and `durable_payments` says what follows for every run.

What is in the journal while no call of `execute` is going on stays there as it is (`Since`), and
its operations are not started again.
-/

namespace Obolos

namespace Broker

open Json Runs

variable {M : Machine} {calls : Call → Prop} {d d₀ : World} {c : Call} {es : List Entry}

/-- The network and the identifier of the transaction of an entry, if it has one. -/
def Entry.transaction (e : Entry) : Option (Option JsString × JsString) :=
  match transactionId (receipt e.result), network (receipt e.result) with
  | some (.str id), none => if id = [] then none else some (none, id)
  | some (.str id), some (.str n) => if id = [] then none else some (some n, id)
  | _, _ => none

/-- The run and the stage of an entry. -/
def Entry.stage (e : Entry) : JsString × JsString := (e.runId, e.kind)

/-- The run and the stage of a call. -/
def Call.stage (c : Call) : JsString × JsString := (c.runId, c.kind)

/-- The mandate of a call is active. -/
def Call.Active (M : Machine) (c : Call) (time : ℤ) : Prop :=
  ∀ expiresAt, c.mandateExpiresAt = some expiresAt →
    ∃ expiry, M.host.dateParse expiresAt = some expiry ∧ time < expiry

/-- The operations that were started for a request. -/
def World.startsFor (d : World) (requestId : JsString) : List Start :=
  d.starts.filter fun s => s.call.requestId = requestId

/-- The entry of a call. -/
structure Entry.Of (M : Machine) (c : Call) (e : Entry) : Prop where
  requestId : e.requestId = c.requestId
  runId : e.runId = c.runId
  kind : e.kind = c.kind
  digest : e.digest = Broker.digest M c.input

/-- The invariant of the journal and the operations. -/
structure Inv (M : Machine) (calls : Call → Prop) (d : World) : Prop where
  requests : (d.entries.map Entry.requestId).Nodup
  stages : (d.entries.map Entry.stage).Nodup
  data : ∀ e ∈ d.entries, ∀ x, e.result = some x → Data x
  transactions : d.entries.Pairwise fun a b => ∀ x, a.transaction = some x → b.transaction ≠ some x
  bounded : ∀ e ∈ d.entries, ∃ c, calls c ∧ c.kind = e.kind ∧ used e.kind d.entries ≤ c.limit
  owned : ∀ s ∈ d.starts, ∃ e ∈ d.entries, e.Of M s.call
  once : (d.starts.map fun s => s.call.requestId).Nodup
  onceStage : (d.starts.map fun s => s.call.stage).Nodup
  active : ∀ s ∈ d.starts, s.call.Active M s.time

/-- What was in the journal is still there, and no operation was started for it again. -/
structure Since (d₀ d : World) : Prop where
  entries : d₀.entries <+: d.entries
  starts : ∀ e ∈ d₀.entries, d.startsFor e.requestId = d₀.startsFor e.requestId

/-- The queue is verified against this, from the world `d₀` on. -/
def payments (M : Machine) (calls : Call → Prop) (d₀ : World) :
    Sequential World Effect Answer JsError :=
  ⟨work, fun d => Inv M calls d ∧ Since d₀ d, fun _ d => Inv M calls d ∧ Since d₀ d,
    fun _ _ _ h => h⟩

theorem inv_empty : Inv M calls World.empty where
  requests := List.nodup_nil
  stages := List.nodup_nil
  data _ h := (List.not_mem_nil h).elim
  transactions := List.Pairwise.nil
  bounded _ h := (List.not_mem_nil h).elim
  owned _ h := (List.not_mem_nil h).elim
  once := List.nodup_nil
  onceStage := List.nodup_nil
  active _ h := (List.not_mem_nil h).elim

theorem Since.refl (d : World) : Since d d := ⟨List.prefix_rfl, fun _ _ => rfl⟩

/-! ### What the steps keep -/

theorem Inv.clock (h : Inv M calls d) (time : ℤ) : Inv M calls { d with clock := time } :=
  ⟨h.requests, h.stages, h.data, h.transactions, h.bounded, h.owned, h.once, h.onceStage, h.active⟩

theorem Since.clock (h : Since d₀ d) (time : ℤ) : Since d₀ { d with clock := time } :=
  ⟨h.entries, h.starts⟩

theorem Entry.reread_eq {e : Entry} (h : ∀ x, e.result = some x → Data x) : e.reread M = e := by
  have hresult : e.result.map M.fileLayout = e.result := by
    cases hx : e.result with
    | none => rfl
    | some x =>
      have hparse := parse_stringify M.readNumber_text (h x hx).2 (h x hx).1
      rw [Option.map_some, Platform.fileLayout, hparse]
      rfl
  rw [Entry.reread, hresult]

/-- The journal is read as it was saved. -/
theorem Inv.map_reread (h : Inv M calls d) : d.entries.map (Entry.reread M) = d.entries := by
  have hid := List.map_congr_left fun e he => Entry.reread_eq (M := M) (h.data e he)
  rw [hid, List.map_id']

theorem used_append (kind : JsString) (e : Entry) :
    used kind (es ++ [e]) = used kind es + if e.kind = kind then e.amount else 0 := by
  rw [used, used, List.filter_append, List.map_append, List.sum_append]
  congr 1
  by_cases h : e.kind = kind
  · simp [h]
  · simp [h]

theorem used_settle (kind : JsString) (e : Entry) (result : Option Json) :
    used kind (es ++ [e.settle result]) = used kind (es ++ [e]) := by
  rw [used_append, used_append]
  rfl

/-- No entry is for the request or the stage of the call. -/
structure Fresh (c : Call) (es : List Entry) : Prop where
  requestId : ∀ e ∈ es, e.requestId ≠ c.requestId
  stage : ∀ e ∈ es, e.stage ≠ c.stage

/-- The pending entry is saved. -/
theorem Inv.push (h : Inv M calls d) (hc : calls c) (hfresh : Fresh c d.entries)
    (hlimit : used c.kind d.entries + c.amount ≤ c.limit) :
    Inv M calls { d with journal := some (d.entries ++ [c.entry M]) } where
  requests := by
    show ((d.entries ++ [c.entry M]).map Entry.requestId).Nodup
    rw [List.map_append]
    refine h.requests.append (List.nodup_singleton _) fun id hid hid' => ?_
    obtain ⟨e, he, rfl⟩ := List.mem_map.1 hid
    exact hfresh.requestId e he (List.mem_singleton.1 hid')
  stages := by
    show ((d.entries ++ [c.entry M]).map Entry.stage).Nodup
    rw [List.map_append]
    refine h.stages.append (List.nodup_singleton _) fun stage hs hs' => ?_
    obtain ⟨e, he, rfl⟩ := List.mem_map.1 hs
    exact hfresh.stage e he (List.mem_singleton.1 hs')
  data e he x hx := by
    rcases List.mem_append.1 he with he | he
    · exact h.data e he x hx
    · rw [List.mem_singleton.1 he] at hx
      cases hx
  transactions := by
    refine List.pairwise_append.2 ⟨h.transactions, List.pairwise_singleton _ _, ?_⟩
    intro a _ b hb x _
    rw [List.mem_singleton.1 hb]
    intro hnone
    cases hnone
  bounded e he := by
    show ∃ c', calls c' ∧ c'.kind = e.kind ∧ used e.kind (d.entries ++ [c.entry M]) ≤ c'.limit
    rw [used_append]
    by_cases hkind : (c.entry M).kind = e.kind
    · rw [if_pos hkind, ← hkind]
      exact ⟨c, hc, rfl, hlimit⟩
    · rw [if_neg hkind, add_zero]
      rcases List.mem_append.1 he with he | he
      · exact h.bounded e he
      · rw [List.mem_singleton.1 he] at hkind
        exact absurd rfl hkind
  owned s hs := by
    obtain ⟨e, he, hof⟩ := h.owned s hs
    exact ⟨e, List.mem_append_left _ he, hof⟩
  once := h.once
  onceStage := h.onceStage
  active := h.active

/-- A call whose pending entry is the last one, and whose operation was not started yet. -/
structure Pushed (M : Machine) (c : Call) (es : List Entry) (d : World) : Prop where
  entries : d.entries = es ++ [c.entry M]
  fresh : Fresh c es
  unstarted : ∀ s ∈ d.starts, s.call.requestId ≠ c.requestId ∧ s.call.stage ≠ c.stage

/-- The operation is started. -/
theorem Inv.start (h : Inv M calls d) (hpush : Pushed M c es d) (hactive : c.Active M d.clock)
    (time : ℤ) :
    Inv M calls { d with starts := d.starts ++ [⟨c, d.clock⟩], clock := time } where
  requests := h.requests
  stages := h.stages
  data := h.data
  transactions := h.transactions
  bounded := h.bounded
  owned s hs := by
    rcases List.mem_append.1 hs with hs | hs
    · exact h.owned s hs
    · rw [List.mem_singleton.1 hs]
      refine ⟨c.entry M, ?_, rfl, rfl, rfl, rfl⟩
      show c.entry M ∈ d.entries
      rw [hpush.entries]
      simp
  once := by
    rw [List.map_append]
    refine h.once.append (List.nodup_singleton _) fun id hid hid' => ?_
    obtain ⟨s, hs, rfl⟩ := List.mem_map.1 hid
    exact (hpush.unstarted s hs).1 (List.mem_singleton.1 hid')
  onceStage := by
    rw [List.map_append]
    refine h.onceStage.append (List.nodup_singleton _) fun stage hold hnew => ?_
    obtain ⟨s, hs, rfl⟩ := List.mem_map.1 hold
    exact (hpush.unstarted s hs).2 (List.mem_singleton.1 hnew)
  active s hs := by
    rcases List.mem_append.1 hs with hs | hs
    · exact h.active s hs
    · rw [List.mem_singleton.1 hs]
      exact hactive

theorem transaction_eq_some {e : Entry} {n : Option JsString} {id : JsString}
    (h : e.transaction = some (n, id)) : id ≠ [] ∧
      transactionId (receipt e.result) = some (.str id) ∧
        network (receipt e.result) = n.map .str := by
  unfold Entry.transaction at h
  split at h
  · rename_i id' hid hn
    split_ifs at h with hnil
    cases h
    exact ⟨hnil, hid, hn⟩
  · rename_i id' n' hid hn
    split_ifs at h with hnil
    cases h
    exact ⟨hnil, hid, hn⟩
  · cases h

/-- The transaction of a result that is settled is new. -/
theorem transaction_ne {result : Option Json} (hdup : duplicate es result = false) {a : Entry}
    (ha : a ∈ es) (e : Entry) (x : Option JsString × JsString) (hx : a.transaction = some x) :
    (e.settle result).transaction ≠ some x := by
  intro hx'
  obtain ⟨n, id⟩ := x
  obtain ⟨-, hid, hn⟩ := transaction_eq_some hx
  obtain ⟨hnil, hid', hn'⟩ := transaction_eq_some hx'
  have hid' : transactionId (receipt result) = some (.str id) := hid'
  have hn' : network (receipt result) = n.map .str := hn'
  have hsame : a.sameTransaction result = true := by
    rw [Entry.sameTransaction, hid, hid', hn, hn']
    cases n <;> simp [strictEq]
  have hdup' : duplicate es result = true := by
    rw [duplicate, hid', Bool.and_eq_true]
    refine ⟨?_, List.any_eq_true.2 ⟨a, ha, hsame⟩⟩
    simpa [truthy] using hnil
  rw [hdup] at hdup'
  cases hdup'

/-- The entry is settled. -/
theorem Inv.settle (h : Inv M calls d) (hentries : d.entries = es ++ [c.entry M])
    {result : Option Json} (hdata : ∀ x, result = some x → Data x)
    (hdup : duplicate (es ++ [c.entry M]) result = false) :
    Inv M calls { d with journal := some (es ++ [(c.entry M).settle result]) } where
  requests := by
    have hrequests := h.requests
    rw [hentries, List.map_append] at hrequests
    show ((es ++ [(c.entry M).settle result]).map Entry.requestId).Nodup
    rw [List.map_append]
    exact hrequests
  stages := by
    have hstages := h.stages
    rw [hentries, List.map_append] at hstages
    show ((es ++ [(c.entry M).settle result]).map Entry.stage).Nodup
    rw [List.map_append]
    exact hstages
  data e he x hx := by
    rcases List.mem_append.1 he with he | he
    · exact h.data e (hentries ▸ List.mem_append_left _ he) x hx
    · rw [List.mem_singleton.1 he] at hx
      exact hdata x hx
  transactions := by
    have htransactions := h.transactions
    rw [hentries, List.pairwise_append] at htransactions
    refine List.pairwise_append.2 ⟨htransactions.1, List.pairwise_singleton _ _, ?_⟩
    -- The check for duplicates compares the result with all earlier ones.
    intro a ha b hb x hx
    rw [List.mem_singleton.1 hb]
    exact transaction_ne hdup (List.mem_append_left _ ha) _ x hx
  bounded e he := by
    show ∃ c', calls c' ∧ c'.kind = e.kind ∧
      used e.kind (es ++ [(c.entry M).settle result]) ≤ c'.limit
    rw [used_settle, ← hentries]
    rcases List.mem_append.1 he with he | he
    · exact h.bounded e (hentries ▸ List.mem_append_left _ he)
    · rw [List.mem_singleton.1 he]
      exact h.bounded (c.entry M) (hentries ▸ List.mem_append_right _ (List.mem_singleton_self _))
  owned s hs := by
    obtain ⟨e, he, hof⟩ := h.owned s hs
    rw [hentries] at he
    rcases List.mem_append.1 he with he | he
    · exact ⟨e, List.mem_append_left _ he, hof⟩
    · rw [List.mem_singleton.1 he] at hof
      exact ⟨_, List.mem_append_right _ (List.mem_singleton_self _), hof.requestId, hof.runId,
        hof.kind, hof.digest⟩
  once := h.once
  onceStage := h.onceStage
  active := h.active

/-- A new last entry. -/
theorem Since.append (h : d₀.entries <+: es)
    (hstarts : ∀ e ∈ d₀.entries, d.startsFor e.requestId = d₀.startsFor e.requestId) (e : Entry) :
    Since d₀ { d with journal := some (es ++ [e]) } :=
  ⟨h.trans (List.prefix_append _ _), hstarts⟩

theorem Since.start (h : Since d₀ d) (hpre : d₀.entries <+: es) (hfresh : Fresh c es)
    (time : ℤ) : Since d₀ { d with starts := d.starts ++ [⟨c, d.clock⟩], clock := time } := by
  refine ⟨h.entries, fun e he => ?_⟩
  have hne : c.requestId ≠ e.requestId := (hfresh.requestId e (hpre.subset he)).symm
  rw [← h.starts e he, World.startsFor, World.startsFor, List.filter_append]
  simp [hne]

/-! ### `execute` -/

theorem wp_now {Q : Except JsError ℤ → World → Prop} (h : Inv M calls d ∧ Since d₀ d)
    (hQ : ∀ time, Q (.ok time) { d with clock := time }) :
    (Prog.await Effect.now).wp (payments M calls d₀).spec Q d := by
  refine Sequential.wp_await fun r d' hsem => ?_
  obtain ⟨time, rfl, rfl⟩ := hsem
  exact ⟨⟨h.1.clock time, h.2.clock time⟩, hQ time⟩

theorem wp_save {entries : List Entry} {Q : Except JsError Unit → World → Prop}
    (h : Inv M calls d ∧ Since d₀ d)
    (hsaved : Inv M calls { d with journal := some entries } ∧
      Since d₀ { d with journal := some entries })
    (hok : ∀ r time, Q r { d with journal := some entries, clock := time })
    (herror : ∀ e time, Q (.error e) { d with clock := time }) :
    (save entries).wp (payments M calls d₀).spec Q d := by
  refine Sequential.wp_await fun r d' hsem => ?_
  obtain ⟨time, rfl | ⟨⟨e, rfl⟩, rfl⟩⟩ := hsem
  · exact ⟨⟨hsaved.1.clock time, hsaved.2.clock time⟩, hok r time⟩
  · exact ⟨⟨h.1.clock time, h.2.clock time⟩, herror e time⟩

/-- A mandate that is found active is still active when the operation is started. -/
theorem wp_checkMandate {Q : Except JsError Unit → World → Prop} (h : Inv M calls d ∧ Since d₀ d)
    (herror : ∀ e d, Q (.error e) d)
    (hok : ∀ time, c.Active M time → Q (.ok ()) { d with clock := time }) :
    (checkMandate M c.mandateExpiresAt).wp (payments M calls d₀).spec Q d := by
  unfold checkMandate
  split
  · rename_i hnone
    refine Prog.wp_pure.2 (hok d.clock fun expiresAt hsome => ?_)
    rw [hnone] at hsome
    cases hsome
  · rename_i expiresAt hsome
    unfold assertMandateActive
    split
    · exact Prog.wp_throw.2 (herror _ _)
    · rename_i expiry hexpiry
      rw [Prog.wp_bind]
      refine wp_now h fun time => ?_
      refine Prog.wp_ite (fun _ => Prog.wp_throw.2 (herror _ _)) fun hlate => ?_
      refine Prog.wp_pure.2 (hok time fun expiresAt' hsome' => ?_)
      obtain rfl := Option.some.inj (hsome.symm.trans hsome')
      exact ⟨expiry, hexpiry, not_le.1 hlate⟩

theorem wp_read {Q : Except JsError (List Entry) → World → Prop} (h : Inv M calls d ∧ Since d₀ d)
    (hok : ∀ time, Q (.ok d.entries) { d with clock := time })
    (herror : ∀ e time, Q (.error e) { d with clock := time }) :
    (read M).wp (payments M calls d₀).spec Q d := by
  unfold read
  rw [Prog.wp_bind, Prog.wp_tryCatch]
  refine Sequential.wp_await fun r d' hsem => ?_
  obtain ⟨hr, time, rfl⟩ := hsem
  refine ⟨⟨h.1.clock time, h.2.clock time⟩, ?_⟩
  cases r with
  | error e => exact Prog.wp_throw.2 (herror _ time)
  | ok journal =>
    obtain rfl := hr journal rfl
    refine Prog.wp_pure.2 ?_
    rw [← World.entries, h.1.map_reread]
    exact hok time

/-- What a call that has returned `v` has done: it has found `v` in the journal, or its operation
was started and has returned `v`. -/
inductive Outcome (M : Machine) (c : Call) (d : World) (v : Option Json) (d' : World) : Prop
  | replayed (e : Entry) (mem : e ∈ d.entries) (of : e.Of M c) (settled : e.state = .settled)
      (result : v = e.result) (entries : d'.entries = d.entries) (starts : d'.starts = d.starts)
  | executed (time : ℤ) (fresh : Fresh c d.entries)
      (entries : d'.entries = d.entries ++ [(c.entry M).settle v])
      (starts : d'.starts = d.starts ++ [⟨c, time⟩])

/-- The operation of a call. -/
theorem wp_perform (d₁ : World) (h : Inv M calls d ∧ Since d₀ d) (hpush : Pushed M c d₁.entries d)
    (hpre : d₀.entries <+: d₁.entries) (hstarts : d.starts = d₁.starts) :
    (perform M c d₁.entries).wp (payments M calls d₀).spec
      (fun r d' => ∀ v, r = .ok v → Outcome M c d₁ v d') d := by
  unfold perform
  rw [Prog.wp_tryCatch, Prog.wp_bind]
  have hcaught : ∀ d : World, (refuse
      "Operation outcome uncertain; manual reconciliation required." : Exec (Option Json)).wp
        (payments M calls d₀).spec (fun r d' => ∀ v, r = .ok v → Outcome M c d₁ v d') d :=
    fun d => Prog.wp_throw.2 fun v hv => by cases hv
  refine wp_checkMandate h (fun _ => hcaught) fun time hactive => ?_
  show Prog.wp _ _ _ _
  rw [Prog.wp_bind]
  have h : Inv M calls { d with clock := time } ∧ Since d₀ { d with clock := time } :=
    ⟨h.1.clock time, h.2.clock time⟩
  have hpush : Pushed M c d₁.entries { d with clock := time } :=
    ⟨hpush.entries, hpush.fresh, hpush.unstarted⟩
  refine Sequential.wp_await fun r d' hsem => ?_
  obtain ⟨hdata, time', rfl⟩ := hsem
  have hinv := h.1.start hpush hactive time'
  have hsince := h.2.start hpre hpush.fresh time'
  refine ⟨⟨hinv, hsince⟩, ?_⟩
  cases r with
  | error e => exact hcaught _
  | ok result =>
    show Prog.wp _ _ _ _
    refine Prog.wp_ite (fun _ => Prog.wp_throw.2 (hcaught _)) fun hdup => ?_
    rw [Prog.wp_bind]
    have hsettle := hinv.settle (c := c) hpush.entries
      (fun x (hx : result = some x) => hdata x (hx ▸ rfl)) (by simpa using hdup)
    refine wp_save ⟨hinv, hsince⟩ ⟨hsettle, Since.append hpre hsince.starts _⟩ (fun r _ => ?_)
      fun e _ => hcaught _
    cases r with
    | error e => exact hcaught _
    | ok u =>
      refine Prog.wp_pure.2 fun v hv => ?_
      cases hv
      refine .executed time hpush.fresh rfl ?_
      show d.starts ++ [_] = _
      rw [hstarts]

theorem wp_replay {previous : Entry} (hmem : previous ∈ d.entries)
    (hid : previous.requestId = c.requestId) {d' : World} (hentries : d'.entries = d.entries)
    (hstarts : d'.starts = d.starts) {Φ : Prog.Spec World Effect Answer JsError} :
    (replay M c previous).wp Φ (fun r d' => ∀ v, r = .ok v → Outcome M c d v d') d' := by
  unfold replay
  refine Prog.wp_ite (fun _ => Prog.wp_throw.2 fun v hv => by cases hv) fun hsame => ?_
  refine Prog.wp_ite (fun _ => Prog.wp_throw.2 fun v hv => by cases hv) fun hsettled => ?_
  simp only [not_or, not_not] at hsame hsettled
  refine Prog.wp_pure.2 fun v hv => ?_
  cases hv
  exact .replayed previous hmem ⟨hid, hsame.2.1, hsame.2.2, hsame.1⟩ hsettled rfl hentries hstarts

/-- **A call of `execute`.** -/
theorem wp_execute (hc : calls c) (h : Inv M calls d ∧ Since d₀ d) :
    (execute M c).wp (payments M calls d₀).spec
      (fun r d' => ∀ v, r = .ok v → Outcome M c d v d') d := by
  unfold execute
  rw [Prog.wp_bind]
  refine wp_checkMandate h (fun e d' v hv => by cases hv) fun time _ => ?_
  have h : Inv M calls { d with clock := time } ∧ Since d₀ { d with clock := time } :=
    ⟨h.1.clock time, h.2.clock time⟩
  show Prog.wp _ _ _ _
  refine Prog.wp_ite (fun _ => Prog.wp_throw.2 fun v hv => by cases hv) fun _ => ?_
  rw [Prog.wp_bind]
  refine wp_read h (fun time' => ?_) fun e _ v hv => by cases hv
  have h : Inv M calls { d with clock := time' } ∧ Since d₀ { d with clock := time' } :=
    ⟨h.1.clock time', h.2.clock time'⟩
  show Prog.wp _ _ _ _
  beta_reduce
  split
  · rename_i previous hfind
    have hid : previous.requestId = c.requestId := by simpa using List.find?_some hfind
    refine wp_replay (d := d) (List.mem_of_find?_eq_some hfind) hid ?_ ?_
    · rfl
    · rfl
  · rename_i hfind
    refine Prog.wp_ite (fun _ => Prog.wp_throw.2 fun v hv => by cases hv) fun hstage => ?_
    refine Prog.wp_ite (fun _ => Prog.wp_throw.2 fun v hv => by cases hv) fun hlimit => ?_
    have hfresh : Fresh c d.entries := by
      refine ⟨fun e he hid => ?_, fun e he hs => hstage ?_⟩
      · simpa [hid] using List.find?_eq_none.1 hfind e he
      · refine List.any_eq_true.2 ⟨e, he, ?_⟩
        obtain ⟨hrun, hkind⟩ := Prod.ext_iff.1 hs
        exact decide_eq_true ⟨hrun, hkind⟩
    rw [Prog.wp_bind]
    have hpush := h.1.push hc hfresh (not_lt.1 hlimit)
    have hsince := Since.append (d := { d with clock := time' }) h.2.entries h.2.starts (c.entry M)
    refine wp_save h ⟨hpush, hsince⟩ (fun r later => ?_) fun e _ v hv => by cases hv
    cases r with
    | error e => exact fun v hv => by cases hv
    | ok u =>
      refine wp_perform d ⟨hpush.clock later, hsince.clock later⟩ ⟨rfl, hfresh, fun s hs => ?_⟩ h.2.entries rfl
      obtain ⟨e, he, hof⟩ := h.1.owned s hs
      refine ⟨fun hid => hfresh.requestId e he (hof.requestId.trans hid), fun hs => ?_⟩
      exact hfresh.stage e he ((Prod.ext hof.runId hof.kind : e.stage = s.call.stage).trans hs)

theorem reads_result (runId kind : JsString) : Sequential.Reads look (result M runId kind) := by
  intro d
  unfold result read
  rw [Prog.wp_bind, Prog.wp_bind, Prog.wp_tryCatch, Prog.wp_await]
  rintro d₁ - r d₂ ⟨time, ⟨-, time', hsame⟩, hclock⟩
  obtain rfl : d₁ = d₂ := by
    obtain ⟨journal, starts, clock⟩ := d₁
    obtain ⟨journal', starts', clock'⟩ := d₂
    simp only [World.mk.injEq] at hsame hclock ⊢
    exact ⟨hsame.1.symm, hsame.2.1.symm, hclock.symm⟩
  refine ⟨rfl, ?_⟩
  cases r with
  | error e => exact Prog.wp_throw.2 trivial
  | ok journal => exact Prog.wp_pure.2 (Prog.wp_pure.2 trivial)

/-- **Every operation of the broker keeps the invariant.** -/
theorem sound (M : Machine) (calls : Call → Prop) (d₀ : World) :
    (payments M calls d₀).queueProtocol.Sound (system M calls) := by
  refine Sequential.queue_sound ?_ ?_
  · rintro p d ⟨c, hc, rfl⟩ hd
    exact Prog.wp_mono (wp_execute hc hd) fun _ _ _ => trivial
  · rintro p ⟨runId, kind, rfl⟩
    exact reads_result runId kind

/-! ### Over every run -/

/-- At most one element has a given image. -/
theorem length_filter_le_one {α β : Type} [DecidableEq β] {f : α → β} {l : List α}
    (h : (l.map f).Nodup) (b : β) : (l.filter fun a => f a = b).length ≤ 1 := by
  have hnodup : ((l.filter fun a => f a = b).map f).Nodup := h.sublist (List.filter_sublist.map f)
  have hconst : (l.filter fun a => f a = b).map f =
      List.replicate ((l.filter fun a => f a = b).map f).length b := by
    refine List.eq_replicate_of_mem fun b' hb' => ?_
    obtain ⟨a, ha, rfl⟩ := List.mem_map.1 hb'
    simpa using (List.mem_filter.1 ha).2
  rw [hconst, List.nodup_replicate, List.length_map] at hnodup
  exact hnodup

/-- The state of the broker. -/
abbrev State := System.State (Option ℕ) World Effect Answer JsError (Option Json)

/-- A recorded step of the broker. -/
abbrev Event := Tr State (System.Action (Option ℕ) Effect Answer JsError (Option Json))

/-- **Every operation is started at most once, within the budget and before the mandate expires,
and what is in the journal while no call is going on stays there.** -/
theorem durable_payments (M : Machine) (calls : Call → Prop) {s : State} {τ : List Event}
    (h : (system M calls).lts.Run (System.State.idle World.empty) τ s) :
    (∀ requestId, (s.world.startsFor requestId).length ≤ 1) ∧
      (∀ stage, (s.world.starts.filter fun x => x.call.stage = stage).length ≤ 1) ∧
      (∀ e ∈ s.world.entries, ∃ c, calls c ∧ c.kind = e.kind ∧
        used e.kind s.world.entries ≤ c.limit) ∧
      (s.world.entries.Pairwise fun a b =>
        ∀ x, a.transaction = some x → b.transaction ≠ some x) ∧
      (∀ x ∈ s.world.starts, x.call.Active M x.time) ∧
      (s.processes none = none →
        (∀ σ t, (system M calls).lts.Run s σ t → Since s.world t.world) ∧
        ∀ c v t, calls c → (system M calls).Answers s none (execute M c) (.ok v) t →
          Outcome M c s.world v t.world) := by
  have hholds := Sequential.queue_run (sound M calls World.empty)
    (Protocol.Sound.holds_idle World.empty ⟨inv_empty, Since.refl _⟩) h
  have hinv : Inv M calls s.world := hholds.1.1
  refine ⟨length_filter_le_one hinv.once, length_filter_le_one hinv.onceStage, hinv.bounded,
    hinv.transactions, hinv.active, fun hfree => ?_⟩
  -- between two calls the journal at hand takes the place of the empty one
  have hfrom : (payments M calls s.world).queueProtocol.Holds (system M calls) s :=
    Sequential.queue_switch (X := payments M calls World.empty) rfl hholds hfree
      ⟨hinv, Since.refl _⟩
  refine ⟨fun σ t hrun => ?_, fun c v t hc ha => ?_⟩
  · exact (Sequential.queue_run (sound M calls s.world) hfrom hrun).1.2
  · exact Sequential.queue_answers (sound M calls s.world) hfrom ⟨c, hc, rfl⟩ hfree
      (wp_execute hc hfrom.1) ha v rfl

namespace Sample

/-- A machine to run the broker on. -/
def machine : Machine :=
  ⟨{ Platform.plain with host := { Platform.plain.host with dateParse := Date.readIso } },
    JsString.le⟩

/-- The result of an operation with this transaction. -/
def paid (id : JsString) : Json :=
  .obj [(js "receipt", .obj [(js "transactionId", .str id), (js "network", .str (js "testnet"))])]

/-- A second later. -/
def World.later (d : World) : World := { d with clock := d.clock + 1000 }

/-- Answers to the effects, when the operation returns the given transaction; each of them takes a
second. -/
def respond (id : JsString) (d : World) : (o : Effect) → Except JsError (Answer o) × World
  | .now => (.ok d.clock, d)
  | .readJournal => (.ok d.journal, World.later d)
  | .save entries => (.ok (), World.later { d with journal := some entries })
  | .operation call =>
    (.ok (some (paid id)), World.later { d with starts := d.starts ++ [⟨call, d.clock⟩] })

theorem data_paid (id : JsString) : Data (paid id) := by
  refine ⟨rfl, .obj (by simp) fun field hfield => ?_⟩
  rw [List.mem_singleton.1 hfield]
  have hkeys : [js "transactionId", js "network"].Nodup := by decide
  refine .obj hkeys fun field hfield => ?_
  rcases List.mem_cons.1 hfield with rfl | hfield
  · exact .str _
  · rw [List.mem_singleton.1 hfield]
    exact .str _

theorem respond_work (id : JsString) (d : World) (o : Effect) :
    work d o (respond id d o).1 (respond id d o).2 := by
  cases o with
  | now => exact ⟨_, rfl, rfl⟩
  | readJournal => exact ⟨fun journal h => (Except.ok.inj h).symm, _, rfl⟩
  | save entries => exact ⟨_, Or.inl rfl⟩
  | operation call =>
    refine ⟨fun x hx => ?_, _, rfl⟩
    obtain rfl := Option.some.inj (Except.ok.inj hx)
    exact data_paid id

/-- A purchase of a run, under a mandate until the given time. -/
def call (runId expiresAt : JsString) : Call :=
  ⟨js "pay-" ++ runId, runId, js "data", .null, 1, 5, some expiresAt⟩

variable (expiresAt id id' : JsString)

/-- The world after the first of two purchases. -/
def first : World :=
  ((execute machine (call (js "a") expiresAt)).exec (respond id) World.empty).2

/-- The world after two purchases that return these transactions. -/
def world : World :=
  ((execute machine (call (js "b") expiresAt)).exec (respond id') (first expiresAt id)).2

theorem run_world : ∃ τ, (system machine fun _ => True).lts.Run
    (System.State.idle World.empty) τ ⟨world expiresAt id id', fun _ => none⟩ := by
  obtain ⟨τ, hfirst⟩ := System.run_exec (S := system machine fun _ => True)
    (s := System.State.idle World.empty) (i := none) (respond_work id) rfl
    ⟨call (js "a") expiresAt, trivial, rfl⟩
  obtain ⟨σ, hsecond⟩ := System.run_exec (S := system machine fun _ => True)
    (s := ⟨first expiresAt id, fun _ => none⟩) (i := none) (respond_work id') rfl
    ⟨call (js "b") expiresAt, trivial, rfl⟩
  exact ⟨_, hfirst.append hsecond⟩

/-- Two purchases under a mandate of five seconds. -/
def late : World := world (js "1970-01-01T00:00:05.000Z") (js "1") (js "2")

/-- Two purchases under a mandate of a minute, with an empty transaction. -/
def twice : World := world (js "1970-01-01T00:01:00.000Z") [] []

end Sample

/-- The second purchase is too late: its entry was saved, and its operation is not started. -/
theorem durable_payments_sample :
    (Sample.late.entries.map Entry.state = [.settled, .pending] ∧
      Sample.late.starts.map Start.time = [2000]) ∧
      (∀ requestId, (Sample.late.startsFor requestId).length ≤ 1) ∧
      ∀ x ∈ Sample.late.starts, x.call.Active Sample.machine x.time := by
  obtain ⟨τ, hrun⟩ := Sample.run_world (js "1970-01-01T00:00:05.000Z") (js "1") (js "2")
  obtain ⟨honce, -, -, -, hactive, -⟩ := durable_payments Sample.machine (fun _ => True) hrun
  exact ⟨by decide +kernel, honce, hactive⟩

/-- **Two settled entries with the same transaction**: an empty identifier is not looked at. -/
theorem empty_transaction_settled_twice :
    (∃ τ, (system Sample.machine fun _ => True).lts.Run (System.State.idle World.empty) τ
      ⟨Sample.twice, fun _ => none⟩) ∧
      (Sample.twice.entries.map fun e => (e.state,
        strictEq (transactionId (receipt e.result)) (some (.str [])),
        strictEq (network (receipt e.result)) (some (.str (js "testnet"))))) =
          [(.settled, true, true), (.settled, true, true)] :=
  ⟨Sample.run_world _ [] [], by decide +kernel⟩

end Broker

end Obolos
