import Obolos.Crash.Reach
import Obolos.Economy.IndexerRuns

/-!
# The index, over whole runs

Any processes run the index, in any order and at the same time.  In every reachable state the events
are the decodable logs up to the cursor (`index_runs`); a run moves the cursor over the next blocks,
and one that fails or finds the lock busy commits nothing, unless the answer of its `COMMIT` was
lost.
-/

namespace Obolos

namespace Indexer

open Transactions (World Committed In Out Settled Contributes protocol wp_begin wp_outside_out
  wp_tryLock_holding wp_rollback wp_of_frame)

variable {ι : Type} [DecidableEq ι] {C : Chain} {D : Deployment} {V : Views} {lost : Prop} {i : ι}
  {n : List (Committed ι Tables)} {d : Worlds ι} {t₀ t₁ : Tables} {w₀ : Heads}

/-! ### A batch -/

/-- The batches from the next block on: those of a range, or none when there is no new block. -/
def NextBatches (C : Chain) (D : Deployment) (t : Tables) (last : ℕ) (batches : Batches) : Prop :=
  batches = C.batches D (nextBlock D t.state) last Contract.all ∨
    batches = [] ∧ nextBlock D t.state = last + 1

theorem nextBatches_wp {number : ℕ} {Φ : Except ApiError (ℕ × Batches) → Worlds ι → Prop}
    (h : Running C D i n t₀ w₀ t₁ d) (ht : Holds C D t₀ w₀) (hnumber : number ≤ w₀.final)
    (hok : ∀ last batches w d', NextBatches C D t₀ last batches → D.fromBlock ≤ last →
      nextBlock D t₀.state ≤ last + 1 → last ≤ w.final →
      (nextBlock D t₀.state ≤ number → nextBlock D t₀.state ≤ last) → w₀.later w →
      Running C D i n t₀ w t₁ d' → Φ (.ok (last, batches)) d')
    (herror : ∀ e d', Out (discipline C D) i n d' → Φ (.error e) d') :
    (nextBatches D t₀.state number).wp (obligations C D lost i) Φ d := by
  unfold nextBatches
  refine Prog.wp_ite (fun hnew => ?_) fun hnew => ?_
  · cases hs : t₀.state with
    | none => exact Prog.wp_throw.2 (herror _ d h.out)
    | some s =>
      obtain ⟨hfirst, hfinal, -⟩ := ht.cursor s hs
      rw [hs] at hnew hok
      refine Prog.wp_pure.2 (hok s.blockNumber [] w₀ d (Or.inr ⟨rfl, by rw [hs]; rfl⟩) hfirst le_rfl
        hfinal (fun hle => absurd hle (not_le.2 hnew)) (.refl _) h)
  · have hwidth : nextBlock D t₀.state +
        (min (nextBlock D t₀.state + 1999) number - nextBlock D t₀.state) ≤ number := by omega
    refine fetch_wp h (hwidth.trans hnumber) (fun last w d hfirst hlast hw h => ?_) herror
    have hfinal : last ≤ w.final := (hlast.trans hwidth).trans (hnumber.trans hw.2)
    exact hok last _ w d (Or.inl rfl) ((fromBlock_le ht).trans hfirst) (hfirst.trans (Nat.le_succ _))
      hfinal (fun _ => hfirst) hw h

/-- The events of the batches. -/
theorem insertNext_wp {last : ℕ} {batches : Batches} {Φ : Except ApiError Unit → Worlds ι → Prop}
    (h : Running C D i n t₀ w₀ t₀ d) (ht : Holds C D t₀ w₀)
    (hbatches : NextBatches C D t₀ last batches) (hlast : last ≤ w₀.final)
    (hnext : nextBlock D t₀.state ≤ last + 1)
    (hok : ∀ w d', w₀.later w → Running C D i n t₀ w
      (t₀.addEvents (C.rowsIn D (nextBlock D t₀.state) last)) d' → Φ (.ok ()) d')
    (herror : ∀ e d', Out (discipline C D) i n d' → Φ (.error e) d') :
    (insertBatches D (nextBlock D t₀.state) last [] batches).wp (obligations C D lost i) Φ d := by
  rcases hbatches with rfl | ⟨rfl, hempty⟩
  · exact insertBatches_wp h (fun b hb => by cases hb) hlast (events_keys ht hnext) hok herror
  · rw [hempty, rowsIn_empty, addEvents_nil] at hok
    exact Prog.wp_pure.2 (hok w₀ d (.refl _) h)

theorem targetBlock_wp {number last : ℕ} {Φ : Except ApiError Block → Worlds ι → Prop}
    (h : Running C D i n t₀ w₀ t₁ d) (hlast : last ≤ w₀.final)
    (hok : ∀ w d', w₀.later w → Running C D i n t₀ w t₁ d' → Φ (.ok (C.block last)) d')
    (herror : ∀ e d', Out (discipline C D) i n d' → Φ (.error e) d') :
    (targetBlock (C.block number) number last).wp (obligations C D lost i) Φ d := by
  unfold targetBlock
  by_cases hnumber : last = number
  · rw [if_pos hnumber, ← hnumber]
    exact Prog.wp_pure.2 (hok w₀ d (.refl _) h)
  · rw [if_neg hnumber]
    refine wp_client h (fun block w d hw hblock h => ?_) herror
    obtain rfl := hblock (hlast.trans hw.2)
    exact hok w d hw h

/-! ### Outcomes -/

/-- **What a run has committed.**  `m` is a block that the client has reported as final, or a later
one. -/
def Outcome (C : Chain) (D : Deployment) (lost : Prop) (m : ℕ) :
    Except ApiError Result → Option (Transactions.Change Tables) → Prop
  | .ok .busy, change => change = none
  | .ok .unchanged, change => ∃ t, change = some ⟨t, t, true⟩ ∧ m < nextBlock D t.state
  | .ok (.changed number _), change => ∃ t t', change = some ⟨t, t', true⟩ ∧ Advanced C D t number t' ∧
      (nextBlock D t.state ≤ m → nextBlock D t.state < nextBlock D t'.state)
  | .error _, change => ∀ c, change = some c → lost ∧ c.answered = false

/-- The outcome of process `i`. -/
abbrev Ends (C : Chain) (D : Deployment) (lost : Prop) (i : ι) (n : List (Committed ι Tables))
    (m : ℕ) : Except ApiError Result → Worlds ι → Prop :=
  Settled (discipline C D) i n (Outcome C D lost m)

variable {m : ℕ}

theorem ends_error {e : ApiError} (h : Out (discipline C D) i n d) :
    Ends C D lost i n m (.error e) d :=
  .of_out h fun c hc => by cases hc

theorem advance_wp {number : ℕ} {root : JsString} (h : Running C D i n t₀ w₀ t₀ d)
    (ht : Holds C D t₀ w₀) (hnumber : number ≤ w₀.final) (hm : m ≤ number) :
    (advance D V t₀.state (C.block number) number root).wp (obligations C D lost i)
      (Ends C D lost i n m) d := by
  have herror : ∀ e d', Out (discipline C D) i n d' → Ends C D lost i n m (.error e) d' :=
    fun _ _ => ends_error
  unfold advance
  rw [Prog.wp_bind]
  refine nextBatches_wp h ht hnumber
    (fun last batches w d hbatches hfirst hnext hlast hforward hw h => ?_) herror
  replace ht := ht.later hw
  show Prog.wp _ _ _ _
  rw [Prog.wp_bind]
  refine targetBlock_wp h hlast (fun w d hw h => ?_) herror
  replace ht := ht.later hw
  replace hlast := hlast.trans hw.2
  show Prog.wp _ _ _ _
  refine Prog.wp_ite (fun hne => absurd rfl hne) fun _ => ?_
  rw [Prog.wp_bind]
  refine insertNext_wp h ht hbatches hlast hnext (fun w d hw h => ?_) herror
  replace ht := ht.later hw
  replace hlast := hlast.trans hw.2
  show Prog.wp _ _ _ _
  rw [Prog.wp_bind]
  refine (V.project_derives _ _ _).wp Extends.refl (fun _ _ _ => Extends.trans)
    (fun q hq => hq.run) h (fun snapshot w t₂ d hw hextends h => ?_) herror
  replace ht := ht.later hw
  replace hlast := hlast.trans hw.2
  show Prog.wp _ _ _ _
  rw [Prog.wp_bind]
  refine wp_query h (q := .putState ⟨last, C.hash last, snapshot⟩) rfl (fun d h => ?_) herror
  have hadvanced : Advanced C D t₀ last { t₂ with state := some ⟨last, C.hash last, snapshot⟩ } :=
    ⟨hextends.events, hextends.observations, _, rfl, rfl, rfl⟩
  have houtcome : ∀ up, Outcome C D lost m (.ok (.changed last up)) (some ⟨t₀, _, true⟩) :=
    fun up => ⟨_, _, rfl, hadvanced, fun hbehind => Nat.lt_succ_of_le (hforward (hbehind.trans hm))⟩
  show Prog.wp _ _ _ _
  rw [Prog.wp_bind]
  refine wp_finish h (fun w' hw' ht' => ?_) ?_ (fun d hout => ?_) (fun hlost e d hout => ?_) herror
  · exact (hadvanced.kept ht' hfirst hnext (hlast.trans hw'.2)).1
  · exact (hadvanced.kept ht hfirst hnext hlast).2
  · exact Prog.wp_pure.2 (.of_commit hout (houtcome _))
  · exact .of_commit hout fun c hc => by cases hc; exact ⟨hlost, rfl⟩

/-! ### A run -/

theorem checkCursor_wp {state : Option IndexState} {Φ : Except ApiError Unit → Worlds ι → Prop}
    (h : Running C D i n t₀ w₀ t₁ d)
    (hok : ∀ w d', w₀.later w → Running C D i n t₀ w t₁ d' → Φ (.ok ()) d')
    (herror : ∀ e d', Out (discipline C D) i n d' → Φ (.error e) d') :
    (checkCursor state).wp (obligations C D lost i) Φ d := by
  cases state with
  | none => exact Prog.wp_pure.2 (hok w₀ d (.refl _) h)
  | some s =>
    unfold checkCursor
    show Prog.wp _ _ _ _
    rw [Prog.wp_bind]
    refine wp_client h (fun block w d hw _ h => ?_) herror
    show Prog.wp _ _ _ _
    refine Prog.wp_ite (fun _ => wp_raise herror h.out) fun _ => ?_
    exact Prog.wp_pure.2 (hok w d hw h)

theorem refresh_wp {number : ℕ} (h : Running C D i n t₀ w₀ t₀ d) (ht : Holds C D t₀ w₀)
    (hnumber : number ≤ w₀.final) (hm : m ≤ number) :
    (refresh D V t₀.state (C.block number) number).wp (obligations C D lost i)
      (Ends C D lost i n m) d := by
  have herror : ∀ e d', Out (discipline C D) i n d' → Ends C D lost i n m (.error e) d' :=
    fun _ _ => ends_error
  unfold refresh
  rw [Prog.wp_bind]
  refine V.evidenceRoot_derives.wp (fun t => (rfl : t = t)) (fun _ _ _ h h' => h.trans h')
    (fun q hq => hq.elim) h (fun root w t₁ d hw ht₁ h => ?_) herror
  obtain rfl := ht₁
  show Prog.wp _ _ _ _
  refine Prog.wp_ite (fun hnew => ?_) fun _ =>
    advance_wp h (ht.later hw) (hnumber.trans hw.2) hm
  rw [Prog.wp_bind]
  refine wp_finish h (fun _ _ ht' => ht') (.refl _) (fun d hout => ?_) (fun hlost e d hout => ?_)
    herror
  · exact Prog.wp_pure.2 (.of_commit hout ⟨_, rfl, lt_of_le_of_lt hm hnew.1⟩)
  · exact .of_commit hout fun c hc => by cases hc; exact ⟨hlost, rfl⟩

theorem transaction_wp (h : In (discipline C D) i ⟨[], fun t => t, false⟩ (fun _ _ => True) n d)
    (hm : m ≤ d.outside.known) :
    (transaction D V).wp (obligations C D lost i) (Ends C D lost i n m) d := by
  have herror : ∀ e d', Out (discipline C D) i n d' → Ends C D lost i n m (.error e) d' :=
    fun _ _ => ends_error
  unfold transaction
  rw [Prog.wp_bind]
  refine wp_tryLock_holding h (fun _ _ _ _ _ _ _ _ h => h) (fun d₀ hw ht _ h => ?_)
    (fun d hout => ?_) fun e d _ => herror e d
  · replace hm := hm.trans hw.1
    generalize d₀.tables = t₀ at ht h
    generalize d₀.outside = w₀ at ht h hm
    show Prog.wp _ _ _ _
    refine Prog.wp_ite (fun hbusy => by cases hbusy) fun _ => ?_
    rw [Prog.wp_bind]
    refine wp_query h (q := .selectState) rfl (fun d h => ?_) herror
    show Prog.wp _ _ _ _
    rw [Prog.wp_bind]
    refine checkCursor_wp h (fun w d hw h => ?_) herror
    replace ht := ht.later hw
    replace hm := hm.trans hw.1
    show Prog.wp _ _ _ _
    rw [Prog.wp_bind]
    refine wp_client h (fun finalized w d hw hfinalized h => ?_) herror
    replace ht := ht.later hw
    obtain ⟨number, hknown, hfinal, rfl⟩ := hfinalized
    replace hm := (hm.trans hw.1).trans hknown
    exact refresh_wp h ht hfinal hm
  · show Prog.wp _ _ _ _
    refine Prog.wp_ite (fun _ => ?_) fun hbusy => absurd rfl hbusy
    rw [Prog.wp_bind]
    refine wp_rollback hout (fun d hout => ?_) fun e d _ hout => herror e d hout
    exact Prog.wp_pure.2 (.of_out hout rfl)

theorem abandon_wp {e : ApiError} (h : Ends C D lost i n m (.error e) d) :
    (abandon e).wp (obligations C D lost i) (Ends C D lost i n m) d := by
  obtain ⟨change, hout, hchange⟩ := h
  unfold abandon
  rw [Prog.wp_bind]
  refine wp_rollback hout (fun d hout => ?_) fun e d _ hout => ⟨change, hout, hchange⟩
  exact Prog.wp_throw.2 ⟨change, hout, hchange⟩

/-- **One run.** -/
theorem indexEconomy_wp (h : Out (discipline C D) i n d) :
    (indexEconomy D V).wp (obligations C D lost i) (Ends C D lost i n d.outside.known) d := by
  generalize hm : d.outside.known = m
  replace hm : m ≤ d.outside.known := hm.ge
  unfold indexEconomy
  rw [Prog.wp_bind]
  refine wp_of_frame (wp_outside_out h (fun w r w' hout => ?_) fun r d' hout hw => ?_)
  · rw [hout.1]
    exact Heads.later.refl w
  replace hm := hm.trans hw.1
  cases r with
  | error e => exact ends_error hout
  | ok chainId =>
    show Prog.wp _ _ _ _
    refine Prog.wp_ite (fun _ => Prog.wp_throw.2 (ends_error hout)) fun _ => ?_
    rw [Prog.wp_bind]
    refine wp_of_frame (wp_begin (P := fun _ _ => True) hout (fun _ _ _ _ _ _ _ _ h => h) trivial
      (fun d h hw => ?_) fun e d _ hout _ => ends_error hout)
    show Prog.wp _ _ _ _
    rw [Prog.wp_tryCatch]
    refine Prog.wp_mono (transaction_wp h (hm.trans hw.1)) fun r d hends => ?_
    cases r with
    | ok o => exact hends
    | error e => exact abandon_wp hends

/-! ### The system -/

/-- The states of a run. -/
abbrev State (ι : Type) := System.State ι (Worlds ι) (Transactions.Effect Lock Query Call)
  (Transactions.Answer Rows CallAnswer) ApiError Result

/-- The actions of a run. -/
abbrev Action (ι : Type) := System.Action ι (Transactions.Effect Lock Query Call)
  (Transactions.Answer Rows CallAnswer) ApiError Result

variable (C D V lost) in
/-- The processes with their connections; `lost` says whether the answer of an executed `COMMIT` can
be lost. -/
abbrev system : System ι (Worlds ι) (Transactions.Effect Lock Query Call)
    (Transactions.Answer Rows CallAnswer) ApiError Result :=
  Transactions.system schema fault lost C.answers Heads.later fun p => p = indexEconomy D V

theorem sound : (protocol (discipline C D)).Sound (system (ι := ι) C D V lost) :=
  Transactions.sound (fun _ _ h => h) fun i p d n hp h => by
    rw [hp]
    exact Prog.wp_mono (indexEconomy_wp h) fun _ _ _ => trivial

/-- The tables before the first run. -/
def Tables.empty : Tables := ⟨[], none, []⟩

theorem holds_empty (w : Heads) : Holds C D Tables.empty w where
  start _ := rfl
  cursor _ h := by cases h
  events _ h := by cases h

/-- No event has the key of another. -/
theorem Holds.keys {t : Tables} {w : Heads} (h : Holds C D t w) :
    (t.events.map EventRow.key).Nodup := by
  cases hs : t.state with
  | none =>
    rw [h.start hs]
    exact List.nodup_nil
  | some s => exact ((h.events s hs).map EventRow.key).nodup_iff.2 (rowsIn_keys _ _)

/-- **The index.**  In every reachable state the events are those of the decodable logs from the first
block up to the cursor, without duplicates, and the cursor is at most the final block; from there on
the cursor does not move backwards, and events and observations are only appended.  A run that is
started there commits what its outcome says: it moves the cursor forward over the logs of the next
blocks if the cursor is behind the heads that the client reports, and it commits nothing if the lock
is busy or if it throws, unless the answer of its `COMMIT` was lost. -/
theorem index_runs {w₀ : Heads} {τ : List (Tr (State ι) (Action ι))} {s : State ι}
    (hrun : (system C D V lost).lts.Run (System.State.idle (World.idle Tables.empty w₀)) τ s) :
    Holds C D s.world.tables s.world.outside ∧ (s.world.tables.events.map EventRow.key).Nodup ∧
      (∀ τ' t, (system C D V lost).lts.Run s τ' t → Later D s.world.tables t.world.tables) ∧
      ∀ i, s.processes i = none → s.world.txs i = none → ∀ r t,
        (system C D V lost).Answers s i (indexEconomy D V) r t →
          ∃ change, Outcome C D lost s.world.outside.known r change ∧
            Contributes s.world t.world i change := by
  have hs : (protocol (discipline C D)).Holds (system C D V lost) s :=
    sound.run (Transactions.inv_idle (holds_empty w₀)) hrun
  refine ⟨hs.1.tables, Holds.keys hs.1.tables,
    fun τ' t hrun' => Transactions.run_later sound hs hrun', fun i hfree hidle r t h => ?_⟩
  exact Transactions.settled_of_answers sound hs rfl hfree hidle (indexEconomy_wp ⟨hs.1, rfl⟩) h

/-! ### A run on a chain -/

namespace Sample

/-- The policy contract has a log in block 3. -/
def chain : Chain where
  hash _ := js "0x9"
  timestamp n := n
  logs a n := if a = js "0xa" ∧ n = 3 then [⟨js "0xA", js "0x1", 0, [], []⟩] else []
  address a n m hm := by
    split at hm
    · obtain rfl := List.mem_singleton.1 hm
      rename_i h
      rw [h.1]
      decide +kernel
    · cases hm
  nodup a n := by
    split
    · exact List.nodup_singleton _
    · exact List.nodup_nil
  unique a n a' n' m hm m' hm' _ := by
    split at hm
    · split at hm'
      · rename_i h h'
        exact ⟨h.1.trans h'.1.symm, h.2.trans h'.2.symm⟩
      · cases hm'
    · cases hm

/-- Every log of the policy contract can be decoded. -/
def deployment : Deployment where
  chainId := 5042002
  address
    | .policy => js "0xA"
    | .settlement => js "0xB"
    | .ledger => js "0xC"
  fromBlock := 1
  decode
    | .policy, _, _ => some (js "PolicyChanged", .null)
    | _, _, _ => none
  address_inj c c' h := by
    cases c <;> cases c' <;> first | rfl | exact absurd h (by decide +kernel)

def views : Views where
  evidenceRoot := return js "0x2"
  project _ _ _ := return .null
  evidenceRoot_derives := .pure _
  project_derives _ _ _ := .pure _

def client (w : Heads) : (o : Call) → Except ApiError (CallAnswer o)
  | .getChainId => .ok deployment.chainId
  | .getBlock n => .ok (chain.block n)
  | .finalizedBlock =>
    if w.known ≤ w.final then .ok (chain.block w.final) else .error (.thrown .other)
  | .getLogs address first last => .ok (chain.logsIn address.toLowerCase first last)
  | .other _ => .ok .null

/-- The client changes nothing. -/
def reply (w : Heads) (o : Call) : Except ApiError (CallAnswer o) × Heads := (client w o, w)

theorem answers_reply (w : Heads) (o : Call) : chain.answers w o (reply w o).1 (reply w o).2 := by
  refine ⟨rfl, ?_⟩
  cases o with
  | getChainId => exact Or.inl ⟨_, rfl, trivial⟩
  | getBlock n => exact Or.inl ⟨_, rfl, fun _ => rfl⟩
  | finalizedBlock =>
    by_cases hw : w.known ≤ w.final
    · exact Or.inl ⟨_, by simp only [reply, client, if_pos hw], w.final, hw, le_rfl, rfl⟩
    · exact Or.inr ⟨.other, by simp only [reply, client, if_neg hw]⟩
  | getLogs address first last => exact Or.inl ⟨_, rfl, fun _ => rfl⟩
  | other request => exact Or.inl ⟨_, rfl, trivial⟩

theorem fault_other : fault (.thrown .other) := trivial

/-- Block 5 is final. -/
def start : Worlds Unit := World.idle Tables.empty ⟨5, 5⟩

/-- A run; with `loses` the answer of `COMMIT` is lost. -/
@[irreducible] def indexed (loses : Bool) : Except ApiError Result × Worlds Unit :=
  (indexEconomy deployment views).exec (Transactions.respond schema (.thrown .other) loses reply)
    start

theorem run_indexed : ∃ τ, (system chain deployment views False).lts.Run
    (System.State.idle start) τ ⟨(indexed false).2, fun _ => none⟩ := by
  unfold indexed
  exact System.run_exec (S := system chain deployment views False)
    (s := (System.State.idle start : State Unit)) (i := ())
    (Transactions.respond_work fault_other (fun h : false = true => by cases h) answers_reply) rfl
    ⟨rfl, rfl⟩

theorem answers_indexed : ∃ t : State Unit, (system chain deployment views True).Answers
    (System.State.idle start : State Unit) () (indexEconomy deployment views) (indexed true).1 t ∧
      t.world = (indexed true).2 := by
  have hr : (indexEconomy deployment views).exec
      (Transactions.respond schema (.thrown .other) true reply) start = indexed true := by
    unfold indexed
    with_reducible rfl
  exact Transactions.answers_respond fault_other (fun _ => trivial) answers_reply hr

end Sample

open Sample in
/-- A run that has indexed an event. -/
theorem index_runs_sample : ∃ s : State Unit,
    (s.world.tables.events.map EventRow.blockNumber) = [3] ∧
      Holds chain deployment s.world.tables s.world.outside := by
  obtain ⟨τ, hrun⟩ := run_indexed
  have hevents : ((indexed false).2.tables.events.map EventRow.blockNumber) = [3] := by
    decide +kernel
  exact ⟨⟨(indexed false).2, fun _ => none⟩, hevents, (index_runs hrun).1⟩

open Sample in
/-- A run that throws although its event is committed: the answer of `COMMIT` is lost. -/
theorem indexed_and_thrown : ∃ (τ : List (Tr (State Unit) (Action Unit))) (s : State Unit)
    (e : ApiError) (t : State Unit),
    (system chain deployment views True).lts.Run
      (System.State.idle (World.idle Tables.empty ⟨5, 5⟩)) τ s ∧
      (system chain deployment views True).Answers s () (indexEconomy deployment views) (.error e)
        t ∧
      s.world.tables.events = [] ∧ s.world.tables.state = none ∧
        t.world.tables.events ≠ [] ∧ t.world.tables.state ≠ none := by
  obtain ⟨t, hanswers, hworld⟩ := answers_indexed
  have hthrown : (indexed true).1.isOk = false := by decide +kernel
  have hevents : (indexed true).2.tables.events.length = 1 := by decide +kernel
  have hstate : (indexed true).2.tables.state.isSome = true := by decide +kernel
  obtain ⟨e, he⟩ : ∃ e, (indexed true).1 = .error e := by
    cases h : (indexed true).1 with
    | error e => exact ⟨e, rfl⟩
    | ok o =>
      rw [h] at hthrown
      cases hthrown
  rw [he] at hanswers
  refine ⟨[], System.State.idle start, e, t, .nil _, hanswers, rfl, rfl, ?_, ?_⟩
  · intro hnil
    rw [← hworld, hnil] at hevents
    cases hevents
  · intro hnone
    rw [← hworld, hnone] at hstate
    cases hstate

end Indexer

end Obolos
