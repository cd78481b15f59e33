import Obolos.Crash.Reach
import Obolos.Economy.ProductionTables

/-!
# Recording production accounts, over whole runs

Any sellers record statements, in any order and at the same time.  In every reachable state no
purchase is allocated beyond what was paid, and the links between orders have no cycle
(`production_accounts`); a statement is recorded once, repeated without effect, and not replaced by
another.
-/

namespace Obolos

namespace Production

open Transactions (World Committed In Out Holding Settled Contributes spec protocol wp_begin
  wp_lock_holding wp_rollback)

/-- The worlds of the processes `ι`. -/
abbrev Worlds (ι : Type) := World ι Lock Tables Index

variable {ι : Type} [DecidableEq ι] {Sv : Services} {D : Deployment} {lost : Prop}

/-- What process `i` is verified against. -/
abbrev obligations (lost : Prop) (i : ι) := spec discipline schema fault lost answers i

variable {i : ι} {n : List (Committed ι Tables)} {d : Worlds ι} {t₀ t₁ : Tables} {w₀ : Index}

/-- What a call knows that has the lock: the tables are `t₀`, it has made `t₁` of them, and the
outside is `w₀` or later. -/
abbrev Recording (i : ι) (n : List (Committed ι Tables)) := Holding discipline .accounts i n

/-! ### Statements -/

theorem wp_query {q : Query} {a : Rows q} {write : Tables → Tables}
    {Φ : Except ApiError (Rows q) → Worlds ι → Prop} (h : Recording i n t₀ w₀ t₁ d)
    (hrun : schema.run q t₁ = .ok (a, write))
    (hok : ∀ d', Recording i n t₀ w₀ (write t₁) d' → Φ (.ok a) d')
    (herror : ∀ e d', fault e → Out discipline i n d' → Φ (.error e) d') :
    (query q).wp (obligations lost i) Φ d :=
  h.statement protects hrun hok herror

theorem wp_readOutside {o : Read} {Φ : Except ApiError (ReadAnswer o) → Worlds ι → Prop}
    (h : Recording i n t₀ w₀ t₁ d)
    (hok : ∀ w d', w₀.later w → Recording i n t₀ w t₁ d' → Φ (.ok (w.read o)) d')
    (herror : ∀ e d', fault e → Out discipline i n d' → Φ (.error e) d') :
    (read o).wp (obligations lost i) Φ d := by
  refine h.call protects (fun w r w' hout => ?_) (fun a d' hw hanswer h => ?_)
    fun e w w' d' hout hd => ?_
  · rw [hout.1]
    exact Index.later.refl w
  · obtain ⟨w, heq, ha | ⟨e, -, he⟩⟩ := hanswer
    · cases ha
      rw [← heq]
      exact hok d'.outside d' hw h
    · cases he
  · obtain ⟨-, ha | ⟨e', he', heq⟩⟩ := hout
    · cases ha
    · cases heq
      exact herror e d' he' hd

theorem wp_finish {Φ : Except ApiError Unit → Worlds ι → Prop} (h : Recording i n t₀ w₀ t₁ d)
    (hkept : ∀ w, w₀.later w → Holds t₀ w → Holds t₁ w) (hlater : Later t₀ t₁)
    (hok : ∀ d', Out discipline i (n ++ [⟨i, t₀, t₁, true⟩]) d' → Φ (.ok ()) d')
    (hlost : lost → ∀ e d', fault e → Out discipline i (n ++ [⟨i, t₀, t₁, false⟩]) d' →
      Φ (.error e) d')
    (herror : ∀ e d', fault e → Out discipline i n d' → Φ (.error e) d') :
    commit.wp (obligations lost i) Φ d := by
  refine h.commit protects hkept hlater (fun k hk => ?_) hok hlost herror
  cases k with
  | accounts => exact absurd rfl hk
  | account orderId => exact trivial
  | evidence evidenceHash => exact trivial
  | allocation key => exact trivial

theorem wp_fail {α : Type} {status : ℕ} {message : JsString}
    {Φ : Except ApiError α → Worlds ι → Prop}
    (h : Φ (fail status message) d) :
    (check (fail status message) : Exec α).wp (obligations lost i) Φ d := by
  rw [check, Prog.wp_ofExcept]
  exact h

/-! ### The checks -/

theorem checkPurchase_row {user : User} {p : ProductionAccount} {row : Option OrderRow}
    {chainInput : Option ChainOrder} {chainOutput : ChainOrder} {found : OrderRow}
    (h : checkPurchase user p row chainInput chainOutput = .ok found) : row = some found := by
  unfold checkPurchase notAcquired fail at h
  split at h
  · split at h
    · split at h
      · cases h
      · cases hpositions : checkPositions ‹_› chainOutput with
        | error e =>
          rw [hpositions] at h
          cases h
        | ok u =>
          rw [hpositions] at h
          cases h
          rfl
    · cases h
  · cases h

theorem checkAmount_ok {allocated : ℕ} {item : Input} {row : OrderRow}
    (h : checkAmount allocated item row = .ok ()) : ∃ amount,
      readBigInt row.amountAtomic = some amount ∧ (allocated + item.amountAtomic : ℤ) ≤ amount := by
  unfold checkAmount fail at h
  split at h
  · cases h
  · split at h
    · cases h
    · exact ⟨_, ‹_›, not_lt.1 ‹_›⟩

/-- What the checks of an input establish. -/
theorem checkInput_wp {user : User} {p : ProductionAccount} {chainOrders : List ChainOrder}
    {chainOutput : ChainOrder} {item : Input} {Φ : Except ApiError Unit → Worlds ι → Prop}
    (h : Recording i n t₀ w₀ t₀ d)
    (hok : ∀ w d', w₀.later w → Consumable t₀ w p.orderId item → Recording i n t₀ w t₀ d' →
      Φ (.ok ()) d')
    (herror : ∀ e d', Out discipline i n d' → Φ (.error e) d') :
    (checkInput user p chainOrders chainOutput item).wp (obligations lost i) Φ d := by
  unfold checkInput
  rw [Prog.wp_bind]
  refine wp_readOutside h (fun w d hw h => ?_) fun e d _ => herror e d
  show Prog.wp _ _ _ _
  rw [Prog.wp_bind, check, Prog.wp_ofExcept]
  cases hrow : checkPurchase user p (w.read (.selectOrder item.orderId))
      (chainOrders.find? fun o => o.orderId = item.orderId) chainOutput with
  | error e => exact herror e d h.out
  | ok row =>
    have hfound : w.orders item.orderId = some row := checkPurchase_row hrow
    show Prog.wp _ _ _ _
    rw [Prog.wp_bind]
    refine wp_query h rfl (fun d h => ?_) fun e d _ => herror e d
    show Prog.wp _ _ _ _
    rw [Prog.wp_bind, check, Prog.wp_ofExcept]
    cases hamount : checkAmount (t₀.allocated item.orderId) item row with
    | error e => exact herror e d h.out
    | ok u =>
      obtain ⟨amount, hread, hle⟩ := checkAmount_ok hamount
      show Prog.wp _ _ _ _
      rw [Prog.wp_bind]
      refine wp_query h rfl (fun d h => ?_) fun e d _ => herror e d
      show Prog.wp _ _ _ _
      refine Prog.wp_ite (fun _ => wp_fail (herror _ d h.out)) fun hcycle => ?_
      exact Prog.wp_pure.2 (hok w d hw
        ⟨⟨amount, ⟨row, hfound, hread⟩, hle⟩, Bool.eq_false_iff.2 hcycle⟩ h)

theorem checkInputs_wp {user : User} {p : ProductionAccount} {chainOrders : List ChainOrder}
    {chainOutput : ChainOrder} {items : List Input} {Φ : Except ApiError Unit → Worlds ι → Prop}
    (h : Recording i n t₀ w₀ t₀ d)
    (hok : ∀ w d', w₀.later w → (∀ item ∈ items, Consumable t₀ w p.orderId item) →
      Recording i n t₀ w t₀ d' → Φ (.ok ()) d')
    (herror : ∀ e d', Out discipline i n d' → Φ (.error e) d') :
    (checkInputs user p chainOrders chainOutput items).wp (obligations lost i) Φ d := by
  induction items generalizing w₀ d with
  | nil => exact Prog.wp_pure.2 (hok w₀ d (.refl _) (fun _ hitem => by cases hitem) h)
  | cons item items ih =>
    unfold checkInputs
    rw [Prog.wp_bind]
    refine checkInput_wp h (fun w d hw hitem h => ?_) herror
    refine ih h fun w' d' hw' hitems h => hok w' d' (hw.trans hw') (fun item' hitem' => ?_) h
    rcases List.mem_cons.1 hitem' with rfl | hmem
    · exact hitem.later hw'
    · exact hitems item' hmem

/-! ### The rows -/

/-- A statement that inserts a row. -/
theorem wp_insert {q : Query} {Φ : Except ApiError (Rows q) → Worlds ι → Prop}
    (h : Recording i n t₀ w₀ t₁ d)
    (hok : ∀ a write d', schema.run q t₁ = .ok (a, write) → Recording i n t₀ w₀ (write t₁) d' →
      Φ (.ok a) d')
    (herror : ∀ e d', Out discipline i n d' → Φ (.error e) d') :
    (query q).wp (obligations lost i) Φ d := by
  cases hrun : schema.run q t₁ with
  | ok r => exact h.statement protects hrun (fun d' h => hok r.1 r.2 d' hrun h) fun e d' _ => herror e d'
  | error e => exact h.refused protects hrun (herror e) fun e d' _ => herror e d'

theorem insertInputs_wp {orderId : JsString} {items : List Input}
    {Φ : Except ApiError Unit → Worlds ι → Prop} (h : Recording i n t₀ w₀ t₁ d)
    (hok : ∀ d', Recording i n t₀ w₀
      { t₁ with allocations := t₁.allocations ++ allocationsOf orderId items } d' → Φ (.ok ()) d')
    (herror : ∀ e d', Out discipline i n d' → Φ (.error e) d') :
    (insertInputs orderId items).wp (obligations lost i) Φ d := by
  induction items generalizing t₁ d with
  | nil =>
    refine Prog.wp_pure.2 (hok d ?_)
    rw [allocationsOf, List.map_nil, List.append_nil]
    exact h
  | cons item items ih =>
    unfold insertInputs
    rw [Prog.wp_bind]
    refine wp_insert h (fun a write d hrun h => ?_) herror
    simp only [schema] at hrun
    split at hrun
    · cases hrun
    · cases hrun
      refine ih h fun d' h => hok d' ?_
      rw [List.append_assoc] at h
      exact h

/-! ### Outcomes -/

/-- **What a call has committed.** -/
def Outcome (lost : Prop) (record : SignedAccount) :
    Except ApiError Recorded → Option (Transactions.Change Tables) → Prop
  | .ok r, change => r.evidenceHash = record.evidenceHash ∧ ∃ t t', change = some ⟨t, t', true⟩ ∧
      if r.replayed then t' = t ∧ ∃ a ∈ t.accounts, a.orderId = record.payload.orderId ∧
        a.evidenceHash = record.evidenceHash
      else t' = t.record record.row record.payload.inputs ∧
        record.payload.orderId ∉ t.accounts.map (·.orderId)
  | .error _, change => ∀ c, change = some c → lost ∧ c.answered = false

variable {user : User} {record : SignedAccount}

theorem settled_error {e : ApiError} (h : Out discipline i n d) :
    Settled discipline i n (Outcome lost record) (.error e) d :=
  .of_out h fun c hc => by cases hc

/-- A statement for an order that has none. -/
theorem recordNew_wp (h : Recording i n t₀ w₀ t₀ d) (ht : Holds t₀ w₀)
    (hnew : record.payload.orderId ∉ t₀.accounts.map (·.orderId))
    (hnodup : (record.payload.inputs.map Input.orderId).Nodup)
    (hself : record.payload.orderId ∉ record.payload.inputs.map Input.orderId) :
    (recordNew user record).wp (obligations lost i)
      (Settled discipline i n (Outcome lost record)) d := by
  have herror : ∀ e d', Out discipline i n d' →
      Settled discipline i n (Outcome lost record) (.error e) d' := fun _ _ => settled_error
  unfold recordNew
  rw [Prog.wp_bind]
  refine wp_readOutside h (fun w d hw h => ?_) fun e d _ => herror e d
  replace ht := ht.later hw
  show Prog.wp _ _ _ _
  rw [Prog.wp_bind]
  refine wp_readOutside h (fun w' d hw h => ?_) fun e d _ => herror e d
  replace ht := ht.later hw
  generalize w.read .selectSnapshot = chainOrders
  generalize w'.read (.selectOrder record.payload.orderId) = output
  show Prog.wp _ _ _ _
  cases (chainOrders.getD []).find? fun o => o.orderId = record.payload.orderId with
  | none => exact wp_fail (herror _ d h.out)
  | some chainOutput =>
    show Prog.wp _ _ _ _
    rw [Prog.wp_bind, check, Prog.wp_ofExcept]
    cases checkOutput record.payload output chainOutput with
    | error e => exact herror e d h.out
    | ok u =>
      show Prog.wp _ _ _ _
      rw [Prog.wp_bind]
      refine checkInputs_wp h (fun w d hw hinputs h => ?_) herror
      -- What the inputs were checked against holds until the transaction ends.
      replace ht := ht.later hw
      show Prog.wp _ _ _ _
      rw [Prog.wp_bind]
      refine wp_insert h (fun a write d hrun h => ?_) herror
      simp only [schema] at hrun
      split at hrun
      -- The primary key refuses an order that is on record.
      · cases hrun
      · cases hrun
        show Prog.wp _ _ _ _
        rw [Prog.wp_bind]
        refine insertInputs_wp h (fun d h => ?_) herror
        show Prog.wp _ _ _ _
        rw [Prog.wp_bind]
        have hkept : ∀ w', w.later w' → Holds (t₀.record record.row record.payload.inputs) w' :=
          fun w' hw' => (ht.later hw').record hnew hnodup hself
            fun item hitem => (hinputs item hitem).later hw'
        refine wp_finish h (fun w' hw' _ => hkept w' hw') (later_record _ _ _) (fun d hout => ?_)
          (fun hlost e d _ hout => ?_) fun e d _ => herror e d
        · exact Prog.wp_pure.2 (.of_commit hout ⟨rfl, t₀, _, rfl, rfl, hnew⟩)
        · exact .of_commit hout fun c hc => by cases hc; exact ⟨hlost, rfl⟩

/-- **One call**, after its statement was authenticated. -/
theorem transaction_wp
    (h : In discipline i ⟨[], fun t => t, false⟩ (fun _ _ => True) n d)
    (hnodup : (record.payload.inputs.map Input.orderId).Nodup)
    (hself : record.payload.orderId ∉ record.payload.inputs.map Input.orderId) :
    (transaction user record).wp (obligations lost i)
      (Settled discipline i n (Outcome lost record)) d := by
  unfold transaction
  rw [Prog.wp_bind]
  refine wp_lock_holding h (fun _ _ _ _ _ _ _ _ h => h) (fun _ => rfl) (fun _ => rfl)
    (fun d ht _ h => ?_) fun e d _ => settled_error
  generalize d.tables = t₀ at ht h
  generalize d.outside = w₀ at ht h
  show Prog.wp _ _ _ _
  rw [Prog.wp_bind]
  refine wp_query h rfl (fun d h => ?_) fun e d _ => settled_error
  cases hold : t₀.accounts.find? fun a => a.orderId = record.payload.orderId with
  | none =>
    refine recordNew_wp h ht (fun hmem => ?_) hnodup hself
    obtain ⟨a, ha, hid⟩ := List.mem_map.1 hmem
    simpa [hid] using List.find?_eq_none.1 hold a ha
  | some old =>
    show Prog.wp _ _ _ _
    refine Prog.wp_ite (fun _ => wp_fail (settled_error h.out)) fun hsame => ?_
    rw [Prog.wp_bind]
    have houtcome : Outcome lost record (.ok ⟨record.evidenceHash, true⟩) (some ⟨t₀, t₀, true⟩) :=
      ⟨rfl, t₀, t₀, rfl, rfl, old, List.mem_of_find?_eq_some hold,
        by simpa using List.find?_some hold, not_not.1 hsame⟩
    refine wp_finish h (fun _ _ ht => ht) (.refl _) (fun d hout => ?_)
      (fun hlost e d _ hout => ?_) fun e d _ => settled_error
    · exact Prog.wp_pure.2 (.of_commit hout houtcome)
    · exact .of_commit hout fun c hc => by cases hc; exact ⟨hlost, rfl⟩

/-! ### An order that has a statement -/

variable {Φ : Except ApiError Recorded → Option (Transactions.Change Tables) → Prop}
  {P : Tables → Index → Prop}

/-- `BEGIN`, the transaction, and the `catch` block. -/
theorem attempt_wp {p : Exec Recorded} (h : Out discipline i n d)
    (hP : Transactions.Stable discipline [] P) (hd : P d.tables d.outside)
    (hbegin : ∀ e, fault e → Φ (.error e) none)
    (hfault : ∀ e e' change, Φ (.error e) change → fault e' → Φ (.error e') change)
    (hp : ∀ d, In discipline i ⟨[], fun t => t, false⟩ P n d →
      p.wp (obligations lost i) (Settled discipline i n Φ) d) :
    (do
      begin
      tryCatch p abandon : Exec Recorded).wp (obligations lost i) (Settled discipline i n Φ) d := by
  rw [Prog.wp_bind]
  refine wp_begin h hP hd (fun d h => ?_) fun e d he hout => .of_out hout (hbegin e he)
  show Prog.wp _ _ _ _
  rw [Prog.wp_tryCatch]
  refine Prog.wp_mono (hp d h) fun r d hsettled => ?_
  cases r with
  | ok o => exact hsettled
  | error e =>
    obtain ⟨change, hout, hΦ⟩ := hsettled
    show (abandon e).wp _ _ _
    unfold abandon
    rw [Prog.wp_bind]
    refine wp_rollback hout (fun d hout => ?_) fun e' d he hout =>
      ⟨change, hout, hfault e e' change hΦ he⟩
    exact Prog.wp_throw.2 ⟨change, hout, hΦ⟩

/-- **What a call has committed**, and that it succeeds only with an authentic statement. -/
def Called (Sv : Services) (D : Deployment) (lost : Prop) (now : ℕ) (input : Json)
    (r : Except ApiError Recorded) (change : Option (Transactions.Change Tables)) : Prop :=
  (∃ record, authenticateProductionAccount Sv D now input = .ok record ∧
    Outcome lost record r change) ∨ r.isOk = false ∧ change = none

variable {now : ℕ} {input : Json}

theorem recordProductionAccount_wp (h : Out discipline i n d) :
    (recordProductionAccount Sv D user now input).wp (obligations lost i)
      (Settled discipline i n (Called Sv D lost now input)) d := by
  unfold recordProductionAccount authentic
  rw [Prog.wp_bind, check, Prog.wp_ofExcept]
  cases hrecord : authenticateProductionAccount Sv D now input with
  | error e => exact .of_out h (Or.inr ⟨rfl, rfl⟩)
  | ok record =>
    obtain ⟨hnodup, hself⟩ := authenticate_inputs hrecord
    show Prog.wp _ _ _ _
    refine Prog.wp_ite (fun _ => wp_fail (.of_out h (Or.inr ⟨rfl, rfl⟩))) fun _ => ?_
    refine Prog.wp_mono (attempt_wp (P := fun _ _ => True) h (fun _ _ _ _ _ _ _ _ h => h) trivial
      (fun _ _ c hc => by cases hc) (fun _ _ _ h _ => h) fun d h => transaction_wp h hnodup hself)
      fun r d hsettled => ?_
    obtain ⟨change, hout, houtcome⟩ := hsettled
    exact ⟨change, hout, Or.inl ⟨record, hrecord, houtcome⟩⟩

/-- The programs: the calls of any users, at any time. -/
inductive Program (Sv : Services) (D : Deployment) : Exec Recorded → Prop
  | record (user : User) (now : ℕ) (input : Json) :
      Program Sv D (recordProductionAccount Sv D user now input)

/-- The states of a run. -/
abbrev State (ι : Type) := System.State ι (Worlds ι) (Transactions.Effect Lock Query Read)
  (Transactions.Answer Rows ReadAnswer) ApiError Recorded

/-- The actions of a run. -/
abbrev Action (ι : Type) := System.Action ι (Transactions.Effect Lock Query Read)
  (Transactions.Answer Rows ReadAnswer) ApiError Recorded

variable (Sv D lost) in
/-- The processes with their connections; `lost` says whether the answer of an executed `COMMIT` can
be lost. -/
abbrev system : System ι (Worlds ι) (Transactions.Effect Lock Query Read)
    (Transactions.Answer Rows ReadAnswer) ApiError Recorded :=
  Transactions.system schema fault lost answers Index.later (Program Sv D)

theorem sound : (protocol discipline).Sound (system (ι := ι) Sv D lost) :=
  Transactions.sound (fun _ _ h => h) fun _ _ _ _ hp h => by
    cases hp with
    | record user now input =>
      exact Prog.wp_mono (recordProductionAccount_wp h) fun _ _ _ => trivial

/-- The tables before anything was recorded. -/
def Tables.empty : Tables := ⟨[], []⟩

theorem holds_empty (w : Index) : Holds Tables.empty w where
  accounts := List.nodup_nil
  outputs _ h := by cases h
  bound _ h := by cases h
  acyclic := EdgeList.acyclic_nil

namespace Sample

def services : Services where
  host := .plain
  verifyMessage _ _ _ := true
  errorMessage _ := js "Invalid accounting statement."

def deployment : Deployment := ⟨Address.text 1, Address.text 2⟩

def seller : User := ⟨js "seller", Address.text 3⟩

/-- Order 7 is a sale of the seller, order 8 its purchase. -/
def index : Index where
  orders id :=
    if id = Bytes32.text 7 then some ⟨js "buyer", Address.text 3, Address.text 1, Address.text 2,
      js "50", Bytes32.text 70, some (Bytes32.text 71)⟩
    else if id = Bytes32.text 8 then some ⟨js "seller", Address.text 4, Address.text 1,
      Address.text 2, js "10", Bytes32.text 80, some (Bytes32.text 81)⟩
    else none
  chainOrders := some
    [⟨Bytes32.text 7, Address.text 3, some (Bytes32.text 71), Bytes32.text 70, true, true, some 5,
        some 6, some (js "5"), some 0, some (js "6"), some 0⟩,
      ⟨Bytes32.text 8, Address.text 4, some (Bytes32.text 81), Bytes32.text 80, true, true, some 2,
        some 3, some (js "2"), some 0, some (js "3"), some 0⟩]

/-- The whole purchase is consumed. -/
def payload : Json :=
  .obj
    [(js "protocol", .str (js "obolos.production-account.v1")), (js "chainId", .num chainId),
      (js "settlement", .str (Address.text 1)), (js "ledger", .str (Address.text 2)),
      (js "orderId", .str (Bytes32.text 7)), (js "transactionHash", .str (Bytes32.text 70)),
      (js "outputHash", .str (Bytes32.text 71)), (js "seller", .str (Address.text 3)),
      (js "issuedAt", .num 10),
      (js "inputs", .arr [.obj [(js "orderId", .str (Bytes32.text 8)),
        (js "amountAtomic", .str (js "10"))]]),
      (js "externalIntermediateAtomic", .str (js "0")), (js "gasAtomic", .str (js "0")),
      (js "inferenceAtomic", .str (js "0")), (js "otherResourceAtomic", .str (js "0")),
      (js "allIntermediateInputsIncluded", .bool true), (js "allResourcesIncluded", .bool true),
      (js "sourceReference", .str (js "https://x")), (js "sourceHash", .str (Bytes32.text 9))]

def statement : Json :=
  .obj [(js "payload", payload), (js "signature", .str (js "0x" ++ List.replicate 130 48))]

def client (w : Index) (o : Read) : Except ApiError (ReadAnswer o) × Index := (.ok (w.read o), w)

theorem answers_client (w : Index) (o : Read) : answers w o (client w o).1 (client w o).2 :=
  ⟨rfl, Or.inl rfl⟩

theorem fault_other : fault (.thrown .other) := trivial

def start : Worlds Unit := World.idle Tables.empty index

/-- The statement is recorded; with `loses` the answer of `COMMIT` is lost. -/
@[irreducible] def recorded (loses : Bool) : Except ApiError Recorded × Worlds Unit :=
  (recordProductionAccount services deployment seller 20 statement).exec
    (Transactions.respond schema (.thrown .other) loses client) start

/-- It is repeated after a day. -/
@[irreducible] def late : Except ApiError Recorded × Worlds Unit :=
  (recordProductionAccount services deployment seller 90000 statement).exec
    (Transactions.respond schema (.thrown .other) true client) (recorded true).2

theorem run_recorded : ∃ τ, (system services deployment False).lts.Run
    (System.State.idle start) τ ⟨(recorded false).2, fun _ => none⟩ := by
  unfold recorded
  exact System.run_exec (S := system services deployment False)
    (s := (System.State.idle start : State Unit)) (i := ())
    (Transactions.respond_work fault_other (fun h : false = true => by cases h) answers_client) rfl
    ⟨rfl, .record seller 20 statement⟩

end Sample

end Production

end Obolos
