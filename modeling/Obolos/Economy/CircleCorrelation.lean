import Obolos.Economy.CircleCalls

/-!
# Which transaction an operation is correlated with

Circle reports for every transaction the idempotency key it was created with.  One process calls
`durableOperation` and `reconcile`, and can be killed between any two effects.

`correlation_sound` : an operation only adopts transactions that were created with its own key, as
long as no submission answers with a transaction that was created with another one.  Such an answer
is kept, although the operation is not taken for submitted then, and `reconcile` looks up what it
refers to without a second look at the key (`foreign_transaction_adopted`).
-/

namespace Obolos

namespace Circle

open Executor

namespace Correlation

/-! ### What belongs to an operation -/

/-- The properties of a record that refer to a transaction. -/
def references : List String := ["id", "txHash", "userOpHash"]

/-- A value that refers to a transaction: it is not empty, or it is an id that is a text. -/
def refers (field : String) (x : Json) : Bool :=
  truthy (some x) || (decide (field = "id") && x.asStr.isSome)

/-- The idempotency keys that transactions were created with. -/
abbrev Ledger := String → Json → JsString

/-- Every transaction the record refers to was created with the key. -/
def Names (L : Ledger) (key : JsString) (r : Option Record) : Prop :=
  ∀ field ∈ references, ∀ x, Record.get field r = some x → refers field x = true →
    L field x = key

/-- The record comes with the key of every transaction it refers to. -/
def Reports (L : Ledger) (r : Record) : Prop :=
  ∀ field ∈ references, ∀ x, Record.get field (some r) = some x → refers field x = true →
    Record.get "idempotencyKey" (some r) = some (.str (L field x))

/-- What the submission of an operation returns: any record, or nothing that is one. -/
def submission : Json → Except JsError Record
  | .obj r => .ok r
  | _ => .error .other

/-- Circle reports the keys, and the chain the transaction of a user operation. -/
def Honest (L : Ledger) : (o : Effect) → Except JsError (Answer o) → Prop
  | .circle _, .ok data => ∀ values value tx, transactions data = some values → value ∈ values →
      sanitizeResult value = .ok tx → Reports L tx
  | .findFinalizedUserOperation _ userOpHash, .ok (some hash) =>
      userOpHash ≠ [] ∧ L "txHash" (.str hash) = L "userOpHash" (.str userOpHash)
  | _, _ => True

/-- The answer to a submission refers to no transaction that was created with another key. -/
def Own (L : Ledger) : (o : Effect) → Except JsError (Answer o) → Prop
  | .submit _ _ key, .ok answer => ∀ r, submission answer = .ok r → Names L key (some r)
  | _, _ => True

/-- The calls. -/
inductive Call (H : Host) : Exec Operation → Prop
  | durableOperation (name : JsString) (intent : Intent) (args : JsString → List JsString) :
      Call H (durableOperation H name intent (callback name args submission))
  | reconcile (config : CircleConfig) (name : JsString) : Call H (reconcile H config name)

/-- Every journalled operation refers to its own transactions. -/
def Good (L : Ledger) (j : Journal) : Prop :=
  ∀ name op, j.operations name = some op → Names L op.idempotencyKey op.result

/-- The proof obligation of a call. -/
def calls (L : Ledger) : Sequential Journal Effect Answer JsError where
  work j o r j' := (work j o r j' ∧ Honest L o r) ∧ Own L o r
  inv := Good L
  guar _ j' := Good L j'
  inv_of_guar _ _ _ h := h

variable {L : Ledger} {H : Host} {config : CircleConfig} {op op' : Operation} {tx r : Record}
  {key name : JsString} {intent : Intent} {j j' : Journal} {α : Type} {P : α → Prop}

theorem names_none : Names L key none := fun _ _ _ h _ => by cases h

/-- A record that comes with the key refers to its transactions. -/
theorem Reports.names (h : Reports L r)
    (hkey : Record.get "idempotencyKey" (some r) = some (.str key)) : Names L key (some r) := by
  intro field hfield x hx hrefers
  have heq := (h field hfield x hx hrefers).symm.trans hkey
  simpa using heq

/-- A record that refers to one transaction of the key refers to its transactions. -/
theorem Reports.names_of_ref (h : Reports L r) {field : String} (hfield : field ∈ references)
    {x : Json} (hx : Record.get field (some r) = some x) (hrefers : refers field x = true)
    (hL : L field x = key) : Names L key (some r) :=
  h.names (by rw [h field hfield x hx hrefers, hL])

theorem key_not_reference {field : String} (h : field ∈ references) :
    js field ≠ js "idempotencyKey" := by
  intro heq
  rw [js_inj.1 heq] at h
  revert h
  decide

/-- A reference of a merged record is one of the two records. -/
theorem get_merged {field : String} (hfield : field ∈ references) {result : Option Record} :
    Record.get field (some (Record.assign (Record.assign (result.getD []) tx)
      [(js "idempotencyKey", .str key)])) =
        (Record.get field (some tx)).or (Record.get field result) := by
  have hkey : Json.get (js field) [(js "idempotencyKey", Json.str key)] = none := by
    rw [Json.get, if_neg (key_not_reference hfield).symm]
    rfl
  show Json.get _ _ = _
  rw [get_assign, get_assign, hkey, Option.none_or]
  cases result <;> rfl

/-- An operation that adopts one of its own transactions. -/
theorem names_correlate (h : Names L op.idempotencyKey op.result)
    (htx : Names L op.idempotencyKey (some tx)) (hop : op.correlate tx = .ok op') :
    Names L op'.idempotencyKey op'.result := by
  unfold Operation.correlate at hop
  simp only at hop
  split at hop
  · cases hop
  · obtain rfl := Except.ok.inj hop
    intro field hfield x hx
    have hget : (Record.get field (some tx)).or (Record.get field op.result) = some x := by
      rw [← get_merged hfield]
      exact hx
    cases hfound : Record.get field (some tx) with
    | some y =>
      rw [hfound, Option.some_or] at hget
      obtain rfl := Option.some.inj hget
      exact htx field hfield y hfound
    | none =>
      rw [hfound, Option.none_or] at hget
      exact h field hfield x hget

/-- The transaction of its own user operation. -/
theorem names_onchain (h : Names L op.idempotencyKey op.result) {hash userOpHash : JsString}
    (huser : Record.get "userOpHash" op.result = some (.str userOpHash)) (hne : userOpHash ≠ [])
    (hhash : L "txHash" (.str hash) = L "userOpHash" (.str userOpHash)) :
    Names L op.idempotencyKey (op.onchain hash).result := by
  have hown : L "userOpHash" (.str userOpHash) = op.idempotencyKey :=
    h "userOpHash" (by decide) _ huser (by simp [refers, truthy, hne])
  intro field hfield x hx hrefers
  have hget : (Json.get (js field) [(js "txHash", Json.str hash),
      (js "chainCorrelation", .str (js "finalized-user-operation-event"))]).or
        (Record.get field op.result) = some x := by
    rw [← hx]
    show _ = Json.get _ _
    rw [get_assign]
    cases op.result <;> rfl
  by_cases hfieldHash : field = "txHash"
  · subst hfieldHash
    have hx' : x = .str hash := by simpa [Json.get] using hget.symm
    rw [hx', hhash, hown]
  · have hother : js "txHash" ≠ js field ∧ js "chainCorrelation" ≠ js field := by
      refine ⟨fun heq => hfieldHash (js_inj.1 heq).symm, fun heq => ?_⟩
      rw [← js_inj.1 heq] at hfield
      revert hfield
      decide
    rw [Json.get, if_neg hother.1, Json.get, if_neg hother.2, Json.get, Option.none_or] at hget
    exact h field hfield x hget hrefers

/-! ### Effects -/

/-- Only saving an operation changes the operations. -/
theorem operations_of_work {o : Effect} {r : Except JsError (Answer o)} (h : work j o r j')
    (ho : ∀ name op, o ≠ .saveOperation name op) : j'.operations = j.operations := by
  have hwrite : ∀ {x : Except JsError Unit} {k : Journal}, k.operations = j.operations →
      write j k x j' → j'.operations = j.operations := by
    intro x k hk hw
    cases x with
    | ok u => rw [hw, hk]
    | error e =>
      rcases hw with rfl | rfl
      · rfl
      · exact hk
  cases o with
  | saveOperation name op => exact absurd rfl (ho name op)
  | saveState orderId state => exact hwrite (k := j.setState orderId state) rfl h
  | saveReservation reservation =>
    exact hwrite (k := j.setReservation (some reservation)) rfl h
  | unlinkReservation => exact hwrite (k := j.setReservation none) rfl h
  | submit name args key =>
    obtain rfl : j' = j.record (.submitted name) := by cases r <;> exact h
    rfl
  | verifyPayment state =>
    cases r with
    | ok u =>
      obtain rfl : j' = j.record (.paymentVerified state.intent.orderId) := h
      rfl
    | error e => rw [show j' = j from h]
  | remark event =>
    obtain rfl : j' = j.record event := h.2
    rfl
  | readState orderId =>
    cases r with
    | ok state => rw [h.2]
    | error e => rw [show j' = j from h]
  | readReservation =>
    cases r with
    | ok state => rw [h.2]
    | error e => rw [show j' = j from h]
  | loadOperation name =>
    cases r with
    | ok state => rw [h.2]
    | error e => rw [show j' = j from h]
  | _ => cases r <;> rw [show j' = j from h]

/-- What an effect that saves no operation leaves behind. -/
theorem wp_effect {o : Effect} {P : Answer o → Prop} (hj : Good L j)
    (ho : ∀ name op, o ≠ .saveOperation name op)
    (hP : ∀ a j', work j o (.ok a) j' → Honest L o (.ok a) → Own L o (.ok a) → P a) :
    (perform o).wp (calls L).spec (Prog.post (Good L) fun a _ => P a) j := by
  refine Sequential.wp_await fun r j' h => ?_
  have hgood : Good L j' := by
    unfold Good
    rw [operations_of_work h.1.1 ho]
    exact hj
  cases r with
  | ok a => exact ⟨hgood, hgood, hP a j' h.1.1 h.1.2 h.2⟩
  | error e => exact ⟨hgood, hgood⟩

/-- Saving an operation that refers to its own transactions. -/
theorem wp_save (hj : Good L j) (hop : Names L op.idempotencyKey op.result) :
    (perform (.saveOperation name op)).wp (calls L).spec
      (Prog.post (Good L) fun _ _ => True) j := by
  refine Sequential.wp_await fun r j' h => ?_
  have hset : Good L (j.setOperation name op) := by
    intro name' op' hop'
    by_cases hname : name' = name
    · subst hname
      obtain rfl : op = op' := by simpa [Journal.setOperation] using hop'
      exact hop
    · exact hj name' op' (by simpa [Journal.setOperation, hname] using hop')
  have hwrite : write j (j.setOperation name op) r j' := h.1.1
  cases r with
  | ok u =>
    obtain rfl : j' = j.setOperation name op := hwrite
    exact ⟨hset, hset, trivial⟩
  | error e =>
    rcases hwrite with rfl | rfl
    · exact ⟨hj, hj⟩
    · exact ⟨hset, hset⟩

theorem wp_check {x : Except JsError α} (hj : Good L j) (hP : ∀ a, x = .ok a → P a) :
    (Prog.ofExcept x : Exec α).wp (calls L).spec (Prog.post (Good L) fun a _ => P a) j :=
  Prog.wp_ofExcept_post hj hP

theorem wp_fail {message : String} (hj : Good L j) :
    (fail message : Exec α).wp (calls L).spec (Prog.post (Good L) fun a _ => P a) j :=
  Prog.wp_throw.2 hj

theorem wp_return {a : α} (hj : Good L j) (ha : P a) :
    (pure a : Exec α).wp (calls L).spec (Prog.post (Good L) fun a _ => P a) j :=
  Prog.wp_pure.2 ⟨hj, ha⟩

/-- One program after another. -/
theorem wp_then {β : Type} {Q : β → Prop} {p : Exec α} {f : α → Exec β}
    (hp : p.wp (calls L).spec (Prog.post (Good L) fun a _ => P a) j)
    (hf : ∀ a j, Good L j → P a →
      (f a).wp (calls L).spec (Prog.post (Good L) fun b _ => Q b) j) :
    (p >>= f).wp (calls L).spec (Prog.post (Good L) fun b _ => Q b) j :=
  Prog.wp_seq hp (fun _ => id) hf

/-! ### Calls -/

theorem wp_locked {message : String} {body : Exec α} (hj : Good L j)
    (hbody : ∀ j, Good L j → body.wp (calls L).spec (Prog.post (Good L) fun a _ => P a) j) :
    (withOperationLock message name body).wp (calls L).spec
      (Prog.post (Good L) fun a _ => P a) j := by
  have hquiet : ∀ {o : Effect} {j}, (∀ name op, o ≠ .saveOperation name op) → Good L j →
      (perform o).wp (calls L).spec (Prog.post (Good L) fun _ _ => True) j :=
    fun ho hj => wp_effect hj ho fun _ _ _ _ _ => trivial
  refine wp_then (P := fun _ => True) (wp_check hj fun _ _ => trivial) fun _ j hj _ => ?_
  refine wp_then (hquiet (by rintro _ _ ⟨⟩) hj) fun _ j hj _ => ?_
  refine wp_then (P := fun _ => True) ?_ fun _ j hj _ => ?_
  · exact Prog.wp_catch (hquiet (by rintro _ _ ⟨⟩) hj) (fun _ _ => And.intro)
      fun _ _ hj => wp_fail hj
  · -- the lock file is removed whatever the outcome was
    rw [Prog.wp_finally]
    refine Prog.wp_mono (hbody j hj) fun r j hr => ?_
    have hgood : Good L j := by
      cases r with
      | ok a => exact hr.1
      | error e => exact hr
    have hrelease := wp_then (hquiet (o := .closeOperation name) (by rintro _ _ ⟨⟩) hgood)
      fun _ j hj _ => hquiet (o := .unlockOperation name) (by rintro _ _ ⟨⟩) hj
    refine Prog.wp_mono hrelease fun r' j' hr' => ?_
    cases r' with
    | error e => exact hr'
    | ok u =>
      cases r with
      | ok a => exact ⟨hr'.1, hr.2⟩
      | error e => exact hr'.1

theorem wp_conclude (hj : Good L j) (hop : Names L op.idempotencyKey op.result) :
    (conclude op).wp (calls L).spec (Prog.post (Good L) fun _ _ => True) j := by
  have hsave : ∀ {status : Status} {j}, Good L j →
      (perform (.saveOperation op.name { op with status })).wp (calls L).spec
        (Prog.post (Good L) fun _ _ => True) j := by
    intro status j hj
    have hsame : Names L (Operation.idempotencyKey { op with status }) op.result := hop
    exact wp_save hj hsame
  refine wp_then (P := fun _ => True) ?_ fun saved j hj _ => ?_
  · refine Prog.wp_ite (fun _ => ?_) fun _ => wp_return hj trivial
    refine Prog.wp_catch ?_ (fun _ _ => And.intro) fun _ _ hj => wp_return hj trivial
    exact wp_then (hsave hj) fun _ j hj _ => wp_return hj trivial
  · refine Prog.wp_ite (fun _ => wp_return hj trivial) fun _ => ?_
    exact wp_then (hsave hj) fun _ j hj _ => wp_fail hj

/-- What a submission answers refers to transactions of the operation. -/
theorem wp_submit (hj : Good L j) {args : JsString → List JsString} :
    (tryCatch (some <$> callback name args submission key) fun _ => return none).wp (calls L).spec
      (Prog.post (Good L) fun result _ => Names L key result) j := by
  refine Prog.wp_catch ?_ (fun _ _ => And.intro) fun _ _ hj => wp_return hj names_none
  rw [Prog.wp_map]
  have hcallback : (callback name args submission key).wp (calls L).spec
      (Prog.post (Good L) fun r _ => Names L key (some r)) j := by
    refine wp_then (wp_effect hj (by rintro _ _ ⟨⟩) fun _ _ _ _ hown => hown) ?_
    exact fun answer j hj hown => wp_check hj hown
  refine Prog.wp_mono hcallback fun r j hr => ?_
  cases r with
  | ok r => exact hr
  | error e => exact hr

theorem wp_durableOperation (hj : Good L j) {args : JsString → List JsString} :
    (durableOperation H name intent (callback name args submission)).wp (calls L).spec
      (Prog.post (Good L) fun _ _ => True) j := by
  refine wp_locked hj fun j hj => ?_
  refine wp_then (wp_effect (P := fun _ => True) hj (by rintro _ _ ⟨⟩) fun _ _ _ _ _ => trivial)
    fun found j hj _ => ?_
  cases found with
  | some previous =>
    refine Prog.wp_ite (fun _ => wp_fail hj) fun _ => ?_
    split
    · exact wp_return hj trivial
    · exact wp_fail hj
    · exact wp_fail hj
  | none =>
    refine wp_then (wp_effect (P := fun _ => True) hj (by rintro _ _ ⟨⟩) fun _ _ _ _ _ => trivial)
      fun key j hj _ => ?_
    refine wp_then (wp_save hj names_none) fun _ j hj _ => ?_
    exact wp_then (wp_submit hj) fun result j hj hresult => wp_conclude hj hresult

/-- A look at one transaction by its id. -/
theorem wp_detail (hj : Good L j) {id : JsString} (hid : L "id" (.str id) = key) :
    (detail H config id).wp (calls L).spec
      (Prog.post (Good L) fun tx _ => Names L key (some tx)) j := by
  refine wp_then (wp_effect hj (by rintro _ _ ⟨⟩) fun _ _ _ honest _ => honest)
    fun data j hj honest => ?_
  split
  · exact Prog.wp_throw.2 hj
  · rename_i value _ hvalues
    refine wp_then (wp_check hj fun tx htx => honest _ _ tx hvalues (by simp) htx)
      fun tx j hj hreports => ?_
    refine Prog.wp_ite (fun _ => ?_) fun hsame => ?_
    · exact wp_then (P := fun _ => False) (wp_fail hj) fun _ _ _ h => h.elim
    · simp only [Bool.or_eq_true, Bool.not_eq_true', not_or, Bool.not_eq_false] at hsame
      have heq : Record.get "id" (some tx) = some (.str id) := eq_of_strictEq hsame.1.1
      exact wp_return hj (hreports.names_of_ref (by decide) heq (by simp [refers, Json.asStr]) hid)
  · exact wp_fail hj

/-- A transaction that is found on a page belongs to the operation. -/
theorem names_of_match (h : Names L op.idempotencyKey op.result) (hreports : Reports L tx)
    (hmatch : op.isMatch tx = true) : Names L op.idempotencyKey (some tx) := by
  simp only [Operation.isMatch, Bool.or_eq_true, Bool.and_eq_true] at hmatch
  have hfield : ∀ (field : String), field ∈ references →
      truthy (Record.get field op.result) = true →
      Record.get field (some tx) = Record.get field op.result →
        Names L op.idempotencyKey (some tx) := by
    intro field hfield htruthy heq
    cases hx : Record.get field op.result with
    | none =>
      rw [hx] at htruthy
      cases htruthy
    | some x =>
      rw [hx] at htruthy heq
      have hrefers : refers field x = true := by simp [refers, htruthy]
      exact hreports.names_of_ref hfield heq hrefers (h field hfield x hx hrefers)
  rcases hmatch with (hkey | hid) | hhash
  · exact hreports.names (eq_of_strictEq hkey)
  · exact hfield "id" (by decide) hid.1 (eq_of_strictEq hid.2)
  · exact hfield "txHash" (by decide) hhash.1 (eq_of_strictEq hhash.2)

theorem wp_searchPages (hop : Names L op.idempotencyKey op.result) (hj : Good L j) (pages : ℕ)
    (cursor : JsString) : (searchPages config op pages cursor).wp (calls L).spec
      (Prog.post (Good L) fun found _ => Names L op.idempotencyKey found) j := by
  induction pages generalizing cursor j with
  | zero => exact wp_return hj names_none
  | succ pages ih =>
    unfold searchPages
    refine wp_then (wp_effect hj (by rintro _ _ ⟨⟩) fun _ _ _ honest _ => honest)
      fun data j hj honest => ?_
    split
    · exact wp_fail hj
    · rename_i values hvalues
      refine wp_then (wp_check (P := fun found => Names L op.idempotencyKey found) hj ?_)
        fun found j hj hfound => ?_
      · intro found hfound
        cases found with
        | none => exact names_none
        | some tx =>
          obtain ⟨value, hmem, hvalue, hmatch⟩ := Operation.findMatch_mem hfound
          exact names_of_match hop (honest values value tx hvalues hmem hvalue) hmatch
      · cases found with
        | some tx => exact wp_return hj hfound
        | none =>
          dsimp only
          split
          · exact wp_return hj names_none
          · refine Prog.wp_ite (fun _ => wp_return hj names_none) fun _ => ?_
            refine wp_then (P := fun _ => True) (wp_check hj fun _ _ => trivial)
              fun last j hj _ => ?_
            split
            · exact ih hj _
            · exact wp_return hj names_none

theorem wp_lookUp (hop : Names L op.idempotencyKey op.result) (hj : Good L j) :
    (lookUp H config op).wp (calls L).spec
      (Prog.post (Good L) fun found _ => Names L op.idempotencyKey found) j := by
  unfold lookUp
  split
  · rename_i id hid
    rw [Prog.wp_map]
    have hown := hop "id" (by decide) _ hid (by simp [refers, Json.asStr])
    refine Prog.wp_mono (wp_detail hj hown) fun r j hr => ?_
    cases r with
    | ok tx => exact hr
    | error e => exact hr
  · exact wp_searchPages hop hj 20 []

theorem wp_confirm (hop : Names L op.idempotencyKey op.result) (hj : Good L j) :
    (confirm H config name op).wp (calls L).spec (Prog.post (Good L) fun _ _ => True) j := by
  refine wp_then (P := fun _ => True) ?_ fun op j hj _ => ?_
  · unfold findOnchain
    split
    · rename_i userOpHash _ huser
      refine Prog.wp_ite (fun _ => ?_) fun _ => ?_
      · exact wp_then (P := fun _ => False) (wp_fail hj) fun _ _ _ h => h.elim
      · refine wp_then (wp_effect hj (by rintro _ _ ⟨⟩) fun _ _ _ honest _ => honest)
          fun found j hj honest => ?_
        cases found with
        | none => exact wp_return hj trivial
        | some hash =>
          have hnew : Names L (op.onchain hash).idempotencyKey (op.onchain hash).result :=
            names_onchain hop huser honest.1 honest.2
          exact wp_then (wp_save hj hnew) fun _ j hj _ => wp_return hj trivial
    · exact wp_return hj trivial
  · refine wp_then (P := fun _ => True) (wp_check hj fun _ _ => trivial) fun _ j hj _ => ?_
    refine wp_then (P := fun _ => True) ?_ fun _ j hj _ => wp_return hj trivial
    refine wp_then (P := fun _ => True) (wp_check hj fun _ _ => trivial) fun _ j hj _ => ?_
    refine wp_then (P := fun _ => True)
      (wp_effect hj (by rintro _ _ ⟨⟩) fun _ _ _ _ _ => trivial) fun _ j hj _ => ?_
    exact Prog.wp_ite (fun _ => wp_fail hj) fun _ => wp_return hj trivial

theorem wp_reconcile (hj : Good L j) :
    (reconcile H config name).wp (calls L).spec (Prog.post (Good L) fun _ _ => True) j := by
  refine wp_then (P := fun _ => True) (wp_check hj fun _ _ => trivial) fun _ j hj _ => ?_
  refine wp_then (P := fun _ => True) ?_ fun _ j hj _ => ?_
  · refine wp_then (P := fun _ => True)
      (wp_effect hj (by rintro _ _ ⟨⟩) fun _ _ _ _ _ => trivial) fun _ j hj _ => ?_
    exact Prog.wp_ite (fun _ => wp_fail hj) fun _ => wp_return hj trivial
  · have hload : (perform (.loadOperation name)).wp (calls L).spec
        (Prog.post (Good L) fun found _ => ∀ op, found = some op →
          Names L op.idempotencyKey op.result) j := by
      refine wp_effect hj (by rintro _ _ ⟨⟩) fun found j' hwork _ _ op hop => ?_
      exact hj name op (hwork.1.symm.trans hop)
    refine wp_then hload fun found j hj hfound => ?_
    cases found with
    | none => exact wp_fail hj
    | some op =>
      have hop := hfound op rfl
      refine Prog.wp_ite (fun _ => wp_return hj trivial) fun _ => ?_
      refine wp_then (wp_lookUp hop hj) fun found j hj htx => ?_
      cases found with
      | none => exact wp_confirm hop hj
      | some tx =>
        refine wp_then (wp_check hj fun op' hop' => names_correlate hop htx hop')
          fun op' j hj hop' => ?_
        refine wp_then (wp_save hj hop') fun _ j hj _ => ?_
        exact Prog.wp_ite (fun _ => wp_return hj trivial) fun _ => wp_confirm hop' hj

/-! ### Runs -/

variable (L H) in
/-- One process, with an honest Circle and an honest chain. -/
abbrev system : System Unit Journal Effect Answer JsError Operation :=
  Sequential.system (fun j o r j' => work j o r j' ∧ Honest L o r) (Call H)

variable (L) in
/-- The transition is no submission that answers with a transaction of another key. -/
def IsOwn (e : Transition) : Prop := ∀ o r, e.lab = .effect () o r → Own L o r

variable (L H) in
theorem sound : (calls L).protocol.Sound (Sequential.system (calls L).work (Call H)) := by
  refine Sequential.sound fun p j hp hj => ?_
  have htrue : ∀ {p : Exec Operation},
      p.wp (calls L).spec (Prog.post (Good L) fun _ _ => True) j →
        p.wp (calls L).spec (fun _ _ => True) j :=
    fun h => Prog.wp_mono h fun _ _ _ => trivial
  cases hp with
  | durableOperation name intent args => exact htrue (wp_durableOperation hj)
  | reconcile config name => exact htrue (wp_reconcile hj)

/-- **Correlation.**  In a run whose submissions all answer with transactions of their own, a
transaction that is recorded for an operation that is submitted or has failed was created with the
key of this operation. -/
theorem correlation_sound (hj : ∀ name, j.operations name = none) {t : State}
    {τ : List Transition} (h : (system L H).lts.Run (System.State.idle j) τ t)
    (hown : ∀ e ∈ τ, IsOwn L e) :
    ∀ name op, t.world.operations name = some op → op.status = .submitted ∨ op.status = .failed →
      ∀ field, field = "id" ∨ field = "txHash" → ∀ x, Record.get field op.result = some x →
        refers field x = true → L field x = op.idempotencyKey := by
  have hempty : Good L j := fun name op hop => by rw [hj name] at hop; cases hop
  have hrun := Sequential.restrict (C := fun _ o r => Own L o r) h
    fun e he o r hlab => hown e he o r hlab
  have hgood : Good L t.world := Sequential.run (sound L H) hempty hrun
  intro name op hop _ field hfield x hx hrefers
  have hmem : field ∈ references := by rcases hfield with rfl | rfl <;> decide
  exact hgood name op hop field hmem x hx hrefers

/-! ### Two operations -/

namespace Demo

/-- The first transaction was created with the key of the operation, the second was not. -/
def ledger : Ledger := fun _ x =>
  match x with
  | .str s => if s = js "second" then js "other" else js "key"
  | _ => js "key"

/-- Circle's record of a transaction. -/
def transaction (key id : String) : Json :=
  .obj [(js "id", .str (js id)), (js "idempotencyKey", .str (js key)),
    (js "blockchain", .str CHAIN), (js "sourceAddress", .str (js "0xa"))]

/-- The answers, when Circle returns this transaction. -/
def answer (tx : Json) (j : Journal) : (o : Effect) → Except JsError (Answer o) × Journal
  | .submit name _ key =>
    (if key = js "key" then .ok tx else .error .other, j.record (.submitted name))
  | o => Sample.answer [tx] j o

/-- The reports of Circle are about one of the two transactions. -/
def IsReport (tx : Json) : Prop :=
  tx = transaction "key" "first" ∨ tx = transaction "other" "second"

theorem reports {tx : Json} {r : Record} (h : IsReport tx) (hr : sanitizeResult tx = .ok r) :
    Reports ledger r := by
  have hone : ∀ key id : String, ledger "id" (.str (js id)) = js key →
      sanitizeResult (transaction key id) = .ok r → Reports ledger r := by
    intro key id hL hr
    have hrecord : r = [(js "id", .str (js id)), (js "idempotencyKey", .str (js key)),
        (js "blockchain", .str CHAIN), (js "sourceAddress", .str (js "0xa"))] := by
      simp [sanitizeResult, transaction, resultKeys, Json.get, Json.copied] at hr
      exact hr.symm
    subst hrecord
    intro field hfield x hx _
    simp only [references, List.mem_cons, List.not_mem_nil, or_false] at hfield
    rcases hfield with rfl | rfl | rfl
    · obtain rfl : Json.str (js id) = x := by simpa [Record.get, Json.get] using hx
      rw [hL]
      simp [Record.get, Json.get]
    · simp [Record.get, Json.get] at hx
    · simp [Record.get, Json.get] at hx
  rcases h with rfl | rfl
  · exact hone "key" "first" (by decide) hr
  · exact hone "other" "second" (by decide) hr

theorem answer_honest {tx : Json} (h : IsReport tx) (j : Journal) (o : Effect) :
    work j o (answer tx j o).1 (answer tx j o).2 ∧ Honest ledger o (answer tx j o).1 := by
  have hsample := Sample.work_answer [tx] j o
  cases o with
  | submit name args key =>
    simp only [answer]
    split <;> exact ⟨rfl, trivial⟩
  | circle args =>
    refine ⟨rfl, fun values value r hvalues hmem hr => ?_⟩
    obtain rfl : [tx] = values := by
      simpa [transactions, Json.prop, Json.asObj, Json.get, Json.asArr] using hvalues
    rw [List.mem_singleton.1 hmem] at hr
    exact reports h hr
  | _ => exact ⟨hsample, trivial⟩

/-- The first transaction is one of the operation. -/
theorem answer_own (j : Journal) (o : Effect) :
    Own ledger o (answer (transaction "key" "first") j o).1 := by
  cases o with
  | submit name args key =>
    simp only [answer]
    split
    · rename_i hkey
      subst hkey
      intro r hr
      obtain rfl := Except.ok.inj hr
      intro field hfield x hx _
      simp only [references, List.mem_cons, List.not_mem_nil, or_false] at hfield
      rcases hfield with rfl | rfl | rfl
      · obtain rfl : Json.str (js "first") = x := by simpa [Record.get, Json.get] using hx
        decide
      · simp [Record.get, Json.get] at hx
      · simp [Record.get, Json.get] at hx
    · trivial
  | _ => trivial

/-- An operation, and the callback that submits it. -/
def opened : Exec Operation :=
  durableOperation Host.plain (js "pay") ⟨js "execute", []⟩
    (callback (js "pay") (fun key => [key]) submission)

/-- A later look at the operation. -/
def reconciled : Exec Operation := reconcile Host.plain ⟨js "0xa"⟩ (js "pay")

/-- The journal after the submission. -/
@[irreducible] def submitted (tx : Json) : Journal := (opened.exec (answer tx) Journal.empty).2

/-- The journal after the reconciliation. -/
@[irreducible] def adopted (tx : Json) : Journal :=
  (reconciled.exec (answer tx) (submitted tx)).2

/-- The operation is submitted with this key and this transaction. -/
def has (j : Journal) (key id : String) : Bool :=
  (j.operations (js "pay")).any fun op => decide (op.status = .submitted) &&
    decide (op.idempotencyKey = js key) &&
    decide ((Record.get "id" op.result).bind Json.asStr = some (js id))

theorem has_iff {j : Journal} {key id : String} (h : has j key id = true) :
    ∃ op, j.operations (js "pay") = some op ∧ op.status = .submitted ∧
      op.idempotencyKey = js key ∧ Record.get "id" op.result = some (.str (js id)) := by
  obtain ⟨op, hop, h⟩ := (Option.any_eq_true _ _).1 h
  simp only [Bool.and_eq_true, decide_eq_true_eq] at h
  obtain ⟨x, hx, hstr⟩ := Option.bind_eq_some_iff.1 h.2
  cases x with
  | str s =>
    obtain rfl := Option.some.inj hstr
    exact ⟨op, hop, h.1.1, h.1.2, hx⟩
  | _ => cases hstr

end Demo

open Demo in
/-- The operation is submitted with its own transaction. -/
theorem correlation_first : ∃ op, (submitted (transaction "key" "first")).operations (js "pay") =
    some op ∧ ledger "id" (.str (js "first")) = op.idempotencyKey := by
  obtain ⟨τ, hτ⟩ : ∃ τ, (Sequential.system (calls ledger).work (Call Host.plain)).lts.Run
      (System.State.idle Journal.empty) τ
        ⟨submitted (transaction "key" "first"), fun _ => none⟩ := by
    unfold submitted
    exact System.run_exec (S := Sequential.system (calls ledger).work (Call Host.plain))
      (s := (System.State.idle Journal.empty : State)) (i := ())
      (fun j o => ⟨answer_honest (Or.inl rfl) j o, answer_own j o⟩) rfl (.durableOperation ..)
  obtain ⟨hrun, hown⟩ := Sequential.unrestrict (C := fun _ o r => Own ledger o r) hτ
  have hhas : has (submitted (transaction "key" "first")) "key" "first" = true := by decide +kernel
  obtain ⟨op, hop, hstatus, -, hid⟩ := has_iff hhas
  exact ⟨op, hop, correlation_sound (L := ledger) (H := Host.plain) (fun _ => rfl) hrun hown _ op
    hop (Or.inl hstatus) "id" (Or.inl rfl) _ hid rfl⟩

open Demo in
/-- **A transaction of another key is adopted**, when the submission answered with it. -/
theorem foreign_transaction_adopted : ∃ (L : Ledger) (τ : List Transition) (t : State)
    (op : Operation) (x : Json),
    (system L Host.plain).lts.Run (System.State.idle Journal.empty) τ t ∧
      t.world.operations (js "pay") = some op ∧ op.status = .submitted ∧
      Record.get "id" op.result = some x ∧ refers "id" x = true ∧ L "id" x ≠ op.idempotencyKey := by
  have hreport : IsReport (transaction "other" "second") := Or.inr rfl
  obtain ⟨τ, hτ⟩ : ∃ τ, (system ledger Host.plain).lts.Run (System.State.idle Journal.empty) τ
      ⟨submitted (transaction "other" "second"), fun _ => none⟩ := by
    unfold submitted
    exact System.run_exec (s := (System.State.idle Journal.empty : State)) (i := ())
      (answer_honest hreport) rfl (.durableOperation ..)
  obtain ⟨σ, hσ⟩ : ∃ σ, (system ledger Host.plain).lts.Run
      ⟨submitted (transaction "other" "second"), fun _ => none⟩ σ
      ⟨adopted (transaction "other" "second"), fun _ => none⟩ := by
    unfold adopted
    exact System.run_exec (s := (⟨submitted _, fun _ => none⟩ : State)) (i := ())
      (answer_honest hreport) rfl (.reconcile ..)
  have hhas : has (adopted (transaction "other" "second")) "key" "second" = true := by
    decide +kernel
  obtain ⟨op, hop, hstatus, hkey, hid⟩ := has_iff hhas
  refine ⟨ledger, _, _, op, _, hτ.append hσ, hop, hstatus, hid, rfl, ?_⟩
  rw [hkey]
  decide

end Correlation

end Circle

end Obolos
