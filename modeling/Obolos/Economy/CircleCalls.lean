import Obolos.Economy.Circle
import Obolos.Crash.Sequential
import Obolos.Crash.Reach

/-!
# Calls of `durableOperation` and `reconcile`

One process after the other calls `durableOperation` and `reconcile` on a directory of operations;
each can be killed between any two effects, and its lock file is removed then.  The callbacks, the
names and the intents are arbitrary, and so is everything that Circle and the chain answer.

`operation_calls` : an operation is submitted at most once, and its identity is permanent.  A
transaction hash that was recorded is permanent as long as Circle never reports the transaction of
such an operation with an empty hash: `correlate` takes the empty hash for one.
-/

namespace Obolos

namespace Circle

open Executor

/-! ### Records -/

theorem get_append (key : JsString) (r r' : Record) :
    Json.get key (r ++ r') = (Json.get key r).or (Json.get key r') := by
  induction r with
  | nil => rfl
  | cons entry r ih =>
    obtain ⟨k, x⟩ := entry
    simp only [List.cons_append, Json.get]
    split_ifs
    · rfl
    · exact ih

theorem get_mapped (key : JsString) (r r' : Record) :
    Json.get key (r.map fun entry => (entry.1, (Json.get entry.1 r').getD entry.2)) =
      (Json.get key r).map fun x => (Json.get key r').getD x := by
  induction r with
  | nil => rfl
  | cons entry r ih =>
    obtain ⟨k, x⟩ := entry
    simp only [List.map_cons, Json.get]
    split_ifs with hk
    · rw [hk]; rfl
    · exact ih

theorem get_filtered (key : JsString) (r r' : Record) (h : Json.get key r = none) :
    Json.get key (r'.filter fun entry => (Json.get entry.1 r).isNone) = Json.get key r' := by
  induction r' with
  | nil => rfl
  | cons entry r' ih =>
    obtain ⟨k, x⟩ := entry
    rw [List.filter_cons]
    by_cases hk : k = key
    · subst hk
      rw [if_pos (by rw [h]; rfl)]
      simp [Json.get]
    · split_ifs
      · simp only [Json.get, if_neg hk]; exact ih
      · simp only [Json.get, if_neg hk]; exact ih

/-- The properties of `{...r, ...r'}`. -/
theorem get_assign (key : JsString) (r r' : Record) :
    Json.get key (Record.assign r r') = (Json.get key r').or (Json.get key r) := by
  rw [Record.assign, get_append, get_mapped]
  cases h : Json.get key r with
  | none => rw [get_filtered key r r' h]; simp
  | some x => cases Json.get key r' <;> rfl

theorem eq_of_strictEq {a b : Option Json} (h : strictEq a b = true) : a = b := by
  unfold strictEq at h
  split at h
  · rfl
  · rfl
  · rw [beq_iff_eq.1 h]
  · rw [beq_iff_eq.1 h]
  · rw [beq_iff_eq.1 h]
  · cases h

namespace Operation

/-- What is permanent of an operation. -/
structure Same (op op' : Operation) : Prop where
  name : op'.name = op.name
  intent : op'.intent = op.intent
  intentHash : op'.intentHash = op.intentHash
  idempotencyKey : op'.idempotencyKey = op.idempotencyKey

/-- A recorded transaction hash is still the recorded one. -/
def KeepsHash (op op' : Operation) : Prop :=
  truthy (Record.get "txHash" op.result) = true →
    Record.get "txHash" op'.result = Record.get "txHash" op.result

/-- The transaction may be found for the operation. -/
def Belongs (op : Operation) (tx : Record) : Prop :=
  op.isMatch tx = true ∨
    ∃ id, Record.get "id" op.result = some (.str id) ∧ Record.get "id" tx = some (.str id)

/-- The operation has a transaction hash, and the transaction comes with an empty one. -/
def Empties (op : Operation) (tx : Record) : Prop :=
  truthy (Record.get "txHash" op.result) = true ∧
    ∃ hash, Record.get "txHash" tx = some hash ∧ truthy (some hash) = false

variable {op op' op'' : Operation} {tx : Record}

theorem Same.refl (op : Operation) : op.Same op := ⟨rfl, rfl, rfl, rfl⟩

theorem Same.trans (h : op.Same op') (h' : op'.Same op'') : op.Same op'' :=
  ⟨h'.name.trans h.name, h'.intent.trans h.intent, h'.intentHash.trans h.intentHash,
    h'.idempotencyKey.trans h.idempotencyKey⟩

theorem KeepsHash.trans (h : op.KeepsHash op') (h' : op'.KeepsHash op'') : op.KeepsHash op'' := by
  intro hknown
  rw [h' (by rw [h hknown]; exact hknown), h hknown]

/-- A transaction that was found on a page is one of the page, and matches. -/
theorem findMatch_mem {values : List Json} (h : op.findMatch values = .ok (some tx)) :
    ∃ value ∈ values, sanitizeResult value = .ok tx ∧ op.isMatch tx = true := by
  induction values with
  | nil => cases h
  | cons value rest ih =>
    rw [findMatch] at h
    cases hvalue : sanitizeResult value with
    | error e => rw [hvalue] at h; cases h
    | ok found =>
      rw [hvalue] at h
      simp only [bind, Except.bind] at h
      split_ifs at h with hmatch
      · obtain rfl := Option.some.inj (Except.ok.inj h)
        exact ⟨value, List.mem_cons_self, hvalue, hmatch⟩
      · obtain ⟨value', hmem, hrest⟩ := ih h
        exact ⟨value', List.mem_cons_of_mem _ hmem, hrest⟩

/-- Correlating keeps the identity, and a recorded hash unless it is emptied. -/
theorem correlate_keeps (h : op.correlate tx = .ok op') :
    op.Same op' ∧ (¬ op.Empties tx → op.KeepsHash op') := by
  unfold correlate at h
  simp only at h
  split at h
  · cases h
  · rename_i hconflict
    obtain rfl := Except.ok.inj h
    refine ⟨⟨rfl, rfl, rfl, rfl⟩, fun hempties hknown => ?_⟩
    have hkey : Json.get (js "txHash") [(js "idempotencyKey", Json.str op.idempotencyKey)] = none := by
      rw [Json.get, if_neg (by decide)]; rfl
    have hget : Record.get "txHash" (some (Record.assign (Record.assign (op.result.getD []) tx)
        [(js "idempotencyKey", .str op.idempotencyKey)])) =
        (Record.get "txHash" (some tx)).or (Record.get "txHash" op.result) := by
      show Json.get _ _ = _
      rw [get_assign, get_assign, hkey, Option.none_or]
      cases op.result <;> rfl
    show Record.get "txHash" (some _) = _
    rw [hget]
    cases hfound : Record.get "txHash" (some tx) with
    | none => rfl
    | some hash =>
      -- a hash that is not empty was compared with the recorded one
      have htruthy : truthy (some hash) = true := by
        by_contra hfalse
        exact hempties ⟨hknown, hash, hfound, by simpa using hfalse⟩
      have heq : strictEq (Record.get "txHash" op.result) (some hash) = true := by
        by_contra hne
        refine hconflict ?_
        rw [hknown]
        have hsome : Record.get "txHash" tx = some hash := hfound
        rw [hsome, htruthy]
        simpa using hne
      exact (eq_of_strictEq heq).symm

end Operation

/-! ### The calls -/

/-- A callback of `durableOperation`: one submission, whose answer is read in some way. -/
def callback (name : JsString) (args : JsString → List JsString)
    (result : Json → Except JsError Record) (key : JsString) : Exec Record := do
  let answer ← perform (.submit name (args key) key)
  Prog.ofExcept (result answer)

/-- The calls on a directory of operations. -/
inductive Call (H : Host) : Exec Operation → Prop
  | durableOperation (name : JsString) (intent : Intent) (args : JsString → List JsString)
      (result : Json → Except JsError Record) :
      Call H (durableOperation H name intent (callback name args result))
  | reconcile (config : CircleConfig) (name : JsString) : Call H (reconcile H config name)

/-- No answer of Circle's that arrives while the operations are `j` comes with an empty hash for
one that has a hash. -/
def Faithful (j : Journal) : (o : Effect) → Except JsError (Answer o) → Prop
  | .circle _, .ok data => ∀ name op values value tx, j.operations name = some op →
      transactions data = some values → value ∈ values → sanitizeResult value = .ok tx →
      op.Belongs tx → ¬ op.Empties tx
  | _, _ => True

/-- Everything that is submitted is journalled, and was submitted once. -/
structure Once (j : Journal) : Prop where
  journalled : ∀ name, Event.submitted name ∈ j.history → (j.operations name).isSome
  count : ∀ name, j.history.count (Event.submitted name) ≤ 1

/-- What becomes of the operations: their identity is permanent, and if Circle is faithful, so is
a recorded hash. -/
def Continues (F : Prop) (j j' : Journal) : Prop :=
  ∀ name op, j.operations name = some op →
    ∃ op', j'.operations name = some op' ∧ op.Same op' ∧ (F → op.KeepsHash op')

/-- The proof obligation of a call. -/
def calls (F : Prop) : Sequential Journal Effect Answer JsError where
  work j o r j' := work j o r j' ∧ (F → Faithful j o r)
  inv := Once
  guar j j' := Once j' ∧ Continues F j j'
  inv_of_guar _ _ _ h := h.1

variable {H : Host} {config : CircleConfig} {F : Prop} {j j' j'' : Journal}
  {name : JsString} {intent : Intent} {op operation : Operation} {α : Type}
  {I : Journal → Prop}

theorem Continues.refl (j : Journal) : Continues F j j :=
  fun _ op hop => ⟨op, hop, .refl op, fun _ _ => rfl⟩

theorem Continues.trans (h : Continues F j j') (h' : Continues F j' j'') :
    Continues F j j'' := by
  intro name op hop
  obtain ⟨op', hop', hsame, hkeeps⟩ := h name op hop
  obtain ⟨op'', hop'', hsame', hkeeps'⟩ := h' name op' hop'
  exact ⟨op'', hop'', hsame.trans hsame', fun hf => (hkeeps hf).trans (hkeeps' hf)⟩

theorem Once.guar_refl (h : Once j) : (calls F).guar j j := ⟨h, .refl j⟩

/-- Saving an operation that continues the journalled one, if there is one. -/
theorem Once.guar_save (h : Once j) (hop : ∀ stored, j.operations name = some stored →
    stored.Same op ∧ (F → stored.KeepsHash op)) :
    (calls F).guar j (j.setOperation name op) := by
  refine ⟨⟨fun n hn => ?_, h.count⟩, fun n stored hstored => ?_⟩
  · by_cases hname : n = name
    · subst hname; simp [Journal.setOperation]
    · simpa [Journal.setOperation, hname] using h.journalled n hn
  · by_cases hname : n = name
    · subst hname
      exact ⟨op, by simp [Journal.setOperation], hop stored hstored⟩
    · exact ⟨stored, by simpa [Journal.setOperation, hname] using hstored, .refl stored,
        fun _ _ => rfl⟩

/-- The first submission of a journalled operation. -/
theorem Once.guar_submit (h : Once j) (hop : (j.operations name).isSome)
    (hfirst : Event.submitted name ∉ j.history) :
    (calls F).guar j (j.record (Event.submitted name)) := by
  refine ⟨⟨fun n hn => ?_, fun n => ?_⟩, .refl j⟩
  · rcases List.mem_append.1 hn with hn | hn
    · exact h.journalled n hn
    · cases List.mem_singleton.1 hn
      exact hop
  · show (j.history ++ [Event.submitted name]).count (Event.submitted n) ≤ 1
    rw [List.count_append]
    by_cases hname : n = name
    · subst hname
      rw [List.count_eq_zero_of_not_mem hfirst]
      simp
    · have hne : Event.submitted name ≠ .submitted n := fun he => hname (by cases he; rfl)
      rw [List.count_singleton, if_neg (by simpa using hne)]
      exact h.count n

/-! ### Single effects -/

/-- An effect that changes nothing. -/
theorem wp_reading {o : Effect} {Q : Except JsError (Answer o) → Journal → Prop} (hj : Once j)
    (ho : ∀ r j', work j o r j' → j' = j)
    (hQ : ∀ r, work j o r j → (F → Faithful j o r) → Q r j) :
    (perform o).wp (calls F).spec Q j := by
  refine Sequential.wp_await fun r j' h => ?_
  obtain rfl := ho r j' h.1
  exact ⟨hj.guar_refl, hQ r h.1 h.2⟩

/-- A program that changes nothing. -/
def Reading (p : Exec α) : Prop :=
  ∀ F j, Once j → p.wp (calls F).spec (Prog.post (· = j) fun _ _ => True) j

theorem Reading.wp {p : Exec α} (h : Reading p) (hj : Once j) (hI : I j) :
    p.wp (calls F).spec (Prog.post I fun _ j' => j' = j) j := by
  refine Prog.wp_mono (h F j hj) fun r j' hr => ?_
  cases r with
  | ok a =>
    obtain ⟨rfl, -⟩ := hr
    exact ⟨hI, rfl⟩
  | error e =>
    obtain rfl : j' = j := hr
    exact hI

theorem reading_perform {o : Effect} (ho : ∀ j r j', work j o r j' → j' = j) :
    Reading (perform o) := by
  intro F j hj
  refine wp_reading hj (ho j) fun r _ _ => ?_
  cases r with
  | ok a => exact ⟨rfl, trivial⟩
  | error e => rfl

theorem Reading.bind {β : Type} {p : Exec α} {f : α → Exec β} (hp : Reading p)
    (hf : ∀ a, Reading (f a)) : Reading (p >>= f) := by
  intro F j hj
  refine Prog.wp_seq (hp F j hj) (fun _ => id) fun a j' h _ => ?_
  obtain rfl : j' = j := h
  exact hf a F j' hj

theorem reading_ofExcept {x : Except JsError α} : Reading (Prog.ofExcept x : Exec α) :=
  fun _ _ _ => Prog.wp_ofExcept_post rfl fun _ _ => trivial

theorem reading_fail {message : String} : Reading (fail message : Exec α) :=
  fun _ _ _ => Prog.wp_throw.2 rfl

theorem reading_return {a : α} : Reading (pure a : Exec α) :=
  fun _ _ _ => Prog.wp_pure.2 ⟨rfl, trivial⟩

theorem Reading.ite {c : Prop} [Decidable c] {p q : Exec α} (hp : Reading p) (hq : Reading q) :
    Reading (if c then p else q) :=
  fun F j hj => Prog.wp_ite (fun _ => hp F j hj) fun _ => hq F j hj

theorem reading_assertTestnet : Reading assertTestnet :=
  Reading.bind (reading_perform fun _ _ _ h => h) fun _ => .ite reading_fail reading_return

theorem reading_receipt : Reading (receipt H config op) :=
  reading_ofExcept.bind fun _ => Reading.bind (reading_perform fun _ _ _ h => h) fun _ =>
    .ite reading_fail reading_return

/-- Loading the journal of an operation. -/
theorem wp_load (hj : Once j) (hI : I j) :
    (perform (.loadOperation name)).wp (calls F).spec
      (Prog.post I fun found j' => j' = j ∧ found = j.operations name) j := by
  refine wp_reading hj ?_ fun r h _ => ?_
  · rintro (e | found) j' h
    · exact h
    · exact h.2
  · cases r with
    | ok found => exact ⟨hI, rfl, h.1⟩
    | error e => exact hI

/-- Saving the journal of an operation: it is done, or it fails and may be done. -/
theorem wp_save {Q : Except JsError Unit → Journal → Prop} (h : Once j)
    (hop : ∀ stored, j.operations name = some stored →
      stored.Same op ∧ (F → stored.KeepsHash op))
    (hdone : ∀ r, Q r (j.setOperation name op)) (hfailed : ∀ e, Q (.error e) j) :
    (perform (.saveOperation name op)).wp (calls F).spec Q j := by
  refine Sequential.wp_await fun r j' hwork => ?_
  have hwrite : write j (j.setOperation name op) r j' := hwork.1
  cases r with
  | ok _ =>
    obtain rfl : j' = j.setOperation name op := hwrite
    exact ⟨h.guar_save hop, hdone (.ok ())⟩
  | error e =>
    rcases hwrite with rfl | rfl
    · exact ⟨h.guar_refl, hfailed e⟩
    · exact ⟨h.guar_save hop, hdone (.error e)⟩

/-- Work behind the lock file of an operation. -/
theorem wp_lock {message : String} {body : Exec α} {P : α → Journal → Prop} (hj : Once j)
    (hI : I j) (hinv : ∀ j, I j → Once j)
    (hbody : body.wp (calls F).spec (Prog.post I P) j) :
    (withOperationLock message name body).wp (calls F).spec (Prog.post I P) j := by
  refine Prog.wp_seq (I := I) (P := fun _ j' => j' = j)
    (Prog.wp_ofExcept_post hI fun _ _ => rfl) (fun _ => id) ?_
  rintro - j - rfl
  refine Prog.wp_seq ((reading_perform (o := .mkdirJournal) fun _ _ _ h => h).wp hj hI)
    (fun _ => id) ?_
  rintro - j - rfl
  refine Prog.wp_seq (I := I) (P := fun _ j' => j' = j)
    (Prog.wp_catch ((reading_perform (o := .lockOperation name) fun _ _ _ h => h).wp hj hI)
      (fun _ _ => And.intro)
      fun _ _ hI => Prog.wp_throw.2 hI) (fun _ => id) ?_
  rintro - j - rfl
  -- the lock file is removed whatever the outcome was
  rw [Prog.wp_finally]
  refine Prog.wp_mono hbody fun r j' hr => ?_
  have hI' : I j' := by
    cases r with
    | ok a => exact hr.1
    | error e => exact hr
  have hrelease : Reading (do perform (.closeOperation name); perform (.unlockOperation name)) :=
    Reading.bind (reading_perform (o := .closeOperation name) fun _ _ _ h => h) fun _ =>
      reading_perform (o := .unlockOperation name) fun _ _ _ h => h
  refine Prog.wp_mono (hrelease F j' (hinv j' hI')) fun r' j'' hr' => ?_
  cases r' with
  | ok _ =>
    obtain ⟨rfl, -⟩ := hr'
    exact hr
  | error e =>
    obtain rfl : j'' = j' := hr'
    exact hI'

/-! ### `durableOperation` -/

/-- The operation in memory continues its journal. -/
structure Stored (F : Prop) (op : Operation) (j : Journal) : Prop where
  once : Once j
  stored : ∃ stored, j.operations op.name = some stored ∧ stored.Same op ∧
    (F → stored.KeepsHash op)

/-- Saving another status. -/
theorem Stored.wp_save {Q : Except JsError Unit → Journal → Prop} (h : Stored F operation j)
    (hsame : operation.Same op) (hresult : op.result = operation.result)
    (hdone : ∀ r j', Stored F operation j' → j'.operations operation.name = some op → Q r j')
    (hfailed : ∀ e j', Stored F operation j' → Q (.error e) j') :
    (perform (.saveOperation operation.name op)).wp (calls F).spec Q j := by
  obtain ⟨stored, hstored, hsame₀, hkeeps⟩ := h.stored
  have hop : ∀ s, j.operations operation.name = some s → s.Same op ∧ (F → s.KeepsHash op) := by
    intro s hs
    obtain rfl := Option.some.inj (hstored.symm.trans hs)
    refine ⟨hsame₀.trans hsame, fun hf hknown => ?_⟩
    rw [hresult]
    exact hkeeps hf hknown
  have hset : (j.setOperation operation.name op).operations operation.name = some op := by
    simp [Journal.setOperation]
  have hback : Stored F operation (j.setOperation operation.name op) := by
    refine ⟨(h.once.guar_save hop).1, op, hset, ?_, fun _ _ => by rw [hresult]⟩
    exact ⟨hsame.name.symm, hsame.intent.symm, hsame.intentHash.symm, hsame.idempotencyKey.symm⟩
  exact Circle.wp_save h.once hop (fun r => hdone r _ hback hset) fun e => hfailed e j h

theorem wp_saveSubmitted (h : Stored F operation j) :
    (saveSubmitted operation).wp (calls F).spec
      (Prog.post (Stored F operation) fun saved j' =>
        saved = true → j'.operations operation.name = some { operation with status := .submitted })
      j := by
  refine Prog.wp_ite (fun _ => ?_) fun _ => Prog.wp_pure.2 ⟨h, fun hs => by cases hs⟩
  refine Prog.wp_catch (I := Stored F operation) (P := fun saved j' =>
    saved = true → j'.operations operation.name = some { operation with status := .submitted })
    ?_ (fun _ _ => And.intro) fun _ j' hj' => Prog.wp_pure.2 ⟨hj', fun hs => by cases hs⟩
  rw [Prog.wp_bind]
  refine h.wp_save ⟨rfl, rfl, rfl, rfl⟩ rfl (fun r j' hj' hset => ?_) fun _ _ hj' => hj'
  cases r with
  | ok _ => exact Prog.wp_pure.2 ⟨hj', fun _ => hset⟩
  | error e => exact hj'

/-- A value is returned only for an operation that is journalled as submitted. -/
theorem wp_conclude (h : Stored F operation j) :
    (conclude operation).wp (calls F).spec
      (Prog.post Once fun op j' => j'.operations operation.name = some op ∧
        op.status = .submitted ∧ op.intentHash = operation.intentHash) j := by
  refine Prog.wp_seq (wp_saveSubmitted h) (fun _ h => h.once) fun saved j' h' hsaved => ?_
  refine Prog.wp_ite (fun hs => Prog.wp_pure.2 ⟨h'.once, hsaved hs, rfl, rfl⟩) fun _ => ?_
  rw [Prog.wp_bind]
  refine h'.wp_save ⟨rfl, rfl, rfl, rfl⟩ rfl (fun r j'' h'' _ => ?_) fun _ _ h'' => h''.once
  cases r with
  | ok _ => exact Prog.wp_throw.2 h''.once
  | error e => exact h''.once

/-- What `durableOperation` ends in. -/
def Submitted (H : Host) (name : JsString) (intent : Intent) (op : Operation) (j : Journal) : Prop :=
  j.operations name = some op ∧ op.status = .submitted ∧ op.intentHash = intent.hash H

theorem wp_resume {previous : Operation}
    (hprevious : j.operations name = some previous) :
    (resume (intent.hash H) previous).wp (calls F).spec
      (Prog.post (· = j) (Submitted H name intent)) j := by
  refine Prog.wp_ite (fun _ => Prog.wp_throw.2 rfl) fun hhash => ?_
  split
  · rename_i hstatus
    exact Prog.wp_pure.2 ⟨rfl, hprevious, hstatus, not_not.1 hhash⟩
  · exact Prog.wp_throw.2 rfl
  · exact Prog.wp_throw.2 rfl

variable {args : JsString → List JsString} {result : Json → Except JsError Record}

/-- The submission of an operation that was just journalled. -/
theorem wp_callback {key : JsString} (h : Stored F operation j)
    (hfirst : Event.submitted operation.name ∉ j.history) (hnone : operation.result = none) :
    (tryCatch (some <$> callback operation.name args result key) fun _ => return none).wp
      (calls F).spec
      (Prog.post Once fun r j' => Stored F { operation with result := r } j')
      j := by
  obtain ⟨stored, hstored, hsame, hkeeps⟩ := h.stored
  have hsubmit := h.once.guar_submit (F := F) (by rw [hstored]; rfl) hfirst
  -- whatever the answer is, the journal has no result yet
  have hafter : ∀ r, Stored F { operation with result := r }
      (j.record (Event.submitted operation.name)) := by
    intro r
    refine ⟨hsubmit.1, stored, hstored, ⟨hsame.name, hsame.intent, hsame.intentHash,
      hsame.idempotencyKey⟩, fun hf hknown => ?_⟩
    have hkept := hkeeps hf hknown
    rw [hnone] at hkept
    rw [← hkept] at hknown
    cases hknown
  have hrest : ∀ (x : Except JsError Record),
      (Prog.catchPost (calls F).spec (fun _ => (return none : Exec (Option Record)))
        (Prog.post Once fun r j' => Stored F { operation with result := r } j'))
        (x.map some) (j.record (Event.submitted operation.name)) := by
    intro x
    cases x with
    | ok r => exact ⟨hsubmit.1, hafter (some r)⟩
    | error e => exact Prog.wp_pure.2 ⟨hsubmit.1, hafter none⟩
  rw [Prog.wp_tryCatch, Prog.wp_map]
  unfold callback
  rw [Prog.wp_bind]
  refine Sequential.wp_await fun r j' hwork => ?_
  obtain rfl : j' = j.record (Event.submitted operation.name) := hwork.1
  refine ⟨hsubmit, ?_⟩
  cases r with
  | ok answer => exact Prog.wp_ofExcept.2 (hrest (result answer))
  | error e => exact hrest (.error e)

theorem wp_journalAndSubmit (hj : Once j) :
    (journalAndSubmit H name intent (callback name args result)).wp (calls F).spec
      (Prog.post Once (Submitted H name intent)) j := by
  refine Prog.wp_seq (wp_load hj hj) (fun _ => id) ?_
  rintro found j - ⟨rfl, hfound⟩
  cases found with
  | some previous =>
    refine Prog.wp_post_mono (wp_resume hfound.symm) ?_ fun _ _ _ h => h
    rintro _ rfl
    exact hj
  | none =>
    -- nothing was submitted under this name
    have hfirst : Event.submitted name ∉ j.history := by
      intro hmem
      have hsome := hj.journalled name hmem
      rw [← hfound] at hsome
      cases hsome
    refine Prog.wp_seq ((reading_perform (o := .randomUUID) fun _ _ _ h => h).wp hj hj)
      (fun _ => id) ?_
    rintro key j hj rfl
    let started : Operation := ⟨name, intent, intent.hash H, key, .submitting, none⟩
    have hnew : ∀ stored, j.operations name = some stored →
        stored.Same started ∧ (F → stored.KeepsHash started) := by
      intro stored hs
      rw [← hfound] at hs
      cases hs
    have hguar : (calls F).guar j (j.setOperation name started) := hj.guar_save hnew
    have hstored : Stored F started (j.setOperation name started) :=
      ⟨hguar.1, started, by simp [Journal.setOperation, started], .refl _, fun _ _ => rfl⟩
    rw [Prog.wp_bind]
    refine wp_save hj hnew (fun r => ?_) fun _ => hj
    cases r with
    | error e => exact hguar.1
    | ok _ =>
      show Prog.wp _ _ _ _
      refine Prog.wp_seq (wp_callback hstored hfirst rfl) (fun _ => id) fun result j' _ h => ?_
      exact Prog.wp_post_mono (wp_conclude h) (fun _ => id) fun _ _ _ h => h

/-- `durableOperation` returns only an operation that is journalled as submitted. -/
theorem wp_durableOperation (hj : Once j) :
    (durableOperation H name intent (callback name args result)).wp (calls F).spec
      (Prog.post Once (Submitted H name intent)) j :=
  wp_lock hj hj (fun _ => id) (wp_journalAndSubmit hj)

/-- Another intent is rejected. -/
theorem wp_durableOperation_other (hj : Once j) (hop : j.operations name = some op)
    (hother : op.intentHash ≠ intent.hash H) :
    (durableOperation H name intent (callback name args result)).wp (calls F).spec
      (Prog.post (· = j) fun _ _ => False) j := by
  refine wp_lock hj rfl (by rintro _ rfl; exact hj) ?_
  refine Prog.wp_seq (wp_load (I := (· = j)) hj rfl) (fun _ => id) ?_
  rintro found j rfl ⟨-, rfl⟩
  rw [hop]
  exact Prog.wp_ite (fun _ => Prog.wp_throw.2 rfl) fun h => absurd hother h

/-! ### `reconcile` -/

/-- What may be correlated with an operation: it does not empty a hash, if Circle is faithful. -/
def Usable (F : Prop) (op : Operation) (found : Option Record) : Prop :=
  F → ∀ tx, found = some tx → ¬ op.Empties tx

theorem usable_none : Usable F op none := fun _ _ h => by cases h

/-- What a page of Circle's says of an operation. -/
theorem usable_of_faithful {data : Json} {values : List Json} {value : Json} {tx : Record}
    {circleArgs : List JsString} (hop : j.operations name = some op)
    (hf : F → Faithful j (.circle circleArgs) (.ok data))
    (hvalues : transactions data = some values) (hmem : value ∈ values)
    (hvalue : sanitizeResult value = .ok tx) (hbelongs : op.Belongs tx) :
    Usable F op (some tx) := by
  intro h tx' htx'
  obtain rfl := Option.some.inj htx'
  exact hf h name op values value tx hop hvalues hmem hvalue hbelongs

theorem wp_detail {id : JsString} (hj : Once j) (hop : j.operations name = some op)
    (hid : Record.get "id" op.result = some (.str id)) :
    (detail H config id).wp (calls F).spec
      (Prog.post (· = j) fun tx _ => Usable F op (some tx)) j := by
  unfold detail
  rw [Prog.wp_bind]
  refine wp_reading hj (fun _ _ h => h) fun r _ hf => ?_
  cases r with
  | error e => rfl
  | ok data =>
    show Prog.wp _ _ _ _
    dsimp only
    split
    · exact Prog.wp_throw.2 rfl
    · rename_i value _ _ hvalues
      rw [Prog.wp_bind, Prog.wp_ofExcept]
      cases hvalue : sanitizeResult value with
      | error e => rfl
      | ok tx =>
        refine Prog.wp_ite (fun _ => Prog.wp_bind.2 (Prog.wp_throw.2 rfl)) fun hsame => ?_
        refine Prog.wp_pure.2 ⟨rfl, ?_⟩
        refine usable_of_faithful hop hf hvalues (by simp) hvalue (Or.inr ⟨id, hid, ?_⟩)
        refine eq_of_strictEq ?_
        by_contra hne
        exact hsame (by simp [hne])
    · exact Prog.wp_throw.2 rfl

/-- The induction is on the number of pages that are left. -/
theorem wp_searchPages (hj : Once j) (hop : j.operations name = some op) (pages : ℕ)
    (cursor : JsString) :
    (searchPages config op pages cursor).wp (calls F).spec
      (Prog.post (· = j) fun found _ => Usable F op found) j := by
  induction pages generalizing cursor with
  | zero => exact Prog.wp_pure.2 ⟨rfl, usable_none⟩
  | succ pages ih =>
    unfold searchPages
    rw [Prog.wp_bind]
    refine wp_reading hj (fun _ _ h => h) fun r _ hf => ?_
    cases r with
    | error e => rfl
    | ok data =>
      show Prog.wp _ _ _ _
      dsimp only
      split
      · exact Prog.wp_throw.2 rfl
      · rename_i values hvalues
        rw [Prog.wp_bind, Prog.wp_ofExcept]
        cases hfound : op.findMatch values with
        | error e => rfl
        | ok found =>
          show Prog.wp _ _ _ _
          cases found with
          | some tx =>
            obtain ⟨value, hmem, hvalue, hmatch⟩ := Operation.findMatch_mem hfound
            exact Prog.wp_pure.2
              ⟨rfl, usable_of_faithful hop hf hvalues hmem hvalue (Or.inl hmatch)⟩
          | none =>
            dsimp only
            split
            · exact Prog.wp_pure.2 ⟨rfl, usable_none⟩
            · refine Prog.wp_ite (fun _ => Prog.wp_pure.2 ⟨rfl, usable_none⟩) fun _ => ?_
              refine Prog.wp_seq (reading_ofExcept F j hj) (fun _ => id) ?_
              rintro last j rfl -
              split
              · exact ih _
              · exact Prog.wp_pure.2 ⟨rfl, usable_none⟩

theorem wp_lookUp (hj : Once j) (hop : j.operations name = some op) :
    (lookUp H config op).wp (calls F).spec
      (Prog.post (· = j) fun found _ => Usable F op found) j := by
  unfold lookUp
  split
  · rename_i id hid
    rw [Prog.wp_map]
    refine Prog.wp_mono (wp_detail hj hop hid) fun r j' hr => ?_
    cases r with
    | ok tx => exact hr
    | error e => exact hr
  · exact wp_searchPages hj hop 20 []

theorem wp_findOnchain (hj : Once j) (hop : j.operations name = some op) :
    (findOnchain H config name op).wp (calls F).spec
      (Prog.post Once fun _ _ => True) j := by
  unfold findOnchain
  split
  · rename_i userOpHash hunknown _
    refine Prog.wp_ite (fun _ => Prog.wp_bind.2 (Prog.wp_throw.2 hj)) fun _ => ?_
    refine Prog.wp_seq ((reading_perform (o := .findFinalizedUserOperation config.wallet userOpHash)
      fun _ _ _ h => h).wp hj hj) (fun _ => id) ?_
    rintro found j hj rfl
    cases found with
    | none => exact Prog.wp_pure.2 ⟨hj, trivial⟩
    | some hash =>
      -- the hash that is found is the first one
      have hnew : ∀ stored, j.operations name = some stored →
          stored.Same (op.onchain hash) ∧ (F → stored.KeepsHash (op.onchain hash)) := by
        intro stored hs
        obtain rfl := Option.some.inj (hop.symm.trans hs)
        refine ⟨⟨rfl, rfl, rfl, rfl⟩, fun _ hknown => ?_⟩
        rw [hunknown] at hknown
        cases hknown
      rw [Prog.wp_bind]
      refine wp_save hj hnew (fun r => ?_) fun e => hj
      have hset := (hj.guar_save hnew).1
      cases r with
      | ok _ => exact Prog.wp_pure.2 ⟨hset, trivial⟩
      | error e => exact hset
  · exact Prog.wp_pure.2 ⟨hj, trivial⟩

theorem wp_confirm (hj : Once j) (hop : j.operations name = some op) :
    (confirm H config name op).wp (calls F).spec (Prog.post Once fun _ _ => True) j := by
  refine Prog.wp_seq (wp_findOnchain hj hop) (fun _ => id) fun op j hj _ => ?_
  refine Prog.wp_seq (reading_ofExcept.wp hj hj) (fun _ => id) ?_
  rintro - j hj rfl
  refine Prog.wp_seq (reading_receipt.wp hj hj) (fun _ => id) ?_
  rintro - j hj rfl
  exact Prog.wp_pure.2 ⟨hj, trivial⟩

/-- Reconciling submits nothing, and keeps what is permanent. -/
theorem wp_reconcile (hj : Once j) :
    (reconcile H config name).wp (calls F).spec (Prog.post Once fun _ _ => True) j := by
  refine Prog.wp_seq (reading_ofExcept.wp hj hj) (fun _ => id) ?_
  rintro - j hj rfl
  refine Prog.wp_seq (reading_assertTestnet.wp hj hj) (fun _ => id) ?_
  rintro - j hj rfl
  refine Prog.wp_seq (wp_load hj hj) (fun _ => id) ?_
  rintro found j hj ⟨rfl, hfound⟩
  cases found with
  | none => exact Prog.wp_throw.2 hj
  | some op =>
    refine Prog.wp_ite (fun _ => Prog.wp_pure.2 ⟨hj, trivial⟩) fun _ => ?_
    refine Prog.wp_seq (wp_lookUp hj hfound.symm) (by rintro _ rfl; exact hj) ?_
    rintro found j rfl husable
    cases found with
    | none => exact wp_confirm hj hfound.symm
    | some tx =>
      rw [Prog.wp_bind, Prog.wp_ofExcept]
      cases hop : op.correlate tx with
      | error e => exact hj
      | ok op' =>
        obtain ⟨hsame, hkeeps⟩ := Operation.correlate_keeps hop
        have hnew : ∀ stored, j.operations name = some stored →
            stored.Same op' ∧ (F → stored.KeepsHash op') := by
          intro stored hs
          obtain rfl := Option.some.inj (hfound.trans hs)
          exact ⟨hsame, fun hf => hkeeps (husable hf tx rfl)⟩
        have hset := (hj.guar_save hnew).1
        show Prog.wp _ _ _ _
        rw [Prog.wp_bind]
        refine wp_save hj hnew (fun r => ?_) fun e => hj
        cases r with
        | error e => exact hset
        | ok _ =>
          refine Prog.wp_ite (fun _ => Prog.wp_pure.2 ⟨hset, trivial⟩) fun _ => ?_
          exact wp_confirm hset (by simp [Journal.setOperation])

/-! ### Runs of calls -/

variable (H) in
/-- One process, that makes one call after the other. -/
abbrev system : System Unit Journal Effect Answer JsError Operation :=
  Sequential.system work (Call H)

/-- The states of a run. -/
abbrev State := System.State Unit Journal Effect Answer JsError Operation

/-- The transitions of a run. -/
abbrev Transition := Tr State (System.Action Unit Effect Answer JsError Operation)

/-- The transition is no answer of Circle's with an empty hash for a recorded one. -/
def IsFaithful (e : Transition) : Prop :=
  ∀ o r, e.lab = .effect () o r → Faithful e.pre.world o r

variable (H) in
theorem sound (F : Prop) : (calls F).protocol.Sound
    (Sequential.system (calls F).work (Call H)) := by
  refine Sequential.sound fun p j hp hj => ?_
  have htrue : ∀ {P : Operation → Journal → Prop},
      p.wp (calls F).spec (Prog.post Once P) j →
        p.wp (calls F).spec (fun _ _ => True) j :=
    fun h => Prog.wp_mono h fun _ _ _ => trivial
  cases hp with
  | durableOperation name intent args result => exact htrue (wp_durableOperation hj)
  | reconcile config name => exact htrue (wp_reconcile hj)

variable {s t u : State} {τ σ : List Transition}

/-- A run is a run of the verified system. -/
theorem verified (h : (system H).lts.Run s τ t) (hf : F → ∀ e ∈ τ, IsFaithful e) :
    (Sequential.system (calls F).work (Call H)).lts.Run s τ t :=
  Sequential.restrict (C := fun j o r => F → Faithful j o r) h
    fun e he o r hlab hfaithful => hf hfaithful e he o r hlab

theorem once_of_history (h : j.history = []) : Once j := by
  refine ⟨fun name hmem => ?_, fun name => ?_⟩
  · rw [h] at hmem
    cases hmem
  · rw [h]
    simp

/-- The operations of a later state continue those of an earlier one. -/
theorem run_continues (hj : j.history = []) (hs : (system H).lts.Run (System.State.idle j) τ s)
    (ht : (system H).lts.Run s σ t) (hf : F → ∀ e ∈ τ ++ σ, IsFaithful e) :
    Continues F s.world t.world := by
  refine Sequential.rel (sound H F) (once_of_history hj)
    (verified hs fun h e he => hf h e (by simp [he])) (verified ht fun h e he => hf h e (by simp [he]))
    Continues.refl (fun _ _ _ => Continues.trans) fun _ _ _ h => h.2

/-- What was verified of a call holds of its outcome. -/
theorem run_outcome {r : Except JsError Operation} {p : Exec Operation}
    {Q : Except JsError Operation → Journal → Prop} (hj : j.history = [])
    (hs : (system H).lts.Run (System.State.idle j) τ s) (hidle : s.processes () = none)
    (hp : Call H p) (hQ : Once s.world → p.wp (calls False).spec Q s.world)
    (ha : (system H).Answers s () p r u) : Q r u.world := by
  have hrun := verified (F := False) hs fun h => h.elim
  obtain ⟨ρ, hρ, hends, hr⟩ := ha
  refine Sequential.answers (sound H False) (once_of_history hj) hrun hp hidle
    (hQ (Sequential.run (sound H False) (once_of_history hj) hrun)) ?_
  exact ⟨ρ, verified hρ fun h => h.elim, hends, hr⟩

/-- **Calls on a directory of operations.**  An operation is submitted at most once, its identity
is permanent, and in a run whose steps are all faithful so is its transaction hash.  A call with
another intent is rejected and changes nothing; a value is only returned for an operation that is
journalled as submitted, with the intent of the call. -/
theorem operation_calls (hj : j.history = []) (hs : (system H).lts.Run (System.State.idle j) τ s)
    (ht : (system H).lts.Run s σ t) :
    (∀ name, t.world.history.count (Event.submitted name) ≤ 1) ∧
      (∀ name op, s.world.operations name = some op →
        ∃ op', t.world.operations name = some op' ∧ op.Same op' ∧
          ((∀ e ∈ τ ++ σ, IsFaithful e) → op.KeepsHash op')) ∧
      ∀ name intent args result r u, s.processes () = none →
        (system H).Answers s () (durableOperation H name intent (callback name args result)) r u →
        (∀ op, s.world.operations name = some op → op.intentHash ≠ intent.hash H →
          (∃ e, r = .error e) ∧ u.world = s.world) ∧
          ∀ op, r = .ok op → Submitted H name intent op u.world := by
  refine ⟨?_, ?_, ?_⟩
  · have hrun := verified (F := False) (hs.append ht) fun h => h.elim
    exact (Sequential.run (sound H False) (once_of_history hj) hrun).count
  · intro name op hop
    obtain ⟨op', hop', hsame, hkeeps⟩ :=
      run_continues (F := ∀ e ∈ τ ++ σ, IsFaithful e) hj hs ht id name op hop
    exact ⟨op', hop', hsame, hkeeps⟩
  · intro name intent args result r u hidle ha
    have hcall : Call H (durableOperation H name intent (callback name args result)) :=
      .durableOperation name intent args result
    refine ⟨fun op hop hother => ?_, ?_⟩
    · have hr := run_outcome hj hs hidle hcall
        (fun hs' => wp_durableOperation_other hs' hop hother) ha
      cases r with
      | ok op' => exact hr.2.elim
      | error e => exact ⟨⟨e, rfl⟩, hr⟩
    · rintro op rfl
      exact (run_outcome hj hs hidle hcall wp_durableOperation ha).2

/-! ### A hash that is replaced -/

namespace Sample

/-- The answers, with these transactions in Circle's history. -/
def answer (page : List Json) (j : Journal) : (o : Effect) → Except JsError (Answer o) × Journal
  | .mkdirJournal => (.ok (), j)
  | .lockOperation _ => (.ok (), j)
  | .closeOperation _ => (.ok (), j)
  | .unlockOperation _ => (.ok (), j)
  | .loadOperation name => (.ok (j.operations name), j)
  | .saveOperation name operation => (.ok (), j.setOperation name operation)
  | .randomUUID => (.ok (js "key"), j)
  | .submit name _ key => (.ok (.obj [(js "idempotencyKey", .str key),
      (js "txHash", .str (Bytes32.text 1))]), j.record (.submitted name))
  | .circle _ => (.ok (.obj [(js "transactions", .arr page)]), j)
  | .getChainId => (.ok CHAIN_ID, j)
  | .remark event => (.ok (), j.record event)
  | _ => (.error .other, j)

theorem work_answer (page : List Json) (j : Journal) (o : Effect) :
    work j o (answer page j o).1 (answer page j o).2 := by
  cases o <;> first | rfl | exact ⟨rfl, rfl⟩ | exact Or.inl rfl

/-- An operation, and the callback that submits it. -/
def opened : Exec Operation :=
  durableOperation Host.plain (js "pay") ⟨js "execute", []⟩
    (callback (js "pay") (fun key => [key]) sanitizeResult)

/-- Circle's record of the transaction. -/
def transaction (hash : JsString) : Json :=
  .obj [(js "idempotencyKey", .str (js "key")), (js "txHash", .str hash)]

/-- A later look at the operation. -/
def reconciled : Exec Operation := reconcile Host.plain ⟨js "0xa"⟩ (js "pay")

/-- The operation is submitted. -/
@[irreducible] def submitted : Journal := (opened.exec (answer []) Journal.empty).2

/-- Circle reports the transaction with an empty hash. -/
@[irreducible] def emptied : Journal :=
  (reconciled.exec (answer [transaction []]) submitted).2

/-- Circle reports the transaction with another hash. -/
@[irreducible] def replaced : Journal :=
  (reconciled.exec (answer [transaction (Bytes32.text 2)]) emptied).2

/-- The hash that is recorded for the operation. -/
def hash (j : Journal) : Option JsString :=
  (j.operations (js "pay")).bind fun op => (Record.get "txHash" op.result).bind Json.asStr

theorem hash_eq_some {j : Journal} {text : JsString} (h : hash j = some text) :
    ∃ op, j.operations (js "pay") = some op ∧ Record.get "txHash" op.result = some (.str text) := by
  obtain ⟨op, hop, htext⟩ := Option.bind_eq_some_iff.1 h
  obtain ⟨x, hx, hstr⟩ := Option.bind_eq_some_iff.1 htext
  cases x with
  | str s =>
    obtain rfl := Option.some.inj hstr
    exact ⟨op, hop, hx⟩
  | _ => cases hstr

theorem run_submitted : ∃ τ, (system Host.plain).lts.Run (System.State.idle Journal.empty) τ
    ⟨submitted, fun _ => none⟩ := by
  unfold submitted
  exact System.run_exec (S := system Host.plain) (s := (System.State.idle Journal.empty : State))
    (i := ()) (work_answer []) rfl (.durableOperation ..)

theorem run_reconciled (page : List Json) (j : Journal) : ∃ τ, (system Host.plain).lts.Run
    ⟨j, fun _ => none⟩ τ ⟨(reconciled.exec (answer page) j).2, fun _ => none⟩ :=
  System.run_exec (S := system Host.plain) (s := (⟨j, fun _ => none⟩ : State)) (i := ())
    (work_answer page) rfl (.reconcile ..)

theorem run_replaced : ∃ σ, (system Host.plain).lts.Run ⟨submitted, fun _ => none⟩ σ
    ⟨replaced, fun _ => none⟩ := by
  obtain ⟨σ, hσ⟩ := run_reconciled [transaction []] submitted
  obtain ⟨ρ, hρ⟩ := run_reconciled [transaction (Bytes32.text 2)] emptied
  unfold emptied at hρ
  unfold replaced emptied
  exact ⟨_, hσ.append hρ⟩

end Sample

open Sample in
/-- The operation that was submitted is there after every later call. -/
theorem operation_calls_sample : ∃ op, submitted.operations (js "pay") = some op ∧
    ∃ op', replaced.operations (js "pay") = some op' ∧ op.Same op' := by
  obtain ⟨τ, hs⟩ := run_submitted
  obtain ⟨σ, ht⟩ := run_replaced
  obtain ⟨op, hop, -⟩ := hash_eq_some
    (by decide +kernel : Sample.hash submitted = some (Bytes32.text 1))
  obtain ⟨op', hop', hsame, -⟩ := (operation_calls rfl hs ht).2.1 _ op hop
  exact ⟨op, hop, op', hop', hsame⟩

open Sample in
/-- **A recorded hash is replaced**, after Circle has once reported the transaction without. -/
theorem hash_replaced : ∃ (τ σ : List Transition) (s t : State) (op op' : Operation),
    (system Host.plain).lts.Run (System.State.idle Journal.empty) τ s ∧
      (system Host.plain).lts.Run s σ t ∧ s.world.operations (js "pay") = some op ∧
      t.world.operations (js "pay") = some op' ∧
      Record.get "txHash" op.result = some (.str (Bytes32.text 1)) ∧
      Record.get "txHash" op'.result = some (.str (Bytes32.text 2)) := by
  obtain ⟨τ, hs⟩ := run_submitted
  obtain ⟨σ, ht⟩ := run_replaced
  obtain ⟨op, hop, hhash⟩ := hash_eq_some
    (by decide +kernel : Sample.hash submitted = some (Bytes32.text 1))
  obtain ⟨op', hop', hhash'⟩ := hash_eq_some
    (by decide +kernel : Sample.hash replaced = some (Bytes32.text 2))
  exact ⟨τ, σ, ⟨submitted, fun _ => none⟩, ⟨replaced, fun _ => none⟩, op, op', hs, ht, hop, hop',
    hhash, hhash'⟩

end Circle

end Obolos
