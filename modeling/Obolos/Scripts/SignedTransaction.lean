import Obolos.Crash.Callers
import Obolos.Js.Value

/-!
# Signing a transaction once

`economy-eoa.ts`: a transaction is signed once under its name, and its bytes are saved before they
are broadcast.  A later call broadcasts the same bytes, or finds their receipt.

Any number of processes call `durableSignedTransaction` with one name, each with an intent of its
own, and each can be killed between any two effects.  `transaction_runs` : what they broadcast are
always the same bytes, once these are saved nothing is signed any more, and a call with another
intent does nothing and never returns.
-/

namespace Obolos

namespace Eoa

open Json

/-- `Intent` -/
structure Intent where
  fromAddress : JsString
  toAddress : JsString
  data : JsString
  deriving DecidableEq

/-- The record of a signed transaction. -/
structure Signed where
  intent : Intent
  raw : JsString
  hash : JsString

/-- What is read of a receipt. -/
structure Receipt where
  status : JsString
  transactionHash : JsString

/-- What the outside world can notice. -/
inductive Event
  /-- `sign` was called. -/
  | signed
  /-- The bytes were broadcast. -/
  | broadcast (raw : JsString)
  deriving DecidableEq

/-- The file of the name, and what happened. -/
structure Data where
  record : Option Signed
  history : List Event

/-- Something happens. -/
def Data.note (d : Data) (event : Event) : Data := { d with history := d.history ++ [event] }

/-- What the code awaits behind the lock; `T` is the type of the receipts. -/
inductive Work (T : Type)
  | load
  | sign
  | mkdir
  /-- Create, write, sync and close a new file. -/
  | writeTemp
  | rename (record : Signed)
  | syncFolder
  | receipt (hash : JsString)
  | broadcast (raw : JsString)

/-- What the code is answered. -/
@[reducible] def Answer (T : Type) : Work T → Type
  | .load => Option Signed
  | .sign => JsString
  | .receipt _ => Option T
  | _ => Unit

/-- The functions the code calls. -/
structure Packages where
  numerals : Numerals
  /-- `keccak256(raw)` -/
  keccak256 : JsString → Except JsError JsString

variable {T : Type} (P : Packages) (read : T → Receipt)

/-- The code behind the lock. -/
abbrev Held (T : Type) := Prog (Work T) (Answer T) JsError

/-- One effect. -/
def await (o : Work T) : Held T (Answer T o) := Prog.await o

/-- `throw Error(message)` -/
def refuse {α : Type} (message : String) : Held T α := throw (.error (js message))

/-- `JSON.stringify(intent)` -/
def Intent.text (intent : Intent) : JsString :=
  stringify P.numerals (.obj [(js "from", .str intent.fromAddress), (js "to", .str intent.toAddress),
    (js "data", .str intent.data)])

/-- `savePrivateJson(filename, record)` -/
def savePrivateJson (record : Signed) : Held T Unit := do
  await .mkdir
  await .writeTemp
  await (.rename record)
  await .syncFolder

/-- The saved record, or the record of a new signature. -/
def signedRecord (intent : Intent) : Held T Signed := do
  match ← await .load with
  | some record => do
    if record.intent.text P ≠ intent.text P then
      refuse "Saved transaction has different or invalid intent"
    else do
      let hash ← Prog.ofExcept (P.keccak256 record.raw)
      if hash ≠ record.hash then refuse "Saved transaction has different or invalid intent"
      else return record
  | none => do
    let raw ← await .sign
    let hash ← Prog.ofExcept (P.keccak256 raw)
    savePrivateJson ⟨intent, raw, hash⟩
    return ⟨intent, raw, hash⟩

/-- The receipt of the transaction, which is broadcast when there is none; a broadcast that fails
is not an error. -/
def findReceipt (record : Signed) : Held T (Option T) := do
  match ← await (.receipt record.hash) with
  | some receipt => return some receipt
  | none => do
    tryCatch (await (.broadcast record.raw)) fun _ => return ()
    await (.receipt record.hash)

/-- The part of `durableSignedTransaction` behind the lock. -/
def send (intent : Intent) : Held T T := do
  let record ← signedRecord P intent
  match ← findReceipt record with
  | none => refuse "Transaction outcome uncertain. Preserve the signed transaction and reconcile its original hash."
  | some receipt =>
    if (read receipt).status ≠ js "success" ∨
        (read receipt).transactionHash.toLowerCase ≠ record.hash.toLowerCase then
      refuse "Original transaction did not succeed. No replacement submitted."
    else return receipt

/-- `/^[a-zA-Z0-9_-]{1,100}$/` -/
def isName (name : JsString) : Bool :=
  decide (1 ≤ name.length ∧ name.length ≤ 100) && name.all fun c =>
    (48 ≤ c && c ≤ 57) || (65 ≤ c && c ≤ 90) || (97 ≤ c && c ≤ 122) || c == 95 || c == 45

/-- `durableSignedTransaction(directory, name, intent, adapter)` -/
def durableSignedTransaction (name : JsString) (intent : Intent) :
    Prog (Locked (Work T)) (Locked.Answer (Answer T)) JsError T :=
  if isName name = false then throw (.error (js "Invalid transaction name"))
  else
    Locked.exclusive (.error (js "Another process owns this operation lock."))
      (send P read intent)

/-! ### What the effects do -/

/-- What an effect answers and does.  A call that fails may have had its effect. -/
def work (d : Data) : (o : Work T) → Except JsError (Answer T o) → Data → Prop
  | .load, r, d' => d' = d ∧ ∀ record, r = .ok record → record = d.record
  | .sign, _, d' => d' = d.note .signed
  | .rename record, r, d' => (∃ e, r = .error e ∧ d' = d) ∨ d' = { d with record := some record }
  | .broadcast raw, _, d' => d' = d.note (.broadcast raw)
  | _, _, d' => d' = d

/-- Only the saved bytes were broadcast. -/
def Good (d : Data) : Prop :=
  ∀ raw, Event.broadcast raw ∈ d.history → ∃ record, d.record = some record ∧ record.raw = raw

/-- How often `sign` was called. -/
def signatures (d : Data) : ℕ := d.history.count .signed

/-- A saved record stays, and nothing is signed when there is one. -/
def Kept (d d' : Data) : Prop :=
  ∀ record, d.record = some record → d'.record = some record ∧ signatures d' = signatures d

/-- What a call with the intent may do. -/
structure Guar (intent : Intent) (d d' : Data) : Prop where
  good : Good d'
  kept : Kept d d'
  other : ∀ record, d.record = some record → record.intent ≠ intent → d' = d

/-- The calls behind the lock; process `i` calls with the intent `call i`. -/
def transactions (T : Type) {ι : Type} (call : ι → Intent) :
    Callers ι Data (Work T) (Answer T) JsError where
  work := work
  inv := Good
  guar i := Guar (call i)
  keeps := Kept
  keeps_refl _ _ hrecord := ⟨hrecord, rfl⟩
  keeps_trans _ _ _ h h' record hrecord :=
    have hmiddle := h record hrecord
    have hlast := h' record hmiddle.1
    ⟨hlast.1, hlast.2.trans hmiddle.2⟩
  inv_of_guar _ _ _ _ h := h.good
  keeps_of_guar _ _ _ _ h := h.kept

/-- The calls with the name. -/
def calls {ι : Type} (call : ι → Intent) (name : JsString) (i : ι)
    (p : Prog (Locked (Work T)) (Locked.Answer (Answer T)) JsError T) : Prop :=
  p = durableSignedTransaction P read name (call i)

variable {P read} {ι : Type} {call : ι → Intent} {i : ι} {d d' : Data} {record : Signed}
  {intent intent' : Intent} {event : Event} {α : Type}

theorem text_inj (h : intent.text P = intent'.text P) : intent = intent' := by
  have hends : Ends [] := fun c hc => by cases hc
  have hfields := (stringify_inj _ rfl rfl hends hends (by simpa [Intent.text] using h)).1
  cases intent
  cases intent'
  simpa using hfields

theorem Guar.refl (h : Good d) : Guar intent d d := ⟨h, fun _ hrecord => ⟨hrecord, rfl⟩, fun _ _ _ => rfl⟩

/-- The saved bytes are broadcast. -/
theorem Guar.broadcast (h : Good d) (hrecord : d.record = some record) (hmine : record.intent = intent) :
    Guar intent d (d.note (.broadcast record.raw)) := by
  refine ⟨fun raw hraw => ?_, fun saved hsaved => ⟨hsaved, ?_⟩, fun saved hsaved hother => ?_⟩
  · rcases List.mem_append.1 hraw with hraw | hraw
    · exact h raw hraw
    · cases List.mem_singleton.1 hraw
      exact ⟨record, hrecord, rfl⟩
  · show (d.history ++ [_]).count _ = d.history.count _
    rw [List.count_append]
    rfl
  · rw [hrecord] at hsaved
    cases hsaved
    exact absurd hmine hother

/-- A signature, as long as nothing is saved. -/
theorem Guar.sign (h : Good d) (hnone : d.record = none) : Guar intent d (d.note .signed) := by
  refine ⟨fun raw hraw => ?_, fun saved hsaved => ?_, fun saved hsaved => ?_⟩
  · rcases List.mem_append.1 hraw with hraw | hraw
    · exact h raw hraw
    · cases List.mem_singleton.1 hraw
  · rw [hnone] at hsaved
    cases hsaved
  · rw [hnone] at hsaved
    cases hsaved

/-- The first record is saved. -/
theorem Guar.save (h : Good d) (hnone : d.record = none) :
    Guar intent d { d with record := some record } := by
  refine ⟨fun raw hraw => ?_, fun saved hsaved => ?_, fun saved hsaved => ?_⟩
  · obtain ⟨saved, hsaved, -⟩ := h raw hraw
    rw [hnone] at hsaved
    cases hsaved
  · rw [hnone] at hsaved
    cases hsaved
  · rw [hnone] at hsaved
    cases hsaved

/-! ### The programs -/

/-- What holds whatever the outcome of a program; and `A` after it returned. -/
abbrev Then (A : α → Data → Prop) : Except JsError α → Data → Prop :=
  Prog.post Good A

theorem wp_refuse {message : String} {A : α → Data → Prop} (h : Good d) :
    (refuse message : Held T α).wp ((transactions T call).spec i) (Then A) d := Prog.wp_throw.2 h

theorem wp_check {x : Except JsError α} (h : Good d) :
    (Prog.ofExcept x : Held T α).wp ((transactions T call).spec i)
      (Then fun a d' => d' = d ∧ x = .ok a) d :=
  Prog.wp_ofExcept_post h fun _ ha => ⟨rfl, ha⟩

/-- An effect. -/
theorem wp_effect {o : Work T} {A : Answer T o → Data → Prop}
    (h : ∀ r d', work d o r d' → Guar (call i) d d' ∧ ∀ a, r = .ok a → A a d') :
    (await o).wp ((transactions T call).spec i) (Then A) d := by
  refine Callers.wp_await fun r d' hwork => ?_
  obtain ⟨hguar, hA⟩ := h r d' hwork
  cases r with
  | error e => exact ⟨hguar, hguar.good⟩
  | ok a => exact ⟨hguar, hguar.good, hA a rfl⟩

/-- An effect that changes nothing. -/
theorem wp_still {o : Work T} (h : Good d) (hquiet : ∀ r d', work d o r d' → d' = d) :
    (await o).wp ((transactions T call).spec i) (Then fun _ d' => d' = d) d := by
  refine wp_effect fun r d' hwork => ?_
  rw [hquiet r d' hwork]
  exact ⟨.refl h, fun _ _ => rfl⟩

/-- A part, and then the rest. -/
theorem wp_next {β : Type} {p : Held T β} {f : β → Held T α} {A : β → Data → Prop}
    {B : α → Data → Prop} (hp : p.wp ((transactions T call).spec i) (Then A) d)
    (hf : ∀ x d', Good d' → A x d' → (f x).wp ((transactions T call).spec i) (Then B) d') :
    (p >>= f).wp ((transactions T call).spec i) (Then B) d :=
  Prog.wp_seq hp (fun _ => id) hf

/-- The record is saved. -/
theorem wp_savePrivateJson (h : Good d) (hnone : d.record = none) :
    (savePrivateJson record : Held T Unit).wp ((transactions T call).spec i)
      (Then fun _ d' => d'.record = some record) d := by
  refine wp_next (wp_still h fun _ _ hwork => hwork) ?_
  rintro _ d' h rfl
  refine wp_next (wp_still h fun _ _ hwork => hwork) ?_
  rintro _ d' h rfl
  refine wp_next (A := fun _ d' => d'.record = some record) (wp_effect fun r d₂ hwork => ?_) ?_
  · rcases hwork with ⟨e, rfl, rfl⟩ | rfl
    · exact ⟨.refl h, fun _ hfalse => by cases hfalse⟩
    · exact ⟨.save h hnone, fun _ _ => rfl⟩
  · rintro _ d₃ h₃ hrecord
    refine Prog.wp_post_mono (wp_still h₃ fun _ _ hwork => hwork) (fun _ => id) ?_
    rintro _ d₄ _ rfl
    exact hrecord

/-- The record is the saved one, and it belongs to the intent. -/
def Ready (P : Packages) (intent : Intent) (record : Signed) (d : Data) : Prop :=
  d.record = some record ∧ record.intent = intent ∧ P.keccak256 record.raw = .ok record.hash

theorem wp_signedRecord (h : Good d) :
    (signedRecord P (call i) : Held T Signed).wp ((transactions T call).spec i)
      (Then (Ready P (call i))) d := by
  refine wp_next (A := fun found d' => d' = d ∧ found = d.record) (wp_effect fun r d' hwork => ?_) ?_
  · obtain ⟨rfl, hfound⟩ := hwork
    exact ⟨.refl h, fun found hr => ⟨rfl, hfound found hr⟩⟩
  · rintro found d' h ⟨rfl, hfound⟩
    cases found with
    | some saved =>
      refine Prog.wp_ite (fun _ => wp_refuse h) fun hsame => ?_
      refine wp_next (wp_check h) ?_
      rintro hash d' h ⟨rfl, hhash⟩
      refine Prog.wp_ite (fun _ => wp_refuse h) fun heq => ?_
      rw [not_not] at hsame heq
      subst heq
      exact Prog.wp_pure.2 ⟨h, hfound.symm, text_inj hsame, hhash⟩
    | none =>
      refine wp_next (A := fun _ d' => d'.record = none) (wp_effect fun r d₂ hwork => ?_) ?_
      · obtain rfl : d₂ = d'.note .signed := hwork
        exact ⟨.sign h hfound.symm, fun _ _ => hfound.symm⟩
      · rintro raw d₂ h₂ hnone
        refine wp_next (wp_check h₂) ?_
        rintro hash d₂ h₂ ⟨rfl, hhash⟩
        refine wp_next (wp_savePrivateJson h₂ hnone) ?_
        rintro _ d₃ h₃ hrecord
        exact Prog.wp_pure.2 ⟨h₃, hrecord, rfl, hhash⟩

/-- Only the saved bytes are broadcast. -/
theorem wp_findReceipt (h : Good d) (hready : Ready P (call i) record d) :
    (findReceipt record : Held T (Option T)).wp ((transactions T call).spec i)
      (Then fun _ d' => Ready P (call i) record d') d := by
  refine wp_next (wp_still h fun _ _ hwork => hwork) ?_
  rintro found d' h rfl
  cases found with
  | some receipt => exact Prog.wp_pure.2 ⟨h, hready⟩
  | none =>
    refine wp_next (A := fun _ d' => Ready P (call i) record d') ?_ fun _ d₂ h₂ hready => ?_
    · have hguar := Guar.broadcast h hready.1 hready.2.1
      have hsame : Ready P (call i) record (d'.note (.broadcast record.raw)) := hready
      -- an error of the broadcast is swallowed
      rw [Prog.wp_tryCatch]
      refine Callers.wp_await fun r d₂ hwork => ?_
      obtain rfl : d₂ = d'.note (.broadcast record.raw) := hwork
      cases r with
      | ok u => exact ⟨hguar, hguar.good, hsame⟩
      | error e => exact ⟨hguar, Prog.wp_pure.2 ⟨hguar.good, hsame⟩⟩
    · refine Prog.wp_post_mono (wp_still h₂ fun _ _ hwork => hwork) (fun _ => id) ?_
      rintro _ d₃ _ rfl
      exact hready

variable (P) in
/-- A receipt is that of the saved bytes, which are those of the intent. -/
def Returned (intent : Intent) (receipt : Receipt) (d : Data) : Prop :=
  ∃ record, d.record = some record ∧ record.intent = intent ∧ receipt.status = js "success" ∧
    P.keccak256 record.raw = .ok record.hash ∧
    receipt.transactionHash.toLowerCase = record.hash.toLowerCase

theorem wp_send (h : Good d) :
    (send P read (call i) : Held T T).wp ((transactions T call).spec i)
      (Then fun receipt d' => Returned P (call i) (read receipt) d') d := by
  refine wp_next (wp_signedRecord h) fun record d h hready => ?_
  refine wp_next (wp_findReceipt h hready) fun found d h hready => ?_
  cases found with
  | none => exact wp_refuse h
  | some receipt =>
    refine Prog.wp_ite (fun _ => wp_refuse h) fun hchecked => ?_
    simp only [not_or, not_not] at hchecked
    obtain ⟨hrecord, hintent, hhash⟩ := hready
    exact Prog.wp_pure.2 ⟨h, record, hrecord, hintent, hchecked.1, hhash, hchecked.2⟩

variable {name : JsString} {w : Locked.World ι Data}

/-- The outcome of a call. -/
theorem wp_durableSignedTransaction (hi : w.owner ≠ some i) :
    (durableSignedTransaction P read name (call i)).wp
      ((transactions T call).protocol.spec (Locked.callers work (calls P read call name)) i)
      (fun r w' => Prog.post (fun _ => True)
        (fun receipt d => Returned P (call i) (read receipt) d) r w'.data) w := by
  unfold durableSignedTransaction
  refine Prog.wp_ite (fun _ => Prog.wp_throw.2 trivial) fun _ => ?_
  refine Callers.wp_exclusive (X := transactions T call) hi fun d hd _ => ?_
  exact Prog.wp_post_mono (wp_send hd) (fun _ _ => trivial) fun _ _ _ => id

variable (P read call name) in
theorem sound : ((transactions T call).protocol).Sound
    (Locked.callers work (calls P read call name)) :=
  Callers.sound fun i w p howner hp => by
    rw [calls] at hp
    rw [hp]
    exact Prog.wp_mono (wp_durableSignedTransaction howner) fun _ _ _ => trivial

theorem Returned.kept {receipt : Receipt} (h : Returned P intent receipt d) (hkept : Kept d d') :
    Returned P intent receipt d' := by
  obtain ⟨record, hrecord, hrest⟩ := h
  exact ⟨record, (hkept record hrecord).1, hrest⟩

/-! ### The runs -/

variable [DecidableEq ι]
  {τ : List (Tr (System.State ι (Locked.World ι Data) (Locked (Work T)) (Locked.Answer (Answer T))
    JsError T) (System.Action ι (Locked (Work T)) (Locked.Answer (Answer T)) JsError T))}
  {s : System.State ι (Locked.World ι Data) (Locked (Work T)) (Locked.Answer (Answer T))
    JsError T}

/-- **The transactions under a name, over every run.**  All that was broadcast are the same bytes.
A saved record is permanent, and nothing is signed after it was saved.  A call broadcasts the bytes
of the saved record, which is that of its intent; a call with another intent does nothing.  A
receipt that a call returns is one of success with the hash of the saved bytes of its intent; a call
with another intent never returns one. -/
theorem transaction_runs (hd : d.history = [])
    (hs : (Locked.callers work (calls P read call name)).lts.Run (Locked.idle d) τ s) :
    (∀ raw raw', .broadcast raw ∈ s.world.data.history → .broadcast raw' ∈ s.world.data.history →
      raw = raw') ∧
    (∀ σ t, (Locked.callers work (calls P read call name)).lts.Run s σ t →
      ∀ record, s.world.data.record = some record →
        t.world.data.record = some record ∧
          signatures t.world.data = signatures s.world.data) ∧
    (∀ i raw r t, (Locked.callers work (calls P read call name)).lts.step s
        (.effect i (.work (.broadcast raw)) r) t →
      ∃ record, s.world.data.record = some record ∧ record.intent = call i ∧ record.raw = raw) ∧
    (∀ i o r t, (Locked.callers work (calls P read call name)).lts.step s (.effect i o r) t →
      ∀ record, s.world.data.record = some record → record.intent ≠ call i →
        t.world.data = s.world.data) ∧
    ∀ i r t, s.processes i = none → s.world.owner ≠ some i →
      (Locked.callers work (calls P read call name)).Answers s i
        (durableSignedTransaction P read name (call i)) r t →
      (∀ receipt, r = .ok receipt → Returned P (call i) (read receipt) t.world.data) ∧
      ∀ record, s.world.data.record = some record → record.intent ≠ call i → ∃ e, r = .error e := by
  have hgood₀ : Good d := fun raw hraw => by
    rw [hd] at hraw
    cases hraw
  have hsound := sound (T := T) P read call name
  have hgood : Good s.world.data := Callers.run hsound hgood₀ hs
  have hother : ∀ i o r t, (Locked.callers work (calls P read call name)).lts.step s
      (.effect i o r) t → ∀ record, s.world.data.record = some record →
        record.intent ≠ call i → t.world.data = s.world.data := by
    intro i o r t hstep record hrecord hne
    rcases Callers.step_data hsound hgood₀ hs hstep with hsame | ⟨j, o', r', heq, hguar⟩
    · exact hsame
    · cases heq
      exact Guar.other hguar record hrecord hne
  refine ⟨fun raw raw' h h' => ?_, fun σ t ht => Callers.run_keeps hsound hgood₀ hs ht,
    fun i raw r t hstep => ?_, hother, fun i r t hfree howner ha => ?_⟩
  -- All that was broadcast is the saved record.
  · obtain ⟨record, hrecord, rfl⟩ := hgood raw h
    obtain ⟨record', hrecord', rfl⟩ := hgood raw' h'
    rw [Option.some.inj (hrecord.symm.trans hrecord')]
  · have hnoted : t.world.data = s.world.data.note (.broadcast raw) := by
      cases hstep with
      | effect running sem =>
        obtain ⟨d, hwork, rfl⟩ := sem
        exact hwork
    have hgood' : Good t.world.data := Callers.run hsound hgood₀ (hs.snoc hstep)
    have hlast : Event.broadcast raw ∈ t.world.data.history := by
      rw [hnoted]
      exact List.mem_append_right _ (List.mem_singleton_self _)
    obtain ⟨record, hrecord, hraw⟩ := hgood' raw hlast
    have hrecord' : s.world.data.record = some record := by
      rw [hnoted] at hrecord
      exact hrecord
    -- A call with another intent would have left the history alone.
    refine ⟨record, hrecord', ?_, hraw⟩
    by_contra hne
    have hsame := hother i _ _ _ hstep record hrecord' hne
    have hlength := congrArg (fun d => d.history.length) (hnoted.symm.trans hsame)
    simp [Data.note] at hlength
  · have hreturned := Callers.answers hsound hgood₀ hs hfree ⟨howner, rfl⟩
      (Q := Prog.post (fun _ => True) fun receipt d => Returned P (call i) (read receipt) d)
      (fun r d d' hkept hr => ?_) (wp_durableSignedTransaction howner) ha
    · refine ⟨fun receipt hr => ?_, fun record hrecord hne => ?_⟩
      · rw [hr] at hreturned
        exact hreturned.2
      · cases r with
        | error e => exact ⟨e, rfl⟩
        | ok receipt =>
          -- The record stays until the call returns, and it is that of the intent.
          obtain ⟨-, record', hrecord', hmine, -⟩ := hreturned
          obtain ⟨σ, ht⟩ := System.run_of_answers
            (S := Locked.callers work (calls P read call name)) hfree ⟨howner, rfl⟩ ha
          obtain ⟨hkept, -⟩ := Callers.run_keeps hsound hgood₀ hs ht record hrecord
          rw [hkept] at hrecord'
          cases hrecord'
          exact absurd hmine hne
    · cases r with
      | error e => trivial
      | ok receipt => exact ⟨trivial, Returned.kept hr.2 hkept⟩

end Eoa

end Obolos
