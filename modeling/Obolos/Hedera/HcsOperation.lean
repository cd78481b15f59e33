import Obolos.Crash.Reach
import Obolos.Scripts.SignedTransaction

/-!
# Dispatching an operation once

`hedera-register.ts`: the signed intent of an operation is saved in a new file before it is
dispatched.  A later call finds the file and only recovers the operation, with the intent in it; it
never dispatches, because an earlier answer may have been lost.

Any number of processes call `executeDurableHcsOperation` with one file, each with a fingerprint of
its own, and each can be killed between any two effects.  A file whose writing was interrupted is no JSON text, so it is never read
as an intent.
-/

namespace Obolos

namespace Hcs

/-- `SignedIntent` -/
structure SignedIntent where
  transactionId : JsString
  signedBytes : JsString
  deriving DecidableEq

/-- `Journal`; its `version` is always 1. -/
structure Intent (T : Type) where
  fingerprint : JsString
  createdAt : JsString
  signed : SignedIntent
  result : Option T

/-- The file of the operation: there is none, it is not written yet, or it has this content. -/
inductive Journal (T : Type)
  | absent
  | partial_
  | content (intent : Intent T)

/-- A call of `dispatch`: the intent, and beside it the file at that time, whether its directory was
synced, and whether the caller had found no file. -/
structure Dispatch (T : Type) where
  intent : Intent T
  journal : Journal T
  synced : Bool
  creating : Bool

/-- The file, whether its directory was synced since it is there, whether the call that read it last
found none, and what happened. -/
structure Data (T : Type) where
  journal : Journal T
  synced : Bool
  creating : Bool
  dispatches : List (Dispatch T)
  /-- The intents that `recover` was called with. -/
  recoveries : List (Intent T)

/-- What the code awaits behind the lock. -/
inductive Work (T : Type)
  | readFile
  | prepare
  | now
  | mkdir
  /-- `open(filename, 'wx')` -/
  | create
  /-- Write, sync and close the new file. -/
  | write (intent : Intent T)
  /-- Write, sync and close a temporary file. -/
  | writeTemp
  | rename (intent : Intent T)
  | syncDirectory
  | dispatch (intent : Intent T)
  | recover (existing : Intent T)

/-- What the code is answered. -/
@[reducible] def Answer (T : Type) : Work T → Type
  | .readFile => Journal T
  | .prepare => SignedIntent
  | .now => JsString
  | .dispatch _ => T
  | .recover _ => T
  | _ => Unit

variable {T : Type}

/-- The code behind the lock. -/
abbrev Held (T : Type) := Prog (Work T) (Answer T) JsError

/-- One effect. -/
def await (o : Work T) : Held T (Answer T o) := Prog.await o

/-- `throw Error(message)` -/
def refuse {α : Type} (message : String) : Held T α := throw (.error (js message))

/-- `durableWrite(filename, intent, true)` -/
def createJournal (intent : Intent T) : Held T Unit := do
  await .mkdir
  await .create
  await (.write intent)
  await .syncDirectory

/-- `durableWrite(filename, intent)` -/
def rewriteJournal (intent : Intent T) : Held T Unit := do
  await .mkdir
  await .writeTemp
  await (.rename intent)
  await .syncDirectory

/-- The part of `executeDurableHcsOperation` behind the lock. -/
def execute (fingerprint : JsString) : Held T T := do
  match ← await .readFile with
  | .partial_ => throw .other
  | .content existing =>
    if existing.fingerprint ≠ fingerprint then
      refuse "HCS operation identity was reused with different terms."
    else do
      let result ← await (.recover existing)
      rewriteJournal { existing with result := some result }
      return result
  | .absent => do
    let signed ← await .prepare
    let createdAt ← await .now
    let intent : Intent T := ⟨fingerprint, createdAt, signed, none⟩
    createJournal intent
    let result ← await (.dispatch intent)
    rewriteJournal { intent with result := some result }
    return result

/-- `executeDurableHcsOperation(filename, fingerprint, prepare, dispatch, recover)` -/
def executeDurableHcsOperation (fingerprint : JsString) :
    Prog (Locked (Work T)) (Locked.Answer (Answer T)) JsError T :=
  Locked.exclusive (.error (js "Another process owns this operation lock.")) (execute fingerprint)

/-! ### What the effects do -/

/-- There is no file. -/
def Journal.isAbsent : Journal T → Bool
  | .absent => true
  | _ => false

/-- What an effect answers and does.  A call that fails may have had its effect. -/
def work (d : Data T) : (o : Work T) → Except JsError (Answer T o) → Data T → Prop
  | .readFile, r, d' =>
    d' = { d with creating := d.journal.isAbsent } ∧ ∀ journal, r = .ok journal → journal = d.journal
  | .create, r, d' =>
    (∃ e, r = .error e ∧ d' = d) ∨
      d.journal = .absent ∧ d' = { d with
        journal := .partial_
        synced := false }
  | .write intent, r, d' =>
    (∃ e, r = .error e ∧ d' = d) ∨ d' = { d with journal := .content intent }
  | .rename intent, r, d' =>
    (∃ e, r = .error e ∧ d' = d) ∨ d' = { d with journal := .content intent }
  | .syncDirectory, r, d' => (∃ e, r = .error e ∧ d' = d) ∨ d' = { d with synced := true }
  | .dispatch intent, _, d' =>
    d' = { d with dispatches := d.dispatches ++ [⟨intent, d.journal, d.synced, d.creating⟩] }
  | .recover existing, _, d' => d' = { d with recoveries := d.recoveries ++ [existing] }
  | _, _, d' => d' = d

/-- The caller had found no file, and when it dispatched the intent this was in a file that was
synced. -/
structure Dispatch.Durable (x : Dispatch T) : Prop where
  creating : x.creating = true
  synced : x.synced = true
  journal : x.journal = .content x.intent

/-- The intents are those of one operation. -/
structure Same (intent intent' : Intent T) : Prop where
  fingerprint : intent'.fingerprint = intent.fingerprint
  createdAt : intent'.createdAt = intent.createdAt
  signed : intent'.signed = intent.signed

/-- What happened is about the intent. -/
structure About (intent : Intent T) (d : Data T) : Prop where
  once : d.dispatches.length ≤ 1
  dispatches : ∀ x ∈ d.dispatches, Same intent x.intent ∧ x.Durable
  recoveries : ∀ x ∈ d.recoveries, Same intent x

/-- Nothing was dispatched or recovered without a file, and what was is about the intent in it. -/
def Good (d : Data T) : Prop :=
  match d.journal with
  | .content intent => About intent d
  | _ => d.dispatches = [] ∧ d.recoveries = []

/-- The file stays, and its intent. -/
def Kept (d d' : Data T) : Prop :=
  match d.journal with
  | .absent => True
  | .partial_ => d'.journal ≠ .absent
  | .content intent => ∃ intent', d'.journal = .content intent' ∧ Same intent intent'

/-- The file stays as it is, and nothing happens. -/
structure Untouched (d d' : Data T) : Prop where
  journal : d'.journal = d.journal
  synced : d'.synced = d.synced
  dispatches : d'.dispatches = d.dispatches
  recoveries : d'.recoveries = d.recoveries

/-- What a call with the fingerprint may do. -/
structure Guar (fingerprint : JsString) (d d' : Data T) : Prop where
  good : Good d'
  kept : Kept d d'
  other : ∀ intent, d.journal = .content intent → intent.fingerprint ≠ fingerprint → Untouched d d'

variable {ι : Type} {call : ι → JsString} {i : ι} {d d' : Data T} {intent intent' : Intent T}
  {fingerprint : JsString} {α : Type}

theorem Same.refl (intent : Intent T) : Same intent intent := ⟨rfl, rfl, rfl⟩

theorem Same.trans {intent'' : Intent T} (h : Same intent intent') (h' : Same intent' intent'') :
    Same intent intent'' :=
  ⟨h'.fingerprint.trans h.fingerprint, h'.createdAt.trans h.createdAt, h'.signed.trans h.signed⟩

theorem Kept.refl (d : Data T) : Kept d d := by
  unfold Kept
  cases h : d.journal with
  | absent => trivial
  | partial_ => intro hfalse; cases hfalse
  | content intent => exact ⟨intent, rfl, .refl intent⟩

theorem Kept.trans {d'' : Data T} (h : Kept d d') (h' : Kept d' d'') : Kept d d'' := by
  unfold Kept at h ⊢
  cases hd : d.journal with
  | absent => trivial
  | partial_ =>
    rw [hd] at h
    unfold Kept at h'
    cases hd' : d'.journal with
    | absent => exact absurd hd' h
    | partial_ => rw [hd'] at h'; exact h'
    | content intent =>
      rw [hd'] at h'
      obtain ⟨intent', hintent', -⟩ := h'
      dsimp only
      rw [hintent']
      intro hfalse
      cases hfalse
  | content intent =>
    rw [hd] at h
    obtain ⟨intent', hintent', hsame⟩ := h
    unfold Kept at h'
    rw [hintent'] at h'
    obtain ⟨intent'', hintent'', hsame'⟩ := h'
    exact ⟨intent'', hintent'', hsame.trans hsame'⟩

/-- The calls behind the lock; process `i` calls with the fingerprint `call i`. -/
def operations (T : Type) {ι : Type} (call : ι → JsString) :
    Callers ι (Data T) (Work T) (Answer T) JsError where
  work := work
  inv := Good
  guar i := Guar (call i)
  keeps := Kept
  keeps_refl := Kept.refl
  keeps_trans _ _ _ := Kept.trans
  inv_of_guar _ _ _ _ h := h.good
  keeps_of_guar _ _ _ _ h := h.kept

/-- The calls with the file. -/
def calls {ι : Type} (call : ι → JsString) (i : ι)
    (p : Prog (Locked (Work T)) (Locked.Answer (Answer T)) JsError T) : Prop :=
  p = executeDurableHcsOperation (call i)

/-- The file and what happened are those of the intent. -/
structure Holds (intent : Intent T) (d : Data T) : Prop where
  journal : d.journal = .content intent
  about : About intent d

theorem Holds.good (h : Holds intent d) : Good d := by
  unfold Good
  rw [h.journal]
  exact h.about

/-- What an effect of a call with the intent may do. -/
theorem Holds.guar (h : Holds intent d) (h' : Holds intent' d') (hsame : Same intent intent')
    (hmine : intent.fingerprint = fingerprint) : Guar fingerprint d d' := by
  refine ⟨h'.good, ?_, fun other hother hne => ?_⟩
  · unfold Kept
    rw [h.journal]
    exact ⟨intent', h'.journal, hsame⟩
  · rw [h.journal] at hother
    cases hother
    exact absurd hmine hne

theorem guar_of_absent (h : Good d') (hd : d.journal = .absent) : Guar fingerprint d d' := by
  refine ⟨h, ?_, fun other hother => ?_⟩
  · unfold Kept
    rw [hd]
    trivial
  · rw [hd] at hother
    cases hother

theorem Guar.refl (h : Good d) : Guar fingerprint d d :=
  ⟨h, .refl d, fun _ _ _ => ⟨rfl, rfl, rfl, rfl⟩⟩

/-- Nothing happened yet. -/
structure Fresh (d : Data T) : Prop where
  dispatches : d.dispatches = []
  recoveries : d.recoveries = []

theorem Fresh.good (h : Fresh d) (hd : d.journal = .absent ∨ d.journal = .partial_) : Good d := by
  unfold Good
  rcases hd with hd | hd <;> rw [hd] <;> exact ⟨h.dispatches, h.recoveries⟩

theorem Fresh.about (h : Fresh d) : About intent d := by
  refine ⟨?_, fun x hx => ?_, fun x hx => ?_⟩
  · rw [h.dispatches]
    exact Nat.zero_le 1
  · rw [h.dispatches] at hx
    cases hx
  · rw [h.recoveries] at hx
    cases hx

/-! ### The programs -/

/-- What holds whatever the outcome of a program; and `A` after it returned. -/
abbrev Then (A : α → Data T → Prop) : Except JsError α → Data T → Prop := Prog.post Good A

theorem wp_refuse {message : String} {A : α → Data T → Prop} (h : Good d) :
    (refuse message : Held T α).wp ((operations T call).spec i) (Then A) d := Prog.wp_throw.2 h

/-- An effect. -/
theorem wp_effect {o : Work T} {A : Answer T o → Data T → Prop}
    (h : ∀ r d', work d o r d' → Guar (call i) d d' ∧ ∀ a, r = .ok a → A a d') :
    (await o).wp ((operations T call).spec i) (Then A) d := by
  refine Callers.wp_await fun r d' hwork => ?_
  obtain ⟨hguar, hA⟩ := h r d' hwork
  cases r with
  | error e => exact ⟨hguar, hguar.good⟩
  | ok a => exact ⟨hguar, hguar.good, hA a rfl⟩

/-- An effect that changes nothing. -/
theorem wp_still {o : Work T} (h : Good d) (hquiet : ∀ r d', work d o r d' → d' = d) :
    (await o).wp ((operations T call).spec i) (Then fun _ d' => d' = d) d := by
  refine wp_effect fun r d' hwork => ?_
  rw [hquiet r d' hwork]
  exact ⟨.refl h, fun _ _ => rfl⟩

/-- A part, and then the rest. -/
theorem wp_next {β : Type} {p : Held T β} {f : β → Held T α} {A : β → Data T → Prop}
    {B : α → Data T → Prop} (hp : p.wp ((operations T call).spec i) (Then A) d)
    (hf : ∀ x d', Good d' → A x d' → (f x).wp ((operations T call).spec i) (Then B) d') :
    (p >>= f).wp ((operations T call).spec i) (Then B) d :=
  Prog.wp_seq hp (fun _ => id) hf

/-- The result is added to the intent in the file. -/
theorem wp_rewriteJournal (h : Holds intent d) (hmine : intent.fingerprint = call i)
    (hsame : Same intent intent') :
    (rewriteJournal intent').wp ((operations T call).spec i)
      (Then fun _ d' => Holds intent' d') d := by
  have hback : ∀ {x : Intent T}, Same intent x → Same intent' x := fun h =>
    ⟨h.fingerprint.trans hsame.fingerprint.symm, h.createdAt.trans hsame.createdAt.symm,
      h.signed.trans hsame.signed.symm⟩
  have hmine' : intent'.fingerprint = call i := hsame.fingerprint.trans hmine
  refine wp_next (wp_still h.good fun _ _ hwork => hwork) ?_
  rintro _ d _ rfl
  refine wp_next (wp_still h.good fun _ _ hwork => hwork) ?_
  rintro _ d _ rfl
  refine wp_next (A := fun _ d' => Holds intent' d') (wp_effect fun r d' hwork => ?_)
    fun _ d' _ h' => ?_
  · rcases hwork with ⟨e, rfl, rfl⟩ | rfl
    · exact ⟨.refl h.good, fun _ hfalse => by cases hfalse⟩
    · have h' : Holds intent' { d with journal := .content intent' } :=
        ⟨rfl, h.about.once, fun x hx => (h.about.dispatches x hx).imp_left hback,
          fun x hx => hback (h.about.recoveries x hx)⟩
      exact ⟨h.guar h' hsame hmine, fun _ _ => h'⟩
  · refine wp_effect fun r d'' hwork => ?_
    rcases hwork with ⟨e, rfl, rfl⟩ | rfl
    · exact ⟨.refl h'.good, fun _ _ => h'⟩
    · have h'' : Holds intent' { d' with synced := true } :=
        ⟨h'.journal, h'.about.once, h'.about.dispatches, h'.about.recoveries⟩
      exact ⟨h'.guar h'' (.refl intent') hmine', fun _ _ => h''⟩

/-- The file is written, and its directory is synced. -/
theorem wp_createJournal (h : Fresh d) (hd : d.journal = .absent) (hcreating : d.creating = true)
    (hmine : intent.fingerprint = call i) :
    (createJournal intent).wp ((operations T call).spec i)
      (Then fun _ d' => d' = ⟨.content intent, true, true, [], []⟩) d := by
  obtain ⟨journal, synced, creating, dispatches, recoveries⟩ := d
  obtain ⟨rfl, rfl⟩ := h
  dsimp only at hd hcreating
  subst hd hcreating
  have hgood : ∀ {synced : Bool}, Good (T := T) ⟨.absent, synced, true, [], []⟩ :=
    Fresh.good ⟨rfl, rfl⟩ (Or.inl rfl)
  have hcreated : ∀ {synced : Bool}, Good (T := T) ⟨.partial_, synced, true, [], []⟩ :=
    Fresh.good ⟨rfl, rfl⟩ (Or.inr rfl)
  have hholds : ∀ {synced : Bool}, Holds intent ⟨.content intent, synced, true, [], []⟩ :=
    ⟨rfl, Fresh.about ⟨rfl, rfl⟩⟩
  refine wp_next (wp_still hgood fun _ _ hwork => hwork) ?_
  rintro _ d - rfl
  refine wp_next (A := fun _ d' => d' = ⟨.partial_, false, true, [], []⟩)
    (wp_effect fun r d' hwork => ?_) ?_
  · rcases hwork with ⟨e, rfl, rfl⟩ | ⟨-, rfl⟩
    · exact ⟨guar_of_absent hgood rfl, fun _ hfalse => by cases hfalse⟩
    · exact ⟨guar_of_absent hcreated rfl, fun _ _ => rfl⟩
  rintro _ d - rfl
  refine wp_next (A := fun _ d' => d' = ⟨.content intent, false, true, [], []⟩)
    (wp_effect fun r d' hwork => ?_) ?_
  · rcases hwork with ⟨e, rfl, rfl⟩ | rfl
    · exact ⟨.refl hcreated, fun _ hfalse => by cases hfalse⟩
    · exact ⟨⟨hholds.good, fun hfalse => (by cases hfalse), fun _ hfalse => (by cases hfalse)⟩,
        fun _ _ => rfl⟩
  rintro _ d - rfl
  refine wp_effect fun r d' hwork => ?_
  rcases hwork with ⟨e, rfl, rfl⟩ | rfl
  · exact ⟨.refl hholds.good, fun _ hfalse => by cases hfalse⟩
  · exact ⟨hholds.guar hholds (.refl intent) hmine, fun _ _ => rfl⟩

/-- Who finds no file dispatches once. -/
theorem wp_dispatch (hmine : intent.fingerprint = call i) :
    (await (.dispatch intent)).wp ((operations T call).spec i)
      (Then fun _ d' => Holds intent d') ⟨.content intent, true, true, [], []⟩ := by
  have hbefore : Holds intent (⟨.content intent, true, true, [], []⟩ : Data T) :=
    ⟨rfl, Fresh.about ⟨rfl, rfl⟩⟩
  refine wp_effect fun r d' hwork => ?_
  obtain rfl : d' = ⟨.content intent, true, true, [⟨intent, .content intent, true, true⟩], []⟩ :=
    hwork
  have hafter : Holds intent
      (⟨.content intent, true, true, [⟨intent, .content intent, true, true⟩], []⟩ : Data T) := by
    refine ⟨rfl, Nat.le_refl 1, fun x hx => ?_, fun x hx => by cases hx⟩
    rw [List.mem_singleton.1 hx]
    exact ⟨.refl intent, rfl, rfl, rfl⟩
  exact ⟨hbefore.guar hafter (.refl intent) hmine, fun _ _ => hafter⟩

/-- Who finds a file recovers the operation with the intent in it. -/
theorem wp_recover (h : Holds intent d) (hmine : intent.fingerprint = call i) :
    (await (.recover intent)).wp ((operations T call).spec i)
      (Then fun _ d' => Holds intent d') d := by
  refine wp_effect fun r d' hwork => ?_
  obtain rfl : d' = { d with recoveries := d.recoveries ++ [intent] } := hwork
  have hafter : Holds intent { d with recoveries := d.recoveries ++ [intent] } := by
    refine ⟨h.journal, h.about.once, h.about.dispatches, fun x hx => ?_⟩
    rcases List.mem_append.1 hx with hx | hx
    · exact h.about.recoveries x hx
    · rw [List.mem_singleton.1 hx]
      exact .refl intent
  exact ⟨h.guar hafter (.refl intent) hmine, fun _ _ => hafter⟩

/-- Reading the file. -/
theorem wp_readFile (h : Good d) : (await .readFile).wp ((operations T call).spec i)
    (Then fun journal d' => journal = d'.journal ∧ d'.creating = d'.journal.isAbsent) d := by
  refine wp_effect fun r d' hwork => ?_
  obtain ⟨rfl, hjournal⟩ := hwork
  refine ⟨⟨?_, Kept.refl d, fun _ _ _ => ⟨rfl, rfl, rfl, rfl⟩⟩,
    fun journal hr => ⟨hjournal journal hr, rfl⟩⟩
  revert h
  unfold Good
  cases d.journal with
  | content intent => exact fun h => ⟨h.once, h.dispatches, h.recoveries⟩
  | _ => exact id

/-- The intent of the file has this fingerprint. -/
def Recorded (fingerprint : JsString) (d : Data T) : Prop :=
  ∃ intent, d.journal = .content intent ∧ intent.fingerprint = fingerprint

theorem wp_execute (h : Good d) :
    (execute (call i) : Held T T).wp ((operations T call).spec i)
      (Then fun _ d' => Recorded (call i) d') d := by
  refine wp_next (wp_readFile h) ?_
  rintro journal d h ⟨rfl, hcreating⟩
  cases hd : d.journal with
  | partial_ => exact Prog.wp_throw.2 h
  | content existing =>
    have hholds : Holds existing d := by
      refine ⟨hd, ?_⟩
      unfold Good at h
      rw [hd] at h
      exact h
    refine Prog.wp_ite (fun _ => wp_refuse h) fun hsame => ?_
    rw [not_not] at hsame
    refine wp_next (wp_recover hholds hsame) fun result d _ hholds => ?_
    refine wp_next (wp_rewriteJournal hholds hsame ⟨rfl, rfl, rfl⟩) fun _ d h hholds => ?_
    exact Prog.wp_pure.2 ⟨h, _, hholds.journal, hsame⟩
  | absent =>
    have hfresh : Fresh d := by
      unfold Good at h
      rw [hd] at h
      exact ⟨h.1, h.2⟩
    rw [hd] at hcreating
    refine wp_next (wp_still h fun _ _ hwork => hwork) ?_
    rintro signed d h rfl
    refine wp_next (wp_still h fun _ _ hwork => hwork) ?_
    rintro createdAt d h rfl
    refine wp_next (wp_createJournal hfresh hd hcreating rfl) ?_
    rintro _ d - rfl
    refine wp_next (wp_dispatch rfl) fun result d _ hholds => ?_
    refine wp_next (wp_rewriteJournal hholds rfl ⟨rfl, rfl, rfl⟩) fun _ d h hholds => ?_
    exact Prog.wp_pure.2 ⟨h, _, hholds.journal, rfl⟩

variable {w : Locked.World ι (Data T)}

/-- The outcome of a call. -/
theorem wp_executeDurableHcsOperation (hi : w.owner ≠ some i) :
    (executeDurableHcsOperation (call i)).wp
      ((operations T call).protocol.spec (Locked.callers work (calls call)) i)
      (fun r w' => Prog.post (fun _ => True) (fun _ d => Recorded (call i) d) r w'.data) w := by
  refine Callers.wp_exclusive (X := operations T call) hi fun d hd _ => ?_
  exact Prog.wp_post_mono (wp_execute hd) (fun _ _ => trivial) fun _ _ _ => id

variable (T call) in
theorem sound : ((operations T call).protocol).Sound (Locked.callers work (calls call)) :=
  Callers.sound fun i w p howner hp => by
    rw [calls] at hp
    rw [hp]
    exact Prog.wp_mono (wp_executeDurableHcsOperation howner) fun _ _ _ => trivial

/-- An intent stays in the file. -/
theorem Kept.content (h : Kept d d') (hd : d.journal = .content intent) :
    ∃ intent', d'.journal = .content intent' ∧ Same intent intent' := by
  unfold Kept at h
  rw [hd] at h
  exact h

theorem Recorded.kept (h : Recorded fingerprint d) (hkept : Kept d d') :
    Recorded fingerprint d' := by
  obtain ⟨intent, hintent, rfl⟩ := h
  obtain ⟨intent', hintent', hsame⟩ := hkept.content hintent
  exact ⟨intent', hintent', hsame.fingerprint⟩

/-- What happened is about an intent, which is in the file. -/
theorem Good.happened (h : Good d) :
    (d.dispatches = [] ∧ d.recoveries = []) ∨ ∃ intent, d.journal = .content intent ∧ About intent d := by
  unfold Good at h
  cases hd : d.journal with
  | content intent =>
    rw [hd] at h
    exact Or.inr ⟨intent, rfl, h⟩
  | _ =>
    rw [hd] at h
    exact Or.inl h

/-! ### The runs -/

variable [DecidableEq ι]
  {τ : List (Tr (System.State ι (Locked.World ι (Data T)) (Locked (Work T))
    (Locked.Answer (Answer T)) JsError T)
      (System.Action ι (Locked (Work T)) (Locked.Answer (Answer T)) JsError T))}
  {s : System.State ι (Locked.World ι (Data T)) (Locked (Work T)) (Locked.Answer (Answer T))
    JsError T}

/-- **The calls with a file, over every run.**  At most one intent is dispatched, by a call that had
found no file, when the file with this intent was synced.  An intent in the file is permanent, and
all that was dispatched or recovered is this intent.  A call dispatches and recovers an intent of
its own fingerprint; a call with another one does nothing, and never returns. -/
theorem operation_runs (hd : d.dispatches = [] ∧ d.recoveries = [])
    (hs : (Locked.callers work (calls (T := T) call)).lts.Run (Locked.idle d) τ s) :
    s.world.data.dispatches.length ≤ 1 ∧ (∀ x ∈ s.world.data.dispatches, x.Durable) ∧
    (∀ x, (x ∈ s.world.data.dispatches.map Dispatch.intent ∨ x ∈ s.world.data.recoveries) →
      ∃ intent, s.world.data.journal = .content intent ∧ Same intent x) ∧
    (∀ intent, s.world.data.journal = .content intent → ∀ σ t,
      (Locked.callers work (calls (T := T) call)).lts.Run s σ t →
        ∃ intent', t.world.data.journal = .content intent' ∧ Same intent intent') ∧
    (∀ i o r t, (Locked.callers work (calls (T := T) call)).lts.step s (.effect i o r) t →
      (∀ intent, s.world.data.journal = .content intent → intent.fingerprint ≠ call i →
        Untouched s.world.data t.world.data) ∧
      ∀ intent, (o = .work (.dispatch intent) ∨ o = .work (.recover intent)) →
        intent.fingerprint = call i ∧ Recorded (call i) s.world.data) ∧
    ∀ i r t, s.processes i = none → s.world.owner ≠ some i →
      (Locked.callers work (calls (T := T) call)).Answers s i
        (executeDurableHcsOperation (call i)) r t →
      (∀ result, r = .ok result → Recorded (call i) t.world.data) ∧
      ∀ intent, s.world.data.journal = .content intent → intent.fingerprint ≠ call i →
        ∃ e, r = .error e := by
  have hgood₀ : Good d := by
    cases hjournal : d.journal with
    | content intent => exact (Holds.mk hjournal (Fresh.about ⟨hd.1, hd.2⟩)).good
    | absent => exact Fresh.good ⟨hd.1, hd.2⟩ (Or.inl hjournal)
    | partial_ => exact Fresh.good ⟨hd.1, hd.2⟩ (Or.inr hjournal)
  have hsound := sound T call
  have hgood : Good s.world.data := Callers.run hsound hgood₀ hs
  have hother : ∀ i o r t, (Locked.callers work (calls (T := T) call)).lts.step s
      (.effect i o r) t → ∀ intent, s.world.data.journal = .content intent →
        intent.fingerprint ≠ call i → Untouched s.world.data t.world.data := by
    intro i o r t hstep intent hintent hne
    rcases Callers.step_data hsound hgood₀ hs hstep with hsame | ⟨j, o', r', heq, hguar⟩
    · rw [hsame]
      exact ⟨rfl, rfl, rfl, rfl⟩
    · cases heq
      exact Guar.other hguar intent hintent hne
  refine ⟨?_, ?_, fun x hx => ?_, fun intent hintent σ t ht => ?_, fun i o r t hstep =>
    ⟨hother i o r t hstep, fun intent ho => ?_⟩, fun i r t hfree howner ha => ?_⟩
  · rcases hgood.happened with ⟨hnone, -⟩ | ⟨intent, -, habout⟩
    · rw [hnone]
      exact Nat.zero_le 1
    · exact habout.once
  · rcases hgood.happened with ⟨hnone, -⟩ | ⟨intent, -, habout⟩
    · rw [hnone]
      exact fun x hx => absurd hx List.not_mem_nil
    · exact fun x hx => (habout.dispatches x hx).2
  · rcases hgood.happened with ⟨hnone, hnone'⟩ | ⟨intent, hintent, habout⟩
    · rw [hnone, hnone'] at hx
      rcases hx with hx | hx <;> cases hx
    · refine ⟨intent, hintent, ?_⟩
      rcases hx with hx | hx
      · obtain ⟨y, hy, rfl⟩ := List.mem_map.1 hx
        exact (habout.dispatches y hy).1
      · exact habout.recoveries x hx
  · exact Kept.content (Callers.run_keeps hsound hgood₀ hs ht) hintent
  · have hgood' : Good t.world.data := Callers.run hsound hgood₀ (hs.snoc hstep)
    -- What was dispatched or recovered is about the intent in the file, so the file is not that of
    -- another fingerprint.
    have hrecorded : ∀ {existing : Intent T}, s.world.data.journal = .content existing →
        Same existing intent → ¬ Untouched s.world.data t.world.data →
        intent.fingerprint = call i ∧ Recorded (call i) s.world.data := by
      intro existing hexisting hsame htouched
      have hmine : existing.fingerprint = call i := by
        by_contra hne
        exact htouched (hother i o r t hstep existing hexisting hne)
      exact ⟨hsame.fingerprint.trans hmine, existing, hexisting, hmine⟩
    cases hstep with
    | effect running sem =>
      rcases ho with rfl | rfl
      · obtain ⟨d', hwork, rfl⟩ := sem
        obtain rfl : d' = _ := hwork
        rcases hgood'.happened with ⟨hnone, -⟩ | ⟨existing, hexisting, habout⟩
        · simp at hnone
        · have hlast := habout.dispatches _ (List.mem_append_right _ (List.mem_singleton_self _))
          refine hrecorded hexisting hlast.1 fun hsame => ?_
          simpa using congrArg List.length hsame.dispatches
      · obtain ⟨d', hwork, rfl⟩ := sem
        obtain rfl : d' = _ := hwork
        rcases hgood'.happened with ⟨-, hnone⟩ | ⟨existing, hexisting, habout⟩
        · simp at hnone
        · have hlast := habout.recoveries _ (List.mem_append_right _ (List.mem_singleton_self _))
          refine hrecorded hexisting hlast fun hsame => ?_
          simpa using congrArg List.length hsame.recoveries
  · have hreturned := Callers.answers hsound hgood₀ hs hfree ⟨howner, rfl⟩
      (Q := Prog.post (fun _ => True) fun _ d => Recorded (call i) d)
      (fun r d d' hkept hr => ?_) (wp_executeDurableHcsOperation howner) ha
    · refine ⟨fun result hr => ?_, fun intent hintent hne => ?_⟩
      · rw [hr] at hreturned
        exact hreturned.2
      · cases r with
        | error e => exact ⟨e, rfl⟩
        | ok result =>
          obtain ⟨-, intent', hintent', hmine⟩ := hreturned
          obtain ⟨σ, ht⟩ := System.run_of_answers
            (S := Locked.callers work (calls (T := T) call)) hfree ⟨howner, rfl⟩ ha
          obtain ⟨intent'', hintent'', hsame⟩ :=
            Kept.content (Callers.run_keeps hsound hgood₀ hs ht) hintent
          rw [hintent''] at hintent'
          cases hintent'
          exact absurd (hsame.fingerprint.symm.trans hmine) hne
    · cases r with
      | error e => trivial
      | ok result => exact ⟨trivial, Recorded.kept hr.2 hkept⟩

end Hcs

/-- **What is saved before it is sent.**  Under one name only the bytes of the saved record are ever
broadcast, by calls with its intent; with one file at most one operation is ever dispatched, that of
the saved intent, by calls with its fingerprint.  The other calls do nothing, and never return. -/
theorem durable_calls {ι κ T U : Type} [DecidableEq ι] [DecidableEq κ] {P : Eoa.Packages}
    {read : T → Eoa.Receipt} {intents : ι → Eoa.Intent} {name : JsString}
    {fingerprints : κ → JsString} {d : Eoa.Data} {e : Hcs.Data U} {σ τ : List (Tr _ _)}
    {s : System.State ι (Locked.World ι Eoa.Data) (Locked (Eoa.Work T))
      (Locked.Answer (Eoa.Answer T)) JsError T}
    {u : System.State κ (Locked.World κ (Hcs.Data U)) (Locked (Hcs.Work U))
      (Locked.Answer (Hcs.Answer U)) JsError U}
    (hd : d.history = [])
    (hs : (Locked.callers Eoa.work (Eoa.calls P read intents name)).lts.Run (Locked.idle d) σ s)
    (he : e.dispatches = [] ∧ e.recoveries = [])
    (hu : (Locked.callers Hcs.work (Hcs.calls fingerprints)).lts.Run (Locked.idle e) τ u) :
    ((∀ raw raw', .broadcast raw ∈ s.world.data.history → .broadcast raw' ∈ s.world.data.history →
        raw = raw') ∧
      (∀ σ' t, (Locked.callers Eoa.work (Eoa.calls P read intents name)).lts.Run s σ' t →
        ∀ record, s.world.data.record = some record →
          t.world.data.record = some record ∧
            Eoa.signatures t.world.data = Eoa.signatures s.world.data) ∧
      (∀ i raw r t, (Locked.callers Eoa.work (Eoa.calls P read intents name)).lts.step s
          (.effect i (.work (.broadcast raw)) r) t →
        ∃ record, s.world.data.record = some record ∧ record.intent = intents i ∧
          record.raw = raw) ∧
      (∀ i o r t, (Locked.callers Eoa.work (Eoa.calls P read intents name)).lts.step s
          (.effect i o r) t →
        ∀ record, s.world.data.record = some record → record.intent ≠ intents i →
          t.world.data = s.world.data) ∧
      ∀ i r t, s.processes i = none → s.world.owner ≠ some i →
        (Locked.callers Eoa.work (Eoa.calls P read intents name)).Answers s i
          (Eoa.durableSignedTransaction P read name (intents i)) r t →
        (∀ receipt, r = .ok receipt → Eoa.Returned P (intents i) (read receipt) t.world.data) ∧
        ∀ record, s.world.data.record = some record → record.intent ≠ intents i →
          ∃ error, r = .error error) ∧
    u.world.data.dispatches.length ≤ 1 ∧ (∀ x ∈ u.world.data.dispatches, x.Durable) ∧
    (∀ x, (x ∈ u.world.data.dispatches.map Hcs.Dispatch.intent ∨ x ∈ u.world.data.recoveries) →
      ∃ intent, u.world.data.journal = .content intent ∧ Hcs.Same intent x) ∧
    (∀ intent, u.world.data.journal = .content intent → ∀ τ' v,
      (Locked.callers Hcs.work (Hcs.calls fingerprints)).lts.Run u τ' v →
        ∃ intent', v.world.data.journal = .content intent' ∧ Hcs.Same intent intent') ∧
    (∀ i o r v, (Locked.callers Hcs.work (Hcs.calls fingerprints)).lts.step u (.effect i o r) v →
      (∀ intent, u.world.data.journal = .content intent → intent.fingerprint ≠ fingerprints i →
        Hcs.Untouched u.world.data v.world.data) ∧
      ∀ intent, (o = .work (.dispatch intent) ∨ o = .work (.recover intent)) →
        intent.fingerprint = fingerprints i ∧ Hcs.Recorded (fingerprints i) u.world.data) ∧
    ∀ i r v, u.processes i = none → u.world.owner ≠ some i →
      (Locked.callers Hcs.work (Hcs.calls fingerprints)).Answers u i
        (Hcs.executeDurableHcsOperation (fingerprints i)) r v →
      (∀ result, r = .ok result → Hcs.Recorded (fingerprints i) v.world.data) ∧
      ∀ intent, u.world.data.journal = .content intent → intent.fingerprint ≠ fingerprints i →
        ∃ error, r = .error error :=
  ⟨Eoa.transaction_runs hd hs, Hcs.operation_runs he hu⟩

namespace Durable.Sample

/-- The transaction of one process, and that of the other one. -/
def intents (i : Bool) : Eoa.Intent := ⟨js "0xa", if i then js "0xb" else js "0xc", js "0x"⟩

/-- The packages; a hash is the text itself. -/
def packages : Eoa.Packages := ⟨Json.Numerals.plain, .ok⟩

/-- What the effects of a transaction are answered: its receipt is found after the second
broadcast. -/
def answer (d : Eoa.Data) :
    (o : Eoa.Work Eoa.Receipt) → Except JsError (Eoa.Answer Eoa.Receipt o) × Eoa.Data
  | .load => (.ok d.record, d)
  | .sign => (.ok (js "0x02"), d.note .signed)
  | .mkdir => (.ok (), d)
  | .writeTemp => (.ok (), d)
  | .rename record => (.ok (), { d with record := some record })
  | .syncFolder => (.ok (), d)
  | .receipt hash => (.ok (if d.history.length < 3 then none else some ⟨js "success", hash⟩), d)
  | .broadcast raw => (.error .other, d.note (.broadcast raw))

theorem answer_work (d : Eoa.Data) (o : Eoa.Work Eoa.Receipt) :
    Eoa.work d o (answer d o).1 (answer d o).2 := by
  cases o with
  | load => exact ⟨rfl, fun record hrecord => (Except.ok.inj hrecord).symm⟩
  | rename record => exact Or.inr rfl
  | _ => rfl

/-- A call. -/
def send (i : Bool) :
    Prog (Locked (Eoa.Work Eoa.Receipt)) (Locked.Answer (Eoa.Answer Eoa.Receipt)) JsError Eoa.Receipt :=
  Eoa.durableSignedTransaction packages id (js "approve") (intents i)

/-- The directory after so many calls of the first process. -/
def directory : ℕ → Locked.World Bool Eoa.Data
  | 0 => ⟨none, none, []⟩
  | n + 1 => ((send true).exec (Locked.answer answer .other true) (directory n)).2

theorem run_directory : ∃ τ, (Locked.callers Eoa.work (Eoa.calls packages id intents
    (js "approve"))).lts.Run (Locked.idle ⟨none, []⟩) τ (System.State.idle (directory 1)) :=
  System.run_exec (S := Locked.callers Eoa.work (Eoa.calls packages id intents (js "approve")))
    (s := System.State.idle (directory 0)) (i := true) (Locked.answer_sem answer_work) rfl
    ⟨fun hfalse => (by cases hfalse), rfl⟩

/-- The next call of either process, and its outcome. -/
theorem answers_send (i : Bool) : ∃ t,
    t.world = ((send i).exec (Locked.answer answer .other i) (directory 1)).2 ∧
    (Locked.callers Eoa.work (Eoa.calls packages id intents (js "approve"))).Answers
      (System.State.idle (directory 1)) i
      (Eoa.durableSignedTransaction packages id (js "approve") (intents i))
      ((send i).exec (Locked.answer answer .other i) (directory 1)).1 t :=
  ⟨_, rfl, System.answers_exec (Locked.answer_sem answer_work) (send i) _⟩

/-- What the effects of an operation are answered: the answer to the dispatch is lost. -/
def respond (d : Hcs.Data ℕ) :
    (o : Hcs.Work ℕ) → Except JsError (Hcs.Answer ℕ o) × Hcs.Data ℕ
  | .readFile => (.ok d.journal, { d with creating := d.journal.isAbsent })
  | .prepare => (.ok ⟨js "0.0.2@1", js "AA=="⟩, d)
  | .now => (.ok (js "2026-01-01T00:00:00.000Z"), d)
  | .mkdir => (.ok (), d)
  | .create => match d.journal with
    | .absent => (.ok (), { d with
        journal := .partial_
        synced := false })
    | _ => (.error .other, d)
  | .write intent => (.ok (), { d with journal := .content intent })
  | .writeTemp => (.ok (), d)
  | .rename intent => (.ok (), { d with journal := .content intent })
  | .syncDirectory => (.ok (), { d with synced := true })
  | .dispatch intent => (.error .other, { d with
      dispatches := d.dispatches ++ [⟨intent, d.journal, d.synced, d.creating⟩] })
  | .recover existing => (.ok 7, { d with recoveries := d.recoveries ++ [existing] })

theorem respond_work (d : Hcs.Data ℕ) (o : Hcs.Work ℕ) :
    Hcs.work d o (respond d o).1 (respond d o).2 := by
  cases o with
  | readFile => exact ⟨rfl, fun journal hjournal => (Except.ok.inj hjournal).symm⟩
  | create =>
    unfold respond
    cases hjournal : d.journal with
    | absent => exact Or.inr ⟨hjournal, rfl⟩
    | partial_ => exact Or.inl ⟨_, rfl, rfl⟩
    | content intent => exact Or.inl ⟨_, rfl, rfl⟩
  | write intent => exact Or.inr rfl
  | rename intent => exact Or.inr rfl
  | syncDirectory => exact Or.inr rfl
  | _ => rfl

/-- The terms of one process, and those of the other one. -/
def fingerprints (i : Bool) : JsString := if i then js "terms" else js "other terms"

/-- A call. -/
def operate (i : Bool) : Prog (Locked (Hcs.Work ℕ)) (Locked.Answer (Hcs.Answer ℕ)) JsError ℕ :=
  Hcs.executeDurableHcsOperation (fingerprints i)

/-- The file after so many calls of the first process. -/
def file : ℕ → Locked.World Bool (Hcs.Data ℕ)
  | 0 => ⟨none, .absent, false, false, [], []⟩
  | n + 1 => ((operate true).exec (Locked.answer respond .other true) (file n)).2

theorem run_file : ∃ τ, (Locked.callers Hcs.work (Hcs.calls fingerprints)).lts.Run
    (Locked.idle ⟨.absent, false, false, [], []⟩) τ (System.State.idle (file 1)) :=
  System.run_exec (S := Locked.callers Hcs.work (Hcs.calls fingerprints))
    (s := System.State.idle (file 0)) (i := true) (Locked.answer_sem respond_work) rfl
    ⟨fun hfalse => (by cases hfalse), rfl⟩

/-- The next call of either process, and its outcome. -/
theorem answers_operate (i : Bool) : ∃ t,
    (Locked.callers Hcs.work (Hcs.calls fingerprints)).Answers (System.State.idle (file 1)) i
      (Hcs.executeDurableHcsOperation (fingerprints i))
      ((operate i).exec (Locked.answer respond .other i) (file 1)).1 t :=
  ⟨_, System.answers_exec (Locked.answer_sem respond_work) (operate i) _⟩

/-- The intent of the journal. -/
def intentOf : Hcs.Journal ℕ → Option (Hcs.Intent ℕ)
  | .content intent => some intent
  | _ => none

theorem states : (directory 1).owner = none ∧
    (directory 1).data.record.map Eoa.Signed.intent = some (intents true) ∧
    (directory 2).data.history =
      [.signed, .broadcast (js "0x02"), .broadcast (js "0x02")] ∧
    (((send true).exec (Locked.answer answer .other true) (directory 1)).1.toOption.map
      Eoa.Receipt.transactionHash) = some (js "0x02") ∧
    (file 1).owner = none ∧
    (intentOf (file 1).data.journal).map Hcs.Intent.fingerprint = some (js "terms") ∧
    (file 1).data.dispatches.length = 1 ∧ (file 2).data.recoveries.length = 1 := by
  decide +kernel

end Durable.Sample

/-- A transaction that is broadcast by two calls, and an operation whose answer is lost.  The second
call returns the receipt of the saved bytes; calls with another intent or other terms are refused. -/
theorem durable_calls_sample :
    ((Durable.Sample.directory 2).data.history =
        [.signed, .broadcast (js "0x02"), .broadcast (js "0x02")] ∧
      (∃ receipt, Eoa.Returned Durable.Sample.packages (Durable.Sample.intents true) receipt
        (Durable.Sample.directory 2).data) ∧
      ∃ error, ((Durable.Sample.send false).exec
        (Locked.answer Durable.Sample.answer .other false) (Durable.Sample.directory 1)).1 =
          .error error) ∧
    (Durable.Sample.file 1).data.dispatches.length = 1 ∧
    (Durable.Sample.file 2).data.recoveries.length = 1 ∧
    ∃ error, ((Durable.Sample.operate false).exec
      (Locked.answer Durable.Sample.respond .other false) (Durable.Sample.file 1)).1 =
        .error error := by
  obtain ⟨hfree, hrecord, hhistory, hreceipt, hfree', hjournal, hdispatches, hrecoveries⟩ :=
    Durable.Sample.states
  obtain ⟨σ, hs⟩ := Durable.Sample.run_directory
  obtain ⟨τ, hu⟩ := Durable.Sample.run_file
  obtain ⟨⟨-, -, -, -, hsend⟩, -, -, -, -, -, hoperate⟩ := durable_calls rfl hs ⟨rfl, rfl⟩ hu
  have howner : ∀ i, (Durable.Sample.directory 1).owner ≠ some i := fun i h => by
    rw [hfree] at h
    cases h
  have howner' : ∀ i, (Durable.Sample.file 1).owner ≠ some i := fun i h => by
    rw [hfree'] at h
    cases h
  refine ⟨⟨hhistory, ?_, ?_⟩, hdispatches, hrecoveries, ?_⟩
  · obtain ⟨t, ht, hanswers⟩ := Durable.Sample.answers_send true
    cases hanswer : ((Durable.Sample.send true).exec
        (Locked.answer Durable.Sample.answer .other true) (Durable.Sample.directory 1)).1 with
    | error e =>
      rw [hanswer] at hreceipt
      cases hreceipt
    | ok receipt =>
      have hreturned := (hsend true _ t rfl (howner true) hanswers).1 receipt hanswer
      rw [ht] at hreturned
      exact ⟨receipt, hreturned⟩
  · obtain ⟨t, -, hanswers⟩ := Durable.Sample.answers_send false
    obtain ⟨record, hrecord', hintent⟩ := Option.map_eq_some_iff.1 hrecord
    refine (hsend false _ t rfl (howner false) hanswers).2 record hrecord' ?_
    rw [hintent]
    decide
  · obtain ⟨t, hanswers⟩ := Durable.Sample.answers_operate false
    cases hintent : (Durable.Sample.file 1).data.journal with
    | content intent =>
      refine (hoperate false _ t rfl (howner' false) hanswers).2 intent hintent ?_
      rw [hintent] at hjournal
      rw [show intent.fingerprint = js "terms" from Option.some.inj hjournal]
      decide
    | _ =>
      rw [hintent] at hjournal
      cases hjournal

end Obolos
