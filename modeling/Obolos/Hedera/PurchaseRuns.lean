import Obolos.Crash.Outcome
import Obolos.Crash.Reach
import Obolos.Hedera.Purchase

/-!
# One signature for a purchase

Whoever created the journal of a request is the only one that writes it, signs for it and sends for
it (`Own`); every other call finds the journal, and returns the result in it or refuses.
-/

namespace Obolos

namespace Hedera

open DataService (normalizeTransactionId)

/-! ### The semantics -/

variable {ι : Type}

/-- The transaction that a signer answered. -/
def answered : Except JsError (Option JsString) → Option JsString
  | .ok transaction => transaction
  | .error _ => none

/-- What the mirror node answered. -/
def mirrored {α : Type} (id : JsString) : Except JsError α → List (JsString × α)
  | .ok transactions => [(id, transactions)]
  | .error _ => []

/-- What an effect of process `i` answers and does to the store, `now`.  A call that fails may have had
its effect. -/
def act (i : ι) (now : ℤ) (w : Store ι) : (o : Effect) → Except JsError (Answer o) → Store ι → Prop
  | .readJournal, r, w' => w' = w ∧ ∀ file, r = .ok file → file = w.file
  | .create, r, w' =>
    (∃ e, r = .error e ∧ w' = w) ∨
    (w.file = .absent ∧ w' = { w with file := .partial_, creator := some i })
  | .write content, r, w' =>
    (∃ e, r = .error e ∧ w' = w) ∨ w' = { w with file := .content content }
  | .rename content, r, w' =>
    (∃ e, r = .error e ∧ w' = w) ∨ w' = { w with file := .content content }
  | .sign requirements, r, w' =>
    w' = { w with books := { w.books with
      signs := w.books.signs ++ [⟨requirements, answered r⟩] } }
  | .dispatch transaction, _, w' =>
    w' = { w with books := { w.books with
      dispatches := w.books.dispatches ++ [⟨transaction, now⟩] } }
  | .mirror id, r, w' =>
    w' = { w with books := { w.books with mirrors := w.books.mirrors ++ mirrored id r } }
  | _, _, w' => w' = w

/-- The request over the network that an effect is. -/
def Effect.fetch? : Effect → Option Fetch
  | .fetchUnpaid => some .unpaid
  | .fetchSupported => some .supported
  | .dispatch transaction => some (.paid transaction)
  | .mirror transactionId => some (.mirror transactionId)
  | _ => none

/-- Time passes for the process that waits for an effect, and what it fetches is recorded. -/
structure Passes (i : ι) (o : Effect) (w w' : World ι) : Prop where
  time : w.clock i ≤ w'.clock i
  clocks : ∀ j, j ≠ i → w'.clock j = w.clock j
  fetched : w'.fetches i = w.fetches i ++ o.fetch?.toList
  fetches : ∀ j, j ≠ i → w'.fetches j = w.fetches j

/-- The clock tells the time. -/
def Tells (time : ℤ) : (o : Effect) → Except JsError (Answer o) → Prop
  | .now, r => ∀ t, r = .ok t → t = time
  | _, _ => True

/-- What an effect of process `i` answers and does. -/
def sem (i : ι) (w : World ι) (o : Effect) (r : Except JsError (Answer o)) (w' : World ι) : Prop :=
  act i (w.clock i) w.store o r w'.store ∧ Passes i o w w' ∧ Tells (w'.clock i) o r

/-- The calls for the request, each with its environment.  A starting call is a new one, so the
journal is not its own. -/
def purchases (E : ι → Environment) (input : ι → DataPurchase) :
    System ι (World ι) Effect Answer JsError PurchaseResult where
  sem := sem
  starts i w p := w.store.creator ≠ some i ∧ p = purchaseHederaData (E i) (input i)
  env _ _ _ := False

/-- No journal, and nothing fetched. -/
def World.empty (clock : ι → ℤ) : World ι := ⟨⟨.absent, none, ⟨[], [], []⟩⟩, clock, fun _ => []⟩

/-! ### The invariant -/

/-- The transaction was signed, for these requirements. -/
def Signed (e : Environment) (b : Books) (s : Signature) (id : JsString) : Prop :=
  s ∈ b.signs ∧ s.transaction.map e.nativeId = some (.ok (some id))

/-- A result is that of a signed transaction, of the amount that was asked for, and its transfer is
proved. -/
def Proved (e : Environment) (b : Books) (result : PurchaseResult) : Prop :=
  ∃ s transactions, Signed e b s result.transactionId ∧
    isAmount s.requirements.terms.amount result.amountAtomic = true ∧
    (normalizeTransactionId result.transactionId, transactions) ∈ b.mirrors ∧
    mirrorProves transactions e.accountId e.payTo result.amountAtomic = true

variable (E : ι → Environment) (input : ι → DataPurchase)

/-- The fingerprint of a call. -/
def termsOf (i : ι) : JsString := (E i).fingerprint (input i)

/-- The invariant. -/
structure Inv (w : Store ι) : Prop where
  fresh : w.creator = none → w.file = .absent ∧ w.books = ⟨[], [], []⟩
  made : w.creator ≠ none → w.file ≠ .absent
  signs : w.books.signs.length ≤ 1
  dispatches : w.books.dispatches.length ≤ 1
  sent : ∀ x ∈ w.books.dispatches, ∃ j, w.creator = some j ∧
    (∃ s ∈ w.books.signs, s.transaction = some x.transaction) ∧
    (E j).active (input j).mandateExpiresAt x.time = true
  content : ∀ c, w.file = .content c → ∃ j, w.creator = some j ∧
    c.fingerprint = termsOf E input j ∧
    ∀ result, c.result = some result → Proved (E j) w.books result

/-- What only the creator of the journal changes. -/
structure Same (w w' : Store ι) : Prop where
  file : w'.file = w.file
  signs : w'.books.signs = w.books.signs
  dispatches : w'.books.dispatches = w.books.dispatches
  mirrors : w'.books.mirrors = w.books.mirrors

/-- Nothing that proves a payment is lost, and a result in the journal is final. -/
structure Lasts (w w' : Store ι) : Prop where
  creator : ∀ j, w.creator = some j → w'.creator = some j
  signs : w.books.signs ⊆ w'.books.signs
  mirrors : w.books.mirrors ⊆ w'.books.mirrors
  settled : ∀ c result, w.file = .content c → c.result = some result → w'.file = w.file

/-- What others leave. -/
structure Kept (i : ι) (w w' : World ι) : Prop where
  inv : Inv E input w'.store
  lasts : Lasts w.store w'.store
  mine : w.store.creator = some i → Same w.store w'.store
  clock : w'.clock i = w.clock i
  fetches : w'.fetches i = w.fetches i

/-- What a process does. -/
structure Made (i : ι) (w w' : World ι) : Prop where
  inv : Inv E input w'.store
  lasts : Lasts w.store w'.store
  others : ∀ j, w.store.creator = some j → j ≠ i → Same w.store w'.store
  clocks : ∀ j, j ≠ i → w'.clock j = w.clock j
  fetches : ∀ j, j ≠ i → w'.fetches j = w.fetches j

/-- The rely and the guarantee of the processes. -/
def protocol : Protocol ι (World ι) :=
  ⟨fun w => Inv E input w.store, Kept E input, Made E input⟩

variable {E input} {i : ι} {w w' : Store ι} {v v' : World ι}

theorem Same.refl (w : Store ι) : Same w w := ⟨rfl, rfl, rfl, rfl⟩

theorem Same.trans {w'' : Store ι} (h : Same w w') (h' : Same w' w'') : Same w w'' :=
  ⟨h'.file.trans h.file, h'.signs.trans h.signs, h'.dispatches.trans h.dispatches,
    h'.mirrors.trans h.mirrors⟩

theorem Lasts.refl (w : Store ι) : Lasts w w :=
  ⟨fun _ h => h, List.Subset.refl _, List.Subset.refl _, fun _ _ _ _ => rfl⟩

theorem Lasts.trans {w'' : Store ι} (h : Lasts w w') (h' : Lasts w' w'') : Lasts w w'' := by
  refine ⟨fun j hj => h'.creator j (h.creator j hj), List.Subset.trans h.signs h'.signs,
    List.Subset.trans h.mirrors h'.mirrors, fun c result hc hresult => ?_⟩
  have hfile := h.settled c result hc hresult
  exact (h'.settled c result (hfile.trans hc) hresult).trans hfile

/-- The books grow. -/
theorem Lasts.books {b : Books} (hsigns : w.books.signs ⊆ b.signs)
    (hmirrors : w.books.mirrors ⊆ b.mirrors) : Lasts w { w with books := b } :=
  ⟨fun _ h => h, hsigns, hmirrors, fun _ _ _ _ => rfl⟩

/-- A journal without a result is rewritten. -/
theorem Lasts.file {f : File} (h : ∀ c, w.file = .content c → c.result = none) :
    Lasts w { w with file := f } := by
  refine ⟨fun _ h => h, List.Subset.refl _, List.Subset.refl _, fun c result hc hresult => ?_⟩
  rw [h c hc] at hresult
  cases hresult

theorem Kept.refl (h : Inv E input v.store) : Kept E input i v v :=
  ⟨h, .refl _, fun _ => .refl _, rfl, rfl⟩

theorem Kept.trans {v'' : World ι} (h : Kept E input i v v') (h' : Kept E input i v' v'') :
    Kept E input i v v'' :=
  ⟨h'.inv, h.lasts.trans h'.lasts, fun hi => (h.mine hi).trans (h'.mine (h.lasts.creator i hi)),
    h'.clock.trans h.clock, h'.fetches.trans h.fetches⟩

/-- An effect that leaves the store alone. -/
theorem Made.quiet {o : Effect} (h : Inv E input v.store) (hp : Passes i o v v')
    (hsame : v'.store = v.store) : Made E input i v v' := by
  refine ⟨?_, ?_, fun _ _ _ => ?_, hp.clocks, hp.fetches⟩
  · rw [hsame]
    exact h
  · rw [hsame]
    exact .refl _
  · rw [hsame]
    exact .refl _

theorem inv_empty {clock : ι → ℤ} : Inv E input (World.empty clock : World ι).store where
  fresh _ := ⟨rfl, rfl⟩
  made h := absurd rfl h
  signs := Nat.zero_le _
  dispatches := Nat.zero_le _
  sent x hx := absurd hx List.not_mem_nil
  content c hc := by cases hc

/-- What the creator of the journal knows. -/
structure Own (i : ι) (file : File) (signs : List Signature) (dispatches : List Dispatch)
    (mirrors : List (JsString × List MirrorTransaction)) (w : Store ι) : Prop where
  creator : w.creator = some i
  file : w.file = file
  signs : w.books.signs = signs
  dispatches : w.books.dispatches = dispatches
  mirrors : w.books.mirrors = mirrors

variable {file : File} {signs : List Signature} {dispatches : List Dispatch}
  {mirrors : List (JsString × List MirrorTransaction)}

theorem Own.kept (h : Own i file signs dispatches mirrors v.store) (hkept : Kept E input i v v') :
    Own i file signs dispatches mirrors v'.store := by
  have hsame := hkept.mine h.creator
  exact ⟨hkept.lasts.creator _ h.creator, hsame.file.trans h.file, hsame.signs.trans h.signs,
    hsame.dispatches.trans h.dispatches, hsame.mirrors.trans h.mirrors⟩

/-- The creator may do what keeps the invariant. -/
theorem Own.made {o : Effect} (h : Own i file signs dispatches mirrors v.store)
    (hinv : Inv E input v'.store) (hlasts : Lasts v.store v'.store) (hp : Passes i o v v') :
    Made E input i v v' := by
  refine ⟨hinv, hlasts, fun j hj hne => ?_, hp.clocks, hp.fetches⟩
  rw [h.creator] at hj
  cases hj
  exact absurd rfl hne

theorem Proved.mono {e : Environment} {b b' : Books} {result : PurchaseResult}
    (h : Proved e b result) (hsigns : b.signs ⊆ b'.signs) (hmirrors : b.mirrors ⊆ b'.mirrors) :
    Proved e b' result := by
  obtain ⟨s, transactions, ⟨hs, hid⟩, hamount, hmirror, hproves⟩ := h
  exact ⟨s, transactions, ⟨hsigns hs, hid⟩, hamount, hmirrors hmirror, hproves⟩

/-- More books, in which nothing is new but signatures, requests and proofs. -/
theorem Inv.grow (h : Inv E input w) {b : Books} (hcreator : w.creator = some i)
    (hsigns : w.books.signs ⊆ b.signs) (hone : b.signs.length ≤ 1)
    (hmirrors : w.books.mirrors ⊆ b.mirrors) (hdispatches : b.dispatches.length ≤ 1)
    (hsent : ∀ x ∈ b.dispatches, (∃ s ∈ b.signs, s.transaction = some x.transaction) ∧
      (E i).active (input i).mandateExpiresAt x.time = true) :
    Inv E input { w with books := b } where
  fresh hnone := by
    have hnone' : w.creator = none := hnone
    rw [hcreator] at hnone'
    cases hnone'
  made := h.made
  signs := hone
  dispatches := hdispatches
  sent x hx := ⟨i, hcreator, hsent x hx⟩
  content c hc := by
    obtain ⟨j, hj, hterms, hproved⟩ := h.content c hc
    exact ⟨j, hj, hterms, fun result hresult => (hproved result hresult).mono hsigns hmirrors⟩

/-- What the invariant says of the requests of the creator. -/
theorem Inv.sentBy (h : Inv E input w) (hcreator : w.creator = some i) :
    ∀ x ∈ w.books.dispatches, (∃ s ∈ w.books.signs, s.transaction = some x.transaction) ∧
      (E i).active (input i).mandateExpiresAt x.time = true := by
  intro x hx
  obtain ⟨j, hj, hsent⟩ := h.sent x hx
  rw [hcreator] at hj
  cases hj
  exact hsent

/-- A new content of the journal. -/
theorem Inv.rewrite (h : Inv E input w) {c : Content} (hcreator : w.creator = some i)
    (hterms : c.fingerprint = termsOf E input i)
    (hresult : ∀ result, c.result = some result → Proved (E i) w.books result) :
    Inv E input { w with file := .content c } where
  fresh hnone := by
    have hnone' : w.creator = none := hnone
    rw [hcreator] at hnone'
    cases hnone'
  made _ hfalse := by cases hfalse
  signs := h.signs
  dispatches := h.dispatches
  sent := h.sent
  content c' hc' := by
    cases hc'
    exact ⟨i, hcreator, hterms, hresult⟩

/-- The result of a call is that of the journal, which has its terms. -/
def Returned (E : ι → Environment) (input : ι → DataPurchase) (i : ι) (result : PurchaseResult)
    (w : Store ι) : Prop :=
  ∃ j c, w.creator = some j ∧ w.file = .content c ∧ c.fingerprint = termsOf E input j ∧
    termsOf E input j = termsOf E input i ∧ c.result = some result ∧ Proved (E j) w.books result

/-- A result in a journal with the terms of a call. -/
theorem Inv.returned (h : Inv E input w) {c : Content} {result : PurchaseResult}
    (hfile : w.file = .content c) (hterms : c.fingerprint = termsOf E input i)
    (hresult : c.result = some result) : Returned E input i result w := by
  obtain ⟨j, hj, hfingerprint, hproved⟩ := h.content c hfile
  exact ⟨j, c, hj, hfile, hfingerprint, hfingerprint.symm.trans hterms, hresult,
    hproved result hresult⟩

theorem Returned.kept {result : PurchaseResult} (h : Returned E input i result w)
    (hlasts : Lasts w w') : Returned E input i result w' := by
  obtain ⟨j, c, hj, hfile, hfingerprint, hterms, hresult, hproved⟩ := h
  exact ⟨j, c, hlasts.creator j hj, (hlasts.settled c result hfile hresult).trans hfile,
    hfingerprint, hterms, hresult, hproved.mono hlasts.signs hlasts.mirrors⟩

/-! ### The programs -/

variable {α : Type}

/-- What a process knows of the store that others leave. -/
def Stable (E : ι → Environment) (input : ι → DataPurchase) (i : ι) (A : Store ι → Prop) : Prop :=
  ∀ v v', A v.store → Kept E input i v v' → A v'.store

/-- What the programs are verified against. -/
abbrev spec (E : ι → Environment) (input : ι → DataPurchase) (i : ι) :
    Prog.Spec (World ι) Effect Answer JsError :=
  (protocol E input).spec (purchases E input) i

/-- What holds whatever the outcome of a program: the invariant; and `A` after it returned. -/
abbrev After (E : ι → Environment) (input : ι → DataPurchase) (A : α → World ι → Prop) :
    Except JsError α → World ι → Prop := Prog.post (fun v => Inv E input v.store) A

/-- A part, and then the rest. -/
theorem wp_then {β : Type} {p : Exec β} {f : β → Exec α} {A : β → World ι → Prop}
    {B : α → World ι → Prop} (hp : p.wp (spec E input i) (After E input A) v)
    (hf : ∀ a v', Inv E input v'.store → A a v' →
      (f a).wp (spec E input i) (After E input B) v') :
    (p >>= f).wp (spec E input i) (After E input B) v :=
  Prog.wp_seq hp (fun _ => id) hf

/-- A pure computation, and then the rest. -/
theorem wp_ofExcept_then {β : Type} {x : Except JsError β} {f : β → Exec α}
    {B : α → World ι → Prop} (h : Inv E input v.store)
    (hf : ∀ a, x = .ok a → (f a).wp (spec E input i) (After E input B) v) :
    (Prog.ofExcept x >>= f).wp (spec E input i) (After E input B) v := by
  refine wp_then (A := fun a v' => v' = v ∧ x = .ok a)
    (Prog.wp_ofExcept_post h fun a ha => ⟨rfl, ha⟩) ?_
  rintro a v' - ⟨rfl, ha⟩
  exact hf a ha

theorem after_fail {message : String} {A : α → World ι → Prop} (h : Inv E input v.store) :
    (fail message : Exec α).wp (spec E input i) (After E input A) v := Prog.wp_throw.2 h

variable {A : Store ι → Prop}

/-- An effect that changes nothing. -/
theorem after_quiet {o : Effect} (hA : Stable E input i A) (ha : A v.store)
    (hquiet : ∀ now w r w', act i now w o r w' → w' = w) :
    (perform o).wp (spec E input i) (After E input fun _ v => A v.store) v := by
  refine Prog.wp_await.2 fun v₁ hrely r v₂ hsem => ?_
  have hkept : Kept E input i v v₁ := hrely
  obtain ⟨hact, hp, -⟩ := hsem
  have hsame := hquiet _ _ r _ hact
  have hmade : Made E input i v₁ v₂ := .quiet hkept.inv hp hsame
  refine ⟨hmade, ?_⟩
  cases r with
  | error e => exact hmade.inv
  | ok a =>
    refine ⟨hmade.inv, ?_⟩
    show A v₂.store
    rw [hsame]
    exact hA _ _ ha hkept

theorem stable_true : Stable E input i fun _ => True := fun _ _ _ _ => trivial

theorem stable_own : Stable E input i (Own i file signs dispatches mirrors) :=
  fun _ _ h hkept => h.kept hkept

/-- The mandate is active, and time does not pass after the clock was read. -/
theorem after_active {e : Environment} {expiresAt : JsString} (hA : Stable E input i A)
    (ha : A v.store) : (assertMandateActive e expiresAt).wp (spec E input i)
      (After E input fun _ v => A v.store ∧ e.active expiresAt (v.clock i) = true) v := by
  refine wp_then (A := fun time v => A v.store ∧ v.clock i = time)
    (Prog.wp_await.2 fun v₁ hrely r v₂ hsem => ?_) fun time v' h' ha' => ?_
  · have hkept : Kept E input i v v₁ := hrely
    obtain ⟨hsame, hp, htime⟩ := hsem
    have hmade : Made E input i v₁ v₂ := .quiet hkept.inv hp hsame
    refine ⟨hmade, ?_⟩
    cases r with
    | error e => exact hmade.inv
    | ok time =>
      refine ⟨hmade.inv, ?_, (htime time rfl).symm⟩
      rw [hsame]
      exact hA _ _ ha hkept
  · refine Prog.wp_ite (fun hactive => Prog.wp_pure.2 ⟨h', ha'.1, ?_⟩) fun _ => after_fail h'
    rw [ha'.2]
    exact hactive

/-- An effect of the creator of the journal. -/
theorem after_own {o : Effect} {B : Answer o → Store ι → Prop}
    (hown : Own i file signs dispatches mirrors v.store)
    (hstep : ∀ w₁ r w₂, Inv E input w₁ → Own i file signs dispatches mirrors w₁ →
      act i (v.clock i) w₁ o r w₂ → (Inv E input w₂ ∧ Lasts w₁ w₂) ∧ ∀ a, r = .ok a → B a w₂) :
    (perform o).wp (spec E input i) (After E input fun a v => B a v.store) v := by
  refine Prog.wp_await.2 fun v₁ hrely r v₂ hsem => ?_
  have hkept : Kept E input i v v₁ := hrely
  have hown₁ := hown.kept hkept
  obtain ⟨hact, hp, -⟩ := hsem
  rw [hkept.clock] at hact
  obtain ⟨⟨hinv, hlasts⟩, hB⟩ := hstep _ r _ hkept.inv hown₁ hact
  refine ⟨hown₁.made hinv hlasts hp, ?_⟩
  cases r with
  | error e => exact hinv
  | ok a => exact ⟨hinv, hB a rfl⟩

/-- The creator writes the journal. -/
theorem after_content {o : Effect} {c : Content}
    (ho : ∀ now w r w', act i now w o r w' →
      (∃ e, r = .error e ∧ w' = w) ∨ w' = { w with file := .content c })
    (hterms : c.fingerprint = termsOf E input i)
    (hown : Own i file signs dispatches mirrors v.store)
    (hopen : ∀ c, file = .content c → c.result = none)
    (hresult : ∀ w, Own i file signs dispatches mirrors w →
      ∀ result, c.result = some result → Proved (E i) w.books result) :
    (perform o).wp (spec E input i)
      (After E input fun _ v => Own i (.content c) signs dispatches mirrors v.store) v := by
  refine after_own hown fun w₁ r w₂ h₁ hown₁ hact => ?_
  rcases ho _ w₁ r w₂ hact with ⟨e, rfl, rfl⟩ | rfl
  · exact ⟨⟨h₁, .refl _⟩, fun _ hfalse => by cases hfalse⟩
  · have hopen₁ : ∀ c, w₁.file = .content c → c.result = none := fun c hc =>
      hopen c (hown₁.file.symm.trans hc)
    exact ⟨⟨h₁.rewrite hown₁.creator hterms (hresult w₁ hown₁), .file hopen₁⟩,
      fun _ _ => ⟨hown₁.creator, rfl, hown₁.signs, hown₁.dispatches, hown₁.mirrors⟩⟩

/-- The creator rewrites the journal. -/
theorem after_durableWrite {c : Content} (hterms : c.fingerprint = termsOf E input i)
    (hown : Own i file signs dispatches mirrors v.store)
    (hopen : ∀ c, file = .content c → c.result = none)
    (hresult : ∀ w, Own i file signs dispatches mirrors w →
      ∀ result, c.result = some result → Proved (E i) w.books result) :
    (durableWrite c).wp (spec E input i)
      (After E input fun _ v => Own i (.content c) signs dispatches mirrors v.store) v :=
  wp_then (after_quiet stable_own hown fun _ _ _ _ hact => hact) fun _ _ _ hown₁ =>
    after_content (fun _ _ _ _ hact => hact) hterms hown₁ hopen hresult

/-- The mirror node is asked until it has proved the transfer. -/
theorem after_proveTransfer {transactionId : JsString} {amount : ℚ} {n : ℕ}
    (hown : Own i file signs dispatches mirrors v.store) (h : Inv E input v.store) :
    (proveTransfer (E i) transactionId amount n).wp (spec E input i)
      (After E input fun proved v => ∃ mirrors,
        Own i file signs dispatches mirrors v.store ∧ (proved = true → ∃ transactions,
          (normalizeTransactionId transactionId, transactions) ∈ mirrors ∧
            mirrorProves transactions (E i).accountId (E i).payTo amount = true)) v := by
  induction n generalizing mirrors v with
  | zero => exact Prog.wp_pure.2 ⟨h, mirrors, hown, fun hfalse => by cases hfalse⟩
  | succ n ih =>
    unfold proveTransfer
    -- One question: an answer is recorded, and one that is no answer proves nothing.
    have hask : (tryCatch (do
          let transactions ← perform (.mirror (normalizeTransactionId transactionId))
          pure (mirrorProves transactions (E i).accountId (E i).payTo amount))
        fun _ => pure false : Exec Bool).wp (spec E input i) (After E input fun proved v =>
          ∃ mirrors, Own i file signs dispatches mirrors v.store ∧ (proved = true → ∃ transactions,
            (normalizeTransactionId transactionId, transactions) ∈ mirrors ∧
              mirrorProves transactions (E i).accountId (E i).payTo amount = true)) v := by
      rw [Prog.wp_tryCatch, Prog.wp_bind]
      refine Prog.wp_await.2 fun v₁ hrely r v₂ hsem => ?_
      have hkept : Kept E input i v v₁ := hrely
      have hown₁ := hown.kept hkept
      obtain ⟨hact, hp, -⟩ := hsem
      have hv₂ : v₂.store = { v₁.store with books := { v₁.store.books with
          mirrors := v₁.store.books.mirrors ++
            mirrored (normalizeTransactionId transactionId) r } } := hact
      have hinv : Inv E input v₂.store := by
        rw [hv₂]
        exact hkept.inv.grow hown₁.creator (List.Subset.refl _) hkept.inv.signs
          (List.subset_append_left _ _) hkept.inv.dispatches (hkept.inv.sentBy hown₁.creator)
      have hown₂ : Own i file signs dispatches
          (mirrors ++ mirrored (normalizeTransactionId transactionId) r) v₂.store := by
        rw [hv₂]
        exact ⟨hown₁.creator, hown₁.file, hown₁.signs, hown₁.dispatches, by rw [← hown₁.mirrors]⟩
      refine ⟨hown₁.made hinv ?_ hp, ?_⟩
      · rw [hv₂]
        exact .books (List.Subset.refl _) (List.subset_append_left _ _)
      · cases r with
        | error e => exact Prog.wp_pure.2 ⟨hinv, _, hown₂, fun hfalse => by cases hfalse⟩
        | ok transactions =>
          exact Prog.wp_pure.2 ⟨hinv, _, hown₂, fun hproves => ⟨transactions,
            List.mem_append_right _ (List.mem_singleton_self _), hproves⟩⟩
    refine wp_then hask fun proved v₁ h₁ hproved => ?_
    obtain ⟨mirrors₁, hown₁, hproves⟩ := hproved
    refine Prog.wp_ite (fun htrue => Prog.wp_pure.2 ⟨h₁, mirrors₁, hown₁, fun _ => hproves htrue⟩)
      fun _ => ?_
    exact wp_then (after_quiet stable_own hown₁ fun _ _ _ _ hact => hact) fun _ v₂ h₂ hown₂ =>
      ih hown₂ h₂

/-- After the paid request: a result is stored and returned only when its transfer is proved. -/
theorem after_settle {repos : List JsString} {amount : ℚ} {transactionId : JsString}
    {response : Paid} {s : Signature} (hopen : ∀ c, file = .content c → c.result = none)
    (hown : Own i file [s] dispatches mirrors v.store) (h : Inv E input v.store)
    (hs : s.transaction.map (E i).nativeId = some (.ok (some transactionId)))
    (hamount : isAmount s.requirements.terms.amount amount = true) :
    (settle (E i) (input i) repos amount transactionId response).wp (spec E input i)
      (After E input fun result v => Returned E input i result v.store) v := by
  unfold settle
  cases response.header with
  | none => exact after_fail h
  | some header =>
    refine Prog.wp_ite (fun _ => after_fail h) fun _ => ?_
    refine wp_ofExcept_then h fun settlement _ => ?_
    refine wp_ofExcept_then h fun _ _ => ?_
    refine Prog.wp_ite (fun _ => after_fail h) fun _ => ?_
    refine wp_then (after_proveTransfer hown h) fun proved v₁ h₁ hproved => ?_
    obtain ⟨mirrors₁, hown₁, hproves⟩ := hproved
    refine Prog.wp_ite (fun _ => after_fail h₁) fun htrue => ?_
    obtain ⟨transactions, hmirror, htransfer⟩ := hproves (Bool.not_eq_false _ ▸ htrue)
    refine wp_ofExcept_then h₁ fun evidence _ => ?_
    have hproof : ∀ w, Own i file [s] dispatches mirrors₁ w →
        Proved (E i) w.books ⟨evidence, (input i).requestId, amount, repos.length,
          (input i).providerId, transactionId⟩ := by
      intro w howned
      refine ⟨s, transactions, ⟨?_, hs⟩, hamount, ?_, htransfer⟩
      · rw [howned.signs]
        exact List.mem_singleton_self s
      · rw [howned.mirrors]
        exact hmirror
    refine wp_then (after_durableWrite rfl hown₁ hopen fun w howned result hresult => ?_)
      fun _ v₂ h₂ hown₂ => Prog.wp_pure.2 ⟨h₂, Inv.returned h₂ hown₂.file rfl rfl⟩
    cases hresult
    exact hproof w howned

/-- Who finds no journal creates it, or fails. -/
theorem after_create : (perform .create).wp (spec E input i)
    (After E input fun _ v => Own i .partial_ [] [] [] v.store) v := by
  refine Prog.wp_await.2 fun v₁ hrely r v₂ hsem => ?_
  have hkept : Kept E input i v v₁ := hrely
  obtain ⟨⟨e, rfl, hsame⟩ | ⟨habsent, hv₂⟩, hp, -⟩ := hsem
  · have hmade : Made E input i v₁ v₂ := .quiet hkept.inv hp hsame
    exact ⟨hmade, hmade.inv⟩
  · have hnone : v₁.store.creator = none := by
      by_contra hsome
      exact hkept.inv.made hsome habsent
    obtain ⟨-, hbooks⟩ := hkept.inv.fresh hnone
    have hinv : Inv E input v₂.store := by
      rw [hv₂]
      refine ⟨fun hfalse => (by cases hfalse), fun _ hfalse => (by cases hfalse),
        hkept.inv.signs, hkept.inv.dispatches, ?_, fun c hc => (by cases hc)⟩
      show ∀ x ∈ v₁.store.books.dispatches, _
      rw [hbooks]
      exact fun x hx => absurd hx List.not_mem_nil
    refine ⟨⟨hinv, ?_, fun j hj _ => ?_, hp.clocks, hp.fetches⟩, ?_⟩
    · rw [hv₂]
      refine ⟨fun j hj => ?_, List.Subset.refl _, List.Subset.refl _, fun c result hc => ?_⟩
      · rw [hnone] at hj
        cases hj
      · rw [habsent] at hc
        cases hc
    · rw [hnone] at hj
      cases hj
    · have hown : Own i .partial_ [] [] [] v₂.store := by
        rw [hv₂]
        exact ⟨rfl, rfl, by rw [hbooks], by rw [hbooks], by rw [hbooks]⟩
      cases r with
      | error e => exact hinv
      | ok a => exact ⟨hinv, hown⟩

/-- The creator signs. -/
theorem after_sign {requirements : Requirements} (hown : Own i file [] [] mirrors v.store) :
    (perform (.sign requirements)).wp (spec E input i)
      (After E input fun signed v => Own i file [⟨requirements, signed⟩] [] mirrors v.store) v := by
  refine after_own (o := .sign requirements) (B := fun signed =>
    Own i file [⟨requirements, signed⟩] [] mirrors) hown
    fun w₁ r w₂ h₁ hown₁ hact => ?_
  have hw₂ : w₂ = { w₁ with books := { w₁.books with
      signs := w₁.books.signs ++ [⟨requirements, answered r⟩] } } := hact
  rw [hw₂]
  refine ⟨⟨h₁.grow hown₁.creator (List.subset_append_left _ _) ?_ (List.Subset.refl _)
    h₁.dispatches ?_, .books (List.subset_append_left _ _) (List.Subset.refl _)⟩,
    fun signed hr => ?_⟩
  · rw [hown₁.signs]
    exact le_refl 1
  · show ∀ x ∈ w₁.books.dispatches, _
    rw [hown₁.dispatches]
    exact fun x hx => absurd hx List.not_mem_nil
  · subst hr
    exact ⟨hown₁.creator, hown₁.file, by rw [hown₁.signs]; rfl, hown₁.dispatches, hown₁.mirrors⟩

/-- The creator sends the paid request. -/
theorem after_dispatch {s : Signature} {transaction : JsString}
    (hown : Own i file [s] [] mirrors v.store) (hs : s.transaction = some transaction)
    (hactive : (E i).active (input i).mandateExpiresAt (v.clock i) = true) :
    (perform (.dispatch transaction)).wp (spec E input i)
      (After E input fun _ v => ∃ x, Own i file [s] [x] mirrors v.store) v := by
  refine after_own (B := fun _ w => ∃ x, Own i file [s] [x] mirrors w) hown
    fun w₁ r w₂ h₁ hown₁ hact => ?_
  have hw₂ : w₂ = { w₁ with books := { w₁.books with
      dispatches := w₁.books.dispatches ++ [⟨transaction, v.clock i⟩] } } := hact
  rw [hw₂]
  refine ⟨⟨h₁.grow hown₁.creator (List.Subset.refl _) h₁.signs (List.Subset.refl _) ?_ ?_,
    .books (List.Subset.refl _) (List.Subset.refl _)⟩, fun _ _ => ⟨⟨transaction, v.clock i⟩,
      hown₁.creator, hown₁.file, hown₁.signs, by rw [hown₁.dispatches]; rfl, hown₁.mirrors⟩⟩
  · rw [hown₁.dispatches]
    exact le_refl 1
  · show ∀ y ∈ w₁.books.dispatches ++ [_], _
    rw [hown₁.dispatches]
    intro y hy
    rw [List.nil_append, List.mem_singleton] at hy
    rw [hy]
    refine ⟨⟨s, ?_, hs⟩, hactive⟩
    show s ∈ w₁.books.signs
    rw [hown₁.signs]
    exact List.mem_singleton_self _

/-- Who creates the journal signs once, and sends one request. -/
theorem after_pay {repos : List JsString} {amount : ℚ} {requirements : Requirements}
    (hamount : isAmount requirements.terms.amount amount = true) :
    (pay (E i) (input i) repos amount requirements).wp (spec E input i)
      (After E input fun result v => Returned E input i result v.store) v := by
  unfold pay
  refine wp_then after_create fun _ v₁ h₁ hown₁ => ?_
  refine wp_then (after_content (fun _ _ _ _ hact => hact) rfl hown₁ (fun _ hc => by cases hc)
    fun _ _ _ hfalse => by cases hfalse) fun _ v₂ h₂ hown₂ => ?_
  refine wp_then (after_active stable_own hown₂) fun _ v₃ h₃ hactive => ?_
  refine wp_then (after_sign hactive.1) fun signed v₄ h₄ hown₄ => ?_
  cases signed with
  | none => exact after_fail h₄
  | some transaction =>
    refine wp_ofExcept_then h₄ fun id hid => ?_
    cases id with
    | none => exact after_fail h₄
    | some transactionId =>
      refine Prog.wp_ite (fun _ => after_fail h₄) fun _ => ?_
      have hs : (some transaction).map (E i).nativeId = some (.ok (some transactionId)) := by
        rw [Option.map_some, hid]
      refine wp_then (after_durableWrite rfl hown₄ (fun _ hc => by cases hc; rfl)
        fun _ _ _ hfalse => by cases hfalse) fun _ v₅ h₅ hown₅ => ?_
      refine wp_then (after_active stable_own hown₅) fun _ v₆ h₆ hactive₆ => ?_
      refine wp_then (after_dispatch hactive₆.1 rfl hactive₆.2) fun response v₇ h₇ hown₇ => ?_
      obtain ⟨x, hown₇⟩ := hown₇
      exact after_settle (fun _ hc => by cases hc; rfl) hown₇ h₇ hs hamount

/-- Requirements that are accepted ask for the amount. -/
theorem isAmount_of_validate {value : Requirements} {request : DataPurchase} {payTo feePayer : JsString}
    {amount : ℚ} (h : validatePaymentRequirements value request payTo feePayer = .ok amount) :
    isAmount value.terms.amount amount = true := by
  unfold validatePaymentRequirements at h
  dsimp only at h
  split at h
  · cases h
  · split at h
    · cases h
    · split at h
      · cases h
      · rename_i hamount
        split at h
        · cases h
        · split at h
          · cases h
          · cases h
            exact Bool.not_eq_false _ ▸ hamount

/-- The requirements that were negotiated ask for the amount. -/
theorem after_negotiate {base : JsString} :
    (negotiate (E i) (input i) base).wp (spec E input i)
      (After E input fun p _ => isAmount p.1.terms.amount p.2 = true) v := by
  refine wp_then (after_quiet stable_true trivial fun _ _ _ _ hact => hact) fun unpaid v₁ h₁ _ => ?_
  refine Prog.wp_ite (fun _ => after_fail h₁) fun _ => ?_
  cases unpaid.header with
  | none => exact after_fail h₁
  | some header =>
    refine Prog.wp_ite (fun _ => after_fail h₁) fun _ => ?_
    refine wp_ofExcept_then h₁ fun required _ => ?_
    split
    · rename_i requirements _
      refine Prog.wp_ite (fun _ => after_fail h₁) fun _ => ?_
      refine wp_then (after_quiet stable_true trivial fun _ _ _ _ hact => hact)
        fun supported v₃ h₃ _ => ?_
      cases supported with
      | none => exact after_fail h₃
      | some feePayer =>
        refine wp_ofExcept_then h₃ fun amount hamount => ?_
        refine Prog.wp_ite (fun _ => after_fail h₃) fun _ => ?_
        exact wp_then (after_quiet stable_true trivial fun _ _ _ _ hact => hact) fun _ v₅ h₅ _ =>
          Prog.wp_pure.2 ⟨h₅, isAmount_of_validate hamount⟩
    · exact after_fail h₁

/-- What a call makes of the journal that it has read. -/
theorem after_purchaseAfter {repos : List JsString} {base : JsString} (h : Inv E input v.store)
    (hfile : file = v.store.file) :
    (purchaseAfter (E i) (input i) repos base file).wp (spec E input i)
      (After E input fun result v => Returned E input i result v.store) v := by
  cases file with
  | absent => exact wp_then after_negotiate fun negotiated _ _ hamount => after_pay hamount
  | partial_ => exact Prog.wp_throw.2 h
  | content existing =>
    refine Prog.wp_ite (fun _ => after_fail h) fun hsame => ?_
    cases hresult : existing.result with
    | none => exact after_fail h
    | some result =>
      exact Prog.wp_pure.2 ⟨h, h.returned hfile.symm (not_not.1 hsame) hresult⟩

/-- The journal that is read is the one that is there. -/
theorem after_readJournal : (perform .readJournal).wp (spec E input i)
    (After E input fun file v => file = v.store.file) v := by
  refine Prog.wp_await.2 fun v₁ hrely r v₂ hsem => ?_
  have hkept : Kept E input i v v₁ := hrely
  obtain ⟨⟨hsame, hread⟩, hp, -⟩ := hsem
  have hmade : Made E input i v₁ v₂ := .quiet hkept.inv hp hsame
  refine ⟨hmade, ?_⟩
  cases r with
  | error e => exact hmade.inv
  | ok file => exact ⟨hmade.inv, (hread file rfl).trans (by rw [hsame])⟩

/-- A call keeps the invariant, whatever the others do, and returns the result of the journal. -/
theorem after_purchaseHederaData :
    (purchaseHederaData (E i) (input i)).wp (spec E input i)
      (After E input fun result v => Returned E input i result v.store) v := by
  refine wp_then (after_active stable_true trivial) fun _ v₁ h₁ _ => ?_
  refine wp_ofExcept_then h₁ fun repos _ => ?_
  refine Prog.wp_ite (fun _ => after_fail h₁) fun _ => ?_
  refine wp_ofExcept_then h₁ fun base _ => ?_
  refine Prog.wp_ite (fun _ => after_fail h₁) fun _ => ?_
  refine wp_then (after_quiet stable_true trivial fun _ _ _ _ hact => hact) fun _ v₂ h₂ _ => ?_
  exact wp_then after_readJournal fun file v₃ h₃ hfile => after_purchaseAfter h₃ hfile

/-! ### A journal that is there -/

/-- There is a journal, and the call has fetched this much. -/
structure Found (i : ι) (fetches : List Fetch) (v : World ι) : Prop where
  file : v.store.file ≠ .absent
  fetches : v.fetches i = fetches

variable {fetches : List Fetch}

theorem Found.kept (h : Found i fetches v) (hinv : Inv E input v.store) (hkept : Kept E input i v v') :
    Found i fetches v' := by
  refine ⟨fun habsent => ?_, hkept.fetches.trans h.fetches⟩
  cases hcreator : v.store.creator with
  | none => exact h.file (hinv.fresh hcreator).1
  | some j =>
    refine hkept.inv.made ?_ habsent
    rw [hkept.lasts.creator j hcreator]
    exact Option.some_ne_none j

/-- An effect that changes nothing and fetches nothing. -/
theorem found_quiet {o : Effect} {B : Answer o → Prop} (h : Found i fetches v)
    (hinv : Inv E input v.store) (hfetch : o.fetch? = none)
    (hact : ∀ now w r w', w.file ≠ .absent → act i now w o r w' → w' = w ∧ ∀ a, r = .ok a → B a) :
    (perform o).wp (spec E input i)
      (Prog.post (fun v => Inv E input v.store ∧ Found i fetches v) fun a _ => B a) v := by
  refine Prog.wp_await.2 fun v₁ hrely r v₂ hsem => ?_
  have hkept : Kept E input i v v₁ := hrely
  have hfound := h.kept hinv hkept
  obtain ⟨hstep, hp, -⟩ := hsem
  obtain ⟨hsame, hB⟩ := hact _ _ r _ hfound.file hstep
  have hmade : Made E input i v₁ v₂ := .quiet hkept.inv hp hsame
  have hfound₂ : Found i fetches v₂ := by
    refine ⟨by rw [hsame]; exact hfound.file, hp.fetched.trans ?_⟩
    rw [hfetch, hfound.fetches]
    exact List.append_nil _
  refine ⟨hmade, ?_⟩
  cases r with
  | error e => exact ⟨hmade.inv, hfound₂⟩
  | ok a => exact ⟨⟨hmade.inv, hfound₂⟩, hB a rfl⟩

/-- A call that finds a journal fetches nothing. -/
theorem found_purchaseHederaData (h : Found i fetches v) (hinv : Inv E input v.store) :
    (purchaseHederaData (E i) (input i)).wp (spec E input i)
      (Prog.post (fun v => Inv E input v.store ∧ Found i fetches v) fun _ _ => True) v := by
  unfold purchaseHederaData assertMandateActive
  refine Prog.wp_seq (Prog.wp_seq (found_quiet (B := fun _ => True) h hinv rfl
    fun _ _ _ _ _ hact => ⟨hact, fun _ _ => trivial⟩) (fun _ => id) fun now v₁ h₁ _ => ?_)
    (fun _ => id) fun _ v₂ h₂ (_ : True) => ?_
  · exact Prog.wp_ite (fun _ => Prog.wp_pure.2 ⟨h₁, trivial⟩) fun _ => Prog.wp_throw.2 h₁
  refine Prog.wp_seq (Prog.wp_ofExcept_post (P := fun _ _ => True) h₂ fun _ _ => trivial)
    (fun _ => id) fun repos v₃ h₃ _ => ?_
  refine Prog.wp_ite (fun _ => Prog.wp_throw.2 h₃) fun _ => ?_
  refine Prog.wp_seq (Prog.wp_ofExcept_post (P := fun _ _ => True) h₃ fun _ _ => trivial)
    (fun _ => id) fun base v₄ h₄ _ => ?_
  refine Prog.wp_ite (fun _ => Prog.wp_throw.2 h₄) fun _ => ?_
  refine Prog.wp_seq (found_quiet (B := fun _ => True) h₄.2 h₄.1 rfl
    fun _ _ _ _ _ hact => ⟨hact, fun _ _ => trivial⟩) (fun _ => id) fun _ v₅ h₅ _ => ?_
  refine Prog.wp_seq (found_quiet (B := fun (file : File) => file ≠ .absent) h₅.2 h₅.1 rfl
    fun _ _ _ _ hfile hact => ⟨hact.1, fun file hr => by rw [hact.2 file hr]; exact hfile⟩)
    (fun _ => id) fun file v₆ h₆ hfile => ?_
  cases file with
  | absent => exact absurd rfl hfile
  | partial_ => exact Prog.wp_throw.2 h₆
  | content existing =>
    refine Prog.wp_ite (fun _ => Prog.wp_throw.2 h₆) fun _ => ?_
    cases existing.result with
    | none => exact Prog.wp_throw.2 h₆
    | some result => exact Prog.wp_pure.2 ⟨h₆, trivial⟩

theorem sound : (protocol E input).Sound (purchases E input) where
  rely_refl _ _ h := Kept.refl h
  rely_trans _ _ _ _ h h' := h.trans h'
  guar_inv _ _ _ _ h := h.inv
  guar_rely _ j _ _ _ h hne :=
    ⟨h.inv, h.lasts, fun hj => h.others j hj hne, h.clocks j hne, h.fetches j hne⟩
  env_inv _ _ _ _ h := h.elim
  env_rely _ _ _ _ _ h := h.elim
  start i w p _ h := by
    rw [h.2]
    exact Prog.wp_mono after_purchaseHederaData fun _ _ _ => trivial

/-! ### The runs -/

variable [DecidableEq ι] {s t : System.State ι (World ι) Effect Answer JsError PurchaseResult}
  {σ : List (Tr (System.State ι (World ι) Effect Answer JsError PurchaseResult)
    (System.Action ι Effect Answer JsError PurchaseResult))}

/-- Nothing is signed or sent from one store to the other. -/
def Unsent (w w' : Store ι) : Prop :=
  w'.books.signs = w.books.signs ∧ w'.books.dispatches = w.books.dispatches

omit [DecidableEq ι] in
/-- Who signs or sends does not create the journal. -/
theorem unpaid_of_act {now : ℤ} {o : Effect} {r : Except JsError (Answer o)}
    (h : act i now w o r w') : Unsent w w' ∨ w'.creator = w.creator := by
  cases o with
  | create =>
    rcases h with ⟨e, -, rfl⟩ | ⟨-, rfl⟩
    · exact Or.inl ⟨rfl, rfl⟩
    · exact Or.inl ⟨rfl, rfl⟩
  | write content =>
    rcases h with ⟨e, -, rfl⟩ | rfl
    · exact Or.inr rfl
    · exact Or.inr rfl
  | rename content =>
    rcases h with ⟨e, -, rfl⟩ | rfl
    · exact Or.inr rfl
    · exact Or.inr rfl
  | readJournal => exact Or.inr (congrArg Store.creator h.1)
  | sign requirements =>
    change w' = _ at h
    rw [h]
    exact Or.inr rfl
  | dispatch transaction =>
    change w' = _ at h
    rw [h]
    exact Or.inr rfl
  | mirror id =>
    change w' = _ at h
    rw [h]
    exact Or.inr rfl
  | _ => exact Or.inr (congrArg Store.creator h)

/-- Only the call that created the journal signs and sends. -/
theorem paid_by_creator {a : System.Action ι Effect Answer JsError PurchaseResult}
    (h : (protocol E input).Holds (purchases E input) s)
    (hstep : (purchases E input).lts.step s a t) :
    Unsent s.world.store t.world.store ∨
      ∃ j o r, a = .effect j o r ∧ s.world.store.creator = some j := by
  rcases sound.step_world h hstep with ⟨j, o, r, rfl, hsem, hmade⟩ | ⟨live, -, henv⟩ | hsame
  · have hmade' : Made E input j s.world t.world := hmade
    cases hcreator : s.world.store.creator with
    | some j' =>
      by_cases hj : j' = j
      · exact Or.inr ⟨j, o, r, rfl, by rw [hj]⟩
      · have hothers := hmade'.others j' hcreator hj
        exact Or.inl ⟨hothers.signs, hothers.dispatches⟩
    | none =>
      rcases unpaid_of_act hsem.1 with hunpaid | hnone
      · exact Or.inl hunpaid
      · have hbefore := (Inv.fresh h.1 hcreator).2
        have hafter := (hmade'.inv.fresh (hnone.trans hcreator)).2
        exact Or.inl ⟨by rw [hbefore, hafter], by rw [hbefore, hafter]⟩
  · exact henv.elim
  · rw [hsame]
    exact Or.inl ⟨rfl, rfl⟩

theorem update_none {j : ι} {p : ι → Option (Exec PurchaseResult)} (h : p i = none) :
    Function.update p j none i = none := by
  by_cases hij : i = j
  · rw [hij, Function.update_self]
  · rw [Function.update_of_ne hij, h]

/-- After the call that created the journal has ended, nothing is signed or sent. -/
theorem unpaid_after (h : (protocol E input).Holds (purchases E input) s)
    (hcreator : s.world.store.creator = some i) (hended : s.processes i = none)
    (hrun : (purchases E input).lts.Run s σ t) : Unsent s.world.store t.world.store := by
  have hstays : (protocol E input).Holds (purchases E input) t ∧ t.world.store.creator = some i ∧
      t.processes i = none ∧ Unsent s.world.store t.world.store := by
    refine hrun.invariant (I := fun u => (protocol E input).Holds (purchases E input) u ∧
      u.world.store.creator = some i ∧ u.processes i = none ∧ Unsent s.world.store u.world.store)
      ⟨h, hcreator, hended, rfl, rfl⟩ fun u a v hu hstep => ?_
    obtain ⟨hu, hcreator, hended, hunpaid⟩ := hu
    have hv := sound.step hu hstep
    cases hstep with
    | @start j p free starts =>
      refine ⟨hv, hcreator, ?_, hunpaid⟩
      have hne : i ≠ j := fun hij => starts.1 (hij ▸ hcreator)
      exact (Function.update_of_ne hne _ _).trans hended
    | @effect j o k r d running hsem =>
      have hne : i ≠ j := fun hij => by
        rw [hij, running] at hended
        cases hended
      have hmade : Made E input j u.world d := (sound.wp_call hu.1 (hu.2 j _ running) hsem).1
      have hsame := hmade.others i hcreator hne
      refine ⟨hv, hmade.lasts.creator i hcreator, ?_, hsame.signs.trans hunpaid.1,
        hsame.dispatches.trans hunpaid.2⟩
      exact (Function.update_of_ne hne _ _).trans hended
    | @returned j a running => exact ⟨hv, hcreator, update_none hended, hunpaid⟩
    | @threw j e running => exact ⟨hv, hcreator, update_none hended, hunpaid⟩
    | @crash j => exact ⟨hv, hcreator, update_none hended, hunpaid⟩
    | env henv => exact henv.elim
  exact hstays.2.2.2

/-- The outcome of a call. -/
theorem outcome {r : Except JsError PurchaseResult}
    (h : (protocol E input).Holds (purchases E input) s) (hfree : s.processes i = none)
    (hnew : s.world.store.creator ≠ some i)
    (ha : (purchases E input).Answers s i (purchaseHederaData (E i) (input i)) r t) :
    (∀ result, r = .ok result → Returned E input i result t.world.store) ∧
    (s.world.store.file ≠ .absent → t.world.fetches i = s.world.fetches i) := by
  refine ⟨fun result hr => ?_, fun hfile => ?_⟩
  · have hreturned := sound.answers h ⟨hnew, rfl⟩ hfree (Q := After E input fun result v =>
      Returned E input i result v.store) (fun r v v' hkept hr => ?_) after_purchaseHederaData ha
    · rw [hr] at hreturned
      exact hreturned.2
    · have hkept : Kept E input i v v' := hkept
      cases r with
      | error e => exact hkept.inv
      | ok result => exact ⟨hkept.inv, Returned.kept hr.2 hkept.lasts⟩
  · have hfound : Found i (s.world.fetches i) s.world := ⟨hfile, rfl⟩
    have hleft := sound.answers h ⟨hnew, rfl⟩ hfree
      (Q := fun _ v => Inv E input v.store ∧ Found i (s.world.fetches i) v)
      (fun r v v' hkept hr => ⟨Kept.inv hkept, hr.2.kept hr.1 hkept⟩)
      (Prog.wp_mono (found_purchaseHederaData hfound h.1) fun r v hr => ?_) ha
    · exact hleft.2.fetches
    · cases r with
      | error e => exact hr
      | ok result => exact hr.1

variable {clock : ι → ℤ}

/-- **The native payments for a request, over every run.**  At most one transaction is signed and at
most one paid request is sent, both by the call that created the journal, and while its mandate is
active.  A result that a call returns is that of the journal, which has the terms of the call; and a
call that starts when there is a journal fetches nothing. -/
theorem native_runs (h : (purchases E input).lts.Run (System.State.idle (World.empty clock)) σ s) :
    s.world.store.books.signs.length ≤ 1 ∧ s.world.store.books.dispatches.length ≤ 1 ∧
    (∀ x ∈ s.world.store.books.dispatches, ∃ j, s.world.store.creator = some j ∧
      (∃ signature ∈ s.world.store.books.signs, signature.transaction = some x.transaction) ∧
      (E j).active (input j).mandateExpiresAt x.time = true) ∧
    (∀ a t, (purchases E input).lts.step s a t →
      Unsent s.world.store t.world.store ∨
        ∃ j o r, a = .effect j o r ∧ s.world.store.creator = some j) ∧
    (∀ j, s.world.store.creator = some j → s.processes j = none → ∀ τ t,
      (purchases E input).lts.Run s τ t → Unsent s.world.store t.world.store) ∧
    ∀ i r t, s.processes i = none → s.world.store.creator ≠ some i →
      (purchases E input).Answers s i (purchaseHederaData (E i) (input i)) r t →
      (∀ result, r = .ok result → Returned E input i result t.world.store) ∧
      (∀ j, t.world.store.creator = some j → termsOf E input j ≠ termsOf E input i →
        ∃ e, r = .error e) ∧
      (s.world.store.file ≠ .absent → t.world.fetches i = s.world.fetches i) := by
  have hholds := sound.run inv_empty h
  have hinv : Inv E input s.world.store := hholds.1
  refine ⟨hinv.signs, hinv.dispatches, hinv.sent, fun a t hstep => paid_by_creator hholds hstep,
    fun j hj hended τ t hrun => unpaid_after hholds hj hended hrun,
    fun i r t hfree hnew ha => ?_⟩
  obtain ⟨hreturned, hfetches⟩ := outcome hholds hfree hnew ha
  refine ⟨hreturned, fun j hj hterms => ?_, hfetches⟩
  cases r with
  | error e => exact ⟨e, rfl⟩
  | ok result =>
    obtain ⟨j', c, hj', -, -, hsame, -⟩ := hreturned result rfl
    rw [hj'] at hj
    cases hj
    exact absurd hsame hterms

end Hedera

end Obolos
