import Obolos.Crash.Reach
import Obolos.Hedera.PurchaseRuns
import Obolos.Hedera.TokenBuyer

/-!
# One signature for a purchase with test credits

Calls work behind an exclusive process lock, so it is enough to follow one of them.  A call that
finds no journal (`Ledger.creating`) signs and sends; every other call only asks about the
transaction of the journal (`Asks`), and one with other terms than the journal does nothing.  `Good`
says what the journal tells about the accounts.
-/

namespace Obolos

namespace Hedera

namespace Hts

open DataService (normalizeTransactionId)

/-! ### The semantics -/

/-- There is no journal. -/
def Journal.isAbsent : Journal → Bool
  | .absent => true
  | _ => false

/-- One more request over the network. -/
def Ledger.fetched (l : Ledger) (f : Fetch) : Ledger :=
  { l with accounts := { l.accounts with fetches := l.accounts.fetches ++ [f] } }

/-- What an effect answers and does to the ledger, `now`.  A call that fails may have had its
effect. -/
def act (now : ℤ) (l : Ledger) : (o : Work) → Except JsError (WorkAnswer o) → Ledger → Prop
  | .readJournal, r, l' =>
    l' = { l with creating := l.journal.isAbsent } ∧ ∀ journal, r = .ok journal → journal = l.journal
  | .now, r, l' => l' = l ∧ ∀ time, r = .ok time → time = now
  | .fetchQuote, _, l' => l' = l.fetched .quote
  | .fetchMetadata, _, l' => l' = l.fetched .metadata
  | .fetchUnpaid, _, l' => l' = l.fetched .unpaid
  | .fetchSupported, _, l' => l' = l.fetched .supported
  | .create, r, l' =>
    (∃ e, r = .error e ∧ l' = l) ∨ (l.journal = .absent ∧ l' = { l with journal := .partial_ })
  | .write intent, r, l' =>
    (∃ e, r = .error e ∧ l' = l) ∨ l' = { l with journal := .content intent }
  | .rename intent, r, l' =>
    (∃ e, r = .error e ∧ l' = l) ∨ l' = { l with journal := .content intent }
  | .sign requirements, r, l' =>
    l' = { l with accounts := { l.accounts with
      signs := l.accounts.signs ++ [⟨requirements, answered r⟩] } }
  | .dispatch transaction, _, l' =>
    l' = { l with accounts := { l.accounts with
      dispatches := l.accounts.dispatches ++ [⟨transaction, now⟩] } }
  | .mirror id, r, l' =>
    l' = { l with accounts := { l.accounts with
      fetches := l.accounts.fetches ++ [.mirror id]
      mirrors := l.accounts.mirrors ++ mirrored (normalizeTransactionId id) r } }
  | .receipt id, _, l' => l' = l.fetched (.receipt id)
  | _, _, l' => l' = l

/-- What an effect answers and does.  Time passes while it is awaited, but not while the clock is
read. -/
def work (d : Data) (o : Work) (r : Except JsError (WorkAnswer o)) (d' : Data) : Prop :=
  act d.clock d.ledger o r d'.ledger ∧ d.clock ≤ d'.clock ∧ (o = .now → d'.clock = d.clock)

/-- No journal. -/
def Data.empty (clock : ℤ) : Data := ⟨⟨.absent, false, ⟨[], [], [], []⟩⟩, clock⟩

/-! ### The invariant -/

variable (P : Packages)

/-- What was signed for the transaction `id` is the payment of a purchase. -/
structure Bound (input : HtsRepositoryPurchase) (id : JsString) (s : Signature) : Prop where
  native : s.transaction.map P.nativeId = some (.ok (some id))
  amount : isAmount s.requirements.terms.amount input.terms.amountAtomic = true
  asset : s.requirements.terms.asset = some input.terms.asset
  payTo : s.requirements.terms.payTo = some input.terms.payTo

/-- A request has the signed transaction, and was sent before the mandate lapsed. -/
structure Sent (input : HtsRepositoryPurchase) (s : Signature) (x : Dispatch) : Prop where
  transaction : s.transaction = some x.transaction
  active : P.lapsed input.mandateExpiresAt x.time = false

/-- The mirror node has proved the transfer of the transaction `id`. -/
def MirrorProved (a : Accounts) (id : JsString) (terms : TokenTerms) : Prop :=
  ∃ transactions, (normalizeTransactionId id, transactions) ∈ a.mirrors ∧
    tokenProves transactions terms = true

/-- A request of the negotiation. -/
def Fetch.isNegotiation : Fetch → Bool
  | .mirror _ => false
  | .receipt _ => false
  | _ => true

/-- A question about the transaction `id`. -/
def Fetch.Asks (id : JsString) (f : Fetch) : Prop := f = .mirror id ∨ f = .receipt id

/-- The accounts of a purchase that was signed. -/
structure PaidFor (input : HtsRepositoryPurchase) (id : JsString) (s : Signature) (a : Accounts) :
    Prop where
  signs : a.signs = [s]
  bound : Bound P input id s
  dispatches : a.dispatches.length ≤ 1
  sent : ∀ x ∈ a.dispatches, Sent P input s x
  fetches : ∀ f ∈ a.fetches, f.isNegotiation = true ∨ f.Asks id

/-- The journal of a purchase that was signed, and its accounts. -/
structure Settles (intent : Intent) (input : HtsRepositoryPurchase) (id : JsString) (s : Signature)
    (a : Accounts) : Prop where
  fingerprint : intent.fingerprint = P.fingerprint input
  transactionId : intent.transactionId = some id
  paid : PaidFor P input id s a
  proved : intent.result ≠ none → MirrorProved a id input.terms

/-- What the journal tells about the accounts. -/
inductive Good : Journal → Accounts → Prop
  | absent {fetches : List Fetch} (negotiated : ∀ f ∈ fetches, f.isNegotiation = true) :
      Good .absent ⟨[], [], fetches, []⟩
  | partial_ {fetches : List Fetch} (negotiated : ∀ f ∈ fetches, f.isNegotiation = true) :
      Good .partial_ ⟨[], [], fetches, []⟩
  | intent {intent : Intent} {signs : List Signature} {fetches : List Fetch}
      (transactionId : intent.transactionId = none) (signs_le : signs.length ≤ 1)
      (negotiated : ∀ f ∈ fetches, f.isNegotiation = true) :
      Good (.content intent) ⟨signs, [], fetches, []⟩
  | signed {intent : Intent} {input : HtsRepositoryPurchase} {id : JsString} {s : Signature}
      {a : Accounts} (settles : Settles P intent input id s a) : Good (.content intent) a

/-- The journal stays, with its terms and its transaction, and proofs are not lost. -/
structure Kept (l l' : Ledger) : Prop where
  journal : l.journal ≠ .absent → l'.journal ≠ .absent
  content : ∀ intent, l.journal = .content intent → ∃ intent', l'.journal = .content intent' ∧
    intent'.fingerprint = intent.fingerprint ∧
    ∀ id, intent.transactionId = some id → intent'.transactionId = some id
  mirrors : l.accounts.mirrors ⊆ l'.accounts.mirrors

/-- Nothing is signed or sent, and what is fetched are questions about the transaction of the
journal. -/
structure Asks (l l' : Ledger) : Prop where
  signs : l'.accounts.signs = l.accounts.signs
  dispatches : l'.accounts.dispatches = l.accounts.dispatches
  fetches : ∃ fs, l'.accounts.fetches = l.accounts.fetches ++ fs ∧
    ∀ f ∈ fs, ∃ intent id, l'.journal = .content intent ∧ intent.transactionId = some id ∧ f.Asks id

variable {ι : Type} (purchases : ι → HtsRepositoryPurchase × Credentials)

/-- What a call makes of its arguments. -/
def validated (i : ι) : Except JsError HtsRepositoryPurchase :=
  validateInput P (purchases i).1 (purchases i).2

/-- The journal is not that of the call. -/
def Foreign (i : ι) (intent : Intent) : Prop :=
  ∀ input, validated P purchases i = .ok input → intent.fingerprint ≠ P.fingerprint input

/-- What a call may do. -/
structure Guar (i : ι) (l l' : Ledger) : Prop where
  good : Good P l'.journal l'.accounts
  keeps : Kept l l'
  creating : l'.creating = true → l.creating = true ∨ l.journal = .absent
  asks : l.creating = false → Asks l l'
  other : ∀ intent, l.journal = .content intent → Foreign P purchases i intent →
    l'.journal = l.journal ∧ l'.accounts = l.accounts

/-- A call, with its arguments. -/
def call (i : ι) : Prog (Locked Work) (Locked.Answer WorkAnswer) JsError HtsPurchaseResult :=
  purchaseHtsRepositories P (purchases i).1 (purchases i).2

/-- The calls. -/
def calls (i : ι) (p : Prog (Locked Work) (Locked.Answer WorkAnswer) JsError HtsPurchaseResult) :
    Prop := p = call P purchases i

variable {P purchases} {α : Type} {d d' : Data} {l l' : Ledger} {intent : Intent} {i : ι}
  {input : HtsRepositoryPurchase} {id : JsString} {s : Signature} {a a' : Accounts} {c : Bool}
  {fetches : List Fetch}

/-- The journal is not touched. -/
theorem Kept.same (hjournal : l'.journal = l.journal)
    (hmirrors : l.accounts.mirrors ⊆ l'.accounts.mirrors) : Kept l l' :=
  ⟨fun h => hjournal ▸ h, fun intent h => ⟨intent, hjournal.trans h, rfl, fun _ hid => hid⟩, hmirrors⟩

theorem Kept.refl (l : Ledger) : Kept l l := .same rfl (List.Subset.refl _)

theorem Kept.trans {l'' : Ledger} (h : Kept l l') (h' : Kept l' l'') : Kept l l'' := by
  refine ⟨fun hjournal => h'.journal (h.journal hjournal), fun intent hintent => ?_,
    List.Subset.trans h.mirrors h'.mirrors⟩
  obtain ⟨intent', hintent', hfingerprint, hid⟩ := h.content intent hintent
  obtain ⟨intent'', hintent'', hfingerprint', hid'⟩ := h'.content intent' hintent'
  exact ⟨intent'', hintent'', hfingerprint'.trans hfingerprint, fun id hsome =>
    hid' id (hid id hsome)⟩

/-- The journal gets its first content. -/
theorem Kept.begun (hjournal : l'.journal ≠ .absent) (hnew : ∀ intent, l.journal ≠ .content intent)
    (hmirrors : l.accounts.mirrors ⊆ l'.accounts.mirrors) : Kept l l' :=
  ⟨fun _ => hjournal, fun intent h => absurd h (hnew intent), hmirrors⟩

/-- The accounts are not touched. -/
theorem Asks.same (h : l'.accounts = l.accounts) : Asks l l' := by
  refine ⟨by rw [h], by rw [h], [], ?_, fun _ hf => absurd hf List.not_mem_nil⟩
  rw [h, List.append_nil]

theorem Asks.trans {l'' : Ledger} (h : Asks l l') (h' : Asks l' l'') (hkept : Kept l' l'') :
    Asks l l'' := by
  obtain ⟨fs, hfs, hasks⟩ := h.fetches
  obtain ⟨fs', hfs', hasks'⟩ := h'.fetches
  refine ⟨h'.signs.trans h.signs, h'.dispatches.trans h.dispatches, fs ++ fs', ?_, fun f hf => ?_⟩
  · rw [hfs', hfs, List.append_assoc]
  · rcases List.mem_append.1 hf with hf | hf
    · obtain ⟨intent, id, hintent, hid, hask⟩ := hasks f hf
      obtain ⟨intent', hintent', -, hid'⟩ := hkept.content intent hintent
      exact ⟨intent', id, hintent', hid' id hid, hask⟩
    · exact hasks' f hf

theorem Guar.refl (h : Good P l.journal l.accounts) : Guar P purchases i l l :=
  ⟨h, .refl l, Or.inl, fun _ => .same rfl, fun _ _ _ => ⟨rfl, rfl⟩⟩

/-- What a call may do with a journal that is not that of another call. -/
theorem Guar.mine (hinput : validated P purchases i = .ok input)
    (hmine : ∀ intent, l.journal = .content intent → intent.fingerprint = P.fingerprint input)
    (hgood : Good P l'.journal l'.accounts) (hkeeps : Kept l l')
    (hcreating : l'.creating = l.creating) (hasks : l.creating = false → Asks l l') :
    Guar P purchases i l l' where
  good := hgood
  keeps := hkeeps
  creating h := Or.inl (hcreating.symm.trans h)
  asks := hasks
  other intent hintent hforeign := absurd (hmine intent hintent) (hforeign input hinput)

variable (P purchases) in
/-- The calls behind the lock. -/
def payments : Callers ι Data Work WorkAnswer JsError where
  work := work
  inv d := Good P d.ledger.journal d.ledger.accounts
  guar i d d' := Guar P purchases i d.ledger d'.ledger
  keeps d d' := Kept d.ledger d'.ledger
  keeps_refl d := .refl d.ledger
  keeps_trans _ _ _ h h' := h.trans h'
  inv_of_guar _ _ _ _ h := h.good
  keeps_of_guar _ _ _ _ h := h.keeps

theorem MirrorProved.mono {terms : TokenTerms} (h : MirrorProved a id terms)
    (hmirrors : a.mirrors ⊆ a'.mirrors) : MirrorProved a' id terms := by
  obtain ⟨transactions, hmem, hproves⟩ := h
  exact ⟨transactions, hmirrors hmem, hproves⟩

/-- One more question about the transaction is asked. -/
theorem Settles.ask (h : Settles P intent input id s a) {f : Fetch}
    {mirrors : List (JsString × List TokenTransaction)} (hf : f.Asks id)
    (hmirrors : a.mirrors ⊆ mirrors) :
    Settles P intent input id s { a with
      fetches := a.fetches ++ [f]
      mirrors := mirrors } where
  fingerprint := h.fingerprint
  transactionId := h.transactionId
  paid := by
    refine ⟨h.paid.signs, h.paid.bound, h.paid.dispatches, h.paid.sent, fun g hg => ?_⟩
    rcases List.mem_append.1 hg with hg | hg
    · exact h.paid.fetches g hg
    · rw [List.mem_singleton.1 hg]
      exact Or.inr hf
  proved hresult := (h.proved hresult).mono hmirrors

theorem finite_json (input : HtsRepositoryPurchase) : input.json.finite = true := by
  have hrepos : ∀ repos : List JsString, Json.finiteItems (repos.map .str) = true := by
    intro repos
    induction repos with
    | nil => rfl
    | cons repo repos ih => exact ih
  simp only [HtsRepositoryPurchase.json, Json.finite, Json.finiteFields, hrepos, Bool.and_self]

theorem json_injective : Function.Injective HtsRepositoryPurchase.json := by
  intro input input' h
  obtain ⟨requestId, url, providerId, repos, ⟨asset, payer, payTo, amount⟩, price, maximum,
    expiresAt, symbol, decimals⟩ := input
  simp only [HtsRepositoryPurchase.json, Json.obj.injEq, List.cons.injEq, Prod.mk.injEq,
    Json.str.injEq, Json.num.injEq, Json.arr.injEq, true_and, and_true] at h
  obtain ⟨rfl, rfl, rfl, hrepos, ⟨rfl, rfl, rfl, rfl⟩, rfl, rfl, rfl, rfl, rfl⟩ := h
  have hstr : Function.Injective Json.str := fun _ _ => Json.str.inj
  rw [List.map_injective_iff.2 hstr hrepos]

/-- Purchases with one fingerprint are the same when the hash has no collisions. -/
theorem fingerprint_injective (hsha : Function.Injective P.sha256) :
    Function.Injective P.fingerprint := by
  intro input input' h
  have hends : Json.Ends [] := fun _ hc => by cases hc
  have htext := hsha h
  refine json_injective (Json.stringify_inj (N := P.texts.host.numerals) (s := []) (t := [])
    input.json (finite_json input) (finite_json input') hends hends ?_).1
  rw [htext]

/-- The purchase of a journal with a transaction. -/
theorem Good.settles (h : Good P (.content intent) a) (hF : Function.Injective P.fingerprint)
    (hsame : intent.fingerprint = P.fingerprint input) (hid : intent.transactionId = some id) :
    ∃ s, Settles P intent input id s a := by
  cases h with
  | intent htransaction =>
    rw [hid] at htransaction
    cases htransaction
  | signed hsettles =>
    obtain rfl := Option.some.inj (hid.symm.trans hsettles.transactionId)
    obtain rfl := hF (hsame.symm.trans hsettles.fingerprint)
    exact ⟨_, hsettles⟩

/-- The journal is rewritten, and at most one question was asked. -/
theorem Settles.guar {intent' : Intent} (hinput : validated P purchases i = .ok input)
    (hsame : intent.fingerprint = P.fingerprint input)
    (hid : ∀ id', intent.transactionId = some id' → id' = id)
    (h' : Settles P intent' input id s a') (hmirrors : a.mirrors ⊆ a'.mirrors)
    (hsigns : a'.signs = a.signs) (hdispatches : a'.dispatches = a.dispatches) {fs : List Fetch}
    (hfetches : a'.fetches = a.fetches ++ fs) (hfs : ∀ f ∈ fs, f.Asks id) :
    Guar P purchases i ⟨.content intent, c, a⟩ ⟨.content intent', c, a'⟩ := by
  have hmine : ∀ intent₁, Journal.content intent = .content intent₁ →
      intent₁.fingerprint = P.fingerprint input := fun _ h => by
    cases h
    exact hsame
  refine .mine hinput hmine (.signed h') ⟨fun _ hfalse => (by cases hfalse), fun intent₁ h₁ => ?_,
    hmirrors⟩ rfl fun _ => ⟨hsigns, hdispatches, fs, hfetches, fun f hf => ?_⟩
  · cases h₁
    refine ⟨intent', rfl, h'.fingerprint.trans hsame.symm, fun id' hsome => ?_⟩
    rw [hid id' hsome]
    exact h'.transactionId
  · exact ⟨intent', id, rfl, h'.transactionId, hfs f hf⟩

/-! ### The programs -/

/-- The invariant. -/
abbrev Holds (P : Packages) (d : Data) : Prop := Good P d.ledger.journal d.ledger.accounts

/-- What holds whatever the outcome of a program; and `A` after it returned. -/
abbrev Then (P : Packages) (A : α → Data → Prop) : Except JsError α → Data → Prop :=
  Prog.post (Holds P) A

/-- A part, and then the rest. -/
theorem wp_next {β : Type} {p : Held β} {f : β → Held α} {A : β → Data → Prop}
    {B : α → Data → Prop} (hp : p.wp ((payments P purchases).spec i) (Then P A) d)
    (hf : ∀ x d', Holds P d' → A x d' →
      (f x).wp ((payments P purchases).spec i) (Then P B) d') :
    (p >>= f).wp ((payments P purchases).spec i) (Then P B) d :=
  Prog.wp_seq hp (fun _ => id) hf

/-- A pure computation, and then the rest. -/
theorem wp_check {β : Type} {x : Except JsError β} {f : β → Held α} {B : α → Data → Prop}
    (h : Holds P d)
    (hf : ∀ y, x = .ok y → (f y).wp ((payments P purchases).spec i) (Then P B) d) :
    (Prog.ofExcept x >>= f).wp ((payments P purchases).spec i) (Then P B) d := by
  refine wp_next (A := fun y d' => d' = d ∧ x = .ok y)
    (Prog.wp_ofExcept_post h fun y hy => ⟨rfl, hy⟩) ?_
  rintro y d' - ⟨rfl, hy⟩
  exact hf y hy

theorem wp_refuse {message : String} {A : α → Data → Prop} (h : Holds P d) :
    (refuse message : Held α).wp ((payments P purchases).spec i) (Then P A) d := Prog.wp_throw.2 h

/-- An effect on the ledger. -/
theorem wp_effect {o : Work} {A : WorkAnswer o → Ledger → Prop} (hd : d.ledger = l)
    (h : ∀ r l', act d.clock l o r l' →
      Guar P purchases i l l' ∧ ∀ x, r = .ok x → A x l') :
    (await o).wp ((payments P purchases).spec i) (Then P fun x d' => A x d'.ledger) d := by
  refine Callers.wp_await fun r d' hwork => ?_
  obtain ⟨hact, -⟩ := hwork
  rw [hd] at hact
  obtain ⟨hguar, hA⟩ := h r d'.ledger hact
  have hguar' : Guar P purchases i d.ledger d'.ledger := by
    rw [hd]
    exact hguar
  refine ⟨hguar', ?_⟩
  cases r with
  | error e => exact hguar.good
  | ok x => exact ⟨hguar.good, hA x rfl⟩

/-- An effect that changes nothing. -/
theorem wp_still {o : Work} (h : Holds P d) (hd : d.ledger = l)
    (hquiet : ∀ now l r l', act now l o r l' → l' = l) :
    (await o).wp ((payments P purchases).spec i) (Then P fun _ d' => d'.ledger = l) d := by
  refine wp_effect (A := fun _ l' => l' = l) hd fun r l' hact => ?_
  rw [hquiet _ _ r _ hact]
  refine ⟨.refl ?_, fun _ _ => rfl⟩
  rw [← hd]
  exact h

/-- The clock is read. -/
theorem wp_now (h : Holds P d) : (await .now).wp ((payments P purchases).spec i)
    (Then P fun time d' => d' = d ∧ time = d.clock) d := by
  refine Callers.wp_await fun r d' hwork => ?_
  obtain ⟨⟨hsame, htime⟩, -, hstill⟩ := hwork
  obtain rfl : d' = d := by
    rw [show d' = ⟨d'.ledger, d'.clock⟩ from rfl, hsame, hstill rfl]
  refine ⟨.refl h, ?_⟩
  cases r with
  | error e => exact h
  | ok time => exact ⟨h, rfl, htime time rfl⟩

/-- The mandate has not lapsed. -/
theorem wp_active (h : Holds P d) :
    (active P input).wp ((payments P purchases).spec i)
      (Then P fun _ d' => d' = d ∧ P.lapsed input.mandateExpiresAt d.clock = false) d := by
  refine wp_next (wp_now h) ?_
  rintro now d' - ⟨rfl, rfl⟩
  refine Prog.wp_ite (fun _ => wp_refuse h) fun hactive => ?_
  exact Prog.wp_pure.2 ⟨h, rfl, Bool.not_eq_true _ ▸ hactive⟩

/-- The journal is rewritten. -/
theorem wp_rewriteJournal {intent₀ : Intent} (hinput : validated P purchases i = .ok input)
    (h : Holds P d) (hd : d.ledger = ⟨.content intent₀, c, a⟩)
    (hsame : intent₀.fingerprint = P.fingerprint input)
    (hid : ∀ id', intent₀.transactionId = some id' → id' = id)
    (h' : Settles P intent input id s a) :
    (rewriteJournal intent).wp ((payments P purchases).spec i)
      (Then P fun _ d' => d'.ledger = ⟨.content intent, c, a⟩) d := by
  refine wp_next (wp_still h hd fun _ _ _ _ hact => hact) fun _ d₁ h₁ hd₁ => ?_
  refine wp_next (wp_still h₁ hd₁ fun _ _ _ _ hact => hact) fun _ d₂ h₂ hd₂ => ?_
  refine wp_next (wp_effect (A := fun _ l' => l' = ⟨.content intent, c, a⟩) hd₂
    fun r l' hact => ?_) fun _ d₃ h₃ hd₃ => wp_still h₃ hd₃ fun _ _ _ _ hact => hact
  rcases hact with ⟨e, rfl, rfl⟩ | rfl
  · refine ⟨.refl ?_, fun _ hfalse => by cases hfalse⟩
    rw [← hd₂]
    exact h₂
  · exact ⟨h'.guar hinput hsame hid (List.Subset.refl _) rfl rfl (List.append_nil _).symm
      fun _ hf => absurd hf List.not_mem_nil, fun _ _ => rfl⟩

theorem transactionId_of_settles (h : Settles P intent input id s a) (id' : JsString)
    (h' : intent.transactionId = some id') : id' = id :=
  Option.some.inj (h'.symm.trans h.transactionId)

/-- A transfer that is validated is proved. -/
theorem proves_of_validate {transactions : List TokenTransaction} {terms : TokenTerms} {u : Unit}
    (hok : validateTokenTransfer transactions terms = .ok u) :
    tokenProves transactions terms = true := by
  unfold validateTokenTransfer at hok
  cases hterms : validateTokenTerms terms with
  | error e =>
    rw [hterms] at hok
    cases hok
  | ok terms' =>
    have heq : terms' = terms := by
      unfold validateTokenTerms at hterms
      split at hterms
      · cases hterms
      · split at hterms
        · cases hterms
        · exact (Except.ok.inj hterms).symm
    rw [hterms, heq] at hok
    have hok' : (if tokenProves transactions terms then Except.ok ()
      else JsError.raise "Mirror node has not proved the exact HTS transfer.") = .ok _ := hok
    split at hok'
    · assumption
    · cases hok'

/-- The mirror node proves the transfer. -/
theorem wp_mirrorProof (hinput : validated P purchases i = .ok input)
    (hd : d.ledger = ⟨.content intent, c, a⟩) (h : Settles P intent input id s a) :
    (mirrorProof id input).wp ((payments P purchases).spec i) (Then P fun _ d' => ∃ a',
      d'.ledger = ⟨.content intent, c, a'⟩ ∧ Settles P intent input id s a' ∧
        MirrorProved a' id input.terms) d := by
  refine wp_next (A := fun transactions d' => ∃ a', d'.ledger = ⟨.content intent, c, a'⟩ ∧
    Settles P intent input id s a' ∧ (normalizeTransactionId id, transactions) ∈ a'.mirrors)
    (wp_effect (o := .mirror id) (A := fun transactions l' => ∃ a', l' = ⟨.content intent, c, a'⟩ ∧
      Settles P intent input id s a' ∧ (normalizeTransactionId id, transactions) ∈ a'.mirrors) hd
      fun r l' hact => ?_) ?_
  · have hl' : l' = ⟨.content intent, c, { a with
      fetches := a.fetches ++ [.mirror id]
      mirrors := a.mirrors ++ mirrored (normalizeTransactionId id) r }⟩ := hact
    have hmirrors := List.subset_append_left a.mirrors (mirrored (normalizeTransactionId id) r)
    have hsettles := h.ask (Or.inl rfl : Fetch.Asks id (.mirror id)) hmirrors
    rw [hl']
    refine ⟨hsettles.guar hinput h.fingerprint (transactionId_of_settles h) hmirrors rfl rfl rfl
      fun f hf => ?_, fun transactions hr => ⟨_, rfl, hsettles, ?_⟩⟩
    · rw [List.mem_singleton.1 hf]
      exact Or.inl rfl
    · rw [hr]
      exact List.mem_append_right _ (List.mem_singleton_self _)
  · rintro transactions d' hd' ⟨a', hd'', hsettles, hmem⟩
    exact Prog.wp_ofExcept_post hd' fun _ hok =>
      ⟨a', hd'', hsettles, transactions, hmem, proves_of_validate hok⟩

/-- The result is of the transaction in the journal, with the terms of the purchase, and its transfer
is proved. -/
def Result (P : Packages) (input : HtsRepositoryPurchase) (result : HtsPurchaseResult)
    (l : Ledger) : Prop :=
  ∃ intent, l.journal = .content intent ∧ intent.fingerprint = P.fingerprint input ∧
    intent.transactionId = some result.transactionId ∧ result.terms = input.terms ∧
    MirrorProved l.accounts result.transactionId input.terms

theorem Result.kept {result : HtsPurchaseResult} (h : Result P input result l) (hkept : Kept l l') :
    Result P input result l' := by
  obtain ⟨intent, hintent, hfingerprint, hid, hterms, hproved⟩ := h
  obtain ⟨intent', hintent', hfingerprint', hid'⟩ := hkept.content intent hintent
  exact ⟨intent', hintent', hfingerprint'.trans hfingerprint, hid' _ hid, hterms,
    hproved.mono hkept.mirrors⟩

/-- What is verified of the programs. -/
abbrev Verified (P : Packages) (purchases : ι → HtsRepositoryPurchase × Credentials) (i : ι)
    (input : HtsRepositoryPurchase) (p : Held HtsPurchaseResult) (d : Data) : Prop :=
  p.wp ((payments P purchases).spec i) (Then P fun result d' => Result P input result d'.ledger) d

/-- A result is stored and returned after its transfer was proved. -/
theorem wp_conclude {intent₀ : Intent} {result : HtsPurchaseResult}
    (hinput : validated P purchases i = .ok input) (h₀ : Holds P d)
    (hd : d.ledger = ⟨.content intent₀, c, a⟩) (hsame : intent₀.fingerprint = P.fingerprint input)
    (hid₀ : intent₀.transactionId = some id) (h : Settles P intent input id s a)
    (hproved : MirrorProved a id input.terms) (hid : result.transactionId = id)
    (hterms : result.terms = input.terms) :
    Verified P purchases i input (conclude intent result) d := by
  have hstored : Settles P { intent with result := some result } input id s a :=
    ⟨h.fingerprint, h.transactionId, h.paid, fun _ => hproved⟩
  refine wp_next (wp_rewriteJournal hinput h₀ hd hsame
    (fun id' h' => Option.some.inj (h'.symm.trans hid₀)) hstored) fun _ d₁ h₁ hd₁ => ?_
  refine Prog.wp_pure.2 ⟨h₁, ?_⟩
  subst hid
  rw [hd₁]
  exact ⟨_, rfl, h.fingerprint, h.transactionId, hterms, hproved⟩

/-- The receipt of the transaction is read, unless the journal has it. -/
theorem wp_readReceipt (hinput : validated P purchases i = .ok input) (h₀ : Holds P d)
    (hd : d.ledger = ⟨.content intent, c, a⟩) (h : Settles P intent input id s a)
    (hproved : MirrorProved a id input.terms) :
    (readReceipt P intent input id).wp ((payments P purchases).spec i) (Then P fun _ d' => ∃ a',
      d'.ledger = ⟨.content intent, c, a'⟩ ∧ Settles P intent input id s a' ∧
        MirrorProved a' id input.terms) d := by
  unfold readReceipt
  cases intent.received with
  | some checked => exact Prog.wp_pure.2 ⟨h₀, a, hd, h, hproved⟩
  | none =>
    have hasked := h.ask (Or.inr rfl : Fetch.Asks id (.receipt id)) (List.Subset.refl a.mirrors)
    refine wp_next (wp_effect (A := fun _ l' => l' = ⟨.content intent, c, { a with
      fetches := a.fetches ++ [.receipt id] }⟩) hd fun r l' hact => ?_) fun body d' h' hd' => ?_
    · have hl' : l' = ⟨.content intent, c, { a with
        fetches := a.fetches ++ [.receipt id] }⟩ := hact
      rw [hl']
      refine ⟨hasked.guar hinput h.fingerprint (transactionId_of_settles h) (List.Subset.refl _)
        rfl rfl rfl fun f hf => ?_, fun _ _ => rfl⟩
      rw [List.mem_singleton.1 hf]
      exact Or.inr rfl
    · refine Prog.wp_ite (fun _ => wp_refuse h') fun _ => ?_
      exact Prog.wp_pure.2 ⟨h', _, hd', hasked, hproved⟩

/-- A call that finds its journal asks about the transaction at most. -/
theorem wp_recover (hF : Function.Injective P.fingerprint)
    (hinput : validated P purchases i = .ok input) (h : Holds P d)
    (hd : d.ledger = ⟨.content intent, c, a⟩) (hsame : intent.fingerprint = P.fingerprint input) :
    Verified P purchases i input (recover P intent input) d := by
  unfold recover
  cases hid : intent.transactionId with
  | none => exact wp_refuse h
  | some id =>
    have hgood : Good P (.content intent) a := by
      have hholds : Good P d.ledger.journal d.ledger.accounts := h
      rw [hd] at hholds
      exact hholds
    obtain ⟨s, hsettles⟩ := hgood.settles hF hsame hid
    cases hresult : intent.result with
    | some result =>
      have hproved := hsettles.proved (by rw [hresult]; exact Option.some_ne_none _)
      refine wp_check h fun checked _ => Prog.wp_pure.2 ⟨h, intent, ?_, hsame, hid, rfl, ?_⟩
      · rw [hd]
      · rw [hd]
        exact hproved
    | none =>
      refine wp_next (wp_mirrorProof hinput hd hsettles) ?_
      rintro _ d₁ h₁ ⟨a₁, hd₁, hsettles₁, hproved₁⟩
      refine wp_next (wp_readReceipt hinput h₁ hd₁ hsettles₁ hproved₁) ?_
      rintro response d₂ h₂ ⟨a₂, hd₂, hsettles₂, hproved₂⟩
      refine wp_check h₂ fun checked _ => ?_
      exact wp_conclude hinput h₂ hd₂ hsame hid
        ⟨hsettles₂.fingerprint, rfl, hsettles₂.paid, fun _ => hproved₂⟩ hproved₂ rfl rfl

/-- The answer to the paid request is stored, and then its transfer is proved. -/
theorem wp_settle {response : Paid} (hinput : validated P purchases i = .ok input) (h₀ : Holds P d)
    (hd : d.ledger = ⟨.content intent, c, a⟩) (h : Settles P intent input id s a) :
    Verified P purchases i input (settle P intent input id response) d := by
  unfold settle
  cases response.header with
  | none => exact wp_refuse h₀
  | some header =>
    refine Prog.wp_ite (fun _ => wp_refuse h₀) fun _ => ?_
    refine wp_check h₀ fun settlement _ => ?_
    refine wp_check h₀ fun checked _ => ?_
    have hstored : Settles P { intent with received := some checked } input id s a :=
      ⟨h.fingerprint, h.transactionId, h.paid, h.proved⟩
    refine wp_next (wp_rewriteJournal hinput h₀ hd h.fingerprint (transactionId_of_settles h)
      hstored) fun _ d₁ h₁ hd₁ => ?_
    refine wp_next (wp_mirrorProof hinput hd₁ hstored) ?_
    rintro _ d₂ h₂ ⟨a₂, hd₂, hstored₂, hproved₂⟩
    exact wp_conclude hinput h₂ hd₂ h.fingerprint h.transactionId hstored₂ hproved₂ rfl rfl

/-- The paid request is sent once, for the transaction that was signed. -/
theorem wp_send {quoteExpiresAt transaction : JsString}
    (hinput : validated P purchases i = .ok input) (h₀ : Holds P d)
    (hd : d.ledger = ⟨.content intent, true, ⟨[s], [], fetches, []⟩⟩)
    (hfetches : ∀ f ∈ fetches, f.isNegotiation = true)
    (hfingerprint : intent.fingerprint = P.fingerprint input)
    (hnone : intent.transactionId = none) (hresult : intent.result = none)
    (hsigned : s.transaction = some transaction) (hbound : Bound P input id s) :
    Verified P purchases i input (send P intent input quoteExpiresAt transaction id) d := by
  have hsettles : Settles P { intent with transactionId := some id } input id s
      ⟨[s], [], fetches, []⟩ := by
    refine ⟨hfingerprint, rfl, ⟨rfl, hbound, Nat.zero_le _, ?_, fun f hf => Or.inl (hfetches f hf)⟩,
      fun hfalse => absurd hresult hfalse⟩
    exact fun x hx => absurd hx List.not_mem_nil
  refine wp_next (wp_rewriteJournal hinput h₀ hd hfingerprint (fun id' h' => ?_) hsettles)
    fun _ d₁ h₁ hd₁ => ?_
  · rw [hnone] at h'
    cases h'
  refine wp_next (wp_active h₁) ?_
  rintro _ d₁ h₁ ⟨rfl, hactive⟩
  refine wp_next (wp_now h₁) ?_
  rintro now d₁ h₁ ⟨rfl, -⟩
  refine Prog.wp_ite (fun _ => wp_refuse h₁) fun _ => ?_
  -- the only paid request
  have hsent : Settles P { intent with transactionId := some id } input id s
      ⟨[s], [⟨transaction, d₁.clock⟩], fetches, []⟩ := by
    refine ⟨hfingerprint, rfl, ⟨rfl, hbound, le_refl 1, fun x hx => ?_, hsettles.paid.fetches⟩,
      fun hfalse => absurd hresult hfalse⟩
    rw [List.mem_singleton.1 hx]
    exact ⟨hsigned, hactive⟩
  refine wp_next (A := fun _ d' => d'.ledger = ⟨.content { intent with transactionId := some id },
    true, ⟨[s], [⟨transaction, d₁.clock⟩], fetches, []⟩⟩)
    (Prog.wp_catch (I := Holds P) (P := fun _ d' => d'.ledger =
      ⟨.content { intent with transactionId := some id }, true,
        ⟨[s], [⟨transaction, d₁.clock⟩], fetches, []⟩⟩)
      (wp_effect (A := fun _ l' => l' = ⟨.content { intent with transactionId := some id }, true,
        ⟨[s], [⟨transaction, d₁.clock⟩], fetches, []⟩⟩) hd₁ fun r l' hact => ?_)
      (fun _ _ hI hA => ⟨hI, hA⟩) fun _ _ hI => wp_refuse hI)
    fun response d₂ h₂ hd₂ => wp_settle hinput h₂ hd₂ hsent
  have hl' : l' = ⟨.content { intent with transactionId := some id }, true,
    ⟨[s], [⟨transaction, d₁.clock⟩], fetches, []⟩⟩ := hact
  rw [hl']
  refine ⟨.mine hinput (fun intent₁ h₁ => ?_) (.signed hsent)
    (.same rfl (List.Subset.refl _)) rfl fun hfalse => (by cases hfalse), fun _ _ => rfl⟩
  cases h₁
  exact hfingerprint

/-- A call that creates the journal has found none. -/
theorem Guar.created (hinput : validated P purchases i = .ok input)
    (hnew : ∀ intent, l.journal ≠ .content intent) (hgood : Good P l'.journal l'.accounts)
    (hjournal : l'.journal ≠ .absent) (hcreating : l.creating = true)
    (hcreating' : l'.creating = true) (hmirrors : l.accounts.mirrors ⊆ l'.accounts.mirrors) :
    Guar P purchases i l l' :=
  .mine hinput (fun intent h => absurd h (hnew intent)) hgood (.begun hjournal hnew hmirrors)
    (hcreating'.trans hcreating.symm) fun hfalse => by
      rw [hcreating] at hfalse
      cases hfalse

/-- A new journal is created. -/
theorem wp_createJournal (hinput : validated P purchases i = .ok input) (h₀ : Holds P d)
    (hd : d.ledger = ⟨.absent, true, ⟨[], [], fetches, []⟩⟩)
    (hfetches : ∀ f ∈ fetches, f.isNegotiation = true) (hnone : intent.transactionId = none) :
    (createJournal intent).wp ((payments P purchases).spec i)
      (Then P fun _ d' => d'.ledger = ⟨.content intent, true, ⟨[], [], fetches, []⟩⟩) d := by
  refine wp_next (wp_still h₀ hd fun _ _ _ _ hact => hact) fun _ d₁ h₁ hd₁ => ?_
  refine wp_next (wp_effect (A := fun _ l' => l' = ⟨.partial_, true, ⟨[], [], fetches, []⟩⟩) hd₁
    fun r l' hact => ?_) fun _ d₂ h₂ hd₂ => ?_
  · rcases hact with ⟨e, rfl, rfl⟩ | ⟨-, rfl⟩
    · exact ⟨.refl (.absent hfetches), fun _ hfalse => by cases hfalse⟩
    · exact ⟨.created hinput (fun _ hfalse => by cases hfalse) (.partial_ hfetches)
        (fun hfalse => by cases hfalse) rfl rfl (List.Subset.refl _), fun _ _ => rfl⟩
  · refine wp_next (wp_effect (A := fun _ l' => l' =
      ⟨.content intent, true, ⟨[], [], fetches, []⟩⟩) hd₂ fun r l' hact => ?_)
      fun _ d₃ h₃ hd₃ => wp_still h₃ hd₃ fun _ _ _ _ hact => hact
    rcases hact with ⟨e, rfl, rfl⟩ | rfl
    · exact ⟨.refl (.partial_ hfetches), fun _ hfalse => by cases hfalse⟩
    · exact ⟨.created hinput (fun _ hfalse => by cases hfalse)
        (.intent hnone (Nat.zero_le 1) hfetches) (fun hfalse => by cases hfalse) rfl rfl
        (List.Subset.refl _), fun _ _ => rfl⟩

/-- Requirements that are accepted are the payment of the purchase. -/
theorem bound_of_exactRequirements {requirements : Requirements} {feePayer transaction : JsString}
    {u : Unit} (h : exactRequirements requirements input feePayer = .ok u)
    (hid : P.nativeId transaction = .ok (some id)) :
    Bound P input id ⟨requirements, some transaction⟩ := by
  unfold exactRequirements at h
  split at h
  · cases h
  · rename_i hall
    simp only [not_or, not_not, Bool.not_eq_false] at hall
    obtain ⟨-, -, hasset, hpayTo, hamount, -⟩ := hall
    exact ⟨by rw [Option.map_some, hid], hamount, hasset, hpayTo⟩

/-- The only signature. -/
theorem wp_sign {requirements : Requirements} (hinput : validated P purchases i = .ok input)
    (hd : d.ledger = ⟨.content intent, true, ⟨[], [], fetches, []⟩⟩)
    (hfetches : ∀ f ∈ fetches, f.isNegotiation = true)
    (hfingerprint : intent.fingerprint = P.fingerprint input)
    (hnone : intent.transactionId = none) :
    (await (.sign requirements)).wp ((payments P purchases).spec i)
      (Then P fun signed d' => d'.ledger =
        ⟨.content intent, true, ⟨[⟨requirements, signed⟩], [], fetches, []⟩⟩) d := by
  refine wp_effect (o := .sign requirements) (A := fun signed l' => l' =
    ⟨.content intent, true, ⟨[⟨requirements, signed⟩], [], fetches, []⟩⟩) hd fun r l' hact => ?_
  have hl' : l' = ⟨.content intent, true, ⟨[⟨requirements, answered r⟩], [], fetches, []⟩⟩ := hact
  rw [hl']
  refine ⟨.mine hinput (fun intent₁ h₁ => ?_) (.intent hnone (le_refl 1) hfetches)
    (.same rfl (List.Subset.refl _)) rfl fun hfalse => (by cases hfalse), fun signed hr => ?_⟩
  · cases h₁
    exact hfingerprint
  · rw [hr]
    rfl

/-- Who finds no journal signs once, and sends once. -/
theorem wp_pay {quoteExpiresAt : JsString} {requirements : Requirements}
    (hinput : validated P purchases i = .ok input) (h₀ : Holds P d)
    (hd : d.ledger = ⟨.absent, true, ⟨[], [], fetches, []⟩⟩)
    (hfetches : ∀ f ∈ fetches, f.isNegotiation = true)
    (hbound : ∀ transaction id, P.nativeId transaction = .ok (some id) →
      Bound P input id ⟨requirements, some transaction⟩) :
    Verified P purchases i input (pay P input quoteExpiresAt requirements) d := by
  refine wp_next (wp_createJournal hinput h₀ hd hfetches rfl) fun _ d₁ h₁ hd₁ => ?_
  refine wp_next (wp_active h₁) ?_
  rintro _ d₁ h₁ ⟨rfl, -⟩
  refine wp_next (wp_now h₁) ?_
  rintro now d₁ h₁ ⟨rfl, -⟩
  refine Prog.wp_ite (fun _ => wp_refuse h₁) fun _ => ?_
  refine wp_next (wp_sign hinput hd₁ hfetches rfl rfl) fun signed d₂ h₂ hd₂ => ?_
  cases signed with
  | none => exact wp_refuse h₂
  | some transaction =>
    refine wp_check h₂ fun id hid => ?_
    cases id with
    | none => exact wp_refuse h₂
    | some id =>
      refine Prog.wp_ite (fun _ => wp_refuse h₂) fun _ => ?_
      exact wp_send hinput h₂ hd₂ hfetches rfl rfl rfl rfl (hbound transaction id hid)

/-- There is no journal, and only the negotiation has begun. -/
def Negotiating (l : Ledger) : Prop :=
  ∃ fetches, l = ⟨.absent, true, ⟨[], [], fetches, []⟩⟩ ∧
    ∀ f ∈ fetches, f.isNegotiation = true

theorem Negotiating.good (h : Negotiating l) : Good P l.journal l.accounts := by
  obtain ⟨fetches, rfl, hfetches⟩ := h
  exact .absent hfetches

/-- A request of the negotiation. -/
theorem wp_negotiation {o : Work} {f : Fetch} (hinput : validated P purchases i = .ok input)
    (hf : f.isNegotiation = true)
    (hact : ∀ now l r l', act now l o r l' → l' = l.fetched f) (h : Negotiating d.ledger) :
    (await o).wp ((payments P purchases).spec i) (Then P fun _ d' => Negotiating d'.ledger) d := by
  refine wp_effect (A := fun _ l' => Negotiating l') rfl fun r l' hl' => ?_
  obtain ⟨fetches, hd, hfetches⟩ := h
  have hnext : Negotiating l' := by
    refine ⟨fetches ++ [f], ?_, fun g hg => ?_⟩
    · rw [hact _ _ r _ hl', hd]
      rfl
    · rcases List.mem_append.1 hg with hg | hg
      · exact hfetches g hg
      · rw [List.mem_singleton.1 hg]
        exact hf
  refine ⟨?_, fun _ _ => hnext⟩
  rw [hact _ _ r _ hl', hd] at hnext ⊢
  exact .mine hinput (fun _ hfalse => by cases hfalse) hnext.good
    (.same rfl (List.Subset.refl _)) rfl fun hfalse => by cases hfalse

theorem wp_fetchQuote (hinput : validated P purchases i = .ok input) (h : Negotiating d.ledger) :
    (fetchQuote P input).wp ((payments P purchases).spec i)
      (Then P fun _ d' => Negotiating d'.ledger) d := by
  refine wp_next (wp_active h.good) ?_
  rintro _ d h₁ ⟨rfl, -⟩
  refine wp_next (wp_negotiation hinput (f := .quote) rfl (fun _ _ _ _ hact => hact) h)
    fun quote d₁ h₁ hd₁ => ?_
  refine wp_next (wp_active h₁) ?_
  rintro _ d₁ h₁ ⟨rfl, -⟩
  cases quoteExpiry P input quote with
  | none => exact wp_refuse h₁
  | some expiresAt =>
    refine wp_next (wp_now h₁) ?_
    rintro now d₁ h₁ ⟨rfl, -⟩
    exact Prog.wp_ite (fun _ => wp_refuse h₁) fun _ => Prog.wp_pure.2 ⟨h₁, hd₁⟩

theorem wp_fetchChallenge (hinput : validated P purchases i = .ok input)
    (h : Negotiating d.ledger) :
    (fetchChallenge P input).wp ((payments P purchases).spec i)
      (Then P fun requirements d' => Negotiating d'.ledger ∧
        ∀ transaction id, P.nativeId transaction = .ok (some id) →
          Bound P input id ⟨requirements, some transaction⟩) d := by
  refine wp_next (wp_active h.good) ?_
  rintro _ d - ⟨rfl, -⟩
  refine wp_next (wp_negotiation hinput (f := .unpaid) rfl (fun _ _ _ _ hact => hact) h)
    fun unpaid d₁ h₁ hd₁ => ?_
  refine Prog.wp_ite (fun _ => wp_refuse h₁) fun _ => ?_
  cases unpaid.header with
  | none => exact wp_refuse h₁
  | some header =>
    refine Prog.wp_ite (fun _ => wp_refuse h₁) fun _ => ?_
    refine wp_check h₁ fun challenge _ => ?_
    split
    · refine Prog.wp_ite (fun _ => wp_refuse h₁) fun _ => ?_
      refine wp_next (wp_negotiation hinput (f := .supported) rfl (fun _ _ _ _ hact => hact) hd₁)
        fun supported d₂ h₂ hd₂ => ?_
      cases supported with
      | none => exact wp_refuse h₂
      | some feePayer =>
        refine wp_check h₂ fun _ hexact => ?_
        refine wp_next (wp_still h₂ rfl fun _ _ _ _ hact => hact) fun _ d₃ h₃ hd₃ => ?_
        refine Prog.wp_pure.2 ⟨h₃, ?_, fun _ _ hid => bound_of_exactRequirements hexact hid⟩
        rw [hd₃]
        exact hd₂
    · exact wp_refuse h₁

/-- What a call reads of the journal. -/
theorem wp_readJournal (h : Holds P d) : (await .readJournal).wp ((payments P purchases).spec i)
    (Then P fun journal d' =>
      journal = d'.ledger.journal ∧ d'.ledger.creating = journal.isAbsent) d := by
  refine wp_effect (o := .readJournal) (A := fun journal l' =>
    journal = l'.journal ∧ l'.creating = journal.isAbsent) rfl fun r l' hact => ?_
  obtain ⟨rfl, hread⟩ := hact
  refine ⟨⟨h, .same rfl (List.Subset.refl _), fun hcreating => Or.inr ?_, fun _ => .same rfl,
    fun _ _ _ => ⟨rfl, rfl⟩⟩, fun journal hr => ⟨hread journal hr, by rw [hread journal hr]⟩⟩
  have habsent : d.ledger.journal.isAbsent = true := hcreating
  cases hjournal : d.ledger.journal with
  | absent => rfl
  | partial_ =>
    rw [hjournal] at habsent
    cases habsent
  | content intent =>
    rw [hjournal] at habsent
    cases habsent

/-- The work behind the lock. -/
theorem wp_purchase (hF : Function.Injective P.fingerprint)
    (hinput : validated P purchases i = .ok input) (h : Holds P d) :
    Verified P purchases i input (purchase P input) d := by
  refine wp_next (wp_readJournal h) ?_
  rintro journal d₁ h₁ ⟨rfl, hcreating⟩
  have hd₁ : d₁.ledger = ⟨d₁.ledger.journal, d₁.ledger.creating, d₁.ledger.accounts⟩ := rfl
  rw [hcreating] at hd₁
  cases hjournal : d₁.ledger.journal with
  | content previous =>
    refine Prog.wp_ite (fun _ => wp_refuse h₁) fun hsame => ?_
    rw [hjournal] at hd₁
    exact wp_recover hF hinput h₁ hd₁ (not_not.1 hsame)
  | partial_ => exact Prog.wp_throw.2 h₁
  | absent =>
    have hnegotiating : Negotiating d₁.ledger := by
      have hgood : Good P d₁.ledger.journal d₁.ledger.accounts := h₁
      rw [hjournal] at hgood hd₁
      generalize d₁.ledger.accounts = a at hgood hd₁
      cases hgood with
      | absent hfetches => exact ⟨_, hd₁, hfetches⟩
    refine wp_next (wp_fetchQuote hinput hnegotiating) fun quoteExpiresAt d₂ h₂ hd₂ => ?_
    refine wp_next (wp_negotiation hinput (f := .metadata) rfl (fun _ _ _ _ hact => hact) hd₂)
      fun metadata d₃ h₃ hd₃ => ?_
    refine Prog.wp_ite (fun _ => wp_refuse h₃) fun _ => ?_
    refine wp_next (wp_fetchChallenge hinput hd₃) ?_
    rintro requirements d₄ h₄ ⟨⟨fetches, hd₄, hfetches⟩, hbound⟩
    exact wp_pay hinput h₄ hd₄ hfetches hbound

/-- The outcome of a call. -/
theorem wp_purchaseHtsRepositories (hF : Function.Injective P.fingerprint)
    {w : Locked.World ι Data} (hi : w.owner ≠ some i) :
    (call P purchases i).wp
      ((payments P purchases).protocol.spec (Locked.callers work (calls P purchases)) i)
      (fun r w' => Prog.post (fun _ => True) (fun result d => ∃ input,
        validated P purchases i = .ok input ∧ Result P input result d.ledger) r w'.data) w := by
  unfold call purchaseHtsRepositories
  rw [Prog.wp_bind, Prog.wp_ofExcept]
  cases hinput : validateInput P (purchases i).1 (purchases i).2 with
  | error e => trivial
  | ok input =>
    refine Callers.wp_exclusive (X := payments P purchases) hi fun d hd _ => ?_
    exact Prog.wp_post_mono (wp_purchase hF hinput hd) (fun _ _ => trivial) fun _ _ _ hresult =>
      ⟨input, hinput, hresult⟩

theorem sound (hF : Function.Injective P.fingerprint) :
    ((payments P purchases).protocol).Sound (Locked.callers work (calls P purchases)) :=
  Callers.sound fun i w p howner hp => by
    rw [calls] at hp
    rw [hp]
    exact Prog.wp_mono (wp_purchaseHtsRepositories hF howner) fun _ _ _ => trivial

/-! ### The runs -/

theorem inv_empty {clock : ℤ} : (payments P purchases).inv (Data.empty clock) :=
  Good.absent fun _ hf => absurd hf List.not_mem_nil

variable (P purchases) in
/-- The result of a call is of the transaction in the journal, with the terms of its purchase, which
was signed and paid, and its transfer is proved. -/
def Returned (i : ι) (result : HtsPurchaseResult) (l : Ledger) : Prop :=
  ∃ input s, validated P purchases i = .ok input ∧ Result P input result l ∧
    PaidFor P input result.transactionId s l.accounts

section

variable [DecidableEq ι] {clock : ℤ}
  {τ σ : List (Tr (System.State ι (Locked.World ι Data) (Locked Work) (Locked.Answer WorkAnswer)
    JsError HtsPurchaseResult) (System.Action ι (Locked Work) (Locked.Answer WorkAnswer) JsError
      HtsPurchaseResult))}
  {t u : System.State ι (Locked.World ι Data) (Locked Work) (Locked.Answer WorkAnswer) JsError
    HtsPurchaseResult}

/-- The accounts of a journal: nothing but a negotiation and a signature, or those of a purchase that
was signed. -/
theorem Good.accounts {journal : Journal} (h : Good P journal a) :
    (∃ signs fetches, signs.length ≤ 1 ∧ a = ⟨signs, [], fetches, []⟩ ∧
      ∀ f ∈ fetches, f.isNegotiation = true) ∨ ∃ input id s, PaidFor P input id s a := by
  cases h with
  | absent hfetches => exact Or.inl ⟨[], _, Nat.zero_le 1, rfl, hfetches⟩
  | partial_ hfetches => exact Or.inl ⟨[], _, Nat.zero_le 1, rfl, hfetches⟩
  | intent _ hone hfetches => exact Or.inl ⟨_, _, hone, rfl, hfetches⟩
  | signed hsettles => exact Or.inr ⟨_, _, _, hsettles.paid⟩

/-- After a call has found a journal, only questions are asked. -/
theorem asks_run (hF : Function.Injective P.fingerprint)
    (h : (Locked.callers work (calls P purchases)).lts.Run (Locked.idle (Data.empty clock)) τ t)
    (hjournal : t.world.data.ledger.journal ≠ .absent)
    (hfound : t.world.data.ledger.creating = false)
    (hrun : (Locked.callers work (calls P purchases)).lts.Run t σ u) :
    Asks t.world.data.ledger u.world.data.ledger := by
  have hsound : (payments P purchases).protocol.Sound
      (Locked.callers work (calls P purchases)) := sound hF
  have hstays : u.world.data.ledger.journal ≠ .absent ∧ u.world.data.ledger.creating = false ∧
      Asks t.world.data.ledger u.world.data.ledger := by
    induction hrun with
    | nil => exact ⟨hjournal, hfound, .same rfl⟩
    | @snoc u v σ a hrun hstep ih =>
      obtain ⟨hjournal', hfound', hasks⟩ := ih
      rcases Callers.step_data hsound inv_empty (h.append hrun) hstep with
        hsame | ⟨i, o, r, -, hguar⟩
      · rw [hsame]
        exact ⟨hjournal', hfound', hasks⟩
      · have hguar' : Guar P purchases i u.world.data.ledger v.world.data.ledger := hguar
        refine ⟨hguar'.keeps.journal hjournal', ?_,
          hasks.trans (hguar'.asks hfound') hguar'.keeps⟩
        rw [← Bool.not_eq_true]
        intro hcreating
        rcases hguar'.creating hcreating with htrue | habsent
        · rw [hfound'] at htrue
          cases htrue
        · exact hjournal' habsent
  exact hstays.2.2

/-- The outcome of a call. -/
theorem outcome (hF : Function.Injective P.fingerprint)
    (h : (Locked.callers work (calls P purchases)).lts.Run (Locked.idle (Data.empty clock)) τ t)
    {r : Except JsError HtsPurchaseResult} (hfree : t.processes i = none)
    (howner : t.world.owner ≠ some i)
    (ha : (Locked.callers work (calls P purchases)).Answers t i (call P purchases i) r u) :
    (∀ result, r = .ok result → Returned P purchases i result u.world.data.ledger) ∧
    ∀ intent, t.world.data.ledger.journal = .content intent → Foreign P purchases i intent →
      ∃ e, r = .error e := by
  have hsound : (payments P purchases).protocol.Sound
      (Locked.callers work (calls P purchases)) := sound hF
  obtain ⟨σ, hrun⟩ := System.run_of_answers
    (S := Locked.callers work (calls P purchases)) hfree ⟨howner, rfl⟩ ha
  have hresult := Callers.answers hsound inv_empty h hfree ⟨howner, rfl⟩
    (Q := Prog.post (fun _ => True) fun result d => ∃ input,
      validated P purchases i = .ok input ∧ Result P input result d.ledger)
    (fun r d d' hkept hr => ?_) (wp_purchaseHtsRepositories hF howner) ha
  · cases r with
    | error e => exact ⟨fun _ hfalse => (by cases hfalse), fun _ _ _ => ⟨e, rfl⟩⟩
    | ok result =>
      obtain ⟨-, input, hinput, intent, hintent, hsame, hid, hterms, hproved⟩ := hresult
      have hgood : Good P u.world.data.ledger.journal u.world.data.ledger.accounts :=
        Callers.run hsound inv_empty (h.append hrun)
      rw [hintent] at hgood
      obtain ⟨s, hsettles⟩ := hgood.settles hF hsame hid
      refine ⟨fun result' hr => ?_, fun intent₀ hintent₀ hforeign => ?_⟩
      · cases hr
        exact ⟨input, s, hinput, ⟨intent, hintent, hsame, hid, hterms, hproved⟩, hsettles.paid⟩
      · have hkept : Kept t.world.data.ledger u.world.data.ledger :=
          Callers.run_keeps hsound inv_empty h hrun
        obtain ⟨intent', hintent', hfingerprint, -⟩ := hkept.content intent₀ hintent₀
        rw [hintent] at hintent'
        cases hintent'
        exact absurd (hfingerprint.symm.trans hsame) (hforeign input hinput)
  · cases r with
    | error e => trivial
    | ok result =>
      obtain ⟨-, input, hinput, hresult⟩ := hr
      exact ⟨trivial, input, hinput, hresult.kept hkept⟩

/-- **The payments with test credits for a request, over every run.**  At most one transaction is
signed and at most one paid request is sent, while the mandate has not lapsed.  A call that finds a
journal only asks about its transaction, and one with other terms does nothing and returns no
result.  A result that a call returns is of the transaction that was signed for its purchase. -/
theorem token_runs (hF : Function.Injective P.fingerprint)
    (h : (Locked.callers work (calls P purchases)).lts.Run (Locked.idle (Data.empty clock)) τ t) :
    t.world.data.ledger.accounts.signs.length ≤ 1 ∧
    t.world.data.ledger.accounts.dispatches.length ≤ 1 ∧
    ((∃ signs fetches, t.world.data.ledger.accounts = ⟨signs, [], fetches, []⟩ ∧
        ∀ f ∈ fetches, f.isNegotiation = true) ∨
      ∃ input id s, PaidFor P input id s t.world.data.ledger.accounts) ∧
    (∀ a u, (Locked.callers work (calls P purchases)).lts.step t a u →
      t.world.data.ledger.creating = true ∨ Asks t.world.data.ledger u.world.data.ledger) ∧
    (t.world.data.ledger.journal ≠ .absent → t.world.data.ledger.creating = false → ∀ σ u,
      (Locked.callers work (calls P purchases)).lts.Run t σ u →
        Asks t.world.data.ledger u.world.data.ledger) ∧
    (∀ i o r u, (Locked.callers work (calls P purchases)).lts.step t (.effect i o r) u →
      ∀ intent, t.world.data.ledger.journal = .content intent → Foreign P purchases i intent →
        u.world.data.ledger.journal = t.world.data.ledger.journal ∧
          u.world.data.ledger.accounts = t.world.data.ledger.accounts) ∧
    ∀ i r u, t.processes i = none → t.world.owner ≠ some i →
      (Locked.callers work (calls P purchases)).Answers t i (call P purchases i) r u →
      (∀ result, r = .ok result → Returned P purchases i result u.world.data.ledger) ∧
      ∀ intent, t.world.data.ledger.journal = .content intent → Foreign P purchases i intent →
        ∃ e, r = .error e := by
  have hsound : (payments P purchases).protocol.Sound
      (Locked.callers work (calls P purchases)) := sound hF
  have hgood : Good P t.world.data.ledger.journal t.world.data.ledger.accounts :=
    Callers.run hsound inv_empty h
  have hcounts : t.world.data.ledger.accounts.signs.length ≤ 1 ∧
      t.world.data.ledger.accounts.dispatches.length ≤ 1 := by
    rcases hgood.accounts with ⟨signs, fetches, hone, hsame, -⟩ | ⟨input, id, s, hpaid⟩
    · rw [hsame]
      exact ⟨hone, Nat.zero_le 1⟩
    · rw [hpaid.signs]
      exact ⟨le_refl 1, hpaid.dispatches⟩
  refine ⟨hcounts.1, hcounts.2, ?_, fun a u hstep => ?_, fun hjournal hfound σ u hrun =>
    asks_run hF h hjournal hfound hrun, fun i o r u hstep intent hintent hforeign => ?_,
    fun i r u hfree howner ha => outcome hF h hfree howner ha⟩
  · rcases hgood.accounts with ⟨signs, fetches, -, hsame, hfetches⟩ | hpaid
    · exact Or.inl ⟨signs, fetches, hsame, hfetches⟩
    · exact Or.inr hpaid
  · rcases Callers.step_data hsound inv_empty h hstep with hsame | ⟨i, o, r, -, hguar⟩
    · rw [hsame]
      exact Or.inr (.same rfl)
    -- Only the call that creates the journal signs and sends.
    · cases hcreating : t.world.data.ledger.creating with
      | true => exact Or.inl rfl
      | false => exact Or.inr (Guar.asks hguar hcreating)
  · rcases Callers.step_data hsound inv_empty h hstep with hsame | ⟨j, o', r', heq, hguar⟩
    · rw [hsame]
      exact ⟨rfl, rfl⟩
    · cases heq
      exact Guar.other hguar intent hintent hforeign

end

end Hts

/-- **Both ways to pay.**  On either path at most one transaction is signed and at most one paid
request is sent for a request, before the mandate expires, whatever the calls, the answers and the
crashes.  A call that finds a journal fetches nothing, or only asks about its transaction; one with
other terms returns no result; and a result that is returned is that of the signed transaction. -/
theorem paid_once {ι κ : Type} [DecidableEq ι] [DecidableEq κ] {E : ι → Environment}
    {input : ι → DataPurchase} {clocks : ι → ℤ} {P : Hts.Packages}
    {tokens : κ → Hts.HtsRepositoryPurchase × Hts.Credentials} {clock : ℤ} {σ τ : List (Tr _ _)}
    {s : System.State ι (World ι) Effect Answer JsError PurchaseResult}
    {t : System.State κ (Locked.World κ Hts.Data) (Locked Hts.Work) (Locked.Answer Hts.WorkAnswer)
      JsError Hts.HtsPurchaseResult}
    (h : (purchases E input).lts.Run (System.State.idle (World.empty clocks)) σ s)
    (hsha : Function.Injective P.sha256)
    (h' : (Locked.callers Hts.work (Hts.calls P tokens)).lts.Run
      (Locked.idle (Hts.Data.empty clock)) τ t) :
    (s.world.store.books.signs.length ≤ 1 ∧ s.world.store.books.dispatches.length ≤ 1 ∧
      (∀ x ∈ s.world.store.books.dispatches, ∃ j, s.world.store.creator = some j ∧
        (∃ signature ∈ s.world.store.books.signs, signature.transaction = some x.transaction) ∧
        (E j).active (input j).mandateExpiresAt x.time = true) ∧
      (∀ a u, (purchases E input).lts.step s a u →
        Unsent s.world.store u.world.store ∨
          ∃ j o r, a = .effect j o r ∧ s.world.store.creator = some j) ∧
      (∀ j, s.world.store.creator = some j → s.processes j = none → ∀ ρ u,
        (purchases E input).lts.Run s ρ u → Unsent s.world.store u.world.store) ∧
      ∀ i r u, s.processes i = none → s.world.store.creator ≠ some i →
        (purchases E input).Answers s i (purchaseHederaData (E i) (input i)) r u →
        (∀ result, r = .ok result → Returned E input i result u.world.store) ∧
        (∀ j, u.world.store.creator = some j → termsOf E input j ≠ termsOf E input i →
          ∃ e, r = .error e) ∧
        (s.world.store.file ≠ .absent → u.world.fetches i = s.world.fetches i)) ∧
    t.world.data.ledger.accounts.signs.length ≤ 1 ∧
    t.world.data.ledger.accounts.dispatches.length ≤ 1 ∧
    ((∃ signs fetches, t.world.data.ledger.accounts = ⟨signs, [], fetches, []⟩ ∧
        ∀ f ∈ fetches, f.isNegotiation = true) ∨
      ∃ purchase id signature, Hts.PaidFor P purchase id signature t.world.data.ledger.accounts) ∧
    (∀ a u, (Locked.callers Hts.work (Hts.calls P tokens)).lts.step t a u →
      t.world.data.ledger.creating = true ∨
        Hts.Asks t.world.data.ledger u.world.data.ledger) ∧
    (t.world.data.ledger.journal ≠ .absent → t.world.data.ledger.creating = false → ∀ ρ u,
      (Locked.callers Hts.work (Hts.calls P tokens)).lts.Run t ρ u →
        Hts.Asks t.world.data.ledger u.world.data.ledger) ∧
    (∀ i o r u, (Locked.callers Hts.work (Hts.calls P tokens)).lts.step t (.effect i o r) u →
      ∀ intent, t.world.data.ledger.journal = .content intent → Hts.Foreign P tokens i intent →
        u.world.data.ledger.journal = t.world.data.ledger.journal ∧
          u.world.data.ledger.accounts = t.world.data.ledger.accounts) ∧
    ∀ i r u, t.processes i = none → t.world.owner ≠ some i →
      (Locked.callers Hts.work (Hts.calls P tokens)).Answers t i (Hts.call P tokens i) r u →
      (∀ result, r = .ok result → Hts.Returned P tokens i result u.world.data.ledger) ∧
      ∀ intent, t.world.data.ledger.journal = .content intent → Hts.Foreign P tokens i intent →
        ∃ e, r = .error e :=
  ⟨native_runs h, Hts.token_runs (Hts.fingerprint_injective hsha) h'⟩

namespace Sample

open Runs.Evidence.Sample (texts time repo snapshot)

/-- The transaction that is signed. -/
def transactionId : JsString := js "0.0.2@1700000000.000000001"

/-- Requirements for an asset. -/
def requirements (asset amount : String) : Requirements where
  terms := ⟨some (js "exact"), some (js "hedera:testnet"), some (js asset), some (js amount),
    some (js "0.0.3"), some 60, some (js "0.0.4")⟩
  paymentFlow := none

/-- The challenge of a resource. -/
def required (url : JsString) (requirements : Requirements) : Required :=
  ⟨2, some url, [requirements]⟩

/-- A settlement. -/
def settlement : DataService.Settlement :=
  ⟨true, some transactionId, some (js "hedera:testnet"), some (js "0.0.2")⟩

/-- The evidence of the repository. -/
def evidence : Json := .arr (Json.copiedItems
  [Runs.Evidence.evidenceOf repo (snapshot (.str time))])

/-- The environment of the broker. -/
def environment : Environment where
  texts := texts
  base := .ok (js "https://data/")
  payTo := js "0.0.3"
  accountId := js "0.0.2"
  privateKey := js "key"
  fingerprint input := input.runId
  decodePaymentRequiredHeader _ :=
    .ok (required (js "https://data/evidence/repo-standard") (requirements "0.0.0" "100"))
  decodePaymentResponseHeader _ := .ok settlement
  nativeId _ := .ok (some transactionId)

/-- The first two calls are for one purchase, the last one for another purchase under its id. -/
def inputs (i : Fin 3) : DataPurchase :=
  ⟨if i = 2 then js "other-run" else js "run", js "request", [repo], js "repo-standard", 100, 100,
    time, none⟩

/-- What the effects of a native purchase are answered, and what becomes of the store. -/
def reply (i : Fin 3) (now : ℤ) (w : Store (Fin 3)) :
    (o : Effect) → Except JsError (Answer o) × Store (Fin 3)
  | .now => (.ok (now + 1), w)
  | .mkdir => (.ok (), w)
  | .readJournal => (.ok w.file, w)
  | .fetchUnpaid => (.ok ⟨402, some (js "challenge")⟩, w)
  | .fetchSupported => (.ok (some (js "0.0.4")), w)
  | .decodeKey => (.ok (), w)
  | .create => match w.file with
    | .absent => (.ok (), { w with
        file := .partial_
        creator := some i })
    | _ => (.error .other, w)
  | .write content => (.ok (), { w with file := .content content })
  | .sign requirements => (.ok (some (js "transaction")), { w with books := { w.books with
      signs := w.books.signs ++ [⟨requirements, some (js "transaction")⟩] } })
  | .writeTemp => (.ok (), w)
  | .rename content => (.ok (), { w with file := .content content })
  | .dispatch transaction => (.ok ⟨true, some (js "settled"), evidence⟩, { w with
      books := { w.books with dispatches := w.books.dispatches ++ [⟨transaction, now⟩] } })
  | .mirror id =>
    let transactions : List MirrorTransaction :=
      [⟨js "SUCCESS", js "CRYPTOTRANSFER", [(js "0.0.2", -100), (js "0.0.3", 100)], 0⟩]
    (.ok transactions, { w with books := { w.books with
      mirrors := w.books.mirrors ++ [(id, transactions)] } })
  | .sleep => (.ok (), w)

/-- What the effects of a native purchase are answered; each of them takes a millisecond. -/
def respond (i : Fin 3) (w : World (Fin 3)) (o : Effect) :
    Except JsError (Answer o) × World (Fin 3) :=
  ((reply i (w.clock i) w.store o).1, ⟨(reply i (w.clock i) w.store o).2,
    Function.update w.clock i (w.clock i + 1),
    Function.update w.fetches i (w.fetches i ++ o.fetch?.toList)⟩)

theorem respond_sem (i : Fin 3) (w : World (Fin 3)) (o : Effect) :
    sem i w o (respond i w o).1 (respond i w o).2 := by
  have hpasses : Passes i o w (respond i w o).2 := by
    refine ⟨?_, fun j hj => Function.update_of_ne hj .., ?_, fun j hj => Function.update_of_ne hj ..⟩
    · show w.clock i ≤ Function.update w.clock i (w.clock i + 1) i
      rw [Function.update_self]
      omega
    · exact Function.update_self ..
  have htime : (respond i w o).2.clock i = w.clock i + 1 := Function.update_self ..
  rw [sem, htime]
  cases o with
  | now => exact ⟨rfl, hpasses, fun time h => (Except.ok.inj h).symm⟩
  | readJournal => exact ⟨⟨rfl, fun file hfile => (Except.ok.inj hfile).symm⟩, hpasses, trivial⟩
  | create =>
    refine ⟨?_, hpasses, trivial⟩
    unfold respond reply
    cases hfile : w.store.file with
    | absent => exact Or.inr ⟨hfile, rfl⟩
    | partial_ => exact Or.inl ⟨_, rfl, rfl⟩
    | content c => exact Or.inl ⟨_, rfl, rfl⟩
  | write content => exact ⟨Or.inr rfl, hpasses, trivial⟩
  | rename content => exact ⟨Or.inr rfl, hpasses, trivial⟩
  | _ => exact ⟨rfl, hpasses, trivial⟩

/-- A call on the world. -/
def native (i : Fin 3) (w : World (Fin 3)) : Except JsError PurchaseResult × World (Fin 3) :=
  (purchaseHederaData environment (inputs i)).exec (respond i) w

/-- The world after the first call. -/
def world : World (Fin 3) := (native 0 (World.empty fun _ => 0)).2

theorem run_world : ∃ τ, (purchases (fun _ : Fin 3 => environment) inputs).lts.Run
    (System.State.idle (World.empty fun _ => 0)) τ (System.State.idle world) :=
  System.run_exec (S := purchases (fun _ : Fin 3 => environment) inputs)
    (s := System.State.idle (World.empty fun _ => 0)) (i := 0) (respond_sem 0) rfl
    ⟨fun hfalse => (by cases hfalse), rfl⟩

/-- The next call, and its outcome. -/
theorem answers_native (i : Fin 3) : ∃ t, t.world = (native i world).2 ∧
    (purchases (fun _ : Fin 3 => environment) inputs).Answers (System.State.idle world) i
      (purchaseHederaData environment (inputs i)) (native i world).1 t :=
  ⟨_, rfl, System.answers_exec (respond_sem i) _ _⟩

/-- The resource of the token. -/
def tokenUrl : JsString := js "https://hts/x402/hts/"

/-- The packages of the buyer. -/
def packages : Hts.Packages where
  texts := texts
  url s := some ⟨js "https:", js "hts", [], [], [], [], js "/x402/hts/", s, s⟩
  sha256 := id
  decodePaymentRequiredHeader _ :=
    .ok (required (tokenUrl ++ js "evidence/repo-standard") (requirements "0.0.9" "1"))
  decodePaymentResponseHeader _ := .ok settlement
  nativeId _ := .ok (some transactionId)

/-- The purchases with test credits of the first process and of the other one. -/
def tokens (i : Bool) : Hts.HtsRepositoryPurchase × Hts.Credentials :=
  (⟨js "request", tokenUrl, js "repo-standard", [repo], ⟨js "0.0.9", js "0.0.2", js "0.0.3", 1⟩, 1,
    if i then 1 else 2, time, js "TEST", 0⟩, ⟨js "0.0.2", js "key"⟩)

/-- The quote. -/
def quote : Json :=
  .obj [(js "providerId", .str (js "repo-standard")), (js "units", .num 1),
    (js "unitPriceAtomic", .num 1), (js "amountAtomic", .num 1), (js "payTo", .str (js "0.0.3")),
    (js "network", .str (js "hedera:testnet")), (js "asset", .str (js "0.0.9")),
    (js "decimals", .num 0), (js "symbol", .str (js "TEST")), (js "expiresAt", .str time)]

/-- The token. -/
def metadata : Json :=
  .obj [(js "token_id", .str (js "0.0.9")), (js "type", .str (js "FUNGIBLE_COMMON")),
    (js "supply_type", .str (js "FINITE")), (js "decimals", .str (js "0")),
    (js "symbol", .str (js "TEST")), (js "custom_fees", .obj [(js "fixed_fees", .arr [])])]

/-- The receipt of the resource. -/
def receipt : Json :=
  .obj [(js "state", .str (js "settled")), (js "transactionId", .str transactionId),
    (js "providerId", .str (js "repo-standard")), (js "repos", .arr [.str repo]),
    (js "amountAtomic", .num 1), (js "asset", .str (js "0.0.9")),
    (js "settlement", .obj [(js "success", .bool true), (js "transaction", .str transactionId),
      (js "network", .str (js "hedera:testnet")), (js "payer", .str (js "0.0.2"))]),
    (js "evidence", evidence)]

/-- What the effects of a purchase with test credits are answered: the connection is lost after the
paid request was sent. -/
def token (now : ℤ) (l : Hts.Ledger) :
    (o : Hts.Work) → Except JsError (Hts.WorkAnswer o) × Hts.Ledger
  | .readJournal => (.ok l.journal, { l with creating := l.journal.isAbsent })
  | .now => (.ok now, l)
  | .fetchQuote => (.ok quote, l.fetched .quote)
  | .fetchMetadata => (.ok metadata, l.fetched .metadata)
  | .fetchUnpaid => (.ok ⟨402, some (js "challenge")⟩, l.fetched .unpaid)
  | .fetchSupported => (.ok (some (js "0.0.4")), l.fetched .supported)
  | .decodeKey => (.ok (), l)
  | .mkdir => (.ok (), l)
  | .create => match l.journal with
    | .absent => (.ok (), { l with journal := .partial_ })
    | _ => (.error .other, l)
  | .write intent => (.ok (), { l with journal := .content intent })
  | .syncDirectory => (.ok (), l)
  | .sign requirements => (.ok (some (js "transaction")), { l with accounts := { l.accounts with
      signs := l.accounts.signs ++ [⟨requirements, some (js "transaction")⟩] } })
  | .writeTemp => (.ok (), l)
  | .rename intent => (.ok (), { l with journal := .content intent })
  | .dispatch transaction => (.error .other, { l with accounts := { l.accounts with
      dispatches := l.accounts.dispatches ++ [⟨transaction, now⟩] } })
  | .mirror id =>
    let transactions : List Hts.TokenTransaction :=
      [⟨js "SUCCESS", js "CRYPTOTRANSFER",
        [⟨js "0.0.2", -1, some (js "0.0.9")⟩, ⟨js "0.0.3", 1, some (js "0.0.9")⟩]⟩]
    (.ok transactions, { l with accounts := { l.accounts with
      fetches := l.accounts.fetches ++ [.mirror id]
      mirrors := l.accounts.mirrors ++
        [(DataService.normalizeTransactionId id, transactions)] } })
  | .receipt id => (.ok receipt, l.fetched (.receipt id))

/-- The clock is read, and every other effect takes a millisecond. -/
def passed (now : ℤ) : Hts.Work → ℤ
  | .now => now
  | _ => now + 1

/-- What the effects of a purchase with test credits are answered. -/
def answer (d : Hts.Data) (o : Hts.Work) : Except JsError (Hts.WorkAnswer o) × Hts.Data :=
  ((token d.clock d.ledger o).1, ⟨(token d.clock d.ledger o).2, passed d.clock o⟩)

theorem answer_work (d : Hts.Data) (o : Hts.Work) :
    Hts.work d o (answer d o).1 (answer d o).2 := by
  have htime : d.clock ≤ passed d.clock o ∧ (o = .now → passed d.clock o = d.clock) := by
    cases o with
    | now => exact ⟨le_refl _, fun _ => rfl⟩
    | _ => exact ⟨Int.le_add_one (le_refl _), fun hfalse => by cases hfalse⟩
  refine ⟨?_, htime⟩
  cases o with
  | readJournal => exact ⟨rfl, fun journal hjournal => (Except.ok.inj hjournal).symm⟩
  | now => exact ⟨rfl, fun time h => (Except.ok.inj h).symm⟩
  | create =>
    unfold answer token
    cases hjournal : d.ledger.journal with
    | absent => exact Or.inr ⟨hjournal, rfl⟩
    | partial_ => exact Or.inl ⟨_, rfl, rfl⟩
    | content intent => exact Or.inl ⟨_, rfl, rfl⟩
  | write intent => exact Or.inr rfl
  | rename intent => exact Or.inr rfl
  | _ => rfl

/-- The outcome of a call of the buyer, and the directory. -/
def buy (i : Bool) (w : Locked.World Bool Hts.Data) :
    Except JsError Hts.HtsPurchaseResult × Locked.World Bool Hts.Data :=
  (Hts.call packages tokens i).exec (Locked.answer answer .other i) w

/-- The directory after the first call. -/
def directory : Locked.World Bool Hts.Data := (buy true ⟨none, Hts.Data.empty 0⟩).2

theorem run_directory : ∃ τ, (Locked.callers Hts.work (Hts.calls packages tokens)).lts.Run
    (Locked.idle (Hts.Data.empty 0)) τ (System.State.idle directory) :=
  System.run_exec (S := Locked.callers Hts.work (Hts.calls packages tokens))
    (s := System.State.idle ⟨none, Hts.Data.empty 0⟩) (i := true) (Locked.answer_sem answer_work)
    rfl ⟨fun hfalse => (by cases hfalse), rfl⟩

/-- The next call of either process, and its outcome. -/
theorem answers_buy (i : Bool) : ∃ t, t.world = (buy i directory).2 ∧
    (Locked.callers Hts.work (Hts.calls packages tokens)).Answers (System.State.idle directory) i
      (Hts.call packages tokens i) (buy i directory).1 t :=
  ⟨_, rfl, System.answers_exec (Locked.answer_sem answer_work) (Hts.call packages tokens i) _⟩

/-- A call that returns. -/
theorem returns {α : Type} {r : Except JsError α} (h : r.toOption.isSome = true) :
    ∃ result, r = .ok result := by
  cases r with
  | error e => cases h
  | ok result => exact ⟨result, rfl⟩

/-- There is a journal. -/
def File.isThere : File → Bool
  | .absent => false
  | _ => true

/-- The fingerprint of a journal. -/
def fingerprintOf : Hts.Journal → Option JsString
  | .content intent => some intent.fingerprint
  | _ => none

theorem states : (world.store.creator = some 0 ∧ world.store.books.dispatches.length = 1 ∧
      File.isThere world.store.file = true ∧ (native 1 world).1.toOption.isSome = true ∧
      (native 2 world).2.store.creator = some 0) ∧
    directory.owner = none ∧
    fingerprintOf directory.data.ledger.journal = some (packages.fingerprint (tokens true).1) ∧
    packages.fingerprint (tokens true).1 ≠ packages.fingerprint (tokens false).1 ∧
    ((Hts.validated packages tokens false).toOption.map packages.fingerprint =
      some (packages.fingerprint (tokens false).1)) ∧
    directory.data.ledger.accounts.dispatches.length = 1 ∧
    (buy true directory).1.toOption.isSome = true ∧
    (buy true directory).2.data.ledger.accounts.fetches =
      directory.data.ledger.accounts.fetches ++ [.mirror transactionId, .receipt transactionId] := by
  decide +kernel

end Sample

/-- A native purchase that is repeated, and a purchase with test credits whose connection is lost
after the paid request: each is sent once, the second call returns the result, and a call with other
terms is refused. -/
theorem paid_once_sample :
    (Sample.world.store.books.signs.length ≤ 1 ∧ Sample.world.store.books.dispatches.length = 1 ∧
      (∃ result, Returned (fun _ => Sample.environment) Sample.inputs 1 result
        (Sample.native 1 Sample.world).2.store) ∧
      (Sample.native 1 Sample.world).2.fetches 1 = Sample.world.fetches 1 ∧
      ∃ e, (Sample.native 2 Sample.world).1 = .error e) ∧
    Sample.directory.data.ledger.accounts.signs.length ≤ 1 ∧
    Sample.directory.data.ledger.accounts.dispatches.length = 1 ∧
    (∃ result, Hts.Returned Sample.packages Sample.tokens true result
      (Sample.buy true Sample.directory).2.data.ledger) ∧
    (Sample.buy true Sample.directory).2.data.ledger.accounts.fetches =
      Sample.directory.data.ledger.accounts.fetches ++
        [.mirror Sample.transactionId, .receipt Sample.transactionId] ∧
    ∃ e, (Sample.buy false Sample.directory).1 = .error e := by
  obtain ⟨⟨hcreator, hsent, hfile, hrepeated, hcreator'⟩, howner, hjournal, hother, hvalid, hpaid,
    hrecovered, hasked⟩ := Sample.states
  obtain ⟨σ, hnative⟩ := Sample.run_world
  obtain ⟨τ, htoken⟩ := Sample.run_directory
  obtain ⟨⟨hsigns, -, -, -, -, hcall⟩, hsigns', -, -, -, -, -, hbuy⟩ :=
    paid_once (P := Sample.packages) hnative Function.injective_id htoken
  have hfree : ∀ i : Fin 3, i ≠ 0 → Sample.world.store.creator ≠ some i := fun i hi h => by
    rw [hcreator] at h
    exact hi (Option.some.inj h).symm
  have hfree' : ∀ i : Bool, Sample.directory.owner ≠ some i := fun i h => by
    rw [howner] at h
    cases h
  have hthere : Sample.world.store.file ≠ .absent := fun h => by
    rw [h] at hfile
    cases hfile
  refine ⟨⟨hsigns, hsent, ?_, ?_, ?_⟩, hsigns', hpaid, ?_, hasked, ?_⟩
  · obtain ⟨t, ht, hanswers⟩ := Sample.answers_native 1
    obtain ⟨result, hok⟩ := Sample.returns hrepeated
    have hreturned := (hcall 1 _ t rfl (hfree 1 (by decide)) hanswers).1 result hok
    rw [ht] at hreturned
    exact ⟨result, hreturned⟩
  · obtain ⟨t, ht, hanswers⟩ := Sample.answers_native 1
    have hfetches := (hcall 1 _ t rfl (hfree 1 (by decide)) hanswers).2.2 hthere
    rw [ht] at hfetches
    exact hfetches
  · obtain ⟨t, ht, hanswers⟩ := Sample.answers_native 2
    refine (hcall 2 _ t rfl (hfree 2 (by decide)) hanswers).2.1 0 ?_ (by decide)
    rw [ht]
    exact hcreator'
  · obtain ⟨t, ht, hanswers⟩ := Sample.answers_buy true
    obtain ⟨result, hok⟩ := Sample.returns hrecovered
    have hreturned := (hbuy true _ t rfl (hfree' true) hanswers).1 result hok
    rw [ht] at hreturned
    exact ⟨result, hreturned⟩
  · obtain ⟨t, -, hanswers⟩ := Sample.answers_buy false
    cases hintent : Sample.directory.data.ledger.journal with
    | content intent =>
      refine (hbuy false _ t rfl (hfree' false) hanswers).2 intent hintent fun input hinput => ?_
      rw [hintent] at hjournal
      rw [hinput] at hvalid
      have hfirst : intent.fingerprint = Sample.packages.fingerprint (Sample.tokens true).1 :=
        Option.some.inj hjournal
      have hsecond : Sample.packages.fingerprint input =
          Sample.packages.fingerprint (Sample.tokens false).1 := Option.some.inj hvalid
      rw [hfirst, hsecond]
      exact hother
    | _ =>
      rw [hintent] at hjournal
      cases hjournal

end Hedera

end Obolos
