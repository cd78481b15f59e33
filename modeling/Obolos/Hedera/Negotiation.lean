import Obolos.Hedera.A2aTokens

/-!
# Offers that are consistent

Between the check of the mandate and the time of issue the agent waits for a quote.  An offer is
verified, and accepted by the buyer, exactly if the mandate and the quote have not expired when it is
issued, its dates have years of four digits, and its token is not too long (`offer_consistent_iff`).
-/

namespace Obolos

namespace Hedera

namespace A2a

open Json
open DataService (isAccount)
open Hts (Packages UrlParts trustedBase)
open Runs.Evidence (validateRepos)

variable {A : Platform} {config : A2AConfig} {quote : A2AQuote} {clock : ℕ → ℤ} {data : Json}
  {r : Proposal} {q : Quote} {p : OfferPayload} {m : Message}

/-! ### Answers with an offer -/

/-- The data of the one part of a message. -/
def dataOf (input : Json) : Option Json := do
  let params ← input.prop "params"
  let message ← params.prop "message"
  let parts ← (message.prop "parts").bind asArr
  let part ← parts.head?
  part.prop "data"

/-- The proposal is answered with the offer of a payload. -/
structure Offered (A : Platform) (config : A2AConfig) (quote : A2AQuote) (clock : ℕ → ℤ)
    (data : Json) (r : Proposal) (q : Quote) (p : OfferPayload) : Prop where
  valid : validateConfig A config = .ok ()
  proposal : proposalSchema A data = .ok r
  repos : validateRepos A.texts (.arr (r.repos.map .str)) = .ok r.repos
  payer : r.payer ≠ config.payTo
  quoted : quote r.providerId r.repos = .ok q
  good : badQuote A config r r.repos q (clock 1) = false
  maximum : q.amountAtomic ≤ r.maxAmountAtomic
  payload : offerPayload A config r r.repos q (clock 2) = .ok p

theorem strictFields_ok {keys : List String} {x : Json} {fields : List (JsString × Json)}
    (h : strictFields keys x = .ok fields) : x = .obj fields := by
  cases x with
  | obj l =>
    rw [strictFields] at h
    split_ifs at h
    rw [Except.ok.inj h]
  | _ => cases h

theorem field_prop {α : Type} {read : Json → Option α} {keys : List String} {key : String} {x : Json}
    {fields : List (JsString × Json)} {a : α} (hfields : strictFields keys x = .ok fields)
    (h : field read key fields = .ok a) : ∃ y, x.prop key = some y ∧ read y = some a := by
  obtain ⟨y, hy, hread⟩ := Option.bind_eq_some_iff.1 (field_ok.1 h)
  exact ⟨y, by rw [strictFields_ok hfields]; exact hy, hread⟩

theorem readPart_data {parts : Json} (h : readPart parts = some data) :
    (parts.asArr.bind List.head?).bind (Json.prop "data") = some data := by
  unfold readPart at h
  split at h
  · rename_i part
    split at h
    · rename_i fields hfields
      split_ifs at h
      obtain ⟨x, hx, hread⟩ := Option.bind_eq_some_iff.1 h
      cases x with
      | obj l =>
        obtain rfl := Option.some.inj hread
        rw [strictFields_ok hfields]
        exact hx
      | _ => cases hread
    · cases h
  · cases h

/-- What is read of `params` is the data of the message. -/
theorem data_of_params {value : Json} {params : SendParams} (h : paramsSchema value = .ok params) :
    ((value.prop "message").bind fun message => ((message.prop "parts").bind asArr).bind
      fun parts => parts.head?.bind (Json.prop "data")) = some params.data := by
  simp only [paramsSchema, bind_eq_ok] at h
  obtain ⟨fields, hfields, message, hmessage, fields', hfields', -, -, -, -, -, -, contextId, -, taskId,
    -, data, hdata, -, -, -, -, _, -, h⟩ := h
  have hparams : params.data = data := by
    split at h
    · simp only [bind_eq_ok, pure_eq_ok] at h
      obtain ⟨_, -, _, -, rfl⟩ := h
      rfl
    · simp only [bind_eq_ok, pure_eq_ok] at h
      obtain ⟨_, -, _, -, rfl⟩ := h
      rfl
  obtain ⟨message', hget, hsome⟩ := field_prop hfields hmessage
  obtain rfl := Option.some.inj hsome
  obtain ⟨parts, hparts, hread⟩ := field_prop hfields' hdata
  rw [hget, hparams, Option.bind_some, hparts, Option.bind_some]
  have hpart := readPart_data hread
  rwa [Option.bind_assoc] at hpart

/-- The repositories of a proposal are taken as they are. -/
theorem repos_eq {T : Runs.Evidence.Texts} {texts repos : List JsString}
    (h : validateRepos T (.arr (texts.map .str)) = .ok repos) : repos = texts := by
  have harr := (Runs.Evidence.validateRepos_spec h).1
  have hinj : Function.Injective Json.str := fun _ _ => Json.str.inj
  exact (List.map_injective_iff.2 hinj (Json.arr.inj harr)).symm

/-- A result is one of `message/send`. -/
theorem result_of_handle {input id : Json}
    (h : handleA2ARequest A config quote clock input = .result id m) :
    ∃ value id', input.prop "params" = some value ∧
      sendMessage A config quote clock id' value = .ok (.result id m) := by
  unfold handleA2ARequest at h
  split at h
  · rename_i version id' method hversion hid hmethod
    split_ifs at h
    · split at h
      · cases h
      · cases h
    · cases hparams : input.prop "params" with
      | none =>
        rw [hparams] at h
        cases h
      | some value =>
        rw [hparams, Option.map_some, Option.getD_some] at h
        refine ⟨value, id', rfl, ?_⟩
        split at h
        · rename_i response hresponse
          rw [hresponse, h]
        · cases h
  · cases h

/-- The data of a message is that of an offer. -/
def Message.isOffer (m : Message) : Prop := (m.data.prop "action").bind asStr = some (js "offer")

instance (m : Message) : Decidable m.isOffer := inferInstanceAs (Decidable (_ = _))

/-- What is read of the request of a proposal. -/
theorem offered_of_propose {params : SendParams} (hconfig : validateConfig A config = .ok ())
    (h : propose A config quote clock params = .ok m) (hoffer : m.isOffer) :
    ∃ r q p, Offered A config quote clock params.data r q p ∧
      m.data = .obj (sign A p config).offered := by
  simp only [propose, bind_eq_ok, raise_else] at h
  obtain ⟨r, hproposal, repos, hrepos, hactive, q, hquote, hgood, -, h⟩ := h
  obtain rfl := repos_eq hrepos
  rw [not_or] at hactive
  rw [Bool.not_eq_true] at hgood
  split_ifs at h with hmaximum
  · cases h
    exact absurd (js_inj.1 (Option.some.inj hoffer)) (by decide)
  · obtain ⟨p, hpayload, h⟩ := bind_eq_ok.1 h
    cases h
    exact ⟨r, q, p, ⟨hconfig, hproposal, hrepos, hactive.2, hquote, hgood, not_lt.1 hmaximum, hpayload⟩,
      rfl⟩

/-- An answer with an offer: the proposal, the quote and the payload. -/
theorem offered_of_handle {input id : Json}
    (h : handleA2ARequest A config quote clock input = .result id m) (hoffer : m.isOffer) :
    ∃ data r q p, dataOf input = some data ∧ Offered A config quote clock data r q p ∧
      m.data = .obj (sign A p config).offered := by
  obtain ⟨value, id', hvalue, hsend⟩ := result_of_handle h
  simp only [sendMessage, bind_eq_ok] at hsend
  obtain ⟨_, hconfig, params, hparams, hsend⟩ := hsend
  have hdata : dataOf input = some params.data := by
    rw [← data_of_params hparams, dataOf, hvalue]
    rfl
  split_ifs at hsend
  · cases hsend
  · cases hsend
  · obtain ⟨m', haccept, hm⟩ := bind_eq_ok.1 hsend
    cases hm
    simp only [accept, bind_eq_ok, raise_else] at haccept
    obtain ⟨_, -, offer, -, -, haccept⟩ := haccept
    cases haccept
    exact absurd (js_inj.1 (Option.some.inj hoffer)) (by decide)
  · obtain ⟨m', hpropose, hm⟩ := bind_eq_ok.1 hsend
    cases hm
    obtain ⟨r, q, p, hoffered, hm⟩ := offered_of_propose hconfig hpropose hoffer
    exact ⟨params.data, r, q, p, hdata, hoffered, hm⟩

/-! ### The payload of an offer -/

/-- The texts and numbers of a proposal. -/
structure Proposal.Valid (A : Platform) (r : Proposal) : Prop where
  payer : isAccount r.payer = true
  requestId : isIdentity r.requestId = true
  providerId : providerIds.contains r.providerId = true
  maxAmountAtomic : positiveAtomic r.maxAmountAtomic = true
  mandateExpiresAt : A.texts.isDatetime r.mandateExpiresAt = true

theorem guarded_of_textField {f : JsString → Bool} {key : String} {fields : List (JsString × Json)}
    {s : JsString} (h : textField (guarded f) key fields = .ok s) : f s = true := by
  obtain ⟨t, ht⟩ := textField_ok h
  obtain ⟨hf, rfl⟩ := guarded_eq_some.1 ht
  exact hf

theorem valid_of_proposal (h : proposalSchema A data = .ok r) : r.Valid A := by
  simp only [proposalSchema, bind_eq_ok, pure_eq_ok] at h
  obtain ⟨fields, -, -, -, payer, hpayer, requestId, hrequestId, providerId, hproviderId, repos, -,
    maximum, hmaximum, mandate, hmandate, rfl⟩ := h
  obtain ⟨x, -, hx⟩ := Option.bind_eq_some_iff.1 (field_ok.1 hmaximum)
  have hpositive : positiveAtomic maximum = true := by
    cases x with
    | num n =>
      obtain ⟨hn, rfl⟩ := readAtomic_num.1 hx
      exact hn
    | _ => cases hx
  exact ⟨guarded_of_textField hpayer, guarded_of_textField hrequestId,
    guarded_of_textField hproviderId, hpositive, guarded_of_textField hmandate⟩

/-- The payload of an offer with two times. -/
def payloadAt (A : Platform) (config : A2AConfig) (r : Proposal) (q : Quote) (base : UrlParts)
    (issued expiry : ℤ) : OfferPayload where
  contextId := contextOf A r
  requestId := r.requestId
  payer := r.payer
  providerId := r.providerId
  repos := r.repos
  resourceUrl := resourceUrl base r.providerId
  unitPriceAtomic := q.unitPriceAtomic
  amountAtomic := q.amountAtomic
  maxAmountAtomic := r.maxAmountAtomic
  mandateExpiresAt := r.mandateExpiresAt
  issuedAt := Date.isoText issued
  expiresAt := Date.isoText expiry
  payTo := config.payTo

/-- When an offer that is issued at `now` expires. -/
def expiryAt (now mandate expiry : ℤ) : ℤ := min (min (now + 60000) mandate) expiry

theorem payload_spec {now : ℤ} (h : offerPayload A config r r.repos q now = .ok p) :
    ∃ base mandate expiry, trustedBase A.toPackages config.resourceBaseUrl = .ok base ∧
      A.date r.mandateExpiresAt = some mandate ∧ A.date q.expiresAt = some expiry ∧
      Date.IsDate now ∧ Date.IsDate (expiryAt now mandate expiry) ∧
      p = payloadAt A config r q base now (expiryAt now mandate expiry) := by
  simp only [offerPayload, bind_eq_ok, pure_eq_ok, Date.toISOString_ok] at h
  obtain ⟨base, hbase, issuedAt, ⟨hnow, rfl⟩, expiresAt, hexpires, rfl⟩ := h
  unfold expiryText at hexpires
  split at hexpires
  · rename_i mandate expiry hmandate hexpiry
    obtain ⟨hdate, rfl⟩ := Date.toISOString_ok.1 hexpires
    exact ⟨base, mandate, expiry, hbase, hmandate, hexpiry, hnow, hdate, rfl⟩
  · cases hexpires

theorem account_of_config (h : validateConfig A config = .ok ()) : isAccount config.payTo = true := by
  simp only [validateConfig, bind_eq_ok] at h
  obtain ⟨-, -, -, -, h⟩ := h
  split_ifs at h with haccount
  · rwa [Bool.not_eq_false] at haccount
  · rwa [Bool.not_eq_false] at haccount

/-- The characters of a hash. -/
theorem all_hex {f : UInt16 → Bool} (h : ∀ k < 16, f (JsString.hexDigit k) = true) (width n : ℕ) :
    (JsString.hex width n).all f = true := by
  induction width generalizing n with
  | zero => rfl
  | succ width ih =>
    rw [JsString.hex, List.all_append, ih, List.all_cons, h _ (Nat.mod_lt _ (by norm_num))]
    rfl

/-- A context is an identity of 49 characters. -/
theorem contextOf_spec (hA : A.Lawful) (r : Proposal) : (contextOf A r).length = 49 ∧
    (contextOf A r).all Base64.isUnit = true ∧ (contextOf A r).all JsString.isPlain = true := by
  have htake : ∀ {f : UInt16 → Bool} {s : JsString}, s.all f = true → (s.take 40).all f = true :=
    fun h => List.all_eq_true.2 fun c hc => List.all_eq_true.1 h c (List.mem_of_mem_take hc)
  unfold contextOf
  obtain ⟨n, hn⟩ := hA.sha256 (stringify A.texts.host.numerals
    (.obj [(js "payer", .str r.payer), (js "requestId", .str r.requestId)]))
  rw [hn, List.length_append, List.length_take, JsString.hex_length, List.all_append, List.all_append,
    htake (all_hex (by decide) 64 n), htake (all_hex (by decide) 64 n)]
  exact ⟨by decide, by decide, by decide⟩

/-- The amounts of a quote that is accepted. -/
theorem quote_spec {now : ℤ} (h : badQuote A config r r.repos q now = false) :
    q.amountAtomic = q.unitPriceAtomic * r.repos.length ∧ positiveAtomic q.unitPriceAtomic = true ∧
      positiveAtomic q.amountAtomic = true := by
  simp only [badQuote, Bool.or_eq_false_iff, decide_eq_false_iff_not, not_or, not_not,
    Bool.not_eq_false', ne_eq] at h
  exact ⟨h.1.1.1.1.2.2, h.1.1.1.2, h.1.1.2⟩

/-! ### The length of a token -/

/-- The bytes of a text in quotes. -/
def textSize (s : JsString) : ℕ := s.quote.utf8Length

theorem textSize_plain {s : JsString} (h : s.all JsString.isPlain = true) :
    textSize s = s.length + 2 := by
  rw [textSize, JsString.quote, JsString.escape_plain h, List.cons_append,
    JsString.utf8Length_cons (by decide), JsString.utf8Length_append, JsString.utf8Length_plain h]
  · show 1 + (s.length + 1) = _
    omega
  · intro c hc
    cases (show some (34 : UInt16) = some c from hc)
    decide

/-- The bytes of the payload of an offer, in terms of the configuration, the proposal and the quote:
339 for the names of the fields, the times and the other fields that are always as long. -/
def offerSize (A : Platform) (config : A2AConfig) (r : Proposal) (q : Quote) (base : UrlParts) : ℕ :=
  let number := fun n : ℚ => (A.texts.host.numerals.text n).utf8Length
  339 + number 1 + textSize r.requestId + textSize r.payer + textSize r.providerId +
    size A.texts.host.numerals (.arr (r.repos.map .str)) +
    textSize (resourceUrl base r.providerId) + number q.unitPriceAtomic + number q.amountAtomic +
    number r.maxAmountAtomic + textSize r.mandateExpiresAt + textSize config.payTo

/-- The names of the fields, each with its quotes, a colon and a comma. -/
theorem sum_names (p : OfferPayload) :
    (p.fields.map fun field => field.1.quote.utf8Length + 2).sum = 212 := by
  have hnames : p.fields.map Prod.fst = [js "version", js "contextId", js "requestId", js "payer",
      js "providerId", js "repos", js "resourceUrl", js "unitPriceAtomic", js "amountAtomic",
      js "maxAmountAtomic", js "mandateExpiresAt", js "issuedAt", js "expiresAt", js "network",
      js "asset", js "payTo"] := rfl
  have hmap : (p.fields.map fun field => field.1.quote.utf8Length + 2) =
      (p.fields.map Prod.fst).map fun key => key.quote.utf8Length + 2 := by
    rw [List.map_map]
    rfl
  rw [hmap, hnames]
  decide +kernel

theorem sum_fieldSize (N : Numerals) (fields : List (JsString × Json)) :
    (fields.map (fieldSize (size N))).sum =
      (fields.map fun field => field.1.quote.utf8Length + 2).sum +
        (fields.map fun field => size N field.2).sum := by
  induction fields with
  | nil => rfl
  | cons field fields ih =>
    simp only [List.map_cons, List.sum_cons, ih, fieldSize]
    omega

theorem size_payload (hA : A.Lawful) {base : UrlParts} {issued expiry : ℤ}
    (hissued : Date.FourDigits issued) (hexpiry : Date.FourDigits expiry) :
    (A.payloadText (payloadAt A config r q base issued expiry)).utf8Length =
      offerSize A config r q base := by
  have htext : ∀ s, size A.texts.host.numerals (.str s) = textSize s := fun _ => rfl
  have hnumber : ∀ n, size A.texts.host.numerals (.num n) =
    (A.texts.host.numerals.text n).utf8Length := fun _ => rfl
  have hdate : ∀ {t}, Date.FourDigits t → textSize (Date.isoText t) = 26 := fun h => by
    rw [textSize_plain (Date.isoText_plain _), Date.length_isoText_eq, if_pos h]
  have hcontext : textSize (contextOf A r) = 51 := by
    obtain ⟨hlength, -, hplain⟩ := contextOf_spec hA r
    rw [textSize_plain hplain, hlength]
  have hobj := size_obj (N := A.texts.host.numerals)
    (payloadAt A config r q base issued expiry).fields
  rw [size] at hobj
  have hnetwork : textSize (js "hedera:testnet") = 16 ∧ textSize (js "0.0.0") = 7 := by decide +kernel
  rw [Platform.payloadText, hobj, sum_fieldSize, sum_names]
  simp only [OfferPayload.fields, payloadAt, List.map_cons, List.map_nil, List.sum_cons, List.sum_nil,
    htext, hnumber, hdate hissued, hdate hexpiry, hcontext, hnetwork.1, hnetwork.2, offerSize]
  omega

/-- A token has at most 12000 characters if its payload has at most 8967 bytes. -/
theorem length_token (hA : A.Lawful) (p : OfferPayload) :
    (sign A p config).offerToken.length ≤ 12000 ↔ (A.payloadText p).utf8Length ≤ 8967 := by
  have hbody : (A.body p).length = (4 * (A.payloadText p).utf8Length + 2) / 3 := by
    rw [Platform.body, Base64.length_encode, (JsString.utf8_spec _).1]
  have hsignature : (A.signature config p).length = 43 := by
    rw [Platform.signature, Base64.length_encode, (hA.mac _ _).1]
  have htoken : (sign A p config).offerToken.length = (A.body p).length + 44 := by
    show (A.body p ++ 46 :: A.signature config p).length = _
    rw [List.length_append, List.length_cons, hsignature]
  omega

/-! ### Consistency -/

/-- What an answer with an offer promises at the time `now`: the seller verifies its token as this
offer, the buyer accepts the offer for the proposal, and its amount and its times are in bounds. -/
def Consistent (A : Platform) (config : A2AConfig) (now : ℤ) (proposal : Json) (r : Proposal)
    (answer : Json) : Prop :=
  ∃ offer : A2AOffer, answer = .obj offer.offered ∧
    verifyA2AOffer A config now false offer.offerToken = .ok offer ∧
    validateSellerOffer A now answer proposal config.resourceBaseUrl config.payTo = .ok offer ∧
    offer.payload.amountAtomic ≤ r.maxAmountAtomic ∧
    ∃ issued expiry mandate, A.date offer.payload.issuedAt = some issued ∧
      A.date offer.payload.expiresAt = some expiry ∧ A.date r.mandateExpiresAt = some mandate ∧
      issued < expiry ∧ expiry ≤ mandate

/-- The mandate and the quote have not expired at the time of issue, the years of the times have four
digits, and the payload is not too long. -/
structure Fits (A : Platform) (config : A2AConfig) (r : Proposal) (q : Quote) (now : ℤ) : Prop where
  mandate : ∀ t, A.date r.mandateExpiresAt = some t → now < t
  quote : ∀ t, A.date q.expiresAt = some t → now < t
  issued : Date.FourDigits now
  expires : ∀ m t, A.date r.mandateExpiresAt = some m → A.date q.expiresAt = some t →
    Date.FourDigits (expiryAt now m t)
  size : ∀ base, trustedBase A.toPackages config.resourceBaseUrl = .ok base →
    offerSize A config r q base ≤ 8967

/-- The token of an offer is a property of its data. -/
theorem token_of_offered {offer offer' : A2AOffer} (h : offer.offered = offer'.offered) :
    offer.offerToken = offer'.offerToken := by
  have hget : ∀ offer : A2AOffer, get (js "offerToken") offer.offered = some (.str offer.offerToken) :=
    fun offer => (get_eq_some (nodup_offered offer)).2 (by simp [A2AOffer.offered, A2AOffer.fields])
  have htoken := hget offer
  rw [h, hget offer'] at htoken
  exact (Json.str.inj (Option.some.inj htoken)).symm

theorem consistent_iff (hA : A.Lawful) (h : Offered A config quote clock data r q p) :
    Consistent A config (clock 2) data r (.obj (sign A p config).offered) ↔
      Fits A config r q (clock 2) := by
  obtain ⟨base, mandate, expiry, hbase, hmandate, hexpiry, hnow, hdate, rfl⟩ := payload_spec h.payload
  have hissued := hA.date _ hnow
  have hexpires := hA.date _ hdate
  constructor
  -- The checks on the token say how long mandate and quote last.
  · rintro ⟨offer, hanswer, hverify, -⟩
    rw [← token_of_offered (Json.obj.inj hanswer), verify_sign hA] at hverify
    obtain ⟨-, hlength, hholds, -⟩ := hverify
    obtain ⟨e, i, he, hi, -, horder, -⟩ := badTimes_eq_false.1 hholds.times
    rw [show A.date (payloadAt A config r q base _ _).expiresAt = _ from hexpires] at he
    rw [show A.date (payloadAt A config r q base _ _).issuedAt = _ from hissued] at hi
    cases he
    cases hi
    have hfour : Date.FourDigits (clock 2) := (hA.utc _ hnow).1 hholds.valid.issuedAt
    have hfour' := (hA.utc _ hdate).1 hholds.valid.expiresAt
    rw [length_token hA, size_payload hA hfour hfour'] at hlength
    have hbefore : clock 2 < mandate ∧ clock 2 < expiry := by
      unfold expiryAt at horder
      omega
    refine ⟨fun t ht => ?_, fun t ht => ?_, hfour, fun m t hm ht => ?_, fun b hb => ?_⟩
    · rw [hmandate] at ht
      cases ht
      exact hbefore.1
    · rw [hexpiry] at ht
      cases ht
      exact hbefore.2
    · rw [hmandate] at hm
      rw [hexpiry] at ht
      cases hm
      cases ht
      exact hfour'
    · rw [hbase] at hb
      cases hb
      exact hlength
  · intro hfits
    -- The payload passes the checks of the agent and those of the buyer.
    have hvalid := valid_of_proposal h.proposal
    obtain ⟨hamount, hunit, hpositive⟩ := quote_spec h.good
    have hlate := hfits.mandate _ hmandate
    have hlate' := hfits.quote _ hexpiry
    have hfour := hfits.expires _ _ hmandate hexpiry
    have horder : clock 2 < expiryAt (clock 2) mandate expiry ∧
        expiryAt (clock 2) mandate expiry ≤ mandate ∧
        expiryAt (clock 2) mandate expiry - clock 2 ≤ 60000 := by
      unfold expiryAt
      omega
    have hholds : (payloadAt A config r q base (clock 2) (expiryAt (clock 2) mandate expiry)).Holds A
        config (clock 2) false := by
      refine ⟨⟨?_, hvalid.requestId, hvalid.payer, hvalid.providerId, ?_, hunit, hpositive,
        hvalid.maxAmountAtomic, hvalid.mandateExpiresAt, (hA.utc _ hnow).2 hfits.issued,
        (hA.utc _ hdate).2 hfour, account_of_config h.valid⟩, ⟨_, h.repos⟩, ?_, ⟨base, hbase, rfl⟩,
        rfl, h.payer, hamount, h.maximum⟩
      · obtain ⟨hlength, hunits, -⟩ := contextOf_spec hA r
        show isIdentity (contextOf A r) = true
        rw [isIdentity, hlength, hunits]
        rfl
      · exact (Runs.Evidence.validateRepos_spec h.repos).2.1
      · refine badTimes_eq_false.2 ⟨_, _, hexpires, hissued, by omega, horder.1, horder.2.2, ?_, ?_⟩
        · intro m hm
          rw [show A.date (payloadAt A config r q base _ _).mandateExpiresAt = _ from hmandate] at hm
          cases hm
          exact horder.2.1
        · refine fun _ => ⟨horder.1, fun m hm => ?_⟩
          rw [show A.date (payloadAt A config r q base _ _).mandateExpiresAt = _ from hmandate] at hm
          cases hm
          exact hlate
    have hlength : (sign A (payloadAt A config r q base (clock 2)
        (expiryAt (clock 2) mandate expiry)) config).offerToken.length ≤ 12000 := by
      rw [length_token hA, size_payload hA hfits.issued hfour]
      exact hfits.size base hbase
    exact ⟨_, rfl, (verify_sign hA).2 ⟨h.valid, hlength, hholds, rfl⟩,
      validate_sign hA h.proposal hlength hholds ⟨rfl, rfl, rfl, rfl, rfl, rfl⟩, h.maximum,
      _, _, _, hissued, hexpires, hmandate, horder.1, horder.2.1⟩

/-- **Offers are consistent while their mandate and their quote last.**  An answer with an offer is
consistent at the time of issue exactly if the proposal, the quote and the time fit. -/
theorem offer_consistent_iff (hA : A.Lawful) {input id : Json}
    (h : handleA2ARequest A config quote clock input = .result id m) (hoffer : m.isOffer) :
    ∃ data r q, dataOf input = some data ∧ proposalSchema A data = .ok r ∧
      quote r.providerId r.repos = .ok q ∧
      (Consistent A config (clock 2) data r m.data ↔ Fits A config r q (clock 2)) := by
  obtain ⟨data, r, q, p, hdata, hoffered, hm⟩ := offered_of_handle h hoffer
  refine ⟨data, r, q, hdata, hoffered.proposal, hoffered.quoted, ?_⟩
  rw [hm]
  exact consistent_iff hA hoffered

/-- **A verified token was signed.**  Where no text has a valid signature but those that were signed,
a verified token carries a payload that was signed; it is the token that was made for the payload
exactly if its last character has no spare bits. -/
theorem verified_of_signed (hA : A.Lawful) {issued : List OfferPayload} {token : JsString} {now : ℤ}
    {allowExpired : Bool} {o : A2AOffer}
    (hforge : ∀ body signature, token = body ++ 46 :: signature →
      A.hmac config.offerSecret body = Base64.decode signature → ∃ p ∈ issued, body = A.body p)
    (h : verifyA2AOffer A config now allowExpired token = .ok o) :
    (∃ p ∈ issued, o = A.offer p token) ∧
      ((∃ p ∈ issued, (sign A p config).offerToken = token) ↔
        Base64.canonical (signatureOf token) = true) :=
  signed_of_verify hA hforge h

/-! ### A negotiation -/

namespace Sample

/-- A number for a text. -/
def number (s : JsString) : ℕ := s.foldl (fun n c => n * 65537 + c.toNat + 1) 0

/-- The platform of the agent. -/
def platform : Platform where
  texts := { Runs.Evidence.Sample.texts with
    host := { Host.plain with dateParse := Date.readIso }
    isDatetime := fun s => decide (s.length = 24) }
  url s := some ⟨js "https:", js "data", [], [], [], [], js "/", s, s⟩
  sha256 s := JsString.hex 64 (number s)
  decodePaymentRequiredHeader _ := .error .other
  decodePaymentResponseHeader _ := .error .other
  nativeId _ := .error .other
  hmac secret body := List.replicate 32 (number (secret ++ body) % 256)
  isUtcDatetime s := decide (s.length = 24)
  readNumber := readPlain
  ofBytes := JsString.ofUtf8

theorem lawful : platform.Lawful where
  read := readPlain_text
  ofBytes _ h := JsString.ofUtf8_utf8 h
  mac secret body := by
    refine ⟨List.length_replicate, fun b hb => ?_⟩
    rw [List.eq_of_mem_replicate hb]
    exact Nat.mod_lt _ (by norm_num)
  sha256 s := ⟨number s, rfl⟩
  date _ h := Date.readIso_isoText h
  utc t _ := by
    show decide ((Date.isoText t).length = 24) = true ↔ _
    rw [decide_eq_true_eq, Date.length_isoText_eq]
    split_ifs with h <;> simp [h]

/-- The configuration. -/
def seller : A2AConfig where
  publicUrl := js "https://agent/"
  resourceBaseUrl := js "https://data/"
  payTo := js "0.0.3"
  offerSecret := js "a secret of at least 32 characters"

/-- A mandate that expires a second after the first reading of the clock. -/
def proposal : Proposal :=
  ⟨js "0.0.2", js "request", js "repo-standard", [js "octocat/hello"], 100,
    js "2026-01-01T00:00:01.000Z"⟩

/-- The proposal in a message. -/
def wanted : Json := .obj [(js "action", .str (js "propose")), (js "payer", .str proposal.payer),
  (js "requestId", .str proposal.requestId), (js "providerId", .str proposal.providerId),
  (js "repos", .arr (proposal.repos.map .str)), (js "maxAmountAtomic", .num 100),
  (js "mandateExpiresAt", .str proposal.mandateExpiresAt)]

/-- A request with the proposal. -/
def request : Json := .obj [(js "jsonrpc", .str (js "2.0")), (js "id", .num 1),
  (js "method", .str (js "message/send")), (js "params", .obj [(js "message", .obj [
    (js "kind", .str (js "message")), (js "role", .str (js "user")),
    (js "messageId", .str (js "m")), (js "parts", .arr [.obj [(js "kind", .str (js "data")),
      (js "data", wanted)]])])])]

/-- A quote that lasts a minute. -/
def quoted : Quote :=
  ⟨js "repo-standard", 100, 1, 100, js "hedera:testnet", js "HBAR", js "0.0.3",
    js "2026-01-01T00:01:00.000Z"⟩

/-- The service has the quote for everybody. -/
def price : A2AQuote := fun _ _ => .ok quoted

/-- The first second of 2026. -/
def start : ℤ := 1767225600000

/-- A quote at once. -/
def prompt : ℕ → ℤ := fun _ => start

/-- A quote that takes five seconds. -/
def late : ℕ → ℤ := fun n => if n = 0 then start else start + 5000

/-- The message of a result. -/
def answer : Response → Option Message
  | .result _ m => some m
  | .error _ _ _ => none

theorem exists_of_answer {response : Response}
    (h : (answer response).any (fun m => decide m.isOffer) = true) :
    ∃ id m, response = .result id m ∧ m.isOffer := by
  cases response with
  | result id m => exact ⟨id, m, rfl, of_decide_eq_true h⟩
  | error _ _ _ => cases h

/-- Both answers are offers, and all that their consistency depends on. -/
theorem evaluated :
    ((answer (handleA2ARequest platform seller price prompt request)).any
        (fun m => decide m.isOffer) = true ∧
      (answer (handleA2ARequest platform seller price late request)).any
        (fun m => decide m.isOffer) = true) ∧
    (proposalSchema platform wanted).toOption = some proposal ∧
    (platform.date proposal.mandateExpiresAt = some (start + 1000) ∧
      platform.date quoted.expiresAt = some (start + 60000)) ∧
    (Date.FourDigits start ∧
      Date.FourDigits (expiryAt start (start + 1000) (start + 60000))) ∧
    ∀ base ∈ (trustedBase platform.toPackages seller.resourceBaseUrl).toOption,
      offerSize platform seller proposal quoted base ≤ 8967 := by
  decide +kernel

theorem offers_prompt :
    (answer (handleA2ARequest platform seller price prompt request)).any
      (fun m => decide m.isOffer) = true := evaluated.1.1

theorem offers_late :
    (answer (handleA2ARequest platform seller price late request)).any
      (fun m => decide m.isOffer) = true := evaluated.1.2

theorem proposal_eq {r : Proposal} (h : proposalSchema platform wanted = .ok r) : r = proposal := by
  obtain ⟨-, hread, -⟩ := evaluated
  rw [h] at hread
  exact Option.some.inj hread

theorem mandate_eq : platform.date proposal.mandateExpiresAt = some (start + 1000) :=
  evaluated.2.2.1.1

theorem expiry_eq : platform.date quoted.expiresAt = some (start + 60000) := evaluated.2.2.1.2

theorem fits_prompt : Fits platform seller proposal quoted start where
  mandate t ht := by
    rw [mandate_eq] at ht
    cases ht
    decide
  quote t ht := by
    rw [expiry_eq] at ht
    cases ht
    decide
  issued := evaluated.2.2.2.1.1
  expires m t hm ht := by
    rw [mandate_eq] at hm
    rw [expiry_eq] at ht
    cases hm
    cases ht
    exact evaluated.2.2.2.1.2
  size base hbase := evaluated.2.2.2.2 base (by rw [hbase]; rfl)

theorem fits_late : ¬Fits platform seller proposal quoted (start + 5000) := fun h =>
  absurd (h.mandate _ mandate_eq) (by decide)

/-- An offer that is made at once is consistent; after a quote that takes longer than the mandate
lasts it is not. -/
theorem offer_consistent_prompt :
    (∃ id m, handleA2ARequest platform seller price prompt request = .result id m ∧
      Consistent platform seller start wanted proposal m.data) ∧
    ∃ id m, handleA2ARequest platform seller price late request = .result id m ∧ m.isOffer ∧
      ¬Consistent platform seller (start + 5000) wanted proposal m.data := by
  have hdata : dataOf request = some wanted := rfl
  constructor
  · obtain ⟨id, m, h, hoffer⟩ := exists_of_answer offers_prompt
    obtain ⟨data, r, q, hwanted, hr, hq, hiff⟩ := offer_consistent_iff lawful h hoffer
    cases hdata.symm.trans hwanted
    cases proposal_eq hr
    cases hq
    exact ⟨id, m, h, hiff.2 fits_prompt⟩
  · obtain ⟨id, m, h, hoffer⟩ := exists_of_answer offers_late
    obtain ⟨data, r, q, hwanted, hr, hq, hiff⟩ := offer_consistent_iff lawful h hoffer
    cases hdata.symm.trans hwanted
    cases proposal_eq hr
    cases hq
    exact ⟨id, m, h, hoffer, fun hconsistent => fits_late (hiff.1 hconsistent)⟩

/-- The token of the offer that is made at once is verified, and it was signed. -/
theorem verified_of_signed_prompt : ∃ p o,
    verifyA2AOffer platform seller start false (sign platform p seller).offerToken = .ok o ∧
      (∃ p' ∈ [p], o = platform.offer p' (sign platform p seller).offerToken) ∧
      Base64.canonical (signatureOf (sign platform p seller).offerToken) = true := by
  have hdata : dataOf request = some wanted := rfl
  obtain ⟨id, m, h, hoffer⟩ := exists_of_answer offers_prompt
  obtain ⟨data, r, q, p, hwanted, hoffered, -⟩ := offered_of_handle h hoffer
  cases hdata.symm.trans hwanted
  cases proposal_eq hoffered.proposal
  cases hoffered.quoted
  obtain ⟨offer, hanswer, hverify, -⟩ := (consistent_iff lawful hoffered).2 fits_prompt
  rw [← token_of_offered (Json.obj.inj hanswer)] at hverify
  have hforge : ∀ body signature, (sign platform p seller).offerToken = body ++ 46 :: signature →
      platform.hmac seller.offerSecret body = Base64.decode signature →
      ∃ p' ∈ [p], body = platform.body p' :=
    fun body signature htoken _ => ⟨p, List.mem_singleton_self p, split_sign lawful htoken⟩
  obtain ⟨hsigned, hcanonical⟩ := verified_of_signed lawful hforge hverify
  exact ⟨p, offer, hverify, hsigned, hcanonical.1 ⟨p, List.mem_singleton_self p, rfl⟩⟩

end Sample

end A2a

end Hedera

end Obolos
