import Obolos.Economy.CanonicalJson
import Obolos.Hedera.A2a
import Obolos.Js.Bytes

/-!
# Tokens of offers

The seller reads a payload back from the token it signed for it (`verify_sign`), and the buyer
reads the same payload (`validate_sign`).  A token that is verified carries a payload that was
signed, and it is the token of the payload exactly if its last character has no spare bits
(`signed_of_verify`).
-/

namespace Obolos

namespace Hedera

namespace A2a

open Json
open DataService (isAccount)
open Hts (Packages UrlParts trustedBase)
open Runs.Evidence (validateRepos)

/-- What the agent relies on. -/
structure Platform.Lawful (A : Platform) : Prop where
  /-- The number of a JSON text is read back. -/
  read : ∀ q, A.readNumber (A.texts.host.numerals.text q) = some (.num q)
  ofBytes : ∀ s : JsString, s.wellFormed = true → A.ofBytes s.utf8 = s
  mac : ∀ secret body, (A.hmac secret body).length = 32 ∧ ∀ b ∈ A.hmac secret body, b < 256
  /-- A hash is written in hexadecimal. -/
  sha256 : ∀ s, ∃ n, A.sha256 s = JsString.hex 64 n
  /-- `Date.parse(date.toISOString())` is the time of the date. -/
  date : ∀ t, Date.IsDate t → A.date (Date.isoText t) = some t
  /-- `z.iso.datetime()` knows years of four digits only. -/
  utc : ∀ t, Date.IsDate t → (A.isUtcDatetime (Date.isoText t) = true ↔ Date.FourDigits t)

variable {A : Platform} {config : A2AConfig} {p q : OfferPayload} {o : A2AOffer} {now : ℤ}
  {allowExpired : Bool}

/-! ### Payloads -/

/-- The texts and numbers are those of `offerSchema`. -/
structure OfferPayload.Valid (A : Platform) (p : OfferPayload) : Prop where
  contextId : isIdentity p.contextId = true
  requestId : isIdentity p.requestId = true
  payer : isAccount p.payer = true
  providerId : providerIds.contains p.providerId = true
  repos : 1 ≤ p.repos.length ∧ p.repos.length ≤ 3
  unitPriceAtomic : positiveAtomic p.unitPriceAtomic = true
  amountAtomic : positiveAtomic p.amountAtomic = true
  maxAmountAtomic : positiveAtomic p.maxAmountAtomic = true
  mandateExpiresAt : A.texts.isDatetime p.mandateExpiresAt = true
  issuedAt : A.isUtcDatetime p.issuedAt = true
  expiresAt : A.isUtcDatetime p.expiresAt = true
  payTo : isAccount p.payTo = true

theorem guarded_eq_some {f : JsString → Bool} {s t : JsString} :
    guarded f s = some t ↔ f s = true ∧ t = s := by
  unfold guarded
  split_ifs with h
  · simp [h, eq_comm]
  · simp [h]

theorem readAtomic_num {n m : ℚ} : readAtomic (.num n) = some m ↔ positiveAtomic n = true ∧ m = n := by
  simp only [readAtomic]
  split_ifs with h
  · simp [h, eq_comm]
  · simp [h]

theorem readTexts_map (texts : List JsString) : readTexts (.arr (texts.map .str)) = some texts := by
  rw [readTexts]
  induction texts with
  | nil => rfl
  | cons s texts ih => rw [List.map_cons, List.mapM_cons, ih]; rfl

theorem readRepos_map {texts repos : List JsString} : readRepos (.arr (texts.map .str)) = some repos ↔
    (1 ≤ texts.length ∧ texts.length ≤ 3) ∧ repos = texts := by
  rw [readRepos, readTexts_map, Option.filter_some]
  split_ifs with h
  · simp [of_decide_eq_true h, eq_comm]
  · simp [mt decide_eq_true h]

/-- A payload is read back if it is valid. -/
theorem offerSchema_fields : offerSchema A (.obj p.fields) = .ok q ↔ p.Valid A ∧ q = p := by
  have hstrict : strictFields ["version", "contextId", "requestId", "payer", "providerId", "repos",
      "resourceUrl", "unitPriceAtomic", "amountAtomic", "maxAmountAtomic", "mandateExpiresAt",
      "issuedAt", "expiresAt", "network", "asset", "payTo"] (.obj p.fields) = .ok p.fields := by
    simp [strictFields, OfferPayload.fields]
  simp only [offerSchema, hstrict, bind_eq_ok, pure_eq_ok, Except.ok.injEq, exists_eq_left', textField,
    literalField, field_ok]
  simp [OfferPayload.fields, Json.get, asStr, guarded_eq_some, readAtomic_num, readRepos_map]
  constructor
  · rintro ⟨-, h₁, h₂, h₃, h₄, h₅, h₆, h₇, h₈, h₉, h₁₀, h₁₁, h₁₂, rfl⟩
    exact ⟨⟨h₁, h₂, h₃, by simpa using h₄, h₅, h₆, h₇, h₈, h₉, h₁₀, h₁₁, h₁₂⟩, rfl⟩
  · rintro ⟨h, rfl⟩
    exact ⟨⟨(), rfl⟩, h.contextId, h.requestId, h.payer, by simpa using h.providerId, h.repos,
      h.unitPriceAtomic, h.amountAtomic, h.maxAmountAtomic, h.mandateExpiresAt, h.issuedAt,
      h.expiresAt, h.payTo, rfl⟩

theorem distinct_fields (p : OfferPayload) : (Json.obj p.fields).Distinct := by
  refine .obj ?_ ?_
  · simp only [OfferPayload.fields, List.map_cons, List.map_nil]
    simp
  · simp only [OfferPayload.fields, List.forall_mem_cons, List.not_mem_nil, false_imp_iff,
      implies_true, and_true]
    refine ⟨.num _, .str _, .str _, .str _, .str _, .arr fun x hx => ?_, .str _, .num _, .num _,
      .num _, .str _, .str _, .str _, .str _, .str _, .str _⟩
    obtain ⟨s, -, rfl⟩ := List.mem_map.1 hx
    exact .str s

theorem finite_fields (p : OfferPayload) : (Json.obj p.fields).finite = true := by
  have hitems : ∀ texts : List JsString, finiteItems (texts.map .str) = true := by
    intro texts
    induction texts with
    | nil => rfl
    | cons s texts ih => simpa [finiteItems, finite] using ih
  simp [finite, OfferPayload.fields, finiteFields, hitems]

/-- The body of a token is read as its payload. -/
theorem readPayload_body (hA : A.Lawful) :
    readPayload A (A.body p) = .ok q ↔ p.Valid A ∧ q = p := by
  have hwell : (A.payloadText p).wellFormed = true := wellFormed_stringify _
  rw [readPayload, Platform.body, Base64.decode_encode (JsString.utf8_spec _).2, hA.ofBytes _ hwell,
    Platform.payloadText, parse_stringify hA.read (distinct_fields p) (finite_fields p)]
  exact offerSchema_fields

/-! ### Tokens -/

/-- A text of the alphabet has no dot. -/
theorem dot_not_mem {s : JsString} (h : s.all Base64.isUnit = true) : (46 : UInt16) ∉ s := fun hmem =>
  absurd (List.all_eq_true.1 h 46 hmem) (by decide)

theorem splitOn_token {body signature : JsString} (hbody : body.all Base64.isUnit = true)
    (hsignature : signature.all Base64.isUnit = true) :
    (body ++ 46 :: signature).splitOn 46 = [body, signature] := by
  have hjoin : ([46].intercalate [body, signature]).splitOn 46 = [body, signature] :=
    List.splitOn_intercalate 46 ?_ (by simp)
  · simpa [List.intercalate] using hjoin
  · simp only [List.mem_cons, List.not_mem_nil, or_false]
    rintro s (rfl | rfl)
    · exact dot_not_mem hbody
    · exact dot_not_mem hsignature

/-- A token that splits in two parts is these parts and a dot. -/
theorem token_of_splitOn {token body signature : JsString}
    (h : token.splitOn 46 = [body, signature]) : token = body ++ 46 :: signature := by
  have hjoin : [46].intercalate (token.splitOn 46) = token := List.intercalate_splitOn 46
  rw [h] at hjoin
  simpa [List.intercalate] using hjoin.symm

/-- The signature of a payload. -/
def Platform.signature (config : A2AConfig) (p : OfferPayload) : JsString :=
  Base64.encode (A.hmac config.offerSecret (A.body p))

theorem body_units (p : OfferPayload) : (A.body p).all Base64.isUnit = true :=
  Base64.all_encode (JsString.utf8_spec _).2

theorem body_ne (p : OfferPayload) : A.body p ≠ [] := by
  have hlength : (A.body p).length = (4 * (A.payloadText p).utf8Length + 2) / 3 := by
    rw [Platform.body, Base64.length_encode, (JsString.utf8_spec _).1]
  have hsize : 1 < (A.payloadText p).utf8Length := by
    have hobj := size_obj (N := A.texts.host.numerals) p.fields
    rw [size] at hobj
    rw [Platform.payloadText, hobj]
    omega
  intro h
  rw [h, List.length_nil] at hlength
  omega

theorem isSignature_signature (hA : A.Lawful) (p : OfferPayload) :
    isSignature (A.signature config p) = true := by
  obtain ⟨hlength, hbytes⟩ := hA.mac config.offerSecret (A.body p)
  rw [isSignature, Bool.and_eq_true, decide_eq_true_eq]
  refine ⟨?_, Base64.all_encode hbytes⟩
  rw [Platform.signature, Base64.length_encode, hlength]

theorem decode_signature (hA : A.Lawful) (p : OfferPayload) :
    Base64.decode (A.signature config p) = A.hmac config.offerSecret (A.body p) :=
  Base64.decode_encode (hA.mac _ _).2

/-- A token has one dot. -/
theorem split_sign (hA : A.Lawful) {body signature : JsString}
    (h : (sign A p config).offerToken = body ++ 46 :: signature) : body = A.body p := by
  have hdot : (46 : UInt16) ∉ A.signature config p :=
    dot_not_mem (Base64.all_encode (hA.mac _ _).2)
  rcases List.append_eq_append_iff.1 h with ⟨rest, hbody, htail⟩ | ⟨rest, hbody, htail⟩
  · cases rest with
    | nil => rw [hbody, List.append_nil]
    | cons c rest =>
      have hsignature : A.signature config p = rest ++ 46 :: signature := (List.cons.inj htail).2
      exact absurd (by rw [hsignature]; simp) hdot
  · cases rest with
    | nil => rw [hbody, List.append_nil]
    | cons c rest =>
      obtain rfl : (46 : UInt16) = c := (List.cons.inj htail).1
      exact absurd (by rw [hbody]; simp) (dot_not_mem (body_units p))

theorem splitOn_sign (hA : A.Lawful) (p : OfferPayload) :
    (sign A p config).offerToken.splitOn 46 = [A.body p, A.signature config p] :=
  splitOn_token (body_units p) (Base64.all_encode (hA.mac _ _).2)

/-! ### The seller and the buyer -/

/-- A payload is one of this agent at the time `now`. -/
structure OfferPayload.Holds (A : Platform) (config : A2AConfig) (now : ℤ) (allowExpired : Bool)
    (p : OfferPayload) : Prop where
  valid : p.Valid A
  repos : ∃ repos, validateRepos A.texts (.arr (p.repos.map .str)) = .ok repos
  times : badTimes A p now allowExpired = false
  base : ∃ base, trustedBase A.toPackages config.resourceBaseUrl = .ok base ∧
    p.resourceUrl = A2a.resourceUrl base p.providerId
  payTo : p.payTo = config.payTo
  payer : p.payer ≠ config.payTo
  amount : p.amountAtomic = p.unitPriceAtomic * p.repos.length
  maximum : p.amountAtomic ≤ p.maxAmountAtomic

/-- `if(bad) throw Error(message)` before the rest of a function. -/
theorem raise_else {α : Type} {bad : Prop} [Decidable bad] {message : String} {x : Except JsError α}
    {y : α} : (if bad then JsError.raise message else x) = .ok y ↔ ¬bad ∧ x = .ok y := by
  split_ifs with h
  · simp [JsError.raise, h]
  · simp [h]

/-- Which tokens of `sign` are verified, and as what. -/
theorem verify_sign (hA : A.Lawful) :
    verifyA2AOffer A config now allowExpired (sign A p config).offerToken = .ok o ↔
      validateConfig A config = .ok () ∧ (sign A p config).offerToken.length ≤ 12000 ∧
        p.Holds A config now allowExpired ∧ o = sign A p config := by
  have hreads : ¬(A.body p = [] ∨ (A.body p).all Base64.isUnit = false ∨
      isSignature (A.signature config p) = false) := by
    simp [body_ne, body_units, isSignature_signature hA]
  simp only [verifyA2AOffer, splitOn_sign hA, if_neg hreads, decode_signature hA, bind_eq_ok,
    raise_else, pure_eq_ok, readPayload_body hA, not_lt, ne_eq, not_true_eq_false, not_false_eq_true,
    true_and, not_or, not_not, Bool.not_eq_true]
  constructor
  · rintro ⟨_, hconfig, hlength, _, ⟨hvalid, rfl⟩, repos, hrepos, htimes, base, hbase,
      ⟨hpayTo, hpayer, hurl, hamount, hmaximum⟩, rfl⟩
    exact ⟨hconfig, hlength, ⟨hvalid, ⟨repos, hrepos⟩, htimes, ⟨base, hbase, hurl⟩, hpayTo, hpayer,
      hamount, hmaximum⟩, rfl⟩
  · rintro ⟨hconfig, hlength, h, rfl⟩
    obtain ⟨repos, hrepos⟩ := h.repos
    obtain ⟨base, hbase, hurl⟩ := h.base
    exact ⟨(), hconfig, hlength, p, ⟨h.valid, rfl⟩, repos, hrepos, h.times, base, hbase,
      ⟨h.payTo, h.payer, hurl, h.amount, h.maximum⟩, rfl⟩

theorem badTimes_eq_false : badTimes A p now allowExpired = false ↔
    ∃ expiry issued, A.date p.expiresAt = some expiry ∧ A.date p.issuedAt = some issued ∧
      issued ≤ now + 1000 ∧ issued < expiry ∧ expiry - issued ≤ 60000 ∧
      (∀ m, A.date p.mandateExpiresAt = some m → expiry ≤ m) ∧
      (allowExpired = false → now < expiry ∧ ∀ m, A.date p.mandateExpiresAt = some m → now < m) := by
  unfold badTimes
  cases hexpiry : A.date p.expiresAt with
  | none => simp
  | some expiry =>
    cases hissued : A.date p.issuedAt with
    | none => simp
    | some issued =>
      cases A.date p.mandateExpiresAt with
      | none => simp [and_assoc]
      | some mandate => simp [and_assoc]

/-- The payload is one for a proposal. -/
structure OfferPayload.For (p : OfferPayload) (proposal : Proposal) : Prop where
  requestId : p.requestId = proposal.requestId
  payer : p.payer = proposal.payer
  providerId : p.providerId = proposal.providerId
  repos : p.repos = proposal.repos
  maxAmountAtomic : p.maxAmountAtomic = proposal.maxAmountAtomic
  mandateExpiresAt : p.mandateExpiresAt = proposal.mandateExpiresAt

theorem nodup_offered (offer : A2AOffer) : (offer.offered.map Prod.fst).Nodup := by
  simp only [A2AOffer.offered, A2AOffer.fields, OfferPayload.fields, List.cons_append,
    List.nil_append, List.map_cons, List.map_nil]
  decide +kernel

/-- An offer has its own fields. -/
theorem differs_offered (offer : A2AOffer) : differs A (.obj offer.offered) offer = false := by
  rw [differs, List.any_eq_false]
  intro field hfield
  have hget : get field.1 offer.offered = some field.2 :=
    (get_eq_some (nodup_offered offer)).2 (List.mem_cons_of_mem _ (List.mem_append_left _ hfield))
  simp [asObj, hget]

/-- What is verified at a time is accepted by the buyer at that time. -/
theorem validate_sign (hA : A.Lawful) {proposal : Json} {r : Proposal}
    (hproposal : proposalSchema A proposal = .ok r) (hlength : (sign A p config).offerToken.length ≤ 12000)
    (hholds : p.Holds A config now false) (hfor : p.For r) :
    validateSellerOffer A now (.obj (sign A p config).offered) proposal config.resourceBaseUrl
      config.payTo = .ok (sign A p config) := by
  have htoken : ((Json.obj (sign A p config).offered).prop "offerToken").bind asStr =
      some (sign A p config).offerToken := by
    have hget : get (js "offerToken") (sign A p config).offered =
        some (.str (sign A p config).offerToken) :=
      (get_eq_some (nodup_offered _)).2 (by simp [A2AOffer.offered, A2AOffer.fields])
    simp [prop, asObj, hget, asStr]
  have hreads : ¬(A.body p = [] ∨ isSignature (A.signature config p) = false) := by
    simp [body_ne, isSignature_signature hA]
  obtain ⟨repos, hrepos⟩ := hholds.repos
  obtain ⟨base, hbase, hurl⟩ := hholds.base
  have hlate : lateTimes A p r now = false := by
    obtain ⟨expiry, issued, hexpiry, hissued, hclock, horder, hlong, hmandate, hactive⟩ :=
      badTimes_eq_false.1 hholds.times
    rw [hfor.mandateExpiresAt] at hmandate
    have hnow := (hactive rfl).1
    unfold lateTimes
    rw [hexpiry, hissued]
    cases hm : A.date r.mandateExpiresAt with
    | none =>
      simp
      omega
    | some m =>
      have hle := hmandate m hm
      simp
      omega
  simp only [validateSellerOffer, htoken, splitOn_sign hA, if_neg hreads, bind_eq_ok, raise_else,
    pure_eq_ok, readPayload_body hA, not_lt, not_or, not_not, ne_eq]
  refine ⟨r, hproposal, hlength, p, ⟨hholds.valid, rfl⟩, repos, hrepos, ⟨?_, hfor.requestId, hfor.payer,
    hfor.providerId, hfor.repos, hfor.maxAmountAtomic, hfor.mandateExpiresAt, hholds.payTo,
    hholds.payer⟩, base, hbase, ⟨?_, ?_, ?_, ?_⟩, rfl⟩
  · rw [Bool.not_eq_true]
    exact differs_offered _
  · rw [← hfor.providerId, hurl]
  · rw [← hfor.repos, hholds.amount]
  · rw [← hfor.maxAmountAtomic]
    exact hholds.maximum
  · rw [hlate]
    exact Bool.false_ne_true

/-! ### What is verified was signed -/

/-- The last 43 characters of a token. -/
def signatureOf (token : JsString) : JsString := token.drop (token.length - 43)

theorem signatureOf_append {body signature : JsString} (h : isSignature signature = true) :
    signatureOf (body ++ 46 :: signature) = signature := by
  have hlength : signature.length = 43 := of_decide_eq_true (Bool.and_eq_true _ _ ▸ h).1
  have hcut : (body ++ 46 :: signature).length - 43 = (body ++ [46]).length := by
    simp only [List.length_append, List.length_cons, List.length_nil]
    omega
  rw [signatureOf, hcut, List.append_cons body 46 signature, List.drop_left]

theorem canonical_sign (hA : A.Lawful) (config : A2AConfig) (p : OfferPayload) :
    Base64.canonical (signatureOf (sign A p config).offerToken) = true := by
  have hlast : signatureOf (sign A p config).offerToken = A.signature config p :=
    signatureOf_append (isSignature_signature hA p)
  rw [hlast, Platform.signature, ← Base64.encode_decode (Base64.all_encode (hA.mac _ _).2),
    Base64.decode_encode (hA.mac _ _).2]

/-- A verified token carries a payload that was signed, and it is the token that was made for it
exactly if its last character has no spare bits. -/
theorem signed_of_verify (hA : A.Lawful) {issued : List OfferPayload} {token : JsString}
    (hforge : ∀ body signature, token = body ++ 46 :: signature →
      A.hmac config.offerSecret body = Base64.decode signature → ∃ p ∈ issued, body = A.body p)
    (h : verifyA2AOffer A config now allowExpired token = .ok o) :
    (∃ p ∈ issued, o = A.offer p token) ∧
      ((∃ p ∈ issued, (sign A p config).offerToken = token) ↔
        Base64.canonical (signatureOf token) = true) := by
  simp only [verifyA2AOffer, bind_eq_ok, raise_else] at h
  obtain ⟨_, -, -, h⟩ := h
  split at h
  · rename_i body signature hsplit
    obtain rfl := token_of_splitOn hsplit
    simp only [raise_else, bind_eq_ok, pure_eq_ok, not_or] at h
    obtain ⟨⟨-, -, hsignature⟩, hmac, payload, hpayload, -, -, -, -, -, -, rfl⟩ := h
    rw [not_ne_iff] at hmac
    rw [Bool.not_eq_false] at hsignature
    obtain ⟨p, hp, hbody⟩ := hforge body signature rfl hmac
    rw [hbody] at hpayload hmac
    obtain rfl := ((readPayload_body hA).1 hpayload).2
    rw [signatureOf_append hsignature]
    refine ⟨⟨payload, hp, rfl⟩, ?_, fun hcanonical => ⟨payload, hp, ?_⟩⟩
    · rintro ⟨other, -, hother⟩
      have hlast := canonical_sign hA config other
      rwa [hother, signatureOf_append hsignature] at hlast
    · have hunits := (Bool.and_eq_true _ _ ▸ hsignature).2
      have hwritten := (Base64.encode_decode hunits).2 hcanonical
      rw [← hmac] at hwritten
      rw [hbody, ← hwritten]
      rfl
  · cases h

end A2a

end Hedera

end Obolos
