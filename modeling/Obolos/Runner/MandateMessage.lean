import Obolos.Js.Printable
import Obolos.Runner.MandatedRuns

/-!
# What a signed mandate binds

`mandate_binding` : two accepted mandates have the same message exactly if they agree on every field,
the owner up to letter case, and a signature is accepted for one mandate only.

The message is a text of lines.  The first line tells whether there is a line for the verification
service, so the number of lines after the origin is known, and none of these contains the end of a
line: what is free-form is quoted.
-/

namespace Obolos

namespace Mandated

open Json JsString
open Runs (Context VerificationService joinLines)

/-- The same fields; the letters of the owner may be of either case. -/
structure Agrees (a b : SignedMandate) : Prop where
  id : a.id = b.id
  agentId : a.agentId = b.agentId
  owner : a.owner.toLowerCase = b.owner.toLowerCase
  origin : a.origin = b.origin
  repos : a.repos = b.repos
  allowedProviders : a.allowedProviders = b.allowedProviders
  dataBudgetAtomic : a.dataBudgetAtomic = b.dataBudgetAtomic
  verificationBudgetAtomic : a.verificationBudgetAtomic = b.verificationBudgetAtomic
  maxDataUnitPriceAtomic : a.maxDataUnitPriceAtomic = b.maxDataUnitPriceAtomic
  maxRuns : a.maxRuns = b.maxRuns
  expiresAt : a.expiresAt = b.expiresAt
  verificationService : a.verificationService = b.verificationService

section Messages

variable (C : Context)

/-- The identifiers and the times that the schemas accept are on one line. -/
structure OneLine : Prop where
  uuid : ∀ s, C.host.isUuid s = true → 10 ∉ s
  datetime : ∀ s, C.isDatetime s = true → 10 ∉ s

/-! ### The lines -/

/-- The first line. -/
def header (service : Option VerificationService) : JsString :=
  js "Obolos isolated runner spending mandate " ++ match service with
    | none => js "v1"
    | some service => if service.providerEndpoint.isSome then js "v3" else js "v2"

/-- The lines after the origin, to the totals. -/
def scopeLines (m : SignedMandate) : List JsString :=
  [js "Mandate: " ++ m.id, js "Agent: " ++ m.agentId, js "Owner: " ++ m.owner.toLowerCase,
    js "Signing provenance: wallet",
    js "Repositories: " ++ reposText C m.repos,
    js "Allowed providers: " ++ reposText C m.allowedProviders,
    js "Maximum HBAR atomic units per repository: " ++ C.number m.maxDataUnitPriceAtomic,
    js "HBAR atomic units per run: " ++ C.number m.dataBudgetAtomic,
    js "USDC atomic units per run: " ++ C.number m.verificationBudgetAtomic,
    js "Maximum runs: " ++ C.number m.maxRuns,
    js "Total HBAR atomic units: " ++ C.number (C.amount m.dataBudgetAtomic m.maxRuns),
    js "Total USDC atomic units: " ++ C.number (C.amount m.verificationBudgetAtomic m.maxRuns)]

/-- The line of the service, if there is one. -/
def serviceLines (service : Option VerificationService) : List JsString :=
  match service with
  | none => []
  | some service => [js "Verification service: " ++ stringify C.host.numerals service.json]

/-- The last lines. -/
def endLines (m : SignedMandate) : List JsString :=
  [js "Expires: " ++ m.expiresAt, js "Network scope: Hedera testnet and Arc testnet only.",
    js "I authorize my paired runner to execute only this scope. This is spending approval, not an identity login."]

/-- The lines after the origin. -/
def linesAfter (m : SignedMandate) : List JsString :=
  scopeLines C m ++ serviceLines C m.verificationService ++ endLines m

variable {C} {a b m : SignedMandate}

theorem mandateMessage_eq (m : SignedMandate) : mandateMessage C m =
    header m.verificationService ++ 10 :: (js "Origin: " ++ m.origin ++
      10 :: List.intercalate [10] (linesAfter C m)) := by
  have hlines : mandateMessage C m = List.intercalate [10]
      (header m.verificationService :: (js "Origin: " ++ m.origin) :: linesAfter C m) := rfl
  rw [hlines, join_cons]
  unfold linesAfter scopeLines
  simp only [List.cons_append]
  rw [join_cons]

theorem linesAfter_ne_nil (m : SignedMandate) : linesAfter C m ≠ [] := by
  simp [linesAfter, endLines]

theorem length_serviceLines (service : Option VerificationService) :
    (serviceLines C service).length = if service.isSome then 1 else 0 := by
  cases service <;> rfl

theorem length_linesAfter (h : a.verificationService.isSome = b.verificationService.isSome) :
    (linesAfter C a).length = (linesAfter C b).length := by
  simp [linesAfter, scopeLines, endLines, length_serviceLines, h]

theorem header_newline (service : Option VerificationService) : 10 ∉ header service := by
  cases service with
  | none => decide
  | some service =>
    unfold header
    simp only
    split_ifs
    · decide
    · decide

/-- The first line tells whether there is a service. -/
theorem header_inj {service service' : Option VerificationService}
    (h : header service = header service') : service.isSome = service'.isSome := by
  have hv2 : ∀ service : VerificationService, header (some service) ≠ header none := by
    intro service
    unfold header
    simp only
    split_ifs
    · decide
    · decide
  cases service with
  | none =>
    cases service' with
    | none => rfl
    | some service' => exact absurd h.symm (hv2 service')
  | some service =>
    cases service' with
    | none => exact absurd h (hv2 service)
    | some service' => rfl

/-! ### The ends of the lines -/

theorem readDigits_newline {n : ℕ} {s : JsString} (h : (readDigits n s).isSome = true) : 10 ∉ s := by
  induction s generalizing n with
  | nil => exact List.not_mem_nil
  | cons c s ih =>
    rw [readDigits] at h
    cases hdigit : readDigit c with
    | none => simp [hdigit] at h
    | some d =>
      rw [hdigit] at h
      rw [List.mem_cons, not_or]
      refine ⟨?_, ih h⟩
      rintro rfl
      have hnone : readDigit 10 = none := by decide
      rw [hnone] at hdigit
      cases hdigit

theorem readHex_newline {width : ℕ} {s : JsString} (h : (readHex width s).isSome = true) :
    10 ∉ s := by
  unfold readHex at h
  split at h
  · split_ifs at h with hlength
    · rw [List.mem_cons, List.mem_cons, not_or, not_or]
      exact ⟨by decide, by decide, readDigits_newline h⟩
    · cases h
  · cases h

theorem newline_toLowerCase {s : JsString} (h : 10 ∉ s) : 10 ∉ s.toLowerCase := by
  intro hmem
  obtain ⟨c, hc, hlower⟩ := List.mem_map.1 hmem
  split_ifs at hlower with hletter
  · -- a capital letter does not become the end of a line
    simp only [Bool.and_eq_true, decide_eq_true_eq] at hletter
    have h65 := UInt16.le_iff_toNat_le.1 hletter.1
    have h90 := UInt16.le_iff_toNat_le.1 hletter.2
    have hsum := congrArg UInt16.toNat hlower
    rw [UInt16.toNat_add] at hsum
    simp at h65 h90 hsum
    omega
  · exact h (hlower ▸ hc)

theorem newline_append {label : String} {s : JsString} (hlabel : 10 ∉ js label) (h : 10 ∉ s) :
    10 ∉ js label ++ s := by
  rw [List.mem_append, not_or]
  exact ⟨hlabel, h⟩

/-- The identifiers, the owner and the expiry of an accepted mandate. -/
theorem mandateFieldsSchema_newline (hC : OneLine C) (h : mandateFieldsSchema C m = true) :
    10 ∉ m.id ∧ 10 ∉ m.agentId ∧ 10 ∉ m.owner.toLowerCase ∧ 10 ∉ m.expiresAt := by
  simp only [mandateFieldsSchema, Bool.and_eq_true] at h
  obtain ⟨⟨⟨⟨⟨⟨⟨⟨⟨⟨⟨hid, hagent⟩, howner⟩, -⟩, -⟩, -⟩, -⟩, -⟩, -⟩, -⟩, hexpiry⟩, -⟩ := h
  exact ⟨hC.uuid _ hid, hC.uuid _ hagent, newline_toLowerCase (readHex_newline howner),
    hC.datetime _ hexpiry⟩

/-- Every line after the origin is a line. -/
theorem linesAfter_newline
    (h : 10 ∉ m.id ∧ 10 ∉ m.agentId ∧ 10 ∉ m.owner.toLowerCase ∧ 10 ∉ m.expiresAt) :
    ∀ line ∈ linesAfter C m, 10 ∉ line := by
  obtain ⟨hid, hagent, howner, hexpiry⟩ := h
  have hnumber : ∀ q, 10 ∉ C.number q := fun q => (printable_number q).newline
  have hrepos : ∀ l, 10 ∉ reposText C l := fun l => (stringify_printable _).newline
  have hservice : ∀ line ∈ serviceLines C m.verificationService, 10 ∉ line := by
    cases m.verificationService with
    | none =>
      intro line hline
      cases hline
    | some service =>
      intro line hline
      rw [List.mem_singleton.1 hline]
      exact newline_append (by decide) (stringify_printable _).newline
  intro line hline
  rcases List.mem_append.1 hline with hline | hline
  · rcases List.mem_append.1 hline with hline | hline
    · simp only [scopeLines, List.mem_cons, List.not_mem_nil, or_false] at hline
      rcases hline with rfl | rfl | rfl | rfl | rfl | rfl | rfl | rfl | rfl | rfl | rfl | rfl
      · exact newline_append (by decide) hid
      · exact newline_append (by decide) hagent
      · exact newline_append (by decide) howner
      · decide
      · exact newline_append (by decide) (hrepos _)
      · exact newline_append (by decide) (hrepos _)
      all_goals exact newline_append (by decide) (hnumber _)
    · exact hservice line hline
  · simp only [endLines, List.mem_cons, List.not_mem_nil, or_false] at hline
    rcases hline with rfl | rfl | rfl
    · exact newline_append (by decide) hexpiry
    · decide
    · decide

/-! ### The fields -/

theorem number_inj {n n' : ℕ} (h : C.number n = C.number n') : n = n' :=
  Nat.cast_injective (C.host.numerals.text_inj _ _ h)

theorem service_json_inj {service service' : VerificationService}
    (h : service.json = service'.json) : service = service' := by
  obtain ⟨id, revision, name, recipient, price, endpoint, provider⟩ := service
  obtain ⟨id', revision', name', recipient', price', endpoint', provider'⟩ := service'
  cases provider <;> cases provider' <;> simp_all [VerificationService.json]

theorem finite_service (service : VerificationService) : service.json.finite = true := by
  obtain ⟨id, revision, name, recipient, price, endpoint, provider⟩ := service
  cases provider <;> rfl

theorem serviceLines_inj {service service' : Option VerificationService}
    (h : serviceLines C service = serviceLines C service') : service = service' := by
  cases service with
  | none =>
    cases service' with
    | none => rfl
    | some service' => cases h
  | some service =>
    cases service' with
    | none => cases h
    | some service' =>
      have htext := List.append_cancel_left (List.cons.inj h).1
      have hends : Ends [] := fun c hc => by cases hc
      rw [service_json_inj (stringify_inj service.json (finite_service service)
        (finite_service service') hends hends (by simpa using htext)).1]

/-- The lines are different when the fields are. -/
theorem linesAfter_inj (horigin : a.origin = b.origin)
    (hservice : a.verificationService.isSome = b.verificationService.isSome)
    (h : linesAfter C a = linesAfter C b) : Agrees a b := by
  have hlines : (serviceLines C a.verificationService).length =
      (serviceLines C b.verificationService).length := by
    rw [length_serviceLines, length_serviceLines, hservice]
  obtain ⟨hbefore, hend⟩ := List.append_inj' h rfl
  obtain ⟨hscope, hserviceLine⟩ := List.append_inj' hbefore hlines
  simp only [scopeLines, List.cons.injEq, List.append_cancel_left_eq, and_true, true_and] at hscope
  obtain ⟨hid, hagent, howner, hrepos, hproviders, hprice, hdata, husdc, hruns, -, -⟩ := hscope
  simp only [endLines, List.cons.injEq, List.append_cancel_left_eq, and_true] at hend
  exact {
    id := hid
    agentId := hagent
    owner := howner
    origin := horigin
    repos := reposText_inj hrepos
    allowedProviders := reposText_inj hproviders
    dataBudgetAtomic := number_inj hdata
    verificationBudgetAtomic := number_inj husdc
    maxDataUnitPriceAtomic := number_inj hprice
    maxRuns := number_inj hruns
    expiresAt := hend
    verificationService := serviceLines_inj hserviceLine }

/-- The message tells the fields. -/
theorem agrees_of_message (ha : ∀ line ∈ linesAfter C a, 10 ∉ line)
    (hb : ∀ line ∈ linesAfter C b, 10 ∉ line) (h : mandateMessage C a = mandateMessage C b) :
    Agrees a b := by
  rw [mandateMessage_eq, mandateMessage_eq] at h
  obtain ⟨hheader, hrest⟩ := append_newline_inj (header_newline _) (header_newline _) h
  have hservice := header_inj hheader
  obtain ⟨horigin, hlines⟩ := join_inj (linesAfter_ne_nil a) (linesAfter_ne_nil b) ha hb
    (length_linesAfter hservice) hrest
  exact linesAfter_inj (List.append_cancel_left horigin) hservice hlines

/-- The fields determine the message. -/
theorem Agrees.message (h : Agrees a b) : mandateMessage C a = mandateMessage C b := by
  rw [mandateMessage_eq, mandateMessage_eq]
  simp only [linesAfter, scopeLines, endLines, h.id, h.agentId, h.owner, h.origin, h.repos,
    h.allowedProviders, h.dataBudgetAtomic, h.verificationBudgetAtomic, h.maxDataUnitPriceAtomic,
    h.maxRuns, h.expiresAt, h.verificationService]

/-! ### Signatures -/

/-- A line of the message names the owner. -/
def Names (address message : JsString) : Prop :=
  js "\nOwner: " ++ address.toLowerCase ++ [10] <:+: message

/-- A signature is accepted for at most one message that names its signer. -/
def SignsOne (verifyMessage : JsString → JsString → JsString → Except JsError Bool) : Prop :=
  ∀ address address' message message' signature, Names address message → Names address' message' →
    verifyMessage address message signature = .ok true →
      verifyMessage address' message' signature = .ok true → message = message'

variable (C) in
/-- What `validateSignedMandate` is answered: the time, and the result of `verifyMessage`. -/
def answer (now : ℤ) (u : Unit) : (o : Effect) → Except JsError (Answer o) × Unit
  | .now => (.ok now, u)
  | .verifyMessage address message signature => (C.verifyMessage address message signature, u)
  | _ => (.error .other, u)

variable (C) in
/-- `validateSignedMandate(m, pins)` resolves to `true`. -/
def Accepted (m : SignedMandate) (pins : RunnerPins) (now : ℤ) : Prop :=
  ((validateSignedMandate C m pins).exec (answer C now) ()).1 = .ok true

theorem names_message (m : SignedMandate) : Names m.owner (mandateMessage C m) := by
  have howner : js "\nOwner: " = 10 :: js "Owner: " := by decide
  refine ⟨header m.verificationService ++ 10 :: (js "Origin: " ++ m.origin ++ 10 ::
    (js "Mandate: " ++ m.id ++ 10 :: (js "Agent: " ++ m.agentId))),
    List.intercalate [10] (linesAfter C m |>.drop 3), ?_⟩
  rw [mandateMessage_eq, howner]
  unfold linesAfter scopeLines
  simp only [join_cons, List.append_assoc, List.cons_append, List.nil_append, List.drop_succ_cons,
    List.drop_zero]

/-- What an accepted mandate is. -/
theorem Accepted.signed {pins : RunnerPins} {now : ℤ} (h : Accepted C m pins now) :
    mandateFieldsSchema C m = true ∧ m.message = mandateMessage C m.parsed ∧
      C.verifyMessage m.owner m.message m.signature = .ok true := by
  unfold Accepted validateSignedMandate at h
  by_cases hschema : signedMandateSchema C m = false
  · rw [if_pos hschema] at h
    cases h
  · rw [if_neg hschema, Prog.exec_bind] at h
    simp only [await, Prog.exec_await, answer] at h
    split_ifs at h with hfits hcovers
    · cases h
    · cases h
    · simp only [not_or, not_not] at hfits
      rw [Bool.not_eq_false] at hschema
      simp only [signedMandateSchema, Bool.and_eq_true] at hschema
      refine ⟨hschema.1.1, hfits.2.2.2.2.2, ?_⟩
      rw [Prog.exec_tryCatch, Prog.exec_await] at h
      simp only [answer] at h
      cases hverify : C.verifyMessage m.owner m.message m.signature with
      | ok valid =>
        rw [hverify] at h
        exact h
      | error e =>
        rw [hverify] at h
        cases h

/-- **What a wallet signs.**  The message of a mandate determines every field of it, and a signature
that is accepted for a mandate is accepted for no other. -/
theorem mandate_binding (C : Context) (hC : OneLine C) (hsigns : SignsOne C.verifyMessage) :
    (∀ a b, mandateFieldsSchema C a = true → mandateFieldsSchema C b = true →
      (mandateMessage C a = mandateMessage C b ↔ Agrees a b) ∧
      (mandateMessage C a.parsed = mandateMessage C b.parsed ↔ Agrees a.parsed b.parsed)) ∧
    ∀ a b pins pins' now now', Accepted C a pins now → Accepted C b pins' now' →
      a.signature = b.signature → Agrees a.parsed b.parsed := by
  have hbinds : ∀ a b, mandateFieldsSchema C a = true → mandateFieldsSchema C b = true →
      mandateMessage C a.parsed = mandateMessage C b.parsed → Agrees a.parsed b.parsed := by
    intro a b ha hb h
    have hlines := mandateFieldsSchema_newline hC ha
    have hlines' := mandateFieldsSchema_newline hC hb
    exact agrees_of_message (linesAfter_newline (m := a.parsed) hlines)
      (linesAfter_newline (m := b.parsed) hlines') h
  refine ⟨fun a b ha hb => ⟨⟨fun h => ?_, Agrees.message⟩, hbinds a b ha hb, Agrees.message⟩, ?_⟩
  · exact agrees_of_message (linesAfter_newline (mandateFieldsSchema_newline hC ha))
      (linesAfter_newline (mandateFieldsSchema_newline hC hb)) h
  · intro a b pins pins' now now' ha hb hsame
    obtain ⟨hfields, hmessage, hverify⟩ := ha.signed
    obtain ⟨hfields', hmessage', hverify'⟩ := hb.signed
    have hnames : Names a.owner a.message := by
      rw [hmessage]
      exact names_message a.parsed
    have hnames' : Names b.owner b.message := by
      rw [hmessage']
      exact names_message b.parsed
    rw [hsame] at hverify
    have heq : a.message = b.message := hsigns _ _ _ _ _ hnames hnames' hverify hverify'
    exact hbinds a b hfields hfields' (hmessage ▸ hmessage' ▸ heq)

end Messages

namespace Sample

/-- The mandate with a service. -/
def serviced : SignedMandate := { fields with
  verificationService := some {
    id := js "e2a95c30-7b14-4d68-b05f-18c3d7f6a249"
    revision := 1
    name := js " A verifier\n"
    recipient := js "0x00000000000000000000000000000000000000bb"
    priceAtomic := 1000
    endpoint := js "https://obolos/api/market/services/e2a95c30-7b14-4d68-b05f-18c3d7f6a249"
    providerEndpoint := none } }

/-- The mandate with its message. -/
def signed (m : SignedMandate) : SignedMandate :=
  { m with message := mandateMessage context m.parsed }

/-- A wallet that has signed one mandate. -/
def wallet : Context := { context with
  verifyMessage := fun address message signature => .ok (decide
    (address = fields.owner ∧ message = (signed serviced).message ∧ signature = fields.signature)) }

theorem wallet_oneLine : OneLine wallet where
  uuid s hs := by
    have hs : isUuid s = true := hs
    intro hmem
    simp only [isUuid, Bool.and_eq_true, List.all_eq_true] at hs
    exact absurd (hs.1.1.1 10 hmem) (by decide)
  datetime s hs := by
    have hs : isDatetime s = true := hs
    obtain ⟨time, -, htime⟩ := (Option.any_eq_true _ _).1 hs
    obtain ⟨-, rfl⟩ := of_decide_eq_true htime
    intro hmem
    exact absurd (List.all_eq_true.1 (Date.isoText_plain time) 10 hmem) (by decide)

theorem wallet_signsOne : SignsOne wallet.verifyMessage := by
  intro address address' message message' signature _ _ h h'
  have hmessage := of_decide_eq_true (Except.ok.inj h)
  have hmessage' := of_decide_eq_true (Except.ok.inj h')
  exact hmessage.2.1.trans hmessage'.2.1.symm

end Sample

/-- The signature of a mandate for one run is not accepted for two runs. -/
theorem mandate_binding_runs :
    Accepted Sample.wallet (Sample.signed Sample.serviced) Sample.pins Sample.noon ∧
    ∀ pins now, ¬ Accepted Sample.wallet (Sample.signed { Sample.serviced with maxRuns := 2 }) pins now := by
  have haccepted : Accepted Sample.wallet (Sample.signed Sample.serviced) Sample.pins Sample.noon := by
    unfold Accepted
    have hsome : ((validateSignedMandate Sample.wallet (Sample.signed Sample.serviced)
        Sample.pins).exec (answer Sample.wallet Sample.noon) ()).1.toOption = some true := by decide +kernel
    cases hresult : ((validateSignedMandate Sample.wallet (Sample.signed Sample.serviced)
        Sample.pins).exec (answer Sample.wallet Sample.noon) ()).1 with
    | ok accepted =>
      rw [hresult] at hsome
      rw [Option.some.inj hsome]
    | error e =>
      rw [hresult] at hsome
      cases hsome
  refine ⟨haccepted, fun pins now h => ?_⟩
  have hagrees := (mandate_binding Sample.wallet Sample.wallet_oneLine Sample.wallet_signsOne).2
    _ _ _ _ _ _ haccepted h rfl
  exact absurd hagrees.maxRuns (by decide)

end Mandated

end Obolos
