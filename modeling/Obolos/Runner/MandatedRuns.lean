import Obolos.Crash.Reach
import Obolos.Js.Dates
import Obolos.Runner.MandatedGateway

/-!
# One purchase, one report, one verification

`mandated_runs` : whatever is called, in whatever order, and whatever the base gateway answers, the
paid calls of the base gateway are a part of one sequence: the purchase of the data of the job, its
return, the report on what was purchased, its verification.  Each is within the limits of the
mandate, which was not expired when its caller checked it last.

The shared variables tell how far the sequence is (`Paid`).  Only the caller that purchases the data
(`World.buyer`) sees the purchase return.
-/

namespace Obolos

namespace Mandated

open Json
open Runs (Context DataPurchase VerificationService Turn RunInput)

section Calls

variable (C : Context) (job : RunnerJob)

/-- The mandate had not expired at the last check. -/
def Live (checkedAt : Option ℤ) : Prop :=
  ∃ time, checkedAt = some time ∧
    ∀ expiry, C.host.dateParse job.mandate.expiresAt = some expiry → time < expiry

/-- The same evidence: the texts are the same, and so the values are when their numbers are finite. -/
def SameEvidence (evidence purchased : List Json) : Prop :=
  evidenceText C evidence = evidenceText C purchased ∧
    (finiteItems evidence = true → finiteItems purchased = true → evidence = purchased)

/-- A purchase of exactly the data of the job, within the limits of the mandate. -/
structure DataWithin (request : DataPurchase) (checkedAt : Option ℤ) : Prop where
  repos : request.repos = job.repos
  provider : request.providerId ∈ job.mandate.allowedProviders
  price : 0 < request.unitPriceAtomic ∧
    request.unitPriceAtomic ≤ job.mandate.maxDataUnitPriceAtomic
  amount : request.maxAmountAtomic = request.unitPriceAtomic * job.repos.length
  budget : request.maxAmountAtomic ≤ job.mandate.dataBudgetAtomic
  live : Live C job checkedAt

/-- A report on the purchased evidence. -/
structure ReportWithin (purchased evidence : List Json) (runId : JsString) (checkedAt : Option ℤ) :
    Prop where
  evidence : SameEvidence C evidence purchased
  runId : runId = job.id
  live : Live C job checkedAt

/-- A verification of the purchased evidence, for the price that was signed. -/
structure VerifyWithin (purchased : List Json) (request : VerificationPurchase)
    (market : Option SignedMandate) (checkedAt : Option ℤ) : Prop where
  evidence : SameEvidence C request.report.evidence purchased
  price : request.maxAmountAtomic = job.mandate.verificationPrice
  budget : request.maxAmountAtomic ≤ job.mandate.verificationBudgetAtomic
  market : market = job.mandate.verificationService.map fun _ => job.mandate
  live : Live C job checkedAt

/-- How far the sequence of the paid calls is. -/
inductive Paid : Guard → List BaseCall → Prop
  | fresh : Paid ⟨false, false, false, none⟩ []
  | buying {request : DataPurchase} {a : Option ℤ} (data : DataWithin C job request a) :
      Paid ⟨true, false, false, none⟩ [.purchaseData request a]
  | bought {request : DataPurchase} {a : Option ℤ} {purchased : List Json}
      (data : DataWithin C job request a) :
      Paid ⟨true, false, false, some purchased⟩ [.purchaseData request a, .purchased purchased]
  | reporting {request : DataPurchase} {a b : Option ℤ} {purchased evidence : List Json}
      {runId : JsString} (data : DataWithin C job request a)
      (report : ReportWithin C job purchased evidence runId b) :
      Paid ⟨true, true, false, some purchased⟩
        [.purchaseData request a, .purchased purchased, .generateReport evidence runId b]
  | verifying {request : DataPurchase} {a b c : Option ℤ} {purchased evidence : List Json}
      {runId : JsString} {check : VerificationPurchase} {market : Option SignedMandate}
      (data : DataWithin C job request a) (report : ReportWithin C job purchased evidence runId b)
      (verification : VerifyWithin C job purchased check market c) :
      Paid ⟨true, true, true, some purchased⟩
        [.purchaseData request a, .purchased purchased, .generateReport evidence runId b,
          .verify check market c]

variable {ι : Type}

/-- What holds of a gateway. -/
structure Good (d : World ι) : Prop where
  paid : Paid C job d.guard d.calls
  buyer : d.buyer.isSome = d.guard.dataStarted

/-- What caller `i` keeps while others act: its time, and its purchase. -/
structure Own (i : ι) (d d' : World ι) : Prop where
  seen : d'.seen i = d.seen i
  buyer : d.buyer = some i → d'.buyer = some i ∧ d'.guard.purchased = d.guard.purchased

/-- The calls of a gateway. -/
def calls (ι : Type) : Protocol ι (World ι) where
  inv := Good C job
  rely i d d' := Good C job d' ∧ Own i d d'
  guar i d d' := Good C job d' ∧ ∀ j, j ≠ i → Own j d d'

variable {C job} {pins : RunnerPins} {authorize : Bool} {i : ι} {d d' : World ι} {α β : Type}

theorem Own.refl (i : ι) (d : World ι) : Own i d d := ⟨rfl, fun h => ⟨h, rfl⟩⟩

theorem Own.trans {d'' : World ι} (h : Own i d d') (h' : Own i d' d'') : Own i d d'' where
  seen := h'.seen.trans h.seen
  buyer hbuyer := by
    obtain ⟨hkept, hpurchased⟩ := h.buyer hbuyer
    obtain ⟨hkept', hpurchased'⟩ := h'.buyer hkept
    exact ⟨hkept', hpurchased'.trans hpurchased⟩

/-! ### The checks -/

theorem evidenceText_inj {l l' : List Json} (h : evidenceText C l = evidenceText C l') :
    SameEvidence C l l' := by
  refine ⟨h, fun hl hl' => ?_⟩
  have hends : Ends [] := fun c hc => by cases hc
  have hsame := (stringify_inj (N := C.host.numerals) (.arr l) (y := .arr l') hl hl' hends hends
    (by simpa [evidenceText] using h)).1
  exact Json.arr.inj hsame

theorem finiteItems_strings (l : List JsString) : finiteItems (l.map .str) = true := by
  induction l with
  | nil => rfl
  | cons s l ih => simpa [finiteItems, finite] using ih

theorem reposText_inj {l l' : List JsString} (h : reposText C l = reposText C l') : l = l' := by
  have hsame := (evidenceText_inj h).2 (finiteItems_strings l) (finiteItems_strings l')
  exact List.map_injective_iff.2 (fun _ _ hs => Json.str.inj hs) hsame

/-- What a validated job says about the amounts. -/
structure Valid (job : RunnerJob) : Prop where
  repos : job.repos.length ≤ 3
  price : job.mandate.maxDataUnitPriceAtomic ≤ 100000000

/-- Small amounts are multiplied exactly. -/
theorem Valid.amount (h : Valid job) {price : ℚ} (hsafe : Runs.isSafeInteger price = true)
    (hpositive : 0 < price) (hprice : price ≤ job.mandate.maxDataUnitPriceAtomic) :
    C.amount price job.repos.length = price * job.repos.length := by
  obtain ⟨n, rfl⟩ : ∃ n : ℤ, price = n := by
    simp only [Runs.isSafeInteger, Bool.and_eq_true, decide_eq_true_eq] at hsafe
    exact ⟨price.num, ((Rat.den_eq_one_iff price).1 hsafe.1).symm⟩
  have hn : 0 < n := by exact_mod_cast hpositive
  have hmax : n ≤ 100000000 := by
    have hle : n ≤ (job.mandate.maxDataUnitPriceAtomic : ℤ) := by exact_mod_cast hprice
    have := h.price
    omega
  have hproduct : 0 ≤ n * job.repos.length ∧ n * job.repos.length ≤ 300000000 := by
    have hrepos : (job.repos.length : ℤ) ≤ 3 := by exact_mod_cast h.repos
    refine ⟨Int.mul_nonneg hn.le (by omega), ?_⟩
    have hle := Int.mul_le_mul_of_nonneg_left hrepos hn.le
    omega
  have hround := C.arithmetic.round_int (n * job.repos.length) (by omega) (by omega)
  unfold Context.amount
  exact_mod_cast hround

/-- The caller has just checked the mandate. -/
def Checked (C : Context) (job : RunnerJob) (i : ι) (d : World ι) : Prop :=
  Valid job ∧ Live C job (d.seen i)

theorem Checked.own (h : Checked C job i d) (hown : Own i d d') : Checked C job i d' := by
  refine ⟨h.1, ?_⟩
  rw [hown.seen]
  exact h.2

/-- A request that is let through. -/
theorem dataWithin {request : DataPurchase} {g g' : Guard} {a : Option ℤ} (h : Valid job)
    (hlive : Live C job a) (hstart : startData C job request g = .ok g') :
    DataWithin C job request a ∧ g.dataStarted = false ∧ g' = { g with dataStarted := true } := by
  unfold startData at hstart
  split_ifs at hstart with hid hbad
  · cases hstart
  · cases hstart
  · simp only [not_or, not_not, not_le, not_lt, Bool.not_eq_true, Bool.not_eq_false] at hbad
    obtain ⟨hfresh, hrepos, hprovider, hsafe, hpositive, hprice, hamount, hbudget⟩ := hbad
    cases hstart
    refine ⟨⟨reposText_inj hrepos, hprovider, ⟨hpositive, hprice⟩, ?_, hbudget, hlive⟩, hfresh, rfl⟩
    rw [hamount, h.amount hsafe hpositive hprice]

theorem reportWithin {evidence : List Json} {runId : JsString} {g g' : Guard} {a : Option ℤ}
    (hlive : Live C job a) (hstart : startReport C job evidence runId g = .ok g') :
    ∃ purchased, g.purchased = some purchased ∧ ReportWithin C job purchased evidence runId a ∧
      g.reportStarted = false ∧ g' = { g with reportStarted := true } := by
  unfold startReport at hstart
  split_ifs at hstart with hbad
  · cases hstart
  · simp only [not_or, not_not, Bool.not_eq_true] at hbad
    obtain ⟨hid, hsame, hfresh⟩ := hbad
    cases hstart
    cases hpurchased : g.purchased with
    | none =>
      rw [hpurchased] at hsame
      cases hsame
    | some purchased =>
      rw [hpurchased] at hsame
      have htext : evidenceText C purchased = evidenceText C evidence := by simpa using hsame
      exact ⟨purchased, rfl, ⟨evidenceText_inj htext.symm, hid, hlive⟩, hfresh, rfl⟩

theorem verifyWithin {request : VerificationPurchase} {g g' : Guard} {a : Option ℤ}
    (hlive : Live C job a) (hstart : startVerify C job request g = .ok g') :
    ∃ purchased, g.purchased = some purchased ∧
      VerifyWithin C job purchased request
        (job.mandate.verificationService.map fun _ => job.mandate) a ∧
      g.reportStarted = true ∧ g.verificationStarted = false ∧
      g' = { g with verificationStarted := true } := by
  unfold startVerify at hstart
  split_ifs at hstart with hid hbad
  · cases hstart
  · cases hstart
  · simp only [not_or, not_not, not_lt, Bool.not_eq_true, Bool.not_eq_false] at hbad
    obtain ⟨hfresh, hreport, hsame, hprice, hbudget⟩ := hbad
    cases hstart
    cases hpurchased : g.purchased with
    | none =>
      rw [hpurchased] at hsame
      cases hsame
    | some purchased =>
      rw [hpurchased] at hsame
      have htext : evidenceText C request.report.evidence = evidenceText C purchased := by
        simpa using hsame
      exact ⟨purchased, rfl, ⟨evidenceText_inj htext, hprice, hbudget, rfl, hlive⟩, hreport, hfresh,
        rfl⟩

/-! ### One effect -/

/-- The purchase of the data starts. -/
theorem Good.startData {request : DataPurchase} {g : Guard} (h : Good C job d)
    (hchecked : Checked C job i d) (hstart : startData C job request d.guard = .ok g) :
    Good C job { d with
      guard := g
      buyer := some i
      calls := d.calls ++ [.purchaseData request (d.seen i)] } ∧
    d.buyer = none ∧ g.purchased = none := by
  obtain ⟨hwithin, hfresh, rfl⟩ := dataWithin hchecked.1 hchecked.2 hstart
  obtain ⟨hpaid, hbuyer⟩ := h
  rw [hfresh] at hbuyer
  have hnone : d.buyer = none := by simpa using hbuyer
  clear hstart hbuyer
  revert hfresh hpaid
  simp only
  generalize d.guard = g, d.calls = calls
  intro hfresh hpaid
  cases hpaid with
  | fresh => exact ⟨⟨.buying hwithin, rfl⟩, hnone, rfl⟩
  | _ => cases hfresh

/-- The purchase returns. -/
theorem Good.purchased {purchased : List Json} (h : Good C job d)
    (hbuyer : d.buyer = some i) (hnone : d.guard.purchased = none) :
    Good C job { d with
      guard := { d.guard with purchased := some purchased }
      calls := d.calls ++ [.purchased purchased] } := by
  obtain ⟨hpaid, hstarted⟩ := h
  refine ⟨?_, hstarted⟩
  rw [hbuyer] at hstarted
  revert hnone hpaid hstarted
  simp only
  generalize d.guard = g, d.calls = calls
  intro hnone hpaid hstarted
  cases hpaid with
  | fresh => cases hstarted
  | buying data => exact .bought data
  | _ => cases hnone

/-- The report starts. -/
theorem Good.startReport {evidence : List Json} {runId : JsString} {g : Guard} (h : Good C job d)
    (hchecked : Checked C job i d) (hstart : startReport C job evidence runId d.guard = .ok g) :
    Good C job { d with
      guard := g
      calls := d.calls ++ [.generateReport evidence runId (d.seen i)] } ∧
    g.purchased = d.guard.purchased := by
  obtain ⟨purchased, hpurchased, hwithin, hfresh, rfl⟩ := reportWithin hchecked.2 hstart
  obtain ⟨hpaid, hbuyer⟩ := h
  refine ⟨⟨?_, hbuyer⟩, rfl⟩
  clear hstart hbuyer
  revert hpurchased hfresh hpaid
  simp only
  generalize d.guard = g, d.calls = calls
  intro hpurchased hfresh hpaid
  cases hpaid with
  | bought data =>
    cases hpurchased
    exact .reporting data hwithin
  | fresh => cases hpurchased
  | buying data => cases hpurchased
  | _ => cases hfresh

/-- The verification starts. -/
theorem Good.startVerify {request : VerificationPurchase} {g : Guard} (h : Good C job d)
    (hchecked : Checked C job i d) (hstart : startVerify C job request d.guard = .ok g) :
    Good C job { d with
      guard := g
      calls := d.calls ++ [.verify request
        (job.mandate.verificationService.map fun _ => job.mandate) (d.seen i)] } ∧
    g.purchased = d.guard.purchased := by
  obtain ⟨purchased, hpurchased, hwithin, hreport, hfresh, rfl⟩ := verifyWithin hchecked.2 hstart
  obtain ⟨hpaid, hbuyer⟩ := h
  refine ⟨⟨?_, hbuyer⟩, rfl⟩
  clear hstart hbuyer
  revert hpurchased hreport hfresh hpaid
  simp only
  generalize d.guard = g, d.calls = calls
  intro hpurchased hreport hfresh hpaid
  cases hpaid with
  | reporting data report =>
    cases hpurchased
    exact .verifying data report hwithin
  | verifying data report verification => cases hfresh
  | _ => cases hreport

/-! ### The programs -/

variable [DecidableEq ι]

/-- What the programs are verified against. -/
abbrev spec (C : Context) (job : RunnerJob) (pins : RunnerPins) (authorize : Bool) (i : ι) :
    Prog.Spec (World ι) Effect Answer JsError :=
  (calls C job ι).spec (gateway C job pins authorize ι) i

/-- What holds after a program returned; nothing is said of the world when it throws. -/
abbrev Then (A : α → World ι → Prop) : Except JsError α → World ι → Prop :=
  Prog.post (fun _ => True) A

theorem wp_refuse {message : String} {A : α → World ι → Prop} :
    (refuse message : Exec α).wp (spec C job pins authorize i) (Then A) d := Prog.wp_throw.2 trivial

/-- A part, and then the rest. -/
theorem wp_next {p : Exec α} {f : α → Exec β} {A : α → World ι → Prop} {B : β → World ι → Prop}
    (hp : p.wp (spec C job pins authorize i) (Then A) d)
    (hf : ∀ x d', A x d' → (f x).wp (spec C job pins authorize i) (Then B) d') :
    (p >>= f).wp (spec C job pins authorize i) (Then B) d :=
  Prog.wp_seq hp (fun _ => id) fun x d' _ => hf x d'

/-- An effect; the others may have acted before. -/
theorem wp_effect {o : Effect} {A : Answer o → World ι → Prop}
    (h : ∀ d₁ r d₂, Good C job d₁ → Own i d d₁ → sem C job i d₁ o r d₂ →
      Good C job d₂ ∧ (∀ j, j ≠ i → Own j d₁ d₂) ∧ ∀ a, r = .ok a → A a d₂) :
    (await o).wp (spec C job pins authorize i) (Then A) d := by
  unfold await
  rw [Prog.wp_await]
  rintro d₁ ⟨hgood, hown⟩ r d₂ hsem
  obtain ⟨hgood₂, hothers, hA⟩ := h d₁ r d₂ hgood hown hsem
  refine ⟨⟨hgood₂, hothers⟩, ?_⟩
  cases r with
  | ok a => exact ⟨trivial, hA a rfl⟩
  | error e => trivial

/-- An effect that changes nothing. -/
theorem wp_still {o : Effect} (hquiet : ∀ d₁ r d₂, sem C job i d₁ o r d₂ → d₂ = d₁) :
    (await o).wp (spec C job pins authorize i) (Then fun _ d' => Own i d d') d := by
  refine wp_effect fun d₁ r d₂ hgood hown hsem => ?_
  rw [hquiet d₁ r d₂ hsem]
  exact ⟨hgood, fun j _ => .refl j d₁, fun _ _ => hown⟩

theorem wp_now : (await .now).wp (spec C job pins authorize i)
    (Then fun time d' => d'.seen i = some time) d := by
  refine wp_effect fun d₁ r d₂ hgood hown hsem => ?_
  obtain ⟨time, rfl, rfl⟩ := hsem
  refine ⟨⟨hgood.paid, hgood.buyer⟩, fun j hj => ⟨?_, fun h => ⟨h, rfl⟩⟩, fun _ ha => ?_⟩
  · exact Function.update_of_ne hj _ _
  · cases ha
    exact Function.update_self ..

theorem wp_validateSignedMandate :
    (validateSignedMandate C job.mandate pins).wp (spec C job pins authorize i)
      (Then fun signed d' => signed = true →
        signedMandateSchema C job.mandate = true ∧ Live C job (d'.seen i)) d := by
  unfold validateSignedMandate
  refine Prog.wp_ite (fun _ => ?_) fun hschema => ?_
  · exact Prog.wp_pure.2 ⟨trivial, fun hfalse => by cases hfalse⟩
  · rw [Bool.not_eq_false] at hschema
    refine wp_next wp_now fun now d hseen => ?_
    refine Prog.wp_ite (fun _ => ?_) fun hfits => ?_
    · exact Prog.wp_pure.2 ⟨trivial, fun hfalse => by cases hfalse⟩
    · refine Prog.wp_ite (fun _ => ?_) fun _ => ?_
      · exact Prog.wp_pure.2 ⟨trivial, fun hfalse => by cases hfalse⟩
      · have hlive : ∀ d', Own i d d' → Live C job (d'.seen i) := by
          intro d' hown
          refine ⟨now, hown.seen.trans hseen, fun expiry hexpiry => ?_⟩
          simp only [hexpiry, Option.any_some, decide_eq_true_eq, not_or, not_le] at hfits
          exact hfits.2.2.2.1
        refine Prog.wp_catch (wp_still fun _ _ _ hsem => hsem) ?_ ?_
        · exact fun signed d' _ hown => ⟨trivial, fun _ => ⟨hschema, hlive d' hown⟩⟩
        · exact fun _ _ _ => Prog.wp_pure.2 ⟨trivial, fun hfalse => by cases hfalse⟩

theorem wp_validateJob :
    (validateJob C job pins).wp (spec C job pins authorize i)
      (Then fun _ d' => Checked C job i d') d := by
  unfold validateJob
  refine Prog.wp_ite (fun _ => wp_refuse) fun hjob => ?_
  simp only [not_or, Bool.not_eq_false] at hjob
  refine wp_next wp_validateSignedMandate fun signed d hsigned => ?_
  refine Prog.wp_ite (fun _ => wp_refuse) fun htrue => ?_
  refine Prog.wp_ite (fun _ => wp_refuse) fun _ => ?_
  obtain ⟨hschema, hlive⟩ := hsigned (by simpa using htrue)
  refine Prog.wp_pure.2 ⟨trivial, ⟨?_, ?_⟩, hlive⟩
  · have hscope := hjob.2.2
    simp only [repositoryScope, Bool.and_eq_true, decide_eq_true_eq] at hscope
    exact hscope.1.1.2
  · simp only [signedMandateSchema, mandateFieldsSchema, Bool.and_eq_true,
      decide_eq_true_eq] at hschema
    tauto

theorem wp_allowed {paid : Bool} :
    (allowed C job pins authorize paid).wp (spec C job pins authorize i)
      (Then fun _ d' => Checked C job i d') d := by
  unfold allowed
  refine wp_next wp_validateJob fun _ d hchecked => ?_
  refine Prog.wp_ite (fun _ => ?_) fun _ => Prog.wp_pure.2 ⟨trivial, hchecked⟩
  exact wp_next (wp_still fun _ _ _ hsem => hsem) fun _ d _ => wp_validateJob

/-- A call of the base gateway, unless the checks refuse it. -/
theorem wp_enter {o : Effect} {start : Guard → Except JsError Guard} {buyer : World ι → Option ι}
    {call : World ι → BaseCall} {A : World ι → Prop} (ho : ∀ d₁ r d₂, sem C job i d₁ o r d₂ →
      ∃ r' : Except JsError Unit, (r', d₂) = enter d₁ (start d₁.guard) (buyer d₁) (call d₁) ∧
        ∀ e, r' = .error e → r = .error e)
    (h : ∀ d₁ g, Good C job d₁ → Own i d d₁ → start d₁.guard = .ok g →
      Good C job { d₁ with guard := g, buyer := buyer d₁, calls := d₁.calls ++ [call d₁] } ∧
      (∀ j, j ≠ i → Own j d₁
        { d₁ with guard := g, buyer := buyer d₁, calls := d₁.calls ++ [call d₁] }) ∧
      A { d₁ with guard := g, buyer := buyer d₁, calls := d₁.calls ++ [call d₁] }) :
    (await o).wp (spec C job pins authorize i) (Then fun _ d' => A d') d := by
  refine wp_effect fun d₁ r d₂ hgood hown hsem => ?_
  obtain ⟨r', henter, herror⟩ := ho d₁ r d₂ hsem
  unfold enter at henter
  cases hstart : start d₁.guard with
  | error e =>
    rw [hstart] at henter
    obtain ⟨rfl, rfl⟩ := Prod.mk.inj henter
    refine ⟨hgood, fun j _ => .refl j _, fun a ha => ?_⟩
    rw [herror e rfl] at ha
    cases ha
  | ok g =>
    rw [hstart] at henter
    obtain ⟨rfl, rfl⟩ := Prod.mk.inj henter
    obtain ⟨hgood₂, hothers, hA⟩ := h d₁ g hgood hown hstart
    exact ⟨hgood₂, hothers, fun _ _ => hA⟩

theorem wp_startData {request : DataPurchase} (h : Checked C job i d) :
    (await (.startData request)).wp (spec C job pins authorize i)
      (Then fun _ d' => d'.buyer = some i ∧ d'.guard.purchased = none) d := by
  refine wp_enter (A := fun d' => d'.buyer = some i ∧ d'.guard.purchased = none)
    (fun _ r _ hsem => ⟨r, hsem, fun _ => id⟩) fun d₁ g hgood hown hstart => ?_
  obtain ⟨hgood₂, hbuyer, hnone⟩ := hgood.startData (h.own hown) hstart
  refine ⟨hgood₂, fun j _ => ⟨rfl, fun hj => ?_⟩, rfl, hnone⟩
  rw [hbuyer] at hj
  cases hj

theorem wp_purchased (h : d.buyer = some i ∧ d.guard.purchased = none) :
    (await .purchased).wp (spec C job pins authorize i) (Then fun _ _ => True) d := by
  refine wp_effect fun d₁ r d₂ hgood hown hsem => ?_
  obtain ⟨hbuyer, hpurchased⟩ := hown.buyer h.1
  rw [h.2] at hpurchased
  rcases hsem with ⟨e, rfl, rfl⟩ | ⟨result, rfl, rfl⟩
  · exact ⟨hgood, fun j _ => .refl j _, fun _ _ => trivial⟩
  · refine ⟨hgood.purchased hbuyer hpurchased, fun j hj => ⟨rfl, fun hj' => ?_⟩, fun _ _ => trivial⟩
    exact absurd (Option.some.inj (hj'.symm.trans hbuyer)) hj

theorem wp_startReport {evidence : List Json} {runId : JsString} (h : Checked C job i d) :
    (await (.startReport evidence runId)).wp (spec C job pins authorize i)
      (Then fun _ _ => True) d := by
  refine wp_enter (A := fun _ => True) (fun _ r _ hsem => ⟨r, hsem, fun _ => id⟩)
    fun d₁ g hgood hown hstart => ?_
  obtain ⟨hgood₂, hpurchased⟩ := hgood.startReport (h.own hown) hstart
  exact ⟨hgood₂, fun j _ => ⟨rfl, fun hj => ⟨hj, hpurchased⟩⟩, trivial⟩

theorem wp_startVerify {request : VerificationPurchase} (h : Checked C job i d) :
    (await (.startVerify request)).wp (spec C job pins authorize i) (Then fun _ _ => True) d := by
  refine wp_enter (A := fun _ => True) (fun _ r _ hsem => ⟨r, hsem, fun _ => id⟩)
    fun d₁ g hgood hown hstart => ?_
  obtain ⟨hgood₂, hpurchased⟩ := hgood.startVerify (h.own hown) hstart
  exact ⟨hgood₂, fun j _ => ⟨rfl, fun hj => ⟨hj, hpurchased⟩⟩, trivial⟩

theorem wp_capability (capability : Capability) :
    (capability.run C job pins authorize).wp (spec C job pins authorize i) (Then fun _ _ => True)
      d := by
  cases capability with
  | discover =>
    refine wp_next wp_allowed fun _ d _ => wp_next (wp_still fun _ _ _ hsem => hsem) fun _ d _ => ?_
    exact Prog.wp_pure.2 ⟨trivial, trivial⟩
  | purchaseData request =>
    refine wp_next wp_allowed fun _ d hchecked => wp_next (wp_startData hchecked) fun _ d hbuyer => ?_
    exact wp_next (wp_purchased hbuyer) fun _ d _ => Prog.wp_pure.2 ⟨trivial, trivial⟩
  | generateReport evidence runId =>
    refine wp_next wp_allowed fun _ d hchecked => wp_next (wp_startReport hchecked) fun _ d _ => ?_
    refine wp_next (wp_still fun _ _ _ hsem => hsem) fun _ d _ => ?_
    exact Prog.wp_pure.2 ⟨trivial, trivial⟩
  | verify request =>
    refine wp_next wp_allowed fun _ d hchecked => wp_next (wp_startVerify hchecked) fun _ d _ => ?_
    refine wp_next (wp_still fun _ _ _ hsem => hsem) fun _ d _ => ?_
    exact Prog.wp_pure.2 ⟨trivial, trivial⟩

theorem sound : (calls C job ι).Sound (gateway C job pins authorize ι) where
  rely_refl i d h := ⟨h, .refl i d⟩
  rely_trans _ _ _ _ h h' := ⟨h'.1, h.2.trans h'.2⟩
  guar_inv _ _ _ _ h := h.1
  guar_rely _ j _ _ _ h hj := ⟨h.1, h.2 j hj⟩
  env_inv _ _ _ _ h := h.elim
  env_rely _ _ _ _ _ h := h.elim
  start _ _ _ _ h := by
    obtain ⟨capability, rfl⟩ := h
    exact Prog.wp_mono (wp_capability capability) fun _ _ _ => trivial

/-! ### The runs -/

/-- A call is within the limits of the mandate, when `purchased` is what was purchased. -/
def BaseCall.Within (C : Context) (job : RunnerJob) (purchased : List Json) : BaseCall → Prop
  | .purchaseData request checkedAt => DataWithin C job request checkedAt
  | .purchased evidence => evidence = purchased
  | .generateReport evidence runId checkedAt => ReportWithin C job purchased evidence runId checkedAt
  | .verify request market checkedAt => VerifyWithin C job purchased request market checkedAt

omit [DecidableEq ι] in
/-- The calls are a part of the sequence. -/
theorem Paid.calls {g : Guard} {l : List BaseCall} (h : Paid C job g l) :
    ∃ request a purchased evidence runId b check market c,
      l <+: [.purchaseData request a, .purchased purchased, .generateReport evidence runId b,
        .verify check market c] ∧ ∀ call ∈ l, call.Within C job purchased := by
  have hrequest : DataPurchase := ⟨[], [], [], [], 0, 0, []⟩
  have hcheck : VerificationPurchase := ⟨[], [], 0, ⟨[], .null⟩, []⟩
  cases h with
  | fresh =>
    exact ⟨hrequest, none, [], [], [], none, hcheck, none, none, List.nil_prefix,
      fun call hcall => by cases hcall⟩
  | @buying request a data =>
    refine ⟨request, a, [], [], [], none, hcheck, none, none, ⟨_, rfl⟩, ?_⟩
    simpa [BaseCall.Within] using data
  | @bought request a purchased data =>
    refine ⟨request, a, purchased, [], [], none, hcheck, none, none, ⟨_, rfl⟩, ?_⟩
    simpa [BaseCall.Within] using data
  | @reporting request a b purchased evidence runId data report =>
    refine ⟨request, a, purchased, evidence, runId, b, hcheck, none, none, ⟨_, rfl⟩, ?_⟩
    simpa [BaseCall.Within] using ⟨data, report⟩
  | @verifying request a b c purchased evidence runId check market data report verification =>
    refine ⟨request, a, purchased, evidence, runId, b, check, market, c, List.prefix_rfl, ?_⟩
    simpa [BaseCall.Within] using ⟨data, report, verification⟩

/-- What `executeJob` hands to `createRun`. -/
def RunnerJob.input (job : RunnerJob) : RunInput where
  repos := job.repos
  dataBudgetAtomic := some job.mandate.dataBudgetAtomic
  maxDataUnitPriceAtomic := some job.mandate.maxDataUnitPriceAtomic
  verificationBudgetAtomic := some job.mandate.verificationBudgetAtomic
  allowedProviders := some job.mandate.allowedProviders
  expiresAt := some job.mandate.expiresAt
  verificationService := job.mandate.verificationService

/-- **The gateway of a mandated job, over every run of concurrent calls.**  The paid calls of the base
gateway are a part of one sequence, and each is within the limits of the mandate.  The loop that
calls the gateway for a job has at most five turns. -/
theorem mandated_runs {τ : List (Tr _ _)} {t : System.State ι (World ι) Effect Answer JsError Result}
    (ht : (gateway C job pins authorize ι).lts.Run (System.State.idle (World.new ι)) τ t) :
    (∃ request a purchased evidence runId b check market c,
      t.world.calls <+: [.purchaseData request a, .purchased purchased,
        .generateReport evidence runId b, .verify check market c] ∧
      ∀ call ∈ t.world.calls, call.Within C job purchased) ∧
    ∀ (run : Runs.Run) (d d' : Runs.World) (runs : List Runs.Run),
      (Runs.createRun C job.input).Reaches Runs.work d (.pure run) d' →
      ({ run with id := job.id } :: runs).IsChain (Turn C) → runs.length ≤ 5 := by
  have hgood₀ : Good C job (World.new ι) := ⟨.fresh, rfl⟩
  have hgood : Good C job t.world := (sound.run hgood₀ ht).1
  exact ⟨hgood.paid.calls, fun run d d' runs hmade hturns => Runs.turns_le hmade hturns⟩

end Calls

namespace Sample

/-- `z.uuid()`, but for the identifiers without a version. -/
def isUuid (s : JsString) : Bool :=
  s.all (fun c => c == 45 || (48 ≤ c && c ≤ 57) || (65 ≤ c && c ≤ 70) || (97 ≤ c && c ≤ 102)) &&
    decide ((s.splitOn 45).map List.length = [8, 4, 4, 4, 12]) &&
    (s.drop 14).head?.any (js "12345678").contains && (s.drop 19).head?.any (js "89abAB").contains

/-- `z.iso.datetime()`, for the texts of `toISOString`. -/
def isDatetime (s : JsString) : Bool :=
  (Date.readIso s).any fun time => decide (Date.FourDigits time ∧ Date.isoText time = s)

/-- Where the runner runs. -/
def context : Context :=
  let plain := Runs.Platform.plain
  Runs.Platform.withTable
    { plain with
      host := { plain.host with isUuid, dateParse := Date.readIso }
      isDatetime } ⟨none, none⟩

/-- The pins of the runner. -/
def pins : RunnerPins where
  origin := js "https://obolos"
  agentId := js "0b6e4c52-8d1f-4a37-9c25-6f10d3b7a984"
  owner := js "0x00000000000000000000000000000000000000aa"

/-- The fields of the mandate. -/
def fields : SignedMandate where
  id := js "7d3f1a90-52c6-4e8b-a14d-93b60c2f5e71"
  agentId := pins.agentId
  owner := pins.owner
  origin := pins.origin
  repos := [js "octocat/hello"]
  allowedProviders := [js "repo-standard"]
  dataBudgetAtomic := 100
  verificationBudgetAtomic := 50000
  maxDataUnitPriceAtomic := 100
  maxRuns := 1
  expiresAt := js "2026-01-01T00:00:00.000Z"
  verificationService := none
  message := []
  signature := js "0x" ++ List.replicate 130 48

/-- Twelve hours before the mandate expires. -/
def noon : ℤ := 1767182400000

/-- A job. -/
def job : RunnerJob where
  id := js "c41e8b7a-06d2-4f59-8e3c-b7a1d9506f24"
  agentId := pins.agentId
  repos := fields.repos
  mandate := { fields with message := mandateMessage context fields }

/-- The evidence that is purchased. -/
def evidence : List Json := [.obj [(js "repo", .str (js "octocat/hello"))]]

/-- The purchase of the data of the job. -/
def purchase : Capability :=
  .purchaseData ⟨job.id, job.id ++ js ":data", job.repos, js "repo-standard", 100, 100,
    job.mandate.expiresAt⟩

/-- The report on the data. -/
def report : Capability := .generateReport evidence job.id

/-- The verification of the report. -/
def verification : Capability :=
  .verify ⟨job.id, job.id ++ js ":verify", 50000, ⟨evidence, .null⟩, job.mandate.expiresAt⟩

/-- What the effects of a caller are answered. -/
def respond (i : Bool) (d : World Bool) : (o : Effect) → Except JsError (Answer o) × World Bool
  | .now => (.ok noon, { d with seen := Function.update d.seen i (some noon) })
  | .verifyMessage _ _ _ => (.ok true, d)
  | .authorize => (.ok (), d)
  | .discover => (.ok .null, d)
  | .startData request => enter d (startData context job request d.guard) (some i)
      (.purchaseData request (d.seen i))
  | .purchased => (.ok (evidence, .null), { d with
      guard := { d.guard with purchased := some evidence }
      calls := d.calls ++ [.purchased evidence] })
  | .startReport evidence runId => enter d (startReport context job evidence runId d.guard) d.buyer
      (.generateReport evidence runId (d.seen i))
  | .summary => (.ok (js "summary"), d)
  | .startVerify request => enter d (startVerify context job request d.guard) d.buyer
      (.verify request (job.mandate.verificationService.map fun _ => job.mandate) (d.seen i))
  | .verified => (.ok .null, d)

theorem respond_sem (i : Bool) (d : World Bool) (o : Effect) :
    sem context job i d o (respond i d o).1 (respond i d o).2 := by
  cases o with
  | now => exact ⟨noon, rfl, rfl⟩
  | purchased => exact Or.inr ⟨_, rfl, rfl⟩
  | _ => rfl

/-- The gateway with its callers. -/
abbrev State := System.State Bool (World Bool) Effect Answer JsError Result

/-- Caller `i` starts a call if it has none, and takes at most `n` steps of it. -/
def turn (s : State) :
    Bool × Capability × ℕ → List (Tr State (System.Action Bool Effect Answer JsError Result)) × State
  | (i, capability, n) =>
    match s.processes i with
    | some _ => System.solo (respond i) i n s
    | none =>
      let call := capability.run context job pins true
      let s' : State := ⟨s.world, Function.update s.processes i (some call)⟩
      let rest := System.solo (respond i) i n s'
      (⟨s, .start i call, s'⟩ :: rest.1, rest.2)

/-- The state after some turns. -/
def play (turns : List (Bool × Capability × ℕ)) : State :=
  turns.foldl (fun s move => (turn s move).2) (System.State.idle (World.new Bool))

theorem turn_run (s : State) (move : Bool × Capability × ℕ) :
    (gateway context job pins true Bool).lts.Run s (turn s move).1 (turn s move).2 := by
  obtain ⟨i, capability, n⟩ := move
  cases hcall : s.processes i with
  | some call =>
    simp only [turn, hcall]
    exact System.solo_run (S := gateway context job pins true Bool) (respond_sem i) n s
  | none =>
    simp only [turn, hcall]
    have hstep : System.Step (gateway context job pins true Bool) s (.start i _) _ :=
      .start hcall ⟨capability, rfl⟩
    exact LTS.Run.cons_iff.2 ⟨rfl, hstep, System.solo_run (respond_sem i) n _⟩

theorem play_run (turns : List (Bool × Capability × ℕ)) :
    ∃ τ, (gateway context job pins true Bool).lts.Run (System.State.idle (World.new Bool)) τ
      (play turns) := by
  induction turns using List.reverseRecOn with
  | nil => exact ⟨[], .nil _⟩
  | append_singleton turns move ih =>
    obtain ⟨τ, hrun⟩ := ih
    rw [play, List.foldl_concat]
    exact ⟨_, hrun.append (turn_run _ move)⟩

/-- Both callers check the mandate before one of them purchases the data, which the other tries in
vain; the verification starts before the report, and is done after it. -/
def overlapping : List (Bool × Capability × ℕ) :=
  [(false, purchase, 5), (true, purchase, 50), (false, purchase, 50), (true, verification, 5),
    (false, report, 50), (true, verification, 50)]

/-! #### The turns of the loop -/

/-- A gateway that sells what the job asks for. -/
def seller : Runs.Gateway where
  providers := [⟨js "repo-standard", [], js "hedera:testnet", js "HBAR", 100⟩]
  data purchase := (purchase.repos.map fun repo =>
      ⟨repo, 0, 0, 0, fields.expiresAt, js "https://api.github.com/repos/" ++ repo, fields.expiresAt⟩,
    ⟨purchase.requestId, js "live", js "hedera:testnet", js "HBAR", purchase.maxAmountAtomic, js "settled",
      some (js "0.0.1")⟩)
  summary := []
  checked purchase := (⟨purchase.requestId, js "live", js "arc:testnet", js "USDC",
    purchase.maxAmountAtomic, js "settled", some (js "0x1")⟩, some [⟨[], true, []⟩])

/-- What the effects of the engine are answered. -/
def serve (d : Runs.World) : (o : Runs.Effect) → Except JsError (Runs.Answer o) × Runs.World
  | .now => (.ok noon, d)
  | o => seller.respond d o

theorem serve_work (d : Runs.World) (o : Runs.Effect) :
    Runs.work d o (serve d o).1 (serve d o).2 := by
  cases o with
  | now => exact ⟨⟨noon, rfl⟩, rfl⟩
  | _ => exact seller.respond_work d _

/-- A turn of the loop for a run. -/
def next (x : Runs.Run × Runs.World) : Option (Runs.Run × Runs.World) :=
  match Runner.isTerminal x.1.status, (Runs.advanceRun context x.1).exec serve x.2 with
  | false, (.ok (.ok (), run), d) => some (run, d)
  | _, _ => none

/-- The runs after the first turns, until the loop ends. -/
def follow : ℕ → Runs.Run × Runs.World → List Runs.Run
  | 0, _ => []
  | n + 1, x =>
    match next x with
    | none => []
    | some y => y.1 :: follow n y

theorem turn_next {x y : Runs.Run × Runs.World} (h : next x = some y) : Turn context x.1 y.1 := by
  unfold next at h
  split at h
  · rename_i run d hterminal hexec
    cases h
    have hreaches := Prog.Reaches.exec serve_work (Runs.advanceRun context x.1) x.2
    rw [hexec] at hreaches
    exact ⟨hterminal, x.2, _, hreaches⟩
  · cases h

theorem follow_chain (n : ℕ) (x : Runs.Run × Runs.World) :
    (x.1 :: follow n x).IsChain (Turn context) := by
  induction n generalizing x with
  | zero => exact .singleton _
  | succ n ih =>
    unfold follow
    split
    · exact .singleton _
    · rename_i y hnext
      exact .cons_cons (turn_next hnext) (ih y)

/-- The new run of a job, and the world after it. -/
def created : Except JsError Runs.Run × Runs.World :=
  (Runs.createRun context job.input).exec serve Runs.World.empty

end Sample

/-- Two callers share the gateway of a job: what they call overlaps, and the second purchase is
refused.  The loop for the job ends with the fifth turn. -/
theorem mandated_runs_overlapping :
    ((Sample.play (Sample.overlapping.take 2)).world.calls.length = 2 ∧
      (Sample.play Sample.overlapping).world.calls.length = 4 ∧
      ∃ purchased, ∀ call ∈ (Sample.play Sample.overlapping).world.calls,
        call.Within Sample.context Sample.job purchased) ∧
    ∃ run d, Sample.created = (.ok run, d) ∧
      let runs := Sample.follow 6 ({ run with id := Sample.job.id }, d)
      runs.map (·.status) = [.running, .running, .running, .running, .completed] ∧
        runs.length ≤ 5 := by
  obtain ⟨τ, hrun⟩ := Sample.play_run Sample.overlapping
  obtain ⟨⟨_, _, purchased, _, _, _, _, _, _, -, hwithin⟩, hturns⟩ := mandated_runs hrun
  refine ⟨⟨by decide +kernel, by decide +kernel, purchased, hwithin⟩, ?_⟩
  have hloop : (match Sample.created with
      | (.ok run, d) => (Sample.follow 6 ({ run with id := Sample.job.id }, d)).map (·.status)
      | (.error _, _) => []) = [.running, .running, .running, .running, .completed] := by
    decide +kernel
  have hreaches := Prog.Reaches.exec Sample.serve_work (Runs.createRun Sample.context Sample.job.input)
    Runs.World.empty
  cases hcreated : Sample.created with
  | mk result d =>
    rw [hcreated] at hloop
    cases result with
    | error e => cases hloop
    | ok run =>
      have hmade : (Runs.createRun Sample.context Sample.job.input).exec Sample.serve
          Runs.World.empty = (.ok run, d) := hcreated
      rw [hmade] at hreaches
      have hchain := Sample.follow_chain 6 ({ run with id := Sample.job.id }, d)
      exact ⟨run, d, rfl, hloop, hturns run _ d _ hreaches hchain⟩

end Mandated

end Obolos
