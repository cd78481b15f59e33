import Obolos.Economy.CanonicalJson
import Obolos.Platform.DataService

/-!
# Scheduled purchases

`hedera/commerce.ts`, from `scheduleSchema` on: a plan of a buyer pays for the same repositories in a
number of rounds.  The payment of a round is a native schedule of Hedera, and its memo is the hash of
the plan and the round; `validateScheduledProof` checks what the mirror node tells about the schedule
and its transfer.

* `scheduleMemo_inj` : a memo is the memo of one round of one plan.
* `validateScheduledProof_memo` : so a schedule is a proof for one round of one plan.
* `SchedulePlan.sum_amount`, `SchedulePlan.Valid.total` : the rounds together cost at most what the plan allows.
-/

namespace Obolos

namespace Schedules

open Json
open Runs (Rounding Sha256)
open Runs.Evidence (Texts validateRepos)
open DataService (isAccount isNormalized)

/-! ### The platform -/

/-- What the code uses of the language and of its packages. -/
structure Context where
  texts : Texts
  sha : Sha256
  arithmetic : Rounding
  /-- `z.string().datetime()` -/
  isDatetime : JsString → Bool
  /-- `Number(value)`; `none` is `NaN`. -/
  number : Json → Option (WithBot (WithTop ℚ))
  /-- `Buffer.from(value, 'base64').toString('utf8')` -/
  bufferText : Json → Except JsError JsString

/-! ### Plans -/

/-- `SchedulePlan` -/
structure SchedulePlan where
  id : JsString
  payer : JsString
  payTo : JsString
  repos : List JsString
  unitPriceAtomic : ℕ
  count : ℕ
  intervalSeconds : ℕ
  firstExecutionAt : JsString
  maxTotalAtomic : ℕ
  deriving DecidableEq

/-- The plan as an object, with the keys in the order of the schema. -/
def SchedulePlan.json (p : SchedulePlan) : Json :=
  .obj [(js "id", .str p.id), (js "payer", .str p.payer), (js "payTo", .str p.payTo),
    (js "repos", .arr (p.repos.map .str)), (js "unitPriceAtomic", .num p.unitPriceAtomic),
    (js "count", .num p.count), (js "intervalSeconds", .num p.intervalSeconds),
    (js "firstExecutionAt", .str p.firstExecutionAt), (js "maxTotalAtomic", .num p.maxTotalAtomic)]

/-- `plan.unitPriceAtomic*plan.repos.length` -/
def SchedulePlan.amount (p : SchedulePlan) : ℕ := p.unitPriceAtomic * p.repos.length

/-- `plan.unitPriceAtomic*plan.repos.length*plan.count` -/
def SchedulePlan.total (p : SchedulePlan) : ℕ := p.amount * p.count

/-- `z.number().int().min(low).max(high)` -/
def integerIn (low high : ℕ) : Json → Option ℕ
  | .num q => if q.den = 1 ∧ (low : ℤ) ≤ q.num ∧ q.num ≤ high then some q.num.toNat else none
  | _ => none

/-- `z.array(z.string()).min(1).max(3)` -/
def textsIn : Json → Option (List JsString)
  | .arr items => if 1 ≤ items.length ∧ items.length ≤ 3 then items.mapM asStr else none
  | _ => none

/-- A text that satisfies a condition. -/
def textThat (p : JsString → Bool) (s : JsString) : Option JsString := if p s then some s else none

variable (C : Context)

/-- `scheduleSchema.parse(input)` -/
def readPlan (input : Json) : Except JsError SchedulePlan := do
  let fields ← strictFields ["id", "payer", "payTo", "repos", "unitPriceAtomic", "count",
    "intervalSeconds", "firstExecutionAt", "maxTotalAtomic"] input
  let id ← textField (textThat C.texts.host.isUuid) "id" fields
  let payer ← textField (textThat isAccount) "payer" fields
  let payTo ← textField (textThat isAccount) "payTo" fields
  let repos ← field textsIn "repos" fields
  let unitPriceAtomic ← field (integerIn 1 100000000) "unitPriceAtomic" fields
  let count ← field (integerIn 1 10) "count" fields
  let intervalSeconds ← field (integerIn 10 86400) "intervalSeconds" fields
  let firstExecutionAt ← textField (textThat C.isDatetime) "firstExecutionAt" fields
  let maxTotalAtomic ← field (integerIn 1 100000000) "maxTotalAtomic" fields
  return { id, payer, payTo, repos, unitPriceAtomic, count, intervalSeconds, firstExecutionAt,
           maxTotalAtomic }

/-- The times of the rounds are in the next day, if they have to be. -/
def SchedulePlan.inTime (p : SchedulePlan) (now : ℤ) (allowPast : Bool) : Bool :=
  allowPast || !(C.texts.host.dateParse p.firstExecutionAt).any fun first =>
    decide (first < now + 10000) ||
      decide (now + 86400000 < first + (p.count - 1) * p.intervalSeconds * 1000)

/-- `validateSchedulePlan(input, now, allowPast)` -/
def validateSchedulePlan (input : Json) (now : ℤ) (allowPast : Bool) :
    Except JsError SchedulePlan := do
  let read ← readPlan C input
  let repos ← validateRepos C.texts (.arr (read.repos.map .str))
  let plan := { read with repos := repos }
  if plan.payer = plan.payTo ∨ 2 ^ 53 ≤ plan.total ∨ plan.maxTotalAtomic < plan.total ∨
      plan.inTime C now allowPast = false then
    JsError.raise "Schedule exceeds its finite spending authority."
  else return plan

/-! ### Memos -/

/-- `createHash('sha256').update(JSON.stringify(value)).digest('hex')` -/
def jsonHash (x : Json) : JsString :=
  C.sha.digest (JsString.utf8 (stringify C.texts.host.numerals x))

/-- What a memo is the hash of. -/
def memoFields (p : SchedulePlan) (round : ℚ) : Json :=
  .arr [.str p.id, .str p.payer, .str p.payTo, .arr (p.repos.map .str), .num p.unitPriceAtomic,
    .num p.count, .num p.intervalSeconds, .str p.firstExecutionAt, .num p.maxTotalAtomic,
    .num round]

/-- `scheduleMemo(input, round)` -/
def scheduleMemo (input : SchedulePlan) (round : ℚ) : Except JsError JsString := do
  let p ← validateSchedulePlan C input.json 0 true
  if round.den ≠ 1 ∨ round < 0 ∨ (p.count : ℚ) ≤ round then JsError.raise "Invalid schedule round."
  else return js "obolos:" ++ jsonHash C (memoFields p round)

/-! ### Proofs -/

/-- `Number.isSafeInteger(value)` -/
def safeInteger : Option Json → Option ℤ
  | some (.num q) =>
    if q.den = 1 ∧ -(2 ^ 53 - 1) ≤ q.num ∧ q.num ≤ 2 ^ 53 - 1 then some q.num else none
  | _ => none

/-- The accounts and amounts of transfers; `none` if an amount is no safe integer. -/
def readTransfers : List Json → Except JsError (Option (List (Option Json × ℤ)))
  | [] => .ok (some [])
  | .null :: _ => .error .other
  | t :: rest =>
    match safeInteger (t.prop "amount") with
    | none => .ok none
    | some amount => do
      let read ← readTransfers rest
      return read.map fun transfers => (t.prop "account", amount) :: transfers

/-- `tx.transfers?.every(t => Number.isSafeInteger(t.amount))`, and the transfers. -/
def transfersOf (tx : Json) : Except JsError (Option (List (Option Json × ℤ))) :=
  match tx.prop "transfers" with
  | none | some .null => .ok none
  | some (.arr items) => readTransfers items
  | some _ => .error .other

/-- The sum of the amounts of one account. -/
def sumOf (transfers : List (Option Json × ℤ)) (account : JsString) : ℚ :=
  (transfers.filter fun t => Circle.strictEq t.1 (some (.str account))).foldl
    (fun sum t => C.arithmetic.round (sum + t.2)) 0

/-- `!value?.length` -/
def hasNoItems : Option Json → Bool
  | some (.arr items) => items.isEmpty
  | some (.str s) => s.isEmpty
  | some x => !Circle.truthy (x.prop "length")
  | none => true

/-- The transaction id is one of the payer. -/
def isTransactionOf (payer : JsString) : Option Json → Bool
  | some (.str id) => isNormalized id && decide (id.takeWhile (· != 45) = payer)
  | _ => false

/-- What is compared of a transaction before its amounts. -/
def isSettled (p : SchedulePlan) (executed : Option Json) (tx : Json) : Bool :=
  Circle.strictEq (tx.prop "result") (some (.str (js "SUCCESS"))) &&
    Circle.strictEq (tx.prop "name") (some (.str (js "CRYPTOTRANSFER"))) &&
    Circle.strictEq (tx.prop "scheduled") (some (.bool true)) &&
    Circle.strictEq (tx.prop "consensus_timestamp") executed &&
    isTransactionOf p.payer (tx.prop "transaction_id")

/-- `tx.charged_tx_fee`, if it is within the limit. -/
def feeOf (tx : Json) : Option ℤ :=
  (safeInteger (tx.prop "charged_tx_fee")).filter fun fee => decide (0 ≤ fee ∧ fee ≤ 100000000)

/-- `tx.memo_base64 ?? ''` -/
def memoOf (tx : Json) : Json :=
  match tx.prop "memo_base64" with
  | none | some .null => .str []
  | some x => x

/-- Whether a transaction of the mirror node pays for a round. -/
def paysRound (p : SchedulePlan) (memo : JsString) (executed : Option Json) :
    Json → Except JsError Bool
  | .null => .error .other
  | tx =>
    if isSettled p executed tx = false then .ok false
    else match feeOf tx with
      | none => .ok false
      | some fee => do
        match ← transfersOf tx with
        | none => return false
        | some transfers => do
          let text ← C.bufferText (memoOf tx)
          return decide (text = memo) && hasNoItems (tx.prop "token_transfers") &&
            decide (sumOf C transfers p.payTo = p.amount) &&
            decide (sumOf C transfers p.payer = -(p.amount + fee))

/-- `txs.some(tx => …)` -/
def somePays (p : SchedulePlan) (memo : JsString) (executed : Option Json) :
    List Json → Except JsError Bool
  | [] => .ok false
  | tx :: txs => do
    if ← paysRound C p memo executed tx then return true else somePays p memo executed txs

/-- `Date.parse(plan.firstExecutionAt)/1000+round*plan.intervalSeconds` -/
def dueAt (p : SchedulePlan) (round : ℚ) : Option ℚ :=
  (C.texts.host.dateParse p.firstExecutionAt).map fun first =>
    C.arithmetic.round (C.arithmetic.round (first / 1000) + round * p.intervalSeconds)

/-- `Number(value)` of a value that may be `undefined`. -/
def numberOf (x : Option Json) : Option (WithBot (WithTop ℚ)) := x.bind C.number

/-- Whether the schedule is that of the round, and was executed when it was due. -/
def isExecuted (p : SchedulePlan) (round : ℚ) (memo scheduleId : JsString) (s : Json) : Bool :=
  let due : Option (WithBot (WithTop ℚ)) := (dueAt C p round).map fun due => ((due : WithTop ℚ) :)
  Circle.strictEq (s.prop "schedule_id") (some (.str scheduleId)) &&
    Circle.strictEq (s.prop "payer_account_id") (some (.str p.payer)) &&
    Circle.strictEq (s.prop "wait_for_expiry") (some (.bool true)) &&
    !Circle.truthy (s.prop "deleted") && Circle.truthy (s.prop "executed_timestamp") &&
    !((numberOf C (s.prop "executed_timestamp")).any fun time => due.any fun due =>
      decide (time < due)) &&
    (due.any fun due => decide (numberOf C (s.prop "expiration_time") = some due)) &&
    Circle.strictEq (s.prop "memo") (some (.str memo))

/-- `txs?.some(tx => …)` -/
def isPaid (p : SchedulePlan) (memo : JsString) (executed : Option Json) (value : Json) :
    Except JsError Bool :=
  match value.prop "transactions" with
  | none | some .null => .ok false
  | some (.arr txs) => somePays C p memo executed txs
  | some _ => .error .other

/-- `validateScheduledProof(schedule, value, plan, round, scheduleId)` -/
def validateScheduledProof (schedule value : Json) (plan : SchedulePlan) (round : ℚ)
    (scheduleId : JsString) : Except JsError Unit := do
  if isAccount scheduleId = false then .error .zod
  else do
    let _ ← validateSchedulePlan C plan.json 0 true
    let memo ← scheduleMemo C plan round
    if isExecuted C plan round memo scheduleId schedule = false then
      JsError.raise "Native schedule execution is not proven."
    else do
      let paid ← isPaid C plan memo (schedule.prop "executed_timestamp") value
      if paid = false then JsError.raise "Scheduled payment does not match the resource purchase."
      else return ()

/-! ### Accepted plans -/

/-- What an accepted plan is. -/
structure SchedulePlan.Valid (p : SchedulePlan) : Prop where
  id : C.texts.host.isUuid p.id = true
  payer : isAccount p.payer = true
  payTo : isAccount p.payTo = true
  repos : validateRepos C.texts (.arr (p.repos.map .str)) = .ok p.repos
  unitPriceAtomic : 1 ≤ p.unitPriceAtomic ∧ p.unitPriceAtomic ≤ 100000000
  count : 1 ≤ p.count ∧ p.count ≤ 10
  intervalSeconds : 10 ≤ p.intervalSeconds ∧ p.intervalSeconds ≤ 86400
  firstExecutionAt : C.isDatetime p.firstExecutionAt = true
  maxTotalAtomic : 1 ≤ p.maxTotalAtomic ∧ p.maxTotalAtomic ≤ 100000000
  differ : p.payer ≠ p.payTo
  total : p.total ≤ p.maxTotalAtomic

variable {C} {p q : SchedulePlan} {input : Json} {now : ℤ} {allowPast : Bool}

theorem textThat_eq_some {f : JsString → Bool} {s t : JsString} (h : textThat f s = some t) :
    f t = true := by
  unfold textThat at h
  split_ifs at h with hs
  cases h
  exact hs

theorem textField_that {f : JsString → Bool} {key : String} {fields : List (JsString × Json)}
    {t : JsString} (h : textField (textThat f) key fields = .ok t) : f t = true := by
  obtain ⟨s, hs⟩ := textField_ok h
  exact textThat_eq_some hs

theorem integerIn_bounds {low high n : ℕ} {x : Json} (h : integerIn low high x = some n) :
    low ≤ n ∧ n ≤ high := by
  cases x with
  | num q =>
    rw [integerIn] at h
    split_ifs at h with hq
    cases h
    omega
  | _ => cases h

theorem integerIn_num {low high n : ℕ} (h : low ≤ n ∧ n ≤ high) :
    integerIn low high (.num n) = some n := by
  rw [integerIn, if_pos ⟨Rat.den_natCast n, by rw [Rat.num_natCast]; omega, by rw [Rat.num_natCast]; omega⟩]
  simp

theorem field_integer {low high n : ℕ} {key : String} {fields : List (JsString × Json)}
    (h : field (integerIn low high) key fields = .ok n) : low ≤ n ∧ n ≤ high := by
  obtain ⟨x, -, hx⟩ := Option.bind_eq_some_iff.1 (field_ok.1 h)
  exact integerIn_bounds hx

/-- An accepted plan is valid. -/
theorem validateSchedulePlan_valid (h : validateSchedulePlan C input now allowPast = .ok p) :
    p.Valid C := by
  simp only [validateSchedulePlan, readPlan, bind_eq_ok, pure_eq_ok] at h
  obtain ⟨_, ⟨fields, -, id, hid, payer, hpayer, payTo, hpayTo, repos, -, price, hprice, count, hcount,
    interval, hinterval, first, hfirst, most, hmost, rfl⟩, names, hnames, hrest⟩ := h
  obtain ⟨hsame, -⟩ := Runs.Evidence.validateRepos_spec hnames
  obtain rfl : repos = names :=
    List.map_injective_iff.2 (fun _ _ hs => Json.str.inj hs) (Json.arr.inj hsame)
  split_ifs at hrest with hbad
  · cases hrest
  · simp only [not_or, not_le, not_lt] at hbad
    cases hrest
    exact {
      id := textField_that hid
      payer := textField_that hpayer
      payTo := textField_that hpayTo
      repos := hnames
      unitPriceAtomic := field_integer hprice
      count := field_integer hcount
      intervalSeconds := field_integer hinterval
      firstExecutionAt := textField_that hfirst
      maxTotalAtomic := field_integer hmost
      differ := hbad.1
      total := hbad.2.2.1 }

theorem mapM_asStr (l : List JsString) : (l.map Json.str).mapM asStr = some l := by
  induction l with
  | nil => rfl
  | cons s l ih =>
    rw [List.map_cons, List.mapM_cons, ih]
    rfl

/-- Reading a valid plan again changes nothing. -/
theorem SchedulePlan.Valid.readPlan (h : p.Valid C) : readPlan C p.json = .ok p := by
  obtain ⟨-, hlength, -, -⟩ := Runs.Evidence.validateRepos_spec h.repos
  have hthat : ∀ {f : JsString → Bool} {s : JsString}, f s = true → textThat f s = some s :=
    fun hs => if_pos hs
  have htexts : textsIn (.arr (p.repos.map .str)) = some p.repos := by
    rw [textsIn, List.length_map, if_pos hlength, mapM_asStr]
  simp [Schedules.readPlan, SchedulePlan.json, bind, Except.bind, pure, Except.pure, strictFields,
    textField, field, Json.get, asStr, hthat h.id, hthat h.payer, hthat h.payTo,
    hthat h.firstExecutionAt, htexts, integerIn_num h.unitPriceAtomic, integerIn_num h.count,
    integerIn_num h.intervalSeconds, integerIn_num h.maxTotalAtomic]

/-- A valid plan is accepted again, when its times may be past. -/
theorem SchedulePlan.Valid.validate (h : p.Valid C) (now : ℤ) :
    validateSchedulePlan C p.json now true = .ok p := by
  have htotal := h.total
  have hmost := h.maxTotalAtomic.2
  have hfits : ¬ (p.payer = p.payTo ∨ 2 ^ 53 ≤ p.total ∨ p.maxTotalAtomic < p.total ∨
      p.inTime C now true = false) := by
    rintro (hsame | hlarge | hmore | htime)
    · exact h.differ hsame
    · omega
    · omega
    · cases htime
  simp only [validateSchedulePlan, bind_eq_ok]
  refine ⟨p, h.readPlan, p.repos, h.repos, ?_⟩
  exact if_neg hfits

/-- The rounds of a plan together. -/
theorem SchedulePlan.sum_amount (p : SchedulePlan) :
    ((List.range p.count).map fun _ => p.amount).sum = p.total := by
  rw [List.map_const', List.length_range, List.sum_replicate_nat, Nat.mul_comm]
  rfl

/-! ### Memos and fingerprints -/

/-- A hash of finite values tells the value. -/
theorem jsonHash_inj (hsha : Function.Injective C.sha.digest) {x y : Json} (hx : x.finite = true)
    (hy : y.finite = true) (h : jsonHash C x = jsonHash C y) : x = y := by
  have htext := JsString.utf8_inj (wellFormed_stringify _) (wellFormed_stringify _) (hsha h)
  have hends : Ends [] := fun c hc => by cases hc
  exact (stringify_inj x hx hy hends hends (by simpa using htext)).1

/-- The memo of a round. -/
def memoText (C : Context) (p : SchedulePlan) (round : ℚ) : JsString :=
  js "obolos:" ++ jsonHash C (memoFields p round)

/-- A memo is computed for the rounds of an accepted plan. -/
theorem scheduleMemo_ok {round : ℚ} {memo : JsString} : scheduleMemo C p round = .ok memo ↔
    (∃ p', validateSchedulePlan C p.json 0 true = .ok p' ∧
      (round.den = 1 ∧ 0 ≤ round ∧ round < p'.count) ∧ memo = memoText C p' round) := by
  simp only [scheduleMemo, bind_eq_ok]
  constructor
  · rintro ⟨p', hp', h⟩
    split_ifs at h with hround
    · cases h
    · simp only [not_or, not_not, not_lt, not_le] at hround
      cases h
      exact ⟨p', hp', hround, rfl⟩
  · rintro ⟨p', hp', hround, rfl⟩
    refine ⟨p', hp', ?_⟩
    rw [if_neg]
    · rfl
    · simp only [not_or, not_not, not_lt, not_le]
      exact hround

theorem SchedulePlan.Valid.memo (h : p.Valid C) {i : ℕ} (hi : i < p.count) :
    scheduleMemo C p i = .ok (memoText C p i) :=
  scheduleMemo_ok.2 ⟨p, h.validate 0, ⟨Rat.den_natCast i, Nat.cast_nonneg i, Nat.cast_lt.2 hi⟩, rfl⟩

theorem finite_texts_arr (l : List JsString) : finiteItems (l.map .str) = true := by
  induction l with
  | nil => rfl
  | cons s l ih => simpa [finiteItems, finite] using ih

theorem texts_inj {l l' : List JsString} (h : l.map Json.str = l'.map Json.str) : l = l' :=
  List.map_injective_iff.2 (fun _ _ hs => Json.str.inj hs) h

theorem memoText_inj (hsha : Function.Injective C.sha.digest) {i j : ℚ}
    (h : memoText C p i = memoText C q j) : p = q ∧ i = j := by
  have hfinite : ∀ (p : SchedulePlan) (i : ℚ), (memoFields p i).finite = true := fun p i => by
    simp [memoFields, finite, finiteItems, finite_texts_arr]
  have hsame := jsonHash_inj hsha (hfinite p i) (hfinite q j) (List.append_cancel_left h)
  obtain ⟨id, payer, payTo, repos, price, count, interval, first, most⟩ := p
  obtain ⟨id', payer', payTo', repos', price', count', interval', first', most'⟩ := q
  simp only [memoFields, Json.arr.injEq, List.cons.injEq, Json.str.injEq, Json.num.injEq,
    Nat.cast_inj, and_true] at hsame
  obtain ⟨rfl, rfl, rfl, hrepos, rfl, rfl, rfl, rfl, rfl, rfl⟩ := hsame
  exact ⟨by rw [texts_inj hrepos], rfl⟩

/-- A memo is the memo of one round of one plan. -/
theorem scheduleMemo_inj (hsha : Function.Injective C.sha.digest) (hp : p.Valid C)
    (hq : q.Valid C) {i j : ℚ} {memo : JsString} (h : scheduleMemo C p i = .ok memo)
    (h' : scheduleMemo C q j = .ok memo) : p = q ∧ i = j := by
  obtain ⟨p', hp', -, rfl⟩ := scheduleMemo_ok.1 h
  obtain ⟨q', hq', -, hsame⟩ := scheduleMemo_ok.1 h'
  obtain rfl := Except.ok.inj ((hp.validate 0).symm.trans hp')
  obtain rfl := Except.ok.inj ((hq.validate 0).symm.trans hq')
  exact memoText_inj hsha hsame

/-! ### Proofs of payment -/

theorem strictEq_text {x : Option Json} {s : JsString}
    (h : Circle.strictEq x (some (.str s)) = true) : x = some (.str s) := by
  unfold Circle.strictEq at h
  split at h <;> simp_all

/-- What a schedule that is a proof says. -/
theorem validateScheduledProof_memo {schedule value : Json} {round : ℚ} {scheduleId : JsString}
    (h : validateScheduledProof C schedule value p round scheduleId = .ok ()) :
    ∃ memo, scheduleMemo C p round = .ok memo ∧ schedule.prop "memo" = some (.str memo) ∧
      schedule.prop "schedule_id" = some (.str scheduleId) := by
  unfold validateScheduledProof at h
  by_cases hid : isAccount scheduleId = false
  · rw [if_pos hid] at h
    cases h
  · rw [if_neg hid] at h
    simp only [bind_eq_ok] at h
    obtain ⟨_, -, memo, hmemo, h⟩ := h
    split_ifs at h with hexecuted
    · cases h
    · rw [Bool.not_eq_false] at hexecuted
      simp only [isExecuted, Bool.and_eq_true] at hexecuted
      obtain ⟨⟨⟨⟨⟨⟨⟨hschedule, -⟩, -⟩, -⟩, -⟩, -⟩, -⟩, hsame⟩ := hexecuted
      exact ⟨memo, hmemo, strictEq_text hsame, strictEq_text hschedule⟩

/-- A schedule is a proof for one round of one plan. -/
theorem validateScheduledProof_once (hsha : Function.Injective C.sha.digest) (hp : p.Valid C)
    (hq : q.Valid C) {schedule value value' : Json} {i j : ℚ} {id id' : JsString}
    (h : validateScheduledProof C schedule value p i id = .ok ())
    (h' : validateScheduledProof C schedule value' q j id' = .ok ()) :
    p = q ∧ i = j ∧ id = id' := by
  obtain ⟨memo, hmemo, hfield, hid⟩ := validateScheduledProof_memo h
  obtain ⟨memo', hmemo', hfield', hid'⟩ := validateScheduledProof_memo h'
  obtain rfl : memo = memo' := by simpa using hfield.symm.trans hfield'
  obtain ⟨hplan, hround⟩ := scheduleMemo_inj hsha hp hq hmemo hmemo'
  exact ⟨hplan, hround, by simpa using hid.symm.trans hid'⟩

end Schedules

end Obolos
