import Obolos.Contracts.PolicyAccounting
import Obolos.Limiter.Anchored

/-!
# Spending windows and delays of `ObolosPolicyEnvelope`

`_consumeWindow` is an anchored limiter (`accepts_of_consumeWindow`), so the general bounds of
`Anchored` apply to the window of every agent and of every category, over any segment of a run in
which its cap and length stay the same.  The delay of a category separates the spend it is
charged to from *every* earlier spend of the same category or the same agent.
-/

namespace Obolos

namespace ObolosPolicyEnvelope

variable {Sig : Type} {K : Keccak} {Z : OpenZeppelin Sig} {P : Params} {m : Msg} {s s' : State}

/-- What the limiter remembers of a window. -/
def Window.memory (w : Window) : Anchored.Memory := ⟨w.start, w.spent⟩

@[simp] theorem Window.memory_start (w : Window) : w.memory.start = w.start := rfl

section Window

variable {now amount cap seconds delay : ℕ} {w w' : Window}

theorem checkDelay_ok {u : Unit} : checkDelay now w delay = .ok u ↔
    w.last = 0 ∨ (w.last + delay < 2 ^ 256 ∧ w.last + delay ≤ now) := by
  unfold checkDelay
  by_cases h : w.last = 0 <;> simp [h]

theorem rollWindow_ok : rollWindow now w seconds = .ok w' →
    w' = w ∧ w.start ≠ 0 ∧ now < w.start + seconds ∨
      w' = { w with start := now, spent := 0 } ∧ (w.start = 0 ∨ w.start + seconds ≤ now) := by
  unfold rollWindow
  by_cases h : w.start = 0
  · simp only [h, ↓reduceIte, Except.ok.injEq]
    rintro rfl; exact Or.inr ⟨rfl, Or.inl trivial⟩
  · simp only [h, ↓reduceIte, bind_eq_ok, addU_eq_ok, pure_eq_ok]
    rintro ⟨_, ⟨-, rfl⟩, rfl⟩
    by_cases hn : w.start + seconds ≤ now
    · exact Or.inr ⟨by simp [hn], Or.inr hn⟩
    · exact Or.inl ⟨by simp [hn], h, by omega⟩

/-- What a successful `_consumeWindow` did: it waited for the delay, it stamped the time, and the
limiter accepted the amount. -/
theorem accepts_of_consumeWindow (h : consumeWindow now w amount cap seconds delay = .ok w') :
    (w.last = 0 ∨ w.last + delay ≤ now) ∧ w'.last = now ∧
      Anchored.Accepts cap seconds w.memory now amount w'.memory := by
  simp only [consumeWindow, bind_eq_ok, checkDelay_ok, addU_eq_ok, revertIf_eq_ok, pure_eq_ok] at h
  obtain ⟨-, hd, v, hr, _, ⟨-, rfl⟩, -, hc, rfl⟩ := h
  refine ⟨hd.imp id And.right, rfl, ?_⟩
  rcases rollWindow_ok hr with ⟨rfl, h₁, h₂⟩ | ⟨rfl, h₁⟩
  · exact .inside h₁ h₂ (by simp [Window.memory]; omega)
  · simp only [Window.memory, Nat.zero_add]
    exact .fresh h₁ (by simpa using hc)

end Window

/-! ### The spends counted in one window -/

section Counted

/-- A window of the storage with its configuration, and the spends charged to it: the window of
an agent or of a category. -/
structure Meter where
  /-- The window. -/
  window : State → Window
  /-- Its cap. -/
  cap : State → ℕ
  /-- Its length. -/
  seconds : State → ℕ
  /-- The spends it counts. -/
  counts : Spend → Bool

/-- The window of agent `id`. -/
def agentMeter (id : Bytes32) : Meter where
  window s := s.agentWindows id
  cap s := (s.agents id).windowCap
  seconds s := (s.agents id).windowSeconds
  counts x := x.agentId = id

/-- The window of category `k`. -/
def categoryMeter (k : ℕ) : Meter where
  window s := s.categoryWindows k
  cap s := (s.categories k).windowCap
  seconds s := (s.categories k).windowSeconds
  counts x := x.category = k

/-- The spends of a run counted by a meter: their times and amounts, and the start of the window
right after each. -/
def Meter.spends (M : Meter) (τ : List (Tr World (Tx Sig))) : List Anchored.Spend :=
  τ.filterMap fun e => (e.lab.spend?.filter M.counts).map fun x =>
    ⟨e.lab.msg.timestamp, x.amount, (M.window e.post.state).start⟩

/-- A meter follows the contract: a spend it counts goes through `_consumeWindow` with the
meter's configuration (and a positive length), everything else leaves its window alone, and its
window never starts in the future. -/
structure Meter.Follows (M : Meter) (K : Keccak) (Z : OpenZeppelin Sig) (P : Params) : Prop where
  counted : ∀ {w tx w' x}, (∀ id, AgentOk (w.state.agents id)) →
    (∀ k, (w.state.categories k).enabled = true → (w.state.categories k).windowSeconds ≠ 0) →
    (lts K Z P).step w tx w' → tx.spend? = some x → M.counts x = true →
      M.seconds w.state ≠ 0 ∧ consumeWindow tx.msg.timestamp (M.window w.state) x.amount
        (M.cap w.state) (M.seconds w.state) (w.state.categories x.category).delaySeconds =
          .ok (M.window w'.state)
  others : ∀ {w tx w'}, (lts K Z P).step w tx w' → (∀ x, tx.spend? = some x → M.counts x = false) →
    M.window w'.state = M.window w.state
  start : (M.window init).start = 0

/-- An enabled category has a window of positive length. -/
theorem categorySeconds_run {τ : List (Tr World (Tx Sig))} {w : World}
    (h : (lts K Z P).Run World.init τ w) (k : ℕ) (hk : (w.state.categories k).enabled = true) :
    (w.state.categories k).windowSeconds ≠ 0 := by
  refine run_invariant (I := fun s => ∀ k, (s.categories k).enabled = true →
    (s.categories k).windowSeconds ≠ 0) h (fun k hk => by simp [World.init, init] at hk) ?_ k hk
  intro m s c s' hI hc k hk
  cases hc with
  | setCategory range seconds approved =>
    simp only [Function.update_apply] at hk ⊢
    split_ifs at hk ⊢
    · exact seconds
    · exact hI k hk
  | _ => exact hI k hk

theorem agentMeter_follows (id : Bytes32) : (agentMeter id).Follows K Z P where
  counted := by
    intro w tx w' x ha _ hst hx hid
    obtain rfl : x.agentId = id := by simpa [agentMeter] using hid
    obtain ⟨hp, wa, wc, hwa, -, he⟩ := step_spend hst hx
    refine ⟨(ha x.agentId).seconds hp.active, ?_⟩
    simp only [agentMeter, he, spend, Function.update_self]
    exact hwa
  others := by
    intro w tx w' hst hno
    rcases step_cases hst with ⟨hs, hc⟩ | ⟨-, he⟩
    · generalize hw : w'.state = s' at hc
      cases htx : tx.call with
      | consume x =>
        rw [htx] at hc
        have hne := hno x (spend?_eq_some.2 ⟨htx, hs⟩)
        cases hc
        simp only [agentMeter, decide_eq_false_iff_not] at hne
        simp [agentMeter, spend, Function.update_of_ne (Ne.symm hne)]
      | _ => rw [htx] at hc; cases hc; rfl
    · rw [he]
  start := rfl

theorem categoryMeter_follows (k : ℕ) : (categoryMeter k).Follows K Z P where
  counted := by
    intro w tx w' x _ hk hst hx hid
    obtain rfl : x.category = k := by simpa [categoryMeter] using hid
    obtain ⟨hp, wa, wc, -, hwc, he⟩ := step_spend hst hx
    refine ⟨hk _ hp.category, ?_⟩
    simp only [categoryMeter, he, spend, Function.update_self]
    exact hwc
  others := by
    intro w tx w' hst hno
    rcases step_cases hst with ⟨hs, hc⟩ | ⟨-, he⟩
    · generalize hw : w'.state = s' at hc
      cases htx : tx.call with
      | consume x =>
        rw [htx] at hc
        have hne := hno x (spend?_eq_some.2 ⟨htx, hs⟩)
        cases hc
        simp only [categoryMeter, decide_eq_false_iff_not] at hne
        simp [categoryMeter, spend, Function.update_of_ne (Ne.symm hne)]
      | _ => rw [htx] at hc; cases hc; rfl
    · rw [he]
  start := rfl

variable {M : Meter} {w₁ w₂ : World} {τ₁ τ₂ : List (Tr World (Tx Sig))}

/-- A transition is either counted by the meter or leaves its window alone. -/
theorem Meter.Follows.cases (hM : M.Follows K Z P) {w w' : World} {tx : Tx Sig}
    {τ : List (Tr World (Tx Sig))} (h : (lts K Z P).Run World.init τ w)
    (hst : (lts K Z P).step w tx w') :
    (∃ x, tx.spend? = some x ∧ M.counts x = true ∧ M.seconds w.state ≠ 0 ∧
      consumeWindow tx.msg.timestamp (M.window w.state) x.amount (M.cap w.state)
        (M.seconds w.state) (w.state.categories x.category).delaySeconds =
          .ok (M.window w'.state)) ∨
    (tx.spend?.filter M.counts = none ∧ M.window w'.state = M.window w.state) := by
  by_cases hx : ∃ x, tx.spend? = some x ∧ M.counts x = true
  · obtain ⟨x, hx, hc⟩ := hx
    obtain ⟨h₁, h₂⟩ := hM.counted (agentOk_run h) (categorySeconds_run h) hst hx hc
    exact Or.inl ⟨x, hx, hc, h₁, h₂⟩
  · have hno : ∀ x, tx.spend? = some x → M.counts x = false := fun x hx' => by
      by_contra hc
      exact hx ⟨x, hx', by simpa using hc⟩
    refine Or.inr ⟨?_, hM.others hst hno⟩
    cases hs : tx.spend? with
    | none => rfl
    | some x => simp [Option.filter, hno x hs]

/-- The window of a meter never starts in the future. -/
theorem Meter.Follows.start_le (hM : M.Follows K Z P) {w : World} {τ : List (Tr World (Tx Sig))}
    (h : (lts K Z P).Run World.init τ w) : (M.window w.state).start ≤ w.now := by
  induction h with
  | nil => exact hM.start.le
  | snoc h hst ih =>
    obtain ⟨ht, hnow⟩ := step_time hst
    rcases hM.cases h hst with ⟨x, -, -, -, hw⟩ | ⟨-, he⟩
    · obtain ⟨-, -, ha⟩ := accepts_of_consumeWindow hw
      rw [hnow]
      exact ha.start_le (ih.trans ht)
    · rw [he]; omega

/-- Over a segment in which the configuration of a meter stays the same, the spends it counts
are a chain of an anchored limiter. -/
theorem Meter.Follows.chain (hM : M.Follows K Z P) {C S : ℕ}
    (h₁ : (lts K Z P).Run World.init τ₁ w₁) (h₂ : (lts K Z P).Run w₁ τ₂ w₂)
    (hcfg : ∀ e ∈ τ₂, M.cap e.pre.state = C ∧ M.seconds e.pre.state = S) :
    Anchored.Chain C S (M.window w₁.state).memory (M.spends τ₂) (M.window w₂.state).memory := by
  induction h₂ with
  | nil => exact .nil
  | @snoc t u τ tx h₂ hst ih =>
    have hrun := h₁.append h₂
    have ih := ih fun e he => hcfg e (List.mem_append_left _ he)
    obtain ⟨hC, hS⟩ := hcfg ⟨t, tx, u⟩ (by simp)
    simp only [Meter.spends, List.filterMap_append] at ih ⊢
    rcases hM.cases hrun hst with ⟨x, hx, hc, -, hw⟩ | ⟨hnone, he⟩
    · obtain ⟨-, -, ha⟩ := accepts_of_consumeWindow hw
      rw [hC, hS] at ha
      have := ih.snoc tx.msg.timestamp_pos
        ((hM.start_le hrun).trans (step_time hst).1) ha
      simpa [hx, hc, Option.filter] using this
    · simpa [hnone, he] using ih

/-- A meter that counted a spend has a window of positive length. -/
theorem Meter.Follows.seconds_pos (hM : M.Follows K Z P) {C S : ℕ}
    (h₁ : (lts K Z P).Run World.init τ₁ w₁) (h₂ : (lts K Z P).Run w₁ τ₂ w₂)
    (hcfg : ∀ e ∈ τ₂, M.cap e.pre.state = C ∧ M.seconds e.pre.state = S)
    (hne : M.spends τ₂ ≠ []) : 0 < S := by
  obtain ⟨p, hp⟩ := List.exists_mem_of_ne_nil _ hne
  obtain ⟨e, he, hpe⟩ := List.mem_filterMap.1 hp
  obtain ⟨σ₁, σ₂, rfl⟩ := List.append_of_mem he
  obtain ⟨h₃, hst, -⟩ := h₂.split_at
  rcases hM.cases (h₁.append h₃) hst with ⟨x, -, -, hS, -⟩ | ⟨hnone, -⟩
  · have := (hcfg e he).2; omega
  · simp [hnone] at hpe

/-- The two bounds of an anchored limiter, for a meter. -/
theorem Meter.Follows.bounds (hM : M.Follows K Z P) {C S : ℕ}
    (h₁ : (lts K Z P).Run World.init τ₁ w₁) (h₂ : (lts K Z P).Run w₁ τ₂ w₂)
    (hcfg : ∀ e ∈ τ₂, M.cap e.pre.state = C ∧ M.seconds e.pre.state = S) :
    (∀ a, Anchored.total ((M.spends τ₂).filter fun p => a ≤ p.time ∧ p.time < a + S) ≤ 2 * C) ∧
      ∀ x, Anchored.total ((M.spends τ₂).filter fun p => p.start = x) ≤ C := by
  by_cases hne : M.spends τ₂ = []
  · simp [hne]
  · have hS := hM.seconds_pos h₁ h₂ hcfg hne
    have hch := hM.chain h₁ h₂ hcfg
    exact ⟨hch.total_interval_le hS, hch.total_start_le hS⟩

end Counted

/-! ### Delays -/

theorem time_le_now {w₁ w₂ : World} {τ : List (Tr World (Tx Sig))} {e : Tr World (Tx Sig)}
    (h : (lts K Z P).Run w₁ τ w₂) (he : e ∈ τ) : e.lab.msg.timestamp ≤ w₂.now := by
  obtain ⟨σ₁, σ₂, rfl⟩ := List.append_of_mem he
  obtain ⟨-, hst, h₂⟩ := h.split_at
  have := now_le h₂
  have := step_time hst
  omega

/-- The `last` stamp of a meter is not older than any spend it counted. -/
theorem Meter.Follows.time_le_last {M : Meter} (hM : M.Follows K Z P) {w : World}
    {τ : List (Tr World (Tx Sig))} (h : (lts K Z P).Run World.init τ w) {e : Tr World (Tx Sig)}
    {x : Spend} (he : e ∈ τ) (hx : e.lab.spend? = some x) (hc : M.counts x = true) :
    e.lab.msg.timestamp ≤ (M.window w.state).last := by
  induction h with
  | nil => cases he
  | @snoc t u τ tx h hst ih =>
    have ht := step_time hst
    rcases List.mem_append.1 he with he | he
    · rcases hM.cases h hst with ⟨y, -, -, -, hw⟩ | ⟨-, hwin⟩
      · rw [(accepts_of_consumeWindow hw).2.1]
        exact (time_le_now h he).trans ht.1
      · rw [hwin]; exact ih he
    · obtain rfl := List.mem_singleton.1 he
      rcases hM.cases h hst with ⟨y, -, -, -, hw⟩ | ⟨hnone, -⟩
      · exact (accepts_of_consumeWindow hw).2.1.ge
      · change tx.spend? = some x at hx
        simp [hx, hc, Option.filter] at hnone

/-- The delay of the later spend's category separates it from every earlier spend that a meter
counts together with it. -/
theorem Meter.Follows.delay {M : Meter} (hM : M.Follows K Z P) {w : World}
    {σ₁ σ₂ σ₃ : List (Tr World (Tx Sig))} {e e' : Tr World (Tx Sig)} {x y : Spend}
    (h : (lts K Z P).Run World.init (σ₁ ++ e :: (σ₂ ++ e' :: σ₃)) w)
    (hx : e.lab.spend? = some x) (hy : e'.lab.spend? = some y) (hcx : M.counts x = true)
    (hcy : M.counts y = true) :
    e.lab.msg.timestamp + (e'.pre.state.categories y.category).delaySeconds ≤
      e'.lab.msg.timestamp := by
  have h' : (lts K Z P).Run World.init ((σ₁ ++ e :: σ₂) ++ e' :: σ₃) w := by simpa using h
  obtain ⟨h₁, hst, -⟩ := h'.split_at
  have hlast := hM.time_le_last h₁ (e := e) (by simp) hx hcx
  have hpos := e.lab.msg.timestamp_pos
  rcases hM.cases h₁ hst with ⟨z, hz, -, -, hw⟩ | ⟨hnone, -⟩
  · obtain rfl : y = z := by simpa [hy] using hz
    rcases (accepts_of_consumeWindow hw).1 with h₀ | h₀ <;> omega
  · simp [hy, hcy, Option.filter] at hnone

/-- **Windows and delays.**  In every run, over every segment in which the window cap `C` and the
window length `S` of an agent (or of a category) stay the same, its successful spends inside any
half-open interval of length `S` sum to at most `2 * C`, and those counted in one window to at
most `C`.  Any two successful spends of the same category, or of the same agent, are separated by
the delay in force for the category of the later one. -/
theorem window_bounds {τ₁ τ₂ : List (Tr World (Tx Sig))} {w₁ w₂ : World}
    (h₁ : (lts K Z P).Run World.init τ₁ w₁) (h₂ : (lts K Z P).Run w₁ τ₂ w₂) :
    (∀ id C S, (∀ e ∈ τ₂, (e.pre.state.agents id).windowCap = C ∧
        (e.pre.state.agents id).windowSeconds = S) →
      (∀ a, Anchored.total (((agentMeter id).spends τ₂).filter fun p =>
        a ≤ p.time ∧ p.time < a + S) ≤ 2 * C) ∧
      ∀ x, Anchored.total (((agentMeter id).spends τ₂).filter fun p => p.start = x) ≤ C) ∧
    (∀ k C S, (∀ e ∈ τ₂, (e.pre.state.categories k).windowCap = C ∧
        (e.pre.state.categories k).windowSeconds = S) →
      (∀ a, Anchored.total (((categoryMeter k).spends τ₂).filter fun p =>
        a ≤ p.time ∧ p.time < a + S) ≤ 2 * C) ∧
      ∀ x, Anchored.total (((categoryMeter k).spends τ₂).filter fun p => p.start = x) ≤ C) ∧
    ∀ σ₁ e σ₂ e' σ₃ x y, τ₁ ++ τ₂ = σ₁ ++ e :: (σ₂ ++ e' :: σ₃) → e.lab.spend? = some x →
      e'.lab.spend? = some y → (x.category = y.category ∨ x.agentId = y.agentId) →
        e.lab.msg.timestamp + (e'.pre.state.categories y.category).delaySeconds ≤
          e'.lab.msg.timestamp := by
  refine ⟨fun id C S hcfg => (agentMeter_follows id).bounds h₁ h₂ hcfg,
    fun k C S hcfg => (categoryMeter_follows k).bounds h₁ h₂ hcfg, ?_⟩
  intro σ₁ e σ₂ e' σ₃ x y hτ hx hy hsame
  have h := h₁.append h₂
  rw [hτ] at h
  rcases hsame with hk | hid
  · exact (categoryMeter_follows y.category).delay h hx hy (by simp [categoryMeter, hk])
      (by simp [categoryMeter])
  · exact (agentMeter_follows y.agentId).delay h hx hy (by simp [agentMeter, hid])
      (by simp [agentMeter])

/-- The bounds over the two spends that follow the setup: both fall in one window of agent `9`,
and their sum is under its cap of `120`. -/
theorem window_bounds_spending :
    (agentMeter 9).spends (Demo.run (Demo.run World.init Demo.setup).2 Demo.spending).1 =
      [⟨3, 60, 3⟩, ⟨5, 50, 3⟩] ∧
    Anchored.total (((agentMeter 9).spends
      (Demo.run (Demo.run World.init Demo.setup).2 Demo.spending).1).filter fun p =>
        p.start = 3) ≤ 120 := by
  have h := window_bounds (K := Demo.keccak) (Z := Demo.openZeppelin) (P := Demo.params)
    (play_run World.init Demo.setup (by decide +kernel))
    (play_run (Demo.run World.init Demo.setup).2 Demo.spending (by decide +kernel))
  exact ⟨by decide +kernel, (h.1 9 120 3600 (by decide +kernel)).2 3⟩

end ObolosPolicyEnvelope

end Obolos
