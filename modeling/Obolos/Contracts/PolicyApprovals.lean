import Obolos.Contracts.PolicySteps
import Mathlib.Data.Set.Function
import Mathlib.Data.List.Pairwise

/-!
# Signed approvals of `ObolosPolicyEnvelope`

Four kinds of change need a signature of the approver over the change, an observation, the
current nonce and a deadline.  No two changes share an encoding (`Action.encode_inj`), so with
collision-free hashes a digest names one approval (`CollisionFree.digest_injOn`); and every
approval, like every pause, uses up the nonce (`nonce_change`).

`approvals` : what a signature can authorize, in any order of presenting signatures collected in
advance.
-/

namespace Obolos

namespace ObolosPolicyEnvelope

variable {Sig : Type} {K : Keccak} {Z : OpenZeppelin Sig} {P : Params} {m : Msg} {s s' : State}
  {c : Call Sig}

/-- The encodings of two different changes differ, also across the four kinds. -/
theorem Action.encode_inj {a b : Action} (h : a.encode = b.encode) : a = b := by
  cases a <;> cases b <;> obtain ⟨htag, hvalues⟩ := encodeTagged_inj h
  case category.category id v id' v' =>
    simp only [List.cons.injEq, and_true] at hvalues
    obtain ⟨h₁, h₂, h₃, h₄, h₅, h₆⟩ := hvalues
    cases v; cases v'
    simp only at h₂ h₃ h₄ h₅ h₆
    simp [h₁, boolWord_inj h₂, h₃, h₄, h₅, h₆]
  case fees.fees => simpa using hvalues
  case resume.resume => rfl
  case executorOwner.executorOwner => simpa [BitVec.toNat_inj] using hvalues
  -- Different kinds: the number of values or the length of the text differs.
  case fees.executorOwner => exact absurd htag (by decide)
  case executorOwner.fees => exact absurd htag (by decide)
  all_goals simp at hvalues

/-- What the approver signs. -/
structure Approval where
  action : Action
  observation : Bytes32
  nonce : ℕ
  deadline : ℕ
  deriving DecidableEq

section

variable (K Z)

/-- The words whose hash is the struct hash of the approval. -/
def Approval.words (a : Approval) : List ℕ :=
  approvalWords K (K.words a.action.encode) a.observation a.nonce a.deadline

/-- The digest of an approval. -/
def Approval.digest (a : Approval) : Bytes32 :=
  approvalDigest K Z (K.words a.action.encode) a.observation a.nonce a.deadline

/-- The hashes have no collision among the approvals that are used. -/
structure CollisionFree (used : Set Approval) : Prop where
  actions : Set.InjOn K.words ((fun a => a.action.encode) '' used)
  words : Set.InjOn K.words (Approval.words K '' used)
  typed : Set.InjOn Z.hashTypedDataV4 ((fun a => K.words (a.words K)) '' used)
  message : Set.InjOn Z.toEthSignedMessageHash (Approval.digest K Z '' used)

end

/-- A digest names one approval. -/
theorem CollisionFree.digest_injOn {used : Set Approval} (h : CollisionFree K Z used) :
    Set.InjOn (Approval.digest K Z) used := by
  intro a ha b hb hab
  have hwords : a.words K = b.words K :=
    h.words (Set.mem_image_of_mem _ ha) (Set.mem_image_of_mem _ hb)
      (h.typed (Set.mem_image_of_mem _ ha) (Set.mem_image_of_mem _ hb) hab)
  simp only [Approval.words, approvalWords, List.cons.injEq, BitVec.toNat_inj, true_and,
    and_true] at hwords
  obtain ⟨haction, hobs, hnonce, hdeadline⟩ := hwords
  have := Action.encode_inj
    (h.actions (Set.mem_image_of_mem _ ha) (Set.mem_image_of_mem _ hb) haction)
  cases a; cases b
  simp_all

/-! ### Calls that use the nonce -/

/-- The change, the observation, the deadline and the signature a call presents. -/
def Call.presents? : Call Sig → Option (Action × Bytes32 × ℕ × Sig)
  | .setCategory id value observation deadline signature =>
      some (.category id value, observation, deadline, signature)
  | .setFees reserve review observation deadline signature =>
      some (.fees reserve review, observation, deadline, signature)
  | .resume observation deadline signature => some (.resume, observation, deadline, signature)
  | .bindExecutor executor owner observation deadline signature =>
      some (.executorOwner executor owner, observation, deadline, signature)
  | _ => none

/-- A call is an `emergencyPause`. -/
def Call.isPause : Call Sig → Bool
  | .emergencyPause _ => true
  | _ => false

/-- The calls that use up the nonce: those that present a signature, and the pauses. -/
def Call.advances (c : Call Sig) : Bool := c.presents?.isSome || c.isPause

/-- The nonce counts the successful calls that use it. -/
theorem nonce_change (hc : Change K Z P m s c s') :
    s'.approvalNonce = s.approvalNonce + if c.advances then 1 else 0 := by
  cases hc <;> rfl

/-- A call that presents a signature succeeds only if the signature is good. -/
theorem approved_of_change (hc : Change K Z P m s c s') {a : Action} {observation : Bytes32}
    {deadline : ℕ} {signature : Sig}
    (hp : c.presents? = some (a, observation, deadline, signature)) :
    Approved K Z P m a observation deadline signature s.approvalNonce := by
  cases hc with
  | setCategory _ _ approved | setFees _ approved | resume approved
  | bindExecutor _ _ _ approved =>
    simp only [Call.presents?, Option.some.injEq, Prod.mk.injEq] at hp
    obtain ⟨rfl, rfl, rfl, rfl⟩ := hp
    exact approved
  | _ => simp [Call.presents?] at hp

/-- Only a `resume` enables the market. -/
theorem enabled_change (hc : Change K Z P m s c s') (h : s'.marketEnabled = true) :
    s.marketEnabled = true ∨
      ∃ observation deadline signature, c = .resume observation deadline signature := by
  cases hc with
  | resume approved => exact Or.inr ⟨_, _, _, rfl⟩
  | emergencyPause sender => exact absurd h (by simp)
  | _ => exact Or.inl h

/-- The owner an executor is bound to never changes. -/
theorem executorOwners_change (hc : Change K Z P m s c s') {x : Address}
    (h : s.executorOwners x ≠ 0) : s'.executorOwners x = s.executorOwners x := by
  cases hc with
  | @bindExecutor executor _ _ _ _ _ _ unbound _ =>
    have hne : x ≠ executor := fun he => h (he ▸ unbound)
    exact Function.update_of_ne hne _ _
  | _ => rfl

section Runs

variable {τ σ : List (Tr World (Tx Sig))} {e : Tr World (Tx Sig)} {w u v : World}

/-- The approval, and the signature for it, that a transition presents. -/
def presented (e : Tr World (Tx Sig)) : Option (Approval × Sig) :=
  e.lab.call.presents?.map fun x => (⟨x.1, x.2.1, e.pre.state.approvalNonce, x.2.2.1⟩, x.2.2.2)

/-- The approval under which a transition succeeded. -/
def approval? (e : Tr World (Tx Sig)) : Option Approval :=
  if e.lab.success then (presented e).map Prod.fst else none

/-- A pause succeeded. -/
def paused (e : Tr World (Tx Sig)) : Bool := e.lab.success && e.lab.call.isPause

theorem approval?_eq_some {a : Approval} :
    approval? e = some a ↔
      e.lab.success = true ∧ a.nonce = e.pre.state.approvalNonce ∧
        ∃ signature, e.lab.call.presents? =
          some (a.action, a.observation, a.deadline, signature) := by
  simp only [approval?, presented]
  split_ifs with hs
  · constructor
    · intro h
      simp only [Option.map_map, Option.map_eq_some_iff] at h
      obtain ⟨⟨action, observation, deadline, signature⟩, hx, rfl⟩ := h
      exact ⟨hs, rfl, signature, hx⟩
    · rintro ⟨-, hn, signature, hx⟩
      simp [hx, ← hn]
  · simp [hs]

theorem nonce_le (h : (lts K Z P).Run u σ v) : u.state.approvalNonce ≤ v.state.approvalNonce := by
  refine h.rel (I := fun _ => True)
    (R := fun u v => u.state.approvalNonce ≤ v.state.approvalNonce)
    trivial (fun _ _ _ _ _ => trivial) (fun _ => le_rfl) (fun _ _ _ => le_trans)
    fun w tx w' _ hst => ?_
  rcases step_cases hst with ⟨-, hc⟩ | ⟨-, he⟩
  · rw [nonce_change hc]; exact Nat.le_add_right _ _
  · rw [he]

/-- A successful call that uses the nonce leaves a greater one. -/
theorem nonce_lt (h : (lts K Z P).step e.pre e.lab e.post)
    (he : (approval? e).isSome = true ∨ paused e = true) :
    e.pre.state.approvalNonce < e.post.state.approvalNonce := by
  have hadv : e.lab.success = true ∧ e.lab.call.advances = true := by
    rcases he with ha | hp
    · obtain ⟨a, ha⟩ := Option.isSome_iff_exists.1 ha
      obtain ⟨hs, -, signature, hx⟩ := approval?_eq_some.1 ha
      exact ⟨hs, by simp [Call.advances, hx]⟩
    · simp only [paused, Bool.and_eq_true] at hp
      exact ⟨hp.1, by simp [Call.advances, hp.2]⟩
  rcases step_cases h with ⟨-, hc⟩ | ⟨hf, -⟩
  · rw [nonce_change hc, hadv.2]; exact Nat.lt_succ_self _
  · rw [hadv.1] at hf; cases hf

theorem executorOwners_run (h : (lts K Z P).Run u σ v) {x : Address}
    (hx : u.state.executorOwners x ≠ 0) :
    v.state.executorOwners x = u.state.executorOwners x := by
  have key := h.invariant (I := fun v => v.state.executorOwners x = u.state.executorOwners x) rfl
    fun w tx w' hI hst => ?_
  · exact key
  · rcases step_cases hst with ⟨-, hc⟩ | ⟨-, he⟩
    · exact (executorOwners_change hc (by rwa [hI])).trans hI
    · rw [he]; exact hI

theorem closed_of_paused (h : (lts K Z P).step e.pre e.lab e.post) (he : paused e = true) :
    e.post.state.marketEnabled = false := by
  simp only [paused, Bool.and_eq_true] at he
  rcases step_cases h with ⟨-, hc⟩ | ⟨hf, -⟩
  · generalize e.lab.call = c at hc he
    generalize e.post.state = s at hc ⊢
    cases hc with
    | emergencyPause sender => rfl
    | _ => simp [Call.isPause] at he
  · rw [he.1] at hf; cases hf

/-- A market that is closed at the start of a run and open at its end was resumed in between. -/
theorem resumed (h : (lts K Z P).Run u σ v) (hu : u.state.marketEnabled = false)
    (hv : v.state.marketEnabled = true) :
    ∃ e ∈ σ, ∃ a, approval? e = some a ∧ a.action = .resume := by
  induction h with
  | nil => rw [hu] at hv; cases hv
  | @snoc t v σ tx h hst ih =>
    have hearlier : t.state.marketEnabled = true → ∃ e ∈ σ ++ [⟨t, tx, v⟩], ∃ a,
        approval? e = some a ∧ a.action = .resume := fun ht => by
      obtain ⟨e, he, ha⟩ := ih ht
      exact ⟨e, by simp [he], ha⟩
    rcases step_cases hst with ⟨hs, hc⟩ | ⟨-, he⟩
    · rcases enabled_change hc hv with ht | ⟨observation, deadline, signature, hr⟩
      · exact hearlier ht
      · refine ⟨⟨t, tx, v⟩, by simp,
          ⟨.resume, observation, t.state.approvalNonce, deadline⟩, ?_, rfl⟩
        exact approval?_eq_some.2 ⟨hs, rfl, signature, by rw [hr]; rfl⟩
    · exact hearlier (by rwa [he] at hv)

/-- An approval that succeeds names a nonce that no earlier nonce-using call has passed. -/
theorem nonce_lt_of_before {σ₁ σ₂ σ₃ : List (Tr World (Tx Sig))} {e' : Tr World (Tx Sig)}
    {a : Approval} (h : (lts K Z P).Run u (σ₁ ++ e :: (σ₂ ++ e' :: σ₃)) v)
    (he : (approval? e).isSome = true ∨ paused e = true) (ha : approval? e' = some a) :
    e.pre.state.approvalNonce < a.nonce := by
  obtain ⟨-, hst, h'⟩ := h.split_at
  obtain ⟨h₂, -, -⟩ := h'.split_at
  rw [(approval?_eq_some.1 ha).2.1]
  exact (nonce_lt hst he).trans_le (nonce_le h₂)

/-- Every approval under which a call succeeded named a nonce below the current one. -/
theorem nonce_lt_of_mem (h : (lts K Z P).Run u τ v) {a : Approval}
    (ha : a ∈ τ.filterMap approval?) : a.nonce < v.state.approvalNonce := by
  obtain ⟨e, he, hea⟩ := List.mem_filterMap.1 ha
  obtain ⟨τ₁, τ₂, rfl⟩ := List.append_of_mem he
  obtain ⟨-, hst, h₂⟩ := h.split_at
  rw [(approval?_eq_some.1 hea).2.1]
  exact (nonce_lt hst (Or.inl (by simp [hea]))).trans_le (nonce_le h₂)

/-- The successful approvals name ever greater nonces. -/
theorem nonces_pairwise (h : (lts K Z P).Run u τ v) :
    (τ.filterMap approval?).Pairwise fun a b => a.nonce < b.nonce := by
  induction h with
  | nil => simp
  | @snoc t v τ tx h hst ih =>
    rw [List.filterMap_append, List.pairwise_append]
    refine ⟨ih, by cases ha : approval? ⟨t, tx, v⟩ <;> simp [ha], fun a ha b hb => ?_⟩
    obtain ⟨e, he, hb⟩ := List.mem_filterMap.1 hb
    obtain rfl : e = ⟨t, tx, v⟩ := by simpa using he
    rw [(approval?_eq_some.1 hb).2.1]
    exact nonce_lt_of_mem h ha

/-- The approvals a run presents. -/
def presentedIn (τ : List (Tr World (Tx Sig))) : Set Approval :=
  {a | a ∈ (τ.filterMap presented).map Prod.fst}

/-- Every signature of a run that recovers to the approver is over the message hash of an
approval the approver signed. -/
def Unforged (K : Keccak) (Z : OpenZeppelin Sig) (P : Params) (signed : Set Approval)
    (τ : List (Tr World (Tx Sig))) : Prop :=
  ∀ p ∈ τ.filterMap presented,
    Z.recover (Z.toEthSignedMessageHash (p.1.digest K Z)) p.2 = some P.approver →
      ∃ b ∈ signed, Z.toEthSignedMessageHash (b.digest K Z) =
        Z.toEthSignedMessageHash (p.1.digest K Z)

variable {signed : Set Approval}

theorem mem_presentedIn {a : Approval} (he : e ∈ τ) (ha : approval? e = some a) :
    a ∈ presentedIn τ := by
  obtain ⟨-, hn, signature, hx⟩ := approval?_eq_some.1 ha
  have hp : presented e = some (a, signature) := by simp [presented, hx, ← hn]
  exact List.mem_map.2 ⟨_, List.mem_filterMap.2 ⟨e, he, hp⟩, rfl⟩

/-- What a successful call presented was signed by the approver. -/
theorem mem_signed (hfree : CollisionFree K Z (signed ∪ presentedIn τ))
    (hsig : Unforged K Z P signed τ) (h : (lts K Z P).Run u τ v) (he : e ∈ τ)
    (hs : e.lab.success = true) {a : Action} {observation : Bytes32} {deadline : ℕ}
    {signature : Sig} (hp : e.lab.call.presents? = some (a, observation, deadline, signature)) :
    Approved K Z P e.lab.msg a observation deadline signature e.pre.state.approvalNonce ∧
      (⟨a, observation, e.pre.state.approvalNonce, deadline⟩ : Approval) ∈ signed := by
  set x : Approval := ⟨a, observation, e.pre.state.approvalNonce, deadline⟩ with hx
  rcases step_cases (h.step_of_mem he) with ⟨-, hc⟩ | ⟨hf, -⟩
  · have happ := approved_of_change hc hp
    have hpres : presented e = some (x, signature) := by simp [presented, hp, hx]
    obtain ⟨b, hb, hd⟩ := hsig _ (List.mem_filterMap.2 ⟨e, he, hpres⟩) happ.2.2
    have hxu : x ∈ signed ∪ presentedIn τ :=
      Or.inr (List.mem_map.2 ⟨_, List.mem_filterMap.2 ⟨e, he, hpres⟩, rfl⟩)
    have hdigest := hfree.message (Set.mem_image_of_mem _ (Or.inl hb))
      (Set.mem_image_of_mem _ hxu) hd
    obtain rfl : b = x := hfree.digest_injOn (Or.inl hb) hxu hdigest
    exact ⟨happ, hb⟩
  · rw [hs] at hf; cases hf

/-- **Signed approvals.**  In every run, with collision-free hashes and no forged signature:

* every successful change was called by the controller, before its deadline, with a signature of
  the approver over exactly that change, the observation, the current nonce and the deadline;
* no two successful changes have the same digest;
* no change succeeds with a signed approval whose nonce another approval or a pause has passed;
* after a pause the market is enabled only through a `resume` that names a nonce the pause left
  or a later one;
* the owner an executor is bound to never changes. -/
theorem approvals (hfree : CollisionFree K Z (signed ∪ presentedIn τ))
    (hsig : Unforged K Z P signed τ) (h : (lts K Z P).Run World.init τ w) :
    (∀ e ∈ τ, e.lab.success = true → ∀ a observation deadline signature,
      e.lab.call.presents? = some (a, observation, deadline, signature) →
        e.lab.msg.sender = P.controller ∧ e.lab.msg.timestamp ≤ deadline ∧
        Z.recover (Z.toEthSignedMessageHash (approvalDigest K Z (K.words a.encode) observation
          e.pre.state.approvalNonce deadline)) signature = some P.approver ∧
        (⟨a, observation, e.pre.state.approvalNonce, deadline⟩ : Approval) ∈ signed) ∧
    ((τ.filterMap approval?).map (Approval.digest K Z)).Nodup ∧
    (∀ σ₁ e σ₂ e' σ₃ a, ∀ b ∈ signed, τ = σ₁ ++ e :: (σ₂ ++ e' :: σ₃) →
      ((approval? e).isSome = true ∨ paused e = true) → b.nonce ≤ e.pre.state.approvalNonce →
        approval? e' = some a → a.digest K Z ≠ b.digest K Z) ∧
    (∀ σ₁ e σ₂, τ = σ₁ ++ e :: σ₂ → paused e = true → w.state.marketEnabled = true →
      ∃ e' ∈ σ₂, ∃ a ∈ signed, approval? e' = some a ∧ a.action = .resume ∧
        e.post.state.approvalNonce ≤ a.nonce) ∧
    ∀ u σ₁ σ₂, τ = σ₁ ++ σ₂ → (lts K Z P).Run World.init σ₁ u → (lts K Z P).Run u σ₂ w →
      ∀ x, u.state.executorOwners x ≠ 0 → w.state.executorOwners x = u.state.executorOwners x := by
  refine ⟨fun e he hs a observation deadline signature hp => ?_, ?_, ?_, ?_,
    fun u σ₁ σ₂ _ _ h₂ x hx => executorOwners_run h₂ hx⟩
  · obtain ⟨⟨hsender, htime, hrec⟩, hmem⟩ := mem_signed hfree hsig h he hs hp
    exact ⟨hsender, htime, hrec, hmem⟩
  · rw [List.Nodup, List.pairwise_map]
    refine (nonces_pairwise h).imp_of_mem fun {a b} ha hb hlt heq => ?_
    have hused : ∀ {a}, a ∈ τ.filterMap approval? → a ∈ signed ∪ presentedIn τ := fun ha => by
      obtain ⟨e, he, ha⟩ := List.mem_filterMap.1 ha
      exact Or.inr (mem_presentedIn he ha)
    rw [hfree.digest_injOn (hused ha) (hused hb) heq] at hlt
    exact lt_irrefl _ hlt
  · rintro σ₁ e σ₂ e' σ₃ a b hb rfl he hle ha heq
    have hlt := nonce_lt_of_before h he ha
    have ha' : a ∈ presentedIn _ := mem_presentedIn (τ := σ₁ ++ e :: (σ₂ ++ e' :: σ₃)) (by simp) ha
    rw [hfree.digest_injOn (Or.inr ha') (Or.inl hb) heq] at hlt
    omega
  · rintro σ₁ e σ₂ rfl he hw
    obtain ⟨-, hst, h₂⟩ := h.split_at
    have hclosed : e.post.state.marketEnabled = false := closed_of_paused hst he
    obtain ⟨e', he', a, ha, hact⟩ := resumed h₂ hclosed hw
    obtain ⟨σ₃, σ₄, rfl⟩ := List.append_of_mem he'
    obtain ⟨hs, hn, signature, hx⟩ := approval?_eq_some.1 ha
    have hmem := (mem_signed hfree hsig h (e := e') (by simp) hs hx).2
    refine ⟨e', he', a, ?_, ha, hact, ?_⟩
    · rw [← hn] at hmem; exact hmem
    · rw [hn]; exact nonce_le h₂.split_at.1

end Runs

/-! ### The small deployment -/

namespace Demo

/-- The three approvals the approver of the small deployment signs. -/
def signed : List Approval :=
  [⟨.executorOwner 5 4, 0, 0, 50⟩, ⟨.category 3 limits, 0, 1, 50⟩, ⟨.resume, 0, 3, 50⟩]

/-- A pause, a replay of the category approval (rejected), and a resume. -/
def outage : List (Msg × Call Bytes32) :=
  [(msg 2 2 guardian_sender, .emergencyPause 0),
   (msg 0 3 controller_sender, .setCategory 3 limits 0 50 (sign (.category 3 limits) 1 50)),
   (msg 0 4 controller_sender, .resume 0 50 (sign .resume 3 50))]

/-- The transitions of the setup and the outage. -/
def outageRun : List (Tr World (Tx Bytes32)) := (run World.init (setup ++ outage)).1

theorem collisionFree {used : Set Approval} {l : List Approval} (hl : ∀ a ∈ used, a ∈ l)
    (h₁ : ∀ a ∈ l, ∀ b ∈ l, keccak.words a.action.encode = keccak.words b.action.encode →
      a.action.encode = b.action.encode)
    (h₂ : ∀ a ∈ l, ∀ b ∈ l, keccak.words (a.words keccak) = keccak.words (b.words keccak) →
      a.words keccak = b.words keccak) : CollisionFree keccak openZeppelin used where
  actions := by
    rintro _ ⟨a, ha, rfl⟩ _ ⟨b, hb, rfl⟩ h
    exact h₁ a (hl a ha) b (hl b hb) h
  words := by
    rintro _ ⟨a, ha, rfl⟩ _ ⟨b, hb, rfl⟩ h
    exact h₂ a (hl a ha) b (hl b hb) h
  typed _ _ _ _ h := by simpa [openZeppelin] using h
  message _ _ _ _ h := by simpa [openZeppelin] using h

end Demo

/-- On the small deployment: the replay after the pause has no effect, and the market is enabled
again only because of the third approval. -/
theorem approvals_outage :
    Demo.outageRun.filterMap approval? = Demo.signed ∧
    (Demo.signed.map (Approval.digest Demo.keccak Demo.openZeppelin)).Nodup := by
  have hrun : Demo.outageRun.filterMap approval? = Demo.signed := by decide +kernel
  have hfree : CollisionFree Demo.keccak Demo.openZeppelin
      ({a | a ∈ Demo.signed} ∪ presentedIn Demo.outageRun) := Demo.collisionFree
    (l := Demo.signed ++ (Demo.outageRun.filterMap presented).map Prod.fst)
    (fun a ha => List.mem_append.2 ha) (by decide +kernel) (by decide +kernel)
  have hsig : ∀ p ∈ Demo.outageRun.filterMap presented,
      Demo.openZeppelin.recover (Demo.openZeppelin.toEthSignedMessageHash
        (p.1.digest Demo.keccak Demo.openZeppelin)) p.2 = some Demo.params.approver →
      ∃ b ∈ Demo.signed, Demo.openZeppelin.toEthSignedMessageHash
        (b.digest Demo.keccak Demo.openZeppelin) =
          Demo.openZeppelin.toEthSignedMessageHash
            (p.1.digest Demo.keccak Demo.openZeppelin) := by decide +kernel
  have h := (approvals hfree hsig
    (play_run (K := Demo.keccak) (Z := Demo.openZeppelin) (P := Demo.params)
      World.init (Demo.setup ++ Demo.outage) (by decide +kernel))).2.1
  rw [hrun] at h
  exact ⟨hrun, h⟩

end ObolosPolicyEnvelope

end Obolos
