import Obolos.Crash.Transactions

/-!
# Transactions under one lock

Where every transaction that changes the tables first takes the same lock, a process that holds it
knows the tables: they are what they were when it took the lock, until it commits.  So it is followed
from tables to tables (`Holding`), statement by statement.
-/

namespace Obolos

namespace Transactions

variable {ι κ T W Q O ε α : Type} {A : Q → Type} {R : O → Type} [DecidableEq ι]
  {X : Discipline κ T W} {i : ι} {n : List (Committed ι T)} {d : World ι κ T W} {k : κ} {t₀ t₁ : T}
  {w₀ : W} {P : T → W → Prop}

/-- The lock protects all of the tables. -/
def Discipline.Protects (X : Discipline κ T W) (k : κ) : Prop := ∀ t t', X.same k t t' → t' = t

/-- What a process knows that holds the lock `k`: the tables are `t₀`, it has made `t₁` of them, and
the outside is `w₀` or later. -/
structure Holding (X : Discipline κ T W) (k : κ) (i : ι) (n : List (Committed ι T)) (t₀ : T)
    (w₀ : W) (t₁ : T) (d : World ι κ T W) : Prop where
  tx : ∃ held write, k ∈ held ∧ write t₀ = t₁ ∧
    In X i ⟨held, write, false⟩ (fun t w => t = t₀ ∧ X.outside w₀ w) n d
  outside : X.outside w₀ d.outside

theorem Holding.out (h : Holding X k i n t₀ w₀ t₁ d) : Out X i n d := by
  obtain ⟨_, _, -, -, htx⟩ := h.tx
  exact htx.out

variable {S : Schema κ T Q ε A} {fault : ε → Prop} {lost : Prop}
  {out : W → (o : O) → Except ε (R o) → W → Prop}

omit [DecidableEq ι] in
theorem stable_holding (hk : X.Protects k) {held : List κ} (h : k ∈ held) (t₀ : T) (w₀ : W) :
    Stable X held fun t w => t = t₀ ∧ X.outside w₀ w := by
  rintro t t' w w' - - hsame hw ⟨rfl, hlater⟩
  exact ⟨hk _ _ (hsame k h), X.outside_trans _ _ _ hlater hw⟩

/-- The lock was taken. -/
theorem Holding.take {held : List κ} (h : In X i ⟨held, fun t => t, false⟩ P n d) (hk : k ∈ held) :
    Holding X k i n d.tables d.outside d.tables d :=
  ⟨⟨held, fun t => t, hk, rfl, h.inv, h.state, fun _ => ⟨rfl, X.outside_refl _⟩, h.commits⟩,
    X.outside_refl _⟩

/-- A lock that is not waited for. -/
theorem wp_tryLock_holding {Φ : Except ε Bool → World ι κ T W → Prop}
    (h : In X i ⟨[], fun t => t, false⟩ P n d) (hP : Stable X [] P)
    (hlocked : ∀ d', X.outside d.outside d'.outside → X.inv d'.tables d'.outside →
      P d'.tables d'.outside → Holding X k i n d'.tables d'.outside d'.tables d' → Φ (.ok true) d')
    (hbusy : ∀ d', Out X i n d' → Φ (.ok false) d')
    (herror : ∀ e d', fault e → Out X i n d' → Φ (.error e) d') :
    (Prog.await (Effect.tryLock k : Effect κ Q O) :
      Prog (Effect κ Q O) (Answer A R) ε Bool).wp (spec X S fault lost out i) Φ d :=
  wp_of_frame (wp_tryLock h hP
    (fun d' hPd h hw => hlocked d' hw h.inv.tables hPd (.take h (List.mem_singleton_self k)))
    (fun d' h _ => hbusy d' h.out) fun e d' he hout _ => herror e d' he hout)

/-- A statement that waits for the lock, and does nothing else. -/
theorem wp_lock_holding {q : Q} {a : A q} {Φ : Except ε (A q) → World ι κ T W → Prop}
    (h : In X i ⟨[], fun t => t, false⟩ P n d) (hP : Stable X [] P)
    (hlocks : ∀ t, S.locks q t = [k]) (hrun : ∀ t, S.run q t = .ok (a, fun t => t))
    (hok : ∀ d', X.inv d'.tables d'.outside → P d'.tables d'.outside →
      Holding X k i n d'.tables d'.outside d'.tables d' → Φ (.ok a) d')
    (herror : ∀ e d', fault e → Out X i n d' → Φ (.error e) d') :
    (Prog.await (Effect.statement q : Effect κ Q O) :
      Prog (Effect κ Q O) (Answer A R) ε (A q)).wp (spec X S fault lost out i) Φ d := by
  refine wp_statement h hP (fun a' write locks d' hran h => ?_) fun e d' he hout => ?_
  · obtain ⟨hinv, hPd, hrun'⟩ := hran
    obtain ⟨rfl, rfl⟩ := Prod.mk.inj (Except.ok.inj ((hrun _).symm.trans hrun'))
    refine hok d' hinv hPd ?_
    rcases h.state with hnone | hsome
    · refine ⟨⟨[k], fun t => t, List.mem_singleton_self k, rfl, h.inv, Or.inl hnone,
        fun htx => ?_, h.commits⟩, X.outside_refl _⟩
      rw [hnone] at htx
      cases htx
    · refine .take h (List.mem_append_right _ ?_)
      rw [(h.knows hsome).2.2, hlocks]
      exact List.mem_singleton_self k
  · rcases he with he | ⟨t, w, -, -, hrun'⟩
    · exact herror e d' he hout
    · rw [hrun] at hrun'
      cases hrun'

/-- A statement under the lock. -/
theorem Holding.statement (hk : X.Protects k) {q : Q} {a : A q} {write : T → T}
    {Φ : Except ε (A q) → World ι κ T W → Prop} (h : Holding X k i n t₀ w₀ t₁ d)
    (hrun : S.run q t₁ = .ok (a, write))
    (hok : ∀ d', Holding X k i n t₀ w₀ (write t₁) d' → Φ (.ok a) d')
    (herror : ∀ e d', fault e → Out X i n d' → Φ (.error e) d') :
    (Prog.await (Effect.statement q : Effect κ Q O) :
      Prog (Effect κ Q O) (Answer A R) ε (A q)).wp (spec X S fault lost out i) Φ d := by
  obtain ⟨held, write₀, hheld, rfl, htx⟩ := h.tx
  refine wp_of_frame (wp_statement htx (stable_holding hk hheld t₀ w₀)
    (fun a' write' locks d' hran htx' hw => ?_) fun e d' he hout _ => ?_)
  · obtain ⟨-, ⟨ht, -⟩, hrun'⟩ := hran
    rw [ht] at hrun'
    obtain ⟨rfl, rfl⟩ := Prod.mk.inj (Except.ok.inj (hrun.symm.trans hrun'))
    exact hok d' ⟨⟨_, _, List.mem_append_left _ hheld, rfl, htx'.mono fun _ _ _ hP => hP.1⟩,
      X.outside_trans _ _ _ h.outside hw⟩
  · rcases he with he | ⟨t, w, -, ⟨rfl, -⟩, hrun'⟩
    · exact herror e d' he hout
    · rw [hrun] at hrun'
      cases hrun'

/-- A statement under the lock that the database refuses. -/
theorem Holding.refused (hk : X.Protects k) {q : Q} {e : ε}
    {Φ : Except ε (A q) → World ι κ T W → Prop} (h : Holding X k i n t₀ w₀ t₁ d)
    (hrun : S.run q t₁ = .error e) (hrefused : ∀ d', Out X i n d' → Φ (.error e) d')
    (herror : ∀ e d', fault e → Out X i n d' → Φ (.error e) d') :
    (Prog.await (Effect.statement q : Effect κ Q O) :
      Prog (Effect κ Q O) (Answer A R) ε (A q)).wp (spec X S fault lost out i) Φ d := by
  obtain ⟨held, write₀, hheld, rfl, htx⟩ := h.tx
  refine wp_statement htx (stable_holding hk hheld t₀ w₀) (fun a write locks d' hran _ => ?_)
    fun e' d' he hout => ?_
  · obtain ⟨-, ⟨ht, -⟩, hrun'⟩ := hran
    rw [ht, hrun] at hrun'
    cases hrun'
  · rcases he with he | ⟨t, w, -, ⟨rfl, -⟩, hrun'⟩
    · exact herror e' d' he hout
    · obtain rfl := Except.error.inj (hrun.symm.trans hrun')
      exact hrefused d' hout

/-- An effect outside the database, under the lock. -/
theorem Holding.call (hk : X.Protects k) {o : O} {Φ : Except ε (R o) → World ι κ T W → Prop}
    (h : Holding X k i n t₀ w₀ t₁ d) (hout : ∀ w r w', out w o r w' → X.outside w w')
    (hok : ∀ a d', X.outside w₀ d'.outside → (∃ w, out w o (.ok a) d'.outside) →
      Holding X k i n t₀ d'.outside t₁ d' → Φ (.ok a) d')
    (herror : ∀ e w w' d', out w o (.error e) w' → Out X i n d' → Φ (.error e) d') :
    (Prog.await (Effect.outside o : Effect κ Q O) :
      Prog (Effect κ Q O) (Answer A R) ε (R o)).wp (spec X S fault lost out i) Φ d := by
  obtain ⟨held, write, hheld, hwrite, htx⟩ := h.tx
  refine wp_of_frame (wp_outside htx (stable_holding hk hheld t₀ w₀) hout
    (fun a d' hanswer htx' hw => ?_) fun e w w' d' he hout _ => herror e w w' d' he hout)
  refine hok a d' (X.outside_trans _ _ _ h.outside hw) hanswer
    ⟨⟨held, write, hheld, hwrite, htx'.inv, htx'.state, fun hopen => ?_, htx'.commits⟩,
      X.outside_refl _⟩
  exact ⟨(htx'.knows hopen).1.1, X.outside_refl _⟩

/-- `COMMIT` under the lock. -/
theorem Holding.commit (hk : X.Protects k) {Φ : Except ε Unit → World ι κ T W → Prop}
    (h : Holding X k i n t₀ w₀ t₁ d)
    (hinv : ∀ w, X.outside w₀ w → X.inv t₀ w → X.inv t₁ w) (hlater : X.later t₀ t₁)
    (hothers : ∀ k', k' ≠ k → X.same k' t₀ t₁)
    (hok : ∀ d', Out X i (n ++ [⟨i, t₀, t₁, true⟩]) d' → Φ (.ok ()) d')
    (hlost : lost → ∀ e d', fault e → Out X i (n ++ [⟨i, t₀, t₁, false⟩]) d' →
      Φ (.error e) d')
    (herror : ∀ e d', fault e → Out X i n d' → Φ (.error e) d') :
    (Prog.await (Effect.commit : Effect κ Q O) :
      Prog (Effect κ Q O) (Answer A R) ε Unit).wp (spec X S fault lost out i) Φ d := by
  obtain ⟨held, write, hheld, rfl, htx⟩ := h.tx
  refine wp_commit htx rfl (stable_holding hk hheld t₀ w₀) ?_ ?_ ?_ herror
  · rintro t w ht ⟨rfl, hw⟩
    refine ⟨hinv w hw ht, hlater, fun k' hk' => hothers k' ?_⟩
    rintro rfl
    exact hk' hheld
  · rintro t w d' - ⟨rfl, -⟩ hout
    exact hok d' hout
  · rintro hl e t w d' he - ⟨rfl, -⟩ hout
    exact hlost hl e d' he hout

end Transactions

end Obolos
