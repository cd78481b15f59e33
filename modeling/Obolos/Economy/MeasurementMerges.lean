import Obolos.Economy.Measurements
import Obolos.Js.Loops

/-!
# Merging agents and balances

`calculateMeasurements` merges the rows of one agent and the balances of one address in loops that throw
when two rows conflict.  What the maps hold after a loop depends on the set of its rows
(`Agents`, `Balances`).  The loop over the agents throws exactly if two rows conflict; the one over
the balances forgets a known balance when it meets a missing one, so it throws only if two balances
conflict that it meets before a missing one.
-/

namespace Obolos

namespace Measurements

/-! ### Sets -/

theorem unique_spec (values : List JsString) :
    (unique values).Nodup ∧ ∀ v, v ∈ unique values ↔ v ∈ values := by
  have hfirst := Loops.keepFirst_from (α := JsString) (κ := JsString)
    (fun a b => by simp : ∀ a b : JsString, decide (a = b) = true ↔ id a = id b) values [] List.nodup_nil
  have heq : (fun (seen : List JsString) v => if v ∈ seen then seen else seen ++ [v]) =
      fun seen v => if seen.any fun b => decide (b = v) then seen else seen ++ [v] := by
    funext seen v
    simp
  rw [unique, heq]
  simpa using hfirst

/-- The elements of a set, up to their order. -/
theorem unique_perm {l l' : List JsString} (h : l.Perm l') : (unique l).Perm (unique l') := by
  obtain ⟨hnodup, hmem⟩ := unique_spec l
  obtain ⟨hnodup', hmem'⟩ := unique_spec l'
  refine (List.perm_ext_iff_of_nodup hnodup hnodup').2 fun v => ?_
  rw [hmem, hmem', h.mem_iff]

/-! ### Agents -/

/-- A row, with the address in lower case. -/
def MeasurementAgent.pinned (row : MeasurementAgent) : MeasurementAgent :=
  { row with executor := row.executor.toLowerCase }

/-- The rows of one agent agree. -/
def Consistent (rows : List MeasurementAgent) : Prop :=
  ∀ x ∈ rows, ∀ y ∈ rows, x.agentId = y.agentId → x.pinned = y.pinned

/-- What the map holds after some rows. -/
structure Agents (rows agents : List MeasurementAgent) : Prop where
  nodup : (agents.map (·.agentId)).Nodup
  mem : ∀ a, a ∈ agents ↔ ∃ x ∈ rows, x.pinned = a

variable {rows rows' agents agents' : List MeasurementAgent} {row : MeasurementAgent}

theorem MeasurementAgent.ext_of {a b : MeasurementAgent} (hid : a.agentId = b.agentId)
    (hexecutor : a.executor = b.executor) (hactive : a.active = b.active) : a = b := by
  cases a
  cases b
  cases hid
  cases hexecutor
  cases hactive
  rfl

/-- One row: it agrees with the row of the same agent that the map holds. -/
theorem addAgent_iff (h : Agents rows agents) : addAgent agents row = .ok agents' ↔
    (∀ x ∈ rows, x.agentId = row.agentId → x.pinned = row.pinned) ∧
      agents' = if ∃ x ∈ rows, x.agentId = row.agentId then agents else agents ++ [row.pinned] := by
  have hmem : ∀ {x}, x ∈ rows → x.pinned ∈ agents := fun hx => (h.mem _).2 ⟨_, hx, rfl⟩
  cases hfind : agents.find? fun prior => prior.agentId = row.agentId with
  | none =>
    have hnew : ∀ x ∈ rows, x.agentId ≠ row.agentId := by
      intro x hx hid
      have := List.find?_eq_none.1 hfind x.pinned (hmem hx)
      simp [MeasurementAgent.pinned, hid] at this
    have hnot : ¬∃ x ∈ rows, x.agentId = row.agentId := fun ⟨x, hx, hid⟩ => hnew x hx hid
    have hstep : addAgent agents row = .ok (agents ++ [row.pinned]) := by
      unfold addAgent
      simp only [hfind]
      rfl
    rw [if_neg hnot, hstep]
    constructor
    · intro heq
      cases heq
      exact ⟨fun x hx hid => absurd hid (hnew x hx), rfl⟩
    · rintro ⟨-, rfl⟩
      rfl
  | some prior =>
    have hprior : prior.agentId = row.agentId := by simpa using List.find?_some hfind
    have hin := List.mem_of_find?_eq_some hfind
    obtain ⟨x, hx, hxprior⟩ := (h.mem prior).1 hin
    have hsome : ∃ x ∈ rows, x.agentId = row.agentId :=
      ⟨x, hx, by rw [← hprior, ← hxprior]; rfl⟩
    -- Every earlier row of the agent is the one that the map holds.
    have hall : ∀ y ∈ rows, y.agentId = row.agentId → y.pinned = prior := by
      intro y hy hid
      exact List.inj_on_of_nodup_map h.nodup (hmem hy) hin (hid.trans hprior.symm)
    have hstep : addAgent agents row =
        if prior.executor ≠ row.pinned.executor || prior.active ≠ row.pinned.active then
          JsError.raise "Conflicting pinned agent state."
        else .ok (agents.map fun a => if a.agentId = row.agentId then row.pinned else a) := by
      unfold addAgent
      simp only [hfind]
      rfl
    rw [if_pos hsome, hstep, JsError.raise, Loops.refuse_eq_ok]
    have hagree : ¬(prior.executor ≠ row.pinned.executor || prior.active ≠ row.pinned.active) = true ↔
        prior = row.pinned := by
      simp only [Bool.or_eq_true, decide_eq_true_eq, not_or, not_not]
      exact ⟨fun heq => MeasurementAgent.ext_of hprior heq.1 heq.2,
        fun heq => by rw [heq]; exact ⟨rfl, rfl⟩⟩
    have hsame : prior = row.pinned →
        (agents.map fun a => if a.agentId = row.agentId then row.pinned else a) = agents := by
      intro heq
      refine (List.map_congr_left fun a ha => ?_).trans (List.map_id agents)
      split_ifs with hid
      · rw [← heq]
        exact (List.inj_on_of_nodup_map h.nodup ha hin (hid.trans hprior.symm)).symm
      · rfl
    rw [hagree]
    constructor
    · rintro ⟨heq, rfl⟩
      exact ⟨fun y hy hid => (hall y hy hid).trans heq, hsame heq⟩
    · rintro ⟨hrows, rfl⟩
      have heq : prior = row.pinned := hxprior.symm.trans (hrows x hx (by rw [← hprior, ← hxprior]; rfl))
      exact ⟨heq, (hsame heq).symm⟩

theorem Agents.add (h : Agents rows agents) (hadd : addAgent agents row = .ok agents') :
    Agents (rows ++ [row]) agents' := by
  obtain ⟨hrows, rfl⟩ := (addAgent_iff h).1 hadd
  split_ifs with hsome
  · obtain ⟨x, hx, hid⟩ := hsome
    refine ⟨h.nodup, fun a => ?_⟩
    rw [h.mem]
    constructor
    · rintro ⟨y, hy, rfl⟩
      exact ⟨y, List.mem_append_left _ hy, rfl⟩
    · rintro ⟨y, hy, rfl⟩
      rcases List.mem_append.1 hy with hy | hy
      · exact ⟨y, hy, rfl⟩
      · rw [List.mem_singleton.1 hy]
        exact ⟨x, hx, hrows x hx hid⟩
  · constructor
    · rw [List.map_append, List.nodup_append]
      refine ⟨h.nodup, List.nodup_singleton _, ?_⟩
      rintro i hi j hj rfl
      obtain ⟨a, ha, rfl⟩ := List.mem_map.1 hi
      obtain ⟨x, hx, rfl⟩ := (h.mem a).1 ha
      exact hsome ⟨x, hx, List.mem_singleton.1 hj⟩
    · intro a
      simp only [List.mem_append, h.mem, List.mem_singleton, or_and_right, exists_or,
        exists_eq_left]
      exact or_congr_right eq_comm

theorem Agents.addAll {later : List MeasurementAgent} (h : Agents rows agents)
    (hadd : later.foldlM addAgent agents = .ok agents') : Agents (rows ++ later) agents' := by
  induction later generalizing rows agents with
  | nil =>
    rw [← Except.ok.inj hadd, List.append_nil]
    exact h
  | cons row later ih =>
    rw [List.foldlM_cons] at hadd
    obtain ⟨agents₁, hrow, hrest⟩ := bind_eq_ok.1 hadd
    simpa using ih (h.add hrow) hrest

theorem Agents.consistent (h : Agents rows agents) : Consistent rows := by
  intro x hx y hy hid
  exact List.inj_on_of_nodup_map h.nodup ((h.mem _).2 ⟨x, hx, rfl⟩) ((h.mem _).2 ⟨y, hy, rfl⟩) hid

theorem Agents.exists_addAll {later : List MeasurementAgent} (h : Agents rows agents)
    (hconsistent : Consistent (rows ++ later)) :
    ∃ agents', later.foldlM addAgent agents = .ok agents' := by
  induction later generalizing rows agents with
  | nil => exact ⟨agents, rfl⟩
  | cons row later ih =>
    have hrow : addAgent agents row = .ok _ := (addAgent_iff h).2 ⟨fun x hx hid =>
      hconsistent x (by simp [hx]) row (by simp) hid, rfl⟩
    obtain ⟨agents', hrest⟩ := ih (h.add hrow) (by simpa using hconsistent)
    exact ⟨agents', by rw [List.foldlM_cons, hrow]; exact hrest⟩

theorem Agents.empty : Agents [] [] := ⟨List.nodup_nil, by simp⟩

/-- The loop over the agents throws exactly if two rows conflict. -/
theorem addAgents_iff (rows : List MeasurementAgent) :
    (∃ agents, rows.foldlM addAgent [] = .ok agents) ↔ Consistent rows :=
  ⟨fun ⟨_, h⟩ => (Agents.empty.addAll h).consistent, fun h => Agents.empty.exists_addAll h⟩

theorem Agents.perm {rows' : List MeasurementAgent} (h : Agents rows agents)
    (h' : Agents rows' agents') (hperm : rows.Perm rows') : agents.Perm agents' := by
  refine (List.perm_ext_iff_of_nodup h.nodup.of_map h'.nodup.of_map).2 fun a => ?_
  rw [h.mem, h'.mem]
  exact exists_congr fun x => and_congr_left' hperm.mem_iff

/-! ### Balances -/

/-- The address of a balance in lower case. -/
def Balance.key (b : Balance) : JsString := b.address.toLowerCase

/-- Two known balances of one address that are not equal. -/
def Conflict (b c : Balance) : Prop :=
  b.key = c.key ∧ ∃ n m : ℤ, b.balanceAtomic = some n ∧ c.balanceAtomic = some m ∧ n ≠ m

/-- What the map holds after some rows: a balance that is missing once stays missing. -/
structure Balances (rows balances : List Balance) : Prop where
  nodup : (balances.map (·.address)).Nodup
  keys : ∀ b ∈ rows, ∃ x ∈ balances, x.address = b.key
  missing : ∀ x ∈ balances, x.balanceAtomic = none → ∃ b ∈ rows, b.key = x.address ∧ b.balanceAtomic = none
  known : ∀ x ∈ balances, ∀ n, x.balanceAtomic = some n →
    (∃ b ∈ rows, b.key = x.address) ∧ ∀ b ∈ rows, b.key = x.address → b.balanceAtomic = some n
  nonneg : ∀ b ∈ rows, ∀ n, b.balanceAtomic = some n → 0 ≤ n

variable {earlier later balances balances' : List Balance} {b c : Balance}

theorem Balances.empty : Balances [] [] := by
  constructor <;> simp

theorem find_balance {x : Balance} (hnodup : (balances.map (·.address)).Nodup) (hx : x ∈ balances) :
    (balances.find? fun y => y.address = x.address) = some x := by
  cases hfind : balances.find? fun y => y.address = x.address with
  | none => simpa using List.find?_eq_none.1 hfind x hx
  | some y =>
    have haddress : y.address = x.address := by simpa using List.find?_some hfind
    rw [List.inj_on_of_nodup_map hnodup (List.mem_of_find?_eq_some hfind) hx haddress]

/-- A row of an address that the map does not have. -/
theorem Balances.append (h : Balances earlier balances)
    (hnew : ∀ x ∈ balances, x.address ≠ b.key) (hnonneg : ∀ n, b.balanceAtomic = some n → 0 ≤ n) :
    Balances (earlier ++ [b]) (balances ++ [⟨b.key, b.balanceAtomic⟩]) where
  nodup := by
    rw [List.map_append, List.nodup_append]
    refine ⟨h.nodup, List.nodup_singleton _, ?_⟩
    rintro i hi j hj rfl
    obtain ⟨x, hx, rfl⟩ := List.mem_map.1 hi
    exact hnew x hx (List.mem_singleton.1 hj)
  keys := by
    intro c hc
    rcases List.mem_append.1 hc with hc | hc
    · obtain ⟨x, hx, hkey⟩ := h.keys c hc
      exact ⟨x, List.mem_append_left _ hx, hkey⟩
    · rw [List.mem_singleton.1 hc]
      exact ⟨_, List.mem_append_right _ List.mem_cons_self, rfl⟩
  missing := by
    intro x hx hnone
    rcases List.mem_append.1 hx with hx | hx
    · obtain ⟨c, hc, hkey⟩ := h.missing x hx hnone
      exact ⟨c, List.mem_append_left _ hc, hkey⟩
    · rw [List.mem_singleton.1 hx] at hnone ⊢
      exact ⟨b, by simp, rfl, hnone⟩
  known := by
    intro x hx n hn
    rcases List.mem_append.1 hx with hx | hx
    · obtain ⟨⟨c, hc, hkey⟩, hall⟩ := h.known x hx n hn
      refine ⟨⟨c, List.mem_append_left _ hc, hkey⟩, fun d hd hkey => ?_⟩
      rcases List.mem_append.1 hd with hd | hd
      · exact hall d hd hkey
      · rw [List.mem_singleton.1 hd] at hkey
        exact absurd hkey.symm (hnew x hx)
    · rw [List.mem_singleton.1 hx] at hn ⊢
      refine ⟨⟨b, by simp, rfl⟩, fun d hd hkey => ?_⟩
      rcases List.mem_append.1 hd with hd | hd
      · obtain ⟨y, hy, hykey⟩ := h.keys d hd
        exact absurd (hykey.trans hkey) (hnew y hy)
      · rw [List.mem_singleton.1 hd]
        exact hn
  nonneg := by
    intro c hc n hn
    rcases List.mem_append.1 hc with hc | hc
    · exact h.nonneg c hc n hn
    · rw [List.mem_singleton.1 hc] at hn
      exact hnonneg n hn

/-- A row with the known balance that the map has. -/
theorem Balances.same {x : Balance} {n : ℤ} (h : Balances earlier balances) (hx : x ∈ balances)
    (haddress : x.address = b.key) (hxn : x.balanceAtomic = some n) (hbn : b.balanceAtomic = some n)
    (hnonneg : 0 ≤ n) : Balances (earlier ++ [b]) balances where
  nodup := h.nodup
  keys := by
    intro c hc
    rcases List.mem_append.1 hc with hc | hc
    · exact h.keys c hc
    · rw [List.mem_singleton.1 hc]
      exact ⟨x, hx, haddress⟩
  missing := by
    intro y hy hnone
    obtain ⟨c, hc, hkey⟩ := h.missing y hy hnone
    exact ⟨c, List.mem_append_left _ hc, hkey⟩
  known := by
    intro y hy m hm
    obtain ⟨⟨c, hc, hkey⟩, hall⟩ := h.known y hy m hm
    refine ⟨⟨c, List.mem_append_left _ hc, hkey⟩, fun d hd hdkey => ?_⟩
    rcases List.mem_append.1 hd with hd | hd
    · exact hall d hd hdkey
    · rw [List.mem_singleton.1 hd] at hdkey ⊢
      have hyx : y = x := List.inj_on_of_nodup_map h.nodup hy hx (hdkey.symm.trans haddress.symm)
      rw [hbn, ← hm, hyx, hxn]
  nonneg := by
    intro c hc m hm
    rcases List.mem_append.1 hc with hc | hc
    · exact h.nonneg c hc m hm
    · rw [List.mem_singleton.1 hc, hbn] at hm
      cases hm
      exact hnonneg

/-- The balance of an address, as missing. -/
def forget (address : JsString) (balances : List Balance) : List Balance :=
  balances.map fun x => if x.address = address then { x with balanceAtomic := none } else x

theorem mem_forget {x : Balance} {address : JsString} : x ∈ forget address balances ↔
    ∃ y ∈ balances, y.address = x.address ∧
      x.balanceAtomic = if y.address = address then none else y.balanceAtomic := by
  rw [forget, List.mem_map]
  constructor
  · rintro ⟨y, hy, rfl⟩
    refine ⟨y, hy, ?_⟩
    split_ifs <;> exact ⟨rfl, rfl⟩
  · rintro ⟨y, hy, haddress, hvalue⟩
    refine ⟨y, hy, ?_⟩
    obtain ⟨xa, xv⟩ := x
    simp only at haddress hvalue
    rw [hvalue, ← haddress]
    split_ifs <;> rfl

/-- A row that makes the balance missing. -/
theorem Balances.forget {x : Balance} (h : Balances earlier balances) (hx : x ∈ balances)
    (haddress : x.address = b.key) (hmissing : x.balanceAtomic = none ∨ b.balanceAtomic = none)
    (hnonneg : ∀ n, b.balanceAtomic = some n → 0 ≤ n) :
    Balances (earlier ++ [b]) (Measurements.forget b.key balances) where
  nodup := by
    have hkeys : (Measurements.forget b.key balances).map (·.address) = balances.map (·.address) := by
      rw [Measurements.forget, List.map_map]
      refine List.map_congr_left fun y _ => ?_
      dsimp only [Function.comp_apply]
      split_ifs <;> rfl
    rw [hkeys]
    exact h.nodup
  keys := by
    intro c hc
    have hold : ∃ y ∈ balances, y.address = c.key := by
      rcases List.mem_append.1 hc with hc | hc
      · exact h.keys c hc
      · rw [List.mem_singleton.1 hc]
        exact ⟨x, hx, haddress⟩
    obtain ⟨y, hy, hkey⟩ := hold
    exact ⟨⟨y.address, if y.address = b.key then none else y.balanceAtomic⟩,
      mem_forget.2 ⟨y, hy, rfl, rfl⟩, hkey⟩
  missing := by
    intro z hz hnone
    obtain ⟨y, hy, hyz, hvalue⟩ := mem_forget.1 hz
    by_cases hykey : y.address = b.key
    · -- The address of the row: the old balance was missing, or the new one is.
      have hyx : y = x := List.inj_on_of_nodup_map h.nodup hy hx (hykey.trans haddress.symm)
      rcases hmissing with hold | hnew
      · obtain ⟨c, hc, hckey, hcnone⟩ := h.missing x hx hold
        exact ⟨c, List.mem_append_left _ hc, by rw [hckey, ← hyx, hyz], hcnone⟩
      · exact ⟨b, by simp, by rw [← hykey, hyz], hnew⟩
    · rw [if_neg hykey] at hvalue
      obtain ⟨c, hc, hckey, hcnone⟩ := h.missing y hy (hvalue.symm.trans hnone)
      exact ⟨c, List.mem_append_left _ hc, hckey.trans hyz, hcnone⟩
  known := by
    intro z hz n hn
    obtain ⟨y, hy, hyz, hvalue⟩ := mem_forget.1 hz
    by_cases hykey : y.address = b.key
    · rw [if_pos hykey, hn] at hvalue
      exact absurd hvalue (Option.some_ne_none n)
    -- Another address: the new row says nothing about it.
    · rw [if_neg hykey, hn] at hvalue
      obtain ⟨⟨c, hc, hkey⟩, hall⟩ := h.known y hy n hvalue.symm
      refine ⟨⟨c, List.mem_append_left _ hc, hkey.trans hyz⟩, fun d hd hdkey => ?_⟩
      rcases List.mem_append.1 hd with hd | hd
      · exact hall d hd (hdkey.trans hyz.symm)
      · rw [List.mem_singleton.1 hd] at hdkey
        exact absurd (hyz.trans hdkey.symm) hykey
  nonneg := by
    intro c hc m hm
    rcases List.mem_append.1 hc with hc | hc
    · exact h.nonneg c hc m hm
    · rw [List.mem_singleton.1 hc] at hm
      exact hnonneg m hm

/-- The cases of one row. -/
theorem addBalance_eq (balances : List Balance) (b : Balance) : addBalance balances b =
    if b.balanceAtomic.any fun n => n < 0 then JsError.raise "Invalid pinned balance."
    else match balances.find? fun old => old.address = b.key with
      | some old =>
        match old.balanceAtomic, b.balanceAtomic with
        | some n, some m =>
          if n ≠ m then JsError.raise "Conflicting balances at one pinned block."
          else .ok balances
        | _, _ => .ok (Measurements.forget b.key balances)
      | none => .ok (balances ++ [⟨b.key, b.balanceAtomic⟩]) := rfl

theorem not_negative : ¬(b.balanceAtomic.any fun n => n < 0) = true ↔
    ∀ n, b.balanceAtomic = some n → 0 ≤ n := by
  cases b.balanceAtomic <;> simp

/-- What the map holds after a row. -/
theorem Balances.add (h : Balances earlier balances) (hadd : addBalance balances b = .ok balances') :
    Balances (earlier ++ [b]) balances' := by
  rw [addBalance_eq] at hadd
  split at hadd
  · cases hadd
  · next hnegative =>
    have hnonneg := not_negative.1 hnegative
    split at hadd
    · next x hfind =>
      have hx := List.mem_of_find?_eq_some hfind
      have haddress : x.address = b.key := by simpa using List.find?_some hfind
      split at hadd
      · next n m hn hm =>
        split at hadd
        · cases hadd
        · next heq =>
          cases hadd
          rw [← not_not.1 heq] at hm
          exact h.same hx haddress hn hm (hnonneg n hm)
      · next hnot =>
        cases hadd
        refine h.forget hx haddress ?_ hnonneg
        cases hold : x.balanceAtomic with
        | none => exact Or.inl rfl
        | some n =>
          cases hnew : b.balanceAtomic with
          | none => exact Or.inr rfl
          | some m => exact absurd hnew (hnot n m hold)
    · next hfind =>
      cases hadd
      refine h.append (fun x hx haddress => ?_) hnonneg
      simpa [haddress] using List.find?_eq_none.1 hfind x hx

/-- A row is accepted if it conflicts only with balances beside a missing one. -/
theorem Balances.exists_add (h : Balances earlier balances)
    (hnonneg : ∀ n, b.balanceAtomic = some n → 0 ≤ n)
    (hconflict : ∀ c ∈ earlier, Conflict c b →
      ∃ z ∈ earlier, z.key = b.key ∧ z.balanceAtomic = none) :
    ∃ balances', addBalance balances b = .ok balances' := by
  rw [addBalance_eq, if_neg (not_negative.2 hnonneg)]
  cases hfind : balances.find? fun old => old.address = b.key with
  | none => exact ⟨_, rfl⟩
  | some x =>
    have hx := List.mem_of_find?_eq_some hfind
    have haddress : x.address = b.key := by simpa using List.find?_some hfind
    dsimp only
    cases hn : x.balanceAtomic with
    | none => exact ⟨_, rfl⟩
    | some n =>
      cases hm : b.balanceAtomic with
      | none => exact ⟨_, rfl⟩
      | some m =>
        have heq : n = m := by
          by_contra hne
          obtain ⟨⟨c, hc, hckey⟩, hall⟩ := h.known x hx n hn
          obtain ⟨z, hz, hzkey, hznone⟩ := hconflict c hc
            ⟨hckey.trans haddress, n, m, hall c hc hckey, hm, hne⟩
          rw [hall z hz (hzkey.trans haddress.symm)] at hznone
          exact Option.some_ne_none n hznone
        exact ⟨balances, if_neg (not_not.2 heq)⟩

theorem Balances.addAll (h : Balances earlier balances)
    (hadd : later.foldlM addBalance balances = .ok balances') : Balances (earlier ++ later) balances' := by
  induction later generalizing earlier balances with
  | nil =>
    rw [← Except.ok.inj hadd, List.append_nil]
    exact h
  | cons b later ih =>
    rw [List.foldlM_cons] at hadd
    obtain ⟨balances₁, hb, hrest⟩ := bind_eq_ok.1 hadd
    simpa using ih (h.add hb) hrest

theorem Balances.exists_addAll (h : Balances earlier balances)
    (hnonneg : ∀ c ∈ later, ∀ n, c.balanceAtomic = some n → 0 ≤ n)
    (hconflict : ∀ d ∈ later, ∀ c ∈ earlier ++ later, Conflict c d →
      ∃ z ∈ earlier, z.key = d.key ∧ z.balanceAtomic = none) :
    ∃ balances', later.foldlM addBalance balances = .ok balances' := by
  induction later generalizing earlier balances with
  | nil => exact ⟨balances, rfl⟩
  | cons b later ih =>
    obtain ⟨balances₁, hb⟩ := h.exists_add (hnonneg b List.mem_cons_self) fun c hc =>
      hconflict b List.mem_cons_self c (List.mem_append_left _ hc)
    obtain ⟨balances', hrest⟩ := ih (h.add hb)
      (fun c hc => hnonneg c (List.mem_cons_of_mem _ hc)) fun d hd c hc hcd => by
        obtain ⟨z, hz, hznone⟩ := hconflict d (List.mem_cons_of_mem _ hd) c (by simpa using hc) hcd
        exact ⟨z, List.mem_append_left _ hz, hznone⟩
    exact ⟨balances', by rw [List.foldlM_cons, hb]; exact hrest⟩

/-- What is known of the balance of an address. -/
theorem Balances.balanceOf_iff (h : Balances earlier balances) (address : JsString) (n : ℤ) :
    balanceOf balances address = some n ↔ (∃ b ∈ earlier, b.key = address) ∧
      ∀ b ∈ earlier, b.key = address → b.balanceAtomic = some n := by
  rw [balanceOf]
  constructor
  · intro hn
    obtain ⟨x, hfind, hx⟩ := Option.bind_eq_some_iff.1 hn
    have haddress : x.address = address := by simpa using List.find?_some hfind
    obtain ⟨⟨b, hb, hkey⟩, hall⟩ := h.known x (List.mem_of_find?_eq_some hfind) n hx
    exact ⟨⟨b, hb, hkey.trans haddress⟩, fun c hc hckey => hall c hc (hckey.trans haddress.symm)⟩
  · rintro ⟨⟨b, hb, hkey⟩, hall⟩
    obtain ⟨x, hx, haddress⟩ := h.keys b hb
    have hvalue : x.balanceAtomic = some n := by
      cases hx' : x.balanceAtomic with
      | none =>
        obtain ⟨c, hc, hckey, hcnone⟩ := h.missing x hx hx'
        rw [hall c hc (hckey.trans (haddress.trans hkey))] at hcnone
        exact absurd hcnone (Option.some_ne_none n)
      | some m =>
        have hb' := (h.known x hx m hx').2 b hb haddress.symm
        rw [← hb', hall b hb hkey]
    rw [← hkey, ← haddress, find_balance h.nodup hx]
    exact hvalue

theorem Balances.balanceOf_eq {rows rows' : List Balance} (h : Balances rows balances)
    (h' : Balances rows' balances') (hperm : rows.Perm rows') (address : JsString) :
    balanceOf balances address = balanceOf balances' address := by
  refine Option.ext fun n => ?_
  rw [h.balanceOf_iff, h'.balanceOf_iff]
  simp only [hperm.mem_iff]

end Measurements

end Obolos
