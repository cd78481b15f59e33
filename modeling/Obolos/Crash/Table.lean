import Obolos.Crash.Statement
import Mathlib.Data.List.Nodup
import Mathlib.Tactic.SplitIfs

/-!
# Tables with a primary key

A table is the list of its rows, in the order in which they were inserted, and carries the proof
that no two of them have the same key.  `Table.get` reads by the key; `get_insert` and
`get_replace` say what is read after a row was added or changed, and `insert_ok` and `update_ok`
what the two statements `INSERT … ON CONFLICT DO NOTHING` and `UPDATE … WHERE key = …` do.
-/

namespace Obolos

/-- The rows of a table, the oldest first; no two have the same key. -/
structure Table (ρ κ : Type) (key : ρ → κ) where
  rows : List ρ
  nodup : (rows.map key).Nodup

namespace Table

variable {ρ κ υ ε : Type} {key : ρ → κ}

/-- No rows. -/
def empty : Table ρ κ key := ⟨[], List.nodup_nil⟩

variable [DecidableEq κ]

/-- The row with this key. -/
def get (t : Table ρ κ key) (k : κ) : Option ρ := t.rows.find? fun r => key r = k

/-- Add a row, unless its key is taken. -/
def insert (t : Table ρ κ key) (r : ρ) : Table ρ κ key :=
  if h : key r ∈ t.rows.map key then t
  else ⟨t.rows ++ [r], by
    rw [List.map_append, List.nodup_append]
    refine ⟨t.nodup, List.nodup_singleton _, fun k hk k' hk' => ?_⟩
    obtain rfl := List.mem_singleton.1 hk'
    intro he
    exact h (he ▸ hk)⟩

/-- Put a row in the place of the one with its key. -/
def replace (t : Table ρ κ key) (r : ρ) : Table ρ κ key :=
  ⟨t.rows.map fun r' => if key r' = key r then r else r', by
    have hkeys : (t.rows.map fun r' => if key r' = key r then r else r').map key =
        t.rows.map key := by
      rw [List.map_map]
      refine List.map_congr_left fun r' _ => ?_
      simp only [Function.comp_apply]
      split_ifs with h
      · exact h.symm
      · rfl
    rw [hkeys]
    exact t.nodup⟩

variable {t t' : Table ρ κ key} {k k' : κ} {r r' : ρ}

@[simp] theorem get_empty : (empty : Table ρ κ key).get k = none := rfl

theorem get_eq_some : t.get k = some r ↔ r ∈ t.rows ∧ key r = k := by
  constructor
  · intro h
    exact ⟨List.mem_of_find?_eq_some h, by simpa using List.find?_some h⟩
  · rintro ⟨hr, rfl⟩
    cases h : t.get (key r) with
    | none =>
      have hne := List.find?_eq_none.1 h r hr
      simp at hne
    | some r' =>
      have hkey : key r' = key r := by simpa using List.find?_some h
      rw [List.inj_on_of_nodup_map t.nodup (List.mem_of_find?_eq_some h) hr hkey]

theorem key_of_get (h : t.get k = some r) : key r = k := (get_eq_some.1 h).2

theorem get_eq_none : t.get k = none ↔ k ∉ t.rows.map key := by
  rw [get, List.find?_eq_none, List.mem_map]
  constructor
  · rintro h ⟨r, hr, rfl⟩
    simpa using h r hr
  · intro h r hr hk
    exact h ⟨r, hr, by simpa using hk⟩

/-- What is read after a row was added. -/
theorem get_insert (hfree : t.get (key r) = none) :
    (t.insert r).get k = if k = key r then some r else t.get k := by
  have hrows : (t.insert r).rows = t.rows ++ [r] := by
    rw [insert, dif_neg (get_eq_none.1 hfree)]
  split_ifs with hk
  · exact get_eq_some.2 ⟨by rw [hrows]; simp, hk.symm⟩
  · refine Option.ext fun r' => ?_
    rw [get_eq_some, get_eq_some, hrows, List.mem_append, List.mem_singleton]
    constructor
    · rintro ⟨hr | rfl, rfl⟩
      · exact ⟨hr, rfl⟩
      · exact absurd rfl hk
    · rintro ⟨hr, rfl⟩
      exact ⟨Or.inl hr, rfl⟩

/-- What is read after a row was changed. -/
theorem get_replace (h : t.get (key r) = some r') :
    (t.replace r).get k = if k = key r then some r else t.get k := by
  obtain ⟨hr', hkey⟩ := get_eq_some.1 h
  split_ifs with hk
  · exact get_eq_some.2 ⟨List.mem_map.2 ⟨r', hr', if_pos hkey⟩, hk.symm⟩
  · refine Option.ext fun x => ?_
    rw [get_eq_some, get_eq_some]
    constructor
    · rintro ⟨hx, rfl⟩
      obtain ⟨y, hy, rfl⟩ := List.mem_map.1 hx
      split_ifs at hk ⊢ with hyk
      · exact absurd rfl hk
      · exact ⟨hy, rfl⟩
    · rintro ⟨hx, rfl⟩
      exact ⟨List.mem_map.2 ⟨x, hx, if_neg hk⟩, rfl⟩

/-- A property of some row. -/
theorem any_iff {p : ρ → Bool} : t.rows.any p = true ↔ ∃ k r, t.get k = some r ∧ p r = true := by
  rw [List.any_eq_true]
  constructor
  · rintro ⟨r, hr, hp⟩
    exact ⟨key r, r, get_eq_some.2 ⟨hr, rfl⟩, hp⟩
  · rintro ⟨k, r, hr, hp⟩
    exact ⟨r, (get_eq_some.1 hr).1, hp⟩

/-! ### Unique columns -/

/-- No two rows have the same value in the column `u`; a row may have none. -/
def Unique (t : Table ρ κ key) (u : ρ → Option υ) : Prop :=
  ∀ k k' r r' v, t.get k = some r → t.get k' = some r' → u r = some v → u r' = some v → k = k'

variable {u : ρ → Option υ}

theorem unique_empty : (empty : Table ρ κ key).Unique u := by
  intro k _ r _ _ h
  cases h

/-- After a row was added whose value is new. -/
theorem Unique.insert (h : t.Unique u) (hfree : t.get (key r) = none)
    (hnew : ∀ k r' v, t.get k = some r' → u r = some v → u r' ≠ some v) :
    (t.insert r).Unique u := by
  intro k₁ k₂ r₁ r₂ v h₁ h₂ hv₁ hv₂
  rw [get_insert hfree] at h₁ h₂
  split_ifs at h₁ h₂ with hk₁ hk₂ hk₂
  · rw [hk₁, hk₂]
  · cases h₁
    exact absurd hv₂ (hnew _ _ _ h₂ hv₁)
  · cases h₂
    exact absurd hv₁ (hnew _ _ _ h₁ hv₂)
  · exact h _ _ _ _ _ h₁ h₂ hv₁ hv₂

/-- After a row was changed to a value that no other row has. -/
theorem Unique.replace (h : t.Unique u) (hr : t.get (key r) = some r')
    (hnew : ∀ k r'' v, k ≠ key r → t.get k = some r'' → u r = some v → u r'' ≠ some v) :
    (t.replace r).Unique u := by
  intro k₁ k₂ r₁ r₂ v h₁ h₂ hv₁ hv₂
  rw [get_replace hr] at h₁ h₂
  split_ifs at h₁ h₂ with hk₁ hk₂ hk₂
  · rw [hk₁, hk₂]
  · cases h₁
    exact absurd hv₂ (hnew _ _ _ hk₂ h₂ hv₁)
  · cases h₂
    exact absurd hv₁ (hnew _ _ _ hk₁ h₁ hv₂)
  · exact h _ _ _ _ _ h₁ h₂ hv₁ hv₂

/-- After a row was changed, but not its value. -/
theorem Unique.replace_same (h : t.Unique u) (hr : t.get (key r) = some r') (hu : u r = u r') :
    (t.replace r).Unique u := by
  refine h.replace hr fun k r'' v hk hr'' hv hv'' => hk ?_
  exact h _ _ _ _ _ hr'' hr hv'' (hu ▸ hv)

/-! ### Statements -/

/-- `INSERT INTO … VALUES … ON CONFLICT (key) DO NOTHING RETURNING *`; `refused` is what else the
table has against the row. -/
def insertNew (r : ρ) (refused : Table ρ κ key → Option ε) :
    Statement (Table ρ κ key) ε (Option ρ) := fun t =>
  match t.get (key r) with
  | some _ => .ok (none, t)
  | none =>
    match refused t with
    | some e => .error e
    | none => .ok (some r, t.insert r)

/-- `UPDATE … SET … WHERE key = k AND … RETURNING *` -/
def update (k : κ) (cond : ρ → Bool) (set : ρ → Except ε ρ) :
    Statement (Table ρ κ key) ε (Option ρ) := fun t =>
  match t.get k with
  | none => .ok (none, t)
  | some r =>
    if cond r then (set r).map fun r' => (some r', t.replace r') else .ok (none, t)

variable {o : Option ρ} {refused : Table ρ κ key → Option ε} {cond : ρ → Bool}
  {set : ρ → Except ε ρ} {e : ε}

/-- What an insertion does: nothing, or it adds the row. -/
theorem insertNew_ok : insertNew r refused t = .ok (o, t') ↔
    (o = none ∧ t' = t ∧ ∃ r', t.get (key r) = some r') ∨
      (o = some r ∧ t' = t.insert r ∧ t.get (key r) = none ∧ refused t = none) := by
  unfold insertNew
  cases t.get (key r) with
  | some r' =>
    simp only [Except.ok.injEq, Prod.mk.injEq, reduceCtorEq, false_and, and_false, or_false]
    constructor
    · rintro ⟨rfl, rfl⟩; exact ⟨rfl, rfl, _, rfl⟩
    · rintro ⟨rfl, rfl, -⟩; exact ⟨rfl, rfl⟩
  | none =>
    cases refused t with
    | some e => simp
    | none =>
      simp only [Except.ok.injEq, Prod.mk.injEq, reduceCtorEq, exists_false, and_false, false_or,
        and_true]
      constructor
      · rintro ⟨rfl, rfl⟩; exact ⟨rfl, rfl⟩
      · rintro ⟨rfl, rfl⟩; exact ⟨rfl, rfl⟩

/-- An insertion is refused for what else the table has against the row. -/
theorem insertNew_error :
    insertNew r refused t = .error e ↔ t.get (key r) = none ∧ refused t = some e := by
  unfold insertNew
  cases t.get (key r) with
  | some r' => simp
  | none => cases refused t <;> simp

/-- What an update does: nothing, or it changes the row with the key. -/
theorem update_ok : update k cond set t = .ok (o, t') ↔
    (o = none ∧ t' = t ∧ ∀ r, t.get k = some r → cond r = false) ∨
      ∃ r r', t.get k = some r ∧ cond r = true ∧ set r = .ok r' ∧ o = some r' ∧
        t' = t.replace r' := by
  constructor
  · intro h
    unfold update at h
    split at h
    · rename_i hget
      cases h
      exact Or.inl ⟨rfl, rfl, fun r hr => by rw [hget] at hr; cases hr⟩
    · rename_i r hget
      split_ifs at h with hcond
      · cases hset : set r with
        | error e => rw [hset] at h; cases h
        | ok r' =>
          rw [hset] at h
          cases h
          exact Or.inr ⟨r, r', hget, hcond, hset, rfl, rfl⟩
      · cases h
        refine Or.inl ⟨rfl, rfl, fun r' hr' => ?_⟩
        rw [hget] at hr'
        cases hr'
        exact Bool.not_eq_true _ ▸ hcond
  · rintro (⟨rfl, rfl, hcond⟩ | ⟨r, r', hget, hcond, hset, rfl, rfl⟩)
    · unfold update
      cases hget : t'.get k with
      | none => rfl
      | some r =>
        have hfalse := hcond r hget
        simp only [hfalse, Bool.false_eq_true, if_false]
    · simp only [update, hget, hcond, if_true, hset, Except.map]

/-- An update is refused when the new row is. -/
theorem update_error : update k cond set t = .error e ↔
    ∃ r, t.get k = some r ∧ cond r = true ∧ set r = .error e := by
  unfold update
  cases t.get k with
  | none => simp
  | some r =>
    cases hcond : cond r with
    | false => simp [hcond]
    | true => cases hset : set r <;> simp [hcond, hset, Except.map]

end Table

end Obolos
