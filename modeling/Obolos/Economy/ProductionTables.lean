import Obolos.Crash.Holding
import Obolos.Economy.ProductionStore

/-!
# What the production tables keep

What is allocated of a purchase is at most what was paid for it, and the links from outputs to inputs
have no cycle (`Holds`).  A new statement keeps both if every one of its inputs passed its checks
(`Consumable`): an input is listed once, and the output is not among the inputs of its inputs.
-/

namespace Obolos

namespace Production

open Transactions (Discipline)
open EdgeList (Edge Acyclic)

/-- A lost connection, or another error that has nothing to do with the statement. -/
def fault (e : ApiError) : Prop := e.lost

/-- A read of the outside: what it holds, or an exception. -/
def answers (w : Index) (o : Read) (r : Except ApiError (ReadAnswer o)) (w' : Index) : Prop :=
  w' = w ∧ (r = .ok (w.read o) ∨ ∃ e, fault e ∧ r = .error e)

/-- An order is not removed, and keeps what its request says is paid. -/
def Index.later (w w' : Index) : Prop :=
  ∀ id row, w.orders id = some row → ∃ row', w'.orders id = some row' ∧
    row'.amountAtomic = row.amountAtomic

theorem Index.later.refl (w : Index) : w.later w := fun _ row h => ⟨row, h, rfl⟩

theorem Index.later.trans {w w' w'' : Index} (h : w.later w') (h' : w'.later w'') :
    w.later w'' := by
  intro id row hrow
  obtain ⟨row', hrow', hamount⟩ := h id row hrow
  obtain ⟨row'', hrow'', hamount'⟩ := h' id row' hrow'
  exact ⟨row'', hrow'', hamount'.trans hamount⟩

/-- What was paid for an order. -/
def Index.Paid (w : Index) (id : JsString) (amount : ℤ) : Prop :=
  ∃ row, w.orders id = some row ∧ readBigInt row.amountAtomic = some amount

theorem Index.Paid.later {w w' : Index} {id : JsString} {amount : ℤ} (h : w.Paid id amount)
    (hw : w.later w') : w'.Paid id amount := by
  obtain ⟨row, hrow, hamount⟩ := h
  obtain ⟨row', hrow', heq⟩ := hw id row hrow
  exact ⟨row', hrow', heq ▸ hamount⟩

/-- **What the tables keep.** -/
structure Holds (t : Tables) (w : Index) : Prop where
  accounts : (t.accounts.map (·.orderId)).Nodup
  /-- A link starts at an order with a statement. -/
  outputs : ∀ a ∈ t.allocations, a.outputOrderId ∈ t.accounts.map (·.orderId)
  /-- What is allocated of a purchase is at most what was paid. -/
  bound : ∀ a ∈ t.allocations, ∃ amount, w.Paid a.inputOrderId amount ∧
    (t.allocated a.inputOrderId : ℤ) ≤ amount
  acyclic : Acyclic t.links

/-- Rows are appended. -/
structure Later (t t' : Tables) : Prop where
  accounts : t.accounts <+: t'.accounts
  allocations : t.allocations <+: t'.allocations

/-- The lock of the accounts protects the tables. -/
def Same : Lock → Tables → Tables → Prop
  | .accounts, t, t' => t' = t
  | _, _, _ => True

theorem Same.refl (k : Lock) (t : Tables) : Same k t t := by
  cases k with
  | accounts => exact rfl
  | account orderId => exact trivial
  | evidence evidenceHash => exact trivial
  | allocation key => exact trivial

theorem Same.trans {k : Lock} {t t' t'' : Tables} (h : Same k t t') (h' : Same k t' t'') :
    Same k t t'' := by
  cases k with
  | accounts => exact Eq.trans h' h
  | account orderId => exact trivial
  | evidence evidenceHash => exact trivial
  | allocation key => exact trivial

theorem Later.refl (t : Tables) : Later t t := ⟨List.prefix_rfl, List.prefix_rfl⟩

theorem Later.trans {t t' t'' : Tables} (h : Later t t') (h' : Later t' t'') : Later t t'' :=
  ⟨h.accounts.trans h'.accounts, h.allocations.trans h'.allocations⟩

theorem Holds.later {t : Tables} {w w' : Index} (h : Holds t w) (hw : w.later w') : Holds t w' :=
  { h with
    bound := fun a ha => by
      obtain ⟨amount, hpaid, hle⟩ := h.bound a ha
      exact ⟨amount, hpaid.later hw, hle⟩ }

/-- What the transactions of the production tables obey. -/
def discipline : Discipline Lock Tables Index where
  inv := Holds
  later := Later
  later_refl := Later.refl
  later_trans _ _ _ := Later.trans
  same := Same
  same_refl := Same.refl
  same_trans _ _ _ _ := Same.trans
  outside := Index.later
  outside_refl := Index.later.refl
  outside_trans _ _ _ := Index.later.trans
  inv_outside _ _ _ := Holds.later

theorem protects : discipline.Protects .accounts := fun _ _ h => h

/-! ### A new statement -/

/-- The rows of the inputs. -/
def allocationsOf (orderId : JsString) (inputs : List Input) : List Allocation :=
  inputs.map fun item => ⟨orderId, item.orderId, item.amountAtomic⟩

/-- The tables with a statement. -/
def Tables.record (t : Tables) (row : AccountRow) (inputs : List Input) : Tables :=
  ⟨t.accounts ++ [row], t.allocations ++ allocationsOf row.orderId inputs⟩

/-- What the checks of an input have established. -/
structure Consumable (t : Tables) (w : Index) (orderId : JsString) (item : Input) : Prop where
  paid : ∃ amount, w.Paid item.orderId amount ∧
    (t.allocated item.orderId + item.amountAtomic : ℤ) ≤ amount
  acyclic : EdgeList.descends t.links item.orderId orderId = false

theorem Consumable.later {t : Tables} {w w' : Index} {orderId : JsString} {item : Input}
    (h : Consumable t w orderId item) (hw : w.later w') : Consumable t w' orderId item := by
  obtain ⟨amount, hpaid, hle⟩ := h.paid
  exact ⟨⟨amount, hpaid.later hw, hle⟩, h.acyclic⟩

variable {t : Tables} {w : Index} {row : AccountRow} {inputs : List Input} {item : Input}

theorem links_record (t : Tables) (row : AccountRow) (inputs : List Input) :
    (t.record row inputs).links = t.links ++
      EdgeList.fan row.orderId (inputs.map Input.orderId) := by
  rw [Tables.links, Tables.record, List.map_append, EdgeList.fan, allocationsOf, List.map_map,
    List.map_map]
  rfl

/-- What a statement allocates of an order. -/
def listed (inputs : List Input) (id : JsString) : ℕ :=
  ((inputs.filter fun item => item.orderId = id).map Input.amountAtomic).sum

theorem allocated_record (t : Tables) (row : AccountRow) (inputs : List Input) (id : JsString) :
    (t.record row inputs).allocated id = t.allocated id + listed inputs id := by
  have hfilter : ((allocationsOf row.orderId inputs).filter fun a => a.inputOrderId = id).map
      (·.amountAtomic) = (inputs.filter fun item => item.orderId = id).map Input.amountAtomic := by
    rw [allocationsOf, List.filter_map, List.map_map]
    rfl
  rw [Tables.allocated, Tables.record, List.filter_append, List.map_append, List.sum_append,
    hfilter]
  rfl

/-- An order that is not listed. -/
theorem listed_of_notMem {id : JsString} (h : id ∉ inputs.map Input.orderId) :
    listed inputs id = 0 := by
  have hnil : (inputs.filter fun item => item.orderId = id) = [] := by
    refine List.filter_eq_nil_iff.2 fun item hitem hid => h ?_
    exact of_decide_eq_true hid ▸ List.mem_map_of_mem hitem
  rw [listed, hnil]
  rfl

/-- An order is listed once. -/
theorem listed_of_mem (hnodup : (inputs.map Input.orderId).Nodup) (hitem : item ∈ inputs) :
    listed inputs item.orderId = item.amountAtomic := by
  induction inputs with
  | nil => cases hitem
  | cons head inputs ih =>
    rw [List.map_cons, List.nodup_cons] at hnodup
    have hcons : listed (head :: inputs) item.orderId =
        (if head.orderId = item.orderId then head.amountAtomic else 0) +
          listed inputs item.orderId := by
      by_cases hid : head.orderId = item.orderId
      · simp [listed, hid]
      · simp [listed, hid]
    rw [hcons]
    rcases List.mem_cons.1 hitem with rfl | htail
    · rw [if_pos rfl, listed_of_notMem hnodup.1, Nat.add_zero]
    · have hne : head.orderId ≠ item.orderId :=
        fun heq => hnodup.1 (heq ▸ List.mem_map_of_mem htail)
      rw [if_neg hne, ih hnodup.2 htail, Nat.zero_add]

/-- **A new statement keeps the tables.** -/
theorem Holds.record (h : Holds t w) (hnew : row.orderId ∉ t.accounts.map (·.orderId))
    (hnodup : (inputs.map Input.orderId).Nodup) (hself : row.orderId ∉ inputs.map Input.orderId)
    (hinputs : ∀ item ∈ inputs, Consumable t w row.orderId item) :
    Holds (t.record row inputs) w where
  accounts := by
    show ((t.accounts ++ [row]).map (·.orderId)).Nodup
    rw [List.map_append]
    exact h.accounts.append (List.nodup_singleton _) (List.disjoint_singleton.2 hnew)
  outputs a ha := by
    show a.outputOrderId ∈ (t.accounts ++ [row]).map (·.orderId)
    rw [List.map_append, List.mem_append]
    rcases List.mem_append.1 ha with hold | hadded
    · exact Or.inl (h.outputs a hold)
    · obtain ⟨item, -, rfl⟩ := List.mem_map.1 hadded
      exact Or.inr (List.mem_singleton_self _)
  bound a ha := by
    rw [allocated_record]
    by_cases hmem : a.inputOrderId ∈ inputs.map Input.orderId
    · obtain ⟨item, hitem, heq⟩ := List.mem_map.1 hmem
      obtain ⟨amount, hpaid, hle⟩ := (hinputs item hitem).paid
      rw [← heq, listed_of_mem hnodup hitem]
      exact ⟨amount, hpaid, by exact_mod_cast hle⟩
    · rcases List.mem_append.1 ha with hold | hadded
      · rw [listed_of_notMem hmem]
        exact h.bound a hold
      · obtain ⟨item, hitem, rfl⟩ := List.mem_map.1 hadded
        exact absurd (List.mem_map_of_mem hitem) hmem
  acyclic := by
    rw [links_record]
    refine h.acyclic.append fun id hid hreach => ?_
    obtain ⟨item, hitem, rfl⟩ := List.mem_map.1 hid
    rcases Relation.reflTransGen_iff_eq_or_transGen.1 hreach with heq | hpath
    · exact hself (heq ▸ List.mem_map_of_mem hitem)
    · have hfalse := (hinputs item hitem).acyclic
      rw [EdgeList.descends_iff.2 hpath] at hfalse
      cases hfalse

theorem later_record (t : Tables) (row : AccountRow) (inputs : List Input) :
    Later t (t.record row inputs) :=
  ⟨List.prefix_append _ _, List.prefix_append _ _⟩

end Production

end Obolos
