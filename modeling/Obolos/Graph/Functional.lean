import Mathlib.Data.List.Chain
import Mathlib.Logic.Relation

/-!
# Graphs with at most one edge out of a vertex

Following the edges from a vertex ends in a sink or goes round a cycle.  The sink, or the least
vertex of the cycle, represents the vertex; two vertices have the same representative if and only if
they are connected when the directions of the edges are ignored (`connected_iff`).
-/

namespace Obolos

namespace Functional

open Relation (ReflTransGen TransGen EqvGen)

variable {V : Type*} {next : V → Option V} {le : V → V → Prop} {a b c x y : V}

/-- There is an edge. -/
def Edge (next : V → Option V) (a b : V) : Prop := next a = some b

/-- The vertex is on a cycle. -/
def Cyclic (next : V → Option V) (a : V) : Prop := TransGen (Edge next) a a

/-- The sink that is reached, or the least vertex of the cycle that is reached. -/
def Representative (next : V → Option V) (le : V → V → Prop) (a x : V) : Prop :=
  ReflTransGen (Edge next) a x ∧
    (next x = none ∨
      Cyclic next x ∧ ∀ y, ReflTransGen (Edge next) a y → Cyclic next y → le x y)

theorem edge_unique : Relator.RightUnique (Edge next) := by
  intro a b c hb hc
  exact Option.some_inj.1 (hb.symm.trans hc)

theorem Cyclic.next_ne_none (h : Cyclic next a) : next a ≠ none := by
  obtain ⟨b, hab, -⟩ := TransGen.head'_iff.1 h
  exact fun hnone => Option.some_ne_none b (hab.symm.trans hnone)

/-- From a sink only itself is reached. -/
theorem eq_of_sink (hsink : next a = none) (h : ReflTransGen (Edge next) a b) : a = b := by
  rcases h.cases_head with rfl | ⟨c, hac, -⟩
  · rfl
  · exact absurd (hac.symm.trans hsink) (Option.some_ne_none c)

/-- Following the cycle from any vertex that it reaches comes back. -/
theorem Cyclic.back (h : Cyclic next a) (hab : ReflTransGen (Edge next) a b) :
    ReflTransGen (Edge next) b a := by
  induction hab with
  | refl => exact .refl
  | @tail b c hab hbc ih =>
    rcases ih.cases_head with rfl | ⟨c', hbc', hca⟩
    · -- The step leaves `a` itself, and goes round the cycle of `a`.
      obtain ⟨c', hac', hca⟩ := TransGen.head'_iff.1 h
      rwa [edge_unique hbc hac']
    · rwa [edge_unique hbc hbc']

/-- Whatever the vertex before a step reaches on a cycle, the vertex after it reaches. -/
theorem Cyclic.of_step (h : Cyclic next x) (hstep : Edge next a b)
    (hax : ReflTransGen (Edge next) a x) : ReflTransGen (Edge next) b x := by
  rcases hax.cases_head with rfl | ⟨c, hac, hcx⟩
  · exact h.back (.single hstep)
  · rwa [edge_unique hstep hac]

theorem Representative.of_step (hstep : Edge next a b) (h : Representative next le b x) :
    Representative next le a x := by
  obtain ⟨hreach, hsink | ⟨hcycle, hleast⟩⟩ := h
  · exact ⟨hreach.head hstep, Or.inl hsink⟩
  · exact ⟨hreach.head hstep,
      Or.inr ⟨hcycle, fun y hay hy => hleast y (hy.of_step hstep hay) hy⟩⟩

/-- A vertex that reaches a sink is represented by no vertex of a cycle. -/
theorem not_sink_cyclic (hx : ReflTransGen (Edge next) a x) (hy : ReflTransGen (Edge next) a y)
    (hsink : next x = none) (hcycle : Cyclic next y) : False := by
  rcases ReflTransGen.total_of_right_unique edge_unique hx hy with hxy | hyx
  · rw [← eq_of_sink hsink hxy] at hcycle
    exact hcycle.next_ne_none hsink
  · rw [← eq_of_sink hsink (hcycle.back hyx)] at hcycle
    exact hcycle.next_ne_none hsink

theorem Representative.unique (hle : ∀ {x y}, le x y → le y x → x = y)
    (hx : Representative next le a x) (hy : Representative next le a y) : x = y := by
  obtain ⟨hax, hsink | ⟨hcycle, hleast⟩⟩ := hx <;>
    obtain ⟨hay, hsink' | ⟨hcycle', hleast'⟩⟩ := hy
  · rcases ReflTransGen.total_of_right_unique edge_unique hax hay with hxy | hyx
    · exact eq_of_sink hsink hxy
    · exact (eq_of_sink hsink' hyx).symm
  · exact (not_sink_cyclic hax hay hsink hcycle').elim
  · exact (not_sink_cyclic hay hax hsink' hcycle).elim
  · exact hle (hleast y hay hcycle') (hleast' x hax hcycle)

theorem connected_of_reach (h : ReflTransGen (Edge next) a b) : EqvGen (Edge next) a b := by
  induction h with
  | refl => exact .refl a
  | tail _ hstep ih => exact ih.trans _ _ _ (.rel _ _ hstep)

/-- Representatives are equal exactly within a component. -/
theorem connected_iff (hle : ∀ {x y}, le x y → le y x → x = y) {root : V → V}
    (hroot : ∀ a, Representative next le a (root a)) :
    root a = root b ↔ EqvGen (Edge next) a b := by
  constructor
  · intro h
    have ha := connected_of_reach (hroot a).1
    have hb := connected_of_reach (hroot b).1
    rw [h] at ha
    exact ha.trans _ _ _ (hb.symm _ _)
  · intro h
    induction h with
    | rel a b hstep => exact (hroot a).unique hle ((hroot b).of_step hstep)
    | refl a => rfl
    | symm a b _ ih => exact ih.symm
    | trans a b c _ _ ihab ihbc => exact ihab.trans ihbc

/-! ### Paths -/

/-- A vertex of a path has an edge to a later one. -/
theorem edge_of_chain {l : List V} (h : List.IsChain (Edge next) (l ++ [c])) (hx : x ∈ l) :
    ∃ y ∈ l.tail ++ [c], Edge next x y := by
  induction l with
  | nil => exact absurd hx List.not_mem_nil
  | cons z l ih =>
    rcases List.mem_cons.1 hx with rfl | hx
    · cases l with
      | nil => exact ⟨c, by simp, (List.isChain_cons_cons.1 h).1⟩
      | cons y l => exact ⟨y, by simp, (List.isChain_cons_cons.1 h).1⟩
    · obtain ⟨y, hy, hxy⟩ := ih h.tail hx
      refine ⟨y, ?_, hxy⟩
      rcases List.mem_append.1 hy with hy | hy
      · exact List.mem_append_left _ (List.mem_of_mem_tail hy)
      · exact List.mem_append_right _ hy

/-- The end of a path is reached from each of its vertices. -/
theorem reach_end {l : List V} (h : List.IsChain (Edge next) (l ++ [c])) (hx : x ∈ l) :
    TransGen (Edge next) x c := by
  induction l generalizing x with
  | nil => exact absurd hx List.not_mem_nil
  | cons z l ih =>
    cases l with
    | nil =>
      rw [List.mem_singleton.1 hx]
      exact .single (List.isChain_cons_cons.1 h).1
    | cons y l =>
      rcases List.mem_cons.1 hx with rfl | hx
      · have hend : TransGen (Edge next) y c := ih h.tail List.mem_cons_self
        exact hend.head (List.isChain_cons_cons.1 h).1
      · exact ih h.tail hx

/-- The vertices of a path are reached from its start. -/
theorem reach_of_chain {l : List V} (h : List.IsChain (Edge next) (a :: l)) (hx : x ∈ a :: l) :
    ReflTransGen (Edge next) a x := by
  induction l generalizing a with
  | nil =>
    rw [List.mem_singleton.1 hx]
  | cons b l ih =>
    obtain ⟨hstep, hrest⟩ := List.isChain_cons_cons.1 h
    rcases List.mem_cons.1 hx with rfl | hx
    · exact .refl
    · exact (ih hrest hx).head hstep

/-- A path that comes back to its start: its vertices are all that is reached from there. -/
theorem mem_of_loop {l : List V} (h : List.IsChain (Edge next) (c :: l ++ [c]))
    (hreach : ReflTransGen (Edge next) c x) : x ∈ c :: l := by
  induction hreach with
  | refl => exact List.mem_cons_self
  | tail _ hstep ih =>
    obtain ⟨y, hy, hxy⟩ := edge_of_chain h ih
    rw [edge_unique hstep hxy]
    rcases List.mem_append.1 hy with hy | hy
    · exact List.mem_cons_of_mem _ hy
    · rw [List.mem_singleton.1 hy]
      exact List.mem_cons_self

/-- The least vertex of a loop at the end of a path represents the start of the path. -/
theorem representative_of_loop {l : List V} (hreach : ReflTransGen (Edge next) a c)
    (h : List.IsChain (Edge next) (c :: l ++ [c])) (hx : x ∈ c :: l)
    (hleast : ∀ y ∈ c :: l, le x y) : Representative next le a x := by
  have hcx : ReflTransGen (Edge next) c x := reach_of_chain h (List.mem_append_left _ hx)
  have hcycle : Cyclic next c := reach_end h List.mem_cons_self
  refine ⟨hreach.trans hcx, Or.inr ⟨(reach_end h hx).trans_left hcx, fun y hay hy => ?_⟩⟩
  refine hleast y (mem_of_loop h ?_)
  rcases ReflTransGen.total_of_right_unique edge_unique hreach hay with hcy | hyc
  · exact hcy
  · exact hy.back hyc

end Functional

end Obolos
