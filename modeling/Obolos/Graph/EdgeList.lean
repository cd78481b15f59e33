import Mathlib.Logic.Relation

/-!
# Graphs as lists of edges

Which vertices are reachable (`path`) can be computed edge by edge; and a graph without cycles stays
one when a vertex gets edges to vertices from which it cannot be reached (`Acyclic.append`).
-/

namespace Obolos

namespace EdgeList

variable {V : Type} {edges : List (V × V)} {a b c : V}

/-- There is an edge. -/
def Edge (edges : List (V × V)) (a b : V) : Prop := (a, b) ∈ edges

/-- Whether there is a path, which may be empty. -/
def path [DecidableEq V] : List (V × V) → V → V → Bool
  | [], a, b => decide (a = b)
  | (x, y) :: edges, a, b => path edges a b || path edges a x && path edges y b

/-- Whether there is a path with an edge. -/
def descends [DecidableEq V] (edges : List (V × V)) (a b : V) : Bool :=
  edges.any fun e => decide (e.1 = a) && path edges e.2 b

/-- A path with a new edge: without it, or up to its start and on from its end. -/
theorem reach_cons {x y : V} : Relation.ReflTransGen (Edge ((x, y) :: edges)) a b ↔
    Relation.ReflTransGen (Edge edges) a b ∨
      Relation.ReflTransGen (Edge edges) a x ∧ Relation.ReflTransGen (Edge edges) y b := by
  have hle : Edge edges ≤ Edge ((x, y) :: edges) := fun _ _ he => List.mem_cons_of_mem _ he
  have hmono : ∀ {a b}, Relation.ReflTransGen (Edge edges) a b →
      Relation.ReflTransGen (Edge ((x, y) :: edges)) a b :=
    fun h => Relation.ReflTransGen.mono hle _ _ h
  constructor
  · intro h
    induction h with
    | refl => exact Or.inl .refl
    | tail _ hedge ih =>
      rcases List.mem_cons.1 hedge with heq | hold
      · cases heq
        rcases ih with hpath | ⟨hpath, -⟩
        · exact Or.inr ⟨hpath, .refl⟩
        · exact Or.inr ⟨hpath, .refl⟩
      · rcases ih with hpath | ⟨hpath, hpath'⟩
        · exact Or.inl (hpath.tail hold)
        · exact Or.inr ⟨hpath, hpath'.tail hold⟩
  · rintro (hpath | ⟨hpath, hpath'⟩)
    · exact hmono hpath
    · exact ((hmono hpath).tail List.mem_cons_self).trans (hmono hpath')

theorem path_iff [DecidableEq V] : path edges a b = true ↔
    Relation.ReflTransGen (Edge edges) a b := by
  induction edges generalizing a b with
  | nil =>
    rw [path, decide_eq_true_eq]
    constructor
    · rintro rfl
      exact .refl
    · intro h
      cases h with
      | refl => rfl
      | tail _ hedge => cases hedge
  | cons e edges ih =>
    obtain ⟨x, y⟩ := e
    rw [path, Bool.or_eq_true, Bool.and_eq_true, ih, ih, ih, reach_cons]

theorem descends_iff [DecidableEq V] : descends edges a b = true ↔
    Relation.TransGen (Edge edges) a b := by
  rw [descends, List.any_eq_true, Relation.TransGen.head'_iff]
  constructor
  · rintro ⟨e, he, hpath⟩
    rw [Bool.and_eq_true, decide_eq_true_eq, path_iff] at hpath
    obtain ⟨rfl, hpath⟩ := hpath
    exact ⟨e.2, he, hpath⟩
  · rintro ⟨y, hedge, hpath⟩
    refine ⟨(a, y), hedge, ?_⟩
    rw [Bool.and_eq_true, decide_eq_true_eq, path_iff]
    exact ⟨rfl, hpath⟩

/-- No path leads back. -/
def Acyclic (edges : List (V × V)) : Prop := ∀ a, ¬ Relation.TransGen (Edge edges) a a

theorem acyclic_nil : Acyclic ([] : List (V × V)) := by
  intro a h
  obtain ⟨_, hedge, -⟩ := Relation.TransGen.head'_iff.1 h
  cases hedge

section Append

variable {targets : List V}

/-- The edges from a vertex. -/
def fan (a : V) (targets : List V) : List (V × V) := targets.map fun b => (a, b)

theorem edge_append : Edge (edges ++ fan a targets) b c ↔ Edge edges b c ∨ b = a ∧ c ∈ targets := by
  unfold Edge fan
  rw [List.mem_append, List.mem_map]
  constructor
  · rintro (hold | ⟨t, ht, heq⟩)
    · exact Or.inl hold
    · cases heq
      exact Or.inr ⟨rfl, ht⟩
  · rintro (hold | ⟨rfl, hc⟩)
    · exact Or.inl hold
    · exact Or.inr ⟨c, hc, rfl⟩

/-- A path that does not reach `a` uses no edge from `a`. -/
theorem reach_of_not_reach (ha : ¬ Relation.ReflTransGen (Edge edges) b a)
    (h : Relation.ReflTransGen (Edge (edges ++ fan a targets)) b c) :
    Relation.ReflTransGen (Edge edges) b c := by
  induction h with
  | refl => exact .refl
  | tail _ hedge ih =>
    rcases edge_append.1 hedge with hold | ⟨rfl, -⟩
    · exact ih.tail hold
    · exact absurd ih ha

/-- A path uses no new edge, or one of them for the last time. -/
theorem descends_append (h : Relation.TransGen (Edge (edges ++ fan a targets)) b c) :
    Relation.TransGen (Edge edges) b c ∨ ∃ t ∈ targets,
      Relation.ReflTransGen (Edge (edges ++ fan a targets)) b a ∧
        Relation.ReflTransGen (Edge (edges ++ fan a targets)) t c := by
  induction h with
  | single hedge =>
    rcases edge_append.1 hedge with hold | ⟨rfl, hc⟩
    · exact Or.inl (.single hold)
    · exact Or.inr ⟨_, hc, .refl, .refl⟩
  | tail hpath hedge ih =>
    rcases edge_append.1 hedge with hold | ⟨rfl, hc⟩
    · rcases ih with hpath' | ⟨t, ht, hpath', hpath''⟩
      · exact Or.inl (hpath'.tail hold)
      · exact Or.inr ⟨t, ht, hpath', hpath''.tail hedge⟩
    · exact Or.inr ⟨_, hc, hpath.to_reflTransGen, .refl⟩

/-- **New edges to vertices from which their start cannot be reached make no cycle.** -/
theorem Acyclic.append (h : Acyclic edges)
    (htargets : ∀ t ∈ targets, ¬ Relation.ReflTransGen (Edge edges) t a) :
    Acyclic (edges ++ fan a targets) := by
  intro b hcycle
  rcases descends_append hcycle with hold | ⟨t, ht, hpath, hpath'⟩
  · exact h b hold
  · exact htargets t ht (reach_of_not_reach (htargets t ht) (hpath'.trans hpath))

end Append

end EdgeList

end Obolos
