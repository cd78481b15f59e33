import Obolos.Economy.Recovery
import Obolos.Graph.Functional
import Obolos.Js.Same
import Mathlib.Data.List.Perm.Subperm
import Mathlib.Data.List.Sort

/-!
# Known controllers

`economy/ownership.ts`: the bindings map an executor to its owner, which may be an executor again.
`root` follows them; it ends at an address without an owner, or on a cycle, where it returns the
least address.  Two addresses have the same known controller if the bindings connect them.
-/

namespace Obolos

namespace Recovery

open Functional (Representative)

variable {bindings : List (JsString × JsString)} {path : List JsString}
  {a b current first result : JsString}

/-- How the loop of `root` ends, with the addresses it has passed. -/
inductive Loop (bindings : List (JsString × JsString)) : List JsString → JsString → JsString → Prop
  | unbound {path : List JsString} {current : JsString} : 
    (bindings.find? fun b => b.1 = current) = none → Loop bindings path current current
  | own {path : List JsString} {current : JsString} {b : JsString × JsString} :
    (bindings.find? fun b => b.1 = current) = some b → b.2 = current →
    Loop bindings path current current
  | cycle {path : List JsString} {current : JsString} {b : JsString × JsString} :
    (bindings.find? fun b => b.1 = current) = some b → b.2 ≠ current →
    current ∈ path →
    Loop bindings path current
      (((path.drop (path.idxOf current)).insertionSort fun a b => a.le b = true).headD current)
  | next {path : List JsString} {current result : JsString} {b : JsString × JsString} :
    (bindings.find? fun b => b.1 = current) = some b →
    b.2 ≠ current → current ∉ path → Loop bindings (path ++ [current]) b.2 result →
    Loop bindings path current result

/-- The owner that the loop goes on with. -/
def ownerOf (bindings : List (JsString × JsString)) (current : JsString) : Option JsString :=
  match bindings.find? fun b => b.1 = current with
  | none => none
  | some b => if b.2 = current then none else some b.2

/-- The path so far, from the start to the current address. -/
structure Walk (bindings : List (JsString × JsString)) (first : JsString) (path : List JsString)
    (current : JsString) : Prop where
  chain : List.IsChain (Functional.Edge (ownerOf bindings)) (path ++ [current])
  head : (path ++ [current]).head? = some first
  nodup : path.Nodup
  keys : ∀ a ∈ path, a ∈ bindings.map Prod.fst

theorem Walk.start (bindings : List (JsString × JsString)) (first : JsString) :
    Walk bindings first [] first :=
  ⟨List.isChain_singleton _, rfl, List.nodup_nil, by simp⟩

theorem Walk.reach (h : Walk bindings first path current) :
    Relation.ReflTransGen (Functional.Edge (ownerOf bindings)) first current := by
  have hmem : current ∈ path ++ [current] := by simp
  obtain ⟨c, l, hl⟩ := List.exists_cons_of_ne_nil (List.ne_nil_of_mem hmem)
  have hhead := h.head
  have hchain := h.chain
  rw [hl] at hmem hhead hchain
  cases hhead
  exact Functional.reach_of_chain hchain hmem

theorem mem_keys {b : JsString × JsString} (h : (bindings.find? fun b => b.1 = current) = some b) :
    current ∈ bindings.map Prod.fst := by
  have hkey : b.1 = current := by simpa using List.find?_some h
  exact List.mem_map.2 ⟨b, List.mem_of_find?_eq_some h, hkey⟩

theorem ownerOf_eq {b : JsString × JsString} (h : (bindings.find? fun b => b.1 = current) = some b)
    (hne : b.2 ≠ current) : ownerOf bindings current = some b.2 := by
  rw [ownerOf, h]
  exact if_neg hne

theorem Walk.next (h : Walk bindings first path current) {b : JsString × JsString}
    (hb : (bindings.find? fun b => b.1 = current) = some b) (hne : b.2 ≠ current)
    (hnew : current ∉ path) : Walk bindings first (path ++ [current]) b.2 where
  chain := by
    refine List.IsChain.append h.chain (List.isChain_singleton _) ?_
    intro x hx y hy
    cases Option.some_inj.1 ((List.getLast?_concat).symm.trans hx)
    cases hy
    exact ownerOf_eq hb hne
  head := by
    rw [List.head?_append, h.head]
    rfl
  nodup := List.nodup_append.2 ⟨h.nodup, List.nodup_singleton _, by
    rintro x hx y hy rfl
    exact hnew (List.mem_singleton.1 hy ▸ hx)⟩
  keys := by
    intro x hx
    rcases List.mem_append.1 hx with hx | hx
    · exact h.keys x hx
    · rw [List.mem_singleton.1 hx]
      exact mem_keys hb

/-- A path passes every binding at most once. -/
theorem Walk.length_le (h : Walk bindings first path current) : path.length ≤ bindings.length := by
  have hsub := h.nodup.subperm h.keys
  simpa using hsub.length_le

theorem least_of_sorted {l : List JsString} (hne : l ≠ []) (a : JsString) :
    let x := (l.insertionSort fun a b => a.le b = true).headD a
    x ∈ l ∧ ∀ y ∈ l, x.le y = true := by
  have : Std.Total fun a b : JsString => a.le b = true := ⟨Json.le_total⟩
  have : IsTrans JsString fun a b => a.le b = true := ⟨fun _ _ _ => Json.le_trans⟩
  have hsorted := List.pairwise_insertionSort (fun a b : JsString => a.le b = true) l
  have hmem : ∀ y, y ∈ l.insertionSort (fun a b => a.le b = true) ↔ y ∈ l :=
    fun y => List.mem_insertionSort _
  cases hl : l.insertionSort fun a b => a.le b = true with
  | nil =>
    obtain ⟨y, hy⟩ := List.exists_mem_of_ne_nil l hne
    exact absurd ((hmem y).2 hy) (by rw [hl]; exact List.not_mem_nil)
  | cons x rest =>
    rw [hl] at hsorted hmem
    refine ⟨(hmem x).1 List.mem_cons_self, fun y hy => ?_⟩
    rcases List.mem_cons.1 ((hmem y).2 hy) with rfl | hy
    · exact (Json.le_total _ _).elim id id
    · exact List.rel_of_pairwise_cons hsorted hy

/-- An address that the loop meets again starts a loop at the end of the path. -/
theorem Walk.loop (h : Walk bindings first path current) (hmem : current ∈ path) :
    ∃ l, path.drop (path.idxOf current) = current :: l ∧
      List.IsChain (Functional.Edge (ownerOf bindings)) (current :: l ++ [current]) := by
  have hlt := List.idxOf_lt_length_of_mem hmem
  have hdrop : path.drop (path.idxOf current) =
      current :: path.drop (path.idxOf current + 1) := by
    rw [List.drop_eq_getElem_cons hlt, List.getElem_idxOf hlt]
  refine ⟨_, hdrop, ?_⟩
  rw [← hdrop, ← List.drop_append_of_le_length hlt.le]
  exact h.chain.drop _

/-- The loop ends, at the address that represents the start. -/
theorem Walk.ends (fuel : ℕ) (h : Walk bindings first path current)
    (hfuel : bindings.length < path.length + fuel) :
    Loop bindings path current (rootFrom bindings fuel path current) ∧
      Representative (ownerOf bindings) (fun a b => a.le b = true) first
        (rootFrom bindings fuel path current) := by
  induction fuel generalizing path current with
  | zero =>
    have := h.length_le
    omega
  | succ fuel ih =>
    rw [rootFrom]
    cases hb : bindings.find? fun b => b.1 = current with
    | none =>
      refine ⟨.unbound hb, h.reach, Or.inl ?_⟩
      rw [ownerOf, hb]
    | some b =>
      by_cases howner : b.2 = current
      · have hsink : ownerOf bindings current = none := by
          rw [ownerOf, hb]
          exact if_pos howner
        simp only [howner, if_true]
        exact ⟨.own hb howner, h.reach, Or.inl hsink⟩
      · by_cases hmem : current ∈ path
        · simp only [howner, hmem, if_false, if_true]
          refine ⟨.cycle hb howner hmem, ?_⟩
          obtain ⟨l, hdrop, hchain⟩ := h.loop hmem
          obtain ⟨hx, hleast⟩ := least_of_sorted (List.cons_ne_nil current l) current
          rw [hdrop]
          exact Functional.representative_of_loop h.reach hchain hx hleast
        · simp only [howner, hmem, if_false]
          have hend := ih (h.next hb howner hmem) (by
            rw [List.length_append, List.length_singleton]
            omega)
          exact ⟨.next hb howner hmem hend.1, hend.2⟩

/-- `root` ends, at the address that represents the value. -/
theorem root_ends (bindings : List (JsString × JsString)) (value : JsString) :
    Loop bindings [] value.toLowerCase (root bindings value) ∧
      Representative (ownerOf bindings) (fun a b => a.le b = true) value.toLowerCase
        (root bindings value) :=
  (Walk.start bindings value.toLowerCase).ends _ (by simp)

/-! ### Components -/

/-- A binding of a map is the one that is found. -/
theorem find_binding (hmap : (bindings.map Prod.fst).Nodup) {b : JsString × JsString}
    (h : b ∈ bindings) : (bindings.find? fun c => c.1 = b.1) = some b := by
  cases hfind : bindings.find? fun c => c.1 = b.1 with
  | none => simpa using List.find?_eq_none.1 hfind b h
  | some c =>
    have hkey : c.1 = b.1 := by simpa using List.find?_some hfind
    rw [List.inj_on_of_nodup_map hmap (List.mem_of_find?_eq_some hfind) h hkey]

/-- The edges to other addresses connect what the bindings connect. -/
theorem connected_bindings (hmap : (bindings.map Prod.fst).Nodup) :
    Relation.EqvGen (Functional.Edge (ownerOf bindings)) a b ↔
      Relation.EqvGen (fun x y => (x, y) ∈ bindings) a b := by
  constructor
  · refine Relation.EqvGen.mono (fun x y hedge => ?_) a b
    rw [Functional.Edge, ownerOf] at hedge
    split at hedge
    · exact absurd hedge.symm (Option.some_ne_none y)
    · next c hfind =>
      have hkey : c.1 = x := by simpa using List.find?_some hfind
      split_ifs at hedge
      rw [← hkey, ← Option.some_inj.1 hedge]
      exact List.mem_of_find?_eq_some hfind
  · intro h
    induction h with
    | rel x y hmem =>
      by_cases howner : y = x
      · rw [howner]
        exact .refl x
      · exact .rel _ _ (ownerOf_eq (find_binding hmap hmem) howner)
    | refl x => exact .refl x
    | symm x y _ ih => exact ih.symm _ _
    | trans x y z _ _ ihxy ihyz => exact ihxy.trans _ _ _ ihyz

theorem Loop.unique {result' : JsString} (h : Loop bindings path current result)
    (h' : Loop bindings path current result') : result = result' := by
  induction h with
  | unbound hb =>
    cases h' with
    | unbound => rfl
    | own hb' | cycle hb' | next hb' => cases hb.symm.trans hb'
  | own hb howner =>
    cases h' with
    | unbound | own => rfl
    | cycle hb' howner' | next hb' howner' =>
      cases hb.symm.trans hb'
      exact absurd howner howner'
  | cycle hb howner hmem =>
    cases h' with
    | unbound hb' => cases hb.symm.trans hb'
    | own hb' howner' =>
      cases hb.symm.trans hb'
      exact absurd howner' howner
    | cycle => rfl
    | next _ _ hnew => exact absurd hmem hnew
  | next hb howner hnew _ ih =>
    cases h' with
    | unbound hb' => cases hb.symm.trans hb'
    | own hb' howner' =>
      cases hb.symm.trans hb'
      exact absurd howner' howner
    | cycle _ _ hmem => exact absurd hmem hnew
    | next hb' _ _ h' =>
      cases hb.symm.trans hb'
      exact ih h'

/-- `sameKnownController` is an equivalence relation. -/
theorem sameKnownController_equivalence (bindings : List (JsString × JsString)) :
    Equivalence fun a b => sameKnownController a b bindings = true := by
  have hiff : ∀ a b, sameKnownController a b bindings = true ↔ root bindings a = root bindings b :=
    fun a b => decide_eq_true_iff
  simp only [hiff]
  exact ⟨fun _ => rfl, Eq.symm, Eq.trans⟩

/-- The loop of `root` ends, for every value.  Two addresses have the same known controller exactly
within a component of the bindings, whatever their letter case. -/
theorem sameKnownController_component (hmap : (bindings.map Prod.fst).Nodup) :
    (∀ value result, Loop bindings [] value.toLowerCase result ↔ result = root bindings value) ∧
      (∀ a b, sameKnownController a b bindings = true ↔
        Relation.EqvGen (fun x y => (x, y) ∈ bindings) a.toLowerCase b.toLowerCase) ∧
      Equivalence fun a b => sameKnownController a b bindings = true := by
  refine ⟨fun value result => ?_, fun a b => ?_, sameKnownController_equivalence bindings⟩
  · constructor
    · exact fun h => h.unique (root_ends bindings value).1
    · rintro rfl
      exact (root_ends bindings value).1
  · have hroot : ∀ x, Representative (ownerOf bindings) (fun a b => a.le b = true) x
        (rootFrom bindings (bindings.length + 1) [] x) :=
      fun x => ((Walk.start bindings x).ends _ (by simp)).2
    rw [← connected_bindings hmap, ← Functional.connected_iff Json.le_antisymm hroot]
    exact decide_eq_true_iff

/-- Two tails that enter a cycle at different addresses, and an executor that owns itself. -/
theorem sameKnownController_component_cycle :
    let bindings := [(js "0xa", js "0xb"), (js "0xb", js "0xc"), (js "0xc", js "0xb"),
      (js "0xd", js "0xc"), (js "0xe", js "0xe")]
    (∀ value result, Loop bindings [] value.toLowerCase result ↔ result = root bindings value) ∧
      (∀ a b, sameKnownController a b bindings = true ↔
        Relation.EqvGen (fun x y => (x, y) ∈ bindings) a.toLowerCase b.toLowerCase) ∧
      Equivalence fun a b => sameKnownController a b bindings = true :=
  sameKnownController_component (by decide +kernel)

end Recovery

end Obolos
