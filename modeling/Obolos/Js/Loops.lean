import Obolos.Evm.Basic
import Mathlib.Data.List.Nodup
import Mathlib.Data.List.Perm.Basic

/-!
# Loops that check

A loop that refuses an element whose key it has seen, or that is not valid by itself, ends without an
error exactly if all elements are valid and no two have the same key (`checks_iff`).  So it does not
matter in which order it sees them.  `mapM_pairs` says what a `map` returns whose function may throw.
-/

namespace Obolos

namespace Loops

variable {ε α κ : Type} {key : α → κ} {valid : α → Prop} {step : List κ → α → Except ε (List κ)}

/-- `if(bad) throw …;` before a value is returned. -/
theorem refuse_eq_ok {β : Type} {bad : Prop} [Decidable bad] {e : ε} {x y : β} :
    (if bad then Except.error e else .ok x) = .ok y ↔ ¬bad ∧ y = x := by
  split_ifs with h <;> simp [h, eq_comm]

/-- A step of the loop accepts exactly the valid elements with a new key. -/
def Checks (key : α → κ) (valid : α → Prop) (step : List κ → α → Except ε (List κ)) : Prop :=
  ∀ seen a seen', step seen a = .ok seen' ↔ key a ∉ seen ∧ valid a ∧ seen' = key a :: seen

theorem Checks.from_iff (hstep : Checks key valid step) (l : List α) (seen : List κ) :
    (∃ seen', l.foldlM step seen = .ok seen') ↔
      (∀ a ∈ l, valid a ∧ key a ∉ seen) ∧ (l.map key).Nodup := by
  induction l generalizing seen with
  | nil => simp
  | cons a l ih =>
    simp only [List.foldlM_cons, bind_eq_ok, hstep seen a]
    constructor
    · rintro ⟨seen', _, ⟨hnew, hvalid, rfl⟩, hrest⟩
      obtain ⟨hall, hnodup⟩ := (ih _).1 ⟨seen', hrest⟩
      refine ⟨fun b hb => ?_, List.nodup_cons.2 ⟨fun hmem => ?_, hnodup⟩⟩
      · rcases List.mem_cons.1 hb with rfl | hb
        · exact ⟨hvalid, hnew⟩
        · exact ⟨(hall b hb).1, fun h => (hall b hb).2 (List.mem_cons_of_mem _ h)⟩
      · obtain ⟨b, hb, hkey⟩ := List.mem_map.1 hmem
        exact (hall b hb).2 (hkey ▸ List.mem_cons_self)
    · rintro ⟨hall, hnodup⟩
      obtain ⟨hvalid, hnew⟩ := hall a List.mem_cons_self
      obtain ⟨hkey, hnodup⟩ := List.nodup_cons.1 hnodup
      have hlater : ∀ b ∈ l, valid b ∧ key b ∉ key a :: seen := by
        intro b hb
        refine ⟨(hall b (List.mem_cons_of_mem _ hb)).1, fun h => ?_⟩
        rcases List.mem_cons.1 h with h | h
        · exact hkey (List.mem_map.2 ⟨b, hb, h⟩)
        · exact (hall b (List.mem_cons_of_mem _ hb)).2 h
      obtain ⟨seen', hrest⟩ := (ih (key a :: seen)).2 ⟨hlater, hnodup⟩
      exact ⟨seen', _, ⟨hnew, hvalid, rfl⟩, hrest⟩

/-- The loop ends without an error. -/
theorem Checks.checks_iff (hstep : Checks key valid step) (l : List α) :
    (∃ seen, l.foldlM step [] = .ok seen) ↔ (∀ a ∈ l, valid a) ∧ (l.map key).Nodup := by
  simp [hstep.from_iff]

/-! ### The first of equal elements -/

/-- A loop that keeps an element if it has kept none with the same key. -/
theorem keepFirst_from {α κ : Type} {key : α → κ} {same : α → α → Bool}
    (hsame : ∀ a b, same a b = true ↔ key a = key b) (l kept : List α)
    (hkept : (kept.map key).Nodup) :
    let result := l.foldl (fun kept a => if kept.any fun b => same b a then kept else kept ++ [a]) kept
    (result.map key).Nodup ∧ ∀ k, k ∈ result.map key ↔ k ∈ kept.map key ∨ k ∈ l.map key := by
  induction l generalizing kept with
  | nil => simpa using hkept
  | cons a l ih =>
    rw [List.foldl_cons]
    have hany : (kept.any fun b => same b a) = true ↔ key a ∈ kept.map key := by
      simp [hsame, List.mem_map]
    by_cases ha : key a ∈ kept.map key
    · rw [if_pos (hany.2 ha)]
      obtain ⟨hnodup, hmem⟩ := ih kept hkept
      refine ⟨hnodup, fun k => ?_⟩
      rw [hmem, List.map_cons, List.mem_cons]
      constructor
      · exact fun h => h.imp_right Or.inr
      · rintro (h | rfl | h)
        · exact Or.inl h
        · exact Or.inl ha
        · exact Or.inr h
    · rw [if_neg fun h => ha (hany.1 h)]
      have hnew : ((kept ++ [a]).map key).Nodup := by
        rw [List.map_append, List.nodup_append]
        refine ⟨hkept, List.nodup_singleton _, ?_⟩
        rintro x hx y hy rfl
        exact ha (List.mem_singleton.1 hy ▸ hx)
      obtain ⟨hnodup, hmem⟩ := ih (kept ++ [a]) hnew
      refine ⟨hnodup, fun k => ?_⟩
      rw [hmem, List.map_append, List.mem_append, List.map_cons, List.mem_cons, or_assoc]
      simp

/-! ### Loops that map -/

/-- A `map` whose function may throw, element by element. -/
theorem mapM_pairs {β : Type} {f : α → Except ε β} {l : List α} {l' : List β}
    (h : l.mapM f = .ok l') : List.Forall₂ (fun a b => f a = .ok b) l l' := by
  induction l generalizing l' with
  | nil =>
    rw [List.mapM_nil, pure_eq_ok] at h
    exact h ▸ .nil
  | cons a l ih =>
    rw [List.mapM_cons] at h
    simp only [bind_eq_ok, pure_eq_ok] at h
    obtain ⟨b, hb, bs, hbs, rfl⟩ := h
    exact .cons hb (ih hbs)

theorem exists_mapM {β : Type} {f : α → Except ε β} {l : List α}
    (h : ∀ a ∈ l, ∃ b, f a = .ok b) : ∃ l', l.mapM f = .ok l' := by
  induction l with
  | nil => exact ⟨[], rfl⟩
  | cons a l ih =>
    obtain ⟨b, hb⟩ := h a List.mem_cons_self
    obtain ⟨l', hl'⟩ := ih fun x hx => h x (List.mem_cons_of_mem _ hx)
    refine ⟨b :: l', ?_⟩
    rw [List.mapM_cons]
    exact bind_eq_ok.2 ⟨b, hb, bind_eq_ok.2 ⟨l', hl', rfl⟩⟩

theorem exists_of_pairs {α β : Type} {r : α → β → Prop} {l : List α} {l' : List β} {b : β}
    (h : List.Forall₂ r l l') (hb : b ∈ l') : ∃ a ∈ l, r a b := by
  induction h with
  | nil => exact absurd hb List.not_mem_nil
  | @cons a c l l' hac _ ih =>
    rcases List.mem_cons.1 hb with rfl | hb
    · exact ⟨a, List.mem_cons_self, hac⟩
    · obtain ⟨x, hx, hxb⟩ := ih hb
      exact ⟨x, List.mem_cons_of_mem _ hx, hxb⟩

/-- What a `map` returns whose function is `g` where it does not throw. -/
theorem mapM_eq_ok_iff {β : Type} {f : α → Except ε β} {g : α → β}
    (hg : ∀ a b, f a = .ok b → g a = b) {l : List α} {l' : List β} :
    l.mapM f = .ok l' ↔ (∀ a ∈ l, ∃ b, f a = .ok b) ∧ l' = l.map g := by
  constructor
  · intro h
    refine ⟨fun a ha => ?_, ?_⟩
    · have hflip : List.Forall₂ (fun b a => f a = .ok b) l' l := (mapM_pairs h).flip
      obtain ⟨b, -, hb⟩ := exists_of_pairs hflip ha
      exact ⟨b, hb⟩
    · rw [← List.forall₂_eq_eq_eq, List.forall₂_map_right_iff]
      exact (mapM_pairs h).flip.imp fun b a hab => (hg a b hab).symm
  · rintro ⟨hall, rfl⟩
    obtain ⟨l', hl'⟩ := exists_mapM hall
    rw [hl']
    congr 1
    rw [← List.forall₂_eq_eq_eq, List.forall₂_map_right_iff]
    exact (mapM_pairs hl').flip.imp fun b a hab => (hg a b hab).symm

/-- Each result comes from an element. -/
theorem mem_of_mapM {β : Type} {f : α → Except ε β} {l : List α} {l' : List β} {b : β}
    (h : l.mapM f = .ok l') (hb : b ∈ l') : ∃ a ∈ l, f a = .ok b :=
  exists_of_pairs (r := fun a b => f a = .ok b) (mapM_pairs h) hb

end Loops

end Obolos
