import Obolos.Js.Json

/-!
# Equality of JSON values up to the order of keys

Two objects are the same value when they have the same own properties (`Same`).  Sorting the keys
at every depth is a normal form for it (`same_iff_sortKeys`): the order in which keys were
inserted does not matter, and nothing else is lost.
-/

namespace Obolos

namespace Json

/-- Induction on a value: what holds of the items of an array or of the properties of an object
may be used. -/
theorem ind {P : Json → Prop} (null : P .null) (bool : ∀ b, P (.bool b)) (num : ∀ q, P (.num q))
    (infinite : P .infinite) (str : ∀ s, P (.str s))
    (arr : ∀ items, (∀ x ∈ items, P x) → P (.arr items))
    (obj : ∀ fields, (∀ field ∈ fields, P field.2) → P (.obj fields)) (x : Json) : P x :=
  @Json.rec P (fun items => ∀ x ∈ items, P x) (fun fields => ∀ field ∈ fields, P field.2)
    (fun field => P field.2)
    null bool num infinite str arr obj (fun _ h => by cases h)
    (fun x items hx hitems y hy => by
      rcases List.mem_cons.1 hy with rfl | hy
      · exact hx
      · exact hitems y hy)
    (fun _ h => by cases h)
    (fun field fields hfield hfields y hy => by
      rcases List.mem_cons.1 hy with rfl | hy
      · exact hfield
      · exact hfields y hy)
    (fun _ _ h => h) x

/-- The own keys of an object are different, at every depth: so it is in any JavaScript value. -/
inductive Distinct : Json → Prop
  | null : Distinct .null
  | bool (b : Bool) : Distinct (.bool b)
  | num (q : ℚ) : Distinct (.num q)
  | infinite : Distinct .infinite
  | str (s : JsString) : Distinct (.str s)
  | arr {items : List Json} (items_distinct : ∀ x ∈ items, Distinct x) : Distinct (.arr items)
  | obj {fields : List (JsString × Json)} (nodup : (fields.map Prod.fst).Nodup)
      (fields_distinct : ∀ field ∈ fields, Distinct field.2) : Distinct (.obj fields)

/-- The same JSON value: arrays item by item, objects property by property. -/
inductive Same : Json → Json → Prop
  | null : Same .null .null
  | bool (b : Bool) : Same (.bool b) (.bool b)
  | num (q : ℚ) : Same (.num q) (.num q)
  | infinite : Same .infinite .infinite
  | str (s : JsString) : Same (.str s) (.str s)
  | arr {items items' : List Json} (h : List.Forall₂ Same items items') :
      Same (.arr items) (.arr items')
  | obj {fields fields' : List (JsString × Json)}
      (h : ∀ key, Option.Rel Same (get key fields) (get key fields')) :
      Same (.obj fields) (.obj fields')

/-! ### The order of keys -/

theorem le_total : ∀ a b : JsString, a.le b = true ∨ b.le a = true
  | [], _ => Or.inl rfl
  | _ :: _, [] => Or.inr rfl
  | a :: as, b :: bs => by
    simp only [JsString.le, Bool.or_eq_true, decide_eq_true_eq, Bool.and_eq_true, beq_iff_eq,
      UInt16.lt_iff_toNat_lt, ← UInt16.toNat_inj]
    rcases Nat.lt_trichotomy a.toNat b.toNat with h | h | h
    · exact Or.inl (Or.inl h)
    · rcases le_total as bs with hs | hs
      · exact Or.inl (Or.inr ⟨h, hs⟩)
      · exact Or.inr (Or.inr ⟨h.symm, hs⟩)
    · exact Or.inr (Or.inl h)

theorem le_trans : ∀ {a b c : JsString}, a.le b = true → b.le c = true → a.le c = true
  | [], _, _, _, _ => rfl
  | a :: as, [], _, h, _ => by cases h
  | a :: as, b :: bs, [], _, h => by cases h
  | a :: as, b :: bs, c :: cs, h, h' => by
    simp only [JsString.le, Bool.or_eq_true, decide_eq_true_eq, Bool.and_eq_true, beq_iff_eq,
      UInt16.lt_iff_toNat_lt, ← UInt16.toNat_inj] at h h' ⊢
    rcases h with h | ⟨h, hs⟩
    · omega
    · rcases h' with h' | ⟨h', hs'⟩
      · omega
      · exact Or.inr ⟨by omega, le_trans hs hs'⟩

theorem le_antisymm : ∀ {a b : JsString}, a.le b = true → b.le a = true → a = b
  | [], [], _, _ => rfl
  | [], _ :: _, _, h => by cases h
  | _ :: _, [], h, _ => by cases h
  | a :: as, b :: bs, h, h' => by
    simp only [JsString.le, Bool.or_eq_true, decide_eq_true_eq, Bool.and_eq_true, beq_iff_eq,
      UInt16.lt_iff_toNat_lt] at h h'
    rcases h with h | ⟨rfl, hs⟩
    · rcases h' with h' | ⟨rfl, -⟩ <;> omega
    · rcases h' with h' | ⟨-, hs'⟩
      · omega
      · rw [le_antisymm hs hs']

instance : Std.Total keyLe := ⟨fun a b => le_total a.1 b.1⟩

instance : IsTrans (JsString × Json) keyLe := ⟨fun _ _ _ => le_trans⟩

/-- Fields with the same properties are the same list once they are sorted. -/
theorem insertionSort_eq {fields fields' : List (JsString × Json)}
    (h : (fields.map Prod.fst).Nodup) (h' : (fields'.map Prod.fst).Nodup)
    (hget : ∀ key, get key fields = get key fields') :
    fields.insertionSort keyLe = fields'.insertionSort keyLe := by
  have hperm : fields.Perm fields' := by
    rw [List.perm_ext_iff_of_nodup h.of_map h'.of_map]
    rintro ⟨key, x⟩
    rw [← get_eq_some h, ← get_eq_some h', hget]
  have hsorted := (List.perm_insertionSort keyLe fields).trans
    (hperm.trans (List.perm_insertionSort keyLe fields').symm)
  refine hsorted.eq_of_pairwise (fun a b ha hb hab hba => ?_)
    (List.pairwise_insertionSort keyLe _) (List.pairwise_insertionSort keyLe _)
  -- two fields with one key are one field
  rw [(List.perm_insertionSort keyLe fields).mem_iff] at ha
  rw [(List.perm_insertionSort keyLe fields').mem_iff, ← hperm.mem_iff] at hb
  exact List.inj_on_of_nodup_map h ha hb (le_antisymm hab hba)

/-! ### Sorted keys as a normal form -/

variable {x y : Json}

theorem map_fst_sortFields (fields : List (JsString × Json)) :
    (sortFields fields).map Prod.fst = fields.map Prod.fst := by
  rw [sortFields_eq_map, List.map_map]
  rfl

theorem get_sortFields (key : JsString) (fields : List (JsString × Json)) :
    get key (sortFields fields) = (get key fields).map sortKeys := by
  rw [sortFields_eq_map, get_map]

/-- A property of an object is one of its fields. -/
theorem mem_of_get {key : JsString} {fields : List (JsString × Json)} (h : get key fields = some x) :
    (key, x) ∈ fields := by
  induction fields with
  | nil => cases h
  | cons field fields ih =>
    obtain ⟨k, y⟩ := field
    simp only [get] at h
    split_ifs at h with hk
    · cases h
      rw [hk]
      exact List.mem_cons_self
    · exact List.mem_cons_of_mem _ (ih h)

theorem sortKeys_eq_of_same (x : Json) : ∀ {y}, Distinct x → Distinct y → Same x y →
    sortKeys x = sortKeys y := by
  induction x using ind with
  | arr items ih =>
    intro y hx hy h
    cases h with
    | @arr _ items' h =>
      cases hx with
      | arr hx =>
        cases hy with
        | arr hy =>
          simp only [sortKeys, Json.arr.injEq, sortItems_eq_map]
          have hlength := h.length_eq
          refine List.ext_getElem (by simpa using hlength) fun n hn hn' => ?_
          simp only [List.length_map] at hn hn'
          simp only [List.getElem_map]
          exact ih _ (List.getElem_mem hn) (hx _ (List.getElem_mem hn))
            (hy _ (List.getElem_mem hn')) (List.forall₂_iff_get.1 h |>.2 n hn hn')
  | obj fields ih =>
    intro y hx hy h
    cases h with
    | @obj _ fields' h =>
      cases hx with
      | obj hnodup hx =>
        cases hy with
        | obj hnodup' hy =>
          simp only [sortKeys, Json.obj.injEq]
          -- Two lists with the same value at every key are the same once they are sorted by key.
          refine insertionSort_eq (by rwa [map_fst_sortFields]) (by rwa [map_fst_sortFields])
            fun key => ?_
          rw [get_sortFields, get_sortFields]
          have hkey := h key
          cases hg : get key fields with
          | none =>
            rw [hg] at hkey
            cases hg' : get key fields' with
            | none => rfl
            | some y => rw [hg'] at hkey; cases hkey
          | some x =>
            rw [hg] at hkey
            cases hg' : get key fields' with
            | none => rw [hg'] at hkey; cases hkey
            | some y =>
              rw [hg'] at hkey
              cases hkey with
              | some hxy =>
                have hmem := mem_of_get hg
                exact congrArg some (ih _ hmem (hx _ hmem) (hy _ (mem_of_get hg')) hxy)
  | _ => intro y _ _ h; cases h; rfl

theorem same_of_sortKeys_eq (x : Json) : ∀ {y}, Distinct x → Distinct y →
    sortKeys x = sortKeys y → Same x y := by
  induction x using ind with
  | arr items ih =>
    intro y hx hy h
    cases y with
    | arr items' =>
      cases hx with
      | arr hx =>
        cases hy with
        | arr hy =>
          have hitems := items_of_sortKeys_eq h
          refine .arr (List.forall₂_iff_get.2 ⟨by simpa using congrArg List.length hitems,
            fun n hn hn' => ?_⟩)
          have hn'' := congrArg (fun l => l[n]?) hitems
          simp only [List.getElem?_map, List.getElem?_eq_getElem hn, List.getElem?_eq_getElem hn',
            Option.map_some, Option.some.injEq] at hn''
          exact ih _ (List.getElem_mem hn) (hx _ (List.getElem_mem hn))
            (hy _ (List.getElem_mem hn')) hn''
    | _ => simp [sortKeys] at h
  | obj fields ih =>
    intro y hx hy h
    cases y with
    | obj fields' =>
      cases hx with
      | obj hnodup hx =>
        cases hy with
        | obj hnodup' hy =>
          refine .obj fun key => ?_
          have hkey := get_of_sortKeys_eq hnodup h key
          cases hg : get key fields with
          | none =>
            cases hg' : get key fields' with
            | none => exact .none
            | some y => simp [hg, hg'] at hkey
          | some x =>
            cases hg' : get key fields' with
            | none => simp [hg, hg'] at hkey
            | some y =>
              have hmem := mem_of_get hg
              refine .some (ih _ hmem (hx _ hmem) (hy _ (mem_of_get hg')) ?_)
              simpa [hg, hg'] using hkey
    | _ => simp [sortKeys] at h
  | null => intro y _ _ h; cases y <;> simp [sortKeys] at h; exact .null
  | bool b => intro y _ _ h; cases y <;> simp [sortKeys] at h; subst h; exact .bool _
  | num q => intro y _ _ h; cases y <;> simp [sortKeys] at h; subst h; exact .num _
  | infinite => intro y _ _ h; cases y <;> simp [sortKeys] at h; exact .infinite
  | str s => intro y _ _ h; cases y <;> simp [sortKeys] at h; subst h; exact .str _

/-- **Normal forms.**  Sorting the keys forgets their order and nothing else. -/
theorem same_iff_sortKeys (hx : Distinct x) (hy : Distinct y) :
    Same x y ↔ sortKeys x = sortKeys y :=
  ⟨sortKeys_eq_of_same x hx hy, same_of_sortKeys_eq x hx hy⟩

/-- Sorting the keys keeps them different. -/
theorem distinct_sortKeys (h : Distinct x) : Distinct (sortKeys x) := by
  induction x using ind with
  | arr items ih =>
    cases h with
    | arr h =>
      rw [sortKeys, sortItems_eq_map]
      refine .arr fun y hy => ?_
      obtain ⟨x, hx, rfl⟩ := List.mem_map.1 hy
      exact ih x hx (h x hx)
  | obj fields ih =>
    cases h with
    | obj hnodup h =>
      have hperm := List.perm_insertionSort keyLe (sortFields fields)
      refine .obj ?_ fun field hfield => ?_
      · rw [(hperm.map Prod.fst).nodup_iff, map_fst_sortFields]
        exact hnodup
      · rw [hperm.mem_iff, sortFields_eq_map] at hfield
        obtain ⟨field', hmem, rfl⟩ := List.mem_map.1 hfield
        exact ih field' hmem (h field' hmem)
  | _ => exact h

/-- A value is the same after its keys were sorted. -/
theorem sortKeys_idem (h : Distinct x) : sortKeys (sortKeys x) = sortKeys x := by
  induction x using ind with
  | arr items ih =>
    cases h with
    | arr h =>
      simp only [sortKeys, sortItems_eq_map, List.map_map, Json.arr.injEq]
      exact List.map_congr_left fun x hx => ih x hx (h x hx)
  | obj fields ih =>
    cases h with
    | obj hnodup h =>
      have hnodup' : ((sortFields fields).map Prod.fst).Nodup := by rwa [map_fst_sortFields]
      have hperm := List.perm_insertionSort keyLe (sortFields fields)
      simp only [sortKeys, Json.obj.injEq]
      refine insertionSort_eq ?_ hnodup' fun key => ?_
      · rw [map_fst_sortFields]
        exact (hperm.map Prod.fst).nodup_iff.2 hnodup'
      · rw [get_sortFields, ← get_perm hnodup' hperm.symm, get_sortFields]
        cases hg : get key fields with
        | none => rfl
        | some x =>
          have hmem := mem_of_get hg
          exact congrArg some (ih _ hmem (h _ hmem))
  | _ => rfl

/-- The order of the keys is all that sorting changes. -/
theorem same_sortKeys (h : Distinct x) : Same (sortKeys x) x :=
  (same_iff_sortKeys (distinct_sortKeys h) h).2 (sortKeys_idem h)

end Json

end Obolos
