import Obolos.Js.Lines
import Obolos.Js.Same

/-!
# JSON texts in lines

`JSON.stringify` escapes the control characters (`stringify_printable`), so a JSON text does not
contain the end of a line.  Texts that are put between lines of other texts can then be found again,
even if one of them is free to have lines of its own (`join_inj`).
-/

namespace Obolos

namespace JsString

/-- Without control characters. -/
def Printable (s : JsString) : Prop := ∀ c ∈ s, 32 ≤ c

instance (s : JsString) : Decidable (Printable s) := List.decidableBAll _ _

variable {s t : JsString}

theorem Printable.append (hs : Printable s) (ht : Printable t) : Printable (s ++ t) :=
  List.forall_mem_append.2 ⟨hs, ht⟩

theorem Printable.cons {c : UInt16} (hc : 32 ≤ c) (hs : Printable s) : Printable (c :: s) :=
  List.forall_mem_cons.2 ⟨hc, hs⟩

theorem Printable.newline (h : Printable s) : 10 ∉ s := by
  intro hmem
  exact absurd (h 10 hmem) (by decide)

theorem printable_hexDigit (n : ℕ) (h : n < 16) : 32 ≤ hexDigit n := by
  revert n
  decide

theorem printable_hex (width n : ℕ) : Printable (hex width n) := by
  induction width generalizing n with
  | zero =>
    intro c hc
    cases hc
  | succ width ih =>
    refine (ih _).append fun c hc => ?_
    rw [List.mem_singleton.1 hc]
    exact printable_hexDigit _ (Nat.mod_lt _ (by decide))

theorem printable_unicodeEscape (c : UInt16) : Printable (unicodeEscape c) :=
  .cons (by decide) (.cons (by decide) (printable_hex 4 _))

theorem printable_escapeUnit (c : UInt16) : Printable (escapeUnit c) := by
  have htwo : ∀ {d : UInt16}, 32 ≤ d → Printable [92, d] := fun hd =>
    .cons (by decide) (.cons hd fun _ h => by cases h)
  unfold escapeUnit
  split_ifs with hquote h8 h9 h10 h12 h13 hcontrol hpair
  · rcases hquote with rfl | rfl
    · exact htwo (by decide)
    · exact htwo (by decide)
  · exact htwo (by decide)
  · exact htwo (by decide)
  · exact htwo (by decide)
  · exact htwo (by decide)
  · exact htwo (by decide)
  · exact printable_unicodeEscape c
  · exact printable_unicodeEscape c
  · exact .cons (UInt16.not_lt.1 hcontrol) fun _ h => by cases h

theorem printable_escape (s : JsString) : Printable (escape s) := by
  induction s using escape.induct with
  | case1 =>
    intro c hc
    cases hc
  | case2 c => exact printable_escapeUnit c
  | case3 c d s h ih =>
    rw [escape, if_pos h]
    simp only [Bool.and_eq_true, isHigh, isLow, decide_eq_true_eq] at h
    -- the halves of a pair are no control characters
    have hge : ∀ {e f : UInt16}, 32 ≤ e → e ≤ f → 32 ≤ f := fun h h' => UInt16.le_trans h h'
    exact .cons (hge (by decide) h.1.1) (.cons (hge (by decide) h.2.1) ih)
  | case4 c d s h ih =>
    rw [escape, if_neg h]
    exact (printable_escapeUnit c).append ih

theorem printable_quote (s : JsString) : Printable (quote s) :=
  .append (.cons (by decide) (printable_escape s)) (.cons (by decide) fun _ h => by cases h)

/-! ### Lines -/

/-- The first line of a text is what is before the first end of a line. -/
theorem append_newline_inj {x y : JsString} (hs : 10 ∉ s) (ht : 10 ∉ t)
    (h : s ++ 10 :: x = t ++ 10 :: y) : s = t ∧ x = y := by
  have hlines := congrArg (List.splitOn 10) h
  rw [List.splitOn_append_cons_self_of_not_mem hs, List.splitOn_append_cons_self_of_not_mem ht] at hlines
  obtain rfl := (List.cons.inj hlines).1
  exact ⟨rfl, (List.cons.inj (List.append_cancel_left h)).2⟩

/-- Any text before as many lines: the ends of its own lines are those that are left over. -/
theorem join_inj {lines lines' : List JsString} (hne : lines ≠ []) (hne' : lines' ≠ [])
    (h : ∀ l ∈ lines, 10 ∉ l) (h' : ∀ l ∈ lines', 10 ∉ l) (hlength : lines.length = lines'.length)
    (heq : s ++ 10 :: List.intercalate [10] lines = t ++ 10 :: List.intercalate [10] lines') :
    s = t ∧ lines = lines' := by
  have hlines := congrArg (List.splitOn 10) heq
  rw [List.splitOn_append_cons_self, List.splitOn_append_cons_self,
    List.splitOn_intercalate 10 h hne, List.splitOn_intercalate 10 h' hne'] at hlines
  obtain ⟨hst, hrest⟩ := List.append_inj' hlines hlength
  have hjoin := congrArg (List.intercalate [10]) hst
  rw [List.intercalate_splitOn, List.intercalate_splitOn] at hjoin
  exact ⟨hjoin, hrest⟩

end JsString

namespace Json

open JsString

variable {N : Numerals}

theorem printable_number (q : ℚ) : Printable (N.text q) := by
  intro c hc
  have h := N.text_numeral q c hc
  simp only [isNumeral, Bool.or_eq_true, Bool.and_eq_true, decide_eq_true_eq, beq_iff_eq] at h
  rcases h with (((h | rfl) | rfl) | rfl) | rfl
  · exact UInt16.le_trans (by decide) h.1
  · decide
  · decide
  · decide
  · decide

theorem printable_items {items : List Json} {first : Bool}
    (h : ∀ x ∈ items, Printable (stringify N x)) : Printable (stringifyItems N first items) := by
  induction items generalizing first with
  | nil => exact .cons (by decide) fun _ h => by cases h
  | cons x items ih =>
    refine .append (.append ?_ (h x List.mem_cons_self))
      (ih fun y hy => h y (List.mem_cons_of_mem _ hy))
    cases first
    · exact .cons (by decide) fun _ h => by cases h
    · exact fun _ h => by cases h

theorem printable_fields {fields : List (JsString × Json)} {first : Bool}
    (h : ∀ field ∈ fields, Printable (stringify N field.2)) :
    Printable (stringifyFields N first fields) := by
  induction fields generalizing first with
  | nil => exact .cons (by decide) fun _ h => by cases h
  | cons field fields ih =>
    obtain ⟨key, x⟩ := field
    have hvalue : Printable (58 :: stringify N x) := .cons (by decide) (h (key, x) List.mem_cons_self)
    have hrest : Printable (stringifyFields N false fields) :=
      ih fun y hy => h y (List.mem_cons_of_mem _ hy)
    have hfirst : Printable (if first then [] else [44]) := by
      cases first
      · exact .cons (by decide) fun _ h => by cases h
      · exact fun _ h => by cases h
    exact ((hfirst.append (printable_quote key)).append hvalue).append hrest

/-- A JSON text has no control characters. -/
theorem stringify_printable (x : Json) : Printable (stringify N x) := by
  have hnull : Printable (js "null") := by decide
  have hbool : Printable (js "true") ∧ Printable (js "false") := by decide
  induction x using ind with
  | null => exact hnull
  | bool b =>
    cases b
    · exact hbool.2
    · exact hbool.1
  | num q => exact printable_number q
  | infinite => exact hnull
  | str s => exact printable_quote s
  | arr items ih => exact .cons (by decide) (printable_items ih)
  | obj fields ih => exact .cons (by decide) (printable_fields ih)

end Json

end Obolos
