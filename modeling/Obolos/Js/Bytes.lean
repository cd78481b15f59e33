import Obolos.Js.Same
import Obolos.Js.Utf8
import Mathlib.Algebra.Order.BigOperators.Group.List
import Mathlib.Algebra.Order.Ring.Nat

/-!
# The size of a canonical text

`canonicalSize x` is the number of bytes of `canonicalJson(x)`.  It adds up over the items of an
array (`canonicalSize_arr`) and over the properties of an object (`canonicalSize_obj`), whatever
the order of the keys is; so a part of a value is never larger than the value.
-/

namespace Obolos

namespace JsString

/-- The bytes of a first code unit. -/
theorem utf8Length_eq (c : UInt16) (s : JsString) : utf8Length (c :: s) =
    if c < 0x80 then 1 + utf8Length s
    else if c < 0x800 then 2 + utf8Length s
    else if isHigh c then
      match s with
      | [] => 3
      | d :: s' => if isLow d then 4 + utf8Length s' else 3 + utf8Length (d :: s')
    else 3 + utf8Length s := utf8Length.eq_def (c :: s)

/-- Texts that do not meet in the middle of a surrogate pair. -/
theorem utf8Length_append {a b : JsString} (h : ∀ c, b.head? = some c → isLow c = false) :
    (a ++ b).utf8Length = a.utf8Length + b.utf8Length := by
  fun_induction utf8Length a with
  | case1 => simp
  | case2 c s hc ih => rw [List.cons_append, utf8Length_eq, if_pos hc, ih]; omega
  | case3 c s hc hc' ih => rw [List.cons_append, utf8Length_eq, if_neg hc, if_pos hc', ih]; omega
  | case4 c hc hc' hhigh =>
    rw [List.singleton_append, utf8Length_eq, if_neg hc, if_neg hc', if_pos hhigh]
    cases b with
    | nil => rfl
    | cons d b => simp only [h d rfl, Bool.false_eq_true, if_false]
  | case5 c hc hc' hhigh d s hlow ih =>
    rw [List.cons_append, List.cons_append, utf8Length_eq, if_neg hc, if_neg hc', if_pos hhigh]
    simp only [hlow, if_true, ih]
    omega
  | case6 c hc hc' hhigh d s hlow ih =>
    rw [List.cons_append, utf8Length_eq, if_neg hc, if_neg hc', if_pos hhigh]
    simp only [List.cons_append, hlow, Bool.false_eq_true, if_false]
    rw [← List.cons_append, ih]
    omega
  | case7 c s hc hc' hhigh ih =>
    rw [List.cons_append, utf8Length_eq, if_neg hc, if_neg hc', if_neg hhigh, ih]
    omega

/-- An ASCII character is one byte. -/
theorem utf8Length_cons {c : UInt16} {s : JsString} (h : c < 0x80) :
    utf8Length (c :: s) = 1 + s.utf8Length := by
  rw [utf8Length_eq, if_pos h]

/-- A code unit has at most three bytes. -/
theorem utf8Length_le (s : JsString) : s.utf8Length ≤ 3 * s.length := by
  fun_induction utf8Length s <;> simp only [List.length_cons, List.length_nil] at * <;> omega

/-- A code unit is escaped with at most six. -/
theorem escapeUnit_length (c : UInt16) : (escapeUnit c).length ≤ 6 := by
  unfold escapeUnit
  split_ifs <;> simp [unicodeEscape, hex_length]

theorem escape_length (s : JsString) : (escape s).length ≤ 6 * s.length := by
  fun_induction escape s with
  | case1 => simp
  | case2 c => exact escapeUnit_length c
  | case3 c d s h ih =>
    simp only [List.length_cons]
    omega
  | case4 c d s h ih =>
    have hc := escapeUnit_length c
    simp only [List.length_append, List.length_cons] at ih ⊢
    omega

end JsString

namespace Json

open JsString

variable (N : Numerals)

/-- The number of bytes of `JSON.stringify(x)`. -/
def size (x : Json) : ℕ := (stringify N x).utf8Length

/-- The number of bytes of `canonicalJson(x)`. -/
def canonicalSize (x : Json) : ℕ := (canonicalJson N x).utf8Length

/-- The number of bytes of a property, with the colon and a comma. -/
def fieldSize (size : Json → ℕ) (field : JsString × Json) : ℕ :=
  field.1.quote.utf8Length + size field.2 + 2

variable {N} {x : Json} {c : UInt16}

theorem head_items {items : List Json} (h : (stringifyItems N false items).head? = some c) :
    isLow c = false := by
  cases items with
  | nil => cases (show some (93 : UInt16) = some c from h); decide
  | cons x items => cases (show some (44 : UInt16) = some c from h); decide

theorem head_fields {fields : List (JsString × Json)}
    (h : (stringifyFields N false fields).head? = some c) : isLow c = false := by
  cases fields with
  | nil => cases (show some (125 : UInt16) = some c from h); decide
  | cons field fields =>
    obtain ⟨key, x⟩ := field
    cases (show some (44 : UInt16) = some c from h)
    decide

theorem utf8Length_items (items : List Json) :
    (stringifyItems N false items).utf8Length = (items.map fun x => size N x + 1).sum + 1 := by
  induction items with
  | nil => rfl
  | cons x items ih =>
    show utf8Length (44 :: stringify N x ++ stringifyItems N false items) = _
    rw [List.cons_append, utf8Length_cons (by decide), utf8Length_append fun c => head_items, ih,
      List.map_cons, List.sum_cons, size]
    omega

/-- The bytes of one property. -/
theorem utf8Length_field (key : JsString) (x : Json) (fields : List (JsString × Json)) :
    utf8Length (key.quote ++ 58 :: stringify N x ++ stringifyFields N false fields) =
      key.quote.utf8Length + 1 + size N x + (stringifyFields N false fields).utf8Length := by
  rw [utf8Length_append fun c => head_fields, utf8Length_append, utf8Length_cons (by decide), size]
  · omega
  · intro c hc
    cases (show some (58 : UInt16) = some c from hc)
    decide

theorem utf8Length_fields (fields : List (JsString × Json)) :
    (stringifyFields N false fields).utf8Length = (fields.map (fieldSize (size N))).sum + 1 := by
  induction fields with
  | nil => rfl
  | cons field fields ih =>
    obtain ⟨key, x⟩ := field
    show utf8Length (44 :: (key.quote ++ 58 :: stringify N x ++ stringifyFields N false fields)) = _
    rw [utf8Length_cons (by decide), utf8Length_field, ih, List.map_cons, List.sum_cons, fieldSize]
    dsimp only
    omega

/-- An array: two brackets, and a comma between two items. -/
theorem size_arr (items : List Json) :
    size N (.arr items) = 1 + max 1 ((items.map fun x => size N x + 1).sum) := by
  cases items with
  | nil => rfl
  | cons x items =>
    show utf8Length (91 :: (stringify N x ++ stringifyItems N false items)) = _
    rw [utf8Length_cons (by decide), utf8Length_append fun c => head_items, utf8Length_items,
      List.map_cons, List.sum_cons, size]
    omega

/-- An object: two braces, and a comma between two properties. -/
theorem size_obj (fields : List (JsString × Json)) :
    size N (.obj fields) = 1 + max 1 ((fields.map (fieldSize (size N))).sum) := by
  cases fields with
  | nil => rfl
  | cons field fields =>
    obtain ⟨key, x⟩ := field
    show utf8Length (123 :: (key.quote ++ 58 :: stringify N x ++ stringifyFields N false fields)) = _
    rw [utf8Length_cons (by decide), utf8Length_field, utf8Length_fields, List.map_cons,
      List.sum_cons, fieldSize]
    dsimp only
    omega

/-! ### Canonical texts -/

theorem canonicalSize_arr (items : List Json) :
    canonicalSize N (.arr items) = 1 + max 1 ((items.map fun x => canonicalSize N x + 1).sum) := by
  show size N (.arr (sortItems items)) = _
  rw [size_arr, sortItems_eq_map, List.map_map]
  rfl

/-- The order of the keys does not matter. -/
theorem canonicalSize_obj (fields : List (JsString × Json)) :
    canonicalSize N (.obj fields) =
      1 + max 1 ((fields.map (fieldSize (canonicalSize N))).sum) := by
  have hperm : ((sortFields fields).insertionSort keyLe).Perm (sortFields fields) :=
    List.perm_insertionSort keyLe _
  show size N (.obj ((sortFields fields).insertionSort keyLe)) = _
  rw [size_obj, (hperm.map (fieldSize (size N))).sum_nat, sortFields_eq_map, List.map_map]
  rfl

/-- An item is smaller than its array. -/
theorem canonicalSize_item {items : List Json} (h : x ∈ items) :
    canonicalSize N x ≤ canonicalSize N (.arr items) := by
  have hle := List.single_le_sum (l := items.map fun x => canonicalSize N x + 1) (by simp) _
    (List.mem_map.2 ⟨x, h, rfl⟩)
  rw [canonicalSize_arr]
  omega

/-- A property is smaller than its object. -/
theorem canonicalSize_field {fields : List (JsString × Json)} {key : JsString}
    (h : (key, x) ∈ fields) : canonicalSize N x ≤ canonicalSize N (.obj fields) := by
  have hle := List.single_le_sum (l := fields.map (fieldSize (canonicalSize N))) (by simp) _
    (List.mem_map.2 ⟨(key, x), h, rfl⟩)
  rw [canonicalSize_obj]
  simp only [fieldSize] at hle
  omega

/-- The size of a text is bounded by its length. -/
theorem canonicalSize_str (s : JsString) : canonicalSize N (.str s) ≤ 18 * s.length + 6 := by
  have hescape := escape_length s
  have hbytes := utf8Length_le s.quote
  show s.quote.utf8Length ≤ _
  simp only [quote, List.cons_append, List.length_cons, List.length_append,
    List.length_nil] at hbytes ⊢
  omega

/-- The size of a property with a text is bounded by the lengths. -/
theorem fieldSize_str (key s : JsString) :
    fieldSize (size N) (key, .str s) ≤ 18 * (key.length + s.length) + 14 := by
  have hkey : key.quote.utf8Length ≤ _ := canonicalSize_str (N := N) key
  have hvalue : size N (.str s) ≤ _ := canonicalSize_str (N := N) s
  rw [fieldSize]
  dsimp only
  omega

/-- A text of ASCII letters and digits is quoted as it is. -/
theorem canonicalSize_replicate (n : ℕ) :
    canonicalSize N (.str (List.replicate n 97)) = n + 2 := by
  have hescape : ∀ n, escape (List.replicate n 97) = List.replicate n 97 := by
    intro n
    induction n with
    | zero => rfl
    | succ n ih =>
      cases n with
      | zero => decide
      | succ n =>
        show (if isHigh 97 && isLow 97 then _ else escapeUnit 97 ++ escape (List.replicate (n + 1) 97)) = _
        rw [ih]
        rfl
  have hlength : ∀ n, utf8Length (List.replicate n 97 ++ [34]) = n + 1 := by
    intro n
    induction n with
    | zero => rfl
    | succ n ih =>
      rw [List.replicate_succ, List.cons_append, utf8Length_cons (by decide), ih]
      omega
  show utf8Length (34 :: escape (List.replicate n 97) ++ [34]) = n + 2
  rw [List.cons_append, utf8Length_cons (by decide), hescape, hlength]
  omega

end Json

/-! ### Texts in quotes -/

namespace JsString

/-- A character that is written as it is, in one byte. -/
def isPlain (c : UInt16) : Bool := 32 ≤ c && c < 0x80 && c != 34 && c != 92

theorem escape_plain {s : JsString} (h : s.all isPlain = true) : escape s = s := by
  have hunit : ∀ c, isPlain c = true → escapeUnit c = [c] ∧ isHigh c = false := by
    intro c hc
    simp only [isPlain, Bool.and_eq_true, decide_eq_true_eq, bne_iff_ne, ne_eq,
      UInt16.le_iff_toNat_le, UInt16.lt_iff_toNat_lt] at hc
    obtain ⟨⟨⟨h₁, h₂⟩, h₃⟩, h₄⟩ := hc
    have h₁ : 32 ≤ c.toNat := h₁
    have h₂ : c.toNat < 128 := h₂
    have hne : ∀ d : UInt16, d.toNat < 32 → c ≠ d := by
      rintro d hd rfl
      omega
    have hhigh : isHigh c = false := by
      simp only [isHigh, Bool.and_eq_false_iff, decide_eq_false_iff_not, UInt16.le_iff_toNat_le]
      left
      show ¬ 55296 ≤ c.toNat
      omega
    have hlow : isLow c = false := by
      simp only [isLow, Bool.and_eq_false_iff, decide_eq_false_iff_not, UInt16.le_iff_toNat_le]
      left
      show ¬ 56320 ≤ c.toNat
      omega
    refine ⟨?_, hhigh⟩
    unfold escapeUnit
    rw [if_neg (by tauto), if_neg (hne 8 (by decide)), if_neg (hne 9 (by decide)),
      if_neg (hne 10 (by decide)), if_neg (hne 12 (by decide)), if_neg (hne 13 (by decide)),
      if_neg, if_neg (by simp [hhigh, hlow])]
    rw [UInt16.lt_iff_toNat_lt]
    show ¬ c.toNat < 32
    omega
  fun_induction escape s with
  | case1 => rfl
  | case2 c =>
    rw [List.all_cons, Bool.and_eq_true] at h
    exact (hunit c h.1).1
  | case3 c d s hpair ih =>
    rw [List.all_cons, Bool.and_eq_true] at h
    rw [(hunit c h.1).2] at hpair
    cases hpair
  | case4 c d s hpair ih =>
    rw [List.all_cons, Bool.and_eq_true] at h
    rw [(hunit c h.1).1, ih h.2]
    rfl

theorem utf8Length_plain {s : JsString} (h : s.all isPlain = true) : s.utf8Length = s.length := by
  induction s with
  | nil => rfl
  | cons c s ih =>
    rw [List.all_cons, Bool.and_eq_true] at h
    have hc : c < 0x80 := by
      have hplain := h.1
      simp only [isPlain, Bool.and_eq_true, decide_eq_true_eq] at hplain
      exact hplain.1.1.2
    rw [utf8Length_cons hc, ih h.2, List.length_cons, Nat.add_comm]

/-- The bytes of a text are bytes, as many as `utf8Length` says. -/
theorem utf8_spec (s : JsString) : s.utf8.length = s.utf8Length ∧ ∀ b ∈ s.utf8, b < 256 := by
  have hlt : ∀ c : UInt16, (c < 0x80 ↔ c.toNat < 0x80) ∧ (c < 0x800 ↔ c.toNat < 0x800) :=
    fun _ => ⟨UInt16.lt_iff_toNat_lt, UInt16.lt_iff_toNat_lt⟩
  have hthree : replacement.length = 3 ∧ ∀ b ∈ replacement, b < 256 := by decide
  fun_induction utf8 s with
  | case1 => exact ⟨rfl, by simp⟩
  | case2 c s hc ih =>
    rw [utf8Length_eq, if_pos ((hlt c).1.2 hc), List.length_cons, ih.1]
    exact ⟨Nat.add_comm _ _, List.forall_mem_cons.2 ⟨by omega, ih.2⟩⟩
  | case3 c s hc hc' ih =>
    rw [utf8Length_eq, if_neg (mt (hlt c).1.1 hc), if_pos ((hlt c).2.2 hc')]
    simp only [List.length_cons, ih.1, List.forall_mem_cons]
    exact ⟨by omega, by omega, by omega, ih.2⟩
  | case4 c hc hc' hhigh =>
    rw [utf8Length_eq, if_neg (mt (hlt c).1.1 hc), if_neg (mt (hlt c).2.1 hc'), if_pos hhigh]
    exact hthree
  | case5 c hc hc' hhigh d s hlow ih =>
    rw [utf8Length_eq, if_neg (mt (hlt c).1.1 hc), if_neg (mt (hlt c).2.1 hc'), if_pos hhigh]
    simp only [hlow, if_true, List.length_cons, ih.1, List.forall_mem_cons]
    have hrange := isHigh_iff.1 hhigh
    have hrange' := isLow_iff.1 hlow
    have hcode : pairCode c d = 0x10000 + (c.toNat - 0xd800) * 0x400 + (d.toNat - 0xdc00) := rfl
    exact ⟨by omega, by omega, by omega, by omega, by omega, ih.2⟩
  | case6 c hc hc' hhigh d s hlow ih =>
    rw [utf8Length_eq, if_neg (mt (hlt c).1.1 hc), if_neg (mt (hlt c).2.1 hc'), if_pos hhigh]
    simp only [hlow, Bool.false_eq_true, if_false, List.length_append, hthree.1, ih.1,
      List.forall_mem_append]
    exact ⟨trivial, hthree.2, ih.2⟩
  | case7 c s hc hc' hhigh hlow ih =>
    rw [utf8Length_eq, if_neg (mt (hlt c).1.1 hc), if_neg (mt (hlt c).2.1 hc'), if_neg hhigh]
    simp only [List.length_append, hthree.1, ih.1, List.forall_mem_append]
    exact ⟨trivial, hthree.2, ih.2⟩
  | case8 c s hc hc' hhigh hlow ih =>
    rw [utf8Length_eq, if_neg (mt (hlt c).1.1 hc), if_neg (mt (hlt c).2.1 hc'), if_neg hhigh]
    have hrange := c.toNat_lt
    simp only [List.length_cons, ih.1, List.forall_mem_cons]
    exact ⟨by omega, by omega, by omega, by omega, ih.2⟩

end JsString

end Obolos
