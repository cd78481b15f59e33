import Obolos.Js.Text
import Mathlib.Data.Rat.Defs
import Mathlib.Data.List.Sort
import Mathlib.Data.List.Nodup

/-!
# JSON values and their text

A value that `JSON.parse` can return: numbers are exact rationals (`-0` is `0`), or not finite
when the literal was too large.  How a number is written is a parameter, `Numerals`.

`stringify` is `JSON.stringify`, `canonicalJson` sorts the keys of every object first.  Texts are
uniquely readable (`stringify_inj`), so two values with the same canonical text agree up to the
order of keys (`sortKeys_eq_of_canonicalJson`), key by key (`get_of_sortKeys_eq`).
-/

namespace Obolos

/-- A JSON value. -/
inductive Json
  | null
  | bool (b : Bool)
  | num (q : ℚ)
  /-- `Infinity` or `-Infinity`: what `JSON.parse` makes of a number that is too large. -/
  | infinite
  | str (s : JsString)
  | arr (items : List Json)
  | obj (fields : List (JsString × Json))

namespace Json

/-- The code units of a number: digits, signs, point and exponent. -/
def isNumeral (c : UInt16) : Bool :=
  (48 ≤ c && c ≤ 57) || c == 45 || c == 43 || c == 46 || c == 101

/-- How JavaScript writes finite numbers: nonempty texts of digits, signs, points and exponents,
different for different numbers. -/
structure Numerals where
  text : ℚ → JsString
  text_ne : ∀ q, text q ≠ []
  text_numeral : ∀ q, ∀ c ∈ text q, isNumeral c = true
  text_inj : ∀ q q', text q = text q' → q = q'

variable (N : Numerals)

mutual

/-- `JSON.stringify(value)` -/
def stringify : Json → JsString
  | .null => js "null"
  | .bool b => if b then js "true" else js "false"
  | .num q => N.text q
  | .infinite => js "null"
  | .str s => s.quote
  | .arr items => 91 :: stringifyItems true items
  | .obj fields => 123 :: stringifyFields true fields

/-- The items of an array and the closing bracket. -/
def stringifyItems (first : Bool) : List Json → JsString
  | [] => [93]
  | x :: items => (if first then [] else [44]) ++ stringify x ++ stringifyItems false items

/-- The fields of an object and the closing brace. -/
def stringifyFields (first : Bool) : List (JsString × Json) → JsString
  | [] => [125]
  | (key, x) :: fields =>
    (if first then [] else [44]) ++ key.quote ++ 58 :: stringify x ++ stringifyFields false fields

end

/-- The order of two fields by their keys. -/
def keyLe (a b : JsString × Json) : Prop := a.1.le b.1 = true

instance : DecidableRel keyLe := fun a b => inferInstanceAs (Decidable (a.1.le b.1 = true))

mutual

/-- The value with the fields of every object sorted by key. -/
def sortKeys : Json → Json
  | .arr items => .arr (sortItems items)
  | .obj fields => .obj ((sortFields fields).insertionSort keyLe)
  | .null => .null
  | .bool b => .bool b
  | .num q => .num q
  | .infinite => .infinite
  | .str s => .str s

/-- `sortKeys` for every item. -/
def sortItems : List Json → List Json
  | [] => []
  | x :: items => sortKeys x :: sortItems items

/-- `sortKeys` for every field. -/
def sortFields : List (JsString × Json) → List (JsString × Json)
  | [] => []
  | (key, x) :: fields => (key, sortKeys x) :: sortFields fields

end

/-- `canonicalJson(value)` -/
def canonicalJson (x : Json) : JsString := (sortKeys x).stringify N

mutual

/-- Every number in the value is finite. -/
def finite : Json → Bool
  | .infinite => false
  | .arr items => finiteItems items
  | .obj fields => finiteFields fields
  | .null => true
  | .bool _ => true
  | .num _ => true
  | .str _ => true

/-- `finite` for every item. -/
def finiteItems : List Json → Bool
  | [] => true
  | x :: items => finite x && finiteItems items

/-- `finite` for every field. -/
def finiteFields : List (JsString × Json) → Bool
  | [] => true
  | (_, x) :: fields => finite x && finiteFields fields

end

/-- `record[key]` for an own key. -/
def get (key : JsString) : List (JsString × Json) → Option Json
  | [] => none
  | (k, x) :: fields => if k = key then some x else get key fields

/-! ### Unique readability -/

variable {N}

/-- The text goes on with something that cannot continue a number. -/
def Ends (s : JsString) : Prop := ∀ c, s.head? = some c → isNumeral c = false

theorem ends_cons {c : UInt16} {s : JsString} (h : isNumeral c = false) : Ends (c :: s) := by
  rintro d hd
  obtain rfl : c = d := by simpa using hd
  exact h

theorem ends_items (items : List Json) (s : JsString) :
    Ends (stringifyItems N false items ++ s) := by
  cases items <;> exact ends_cons (by decide)

theorem ends_fields (fields : List (JsString × Json)) (s : JsString) :
    Ends (stringifyFields N false fields ++ s) := by
  rcases fields with - | ⟨⟨key, x⟩, fields⟩ <;> exact ends_cons (by decide)

/-- The head of a text up to where a kind of code unit ends. -/
theorem span_inj {p : UInt16 → Bool} {a b s t : JsString} (ha : ∀ c ∈ a, p c = true)
    (hb : ∀ c ∈ b, p c = true) (hs : ∀ c, s.head? = some c → p c = false)
    (ht : ∀ c, t.head? = some c → p c = false) (h : a ++ s = b ++ t) : a = b ∧ s = t := by
  induction a generalizing b with
  | nil =>
    cases b with
    | nil => exact ⟨rfl, h⟩
    | cons d b =>
      have hd := hs d (by rw [List.nil_append] at h; rw [h]; rfl)
      rw [hb d (by simp)] at hd
      cases hd
  | cons c a ih =>
    cases b with
    | nil =>
      have hc := ht c (by rw [List.nil_append] at h; rw [← h]; rfl)
      rw [ha c (by simp)] at hc
      cases hc
    | cons d b =>
      simp only [List.cons_append, List.cons.injEq] at h
      obtain ⟨rfl, h⟩ := h
      obtain ⟨rfl, hst⟩ := ih (fun c hc => ha c (by simp [hc])) (fun c hc => hb c (by simp [hc])) h
      exact ⟨rfl, hst⟩

/-- What the first code unit of a text tells about a finite value. -/
inductive Kind
  | null | yes | no | num | str | arr | obj
  deriving DecidableEq

/-- The kind of a finite value. -/
def kind : Json → Kind
  | .null => .null
  | .bool b => if b then .yes else .no
  | .num _ => .num
  | .infinite => .null
  | .str _ => .str
  | .arr _ => .arr
  | .obj _ => .obj

/-- The kind a first code unit announces. -/
def announces (c : UInt16) : Kind :=
  if c = 110 then .null else if c = 116 then .yes else if c = 102 then .no
  else if c = 34 then .str else if c = 91 then .arr else if c = 123 then .obj else .num

/-- A space, a tab or a line terminator. -/
def isSpace (c : UInt16) : Bool := c == 32 || c == 9 || c == 10 || c == 13

/-- A text starts with a code unit that announces its kind and is no closing bracket or space. -/
theorem stringify_head (x : Json) : ∃ c s, stringify N x = c :: s ∧ announces c = kind x ∧
    c ≠ 93 ∧ isSpace c = false := by
  cases x with
  | null => exact ⟨110, js "ull", rfl, rfl, by decide, by decide⟩
  | bool b =>
    cases b
    · exact ⟨102, js "alse", rfl, rfl, by decide, by decide⟩
    · exact ⟨116, js "rue", rfl, rfl, by decide, by decide⟩
  | num q =>
    rw [stringify]
    cases h : N.text q with
    | nil => exact absurd h (N.text_ne q)
    | cons c s =>
      have hc := N.text_numeral q c (by rw [h]; simp)
      have hne : ∀ d, isNumeral d = false → c ≠ d := fun d hd he => by
        rw [he, hd] at hc; cases hc
      refine ⟨c, s, rfl, ?_, hne 93 (by decide), ?_⟩
      · simp [announces, kind, hne 110 (by decide), hne 116 (by decide), hne 102 (by decide),
          hne 34 (by decide), hne 91 (by decide), hne 123 (by decide)]
      · simp [isSpace, hne 32 (by decide), hne 9 (by decide), hne 10 (by decide),
          hne 13 (by decide)]
  | infinite => exact ⟨110, js "ull", rfl, rfl, by decide, by decide⟩
  | str s => exact ⟨34, _, rfl, rfl, by decide, by decide⟩
  | arr items => exact ⟨91, _, rfl, rfl, by decide, by decide⟩
  | obj fields => exact ⟨123, _, rfl, rfl, by decide, by decide⟩

/-- Two texts that start the same way belong to values of one kind. -/
theorem kind_eq {x y : Json} {s t : JsString} (h : stringify N x ++ s = stringify N y ++ t) :
    kind x = kind y := by
  obtain ⟨c, a, hx, hc, -⟩ := stringify_head (N := N) x
  obtain ⟨d, b, hy, hd, -⟩ := stringify_head (N := N) y
  rw [hx, hy] at h
  simp only [List.cons_append, List.cons.injEq] at h
  rw [← hc, ← hd, h.1]

theorem items_head_ne {first : Bool} {x : Json} {items : List Json} {s t : JsString} :
    stringifyItems N first [] ++ s ≠ stringifyItems N first (x :: items) ++ t := by
  intro h
  cases first with
  | true =>
    obtain ⟨c, a, hx, -, hc, -⟩ := stringify_head (N := N) x
    simp only [stringifyItems, ↓reduceIte, List.nil_append, hx, List.cons_append,
      List.cons.injEq] at h
    exact hc h.1.symm
  | false => simp [stringifyItems] at h

theorem fields_head_ne {first : Bool} {field : JsString × Json} {fields : List (JsString × Json)}
    {s t : JsString} :
    stringifyFields N first [] ++ s ≠ stringifyFields N first (field :: fields) ++ t := by
  intro h
  obtain ⟨key, x⟩ := field
  cases first <;> simp [stringifyFields, JsString.quote] at h

mutual

/-- **Unique readability.**  If two texts of finite values agree as far as they go, followed by
something that cannot continue a number, then the values and the rests are the same. -/
theorem stringify_inj : ∀ (x : Json) {y : Json} {s t : JsString}, x.finite = true →
    y.finite = true → Ends s → Ends t → stringify N x ++ s = stringify N y ++ t →
      x = y ∧ s = t
  | .null, y, s, t, _, hy, _, _, h => by
    have hk := kind_eq h
    cases y with
    | null => exact ⟨rfl, by simpa [stringify] using h⟩
    | bool b => cases b <;> cases hk
    | infinite => cases hy
    | _ => cases hk
  | .bool a, y, s, t, _, hy, _, _, h => by
    have hk := kind_eq h
    cases y with
    | bool b =>
      cases a <;> cases b
      · exact ⟨rfl, by simpa [stringify] using h⟩
      · cases hk
      · cases hk
      · exact ⟨rfl, by simpa [stringify] using h⟩
    | infinite => cases hy
    | _ => cases a <;> cases hk
  | .num q, y, s, t, _, _, hs, ht, h => by
    have hk := kind_eq h
    cases y with
    | num q' =>
      obtain ⟨hq, hst⟩ := span_inj (N.text_numeral q) (N.text_numeral q') hs ht h
      exact ⟨congrArg num (N.text_inj q q' hq), hst⟩
    | bool b => cases b <;> cases hk
    | _ => cases hk
  | .infinite, y, s, t, hx, _, _, _, _ => by cases hx
  | .str a, y, s, t, _, _, _, _, h => by
    have hk := kind_eq h
    cases y with
    | str b =>
      obtain ⟨rfl, hst⟩ := JsString.quote_inj h
      exact ⟨rfl, hst⟩
    | bool b => cases b <;> cases hk
    | _ => cases hk
  | .arr items, y, s, t, hx, hy, _, _, h => by
    have hk := kind_eq h
    cases y with
    | arr items' =>
      simp only [stringify, List.cons_append, List.cons.injEq, true_and] at h
      obtain ⟨rfl, hst⟩ := stringifyItems_inj items hx hy h
      exact ⟨rfl, hst⟩
    | bool b => cases b <;> cases hk
    | _ => cases hk
  | .obj fields, y, s, t, hx, hy, _, _, h => by
    have hk := kind_eq h
    cases y with
    | obj fields' =>
      simp only [stringify, List.cons_append, List.cons.injEq, true_and] at h
      obtain ⟨rfl, hst⟩ := stringifyFields_inj fields hx hy h
      exact ⟨rfl, hst⟩
    | bool b => cases b <;> cases hk
    | _ => cases hk

theorem stringifyItems_inj : ∀ (items : List Json) {first : Bool} {items' : List Json}
    {s t : JsString}, finiteItems items = true → finiteItems items' = true →
    stringifyItems N first items ++ s = stringifyItems N first items' ++ t →
      items = items' ∧ s = t
  | [], _, items', s, t, _, _, h => by
    cases items' with
    | nil => exact ⟨rfl, by simpa using h⟩
    | cons x items' => exact absurd h items_head_ne
  | x :: items, _, items', s, t, hx, hy, h => by
    cases items' with
    | nil => exact absurd h.symm items_head_ne
    | cons y items' =>
      simp only [finiteItems, Bool.and_eq_true] at hx hy
      simp only [stringifyItems, List.append_assoc, List.append_cancel_left_eq] at h
      obtain ⟨rfl, hrest⟩ :=
        stringify_inj x hx.1 hy.1 (ends_items items s) (ends_items items' t) h
      obtain ⟨rfl, hst⟩ := stringifyItems_inj items hx.2 hy.2 hrest
      exact ⟨rfl, hst⟩

theorem stringifyFields_inj : ∀ (fields : List (JsString × Json)) {first : Bool}
    {fields' : List (JsString × Json)} {s t : JsString}, finiteFields fields = true →
    finiteFields fields' = true →
    stringifyFields N first fields ++ s = stringifyFields N first fields' ++ t →
      fields = fields' ∧ s = t
  | [], _, fields', s, t, _, _, h => by
    cases fields' with
    | nil => exact ⟨rfl, by simpa using h⟩
    | cons field fields' => exact absurd h fields_head_ne
  | (key, x) :: fields, _, fields', s, t, hx, hy, h => by
    rcases fields' with - | ⟨⟨key', y⟩, fields'⟩
    · exact absurd h.symm fields_head_ne
    · simp only [finiteFields, Bool.and_eq_true] at hx hy
      simp only [stringifyFields, List.append_assoc, List.append_cancel_left_eq] at h
      obtain ⟨rfl, hvalue⟩ := JsString.quote_inj h
      simp only [List.cons_append, List.cons.injEq, true_and] at hvalue
      obtain ⟨rfl, hrest⟩ :=
        stringify_inj x hx.1 hy.1 (ends_fields fields s) (ends_fields fields' t) hvalue
      obtain ⟨rfl, hst⟩ := stringifyFields_inj fields hx.2 hy.2 hrest
      exact ⟨rfl, hst⟩

end

/-! ### Canonical texts -/

theorem finiteFields_perm {l l' : List (JsString × Json)} (h : l.Perm l') :
    finiteFields l = finiteFields l' := by
  induction h with
  | nil => rfl
  | cons x _ ih => obtain ⟨key, x⟩ := x; simp only [finiteFields, ih]
  | swap x y l =>
    obtain ⟨key, x⟩ := x
    obtain ⟨key', y⟩ := y
    simp only [finiteFields, Bool.and_left_comm]
  | trans _ _ ih ih' => exact ih.trans ih'

mutual

theorem finite_sortKeys : ∀ x : Json, (sortKeys x).finite = x.finite
  | .null => rfl
  | .bool _ => rfl
  | .num _ => rfl
  | .infinite => rfl
  | .str _ => rfl
  | .arr items => by
    simp only [sortKeys, finite]
    exact finite_sortItems items
  | .obj fields => by
    simp only [sortKeys, finite]
    rw [finiteFields_perm (List.perm_insertionSort keyLe _), finite_sortFields fields]

theorem finite_sortItems : ∀ items, finiteItems (sortItems items) = finiteItems items
  | [] => rfl
  | x :: items => by simp only [sortItems, finiteItems, finite_sortKeys x, finite_sortItems items]

theorem finite_sortFields : ∀ fields, finiteFields (sortFields fields) = finiteFields fields
  | [] => rfl
  | (_, x) :: fields => by
    simp only [sortFields, finiteFields, finite_sortKeys x, finite_sortFields fields]

end

/-- Two finite values with one canonical text are the same up to the order of keys. -/
theorem sortKeys_eq_of_canonicalJson {x y : Json} (hx : x.finite = true) (hy : y.finite = true)
    (h : canonicalJson N x = canonicalJson N y) : sortKeys x = sortKeys y := by
  have hends : Ends [] := fun c hc => by cases hc
  refine (stringify_inj (N := N) (s := []) (t := []) (sortKeys x) ?_ ?_ hends hends ?_).1
  · rwa [finite_sortKeys]
  · rwa [finite_sortKeys]
  · simpa [canonicalJson] using h

theorem sortItems_eq_map (items : List Json) : sortItems items = items.map sortKeys := by
  induction items with
  | nil => rfl
  | cons x items ih => rw [sortItems, ih, List.map_cons]

theorem sortFields_eq_map (fields : List (JsString × Json)) :
    sortFields fields = fields.map fun field => (field.1, sortKeys field.2) := by
  induction fields with
  | nil => rfl
  | cons field fields ih => obtain ⟨key, x⟩ := field; rw [sortFields, ih, List.map_cons]

theorem get_map (key : JsString) (fields : List (JsString × Json)) :
    get key (fields.map fun field => (field.1, sortKeys field.2)) =
      (get key fields).map sortKeys := by
  induction fields with
  | nil => rfl
  | cons field fields ih =>
    obtain ⟨k, x⟩ := field
    simp only [List.map_cons, get]
    split_ifs
    · rfl
    · exact ih

/-- With distinct keys, the own properties are the fields. -/
theorem get_eq_some {key : JsString} {x : Json} {fields : List (JsString × Json)}
    (h : (fields.map Prod.fst).Nodup) : get key fields = some x ↔ (key, x) ∈ fields := by
  induction fields with
  | nil => simp [get]
  | cons field fields ih =>
    obtain ⟨k, y⟩ := field
    simp only [List.map_cons, List.nodup_cons] at h
    simp only [get, List.mem_cons, Prod.mk.injEq]
    split_ifs with hk
    · subst hk
      have hmem : (k, x) ∉ fields := fun hm => h.1 (List.mem_map.2 ⟨_, hm, rfl⟩)
      simp [hmem, eq_comm]
    · simp [ih h.2, Ne.symm hk]

theorem get_perm {key : JsString} {fields fields' : List (JsString × Json)}
    (h : (fields.map Prod.fst).Nodup) (hp : fields.Perm fields') :
    get key fields = get key fields' := by
  have h' : (fields'.map Prod.fst).Nodup := (hp.map Prod.fst).nodup_iff.1 h
  refine Option.ext fun x => ?_
  rw [get_eq_some h, get_eq_some h', hp.mem_iff]

/-- Two objects that agree up to the order of keys agree property by property. -/
theorem get_of_sortKeys_eq {fields fields' : List (JsString × Json)}
    (h : (fields.map Prod.fst).Nodup) (he : sortKeys (.obj fields) = sortKeys (.obj fields')) (key : JsString) :
    (get key fields).map sortKeys = (get key fields').map sortKeys := by
  simp only [sortKeys, Json.obj.injEq, sortFields_eq_map] at he
  have hkeys : ∀ l : List (JsString × Json),
      ((l.map fun field => (field.1, sortKeys field.2)).map Prod.fst) = l.map Prod.fst := fun l => by
    rw [List.map_map]; rfl
  have hp := (List.perm_insertionSort keyLe (fields.map fun field => (field.1, sortKeys field.2)))
  have hp' := (List.perm_insertionSort keyLe (fields'.map fun field => (field.1, sortKeys field.2)))
  rw [he] at hp
  rw [← get_map, ← get_map]
  exact get_perm (by rwa [hkeys]) (hp.symm.trans hp')

/-- Two arrays that agree up to the order of keys agree item by item. -/
theorem items_of_sortKeys_eq {items items' : List Json}
    (h : sortKeys (.arr items) = sortKeys (.arr items')) :
    items.map sortKeys = items'.map sortKeys := by
  simpa only [sortKeys, Json.arr.injEq, sortItems_eq_map] using h

/-! ### An instance of the numerals -/

/-- A fraction: its numerator, and for a denominator other than `1` also an `e` and this. -/
def fractionText (n d : ℕ) : JsString :=
  JsString.decimal n ++ if d = 1 then [] else 101 :: JsString.decimal d

/-- Integers in decimal, as JavaScript writes them below `1e21`; other numbers as fractions. -/
def plainText (q : ℚ) : JsString :=
  (if q.num < 0 then [45] else []) ++ fractionText q.num.natAbs q.den

theorem isNumeral_of_isDigit {c : UInt16} (h : JsString.isDigit c = true) : isNumeral c = true := by
  simp only [JsString.isDigit] at h
  simp [isNumeral, h]

theorem plainText_numeral {q : ℚ} {c : UInt16} (h : c ∈ plainText q) : isNumeral c = true := by
  simp only [plainText, fractionText, List.mem_append] at h
  rcases h with h | h | h
  · split_ifs at h
    · obtain rfl : c = 45 := by simpa using h
      rfl
    · simp at h
  · exact isNumeral_of_isDigit (JsString.decimal_digits h)
  · split_ifs at h
    · simp at h
    · rcases List.mem_cons.1 h with rfl | h
      · rfl
      · exact isNumeral_of_isDigit (JsString.decimal_digits h)

theorem fractionText_inj {n m d e : ℕ} (h : fractionText n d = fractionText m e) :
    n = m ∧ d = e := by
  have hends : ∀ (d : ℕ) (c : UInt16),
      (if d = 1 then [] else 101 :: JsString.decimal d).head? = some c →
        JsString.isDigit c = false := by
    intro d c hc
    split_ifs at hc
    · cases hc
    · cases hc
      rfl
  obtain ⟨hn, hd⟩ := span_inj (fun _ => JsString.decimal_digits) (fun _ => JsString.decimal_digits)
    (hends d) (hends e) h
  refine ⟨JsString.decimal_inj hn, ?_⟩
  split_ifs at hd with h₁ h₂
  · rw [h₁, h₂]
  · exact JsString.decimal_inj (List.cons.inj hd).2

/-- A fraction does not start with a sign. -/
theorem sign_ne {n d : ℕ} {s : JsString} : [45] ++ s ≠ fractionText n d := by
  intro h
  unfold fractionText at h
  cases hn : JsString.decimal n with
  | nil => exact JsString.decimal_ne_nil n hn
  | cons c l =>
    have hc := JsString.decimal_digits (n := n) (c := c) (by rw [hn]; simp)
    rw [hn] at h
    obtain rfl : (45 : UInt16) = c := (List.cons.inj h).1
    cases hc

theorem plainText_inj {q q' : ℚ} (h : plainText q = plainText q') : q = q' := by
  unfold plainText at h
  split_ifs at h with hq hq' hq'
  · obtain ⟨hnum, hden⟩ := fractionText_inj (List.append_cancel_left h)
    exact Rat.ext (by omega) hden
  · exact absurd h sign_ne
  · exact absurd h.symm sign_ne
  · obtain ⟨hnum, hden⟩ := fractionText_inj h
    exact Rat.ext (by omega) hden

/-- The plain numerals. -/
def Numerals.plain : Numerals where
  text := plainText
  text_ne _ h := JsString.decimal_ne_nil _ (List.append_eq_nil_iff.1 (List.append_eq_nil_iff.1 h).2).1
  text_numeral _ _ := plainText_numeral
  text_inj _ _ := plainText_inj

end Json

end Obolos
