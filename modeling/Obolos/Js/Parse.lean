import Obolos.Js.Same

/-!
# `JSON.parse`

A recursive-descent reader of JSON texts.  How the text of a number is read is a parameter, as
how it is written is (`Numerals`); reading a written number gives it back by assumption.

`parse_stringify` : what `stringify` writes is read back, for values with finite numbers and
different keys.
-/

namespace Obolos

namespace Json

variable (readNumber : JsString → Option Json)

/-- The text without its leading white space. -/
def skipSpace (s : JsString) : JsString := s.dropWhile isSpace

/-- A code unit of a number in a JSON text. -/
def isNumberUnit (c : UInt16) : Bool := isNumeral c || c == 69

/-- What follows a word. -/
def dropWord : (word s : JsString) → Option JsString
  | [], s => some s
  | _ :: _, [] => none
  | c :: word, d :: s => if c = d then dropWord word s else none

/-- `object[key] = value`: a key that is there already keeps its place. -/
def insertField (key : JsString) (x : Json) : List (JsString × Json) → List (JsString × Json)
  | [] => [(key, x)]
  | (k, y) :: fields =>
    if k = key then (k, x) :: fields else (k, y) :: insertField key x fields

/-- The object with these fields, the last one of every key. -/
def ofFields (fields : List (JsString × Json)) : List (JsString × Json) :=
  fields.foldl (fun object field => insertField field.1 field.2 object) []

/-- The word a literal starts with, and its value. -/
def literals : List (JsString × Json) :=
  [(js "null", .null), (js "true", .bool true), (js "false", .bool false)]

/-- A literal or a number. -/
def parseAtom (s : JsString) : Option (Json × JsString) :=
  match literals.findSome? fun literal => (dropWord literal.1 s).map fun rest => (literal.2, rest) with
  | some result => some result
  | none => (readNumber (s.takeWhile isNumberUnit)).map fun x => (x, s.dropWhile isNumberUnit)

mutual

/-- A value, and what follows it; at most `n` nested reads. -/
def parseValue : (n : ℕ) → JsString → Option (Json × JsString)
  | 0, _ => none
  | n + 1, s =>
    match skipSpace s with
    | 34 :: rest => (JsString.unquote rest).map fun p => (.str p.1, p.2)
    | 91 :: rest =>
      match skipSpace rest with
      | 93 :: rest' => some (.arr [], rest')
      | _ => (parseItems n rest).map fun p => (.arr p.1, p.2)
    | 123 :: rest =>
      match skipSpace rest with
      | 125 :: rest' => some (.obj [], rest')
      | _ => (parseFields n rest).map fun p => (.obj (ofFields p.1), p.2)
    | s => parseAtom readNumber s

/-- The items of an array up to its closing bracket, at least one. -/
def parseItems : (n : ℕ) → JsString → Option (List Json × JsString)
  | 0, _ => none
  | n + 1, s => do
    let (x, rest) ← parseValue n s
    match skipSpace rest with
    | 44 :: rest => (parseItems n rest).map fun p => (x :: p.1, p.2)
    | 93 :: rest => some ([x], rest)
    | _ => none

/-- The fields of an object up to its closing brace, at least one. -/
def parseFields : (n : ℕ) → JsString → Option (List (JsString × Json) × JsString)
  | 0, _ => none
  | n + 1, s =>
    match skipSpace s with
    | 34 :: s => do
      let (key, rest) ← JsString.unquote s
      match skipSpace rest with
      | 58 :: rest => do
        let (x, rest) ← parseValue n rest
        match skipSpace rest with
        | 44 :: rest => (parseFields n rest).map fun p => ((key, x) :: p.1, p.2)
        | 125 :: rest => some ([(key, x)], rest)
        | _ => none
      | _ => none
    | _ => none

end

/-- `JSON.parse(text)` -/
def parse (s : JsString) : Option Json :=
  match parseValue readNumber (s.length + 1) s with
  | some (x, rest) => if skipSpace rest = [] then some x else none
  | none => none

/-! ### Reading back -/

variable {readNumber} {N : Numerals}

theorem skipSpace_cons {c : UInt16} {s : JsString} (h : isSpace c = false) :
    skipSpace (c :: s) = c :: s := by
  rw [skipSpace, List.dropWhile_cons_of_neg (by simp [h])]

theorem skipSpace_stringify (x : Json) (s : JsString) :
    skipSpace (stringify N x ++ s) = stringify N x ++ s := by
  obtain ⟨c, a, hx, -, -, hc⟩ := stringify_head (N := N) x
  rw [hx, List.cons_append]
  exact skipSpace_cons hc

theorem dropWord_append (word s : JsString) : dropWord word (word ++ s) = some s := by
  induction word with
  | nil => rfl
  | cons c word ih => simpa [dropWord] using ih

theorem insertField_new {key : JsString} {x : Json} {fields : List (JsString × Json)}
    (h : key ∉ fields.map Prod.fst) : insertField key x fields = fields ++ [(key, x)] := by
  induction fields with
  | nil => rfl
  | cons field fields ih =>
    obtain ⟨k, y⟩ := field
    simp only [List.map_cons, List.mem_cons, not_or] at h
    rw [insertField, if_neg (Ne.symm h.1), ih h.2]
    rfl

/-- Different keys are all kept. -/
theorem ofFields_eq {fields : List (JsString × Json)} (h : (fields.map Prod.fst).Nodup) :
    ofFields fields = fields := by
  suffices hfold : ∀ rest object : List (JsString × Json),
      ((object ++ rest).map Prod.fst).Nodup →
      rest.foldl (fun object field => insertField field.1 field.2 object) object =
        object ++ rest from hfold fields [] (by simpa using h)
  intro rest
  induction rest with
  | nil => intro object _; simp
  | cons field rest ih =>
    intro object hnodup
    have hnew : field.1 ∉ object.map Prod.fst := by
      intro hmem
      rw [List.map_append, List.nodup_append] at hnodup
      exact hnodup.2.2 _ hmem _ (by simp) rfl
    rw [List.foldl_cons, insertField_new hnew, ih]
    · simp
    · simpa using hnodup

/-- The text goes on with something that cannot continue a number. -/
def Stops (s : JsString) : Prop := ∀ c, s.head? = some c → isNumberUnit c = false

theorem takeWhile_number {a s : JsString} (ha : ∀ c ∈ a, isNumeral c = true) (hs : Stops s) :
    (a ++ s).takeWhile isNumberUnit = a ∧ (a ++ s).dropWhile isNumberUnit = s := by
  have hall : ∀ c ∈ a, isNumberUnit c = true := fun c hc => by simp [isNumberUnit, ha c hc]
  rw [List.takeWhile_append_of_pos hall, List.dropWhile_append_of_pos hall]
  cases s with
  | nil => simp
  | cons c s =>
    have hc := hs c rfl
    simp [hc]

/-- A number is not a literal. -/
theorem literals_number {c : UInt16} {s : JsString} (h : isNumeral c = true) :
    (literals.findSome? fun literal =>
      (dropWord literal.1 (c :: s)).map fun rest => (literal.2, rest)) = none := by
  have hne : ∀ d, isNumeral d = false → d ≠ c := fun d hd he => by rw [he, h] at hd; cases hd
  have hwords : ∀ literal ∈ literals, dropWord literal.1 (c :: s) = none := by
    intro literal hl
    simp only [literals, List.mem_cons, List.not_mem_nil, or_false] at hl
    rcases hl with rfl | rfl | rfl
    · exact if_neg (hne 110 (by decide))
    · exact if_neg (hne 116 (by decide))
    · exact if_neg (hne 102 (by decide))
  rw [List.findSome?_eq_none_iff]
  intro literal hl
  rw [hwords literal hl]
  rfl

theorem stops_cons {c : UInt16} {s : JsString} (h : isNumberUnit c = false) : Stops (c :: s) := by
  intro d hd
  obtain rfl : c = d := by simpa using hd
  exact h

/-- A text with another head than those of strings, arrays and objects is an atom. -/
theorem parseValue_atom {n : ℕ} {c : UInt16} {s : JsString} (hspace : isSpace c = false)
    (h34 : c ≠ 34) (h91 : c ≠ 91) (h123 : c ≠ 123) :
    parseValue readNumber (n + 1) (c :: s) = parseAtom readNumber (c :: s) := by
  rw [parseValue, skipSpace_cons hspace]
  split
  · rename_i h; exact absurd (List.cons.inj h).1 h34
  · rename_i h; exact absurd (List.cons.inj h).1 h91
  · rename_i h; exact absurd (List.cons.inj h).1 h123
  · rfl

theorem parseValue_arr {n : ℕ} {s rest : JsString} {items : List Json}
    (hne : ∀ rest, skipSpace s ≠ 93 :: rest)
    (h : parseItems readNumber n s = some (items, rest)) :
    parseValue readNumber (n + 1) (91 :: s) = some (.arr items, rest) := by
  rw [parseValue, skipSpace_cons (by decide)]
  simp only [h, Option.map_some]

theorem parseValue_obj {n : ℕ} {s rest : JsString} {fields : List (JsString × Json)}
    (hne : ∀ rest, skipSpace s ≠ 125 :: rest)
    (h : parseFields readNumber n s = some (fields, rest)) :
    parseValue readNumber (n + 1) (123 :: s) = some (.obj (ofFields fields), rest) := by
  rw [parseValue, skipSpace_cons (by decide)]
  simp only [h, Option.map_some]

theorem parseAtom_number (hread : ∀ q, readNumber (N.text q) = some (.num q)) (q : ℚ)
    {s : JsString} (hs : Stops s) : parseAtom readNumber (N.text q ++ s) = some (.num q, s) := by
  obtain ⟨htake, hdrop⟩ := takeWhile_number (N.text_numeral q) hs
  have hword : (literals.findSome? fun literal =>
      (dropWord literal.1 (N.text q ++ s)).map fun rest => (literal.2, rest)) = none := by
    cases h : N.text q with
    | nil => exact absurd h (N.text_ne q)
    | cons c a => exact literals_number (N.text_numeral q c (by rw [h]; simp))
  simp only [parseAtom, hword, htake, hdrop, hread, Option.map_some]

theorem stringifyItems_tail (x : Json) (items : List Json) :
    stringifyItems N false (x :: items) = 44 :: stringifyItems N true (x :: items) := by
  simp [stringifyItems]

theorem stringifyFields_tail (field : JsString × Json) (fields : List (JsString × Json)) :
    stringifyFields N false (field :: fields) = 44 :: stringifyFields N true (field :: fields) := by
  obtain ⟨key, x⟩ := field
  simp [stringifyFields]

mutual

/-- A written value is read back from the head of a text. -/
theorem parseValue_stringify (hread : ∀ q, readNumber (N.text q) = some (.num q)) :
    ∀ (x : Json) {n : ℕ} {s : JsString}, Distinct x → x.finite = true → Stops s →
      (stringify N x).length < n → parseValue readNumber n (stringify N x ++ s) = some (x, s)
  | .null, n + 1, s, _, _, _, _ => rfl
  | .bool false, n + 1, s, _, _, _, _ => rfl
  | .bool true, n + 1, s, _, _, _, _ => rfl
  | .num q, n + 1, s, _, _, hs, _ => by
    rw [stringify]
    have hatom := parseAtom_number hread q hs
    cases h : N.text q with
    | nil => exact absurd h (N.text_ne q)
    | cons c a =>
      have hc := N.text_numeral q c (by rw [h]; simp)
      -- A numeral starts no string, array or object, and no space stands before it.
      have hne : ∀ d, isNumeral d = false → c ≠ d := fun d hd he => by
        rw [he, hd] at hc; cases hc
      rw [h] at hatom
      rw [List.cons_append, parseValue_atom _ (hne 34 (by decide)) (hne 91 (by decide))
        (hne 123 (by decide))]
      · exact hatom
      · simp [isSpace, hne 32 (by decide), hne 9 (by decide), hne 10 (by decide),
          hne 13 (by decide)]
  | .infinite, n + 1, s, _, hx, _, _ => by cases hx
  | .str a, n + 1, s, _, _, _, _ => by
    show ((JsString.escape a ++ [34] ++ s).unquote).map _ = _
    rw [List.append_assoc, List.singleton_append, JsString.unquote_escape]
    rfl
  | .arr [], n + 1, s, _, _, _, _ => rfl
  | .arr (x :: items), n + 1, s, hd, hx, _, hn => by
    have hlength : (stringifyItems N true (x :: items)).length < n := by
      simp only [stringify, List.length_cons] at hn
      omega
    have hitems := parseItems_stringify hread (x :: items) (s := s) (by simp)
      (by cases hd; assumption) hx hlength
    have hhead : skipSpace (stringifyItems N true (x :: items) ++ s) =
        stringifyItems N true (x :: items) ++ s := by
      simp only [stringifyItems, ↓reduceIte, List.nil_append, List.append_assoc]
      exact skipSpace_stringify x _
    refine parseValue_arr (fun rest h => ?_) hitems
    exact items_head_ne (N := N) (t := s) (s := rest) (h.symm.trans hhead)
  | .obj [], n + 1, s, _, _, _, _ => rfl
  | .obj (field :: fields), n + 1, s, hd, hx, _, hn => by
    have hlength : (stringifyFields N true (field :: fields)).length < n := by
      simp only [stringify, List.length_cons] at hn
      omega
    cases hd with
    | obj hnodup hd =>
      have hfields := parseFields_stringify hread (field :: fields) (s := s) (by simp) hd hx hlength
      have hobject := parseValue_obj (fun rest h => ?_) hfields
      · rw [ofFields_eq hnodup] at hobject
        exact hobject
      · obtain ⟨key, x⟩ := field
        cases h

theorem parseItems_stringify (hread : ∀ q, readNumber (N.text q) = some (.num q)) :
    ∀ (items : List Json) {n : ℕ} {s : JsString}, items ≠ [] →
    (∀ x ∈ items, Distinct x) → finiteItems items = true →
    (stringifyItems N true items).length < n →
      parseItems readNumber n (stringifyItems N true items ++ s) = some (items, s)
  | [], _, _, h, _, _, _ => absurd rfl h
  | [x], n + 1, s, _, hd, hx, hn => by
    simp only [finiteItems, Bool.and_true] at hx
    simp only [stringifyItems, ↓reduceIte, List.nil_append, List.length_append,
      List.length_cons, List.length_nil] at hn
    have hvalue := parseValue_stringify hread x (n := n) (s := 93 :: s) (hd x (by simp)) hx
      (stops_cons (by decide)) (by omega)
    simp only [stringifyItems, ↓reduceIte, List.nil_append, List.append_assoc,
      List.singleton_append]
    rw [parseItems, hvalue]
    rfl
  | x :: y :: items, n + 1, s, _, hd, hx, hn => by
    rw [finiteItems, Bool.and_eq_true] at hx
    have htext : stringifyItems N true (x :: y :: items) =
        stringify N x ++ 44 :: stringifyItems N true (y :: items) := by
      rw [stringifyItems, stringifyItems_tail]
      rfl
    rw [htext, List.length_append, List.length_cons] at hn
    have hvalue := parseValue_stringify hread x (n := n)
      (s := 44 :: (stringifyItems N true (y :: items) ++ s)) (hd x (by simp)) hx.1
      (stops_cons (by decide)) (by omega)
    have hitems := parseItems_stringify hread (y :: items) (n := n) (s := s) (by simp)
      (fun z hz => hd z (List.mem_cons_of_mem _ hz)) hx.2 (by omega)
    rw [htext, List.append_assoc, List.cons_append, parseItems, hvalue]
    show (parseItems readNumber n (stringifyItems N true (y :: items) ++ s)).map _ = _
    rw [hitems]
    rfl

theorem parseFields_stringify (hread : ∀ q, readNumber (N.text q) = some (.num q)) :
    ∀ (fields : List (JsString × Json)) {n : ℕ} {s : JsString},
    fields ≠ [] → (∀ field ∈ fields, Distinct field.2) → finiteFields fields = true →
    (stringifyFields N true fields).length < n →
      parseFields readNumber n (stringifyFields N true fields ++ s) = some (fields, s)
  | [], _, _, h, _, _, _ => absurd rfl h
  | [(key, x)], n + 1, s, _, hd, hx, hn => by
    simp only [finiteFields, Bool.and_true] at hx
    have htext : stringifyFields N true [(key, x)] =
        34 :: (key.escape ++ 34 :: 58 :: (stringify N x ++ [125])) := by
      simp [stringifyFields, JsString.quote]
    rw [htext] at hn
    simp only [List.length_append, List.length_cons, List.length_nil] at hn
    have hvalue := parseValue_stringify hread x (n := n) (s := 125 :: s) (hd (key, x) (by simp)) hx
      (stops_cons (by decide)) (by omega)
    rw [htext]
    simp only [List.cons_append, List.append_assoc, List.nil_append]
    rw [parseFields, skipSpace_cons (by decide)]
    simp only [JsString.unquote_escape, Option.bind_eq_bind, Option.bind_some,
      skipSpace_cons (show isSpace 58 = false by decide), hvalue,
      skipSpace_cons (show isSpace 125 = false by decide)]
  | (key, x) :: field :: fields, n + 1, s, _, hd, hx, hn => by
    rw [finiteFields, Bool.and_eq_true] at hx
    have htext : stringifyFields N true ((key, x) :: field :: fields) =
        34 :: (key.escape ++ 34 :: 58 :: (stringify N x ++ 44 ::
          stringifyFields N true (field :: fields))) := by
      rw [stringifyFields, stringifyFields_tail]
      simp [JsString.quote]
    rw [htext] at hn
    simp only [List.length_append, List.length_cons] at hn
    have hvalue := parseValue_stringify hread x (n := n)
      (s := 44 :: (stringifyFields N true (field :: fields) ++ s)) (hd (key, x) (by simp)) hx.1
      (stops_cons (by decide)) (by omega)
    have hfields := parseFields_stringify hread (field :: fields) (n := n) (s := s) (by simp)
      (fun z hz => hd z (List.mem_cons_of_mem _ hz)) hx.2 (by omega)
    rw [htext]
    simp only [List.cons_append, List.append_assoc]
    rw [parseFields, skipSpace_cons (by decide)]
    simp only [JsString.unquote_escape, Option.bind_eq_bind, Option.bind_some,
      skipSpace_cons (show isSpace 58 = false by decide), hvalue,
      skipSpace_cons (show isSpace 44 = false by decide), hfields, Option.map_some]

end

/-- **Round trip.**  `JSON.parse(JSON.stringify(value))` is the value. -/
theorem parse_stringify (hread : ∀ q, readNumber (N.text q) = some (.num q)) {x : Json}
    (hd : Distinct x) (hx : x.finite = true) : parse readNumber (stringify N x) = some x := by
  have hstops : Stops [] := fun c hc => by cases hc
  have hvalue := parseValue_stringify hread x (s := []) hd hx hstops (Nat.lt_succ_self _)
  rw [List.append_nil] at hvalue
  rw [parse, hvalue]
  rfl

end Json

end Obolos
