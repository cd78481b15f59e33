import Obolos.Economy.Schema
import Obolos.Js.Parse
import Obolos.Js.Utf8
import Mathlib.Data.Set.Function

/-!
# Canonical JSON as an encoding

What `assertJson` accepts has finite numbers, so its canonical text is read back by `JSON.parse`
up to the order of keys, and it has no lone surrogates, so its bytes determine it.  The hash of
the text then stands for the value itself (`canonicalJson_faithful`).
-/

namespace Obolos

namespace Json

variable {H : Host} {N : Numerals} {x : Json}

/-! ### Accepted values -/

theorem finiteItems_of_forall {items : List Json} (h : ∀ x ∈ items, x.finite = true) :
    finiteItems items = true := by
  induction items with
  | nil => rfl
  | cons x items ih =>
    rw [finiteItems, h x (by simp), ih fun y hy => h y (by simp [hy])]
    rfl

theorem finiteFields_of_forall {fields : List (JsString × Json)}
    (h : ∀ field ∈ fields, field.2.finite = true) : finiteFields fields = true := by
  induction fields with
  | nil => rfl
  | cons field fields ih =>
    obtain ⟨key, x⟩ := field
    rw [finiteFields, h (key, x) (by simp), ih fun y hy => h y (by simp [hy])]
    rfl

/-- Every element passes a check that all pass. -/
theorem of_forM_ok {α : Type} {f : α → Except JsError Unit} {l : List α}
    (h : l.forM f = .ok ()) : ∀ a ∈ l, f a = .ok () := by
  induction l with
  | nil => intro a ha; cases ha
  | cons b l ih =>
    have h : (f b >>= fun _ => l.forM f) = .ok () := h
    intro a ha
    cases hb : f b with
    | error e => rw [hb] at h; cases h
    | ok _ =>
      rw [hb] at h
      rcases List.mem_cons.1 ha with rfl | ha
      · exact hb
      · exact ih h a ha

/-- The numbers of an accepted value are finite. -/
theorem finite_of_visit {levels : ℕ} (h : visit levels x = .ok ()) : x.finite = true := by
  induction levels generalizing x with
  | zero => cases h
  | succ levels ih =>
    cases x with
    | infinite => cases h
    | arr items =>
      have hitems : items.forM (visit levels) = .ok () := by
        rw [visit] at h
        by_cases hn : items.length > 1000
        · rw [if_pos hn] at h; cases h
        · rw [if_neg hn] at h; exact h
      exact finiteItems_of_forall fun x hx => ih (of_forM_ok hitems x hx)
    | obj entries =>
      refine finiteFields_of_forall fun entry hentry => ?_
      rw [visit] at h
      by_cases hn : entries.length > 1000
      · rw [if_pos hn] at h; cases h
      · rw [if_neg hn] at h
        have hvisit := of_forM_ok h entry hentry
        simp only at hvisit
        split at hvisit
        · cases hvisit
        · exact ih hvisit
    | _ => rfl

theorem finite_of_assertJson {limit : ℕ} (h : assertJson H x limit = .ok ()) :
    x.finite = true := by
  rw [assertJson] at h
  cases hv : visit 13 x with
  | error e => rw [hv] at h; cases h
  | ok _ => exact finite_of_visit hv

/-! ### Texts without lone surrogates -/

theorem wellFormed_number (q : ℚ) : (N.text q).wellFormed = true := by
  refine JsString.wellFormed_of_forall fun c hc => ?_
  have hnumeral := N.text_numeral q c hc
  simp only [isNumeral, Bool.or_eq_true, Bool.and_eq_true, decide_eq_true_eq, beq_iff_eq,
    UInt16.le_iff_toNat_le] at hnumeral
  have hle : c.toNat ≤ 101 := by
    rcases hnumeral with (((⟨-, h⟩ | rfl) | rfl) | rfl) | rfl
    · exact h.trans (by decide)
    all_goals decide
  constructor
  · rw [← Bool.not_eq_true, JsString.isHigh_iff]; omega
  · rw [← Bool.not_eq_true, JsString.isLow_iff]; omega

theorem wellFormed_items {items : List Json} {first : Bool}
    (h : ∀ x ∈ items, (stringify N x).wellFormed = true) :
    (stringifyItems N first items).wellFormed = true := by
  induction items generalizing first with
  | nil => rfl
  | cons x items ih =>
    refine JsString.wellFormed_append (JsString.wellFormed_append ?_ (h x (by simp)))
      (ih fun y hy => h y (by simp [hy]))
    cases first <;> decide

theorem wellFormed_fields {fields : List (JsString × Json)} {first : Bool}
    (h : ∀ field ∈ fields, (stringify N field.2).wellFormed = true) :
    (stringifyFields N first fields).wellFormed = true := by
  induction fields generalizing first with
  | nil => rfl
  | cons field fields ih =>
    obtain ⟨key, x⟩ := field
    have hvalue := JsString.wellFormed_append (s := [58]) (by decide) (h (key, x) (by simp))
    have hfirst : JsString.wellFormed (if first then [] else [44]) = true := by
      cases first <;> decide
    have hrest : (stringifyFields N false fields).wellFormed = true :=
      ih fun y hy => h y (by simp [hy])
    have htext := JsString.wellFormed_append (JsString.wellFormed_append
      (JsString.wellFormed_append hfirst (JsString.wellFormed_quote key)) hvalue) hrest
    simpa [stringifyFields] using htext

/-- `JSON.stringify` writes no lone surrogates. -/
theorem wellFormed_stringify (x : Json) : (stringify N x).wellFormed = true := by
  induction x using ind with
  | null => exact (by decide : JsString.wellFormed (js "null") = true)
  | bool b =>
    cases b
    · exact (by decide : JsString.wellFormed (js "false") = true)
    · exact (by decide : JsString.wellFormed (js "true") = true)
  | num q => exact wellFormed_number q
  | infinite => exact (by decide : JsString.wellFormed (js "null") = true)
  | str s => exact JsString.wellFormed_quote s
  | arr items ih => exact JsString.wellFormed_append (s := [91]) (by decide) (wellFormed_items ih)
  | obj fields ih =>
    exact JsString.wellFormed_append (s := [123]) (by decide) (wellFormed_fields ih)

/-! ### Reading plain numerals -/

/-- The value of a fraction. -/
def readFraction (s : JsString) : Option ℚ := do
  let n ← readDecimals 0 (s.takeWhile JsString.isDigit)
  match s.dropWhile JsString.isDigit with
  | [] => return mkRat n 1
  | _ :: s => return mkRat n (← readDecimals 0 s)

/-- The value of a plain numeral. -/
def readPlain (s : JsString) : Option Json :=
  if s.head? = some 45 then (readFraction s.tail).map fun q => .num (-q)
  else (readFraction s).map .num

theorem readFraction_fractionText (n d : ℕ) : readFraction (fractionText n d) = some (mkRat n d) := by
  have hdigits : ∀ c ∈ JsString.decimal n, JsString.isDigit c = true := fun _ =>
    JsString.decimal_digits
  rw [readFraction, fractionText, List.takeWhile_append_of_pos hdigits,
    List.dropWhile_append_of_pos hdigits]
  split_ifs with hd
  · simp [readDecimals_decimal, hd]
  · have he : JsString.isDigit 101 = false := rfl
    simp [he, readDecimals_decimal]

/-- Plain numerals are read back. -/
theorem readPlain_text (q : ℚ) : readPlain (Numerals.plain.text q) = some (.num q) := by
  show readPlain (plainText q) = _
  rw [readPlain, plainText]
  split_ifs with hneg hhead hhead
  · rw [List.singleton_append, List.tail_cons, readFraction_fractionText, Option.map_some,
      Rat.neg_mkRat]
    have hnum : -((q.num.natAbs : ℤ)) = q.num := by omega
    rw [hnum, Rat.mkRat_self]
  · simp at hhead
  · exfalso
    cases hdecimal : fractionText q.num.natAbs q.den with
    | nil => rw [hdecimal] at hhead; cases hhead
    | cons c s =>
      rw [hdecimal] at hhead
      obtain rfl : c = 45 := by simpa using hhead
      exact sign_ne (s := s) hdecimal.symm
  · rw [List.nil_append, readFraction_fractionText, Option.map_some]
    have hnum : ((q.num.natAbs : ℤ)) = q.num := by omega
    rw [hnum, Rat.mkRat_self]

/-! ### The encoding -/

/-- The canonical text is a normal form. -/
theorem same_iff_canonicalJson {v w : Json} (hv : Distinct v) (hw : Distinct w)
    (hv' : v.finite = true) (hw' : w.finite = true) :
    Same v w ↔ canonicalJson N v = canonicalJson N w := by
  rw [same_iff_sortKeys hv hw]
  constructor
  · intro h
    rw [canonicalJson, canonicalJson, h]
  · exact sortKeys_eq_of_canonicalJson hv' hw'

/-- A value that is hashed has passed `assertJson`, and its hash is that of its canonical text. -/
theorem canonicalJsonHash_ok {a : Bytes32} :
    canonicalJsonHash H x = .ok a ↔
      assertJson H x (128 * 1024) = .ok () ∧ H.textHash (canonicalJson H.numerals x) = a := by
  simp only [canonicalJsonHash, bind_eq_ok, pure_eq_ok]
  constructor
  · rintro ⟨_, hx, ha⟩
    exact ⟨hx, ha⟩
  · rintro ⟨hx, ha⟩
    exact ⟨_, hx, ha⟩

/-- Equal hashes are hashes of the same value. -/
theorem same_of_canonicalJsonHash {keccak : List ℕ → Bytes32} {B : Set (List ℕ)} {v w : Json}
    {a : Bytes32} (hhash : ∀ s, H.textHash s = keccak s.utf8) (hB : B.InjOn keccak)
    (hv : Distinct v) (hw : Distinct w) (hv' : canonicalJsonHash H v = .ok a)
    (hw' : canonicalJsonHash H w = .ok a) (hvB : (canonicalJson H.numerals v).utf8 ∈ B)
    (hwB : (canonicalJson H.numerals w).utf8 ∈ B) : Same v w := by
  obtain ⟨hvok, hva⟩ := canonicalJsonHash_ok.1 hv'
  obtain ⟨hwok, hwa⟩ := canonicalJsonHash_ok.1 hw'
  rw [same_iff_canonicalJson (N := H.numerals) hv hw (finite_of_assertJson hvok)
    (finite_of_assertJson hwok)]
  refine JsString.utf8_inj (wellFormed_stringify _) (wellFormed_stringify _) (hB hvB hwB ?_)
  rw [← hhash, ← hhash, hva, hwa]

/-- **Canonical JSON is faithful.**  For accepted values: the canonical text is read back as the
value, does not depend on the order of keys, and determines the value; and two hashes are equal
exactly when the values are the same, as long as `keccak` does not collide on the bytes `B` that
are hashed. -/
theorem canonicalJson_faithful {readNumber : JsString → Option Json} {keccak : List ℕ → Bytes32}
    {B : Set (List ℕ)} {v w : Json} {limit : ℕ}
    (hread : ∀ q, readNumber (H.numerals.text q) = some (.num q))
    (hhash : ∀ s, H.textHash s = keccak s.utf8) (hB : B.InjOn keccak)
    (hv : Distinct v) (hw : Distinct w)
    (hv' : assertJson H v limit = .ok ()) (hw' : assertJson H w limit = .ok ()) :
    (∃ v', parse readNumber (canonicalJson H.numerals v) = some v' ∧ Same v' v) ∧
      (Same v w ↔ canonicalJson H.numerals v = canonicalJson H.numerals w) ∧
      (∀ h h', canonicalJsonHash H v = .ok h → canonicalJsonHash H w = .ok h' →
        (canonicalJson H.numerals v).utf8 ∈ B → (canonicalJson H.numerals w).utf8 ∈ B →
          (h = h' ↔ Same v w)) := by
  have htext : Same v w ↔ canonicalJson H.numerals v = canonicalJson H.numerals w :=
    same_iff_canonicalJson hv hw (finite_of_assertJson hv') (finite_of_assertJson hw')
  refine ⟨⟨sortKeys v, ?_, same_sortKeys hv⟩, htext, fun h h' hh hh' hvB hwB => ?_⟩
  · exact parse_stringify hread (distinct_sortKeys hv) (by
      rw [finite_sortKeys]; exact finite_of_assertJson hv')
  · constructor
    · rintro rfl
      exact same_of_canonicalJsonHash hhash hB hv hw hh hh' hvB hwB
    · intro hsame
      rw [← (canonicalJsonHash_ok.1 hh).2, ← (canonicalJsonHash_ok.1 hh').2, htext.1 hsame]

/-- A digest of bytes. -/
def exampleDigest (bytes : List ℕ) : Bytes32 :=
  BitVec.ofNat 256 (bytes.foldl (fun n b => n * 257 + b + 1) 0)

/-- The plain host, with this digest of the bytes of a text. -/
def exampleHost : Host := { Host.plain with textHash := fun s => exampleDigest s.utf8 }

/-- `{"b":[1],"a":"x"}` -/
def exampleValue : Json := .obj [([98], .arr [.num 1]), ([97], .str [120])]

/-- `{"a":"x","b":[1]}` -/
def exampleSorted : Json := .obj [([97], .str [120]), ([98], .arr [.num 1])]

theorem ok_of_isOk {r : Except JsError Unit} (h : r.isOk = true) : r = .ok () := by
  cases r with
  | ok _ => rfl
  | error e => cases h

/-- Two orders of the same keys. -/
theorem canonicalJson_faithful_example :
    (∃ v', parse readPlain (canonicalJson exampleHost.numerals exampleValue) = some v' ∧
      Same v' exampleValue) ∧ Same exampleValue exampleSorted := by
  have hdistinct : ∀ {x y : Json} {a b : JsString}, a ≠ b → Distinct x → Distinct y →
      Distinct (.obj [(a, x), (b, y)]) := fun hab hx hy =>
    .obj (by simpa using hab) (by simp [hx, hy])
  have hitems : Distinct (.arr [.num 1]) := .arr (by simp [Distinct.num])
  have hhash : ∀ s, exampleHost.textHash s = exampleDigest s.utf8 := fun _ => rfl
  have h := canonicalJson_faithful (H := exampleHost) (v := exampleValue) (w := exampleSorted)
    (B := {(canonicalJson exampleHost.numerals exampleValue).utf8}) readPlain_text
    hhash (by simp) (hdistinct (by decide) hitems (.str _))
    (hdistinct (by decide) (.str _) hitems)
    (ok_of_isOk (r := assertJson exampleHost exampleValue 1024) (by decide +kernel))
    (ok_of_isOk (by decide +kernel))
  exact ⟨h.1, h.2.1.2 (by decide +kernel)⟩

end Json

end Obolos
