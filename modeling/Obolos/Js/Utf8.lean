import Obolos.Js.Text

/-!
# The bytes of a string

`new TextEncoder().encode(s)` (and viem's `toHex(s)`, which writes these bytes in hexadecimal)
replaces every code unit that is half of no surrogate pair.  Strings without such code units are
well formed (`wellFormed`), and only they are determined by their bytes (`utf8_inj`).
-/

namespace Obolos

namespace JsString

/-- Every surrogate is half of a pair. -/
def wellFormed : JsString → Bool
  | [] => true
  | c :: s =>
    if isHigh c then
      match s with
      | [] => false
      | d :: s' => isLow d && wellFormed s'
    else !isLow c && wellFormed s

/-- `[...text].length`: the characters of a text, where a surrogate pair is one. -/
def codePoints : JsString → ℕ
  | [] => 0
  | c :: s =>
    match s with
    | [] => 1
    | d :: s' => if isHigh c && isLow d then 1 + codePoints s' else 1 + codePoints (d :: s')

theorem codePoints_le (s : JsString) : codePoints s ≤ s.length := by
  fun_induction codePoints s with
  | case1 => exact Nat.le_refl 0
  | case2 c => exact Nat.le_refl 1
  | case3 c d s h ih => simp only [List.length_cons]; omega
  | case4 c d s h ih => simp only [List.length_cons] at ih ⊢; omega

theorem codePoints_pos {s : JsString} (h : 0 < s.length) : 0 < codePoints s := by
  fun_induction codePoints s with
  | case1 => cases h
  | case2 c => exact Nat.one_pos
  | case3 => omega
  | case4 => omega

/-- The code point of a surrogate pair. -/
def pairCode (c d : UInt16) : ℕ := 0x10000 + (c.toNat - 0xd800) * 0x400 + (d.toNat - 0xdc00)

/-- `U+FFFD` -/
def replacement : List ℕ := [0xef, 0xbf, 0xbd]

/-- `new TextEncoder().encode(s)` -/
def utf8 : JsString → List ℕ
  | [] => []
  | c :: s =>
    if c.toNat < 0x80 then c.toNat :: utf8 s
    else if c.toNat < 0x800 then (0xc0 + c.toNat / 64) :: (0x80 + c.toNat % 64) :: utf8 s
    else if isHigh c then
      match s with
      | [] => replacement
      | d :: s' =>
        if isLow d then
          (0xf0 + pairCode c d / 64 / 64 / 64) :: (0x80 + pairCode c d / 64 / 64 % 64) ::
            (0x80 + pairCode c d / 64 % 64) :: (0x80 + pairCode c d % 64) :: utf8 s'
        else replacement ++ utf8 (d :: s')
    else if isLow c then replacement ++ utf8 s
    else
      (0xe0 + c.toNat / 64 / 64) :: (0x80 + c.toNat / 64 % 64) :: (0x80 + c.toNat % 64) :: utf8 s

/-- Read bytes back. -/
def ofUtf8 : List ℕ → JsString
  | [] => []
  | a :: bytes =>
    if a < 0x80 then a.toUInt16 :: ofUtf8 bytes
    else if a < 0xe0 then
      match bytes with
      | b :: bytes => (64 * (a - 0xc0) + (b - 0x80)).toUInt16 :: ofUtf8 bytes
      | _ => []
    else if a < 0xf0 then
      match bytes with
      | b :: c :: bytes =>
        (64 * (64 * (a - 0xe0) + (b - 0x80)) + (c - 0x80)).toUInt16 :: ofUtf8 bytes
      | _ => []
    else
      match bytes with
      | b :: c :: d :: bytes =>
        let code := 64 * (64 * (64 * (a - 0xf0) + (b - 0x80)) + (c - 0x80)) + (d - 0x80) - 0x10000
        (0xd800 + code / 0x400).toUInt16 :: (0xdc00 + code % 0x400).toUInt16 :: ofUtf8 bytes
      | _ => []

variable {c d : UInt16} {s t : JsString}

theorem isHigh_iff : isHigh c = true ↔ 0xd800 ≤ c.toNat ∧ c.toNat ≤ 0xdbff := by
  simp [isHigh, UInt16.le_iff_toNat_le]

theorem isLow_iff : isLow c = true ↔ 0xdc00 ≤ c.toNat ∧ c.toNat ≤ 0xdfff := by
  simp [isLow, UInt16.le_iff_toNat_le]

theorem toUInt16_toNat (c : UInt16) : c.toNat.toUInt16 = c := by simp

/-- A code unit outside the surrogates, read back. -/
theorem ofUtf8_unit (hhigh : isHigh c = false) (hlow : isLow c = false) :
    ofUtf8 (utf8 (c :: s)) = c :: ofUtf8 (utf8 s) := by
  have hlt := c.toNat_lt
  rw [utf8.eq_def]
  simp only [hhigh, hlow, Bool.false_eq_true, ↓reduceIte]
  split_ifs with h1 h2
  · rw [ofUtf8.eq_def]
    simp only [h1, ↓reduceIte, toUInt16_toNat]
  · have ha : ¬ 0xc0 + c.toNat / 64 < 0x80 := by omega
    have hb : 0xc0 + c.toNat / 64 < 0xe0 := by omega
    have hc : 64 * (0xc0 + c.toNat / 64 - 0xc0) + (0x80 + c.toNat % 64 - 0x80) = c.toNat := by
      omega
    rw [ofUtf8.eq_def]
    simp only [ha, hb, hc, ↓reduceIte, toUInt16_toNat]
  · have ha : ¬ 0xe0 + c.toNat / 64 / 64 < 0x80 := by omega
    have hb : ¬ 0xe0 + c.toNat / 64 / 64 < 0xe0 := by omega
    have hc : 0xe0 + c.toNat / 64 / 64 < 0xf0 := by omega
    have hd : 64 * (64 * (0xe0 + c.toNat / 64 / 64 - 0xe0) + (0x80 + c.toNat / 64 % 64 - 0x80)) +
        (0x80 + c.toNat % 64 - 0x80) = c.toNat := by omega
    rw [ofUtf8.eq_def]
    simp only [ha, hb, hc, hd, ↓reduceIte, toUInt16_toNat]

/-- A surrogate pair, read back. -/
theorem ofUtf8_pair (hhigh : isHigh c = true) (hlow : isLow d = true) :
    ofUtf8 (utf8 (c :: d :: s)) = c :: d :: ofUtf8 (utf8 s) := by
  have hc := isHigh_iff.1 hhigh
  have hd := isLow_iff.1 hlow
  have h1 : ¬ c.toNat < 0x80 := by omega
  have h2 : ¬ c.toNat < 0x800 := by omega
  have hcode : pairCode c d = 0x10000 + (c.toNat - 0xd800) * 0x400 + (d.toNat - 0xdc00) := rfl
  rw [utf8]
  simp only [h1, h2, hhigh, hlow, ↓reduceIte]
  generalize pairCode c d = n at hcode
  have ha : ¬ 0xf0 + n / 64 / 64 / 64 < 0x80 := by omega
  have hb : ¬ 0xf0 + n / 64 / 64 / 64 < 0xe0 := by omega
  have hb' : ¬ 0xf0 + n / 64 / 64 / 64 < 0xf0 := by omega
  have hn : 64 * (64 * (64 * (0xf0 + n / 64 / 64 / 64 - 0xf0) + (0x80 + n / 64 / 64 % 64 - 0x80)) +
      (0x80 + n / 64 % 64 - 0x80)) + (0x80 + n % 64 - 0x80) = n := by omega
  have hhead : 0xd800 + (n - 0x10000) / 0x400 = c.toNat := by omega
  have hlast : 0xdc00 + (n - 0x10000) % 0x400 = d.toNat := by omega
  rw [ofUtf8.eq_def]
  simp only [ha, hb, hb', hn, hhead, hlast, ↓reduceIte, toUInt16_toNat]

/-- A well-formed string can be read back from its bytes. -/
theorem ofUtf8_utf8 : ∀ {s : JsString}, wellFormed s = true → ofUtf8 (utf8 s) = s
  | [], _ => rfl
  | c :: s, h => by
    rw [wellFormed.eq_def] at h
    cases hc : isHigh c with
    | false =>
      simp only [hc, Bool.false_eq_true, ↓reduceIte, Bool.and_eq_true, Bool.not_eq_true'] at h
      rw [ofUtf8_unit hc h.1, ofUtf8_utf8 h.2]
    | true =>
      cases s with
      | nil => simp [hc] at h
      | cons d s =>
        simp only [hc, ↓reduceIte, Bool.and_eq_true] at h
        rw [ofUtf8_pair hc h.1, ofUtf8_utf8 h.2]

/-- Well-formed strings with the same bytes are the same. -/
theorem utf8_inj (hs : wellFormed s = true) (ht : wellFormed t = true) (h : utf8 s = utf8 t) :
    s = t := by
  rw [← ofUtf8_utf8 hs, h, ofUtf8_utf8 ht]

/-! ### Well-formed texts -/

theorem wellFormed_append : ∀ {s t : JsString}, wellFormed s = true → wellFormed t = true →
    wellFormed (s ++ t) = true
  | [], _, _, ht => ht
  | c :: s, t, hs, ht => by
    rw [wellFormed.eq_def] at hs
    rw [List.cons_append, wellFormed.eq_def]
    cases hc : isHigh c with
    | false =>
      simp only [hc, Bool.false_eq_true, ↓reduceIte, Bool.and_eq_true, Bool.not_eq_true'] at hs ⊢
      exact ⟨hs.1, wellFormed_append hs.2 ht⟩
    | true =>
      cases s with
      | nil => simp [hc] at hs
      | cons d s =>
        simp only [hc, ↓reduceIte, Bool.and_eq_true, List.cons_append] at hs ⊢
        exact ⟨hs.1, wellFormed_append hs.2 ht⟩

/-- A text without surrogates is well formed. -/
theorem wellFormed_of_forall (h : ∀ c ∈ s, isHigh c = false ∧ isLow c = false) :
    wellFormed s = true := by
  induction s with
  | nil => rfl
  | cons c s ih =>
    have hc := h c (by simp)
    rw [wellFormed.eq_def]
    simp only [hc.1, hc.2, Bool.false_eq_true, ↓reduceIte, Bool.not_false, Bool.true_and]
    exact ih fun c hc => h c (by simp [hc])

theorem hexDigit_plain (n : ℕ) (h : n < 16) :
    isHigh (hexDigit n) = false ∧ isLow (hexDigit n) = false := by
  revert n
  decide

theorem hex_plain {width n : ℕ} {c : UInt16} (h : c ∈ hex width n) :
    isHigh c = false ∧ isLow c = false := by
  induction width generalizing n with
  | zero => simp [hex] at h
  | succ width ih =>
    simp only [hex, List.mem_append, List.mem_singleton] at h
    rcases h with h | rfl
    · exact ih h
    · exact hexDigit_plain _ (Nat.mod_lt _ (by decide))

theorem wellFormed_escapeUnit (c : UInt16) : wellFormed (escapeUnit c) = true := by
  have hescape : wellFormed (unicodeEscape c) = true := by
    refine wellFormed_of_forall fun d hd => ?_
    simp only [unicodeEscape, List.mem_cons] at hd
    rcases hd with rfl | rfl | hd
    · decide
    · decide
    · exact hex_plain hd
  unfold escapeUnit
  split_ifs with h₁ h₂ h₃ h₄ h₅ h₆ h₇ h₈
  · rcases h₁ with rfl | rfl <;> decide
  · decide
  · decide
  · decide
  · decide
  · decide
  · exact hescape
  · exact hescape
  · simp only [Bool.or_eq_true, not_or, Bool.not_eq_true] at h₈
    exact wellFormed_of_forall fun d hd => by
      obtain rfl : d = c := by simpa using hd
      exact h₈

theorem wellFormed_escape (s : JsString) : wellFormed (escape s) = true := by
  induction s using escape.induct with
  | case1 => rfl
  | case2 c => exact wellFormed_escapeUnit c
  | case3 c d s h ih =>
    simp only [Bool.and_eq_true] at h
    simp only [escape, h.1, h.2, Bool.and_self, ↓reduceIte]
    rw [wellFormed]
    simp only [h.1, h.2, ih, Bool.and_self, ↓reduceIte]
  | case4 c d s h ih =>
    rw [escape, if_neg h]
    exact wellFormed_append (wellFormed_escapeUnit c) ih

/-- `JSON.stringify` escapes the surrogates that are half of no pair. -/
theorem wellFormed_quote (s : JsString) : wellFormed (quote s) = true :=
  wellFormed_append (s := [34]) (by decide)
    (wellFormed_append (wellFormed_escape s) (by decide))

theorem wellFormed_charUnits (c : Char) : wellFormed (charUnits c) = true := by
  have hc : c.toNat < 0xd800 ∨ 0xdfff < c.toNat ∧ c.toNat < 0x110000 := c.valid
  have hunit : ∀ {n : ℕ}, n < 0x10000 → n.toUInt16.toNat = n := fun h => Nat.mod_eq_of_lt h
  unfold charUnits
  split_ifs with h
  · refine wellFormed_of_forall fun d hd => ?_
    rw [List.mem_singleton.1 hd]
    constructor
    · rw [← Bool.not_eq_true, isHigh_iff, hunit h]; omega
    · rw [← Bool.not_eq_true, isLow_iff, hunit h]; omega
  · have hhigh : isHigh (0xd800 + (c.toNat - 0x10000) / 0x400).toUInt16 = true := by
      rw [isHigh_iff, hunit (by omega)]; omega
    have hlow : isLow (0xdc00 + (c.toNat - 0x10000) % 0x400).toUInt16 = true := by
      rw [isLow_iff, hunit (by omega)]; omega
    simp only [wellFormed, hhigh, hlow, ↓reduceIte, Bool.and_self]

/-- Text literals have no lone surrogates. -/
theorem wellFormed_js (s : String) : wellFormed (js s) = true := by
  have hlist : ∀ l : List Char, wellFormed (l.flatMap charUnits) = true := by
    intro l
    induction l with
    | nil => rfl
    | cons c l ih => exact wellFormed_append (wellFormed_charUnits c) ih
  exact hlist s.toList

end JsString

end Obolos
