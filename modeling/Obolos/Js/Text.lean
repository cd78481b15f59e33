import Mathlib.Algebra.Group.Nat.Defs
import Mathlib.Data.List.Basic
import Mathlib.Data.Nat.Basic

/-!
# JavaScript strings

A string is its list of UTF-16 code units.  This module has the operations the source uses on
strings (`length` and `===` are those of lists), and the quoting of `JSON.stringify` with its
inverse, `unquote`.
-/

namespace Obolos

/-- A JavaScript string. -/
abbrev JsString := List UInt16

/-- `===` of strings decides equality. -/
instance : LawfulBEq JsString := inferInstance

/-- The code units of one character of a literal. -/
def charUnits (c : Char) : JsString :=
  if c.toNat < 0x10000 then [c.toNat.toUInt16]
  else
    [(0xd800 + (c.toNat - 0x10000) / 0x400).toUInt16,
      (0xdc00 + (c.toNat - 0x10000) % 0x400).toUInt16]

/-- A text literal. -/
def js (s : String) : JsString := s.toList.flatMap charUnits

theorem charUnits_ne_nil (c : Char) : charUnits c ≠ [] := by
  unfold charUnits
  split <;> exact List.cons_ne_nil _ _

/-- The code units of a character determine it, and where it ends. -/
theorem charUnits_inj {c d : Char} {as bs : JsString}
    (h : charUnits c ++ as = charUnits d ++ bs) : c = d ∧ as = bs := by
  have hc : c.toNat < 0xd800 ∨ 0xdfff < c.toNat ∧ c.toNat < 0x110000 := c.valid
  have hd : d.toNat < 0xd800 ∨ 0xdfff < d.toNat ∧ d.toNat < 0x110000 := d.valid
  have hunit : ∀ {n m : ℕ}, n < 0x10000 → m < 0x10000 → n.toUInt16 = m.toUInt16 → n = m := by
    intro n m hn hm he
    have he := congrArg UInt16.toNat he
    simpa [Nat.mod_eq_of_lt hn, Nat.mod_eq_of_lt hm] using he
  have heq : c.toNat = d.toNat → c = d := fun he => Char.ext (UInt32.toNat_inj.1 he)
  unfold charUnits at h
  -- A character of two units starts with a surrogate, which is no character of its own.
  split_ifs at h with hc' hd' hd' <;>
    simp only [List.cons_append, List.nil_append, List.cons.injEq] at h
  · exact ⟨heq (hunit hc' hd' h.1), h.2⟩
  · have := hunit hc' (by omega) h.1
    omega
  · have := hunit (by omega) hd' h.1
    omega
  · have hhigh := hunit (by omega) (by omega) h.1
    have hlow := hunit (by omega) (by omega) h.2.1
    exact ⟨heq (by omega), h.2.2⟩

/-- Different texts have different code units. -/
@[simp] theorem js_inj {s t : String} : js s = js t ↔ s = t := by
  refine ⟨fun h => String.toList_injective ?_, fun h => by rw [h]⟩
  have hlist : ∀ {cs ds : List Char}, cs.flatMap charUnits = ds.flatMap charUnits → cs = ds := by
    intro cs
    induction cs with
    | nil =>
      intro ds h
      cases ds with
      | nil => rfl
      | cons d ds => exact absurd (List.append_eq_nil_iff.1 h.symm).1 (charUnits_ne_nil d)
    | cons c cs ih =>
      intro ds h
      cases ds with
      | nil => exact absurd (List.append_eq_nil_iff.1 h).1 (charUnits_ne_nil c)
      | cons d ds =>
        obtain ⟨rfl, hrest⟩ := charUnits_inj h
        rw [ih hrest]
  exact hlist h

namespace JsString

/-- `a <= b`: the order of code units, first difference first. -/
def le : JsString → JsString → Bool
  | [], _ => true
  | _ :: _, [] => false
  | a :: as, b :: bs => a < b || (a == b && le as bs)

/-- A lower-case hexadecimal digit. -/
def hexDigit (n : ℕ) : UInt16 := (if n < 10 then 48 + n else 87 + n).toUInt16

/-- `n` in exactly `width` lower-case hexadecimal digits. -/
def hex : (width : ℕ) → ℕ → JsString
  | 0, _ => []
  | width + 1, n => hex width (n / 16) ++ [hexDigit (n % 16)]

/-- `String(n)` for a natural number. -/
def decimal (n : ℕ) : JsString := (Nat.toDigits 10 n).map fun c => c.toNat.toUInt16

/-- `s.toLowerCase()` on ASCII letters; the code only lower-cases texts to compare or to hash them
as hexadecimal texts and identifiers. -/
def toLowerCase (s : JsString) : JsString :=
  s.map fun c => if 65 ≤ c && c ≤ 90 then c + 32 else c

/-- A code unit of the first half of a surrogate pair. -/
def isHigh (c : UInt16) : Bool := 0xd800 ≤ c && c ≤ 0xdbff

/-- A code unit of the second half of a surrogate pair. -/
def isLow (c : UInt16) : Bool := 0xdc00 ≤ c && c ≤ 0xdfff

/-- `new TextEncoder().encode(s).byteLength` -/
def utf8Length : JsString → ℕ
  | [] => 0
  | c :: s =>
    if c < 0x80 then 1 + utf8Length s
    else if c < 0x800 then 2 + utf8Length s
    else if isHigh c then
      match s with
      | [] => 3
      | d :: s' => if isLow d then 4 + utf8Length s' else 3 + utf8Length (d :: s')
    else 3 + utf8Length s

/-! ### Quoting -/

/-- `\uXXXX` -/
def unicodeEscape (c : UInt16) : JsString := 92 :: 117 :: hex 4 c.toNat

/-- A code unit that is not part of a surrogate pair, inside a quoted string. -/
def escapeUnit (c : UInt16) : JsString :=
  if c = 34 ∨ c = 92 then [92, c]
  else if c = 8 then [92, 98]
  else if c = 9 then [92, 116]
  else if c = 10 then [92, 110]
  else if c = 12 then [92, 102]
  else if c = 13 then [92, 114]
  else if c < 32 then unicodeEscape c
  else if isHigh c || isLow c then unicodeEscape c
  else [c]

/-- The inside of `JSON.stringify(s)`. -/
def escape : JsString → JsString
  | [] => []
  | c :: s =>
    match s with
    | [] => escapeUnit c
    | d :: s' =>
      if isHigh c && isLow d then c :: d :: escape s' else escapeUnit c ++ escape (d :: s')

/-- `JSON.stringify(s)` -/
def quote (s : JsString) : JsString := 34 :: escape s ++ [34]

/-- The value of a hexadecimal digit of either case. -/
def readDigit (c : UInt16) : Option ℕ :=
  if 48 ≤ c && c ≤ 57 then some (c.toNat - 48)
  else if 97 ≤ c && c ≤ 102 then some (c.toNat - 87)
  else if 65 ≤ c && c ≤ 70 then some (c.toNat - 55)
  else none

/-- The code unit of four hexadecimal digits. -/
def readUnit (a b c d : UInt16) : Option UInt16 := do
  let a ← readDigit a
  let b ← readDigit b
  let c ← readDigit c
  let d ← readDigit d
  return (4096 * a + 256 * b + 16 * c + d).toUInt16

/-- The code unit that a backslash and this one stand for. -/
def unescapeUnit (c : UInt16) : Option UInt16 :=
  if c = 34 ∨ c = 92 ∨ c = 47 then some c
  else if c = 98 then some 8
  else if c = 116 then some 9
  else if c = 110 then some 10
  else if c = 102 then some 12
  else if c = 114 then some 13
  else none

/-- Read a quoted string after its opening quote, as `JSON.parse` does: the string, and what
follows its closing quote. -/
def unquote : JsString → Option (JsString × JsString)
  | [] => none
  | c :: rest =>
    if c = 34 then some ([], rest)
    else if c = 92 then
      match rest with
      | [] => none
      | d :: rest =>
        if d = 117 then
          match rest with
          | x₁ :: x₂ :: x₃ :: x₄ :: rest =>
            (readUnit x₁ x₂ x₃ x₄).bind fun e => (unquote rest).map fun p => (e :: p.1, p.2)
          | _ => none
        else (unescapeUnit d).bind fun e => (unquote rest).map fun p => (e :: p.1, p.2)
    else if c < 32 then none
    else (unquote rest).map fun p => (c :: p.1, p.2)

theorem readDigit_hexDigit {n : ℕ} (h : n < 16) : readDigit (hexDigit n) = some n := by
  revert n
  decide

theorem hex_length (width n : ℕ) : (hex width n).length = width := by
  induction width generalizing n with
  | zero => rfl
  | succ width ih => simp [hex, ih]

/-- Fixed-width hexadecimal texts are different for different numbers that fit. -/
theorem hex_inj {width n m : ℕ} (hn : n < 16 ^ width) (hm : m < 16 ^ width)
    (h : hex width n = hex width m) : n = m := by
  induction width generalizing n m with
  | zero =>
    have h1 : n = 0 := by simpa using hn
    have h2 : m = 0 := by simpa using hm
    rw [h1, h2]
  | succ width ih =>
    simp only [hex] at h
    obtain ⟨hhigh, hlow⟩ := List.append_inj' h rfl
    have hn' : n / 16 < 16 ^ width := by rw [Nat.pow_succ] at hn; omega
    have hm' : m / 16 < 16 ^ width := by rw [Nat.pow_succ] at hm; omega
    have hdiv := ih hn' hm' hhigh
    have hmod : n % 16 = m % 16 := by
      have hdigit := congrArg readDigit (List.cons.inj hlow).1
      rw [readDigit_hexDigit (Nat.mod_lt _ (by decide)),
        readDigit_hexDigit (Nat.mod_lt _ (by decide))] at hdigit
      exact Option.some.inj hdigit
    omega

/-- A decimal digit. -/
def isDigit (c : UInt16) : Bool := 48 ≤ c && c ≤ 57

theorem digit_bounds {n : ℕ} {c : Char} (h : c ∈ Nat.toDigits 10 n) :
    48 ≤ c.toNat ∧ c.toNat ≤ 57 := by
  have hdigit := Nat.isDigit_of_mem_toDigits (by decide) (by decide) h
  simp only [Char.isDigit, Bool.and_eq_true, decide_eq_true_eq] at hdigit
  exact ⟨UInt32.le_iff_toNat_le.1 hdigit.1, UInt32.le_iff_toNat_le.1 hdigit.2⟩

theorem toNat_unit {c : Char} (h : c.toNat ≤ 57) : c.toNat.toUInt16.toNat = c.toNat :=
  Nat.mod_eq_of_lt (show c.toNat < 2 ^ 16 by omega)

theorem decimal_digits {n : ℕ} {c : UInt16} (h : c ∈ decimal n) : isDigit c = true := by
  obtain ⟨d, hd, rfl⟩ := List.mem_map.1 h
  have hb := digit_bounds hd
  have hunit := toNat_unit hb.2
  simp only [isDigit, Bool.and_eq_true, decide_eq_true_eq, UInt16.le_iff_toNat_le, hunit]
  exact hb

theorem decimal_ne_nil (n : ℕ) : decimal n ≠ [] := by simp [decimal]

/-- Different numbers have different decimal texts. -/
theorem decimal_inj {n m : ℕ} (h : decimal n = decimal m) : n = m := by
  have hread : ∀ n, (decimal n).map (fun c => Char.ofNat c.toNat) = Nat.toDigits 10 n := by
    intro n
    rw [decimal, List.map_map]
    refine (List.map_congr_left fun c hc => ?_).trans (List.map_id _)
    simp only [Function.comp_apply, toNat_unit (digit_bounds hc).2, Char.ofNat_toNat, id_eq]
  have hdigits := congrArg (List.map fun c => Char.ofNat c.toNat) h
  rw [hread, hread] at hdigits
  simpa using congrArg (fun l => Nat.ofDigitChars 10 l 0) hdigits

variable {c : UInt16} {rest : JsString}

/-- A code unit that is not escaped stands for itself. -/
theorem unquote_raw (h : c ≠ 34) (h' : c ≠ 92) (hc : ¬ c < 32) :
    unquote (c :: rest) = (unquote rest).map fun p => (c :: p.1, p.2) := by
  rw [unquote.eq_def]
  simp only [h, h', hc, ↓reduceIte]

theorem unquote_backslash {e : UInt16} (h : c ≠ 117) (he : unescapeUnit c = some e) :
    unquote (92 :: c :: rest) = (unquote rest).map fun p => (e :: p.1, p.2) := by
  rw [unquote.eq_def]
  simp [h, he]

theorem unquote_quote : unquote (34 :: rest) = some ([], rest) := by
  rw [unquote.eq_def]
  simp only [↓reduceIte]

theorem readUnit_hex (c : UInt16) :
    readUnit (hexDigit (c.toNat / 16 / 16 / 16 % 16)) (hexDigit (c.toNat / 16 / 16 % 16))
      (hexDigit (c.toNat / 16 % 16)) (hexDigit (c.toNat % 16)) = some c := by
  have hdigit : ∀ m, readDigit (hexDigit (m % 16)) = some (m % 16) := fun m =>
    readDigit_hexDigit (Nat.mod_lt _ (by decide))
  have hlt := c.toNat_lt
  have hvalue : 4096 * (c.toNat / 16 / 16 / 16 % 16) + 256 * (c.toNat / 16 / 16 % 16) +
      16 * (c.toNat / 16 % 16) + c.toNat % 16 = c.toNat := by omega
  simp only [readUnit, hdigit, Option.pure_def, Option.bind_eq_bind, Option.bind_some, hvalue]
  simp

theorem unquote_unicodeEscape (c : UInt16) :
    unquote (unicodeEscape c ++ rest) = (unquote rest).map fun p => (c :: p.1, p.2) := by
  rw [unicodeEscape, List.cons_append, List.cons_append, unquote.eq_def]
  simp only [hex, List.nil_append, List.cons_append, readUnit_hex, Option.bind_some]
  simp

theorem unquote_escapeUnit (c : UInt16) :
    unquote (escapeUnit c ++ rest) = (unquote rest).map fun p => (c :: p.1, p.2) := by
  unfold escapeUnit
  split_ifs with h₁ h₂ h₃ h₄ h₅ h₆ h₇ h₈
  · rcases h₁ with rfl | rfl <;> exact unquote_backslash (by decide) (by decide)
  · subst h₂; exact unquote_backslash (by decide) (by decide)
  · subst h₃; exact unquote_backslash (by decide) (by decide)
  · subst h₄; exact unquote_backslash (by decide) (by decide)
  · subst h₅; exact unquote_backslash (by decide) (by decide)
  · subst h₆; exact unquote_backslash (by decide) (by decide)
  · exact unquote_unicodeEscape c
  · exact unquote_unicodeEscape c
  · exact unquote_raw (fun h => h₁ (Or.inl h)) (fun h => h₁ (Or.inr h)) h₇

/-- Reading a quoted string back. -/
theorem unquote_escape (s : JsString) : unquote (escape s ++ 34 :: rest) = some (s, rest) := by
  have hsurrogate : ∀ {c : UInt16}, isHigh c = true ∨ isLow c = true →
      c ≠ 34 ∧ c ≠ 92 ∧ ¬ c < 32 := by
    intro c h
    simp only [isHigh, isLow, Bool.and_eq_true, decide_eq_true_eq, UInt16.le_iff_toNat_le] at h
    have h55296 : (55296 : UInt16).toNat = 55296 := rfl
    have h56320 : (56320 : UInt16).toNat = 56320 := rfl
    have hc : 55296 ≤ c.toNat := by omega
    refine ⟨?_, ?_, ?_⟩
    · rintro rfl; exact absurd hc (by decide)
    · rintro rfl; exact absurd hc (by decide)
    · rw [UInt16.lt_iff_toNat_lt, show (32 : UInt16).toNat = 32 from rfl]
      omega
  induction s using escape.induct with
  | case1 => exact unquote_quote
  | case2 c =>
    rw [escape.eq_2, unquote_escapeUnit, unquote_quote]
    rfl
  | case3 c d s h ih =>
    simp only [Bool.and_eq_true] at h
    have hc := hsurrogate (Or.inl h.1)
    have hd := hsurrogate (Or.inr h.2)
    simp only [escape, h.1, h.2, Bool.and_self, ↓reduceIte, List.cons_append]
    rw [unquote_raw hc.1 hc.2.1 hc.2.2, unquote_raw hd.1 hd.2.1 hd.2.2, ih]
    rfl
  | case4 c d s h ih =>
    rw [escape, if_neg h, List.append_assoc, unquote_escapeUnit, ih]
    rfl

/-- Two quoted strings at the head of one text are the same string. -/
theorem quote_inj {a b s t : JsString} (h : quote a ++ s = quote b ++ t) : a = b ∧ s = t := by
  simp only [quote, List.cons_append, List.append_assoc, List.nil_append, List.cons.injEq,
    true_and] at h
  have hread := congrArg unquote h
  rw [unquote_escape, unquote_escape] at hread
  simpa using hread

end JsString

end Obolos
