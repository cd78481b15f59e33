import Obolos.Js.Text

/-!
# Integers in texts

`BigInt(text)` skips spaces and reads decimal digits with a sign, or the digits of another base after
`0x`, `0o` or `0b`.
-/

namespace Obolos

/-- The value of a text of digits in a base, after a prefix with value `n`. -/
def readBase (base n : ℕ) : JsString → Option ℕ
  | [] => some n
  | c :: s =>
    let digit := if 48 ≤ c && c ≤ 57 then some (c.toNat - 48)
      else if 65 ≤ c && c ≤ 70 then some (c.toNat - 55)
      else if 97 ≤ c && c ≤ 102 then some (c.toNat - 87) else none
    digit.bind fun d => if d < base then readBase base (base * n + d) s else none

/-- A nonempty text of digits in a base. -/
def readNumeral (base : ℕ) : JsString → Option ℤ
  | [] => none
  | s => (readBase base 0 s).map Int.ofNat

/-- A character that `trim` removes at the ends of a text. -/
def JsString.isSpace (c : UInt16) : Bool :=
  [9, 10, 11, 12, 13, 32, 0xa0, 0x1680, 0x2028, 0x2029, 0x202f, 0x205f, 0x3000, 0xfeff].contains c ||
    (0x2000 ≤ c && c ≤ 0x200a)

/-- `s.trim()` -/
def JsString.trim (s : JsString) : JsString :=
  ((s.dropWhile isSpace).reverse.dropWhile isSpace).reverse

/-- `BigInt(text)`; a text that is no integer is a `SyntaxError`. -/
def readBigInt (s : JsString) : Option ℤ :=
  match s.trim with
  | [] => some 0
  | 48 :: 120 :: s | 48 :: 88 :: s => readNumeral 16 s
  | 48 :: 111 :: s | 48 :: 79 :: s => readNumeral 8 s
  | 48 :: 98 :: s | 48 :: 66 :: s => readNumeral 2 s
  | 43 :: s => readNumeral 10 s
  | 45 :: s => (readNumeral 10 s).map Neg.neg
  | s => readNumeral 10 s

/-- `v.toString()` for a `bigint`. -/
def bigintText (n : ℤ) : JsString :=
  if n < 0 then 45 :: JsString.decimal n.natAbs else JsString.decimal n.natAbs

namespace JsString

/-! ### Spaces at the ends -/

theorem trim_starts (s : JsString) : trim s <+: s.dropWhile isSpace := by
  have hsuffix := List.dropWhile_suffix isSpace (l := (s.dropWhile isSpace).reverse)
  exact List.reverse_suffix.1 (by simpa [trim] using hsuffix)

theorem trim_infixOf (s : JsString) : trim s <:+: s :=
  (trim_starts s).isInfix.trans (List.dropWhile_suffix isSpace).isInfix

/-- A text without spaces at its ends. -/
theorem trim_eq {s : JsString} (hfirst : ∀ c, s.head? = some c → isSpace c = false)
    (hlast : ∀ c, s.getLast? = some c → isSpace c = false) : trim s = s := by
  have hkeep : ∀ {t : JsString}, (∀ c, t.head? = some c → isSpace c = false) →
      t.dropWhile isSpace = t := by
    intro t ht
    cases t with
    | nil => rfl
    | cons c t => rw [List.dropWhile_cons_of_neg (by rw [ht c rfl]; exact Bool.false_ne_true)]
  rw [trim, hkeep hfirst, hkeep (by rwa [List.head?_reverse]), List.reverse_reverse]

/-- Trimming a second time removes nothing. -/
theorem trim_trim (s : JsString) : s.trim.trim = s.trim := by
  have hhead : ∀ (l : JsString) (c : UInt16), (l.dropWhile isSpace).head? = some c →
      isSpace c = false := by
    intro l c hc
    have hfirst := List.head?_dropWhile_not isSpace l
    rw [hc] at hfirst
    simpa using hfirst
  refine trim_eq (fun c hc => ?_) fun c hc => ?_
  · obtain ⟨t, ht⟩ := trim_starts s
    refine hhead s c ?_
    rw [← ht, List.head?_append, hc]
    rfl
  · rw [trim, List.getLast?_reverse] at hc
    exact hhead _ c hc

end JsString

end Obolos
