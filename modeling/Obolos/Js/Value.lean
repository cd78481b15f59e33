import Obolos.Js.BigInt
import Obolos.Js.Json
import Obolos.Evm.Basic
import Mathlib.Tactic.NormNum

/-!
# What the JavaScript code reads and throws

Exceptions, the third-party functions the code calls (`Host`), the hexadecimal and decimal texts
of words and amounts, and the reading of an object with a fixed set of keys (`z.object().strict()`).

A field that is validated by a regular expression and then only compared, hashed and converted is
modelled by its value: `0x` and 64 hexadecimal digits by a `Bytes32`, `[1-9]\d*` by a number.
-/

namespace Obolos

/-- An exception. -/
inductive JsError
  /-- `Error(message)` -/
  | error (message : JsString)
  /-- An error with a `status` property. -/
  | status (message : JsString) (status : ℕ)
  /-- A value that does not match its `zod` schema. -/
  | zod
  /-- Anything else: a failed system call, a third-party error, a `TypeError`. -/
  | other

/-- `throw Error(message)` -/
def JsError.raise {α : Type} (message : String) : Except JsError α := .error (.error (js message))

/-- `if(bad) throw …;` before the rest of a function. -/
theorem JsError.throwIf_eq_ok {α β : Type} {bad : Prop} [Decidable bad] {e : JsError}
    {f : α → Except JsError β} {x : Except JsError β} {y : β} :
    (if bad then Except.error e >>= f else x) = .ok y ↔ ¬ bad ∧ x = .ok y := by
  by_cases h : bad <;> simp [h, bind, Except.bind]

/-- `if(bad) throw …;` at the end of a function. -/
theorem JsError.throwIf_end {bad : Prop} [Decidable bad] {e : JsError} {u : Unit} :
    (if bad then Except.error e else pure ()) = .ok u ↔ ¬ bad := by
  by_cases h : bad <;> simp [h]

/-- The parts of `new URL(text)` the code looks at. -/
structure Url where
  protocol : JsString
  origin : JsString
  href : JsString

/-- Third-party and platform functions. -/
structure Host where
  /-- How finite numbers are written. -/
  numerals : Json.Numerals
  /-- `keccak256(toHex(text))` -/
  textHash : JsString → Bytes32
  /-- `keccak256(encodeAbiParameters(…))` of static values. -/
  wordsHash : List ℕ → Bytes32
  /-- viem's `isAddress` -/
  isAddress : JsString → Bool
  /-- `z.uuid()` -/
  isUuid : JsString → Bool
  /-- `new URL(text)` -/
  url : JsString → Option Url
  /-- `Date.parse(text)`, in milliseconds -/
  dateParse : JsString → Option ℤ
  /-- `encodeCircleCall(signature, parameters)` -/
  encodeCircleCall : JsString → List JsString → Option JsString

/-- A host to run the code with: a polynomial hash, and texts that are always accepted. -/
def Host.plain : Host where
  numerals := .plain
  textHash s := BitVec.ofNat 256 (s.foldl (fun n c => n * 65537 + c.toNat + 1) 0)
  wordsHash ws := BitVec.ofNat 256 (ws.foldl (fun n w => n * 65537 + w + 1) 0)
  isAddress _ := true
  isUuid _ := true
  url s := some ⟨js "https:", s, s⟩
  dateParse s := some s.length
  encodeCircleCall _ _ := some (js "0x")

/-! ### Hexadecimal and decimal texts -/

/-- The value of a text of hexadecimal digits after a prefix with value `n`. -/
def readDigits (n : ℕ) : JsString → Option ℕ
  | [] => some n
  | c :: s => (JsString.readDigit c).bind fun d => readDigits (16 * n + d) s

/-- `/^0x[0-9a-fA-F]{width}$/` -/
def readHex (width : ℕ) : JsString → Option ℕ
  | 48 :: 120 :: s => if s.length = width then readDigits 0 s else none
  | _ => none

/-- `0x` and 64 lower-case hexadecimal digits. -/
def Bytes32.text (b : Bytes32) : JsString := js "0x" ++ JsString.hex 64 b.toNat

/-- `0x` and 40 lower-case hexadecimal digits. -/
def Address.text (a : Address) : JsString := js "0x" ++ JsString.hex 40 a.toNat

/-- `z.string().regex(/^0x[0-9a-fA-F]{64}$/).transform(value => value.toLowerCase())` -/
def readBytes32 (s : JsString) : Option Bytes32 := (readHex 64 s).map (BitVec.ofNat 256)

/-- `/^0x[\da-f]{64}$/i`, in lower case: the prefix may be `0X`, too. -/
def readBytes32Lowered (s : JsString) : Option Bytes32 := readBytes32 s.toLowerCase

/-- `z.string().refine(isAddress).transform(value => value.toLowerCase())` -/
def readAddress (H : Host) (s : JsString) : Option Address :=
  if H.isAddress s then (readHex 40 s).map (BitVec.ofNat 160) else none

/-- `z.string().url()`, which removes the spaces at the ends. -/
def readUrl (H : Host) (s : JsString) : Option JsString := (H.url s.trim).map fun _ => s.trim

/-- The value of a text of decimal digits after a prefix with value `n`. -/
def readDecimals (n : ℕ) : JsString → Option ℕ
  | [] => some n
  | c :: s => if 48 ≤ c && c ≤ 57 then readDecimals (10 * n + (c.toNat - 48)) s else none

/-- `/^[1-9]\d*$/`, read with `BigInt` -/
def readPositive : JsString → Option ℕ
  | [] => none
  | c :: s => if 49 ≤ c && c ≤ 57 then readDecimals (c.toNat - 48) s else none

theorem readDecimals_map {l : List Char} {n : ℕ} (h : ∀ c ∈ l, 48 ≤ c.toNat ∧ c.toNat ≤ 57) :
    readDecimals n (l.map fun c => c.toNat.toUInt16) = some (Nat.ofDigitChars 10 l n) := by
  induction l generalizing n with
  | nil => rfl
  | cons c l ih =>
    have hc := h c (by simp)
    have hunit := JsString.toNat_unit hc.2
    have hdigit : (48 ≤ c.toNat.toUInt16 && c.toNat.toUInt16 ≤ 57) = true := by
      simp only [Bool.and_eq_true, decide_eq_true_eq, UInt16.le_iff_toNat_le, hunit]
      exact hc
    simp only [List.map_cons, readDecimals, hdigit, ↓reduceIte, hunit]
    rw [ih fun c hc => h c (by simp [hc])]
    rfl

/-- Reading back a number in decimal. -/
theorem readDecimals_decimal (n : ℕ) : readDecimals 0 (JsString.decimal n) = some n := by
  rw [JsString.decimal, readDecimals_map fun c hc => JsString.digit_bounds hc]
  simp

theorem readDecimals_ge {n m : ℕ} {s : JsString} (h : readDecimals n s = some m) : n ≤ m := by
  induction s generalizing n with
  | nil => exact (Option.some.inj h).le
  | cons c s ih =>
    simp only [readDecimals] at h
    split_ifs at h with hc
    have hle := ih h
    omega

/-- A text of this form is a positive number. -/
theorem readPositive_pos {n : ℕ} {s : JsString} (h : readPositive s = some n) : 0 < n := by
  cases s with
  | nil => cases h
  | cons c s =>
    simp only [readPositive] at h
    split_ifs at h with hc
    have hle := readDecimals_ge h
    simp only [Bool.and_eq_true, decide_eq_true_eq] at hc
    have h49 : (49 : UInt16).toNat ≤ c.toNat := hc.1
    have : (49 : UInt16).toNat = 49 := rfl
    omega

theorem readDigits_append (n : ℕ) (s t : JsString) :
    readDigits n (s ++ t) = (readDigits n s).bind fun m => readDigits m t := by
  induction s generalizing n with
  | nil => rfl
  | cons c s ih =>
    rw [List.cons_append, readDigits, readDigits]
    cases JsString.readDigit c with
    | none => rfl
    | some d => exact ih _

theorem readDigits_hex (width k n : ℕ) :
    readDigits k (JsString.hex width n) = some (k * 16 ^ width + n % 16 ^ width) := by
  induction width generalizing n with
  | zero => simp [JsString.hex, readDigits, Nat.mod_one]
  | succ width ih =>
    rw [JsString.hex, readDigits_append, ih, Option.bind_some, readDigits,
      JsString.readDigit_hexDigit (Nat.mod_lt _ (by decide)), Option.bind_some, readDigits,
      Nat.pow_succ, Nat.mul_comm (16 ^ width) 16, Nat.mod_mul]
    congr 1
    rw [Nat.mul_add, Nat.mul_left_comm]
    omega

/-- Reading back a number in hexadecimal. -/
theorem readHex_hex {width n : ℕ} (h : n < 16 ^ width) :
    readHex width (js "0x" ++ JsString.hex width n) = some n := by
  show (if (JsString.hex width n).length = width then readDigits 0 (JsString.hex width n)
    else none) = some n
  rw [if_pos (JsString.hex_length width n), readDigits_hex, Nat.mod_eq_of_lt h]
  simp

theorem readBytes32_text (b : Bytes32) : readBytes32 b.text = some b := by
  have hpow : 2 ^ 256 = 16 ^ 64 := by norm_num
  rw [readBytes32, Bytes32.text, readHex_hex (hpow ▸ b.isLt)]
  simp

/-- A hexadecimal text is in lower case already. -/
theorem toLowerCase_hex (width n : ℕ) :
    (JsString.hex width n).toLowerCase = JsString.hex width n := by
  have hdigit : ∀ m < 16, (if 65 ≤ JsString.hexDigit m && JsString.hexDigit m ≤ 90 then
      JsString.hexDigit m + 32 else JsString.hexDigit m) = JsString.hexDigit m := by decide
  induction width generalizing n with
  | zero => rfl
  | succ width ih =>
    simp only [JsString.hex, JsString.toLowerCase, List.map_append, List.map_cons, List.map_nil,
      hdigit _ (Nat.mod_lt _ (by norm_num))] at ih ⊢
    rw [ih]

theorem Bytes32.toLowerCase_text (b : Bytes32) : b.text.toLowerCase = b.text := by
  have hhex := toLowerCase_hex 64 b.toNat
  simp only [Bytes32.text, JsString.toLowerCase, List.map_append] at hhex ⊢
  rw [hhex]
  rfl

theorem readBytes32Lowered_text (b : Bytes32) : readBytes32Lowered b.text = some b := by
  rw [readBytes32Lowered, Bytes32.toLowerCase_text, readBytes32_text]

theorem readAddress_text {H : Host} {a : Address} (h : H.isAddress a.text = true) :
    readAddress H a.text = some a := by
  have hpow : 2 ^ 160 = 16 ^ 40 := by norm_num
  rw [readAddress, if_pos h, Address.text, readHex_hex (hpow ▸ a.isLt)]
  simp

/-- What was read is read again as it is. -/
theorem readUrl_read {H : Host} {s t : JsString} (h : readUrl H s = some t) :
    readUrl H t = some t := by
  obtain ⟨u, hu, rfl⟩ := Option.map_eq_some_iff.1 h
  rw [readUrl, JsString.trim_trim, hu]
  rfl

/-- The first digit of a positive number is not zero. -/
theorem toDigits_head (n : ℕ) (h : 0 < n) :
    ∃ c l, Nat.toDigits 10 n = c :: l ∧ 49 ≤ c.toNat := by
  induction n using Nat.strong_induction_on with
  | h n ih =>
    by_cases hlt : n < 10
    · have hdigit : ∀ m < 10, 0 < m → 49 ≤ m.digitChar.toNat := by decide
      exact ⟨n.digitChar, [], Nat.toDigits_of_lt_base hlt, hdigit n hlt h⟩
    · obtain ⟨c, l, hdigits, hc⟩ := ih (n / 10) (by omega) (by omega)
      refine ⟨c, l ++ [(n % 10).digitChar], ?_, hc⟩
      rw [Nat.toDigits_of_base_le (by decide) (by omega), hdigits]
      rfl

theorem readPositive_decimal {n : ℕ} (h : 0 < n) : readPositive (JsString.decimal n) = some n := by
  have hread := readDecimals_decimal n
  obtain ⟨c, l, hdigits, hc⟩ := toDigits_head n h
  have hle := (JsString.digit_bounds (n := n) (by rw [hdigits]; exact List.mem_cons_self)).2
  have hunit := JsString.toNat_unit hle
  rw [JsString.decimal, hdigits, List.map_cons] at hread ⊢
  have hdigit : (48 ≤ c.toNat.toUInt16 && c.toNat.toUInt16 ≤ 57) = true :=
    JsString.decimal_digits (n := n) (by
      rw [JsString.decimal, hdigits, List.map_cons]; exact List.mem_cons_self)
  have hfirst : (49 ≤ c.toNat.toUInt16 && c.toNat.toUInt16 ≤ 57) = true := by
    simp only [Bool.and_eq_true, decide_eq_true_eq, UInt16.le_iff_toNat_le, hunit]
    exact ⟨hc, hle⟩
  rw [readDecimals, if_pos hdigit, Nat.mul_zero, Nat.zero_add] at hread
  rw [readPositive, if_pos hfirst, hread]

/-! ### Reading objects -/

namespace Json

/-- A text. -/
def asStr : Json → Option JsString
  | .str s => some s
  | _ => none

/-- The fields of an object. -/
def asObj : Json → Option (List (JsString × Json))
  | .obj fields => some fields
  | _ => none

/-- The items of an array. -/
def asArr : Json → Option (List Json)
  | .arr items => some items
  | _ => none

/-- `value.key`, when `value` is an object with that key. -/
def prop (key : String) (x : Json) : Option Json := x.asObj.bind (get (js key))

mutual

/-- `JSON.parse(JSON.stringify(value))`: an infinite number is written as `null`. -/
def copied : Json → Json
  | .infinite => .null
  | .arr items => .arr (copiedItems items)
  | .obj fields => .obj (copiedFields fields)
  | .null => .null
  | .bool b => .bool b
  | .num q => .num q
  | .str s => .str s

/-- `copied` for every item. -/
def copiedItems : List Json → List Json
  | [] => []
  | x :: items => copied x :: copiedItems items

/-- `copied` for every field. -/
def copiedFields : List (JsString × Json) → List (JsString × Json)
  | [] => []
  | (key, x) :: fields => (key, copied x) :: copiedFields fields

end

/-- The fields of an object that has no other keys than these. -/
def strictFields (keys : List String) : Json → Except JsError (List (JsString × Json))
  | .obj fields =>
    if fields.all fun field => (keys.map js).contains field.1 then .ok fields else .error .zod
  | _ => .error .zod

/-- A required field of an object. -/
def field {α : Type} (read : Json → Option α) (key : String) (fields : List (JsString × Json)) :
    Except JsError α :=
  match (get (js key) fields).bind read with
  | some a => .ok a
  | none => .error .zod

/-- A required text field. -/
def textField {α : Type} (read : JsString → Option α) (key : String)
    (fields : List (JsString × Json)) : Except JsError α :=
  field (fun x => x.asStr.bind read) key fields

/-- `z.literal(text)` -/
def literalField (text key : String) (fields : List (JsString × Json)) : Except JsError Unit :=
  textField (fun s => if s = js text then some () else none) key fields

/-- A required field that was read. -/
theorem field_ok {α : Type} {read : Json → Option α} {key : String}
    {fields : List (JsString × Json)} {a : α} :
    field read key fields = .ok a ↔ (get (js key) fields).bind read = some a := by
  unfold field
  cases (get (js key) fields).bind read <;> simp

theorem textField_ok {α : Type} {read : JsString → Option α} {key : String}
    {fields : List (JsString × Json)} {a : α} (h : textField read key fields = .ok a) :
    ∃ s, read s = some a := by
  obtain ⟨x, -, hx⟩ := Option.bind_eq_some_iff.1 (field_ok.1 h)
  obtain ⟨s, -, hs⟩ := Option.bind_eq_some_iff.1 hx
  exact ⟨s, hs⟩

/-- Copying an object copies its properties. -/
theorem get_copiedFields (key : JsString) (fields : List (JsString × Json)) :
    get key (copiedFields fields) = (get key fields).map copied := by
  induction fields with
  | nil => rfl
  | cons field fields ih =>
    obtain ⟨k, x⟩ := field
    simp only [copiedFields, get]
    split_ifs
    · rfl
    · exact ih

theorem map_fst_copiedFields (fields : List (JsString × Json)) :
    (copiedFields fields).map Prod.fst = fields.map Prod.fst := by
  induction fields with
  | nil => rfl
  | cons field fields ih =>
    obtain ⟨k, x⟩ := field
    simp only [copiedFields, List.map_cons, ih]

end Json

end Obolos
