import Obolos.Js.Lines
import Obolos.Js.Radix

/-!
# Base58

`hedera/identity.ts`: the hash in the identifier of an agent is written in Base58.  A loop writes
the digits of the bytes as one number, and a second loop writes the zero bytes in front, which the
number does not count.
-/

namespace Obolos

namespace Hedera

/-- `alphabet` -/
def alphabet : JsString := js "123456789ABCDEFGHJKLMNPQRSTUVWXYZabcdefghijkmnopqrstuvwxyz"

/-- `Buffer.from(bytes).toString('hex')` -/
def hexText (bytes : List UInt8) : JsString := bytes.flatMap fun b => JsString.hex 2 b.toNat

/-- `while(value>0n){encoded=alphabet[Number(value%58n)]+encoded;value/=58n;}` -/
def encodeValue (value : ℕ) (encoded : JsString) : JsString :=
  if value = 0 then encoded
  else encodeValue (value / 58) (alphabet.getD (value % 58) 0 :: encoded)

/-- `for(const byte of bytes){if(byte!==0)break;encoded='1'+encoded;}` -/
def encodeZeros : List UInt8 → JsString → JsString
  | [], encoded => encoded
  | byte :: bytes, encoded => if byte ≠ 0 then encoded else encodeZeros bytes (49 :: encoded)

/-- `base58`; `BigInt('0x')` is a `SyntaxError`. -/
def base58 (bytes : List UInt8) : Option JsString :=
  (readBigInt (js "0x" ++ hexText bytes)).map fun value =>
    encodeZeros bytes (encodeValue value.toNat [])

/-- Decoding: each `1` in front is a zero byte, and the rest is a number in base 58. -/
def base58Decode (text : JsString) : Option (List UInt8) :=
  let ones := (text.takeWhile (· == 49)).length
  ((text.drop ones).mapM fun c => alphabet.idxOf? c).map fun digits =>
    List.replicate ones 0 ++ (Radix.digits 256 (Radix.value 58 digits)).map UInt8.ofNat

/-! ### The number -/

theorem hexDigit_spec {n : ℕ} (h : n < 16) :
    let c := JsString.hexDigit n
    (if 48 ≤ c && c ≤ 57 then some (c.toNat - 48)
      else if 65 ≤ c && c ≤ 70 then some (c.toNat - 55)
      else if 97 ≤ c && c ≤ 102 then some (c.toNat - 87) else none) = some n ∧
      JsString.isSpace c = false := by
  revert n
  decide +kernel

theorem readBase_hexDigit {d : ℕ} (n : ℕ) (h : d < 16) (s : JsString) :
    readBase 16 n (JsString.hexDigit d :: s) = readBase 16 (16 * n + d) s := by
  rw [readBase, (hexDigit_spec h).1]
  exact if_pos h

theorem hex_two (b : UInt8) : JsString.hex 2 b.toNat =
    [JsString.hexDigit (b.toNat / 16 % 16), JsString.hexDigit (b.toNat % 16)] := rfl

theorem readBase_hexText (n : ℕ) (bytes : List UInt8) : readBase 16 n (hexText bytes) =
    some ((bytes.map UInt8.toNat).foldl (fun n d => 256 * n + d) n) := by
  induction bytes generalizing n with
  | nil => rfl
  | cons b bytes ih =>
    have hb := b.toNat_lt
    have hbyte : 16 * (16 * n + b.toNat / 16 % 16) + b.toNat % 16 = 256 * n + b.toNat := by omega
    rw [hexText, List.flatMap_cons, hex_two, List.cons_append, List.cons_append,
      readBase_hexDigit n (by omega), readBase_hexDigit _ (by omega), hbyte]
    exact ih _

theorem not_space_hexText {bytes : List UInt8} {c : UInt16} (h : c ∈ hexText bytes) :
    JsString.isSpace c = false := by
  obtain ⟨b, -, hc⟩ := List.mem_flatMap.1 h
  rw [hex_two] at hc
  rcases List.mem_pair.1 hc with rfl | rfl <;> exact (hexDigit_spec (by omega)).2

/-- The number that the bytes are. -/
theorem readBigInt_hexText {bytes : List UInt8} (h : bytes ≠ []) :
    readBigInt (js "0x" ++ hexText bytes) =
      some (Radix.value 256 (bytes.map UInt8.toNat) : ℤ) := by
  have hplain : ∀ c ∈ js "0x", JsString.isSpace c = false := by
    rintro c (_ | ⟨_, _ | ⟨_, _ | _⟩⟩) <;> rfl
  have htrim : (js "0x" ++ hexText bytes).trim = 48 :: 120 :: hexText bytes := by
    refine JsString.trim_eq (fun c hc => ?_) fun c hc => ?_
    · cases hc
      decide
    · rcases List.mem_append.1 (List.mem_of_getLast? hc) with hc | hc
      · exact hplain c hc
      · exact not_space_hexText hc
  obtain ⟨b, rest, rfl⟩ := List.exists_cons_of_ne_nil h
  have hne : hexText (b :: rest) = JsString.hexDigit (b.toNat / 16 % 16) ::
      JsString.hexDigit (b.toNat % 16) :: hexText rest := rfl
  rw [readBigInt, htrim]
  show readNumeral 16 (hexText (b :: rest)) = _
  rw [hne, readNumeral, ← hne, readBase_hexText]
  · rfl
  · simp

/-! ### The loops -/

theorem encodeValue_eq (value : ℕ) (encoded : JsString) : encodeValue value encoded =
    (Radix.digits 58 value).map (fun d => alphabet.getD d 0) ++ encoded := by
  fun_induction encodeValue value encoded with
  | case1 encoded => simp [Radix.digits]
  | case2 value encoded hne ih =>
    have hdigits : Radix.digits 58 value = Radix.digits 58 (value / 58) ++ [value % 58] := by
      rw [Radix.digits, Nat.digits_def' (by decide) (Nat.pos_of_ne_zero hne), List.reverse_cons]
      rfl
    rw [ih, hdigits, List.map_append, List.append_assoc]
    rfl

theorem encodeZeros_eq (bytes : List UInt8) (encoded : JsString) : encodeZeros bytes encoded =
    List.replicate (Radix.zeros (bytes.map UInt8.toNat)) 49 ++ encoded := by
  induction bytes generalizing encoded with
  | nil => rfl
  | cons b bytes ih =>
    rw [encodeZeros]
    by_cases hb : b = 0
    · subst hb
      rw [if_neg (by simp), ih]
      simp [Radix.zeros, List.replicate_succ']
    · have hne : b.toNat ≠ 0 := fun h => hb (UInt8.toNat_inj.1 h)
      rw [if_pos hb]
      simp [Radix.zeros, hne]

/-- The zeros in front, and the digits of the number after them. -/
theorem base58_eq {bytes : List UInt8} (h : bytes ≠ []) : base58 bytes =
    some ((Radix.convert 256 58 (bytes.map UInt8.toNat)).map fun d => alphabet.getD d 0) := by
  rw [base58, readBigInt_hexText h, Option.map_some, encodeValue_eq, encodeZeros_eq,
    Radix.convert, List.map_append, List.map_replicate, List.append_nil]
  rfl

/-! ### Decoding -/

theorem idxOf_alphabet {d : ℕ} (h : d < 58) :
    alphabet.idxOf? (alphabet.getD d 0) = some d ∧ (alphabet.getD d 0 = 49 ↔ d = 0) ∧
      alphabet.getD d 0 ∈ alphabet := by
  revert d
  decide +kernel

theorem readLetters {digits : List ℕ} (h : ∀ d ∈ digits, d < 58) :
    ((digits.map fun d => alphabet.getD d 0).mapM fun c => alphabet.idxOf? c) = some digits := by
  induction digits with
  | nil => rfl
  | cons d digits ih =>
    rw [List.map_cons, List.mapM_cons, (idxOf_alphabet (h d (by simp))).1,
      ih fun d hd => h d (List.mem_cons_of_mem _ hd)]
    rfl

/-- The `1`s in front are the zeros in front of the digits. -/
theorem ones_letters {digits : List ℕ} (h : ∀ d ∈ digits, d < 58) :
    ((digits.map fun d => alphabet.getD d 0).takeWhile (· == 49)).length = Radix.zeros digits := by
  induction digits with
  | nil => rfl
  | cons d digits ih =>
    have hone := (idxOf_alphabet (h d (by simp))).2.1
    have ih := ih fun d hd => h d (List.mem_cons_of_mem _ hd)
    by_cases hd : d = 0
    · rw [List.map_cons, hone.2 hd, List.takeWhile_cons_of_pos (by rfl), List.length_cons, ih]
      simp [Radix.zeros, hd]
    · have hne : (alphabet.getD d 0 == 49) = false := by simpa using fun he => hd (hone.1 he)
      rw [List.map_cons, List.takeWhile_cons, hne]
      simp [Radix.zeros, hd]

/-- Decoding letters converts the digits that they are. -/
theorem base58Decode_letters {digits : List ℕ} (h : ∀ d ∈ digits, d < 58) :
    base58Decode (digits.map fun d => alphabet.getD d 0) =
      some ((Radix.convert 58 256 digits).map UInt8.ofNat) := by
  obtain ⟨rest, hsplit, -⟩ := Radix.split_zeros digits
  have hdrop : digits.drop (Radix.zeros digits) = rest := by
    nth_rewrite 2 [hsplit]
    simp
  have hvalue : Radix.value 58 digits = Radix.value 58 rest := by
    nth_rewrite 1 [hsplit]
    exact Radix.value_zeros 58 _ rest
  rw [base58Decode, ones_letters h, ← List.map_drop, hdrop,
    readLetters fun d hd => h d (by rw [hsplit]; exact List.mem_append_right _ hd),
    Option.map_some, Radix.convert, hvalue, List.map_append, List.map_replicate]
  rfl

/-- Every nonempty byte string is written in letters of the alphabet, decoding gives it back, and no
other one is written so. -/
theorem base58_decodable {bytes : List UInt8} (h : bytes ≠ []) :
    ∃ text, base58 bytes = some text ∧ (∀ c ∈ text, c ∈ alphabet) ∧
      base58Decode text = some bytes ∧
      ∀ other : List UInt8, other ≠ [] → base58 other = some text → other = bytes := by
  have hdecode : ∀ {bytes text}, bytes ≠ [] → base58 bytes = some text →
      base58Decode text = some bytes := by
    intro bytes text hne htext
    rw [base58_eq hne] at htext
    cases htext
    have hbytes : ∀ d ∈ bytes.map UInt8.toNat, d < 256 := by
      intro d hd
      obtain ⟨b, -, rfl⟩ := List.mem_map.1 hd
      exact b.toNat_lt
    rw [base58Decode_letters (Radix.convert_lt (by decide) _),
      Radix.convert_convert (by decide) hbytes, List.map_map]
    simp [Function.comp_def]
  refine ⟨_, base58_eq h, fun c hc => ?_, hdecode h (base58_eq h), fun other hne hother => ?_⟩
  · obtain ⟨d, hd, rfl⟩ := List.mem_map.1 hc
    exact (idxOf_alphabet (Radix.convert_lt (by decide) _ d hd)).2.2
  · exact Option.some_inj.1 ((hdecode hne hother).symm.trans (hdecode h (base58_eq h)))

/-- Three zero bytes in front of two others. -/
theorem base58_decodable_zeros :
    ∃ text, base58 [0, 0, 0, 1, 255] = some text ∧ (∀ c ∈ text, c ∈ alphabet) ∧
      base58Decode text = some [0, 0, 0, 1, 255] ∧
      ∀ other : List UInt8, other ≠ [] → base58 other = some text →
        other = [0, 0, 0, 1, 255] :=
  base58_decodable (by decide)

end Hedera

end Obolos
