import Mathlib.Data.List.TakeWhile
import Obolos.Js.Text

/-!
# Base64 for URLs

`Buffer.from(bytes).toString('base64url')` writes three bytes in four characters, without padding,
and `Buffer.from(text, 'base64url')` reads them.  What is written is read back (`decode_encode`).
Some texts are never written but read all the same: the last character of a text may have bits that
belong to no byte (`encode_decode`).
-/

namespace Obolos

namespace Base64

/-- The character of six bits. -/
def digit (n : ℕ) : UInt16 :=
  if n < 26 then (65 + n).toUInt16
  else if n < 52 then (71 + n).toUInt16
  else if n < 62 then (n - 4).toUInt16
  else if n = 62 then 45 else 95

/-- The six bits of a character; `+` and `/` are read too. -/
def value (c : UInt16) : Option ℕ :=
  if 65 ≤ c && c ≤ 90 then some (c.toNat - 65)
  else if 97 ≤ c && c ≤ 122 then some (c.toNat - 71)
  else if 48 ≤ c && c ≤ 57 then some (c.toNat + 4)
  else if c = 45 ∨ c = 43 then some 62
  else if c = 95 ∨ c = 47 then some 63
  else none

/-- A character of `[-_A-Za-z0-9]`. -/
def isUnit (c : UInt16) : Bool :=
  (65 ≤ c && c ≤ 90) || (97 ≤ c && c ≤ 122) || (48 ≤ c && c ≤ 57) || c == 45 || c == 95

/-- `Buffer.from(bytes).toString('base64url')` -/
def encode : List ℕ → JsString
  | a :: b :: c :: bytes => digit (a / 4) :: digit (a % 4 * 16 + b / 16) ::
      digit (b % 16 * 4 + c / 64) :: digit (c % 64) :: encode bytes
  | [a, b] => [digit (a / 4), digit (a % 4 * 16 + b / 16), digit (b % 16 * 4)]
  | [a] => [digit (a / 4), digit (a % 4 * 16)]
  | [] => []

/-- The bytes of six bits each; the bits after the last byte are dropped. -/
def bytesOf : List ℕ → List ℕ
  | x :: y :: z :: u :: rest =>
    (x * 4 + y / 16) :: (y % 16 * 16 + z / 4) :: (z % 4 * 64 + u) :: bytesOf rest
  | [x, y, z] => [x * 4 + y / 16, y % 16 * 16 + z / 4]
  | [x, y] => [x * 4 + y / 16]
  | _ => []

/-- `Buffer.from(text, 'base64url')`: it ends at `=`, and skips what is no character of the
alphabet. -/
def decode (s : JsString) : List ℕ := bytesOf ((s.takeWhile (· != 61)).filterMap value)

/-- The bits after the last byte are zero, and there are no characters without a byte. -/
def spare : List ℕ → Bool
  | _ :: _ :: _ :: _ :: rest => spare rest
  | [_, _, z] => z % 4 = 0
  | [_, y] => y % 16 = 0
  | [_] => false
  | [] => true

/-- A text that is written for some bytes. -/
def canonical (s : JsString) : Bool := spare (s.filterMap value)

theorem value_digit {n : ℕ} (h : n < 64) : value (digit n) = some n := by
  have hall : ∀ m < 64, value (digit m) = some m := by decide
  exact hall n h

theorem isUnit_digit {n : ℕ} (h : n < 64) : isUnit (digit n) = true := by
  have hall : ∀ m < 64, isUnit (digit m) = true := by decide
  exact hall n h

/-- The characters of the alphabet are those of six bits. -/
theorem digit_value {c : UInt16} (h : isUnit c = true) :
    ∃ n, n < 64 ∧ value c = some n ∧ digit n = c := by
  have hall : ∀ m < 128, isUnit m.toUInt16 = true →
      (value m.toUInt16).any (fun n => decide (n < 64 ∧ digit n = m.toUInt16)) = true := by
    decide +kernel
  have hlt : c.toNat < 128 := by
    simp only [isUnit, Bool.or_eq_true, Bool.and_eq_true, decide_eq_true_eq, beq_iff_eq,
      UInt16.le_iff_toNat_le] at h
    rcases h with (((⟨-, h⟩ | ⟨-, h⟩) | ⟨-, h⟩) | rfl) | rfl
    · exact Nat.lt_of_le_of_lt h (by decide)
    · exact Nat.lt_of_le_of_lt h (by decide)
    · exact Nat.lt_of_le_of_lt h (by decide)
    · decide
    · decide
  have hc : c.toNat.toUInt16 = c := by simp
  have hany := hall c.toNat hlt (by rw [hc]; exact h)
  rw [hc] at hany
  obtain ⟨n, hn, hdigit⟩ := (Option.any_eq_true _ _).1 hany
  obtain ⟨hn64, hdigit⟩ := of_decide_eq_true hdigit
  exact ⟨n, hn64, hn, hdigit⟩

/-- The six bits of characters of the alphabet. -/
theorem values_digits {l : List ℕ} (h : ∀ n ∈ l, n < 64) : (l.map digit).filterMap value = l := by
  have hsome : ∀ n ∈ l, (value ∘ digit) n = some n := fun n hn => value_digit (h n hn)
  rw [List.filterMap_map, List.filterMap_congr hsome]
  exact List.filterMap_some

/-- A character of the alphabet is not `=`. -/
theorem ne_of_isUnit {c d : UInt16} (h : isUnit c = true) (hd : isUnit d = false) : c ≠ d := by
  rintro rfl
  rw [h] at hd
  cases hd

/-- A text of the alphabet is read from its six-bit values. -/
theorem decode_of_units {s : JsString} (h : s.all isUnit = true) :
    ∃ l : List ℕ, s = l.map digit ∧ (∀ n ∈ l, n < 64) ∧ decode s = bytesOf l := by
  have hvalues : ∀ {s : JsString}, s.all isUnit = true →
      ∃ l : List ℕ, s = l.map digit ∧ ∀ n ∈ l, n < 64 := by
    intro s hs
    induction s with
    | nil => exact ⟨[], rfl, by simp⟩
    | cons c s ih =>
      rw [List.all_cons, Bool.and_eq_true] at hs
      obtain ⟨n, hn, -, rfl⟩ := digit_value hs.1
      obtain ⟨l, rfl, hl⟩ := ih hs.2
      exact ⟨n :: l, rfl, List.forall_mem_cons.2 ⟨hn, hl⟩⟩
  obtain ⟨l, rfl, hl⟩ := hvalues h
  refine ⟨l, rfl, hl, ?_⟩
  have hend : (l.map digit).takeWhile (· != 61) = l.map digit :=
    List.takeWhile_eq_self_iff.2 fun c hc => by
      simpa using ne_of_isUnit (List.all_eq_true.1 h c hc) (by decide : isUnit 61 = false)
  rw [decode, hend, values_digits hl]

/-- Six bits of the bytes. -/
def sixBits : List ℕ → List ℕ
  | a :: b :: c :: bytes =>
    (a / 4) :: (a % 4 * 16 + b / 16) :: (b % 16 * 4 + c / 64) :: (c % 64) :: sixBits bytes
  | [a, b] => [a / 4, a % 4 * 16 + b / 16, b % 16 * 4]
  | [a] => [a / 4, a % 4 * 16]
  | [] => []

theorem encode_eq (bytes : List ℕ) : encode bytes = (sixBits bytes).map digit := by
  fun_induction encode bytes with
  | case1 a b c bytes ih => rw [ih]; rfl
  | case2 a b => rfl
  | case3 a => rfl
  | case4 => rfl

theorem sixBits_lt {bytes : List ℕ} (h : ∀ a ∈ bytes, a < 256) : ∀ n ∈ sixBits bytes, n < 64 := by
  fun_induction sixBits bytes with
  | case1 a b c bytes ih =>
    simp only [List.forall_mem_cons] at h ⊢
    exact ⟨by omega, by omega, by omega, by omega, ih h.2.2.2⟩
  | case2 a b =>
    simp only [List.forall_mem_cons] at h ⊢
    exact ⟨by omega, by omega, by omega, by simp⟩
  | case3 a =>
    simp only [List.forall_mem_cons] at h ⊢
    exact ⟨by omega, by omega, by simp⟩
  | case4 => simp

theorem bytesOf_sixBits {bytes : List ℕ} (h : ∀ a ∈ bytes, a < 256) :
    bytesOf (sixBits bytes) = bytes := by
  fun_induction sixBits bytes with
  | case1 a b c bytes ih =>
    simp only [List.forall_mem_cons] at h
    rw [bytesOf, ih h.2.2.2]
    congr 1
    · omega
    · congr 1
      · omega
      · congr 1
        omega
  | case2 a b =>
    simp only [List.forall_mem_cons] at h
    rw [bytesOf]
    congr 1
    · omega
    · congr 1
      omega
  | case3 a =>
    simp only [List.forall_mem_cons] at h
    rw [bytesOf]
    congr 1
    omega
  | case4 => rfl

theorem all_encode {bytes : List ℕ} (h : ∀ a ∈ bytes, a < 256) :
    (encode bytes).all isUnit = true := by
  rw [encode_eq, List.all_map, List.all_eq_true]
  exact fun n hn => isUnit_digit (sixBits_lt h n hn)

/-- **What is written is read back.** -/
theorem decode_encode {bytes : List ℕ} (h : ∀ a ∈ bytes, a < 256) :
    decode (encode bytes) = bytes := by
  obtain ⟨l, hs, hl, hdecode⟩ := decode_of_units (all_encode h)
  have hvalues : sixBits bytes = l := by
    rw [← values_digits (sixBits_lt h), ← encode_eq, hs, values_digits hl]
  rw [hdecode, ← hvalues, bytesOf_sixBits h]

/-- Four characters for three bytes. -/
theorem length_encode (bytes : List ℕ) : (encode bytes).length = (4 * bytes.length + 2) / 3 := by
  fun_induction encode bytes with
  | case1 a b c bytes ih =>
    simp only [List.length_cons, ih]
    omega
  | case2 a b => simp
  | case3 a => simp
  | case4 => simp

theorem sixBits_bytesOf {l : List ℕ} (h : ∀ n ∈ l, n < 64) :
    sixBits (bytesOf l) = l ↔ spare l = true := by
  fun_induction bytesOf l with
  | case1 x y z u rest ih =>
    simp only [List.forall_mem_cons] at h
    rw [sixBits, spare, ← ih h.2.2.2.2]
    have h₁ : (x * 4 + y / 16) / 4 = x := by omega
    have h₂ : (x * 4 + y / 16) % 4 * 16 + (y % 16 * 16 + z / 4) / 16 = y := by omega
    have h₃ : (y % 16 * 16 + z / 4) % 16 * 4 + (z % 4 * 64 + u) / 64 = z := by omega
    have h₄ : (z % 4 * 64 + u) % 64 = u := by omega
    rw [h₁, h₂, h₃, h₄]
    simp
  | case2 x y z =>
    simp only [List.forall_mem_cons] at h
    have h₁ : (x * 4 + y / 16) / 4 = x := by omega
    have h₂ : (x * 4 + y / 16) % 4 * 16 + (y % 16 * 16 + z / 4) / 16 = y := by omega
    rw [sixBits, h₁, h₂]
    simp only [List.cons.injEq, true_and, and_true, spare, decide_eq_true_eq]
    omega
  | case3 x y =>
    simp only [List.forall_mem_cons] at h
    have h₁ : (x * 4 + y / 16) / 4 = x := by omega
    rw [sixBits, h₁]
    simp only [List.cons.injEq, true_and, and_true, spare, decide_eq_true_eq]
    omega
  | case4 l h₄ h₃ h₂ =>
    match l with
    | [] => simp [sixBits, spare]
    | [x] => simp [sixBits, spare]
    | [x, y] => exact absurd rfl (h₂ x y)
    | [x, y, z] => exact absurd rfl (h₃ x y z)
    | x :: y :: z :: u :: rest => exact absurd rfl (h₄ x y z u rest)

theorem bytesOf_lt {l : List ℕ} (h : ∀ n ∈ l, n < 64) : ∀ a ∈ bytesOf l, a < 256 := by
  fun_induction bytesOf l with
  | case1 x y z u rest ih =>
    simp only [List.forall_mem_cons] at h ⊢
    exact ⟨by omega, by omega, by omega, ih h.2.2.2.2⟩
  | case2 x y z =>
    simp only [List.forall_mem_cons] at h ⊢
    exact ⟨by omega, by omega, by simp⟩
  | case3 x y =>
    simp only [List.forall_mem_cons] at h ⊢
    exact ⟨by omega, by simp⟩
  | case4 => simp

/-- A text of the alphabet is written for its bytes exactly if its spare bits are zero. -/
theorem encode_decode {s : JsString} (h : s.all isUnit = true) :
    encode (decode s) = s ↔ canonical s = true := by
  obtain ⟨l, rfl, hl, hdecode⟩ := decode_of_units h
  rw [hdecode, encode_eq, canonical, values_digits hl, ← sixBits_bytesOf hl]
  refine ⟨fun heq => ?_, fun heq => by rw [heq]⟩
  -- Different six bits have different characters.
  rw [← values_digits (sixBits_lt (bytesOf_lt hl)), heq, values_digits hl]

end Base64

end Obolos
