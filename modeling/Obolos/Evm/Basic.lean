import Mathlib.Algebra.Group.Nat.Defs
import Mathlib.Data.Nat.Basic
import Mathlib.Logic.Function.Basic

/-!
# The parts of the EVM the contracts rely on

Solidity 0.8 code is modelled as functions into `Except Revert`: a value means the call returned,
an error means it reverted (and the EVM then discards every write it made).  Amounts and
counters are natural numbers with *checked* arithmetic at the width the source declares, so an
overflow is a revert (`Panic`), as in the source.  Addresses and 32-byte words are bit vectors.

`keccak256` and the OpenZeppelin signature helpers are parameters (`Keccak`, `OpenZeppelin`);
what a result needs of them is stated where it is needed.
-/

namespace Obolos

/-- A 20-byte account address; `0` is `address(0)`. -/
abbrev Address := BitVec 160

/-- A 32-byte word used as an identifier or a hash; `0` is `bytes32(0)`. -/
abbrev Bytes32 := BitVec 256

/-- Why a call reverted: the custom errors of the three contracts, a Solidity panic (checked
arithmetic), or a failed call into third-party code. -/
inductive Revert
  | Unauthorized | Invalid | Limit | Paused | Stale | Panic | External
  deriving DecidableEq, Repr

/-- What a call sees of its transaction.  No account has the zero address, so `msg.sender` is
never zero; blocks have positive timestamps. -/
structure Msg where
  /-- `msg.sender` -/
  sender : Address
  /-- `block.timestamp` -/
  timestamp : ℕ
  /-- `target.code.length != 0` at the time of the call. -/
  hasCode : Address → Bool
  sender_ne : sender ≠ 0
  timestamp_pos : 0 < timestamp

/-- `keccak256`, on the two kinds of byte string the contracts hash. -/
structure Keccak where
  /-- The hash of a sequence of 32-byte words: the shape of `abi.encode` of static values. -/
  words : List ℕ → Bytes32
  /-- The hash of the bytes of a text. -/
  text : String → Bytes32

/-- The OpenZeppelin helpers behind a signature check. -/
structure OpenZeppelin (Signature : Type) where
  /-- `EIP712._hashTypedDataV4` of this contract's domain. -/
  hashTypedDataV4 : Bytes32 → Bytes32
  /-- `MessageHashUtils.toEthSignedMessageHash` -/
  toEthSignedMessageHash : Bytes32 → Bytes32
  /-- `ECDSA.recover`; `none` when it reverts. -/
  recover : Bytes32 → Signature → Option Address

/-! ### Guards and checked arithmetic -/

/-- `if(bad) revert e();` -/
def revertIf (bad : Prop) [Decidable bad] (e : Revert) : Except Revert Unit :=
  if bad then .error e else .ok ()

/-- `a + b` at width `w`. -/
def addU (w a b : ℕ) : Except Revert ℕ := if a + b < 2 ^ w then .ok (a + b) else .error .Panic

/-- `a - b`. -/
def subU (a b : ℕ) : Except Revert ℕ := if b ≤ a then .ok (a - b) else .error .Panic

/-- `a * b` at width `w`. -/
def mulU (w a b : ℕ) : Except Revert ℕ := if a * b < 2 ^ w then .ok (a * b) else .error .Panic

variable {ε α β : Type} {bad : Prop} [Decidable bad] {e : Revert} {w a b c : ℕ}

@[simp] theorem bind_eq_ok {x : Except ε α} {f : α → Except ε β} {y : β} :
    (x >>= f) = .ok y ↔ ∃ v, x = .ok v ∧ f v = .ok y := by
  cases x with
  | error e => simp [bind, Except.bind]
  | ok v => simp [bind, Except.bind]

@[simp] theorem map_eq_ok {x : Except ε α} {f : α → β} {y : β} :
    (f <$> x) = .ok y ↔ ∃ v, x = .ok v ∧ f v = y := by
  cases x with
  | error e => simp [Functor.map, Except.map]
  | ok v => simp [Functor.map, Except.map]

@[simp] theorem revertIf_eq_ok {u : Unit} : revertIf bad e = .ok u ↔ ¬ bad := by
  by_cases h : bad <;> simp [revertIf, h]

@[simp] theorem addU_eq_ok : addU w a b = .ok c ↔ a + b < 2 ^ w ∧ a + b = c := by
  by_cases h : a + b < 2 ^ w <;> simp [addU, h]

@[simp] theorem subU_eq_ok : subU a b = .ok c ↔ b ≤ a ∧ a - b = c := by
  by_cases h : b ≤ a <;> simp [subU, h]

@[simp] theorem mulU_eq_ok : mulU w a b = .ok c ↔ a * b < 2 ^ w ∧ a * b = c := by
  by_cases h : a * b < 2 ^ w <;> simp [mulU, h]

@[simp] theorem pure_eq_ok {x y : α} : (pure x : Except ε α) = .ok y ↔ x = y := by
  simp [pure, Except.pure]

/-! ### `abi.encode` -/

/-- A short ASCII text as one word: its bytes, left-aligned in 32 bytes. -/
def textWord (s : String) : ℕ :=
  s.toList.foldl (fun n c => n * 256 + c.toNat) 0 * 256 ^ (32 - s.length)

/-- `abi.encode(tag, v₁, …, vₙ)` for a text `tag` of at most 32 bytes and static values: the
offset of the text, the values, then the length and the bytes of the text. -/
def encodeTagged (tag : String) (values : List ℕ) : List ℕ :=
  (32 * (values.length + 1)) :: values ++ [tag.length, textWord tag]

/-- A `bool` as a word. -/
def boolWord (b : Bool) : ℕ := if b then 1 else 0

theorem boolWord_inj {x y : Bool} (h : boolWord x = boolWord y) : x = y := by
  cases x <;> cases y <;> simp_all [boolWord]

/-- The tag's length and the values are determined by the encoding. -/
theorem encodeTagged_inj {s t : String} {vs ws : List ℕ}
    (h : encodeTagged s vs = encodeTagged t ws) : s.length = t.length ∧ vs = ws := by
  simp only [encodeTagged, List.cons_append, List.cons.injEq] at h
  obtain ⟨-, h⟩ := h
  obtain ⟨hv, ht⟩ := List.append_inj' h rfl
  simp only [List.cons.injEq] at ht
  exact ⟨ht.1, hv⟩

end Obolos
