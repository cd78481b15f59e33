import Obolos.Contracts.MarketSettlement

/-!
# Standard ERC20 tokens

`Token.Standard` is what the settlement contract may expect of an ERC20 token: a successful
`transferFrom` moves exactly the given value.  `erc20` is a token that behaves this way, with
balances and allowances as in the reference implementation.
-/

namespace Obolos

namespace ObolosMarketSettlement

/-- Balances after moving `value` from `sender` to `recipient` (which may be the same account). -/
def move (balance : Address → ℕ) (sender recipient : Address) (value : ℕ) : Address → ℕ :=
  let debited := Function.update balance sender (balance sender - value)
  Function.update debited recipient (debited recipient + value)

/-- A token whose transfers move exactly the value they are given, and no more than there is. -/
structure Token.Standard (T : Token) : Prop where
  transferred : ∀ {spender sender recipient value t t'},
    T.transferFrom spender sender recipient value t = .ok t' →
      value ≤ T.balanceOf t sender ∧
        T.balanceOf t' = move (T.balanceOf t) sender recipient value

theorem move_of_ne {balance : Address → ℕ} {sender recipient a : Address} {value : ℕ}
    (hs : a ≠ sender) (hr : a ≠ recipient) : move balance sender recipient value a = balance a := by
  simp [move, hs, hr]

/-- Storage of a plain ERC20 token. -/
structure Erc20 where
  balances : Address → ℕ
  allowances : Address → Address → ℕ

/-- `transferFrom`: an infinite allowance is not used up. -/
def Erc20.transferFrom (spender sender recipient : Address) (value : ℕ) (t : Erc20) :
    Except Revert Erc20 := do
  let allowance := t.allowances sender spender
  revertIf (allowance < value ∨ sender = 0 ∨ recipient = 0 ∨ t.balances sender < value) .External
  let left := if allowance = 2 ^ 256 - 1 then allowance else allowance - value
  return {
    balances := move t.balances sender recipient value
    allowances := Function.update t.allowances sender
      (Function.update (t.allowances sender) spender left) }

/-- The plain token. -/
abbrev erc20 : Token where
  Storage := Erc20
  balanceOf t := t.balances
  transferFrom := Erc20.transferFrom

theorem erc20_standard : erc20.Standard where
  transferred {spender sender recipient value t t'} h := by
    simp only [Erc20.transferFrom, bind_eq_ok, revertIf_eq_ok, pure_eq_ok] at h
    obtain ⟨-, hg, rfl⟩ := h
    simp only [not_or, not_lt] at hg
    exact ⟨hg.2.2.2, rfl⟩

end ObolosMarketSettlement

end Obolos
