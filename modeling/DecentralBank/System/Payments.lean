import DecentralBank.Lib.Bytes
import DecentralBank.System.Tables

/-!
# Payments of the contract

What the inline actions of `eosio.token` do to balances.
-/

namespace DecentralBank.System

open Checked

variable {D : Type} {s s' : State D} {source target : Name} {quantity : Asset} {memo : String}

/-- The ledger after `quantity` is paid. -/
structure Paid (s : State D) (source target : Name) (quantity : Asset)
    (token : Token.State) : Prop where
  sound : Token.Conserved token
  stats : token.stats = s.token.stats
  apart : source ≠ target
  positive : 0 < quantity.amount
  range : quantity.amount ≤ Asset.maxAmount
  dealt : ∃ st, s.token.stats.lookup quantity.symbol.code = some st ∧
    quantity.symbol = st.supply.symbol
  valid : quantity.symbol.isValid = true
  moved : ∀ account code, Token.balanceOf token.accounts account code = s.balance account code +
    (if account = source ∧ code = quantity.symbol.code then -quantity.amount else 0) +
    if account = target ∧ code = quantity.symbol.code then quantity.amount else 0

section

variable {token : Token.State} {core : Symbol} (paid : Paid s source target quantity token)

include paid

theorem Paid.elsewhere {account : Name} (notSource : account ≠ source)
    (notTarget : account ≠ target)
    (code : SymbolCode) : Token.balanceOf token.accounts account code = s.balance account code := by
  rw [paid.moved, if_neg fun own => notSource own.1, if_neg fun own => notTarget own.1, add_zero,
    add_zero]

theorem Paid.spent (symbol : quantity.symbol = core) :
    Token.balanceOf token.accounts source core.code =
      s.balance source core.code - quantity.amount := by
  rw [paid.moved, if_pos ⟨rfl, by rw [symbol]⟩, if_neg fun own => paid.apart own.1, add_zero]
  rfl

theorem Paid.received (symbol : quantity.symbol = core) :
    Token.balanceOf token.accounts target core.code =
      s.balance target core.code + quantity.amount := by
  rw [paid.moved, if_neg fun own => paid.apart own.1.symm, if_pos ⟨rfl, by rw [symbol]⟩, add_zero]

end

theorem State.pay_paid (h : s.pay source target quantity memo = .ok s')
    (sound : Token.Conserved s.token) :
    ∃ token, s' = { s with token } ∧ Paid s source target quantity token := by
  obtain ⟨token, done, rfl⟩ := State.pay_ok h
  obtain ⟨st, found, proper, -, -, apart, -⟩ :=
    (Token.transfer_refines sound).admitted.mp ⟨token, done⟩
  obtain ⟨_, _, _, -, -, -, -, -, -, same⟩ := Token.transfer_ok done
  have valid := proper.valid
  simp only [Asset.isValid, Asset.isAmountWithinRange, Bool.and_eq_true, decide_eq_true_eq] at valid
  refine ⟨token, rfl, sound.transfer done, ?_, apart, proper.positive, valid.1.2,
    ⟨st, found, proper.same⟩, valid.2, Token.balanceOf_transfer done⟩
  rw [same]

/-- A payment that is covered goes through. -/
theorem State.pay_succeeds {st : Token.CurrencyStats} (sound : Token.Conserved s.token)
    (found : s.token.stats.lookup quantity.symbol.code = some st)
    (same : quantity.symbol = st.supply.symbol) (valid : quantity.symbol.isValid = true)
    (positive : 0 < quantity.amount) (range : quantity.amount ≤ Asset.maxAmount)
    (short : memo.utf8ByteSize ≤ 256) (known : target ∈ s.accounts) (apart : source ≠ target)
    (covered : quantity.amount ≤ s.balance source quantity.symbol.code) :
    ∃ s', s.pay source target quantity memo = .ok s' := by
  have proper : Token.Proper st quantity memo.toUTF8.toList := by
    refine ⟨?_, positive, same, ?_⟩
    · simp only [Asset.isValid, Asset.isAmountWithinRange, valid, Bool.and_true, decide_eq_true_eq]
      have nonneg := Asset.maxAmount_nonneg
      omega
    · rw [length_toUTF8]
      exact short
  obtain ⟨token, done⟩ := (Token.transfer_refines (k := Token.EosioToken.contract)
    (c := ⟨TOKEN_ACCOUNT, [source], s.isAccount⟩) sound).admitted.mpr
      ⟨st, found, proper, List.mem_singleton_self _, decide_eq_true known, apart, covered⟩
  exact ⟨{ s with token }, by
    simp only [State.pay, bind_eq_ok, pure_eq_ok]
    exact ⟨token, done, rfl⟩⟩

/-- What is issued of a token, by its code. -/
def State.supply (s : State D) (code : SymbolCode) : Int :=
  Ledger.held (fun st => st.supply.amount) s.token.stats code

theorem State.supply_range (sound : Token.Conserved s.token) (code : SymbolCode) :
    0 ≤ s.supply code ∧ s.supply code ≤ Asset.maxAmount := by
  unfold State.supply
  cases found : s.token.stats.lookup code with
  | none =>
    rw [Ledger.held_none found]
    exact ⟨le_refl 0, Asset.maxAmount_nonneg⟩
  | some st =>
    have row := sound.stats _ _ found
    rw [Ledger.held_some found]
    exact ⟨row.nonneg, row.capped.trans row.range⟩

theorem Paid.supply {token : Token.State} (paid : Paid s source target quantity token)
    (code : SymbolCode) : ({ s with token } : State D).supply code = s.supply code := by
  unfold State.supply
  rw [paid.stats]

/-- Tokens that are issued are more tokens in all, and the target's. -/
theorem issue_moves {k : Token.Contract} {c : Token.Ctx} {t t' : Token.State} {text : List UInt8}
    (sound : Token.Conserved t) (h : Token.issue k c t target quantity text = .ok t') :
    Token.Conserved t' ∧ 0 < quantity.amount ∧ quantity.amount ≤ Asset.maxAmount ∧
      (∀ account code,
        Token.balanceOf t'.accounts account code = Token.balanceOf t.accounts account code +
          if account = target ∧ code = quantity.symbol.code then quantity.amount else 0) ∧
      ∀ code, Ledger.held (fun st => st.supply.amount) t'.stats code =
        Ledger.held (fun st => st.supply.amount) t.stats code +
          if code = quantity.symbol.code then quantity.amount else 0 := by
  have refines :
      Token.Refines c t (.issue target quantity text) (Token.issue k c t target quantity text) :=
    Token.issue_refines sound
  obtain ⟨st, found, proper, -⟩ := refines.admitted.mp ⟨t', h⟩
  have valid := proper.valid
  simp only [Asset.isValid, Asset.isAmountWithinRange, Bool.and_eq_true, decide_eq_true_eq] at valid
  have there : t.stats.lookup quantity.symbol.code = some st := found
  have books := refines.effect t' h
  simp only [Token.Action.effect, there, Token.State.books, Token.Books.deposit, Token.Books.file,
    Token.Books.mk.injEq] at books
  obtain ⟨stats, balances⟩ := books
  refine ⟨sound.issue h, proper.positive, valid.1.2, fun account code => ?_, fun code => ?_⟩
  · exact congrFun (congrFun balances account) code
  · have row := congrFun stats code
    unfold Ledger.held Table.weightAt
    rw [row, Function.update_apply]
    split
    · rename_i here
      rw [here, there]
      rfl
    · rw [add_zero]

end DecentralBank.System
