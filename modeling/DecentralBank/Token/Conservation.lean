import DecentralBank.Token.Contracts

/-!
# The supply of a token

Whatever is done with a token, its supply is the sum of all balances, and
lies between zero and the maximum. No addition to a balance or to a supply
leaves the range of assets.
-/

namespace DecentralBank.Token

open Checked Runs

/-- The balances of the tokens with a code added up. -/
def circulating (accounts : Accounts) (code : SymbolCode) : Int :=
  accounts.total fun key balance => if key.2 = code then balance.amount else 0

structure CurrencyStats.Sound (code : SymbolCode) (st : CurrencyStats) : Prop where
  filed : st.supply.symbol.code = code
  nonneg : 0 ≤ st.supply.amount
  capped : st.supply.amount ≤ st.maxSupply.amount
  range : st.maxSupply.amount ≤ Asset.maxAmount

/-- Balances are not negative, and in the symbol of a token that exists. -/
def Rows (stats : Table SymbolCode CurrencyStats) (accounts : Accounts) : Prop :=
  accounts.All fun key balance => 0 ≤ balance.amount ∧
    ∃ st, stats.lookup key.2 = some st ∧ balance.symbol = st.supply.symbol

structure Conserved (s : State) : Prop where
  stats : s.stats.All CurrencyStats.Sound
  rows : Rows s.stats s.accounts
  sums : ∀ code st, s.stats.lookup code = some st → circulating s.accounts code = st.supply.amount

/-- No row is empty. -/
def Occupied (accounts : Accounts) : Prop := accounts.All fun _ balance => 0 < balance.amount

theorem Conserved.empty : Conserved State.empty where
  stats := Table.All.empty _
  rows := Table.All.empty _
  sums code st h := by cases h

/-! ## Balances -/

variable {a b : Accounts} {owner : Name} {value : Asset} {emptied : Emptied}
  {stats : Table SymbolCode CurrencyStats}

abbrev balanceOf (accounts : Accounts) (owner : Name) (code : SymbolCode) : Int :=
  Ledger.held Asset.amount accounts (owner, code)

theorem circulating_insert (a : Accounts) (owner : Name) (code : SymbolCode) (balance : Asset)
    (j : SymbolCode) :
    circulating (a.insert (owner, code) balance) j = circulating a j +
      if code = j then balance.amount - balanceOf a owner code else 0 := by
  rw [circulating, Table.total_insert, ← circulating]
  simp only [balanceOf, Ledger.held, Table.weightAt]
  by_cases here : code = j
  · simp only [if_pos here]
    cases a.lookup (owner, code) with
    | none => simp
    | some held => simp; omega
  · simp only [if_neg here]
    cases a.lookup (owner, code) <;> simp

theorem circulating_erase (a : Accounts) (owner : Name) (code j : SymbolCode) :
    circulating (a.erase (owner, code)) j = circulating a j -
      if code = j then balanceOf a owner code else 0 := by
  rw [circulating, Table.total_erase, ← circulating]
  simp only [balanceOf, Ledger.held, Table.weightAt]
  by_cases here : code = j
  · simp only [if_pos here]
  · simp only [if_neg here]
    cases a.lookup (owner, code) <;> simp

theorem addBalance_ok (h : addBalance a owner value = .ok b) :
    b = a.insert (owner, value.symbol.code)
      ⟨balanceOf a owner value.symbol.code + value.amount, value.symbol⟩ := by
  unfold addBalance at h
  cases found : a.lookup (owner, value.symbol.code) with
  | none =>
    simp only [found, pure_eq_ok] at h
    rw [← h, balanceOf, Ledger.held_none found, zero_add]
  | some balance =>
    simp only [found, bind_eq_ok, Asset.add_eq_ok, pure_eq_ok] at h
    obtain ⟨_, ⟨same, -, -, rfl⟩, rfl⟩ := h
    rw [balanceOf, Ledger.held_some found, same]

theorem subBalance_ok (h : subBalance emptied a owner value = .ok b) :
    ∃ balance, a.lookup (owner, value.symbol.code) = some balance ∧ value.amount ≤ balance.amount ∧
      ((emptied = .erased ∧ balance.amount = value.amount ∧
          b = a.erase (owner, value.symbol.code)) ∨
        (¬ (emptied = .erased ∧ balance.amount = value.amount) ∧
          b = a.insert (owner, value.symbol.code)
            ⟨balance.amount - value.amount, balance.symbol⟩)) := by
  simp only [subBalance, bind_eq_ok, find_eq_ok, require_eq_ok, ite_eq_ok, Asset.sub_eq_ok,
    pure_eq_ok, exists_const] at h
  obtain ⟨balance, found, covered, ⟨⟨erased, all⟩, rfl⟩ | ⟨some, _, ⟨-, -, -, rfl⟩, rfl⟩⟩ := h
  · exact ⟨balance, found, covered, Or.inl ⟨erased, all, rfl⟩⟩
  · exact ⟨balance, found, covered, Or.inr ⟨some, rfl⟩⟩

theorem circulating_add (h : addBalance a owner value = .ok b) (j : SymbolCode) :
    circulating b j = circulating a j + if value.symbol.code = j then value.amount else 0 := by
  rw [addBalance_ok h, circulating_insert, add_sub_cancel_left]

theorem circulating_sub (h : subBalance emptied a owner value = .ok b) (j : SymbolCode) :
    circulating b j = circulating a j - if value.symbol.code = j then value.amount else 0 := by
  obtain ⟨balance, found, covered, ⟨-, all, rfl⟩ | ⟨-, rfl⟩⟩ := subBalance_ok h
  · rw [circulating_erase, balanceOf, Ledger.held_some found, all]
  · rw [circulating_insert, balanceOf, Ledger.held_some found]
    split
    · simp only
      omega
    · omega

theorem Rows.held (hr : Rows stats a) (owner : Name) (code : SymbolCode) :
    0 ≤ balanceOf a owner code := by
  cases found : a.lookup (owner, code) with
  | none => rw [balanceOf, Ledger.held_none found]
  | some balance =>
    rw [balanceOf, Ledger.held_some found]
    exact (hr _ _ found).1

/-- A balance is part of what circulates. -/
theorem Rows.held_le (hr : Rows stats a) (owner : Name) (code : SymbolCode) :
    balanceOf a owner code ≤ circulating a code := by
  refine le_trans (le_of_eq ?_)
    (Table.weightAt_le_total (fun key balance found => ?_) (owner, code))
  · simp only [balanceOf, Ledger.held, Table.weightAt]
    cases a.lookup (owner, code) <;> simp
  · split
    · exact (hr _ _ found).1
    · exact le_refl 0

theorem Rows.add (hr : Rows stats a) (h : addBalance a owner value = .ok b)
    (positive : 0 ≤ value.amount) {st : CurrencyStats}
    (token : stats.lookup value.symbol.code = some st) (same : value.symbol = st.supply.symbol) :
    Rows stats b := by
  have held := hr.held owner value.symbol.code
  rw [addBalance_ok h]
  exact Table.All.insert hr ⟨by simp only; omega, st, token, same⟩

theorem Rows.sub (hr : Rows stats a) (h : subBalance emptied a owner value = .ok b) :
    Rows stats b := by
  obtain ⟨balance, found, covered, ⟨-, -, rfl⟩ | ⟨-, rfl⟩⟩ := subBalance_ok h
  · exact Table.All.erase hr _
  · obtain ⟨-, st, token, same⟩ := hr _ _ found
    exact Table.All.insert hr ⟨by simp only; omega, st, token, same⟩

theorem Rows.keep {stats' : Table SymbolCode CurrencyStats} (hr : Rows stats a)
    (kept : ∀ code st, stats.lookup code = some st →
      ∃ st', stats'.lookup code = some st' ∧ st'.supply.symbol = st.supply.symbol) :
    Rows stats' a := by
  intro key balance found
  obtain ⟨nonneg, st, token, same⟩ := hr key balance found
  obtain ⟨st', token', symbol⟩ := kept _ st token
  exact ⟨nonneg, st', token', same.trans symbol.symm⟩

/-! ## Actions -/

variable {k : Contract} {c : Ctx} {s s' : State} {source target : Name} {quantity : Asset}
  {memo : List UInt8}

theorem create_ok {issuer : Name} {maximumSupply : Asset}
    (h : create k c s issuer maximumSupply = .ok s') :
    0 < maximumSupply.amount ∧ maximumSupply.amount ≤ Asset.maxAmount ∧
      s.stats.lookup maximumSupply.symbol.code = none ∧
      s' = { s with
        stats := s.stats.insert maximumSupply.symbol.code
          ⟨⟨0, maximumSupply.symbol⟩, maximumSupply, issuer⟩ } := by
  simp only [create, Ctx.requireAuth_eq_ok, bind_eq_ok, require_eq_ok, pure_eq_ok, exists_const,
    Option.isNone_iff_eq_none, Asset.isValid, Asset.isAmountWithinRange, Bool.and_eq_true,
    decide_eq_true_eq] at h
  obtain ⟨-, -, ⟨range, -⟩, positive, fresh, rfl⟩ := h
  exact ⟨positive, range.2, fresh, rfl⟩

theorem transfer_ok (h : transfer k c s source target quantity memo = .ok s') :
    ∃ st debited accounts, source ≠ target ∧ 0 < quantity.amount ∧
      s.stats.lookup quantity.symbol.code = some st ∧ quantity.symbol = st.supply.symbol ∧
      subBalance k.emptied s.accounts source quantity = .ok debited ∧
      addBalance debited target quantity = .ok accounts ∧ s' = { s with accounts } := by
  simp only [transfer, Ctx.requireAuth_eq_ok, bind_eq_ok, require_eq_ok, find_eq_ok, pure_eq_ok,
    exists_const] at h
  obtain ⟨apart, -, -, st, token, -, positive, same, -, debited, paid, accounts, received, rfl⟩ := h
  exact ⟨st, debited, accounts, apart, positive, token, same, paid, received, rfl⟩

theorem mint_ok {st : CurrencyStats} (h : mint c s quantity memo = .ok (st, s')) :
    ∃ accounts, 0 < quantity.amount ∧ s.stats.lookup quantity.symbol.code = some st ∧
      quantity.symbol = st.supply.symbol ∧
      st.supply.amount + quantity.amount ≤ st.maxSupply.amount ∧
      addBalance s.accounts st.issuer quantity = .ok accounts ∧
      s' = ⟨accounts, s.stats.insert quantity.symbol.code
        { st with supply := ⟨st.supply.amount + quantity.amount, st.supply.symbol⟩ }⟩ := by
  simp only [mint, Ctx.requireAuth_eq_ok, bind_eq_ok, require_eq_ok, find_eq_ok, Asset.add_eq_ok,
    pure_eq_ok, exists_const, Prod.mk.injEq] at h
  obtain ⟨-, -, st', token, -, -, positive, same, capped, _, ⟨-, -, -, rfl⟩, accounts,
    received, rfl, rfl⟩ := h
  exact ⟨accounts, positive, token, same, by omega, received, rfl⟩

theorem issue_ok (h : issue k c s target quantity memo = .ok s') :
    ∃ st minted, mint c s quantity memo = .ok (st, minted) ∧
      ((target = st.issuer ∧ s' = minted) ∨ (target ≠ st.issuer ∧
        transfer k { c with auth := [st.issuer] } minted st.issuer target quantity memo =
          .ok s')) := by
  simp only [issue, bind_eq_ok, ite_eq_ok, pure_eq_ok, Prod.exists] at h
  obtain ⟨st, minted, done, ⟨own, rfl⟩ | sent⟩ := h
  · exact ⟨st, minted, done, Or.inl ⟨own, rfl⟩⟩
  · exact ⟨st, minted, done, Or.inr sent⟩

theorem destroy_ok {st : CurrencyStats} (h : destroy k s st owner quantity = .ok s') :
    ∃ accounts, subBalance k.emptied s.accounts owner quantity = .ok accounts ∧
      s' = ⟨accounts, s.stats.insert quantity.symbol.code
        { st with supply := ⟨st.supply.amount - quantity.amount, st.supply.symbol⟩ }⟩ := by
  simp only [destroy, bind_eq_ok, Asset.sub_eq_ok, pure_eq_ok] at h
  obtain ⟨_, ⟨-, -, -, rfl⟩, accounts, paid, rfl⟩ := h
  exact ⟨accounts, paid, rfl⟩

/-! ## What every action keeps -/

theorem Conserved.create (hs : Conserved s) {issuer : Name} {maximumSupply : Asset}
    (h : Token.create k c s issuer maximumSupply = .ok s') : Conserved s' := by
  obtain ⟨positive, range, fresh, rfl⟩ := create_ok h
  refine ⟨Table.All.insert hs.stats ⟨rfl, le_refl 0, positive.le, range⟩, hs.rows.keep ?_, ?_⟩
  · intro code st token
    refine ⟨st, ?_, rfl⟩
    rw [Table.lookup_insert, if_neg, token]
    rintro rfl
    cases fresh.symm.trans token
  · intro code st token
    obtain ⟨rfl, rfl⟩ | ⟨-, old⟩ := Table.of_lookup_insert token
    · refine Table.total_zero fun key balance found => if_neg fun here => ?_
      obtain ⟨-, st, old, -⟩ := hs.rows key balance found
      rw [here, fresh] at old
      cases old
    · exact hs.sums code st old

theorem Conserved.transfer (hs : Conserved s)
    (h : Token.transfer k c s source target quantity memo = .ok s') : Conserved s' := by
  obtain ⟨st, debited, accounts, -, positive, token, same, paid, received, rfl⟩ := transfer_ok h
  refine ⟨hs.stats, (hs.rows.sub paid).add received positive.le token same,
    fun code st' token' => ?_⟩
  rw [circulating_add received, circulating_sub paid, sub_add_cancel]
  exact hs.sums code st' token'

/-- The row of a token with another supply. -/
theorem Rows.resupply {accounts : Accounts} {code : SymbolCode} {st : CurrencyStats}
    (hr : Rows stats accounts) (token : stats.lookup code = some st) (amount : Int) :
    Rows (stats.insert code { st with supply := ⟨amount, st.supply.symbol⟩ }) accounts := by
  refine hr.keep fun j st' token' => ?_
  rw [Table.lookup_insert]
  split
  · rename_i here
    subst here
    cases token.symm.trans token'
    exact ⟨_, rfl, rfl⟩
  · exact ⟨st', token', rfl⟩

theorem Conserved.mint (hs : Conserved s) {st : CurrencyStats}
    (h : Token.mint c s quantity memo = .ok (st, s')) : Conserved s' := by
  obtain ⟨accounts, positive, token, same, capped, received, rfl⟩ := mint_ok h
  have old := hs.stats _ _ token
  refine ⟨Table.All.insert hs.stats ⟨old.filed, ?_, capped, old.range⟩,
    (hs.rows.add received positive.le token same).resupply token _, fun code st' token' => ?_⟩
  · have := old.nonneg
    simp only
    omega
  · rw [circulating_add received]
    obtain ⟨rfl, rfl⟩ | ⟨other, before⟩ := Table.of_lookup_insert token'
    · rw [if_pos rfl, hs.sums _ _ token]
    · rw [if_neg (Ne.symm other), add_zero]
      exact hs.sums code st' before

theorem Conserved.issue (hs : Conserved s) (h : Token.issue k c s target quantity memo = .ok s') :
    Conserved s' := by
  obtain ⟨st, minted, done, ⟨-, rfl⟩ | ⟨-, sent⟩⟩ := issue_ok h
  · exact hs.mint done
  · exact (hs.mint done).transfer sent

theorem Conserved.destroy (hs : Conserved s) {st : CurrencyStats}
    (token : s.stats.lookup quantity.symbol.code = some st) (positive : 0 < quantity.amount)
    (h : Token.destroy k s st owner quantity = .ok s') : Conserved s' := by
  obtain ⟨accounts, paid, rfl⟩ := destroy_ok h
  have old := hs.stats _ _ token
  have covered : quantity.amount ≤ st.supply.amount := by
    obtain ⟨balance, found, covered, -⟩ := subBalance_ok paid
    have part := hs.rows.held_le owner quantity.symbol.code
    rw [balanceOf, Ledger.held_some found, hs.sums _ _ token] at part
    omega
  refine ⟨Table.All.insert hs.stats ⟨old.filed, ?_, ?_, old.range⟩,
    (hs.rows.sub paid).resupply token _, fun code st' token' => ?_⟩
  · simp only
    omega
  · have := old.capped
    simp only
    omega
  · rw [circulating_sub paid]
    obtain ⟨rfl, rfl⟩ | ⟨other, before⟩ := Table.of_lookup_insert token'
    · rw [if_pos rfl, hs.sums _ _ token]
    · rw [if_neg (Ne.symm other), sub_zero]
      exact hs.sums code st' before

theorem Conserved.ledger (hs : Conserved s) {action : Action} (h : action.apply k c s = .ok s') :
    Conserved s' := by
  cases action with
  | create issuer maximumSupply => exact hs.create h
  | issue target quantity memo => exact hs.issue h
  | transfer source target quantity memo => exact hs.transfer h

theorem burn_ok (h : Everipediaiq.burn c s source quantity memo = .ok s') :
    ∃ st, s.stats.lookup quantity.symbol.code = some st ∧ 0 < quantity.amount ∧
      quantity.amount ≤ Asset.maxAmount ∧ quantity.symbol = st.supply.symbol ∧
      destroy Everipediaiq.contract s st source quantity = .ok s' := by
  simp only [Everipediaiq.burn, Ctx.requireAuth_eq_ok, bind_eq_ok, require_eq_ok, find_eq_ok,
    exists_const, Asset.isValid, Asset.isAmountWithinRange, Bool.and_eq_true,
    decide_eq_true_eq] at h
  obtain ⟨-, -, -, st, token, ⟨range, -⟩, positive, same, done⟩ := h
  exact ⟨st, token, positive, range.2, same, done⟩

theorem Conserved.everipediaiq (hs : Conserved s) {action : Everipediaiq.Action}
    (h : Everipediaiq.apply c s action = .ok s') : Conserved s' := by
  cases action with
  | ledger action => exact hs.ledger h
  | burn source quantity memo =>
    obtain ⟨st, token, positive, -, -, done⟩ := burn_ok h
    exact hs.destroy token positive done

theorem Conserved.retire (hs : Conserved s) (h : EosioToken.retire c s quantity memo = .ok s') :
    Conserved s' := by
  simp only [EosioToken.retire, Ctx.requireAuth_eq_ok, bind_eq_ok, require_eq_ok, find_eq_ok,
    exists_const] at h
  obtain ⟨-, -, st, token, -, -, positive, -, done⟩ := h
  exact hs.destroy token positive done

theorem Conserved.openRow (hs : Conserved s) {symbol : Symbol} {ramPayer : Name}
    (h : EosioToken.openRow c s owner symbol ramPayer = .ok s') : Conserved s' := by
  simp only [EosioToken.openRow, Ctx.requireAuth_eq_ok, bind_eq_ok, require_eq_ok, find_eq_ok,
    exists_const] at h
  obtain ⟨-, st, token, same, h⟩ := h
  cases found : s.accounts.lookup (owner, symbol.code) with
  | some balance =>
    simp only [found, pure_eq_ok] at h
    exact h ▸ hs
  | none =>
    simp only [found, bind_eq_ok, Asset.make_eq_ok, pure_eq_ok] at h
    obtain ⟨_, ⟨-, -, rfl⟩, rfl⟩ := h
    refine ⟨hs.stats, Table.All.insert hs.rows ⟨le_refl 0, st, token, same.symm⟩,
      fun code st' token' => ?_⟩
    rw [circulating_insert, balanceOf, Ledger.held_none found, sub_zero, ite_self, add_zero]
    exact hs.sums code st' token'

theorem Conserved.close (hs : Conserved s) {symbol : Symbol}
    (h : EosioToken.close c s owner symbol = .ok s') : Conserved s' := by
  simp only [EosioToken.close, Ctx.requireAuth_eq_ok, bind_eq_ok, require_eq_ok, find_eq_ok,
    pure_eq_ok, exists_const] at h
  obtain ⟨-, balance, found, none, rfl⟩ := h
  refine ⟨hs.stats, Table.All.erase hs.rows _, fun code st token => ?_⟩
  rw [circulating_erase, balanceOf, Ledger.held_some found, none, ite_self, sub_zero]
  exact hs.sums code st token

theorem Conserved.eosioToken (hs : Conserved s) {action : EosioToken.Action}
    (h : EosioToken.apply c s action = .ok s') : Conserved s' := by
  cases action with
  | ledger action => exact hs.ledger h
  | retire quantity memo => exact hs.retire h
  | openRow owner symbol ramPayer => exact hs.openRow h
  | close owner symbol => exact hs.close h

/-! ## Rows that are emptied -/

theorem Occupied.held (ho : Occupied a) (owner : Name) (code : SymbolCode) :
    0 ≤ balanceOf a owner code := by
  cases found : a.lookup (owner, code) with
  | none => rw [balanceOf, Ledger.held_none found]
  | some balance =>
    rw [balanceOf, Ledger.held_some found]
    exact (ho _ _ found).le

theorem Occupied.add (ho : Occupied a) (h : addBalance a owner value = .ok b)
    (positive : 0 < value.amount) : Occupied b := by
  have held := ho.held owner value.symbol.code
  rw [addBalance_ok h]
  refine Table.All.insert ho ?_
  simp only
  omega

theorem Occupied.sub (ho : Occupied a) (h : subBalance .erased a owner value = .ok b) :
    Occupied b := by
  obtain ⟨balance, -, covered, ⟨-, -, rfl⟩ | ⟨some, rfl⟩⟩ := subBalance_ok h
  · exact Table.All.erase ho _
  · refine Table.All.insert ho ?_
    have part : balance.amount ≠ value.amount := fun all => some ⟨rfl, all⟩
    simp only
    omega

theorem Occupied.transfer (ho : Occupied s.accounts) (erased : k.emptied = .erased)
    (h : Token.transfer k c s source target quantity memo = .ok s') : Occupied s'.accounts := by
  obtain ⟨st, debited, accounts, -, positive, -, -, paid, received, rfl⟩ := transfer_ok h
  rw [erased] at paid
  exact (ho.sub paid).add received positive

theorem Occupied.ledger (ho : Occupied s.accounts) (erased : k.emptied = .erased) {action : Action}
    (h : action.apply k c s = .ok s') : Occupied s'.accounts := by
  cases action with
  | create issuer maximumSupply =>
    obtain ⟨-, -, -, rfl⟩ := create_ok h
    exact ho
  | issue target quantity memo =>
    obtain ⟨st, minted, done, rest⟩ := issue_ok h
    obtain ⟨accounts, positive, -, -, -, received, rfl⟩ := mint_ok done
    rcases rest with ⟨-, rfl⟩ | ⟨-, sent⟩
    · exact ho.add received positive
    · exact Occupied.transfer (ho.add received positive) erased sent
  | transfer source target quantity memo => exact ho.transfer erased h

theorem Occupied.everipediaiq (ho : Occupied s.accounts) {action : Everipediaiq.Action}
    (h : Everipediaiq.apply c s action = .ok s') : Occupied s'.accounts := by
  cases action with
  | ledger action => exact ho.ledger rfl h
  | burn source quantity memo =>
    obtain ⟨st, -, -, -, -, done⟩ := burn_ok h
    obtain ⟨accounts, paid, rfl⟩ := destroy_ok done
    exact ho.sub paid

/-! ## Additions in range -/

/-- A failure other than an addition of assets out of their range. -/
@[simp] def Unspilled (e : String) : Prop := e ≠ "addition underflow" ∧ e ≠ "addition overflow"

theorem addBalance_unspilled (lo : 0 ≤ balanceOf a owner value.symbol.code + value.amount)
    (hi : balanceOf a owner value.symbol.code + value.amount ≤ Asset.maxAmount) :
    FailsOnly Unspilled (addBalance a owner value) := by
  unfold addBalance
  cases found : a.lookup (owner, value.symbol.code) with
  | none => simp
  | some balance =>
    rw [balanceOf, Ledger.held_some found] at lo hi
    have above : -Asset.maxAmount ≤ balance.amount + value.amount :=
      le_trans (neg_nonpos.mpr Asset.maxAmount_nonneg) lo
    simp [Asset.add, above, hi]

@[simp] theorem subBalance_unspilled : FailsOnly Unspilled (subBalance emptied a owner value) := by
  simp [subBalance, Asset.sub]

@[simp] theorem requireAuth_unspilled (account : Name) :
    FailsOnly Unspilled (c.requireAuth account) := by
  simp [Ctx.requireAuth]

theorem create_unspilled {issuer : Name} {maximumSupply : Asset}
    (text : Unspilled k.supplyMessage) :
    FailsOnly Unspilled (create k c s issuer maximumSupply) := by
  unfold Unspilled at text
  simp [create, text]

/-- A balance that grows in a transfer is, with the amount, part of the supply. -/
theorem transfer_unspilled (hs : Conserved s) :
    FailsOnly Unspilled (transfer k c s source target quantity memo) := by
  simp only [transfer, ne_eq, bind_pure_comp, failsOnly_bind, failsOnly_require, Unspilled,
    String.reduceEq, not_false_eq_true, and_self, or_true, ExceptT.stM_eq, require_eq_ok,
    requireAuth_unspilled, Ctx.requireAuth_eq_ok, failsOnly_find, find_eq_ok, subBalance_unspilled,
    failsOnly_map, true_and, forall_const]
  intro _ _ _ st token _ positive _ _ debited paid
  have rows := hs.rows.sub paid
  have held := rows.held target quantity.symbol.code
  have part := rows.held_le target quantity.symbol.code
  have sound := hs.stats _ _ token
  rw [circulating_sub paid, if_pos rfl, hs.sums _ _ token] at part
  have capped := sound.capped
  have range := sound.range
  exact addBalance_unspilled (by omega) (by omega)

theorem mint_unspilled (hs : Conserved s) : FailsOnly Unspilled (mint c s quantity memo) := by
  simp only [mint, bind_pure_comp, failsOnly_bind, failsOnly_require, Unspilled, ne_eq,
    String.reduceEq, not_false_eq_true, and_self, or_true, ExceptT.stM_eq, require_eq_ok,
    failsOnly_find, find_eq_ok, requireAuth_unspilled, Ctx.requireAuth_eq_ok, Asset.add_eq_ok,
    failsOnly_map, and_imp, forall_const, true_and]
  intro _ _ st token _ _ positive _ capped
  have sound := hs.stats _ _ token
  have nonneg := sound.nonneg
  have range := sound.range
  refine ⟨?_, fun _ _ _ _ _ => ?_⟩
  · have above : -Asset.maxAmount ≤ st.supply.amount + quantity.amount := by omega
    have below : st.supply.amount + quantity.amount ≤ Asset.maxAmount := by omega
    simp [Asset.add, above, below]
  · have held := hs.rows.held st.issuer quantity.symbol.code
    have part := hs.rows.held_le st.issuer quantity.symbol.code
    rw [hs.sums _ _ token] at part
    exact addBalance_unspilled (by omega) (by omega)

theorem issue_unspilled (hs : Conserved s) :
    FailsOnly Unspilled (issue k c s target quantity memo) := by
  refine .bind (mint_unspilled hs) fun ⟨st, minted⟩ done =>
    failsOnly_ite.mpr ⟨fun _ => ?_, fun _ => ?_⟩
  · exact failsOnly_pure _
  · exact transfer_unspilled (hs.mint done)

theorem ledger_unspilled (hs : Conserved s) (text : Unspilled k.supplyMessage) (action : Action) :
    FailsOnly Unspilled (action.apply k c s) := by
  cases action with
  | create issuer maximumSupply => exact create_unspilled text
  | issue target quantity memo => exact issue_unspilled hs
  | transfer source target quantity memo => exact transfer_unspilled hs

theorem everipediaiq_unspilled (hs : Conserved s) (action : Everipediaiq.Action) :
    FailsOnly Unspilled (Everipediaiq.apply c s action) := by
  cases action with
  | ledger action => exact ledger_unspilled hs (by simp [Everipediaiq.contract]) action
  | burn source quantity memo =>
    simp [Everipediaiq.apply, Everipediaiq.burn, destroy, Asset.sub]

/-! ## Every run -/

/-- The supply of every token is the sum of its balances and between zero and
the maximum, every row is positive, and no addition is ever out of range. -/
structure Lawful {A : Type} (apply : Ctx → State → A → Checked State) (s : State) : Prop where
  conserved : Conserved s
  occupied : Occupied s.accounts
  unspilled : ∀ c a, FailsOnly Unspilled (apply c s a)

section

variable {A : Type} {apply : Ctx → State → A → Checked State} {P : State → Prop}

theorem step_keeps (kept : ∀ c s a s', P s → apply c s a = .ok s' → P s') (self : Name)
    (call : Call A) (hs : P s) : P (step apply self s call) := by
  unfold step
  split
  · rename_i s' done
    exact kept _ _ _ _ hs done
  · exact hs

/-- What every call keeps holds after every run. -/
theorem reached (start : P State.empty) (kept : ∀ c s a s', P s → apply c s a = .ok s' → P s')
    (self : Name) (calls : List (Call A)) : P (after apply self calls) :=
  run_invariant (fun _ call hs _ => step_keeps kept self call hs) start (along_true _ calls)

end

/-- The supply of `eosio.token`'s tokens is conserved, though it keeps rows that are emptied. -/
theorem eosioToken_conserved (self : Name) (calls : List (Call EosioToken.Action)) :
    Conserved (after EosioToken.apply self calls) :=
  reached Conserved.empty (fun _ _ _ _ hs done => hs.eosioToken done) self calls

theorem supply_conserved (self : Name) :
    (∀ calls, Lawful Bond.apply (after Bond.apply self calls)) ∧
      ∀ calls, Lawful Everipediaiq.apply (after Everipediaiq.apply self calls) := by
  constructor
  · intro calls
    obtain ⟨conserved, occupied⟩ : Conserved (after Bond.apply self calls) ∧
        Occupied (after Bond.apply self calls).accounts :=
      reached (P := fun s => Conserved s ∧ Occupied s.accounts) ⟨Conserved.empty, Table.All.empty _⟩
      (fun _ _ _ _ hs done => ⟨hs.1.ledger done, hs.2.ledger rfl done⟩) self calls
    exact ⟨conserved, occupied, fun c a => ledger_unspilled conserved (by simp [Bond.contract]) a⟩
  · intro calls
    obtain ⟨conserved, occupied⟩ : Conserved (after Everipediaiq.apply self calls) ∧
        Occupied (after Everipediaiq.apply self calls).accounts :=
      reached (P := fun s => Conserved s ∧ Occupied s.accounts) ⟨Conserved.empty, Table.All.empty _⟩
      (fun _ _ _ _ hs done => ⟨hs.1.everipediaiq done, hs.2.everipediaiq done⟩) self calls
    exact ⟨conserved, occupied, fun c a => everipediaiq_unspilled conserved a⟩

end DecentralBank.Token
