import DecentralBank.Maker.Custody

/-! # What a deposit, a withdrawal and a price update do -/

namespace DecentralBank.Maker

variable {c : Ctx} {s s' : State} {owner : Name} {symbl : SymbolCode} {quantity : Asset}

/-- The row a price update leaves: a first price is stored, and both factors of
the average are zero as integers, so every later one leaves the price zero. -/
def fed (c : Ctx) (price : Asset) (symbl : Symbol) : Option Feed → Feed
  | some f => { f with price := ⟨0, f.price.symbol⟩, stamp := c.now }
  | none => ⟨⟨0, symbl⟩, price, c.now⟩

theorem upfeed_ok {feeder : Name} {price : Asset} {cdpType : SymbolCode} {symbol : Symbol}
    (h : upfeed c s feeder price cdpType symbol = .ok s') :
    0 < price.amount ∧
      s' = { s with
        feeds :=
          s.feeds.insert symbol.code (fed c price symbol (s.feeds.lookup symbol.code)) } := by
  have smoothed (p q : Int) : i64 (i64 (p * (17 / 20)) + i64 (3 / 20 * q)) = 0 := by
    norm_num [i64]
  unfold upfeed at h
  cases stored : s.feeds.lookup symbol.code with
  | none =>
    simp only [stored, Ctx.requireAuth_eq_ok, Checked.bind_eq_ok, Checked.require_eq_ok,
      exists_const] at h
    obtain ⟨-, -, -, positive, h⟩ := h
    split at h
    · simp only [Checked.bind_eq_ok, Checked.find_eq_ok, Checked.require_eq_ok, Checked.pure_eq_ok,
        Asset.make_eq_ok, exists_const] at h
      obtain ⟨-, -, -, -, -, _, ⟨-, -, rfl⟩, rfl⟩ := h
      exact ⟨positive, rfl⟩
    · simp only [Checked.bind_eq_ok, Checked.pure_eq_ok, Asset.make_eq_ok] at h
      obtain ⟨_, ⟨-, -, rfl⟩, rfl⟩ := h
      exact ⟨positive, rfl⟩
  | some f =>
    simp only [stored, Ctx.requireAuth_eq_ok, Checked.bind_eq_ok, Checked.require_eq_ok,
      smoothed, exists_const] at h
    obtain ⟨-, -, -, positive, h⟩ := h
    split at h
    · simp only [Checked.bind_eq_ok, Checked.find_eq_ok, Checked.require_eq_ok, Checked.pure_eq_ok,
        exists_const] at h
      obtain ⟨-, -, -, -, -, rfl⟩ := h
      exact ⟨positive, rfl⟩
    · simp only [Checked.pure_eq_ok] at h
      exact ⟨positive, h.symm⟩

theorem upfeed_valid {feeder : Name} {price : Asset} {cdpType : SymbolCode} {symbol : Symbol}
    (h : upfeed c s feeder price cdpType symbol = .ok s') :
    price.amount ≤ Asset.maxAmount ∧ price.symbol.isValid = true := by
  simp only [upfeed, Ctx.requireAuth_eq_ok, Checked.bind_eq_ok, Checked.require_eq_ok,
    exists_const] at h
  obtain ⟨-, valid, -⟩ := h
  simp only [Asset.isValid, Asset.isAmountWithinRange, Bool.and_eq_true, decide_eq_true_eq] at valid
  exact ⟨valid.1.2, valid.2⟩

theorem deposit_ok {code source target : Name} {memo : List UInt8}
    (h : deposit c code s source target quantity memo = .ok s') :
    source ∈ c.auth ∧ 0 < quantity.amount ∧
      ((source = c.self ∧ s' = s) ∨
        ∃ fc accounts, source ≠ c.self ∧ (quantity.symbol = IQ_SYMBOL → code = IQ_NAME) ∧
          s.feeds.lookup quantity.symbol.code = some fc ∧
          Moved s.accounts [credit source quantity code] accounts ∧
          s' = { s with
            accounts
            feeds := s.feeds.insert quantity.symbol.code
              { fc with total := ⟨fc.total.amount + quantity.amount, fc.total.symbol⟩ } }) := by
  simp only [deposit, Ctx.requireAuth_eq_ok, Checked.bind_eq_ok, Checked.require_eq_ok,
    Checked.ite_eq_ok, Checked.find_eq_ok, Asset.add_eq_ok, Checked.pure_eq_ok, exists_const] at h
  obtain ⟨auth, -, positive, -, ⟨own, rfl⟩ |
    ⟨other, -, genuine, accounts, paid, fc, feed, _, ⟨-, -, -, rfl⟩, rfl⟩⟩ := h
  · exact ⟨auth, positive, Or.inl ⟨own, rfl⟩⟩
  · exact ⟨auth, positive, Or.inr ⟨fc, accounts, other, genuine, feed, addBalance_moved paid, rfl⟩⟩

theorem withdraw_ok {memo : List UInt8} (h : withdraw c s owner quantity memo = .ok s') :
    ∃ paid code fc accounts, owner ∈ c.auth ∧
      withdrawal s owner quantity = .ok paid ∧
      subBalance s.accounts owner paid = .ok (accounts, code) ∧ code ≠ c.self ∧
      s.feeds.lookup paid.symbol.code = some fc ∧
      s' = { s with
        accounts
        sent := ⟨code, owner, paid, memo⟩ :: s.sent
        feeds := s.feeds.insert paid.symbol.code
          { fc with total := ⟨fc.total.amount - paid.amount, fc.total.symbol⟩ } } := by
  simp only [withdraw, Ctx.requireAuth_eq_ok, Checked.bind_eq_ok, Checked.require_eq_ok,
    Checked.find_eq_ok, Asset.sub_eq_ok, Checked.pure_eq_ok, exists_const, Prod.exists] at h
  obtain ⟨auth, -, -, -, paid, amount, accounts, code, debited, ⟨-, foreign⟩, fc, feed, _,
    ⟨-, -, -, rfl⟩, rfl⟩ := h
  exact ⟨paid, code, fc, accounts, auth, amount, debited, foreign, feed, rfl⟩

theorem close_ok (h : close c s owner symbl = .ok s') :
    ∃ it, owner ∈ c.auth ∧ s.accounts.lookup (symbl, owner) = some it ∧ it.balance.amount = 0 ∧
      s' = { s with accounts := s.accounts.erase (symbl, owner) } := by
  simp only [close, Ctx.requireAuth_eq_ok, Checked.bind_eq_ok, Checked.require_eq_ok,
    Checked.find_eq_ok, Checked.pure_eq_ok, exists_const] at h
  obtain ⟨auth, it, found, zero, rfl⟩ := h
  exact ⟨it, auth, found, zero, rfl⟩

end DecentralBank.Maker
