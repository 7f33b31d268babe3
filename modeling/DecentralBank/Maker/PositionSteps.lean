import DecentralBank.Maker.Positions

/-!
# What an owner's action does

One theorem for each action: the checks that it passed and the state it left.
-/

namespace DecentralBank.Maker

variable {c : Ctx} {s s' : State} {owner : Name} {symbl : SymbolCode} {quantity : Asset}

theorem openCdp_ok {ramPayer : Name} (h : openCdp c s owner symbl ramPayer = .ok s') :
    ∃ st fc, s.stats.lookup (c.self, symbl) = some st ∧ st.live = true ∧
      s.feeds.lookup st.totalCollateral.quantity.symbol.code = some fc ∧
      s.cdps.lookup (symbl, owner) = none ∧
      s' = { s with
        cdps := s.cdps.insert (symbl, owner)
          ⟨c.now, ⟨0, st.totalCollateral.quantity.symbol⟩,
            ⟨0, st.totalStablecoin.symbol⟩, true⟩ } := by
  simp only [openCdp, Ctx.requireAuth_eq_ok, Checked.bind_eq_ok, Checked.require_eq_ok,
    Checked.find_eq_ok, Asset.make_eq_ok, Checked.pure_eq_ok, exists_const,
    Option.isNone_iff_eq_none] at h
  obtain ⟨-, -, st, found, live, fc, feed, -, fresh, _, ⟨-, -, rfl⟩, _, ⟨-, -, rfl⟩, rfl⟩ := h
  exact ⟨st, fc, found, live, feed, fresh, rfl⟩

theorem bail_ok (h : bail c s owner symbl quantity = .ok s') :
    ∃ st it fc amt accounts, owner ∈ c.auth ∧ 0 < quantity.amount ∧
      s.stats.lookup (c.self, symbl) = some st ∧
      quantity.symbol = st.totalCollateral.quantity.symbol ∧
      s.cdps.lookup (symbl, owner) = some it ∧ it.live = true ∧
      it.collateral.symbol = quantity.symbol ∧ quantity.amount < it.collateral.amount ∧
      s.feeds.lookup quantity.symbol.code = some fc ∧
      bailRatio st fc it quantity = .ok amt ∧ st.liquid8Ratio ≤ amt ∧
      Moved s.accounts [credit owner quantity st.totalCollateral.contract] accounts ∧
      s' = { s with
        accounts
        cdps := s.cdps.insert (symbl, owner) { it with
          collateral := ⟨it.collateral.amount - quantity.amount, it.collateral.symbol⟩ }
        stats := s.stats.insert (c.self, symbl) { st with
          totalCollateral := { st.totalCollateral with quantity :=
            ⟨st.totalCollateral.quantity.amount - quantity.amount,
              st.totalCollateral.quantity.symbol⟩ } }
        feeds := s.feeds.insert quantity.symbol.code
          { fc with total := ⟨fc.total.amount + quantity.amount, fc.total.symbol⟩ } } := by
  simp only [bail, Ctx.requireAuth_eq_ok, Checked.bind_eq_ok, Checked.require_eq_ok,
    Checked.find_eq_ok, Asset.gt_eq_ok, Asset.add_eq_ok, Asset.sub_eq_ok, Checked.pure_eq_ok,
    exists_const] at h
  obtain ⟨auth, -, -, positive, st, type, symbol, it, found, live, more, ⟨same, rfl⟩,
    less, fc, feed, -, amt, ratio, above, accounts, paid, _, ⟨-, -, -, rfl⟩, _, ⟨-, -, -, rfl⟩, _,
    ⟨-, -, -, rfl⟩, rfl⟩ := h
  exact ⟨st, it, fc, amt, accounts, auth, positive, type, symbol, found, live, same,
    of_decide_eq_true less, feed, ratio, above, addBalance_moved paid, rfl⟩

theorem draw_ok (h : draw c s owner symbl quantity = .ok s') :
    ∃ st it fc liq fs accounts, owner ∈ c.auth ∧ 0 < quantity.amount ∧
      s.stats.lookup (c.self, symbl) = some st ∧
      quantity.symbol = st.totalStablecoin.symbol ∧
      s.cdps.lookup (symbl, owner) = some it ∧ it.live = true ∧
      it.stablecoin.symbol = quantity.symbol ∧
      it.stablecoin.amount + quantity.amount ≤ Asset.maxAmount ∧
      s.feeds.lookup it.collateral.symbol.code = some fc ∧
      drawRatio fc it (u64 (it.stablecoin.amount + quantity.amount)) = .ok liq ∧
      st.liquid8Ratio ≤ liq ∧
      s.feeds.lookup quantity.symbol.code = some fs ∧
      Moved s.accounts [credit owner quantity c.self] accounts ∧
      s' = { s with
        accounts
        cdps := s.cdps.insert (symbl, owner) { it with
          stablecoin := ⟨it.stablecoin.amount + quantity.amount, it.stablecoin.symbol⟩ }
        stats := s.stats.insert (c.self, symbl) { st with
          totalStablecoin :=
            ⟨st.totalStablecoin.amount + quantity.amount, st.totalStablecoin.symbol⟩ }
        feeds := s.feeds.insert quantity.symbol.code
          { fs with total := ⟨fs.total.amount + quantity.amount, fs.total.symbol⟩ } } := by
  simp only [draw, Ctx.requireAuth_eq_ok, Checked.bind_eq_ok, Checked.require_eq_ok,
    Checked.find_eq_ok, Asset.add_eq_ok, Checked.pure_eq_ok, exists_const] at h
  obtain ⟨auth, -, -, positive, st, type, symbol, -, it, found, live, -, -, fc, feed, -, liq, ratio,
    above, fs, stable, accounts, paid, _, ⟨same, -, small, rfl⟩, _, ⟨-, -, -, rfl⟩, _,
    ⟨-, -, -, rfl⟩, rfl⟩ := h
  exact ⟨st, it, fc, liq, fs, accounts, auth, positive, type, symbol, found, live, same.symm, small,
    feed, ratio, above, stable, addBalance_moved paid, rfl⟩

theorem wipe_ok (h : wipe c s owner symbl quantity = .ok s') :
    ∃ st it fv apr feePaid feeCode code fs accounts, owner ∈ c.auth ∧ 0 < quantity.amount ∧
      s.stats.lookup (c.self, symbl) = some st ∧
      quantity.symbol = st.totalStablecoin.symbol ∧
      s.cdps.lookup (symbl, owner) = some it ∧ it.live = true ∧
      it.stablecoin.symbol = quantity.symbol ∧ quantity.amount < it.stablecoin.amount ∧
      s.feeds.lookup IQ_SYMBOL.code = some fv ∧
      stabilityFee st (c.since it.created) quantity fv.price = .ok apr ∧
      subBalance s.accounts owner ⟨i64 apr, IQ_SYMBOL⟩ = .ok (feePaid, feeCode) ∧
      subBalance feePaid owner quantity = .ok (accounts, code) ∧
      s.feeds.lookup quantity.symbol.code = some fs ∧
      s' = { s with
        accounts
        cdps := s.cdps.insert (symbl, owner) { it with
          stablecoin := ⟨it.stablecoin.amount - quantity.amount, it.stablecoin.symbol⟩ }
        stats := s.stats.insert (c.self, symbl) { st with
          feeBalance := ⟨st.feeBalance.amount + i64 apr, st.feeBalance.symbol⟩
          totalStablecoin :=
            ⟨st.totalStablecoin.amount - quantity.amount, st.totalStablecoin.symbol⟩ }
        feeds := s.feeds.insert quantity.symbol.code
          { fs with total := ⟨fs.total.amount - quantity.amount, fs.total.symbol⟩ } } := by
  simp only [wipe, Ctx.requireAuth_eq_ok, Checked.bind_eq_ok, Checked.require_eq_ok,
    Checked.find_eq_ok, Asset.make_eq_ok, Asset.gt_eq_ok, Asset.add_eq_ok, Asset.sub_eq_ok,
    Checked.pure_eq_ok, exists_const, Prod.exists] at h
  obtain ⟨auth, -, -, positive, st, type, symbol, it, found, live, more, ⟨same, less⟩,
    owed, fv, price, apr, accrued, due, ⟨-, -, charge⟩, feePaid, feeCode, fee, accounts, code,
    paid, booked⟩ := h
  obtain ⟨feeBalance, ⟨-, -, -, fees⟩, totalStablecoin, ⟨-, -, -, debts⟩, stablecoin,
    ⟨-, -, -, debt⟩, fs, feed, total, ⟨-, -, -, circulates⟩, written⟩ := booked
  subst less charge fees debts debt circulates written
  exact ⟨st, it, fv, apr, feePaid, feeCode, code, fs, accounts, auth, positive, type, symbol, found,
    live, same, of_decide_eq_true owed, price, accrued, fee, paid, feed, rfl⟩

theorem lock_ok (h : lock c s owner symbl quantity = .ok s') :
    ∃ st it fc accounts, owner ∈ c.auth ∧ 0 < quantity.amount ∧
      s.stats.lookup (c.self, symbl) = some st ∧
      quantity.symbol = st.totalCollateral.quantity.symbol ∧
      s.cdps.lookup (symbl, owner) = some it ∧ it.live = true ∧
      it.collateral.symbol = quantity.symbol ∧
      subBalance s.accounts owner quantity = .ok (accounts, st.totalCollateral.contract) ∧
      it.collateral.amount + quantity.amount ≤ Asset.maxAmount ∧
      s.feeds.lookup quantity.symbol.code = some fc ∧
      s' = { s with
        accounts
        cdps := s.cdps.insert (symbl, owner) { it with
          collateral := ⟨it.collateral.amount + quantity.amount, it.collateral.symbol⟩ }
        stats := s.stats.insert (c.self, symbl) { st with
          totalCollateral := { st.totalCollateral with quantity :=
            ⟨st.totalCollateral.quantity.amount + quantity.amount,
              st.totalCollateral.quantity.symbol⟩ } }
        feeds := s.feeds.insert quantity.symbol.code
          { fc with total := ⟨fc.total.amount - quantity.amount, fc.total.symbol⟩ } } := by
  simp only [lock, Ctx.requireAuth_eq_ok, Checked.bind_eq_ok, Checked.require_eq_ok,
    Checked.find_eq_ok, Asset.add_eq_ok, Asset.sub_eq_ok, Checked.pure_eq_ok, exists_const,
    Prod.exists] at h
  obtain ⟨auth, -, -, positive, st, type, -, symbol, it, found, live, accounts, code, paid, rfl, _,
    ⟨-, -, -, rfl⟩, _, ⟨same, -, small, rfl⟩, fc, feed, _, ⟨-, -, -, rfl⟩, rfl⟩ := h
  exact ⟨st, it, fc, accounts, auth, positive, type, symbol.symm, found, live,
    same.symm, paid, small, feed, rfl⟩

/-- Paying a live CDP's debt in `shut`. -/
theorem shutDebt_ok {a b : Accounts} {st : Stat} {it : Cdp} {stable : Asset}
    (h : shutDebt a owner st it = .ok (b, stable)) :
    (∃ code, 0 < it.stablecoin.amount ∧ subBalance a owner it.stablecoin = .ok (b, code) ∧
      it.stablecoin.symbol = st.totalStablecoin.symbol ∧
      stable = ⟨st.totalStablecoin.amount - it.stablecoin.amount, st.totalStablecoin.symbol⟩) ∨
    (it.stablecoin.amount ≤ 0 ∧ b = a ∧ stable = st.totalStablecoin) := by
  simp only [shutDebt, Checked.ite_eq_ok, Checked.bind_eq_ok, Asset.sub_eq_ok, Checked.pure_eq_ok,
    Prod.exists, Prod.mk.injEq, Int.not_lt] at h
  rcases h with ⟨positive, _, code, paid, _, ⟨same, -, -, rfl⟩, rfl, rfl⟩ | ⟨zero, rfl, rfl⟩
  · exact Or.inl ⟨code, positive, paid, same, rfl⟩
  · exact Or.inr ⟨zero, rfl, rfl⟩

theorem shutCollateral_ok {a b : Accounts} {st : Stat} {it : Cdp} {locked : Asset}
    (h : shutCollateral a owner st it = .ok (b, locked)) :
    (0 < it.collateral.amount ∧ Moved a [credit owner it.collateral st.totalCollateral.contract] b ∧
      it.collateral.symbol = st.totalCollateral.quantity.symbol ∧
      locked = ⟨st.totalCollateral.quantity.amount + it.collateral.amount,
        st.totalCollateral.quantity.symbol⟩) ∨
    (it.collateral.amount ≤ 0 ∧ b = a ∧ locked = st.totalCollateral.quantity) := by
  simp only [shutCollateral, Checked.ite_eq_ok, Checked.bind_eq_ok, Asset.add_eq_ok,
    Checked.pure_eq_ok, Prod.mk.injEq, Int.not_lt] at h
  rcases h with ⟨positive, _, paid, _, ⟨same, -, -, rfl⟩, rfl, rfl⟩ | ⟨zero, rfl, rfl⟩
  · exact Or.inl ⟨positive, addBalance_moved paid, same, rfl⟩
  · exact Or.inr ⟨zero, rfl, rfl⟩

theorem shut_ok (h : shut c s owner symbl = .ok s') :
    ∃ st it paid stable accounts locked, owner ∈ c.auth ∧
      s.stats.lookup (c.self, symbl) = some st ∧
      s.cdps.lookup (symbl, owner) = some it ∧ it.live = true ∧
      shutDebt s.accounts owner st it = .ok (paid, stable) ∧
      shutCollateral paid owner st it = .ok (accounts, locked) ∧
      s' = { s with
        accounts
        stats := s.stats.insert (c.self, symbl) { st with
          totalStablecoin := stable
          totalCollateral := { st.totalCollateral with quantity := locked } }
        cdps := s.cdps.erase (symbl, owner) } := by
  simp only [shut, Ctx.requireAuth_eq_ok, Checked.bind_eq_ok, Checked.require_eq_ok,
    Checked.find_eq_ok, Checked.pure_eq_ok, exists_const, Prod.exists] at h
  obtain ⟨auth, -, st, type, it, found, live, paid, stable, debt, accounts, locked, back, rfl⟩ := h
  exact ⟨st, it, paid, stable, accounts, locked, auth, type, found, live, debt, back, rfl⟩

theorem settle_ok {feeder : Name} (h : settle c s feeder symbl = .ok s') :
    ∃ st, s.stats.lookup (c.self, symbl) = some st ∧
      s' = { s with stats := s.stats.insert (c.self, symbl) { st with live := false } } := by
  simp only [settle, Ctx.requireAuth_eq_ok, Checked.bind_eq_ok, Checked.require_eq_ok,
    Checked.find_eq_ok, Checked.pure_eq_ok, exists_const] at h
  obtain ⟨-, -, st, found, -, -, _, -, _, -, -, rfl⟩ := h
  exact ⟨st, found, rfl⟩

end DecentralBank.Maker
