import DecentralBank.Maker.Referendum

/-! # What a proposal, a vote and a referendum do -/

namespace DecentralBank.Maker

variable {c : Ctx} {s s' : State} {symbl : SymbolCode}

theorem schedule_ok {proposer : Name} (h : schedule c s proposer symbl = .ok s') :
    s.deferred.lookup (txid c proposer) = none ∧
      s' = { s with
        deferred := s.deferred.insert (txid c proposer)
          ⟨proposer, symbl, c.clock + VOTE_PERIOD⟩ } := by
  simp only [schedule, Checked.bind_eq_ok, Checked.require_eq_ok, Checked.pure_eq_ok, exists_const,
    Option.isNone_iff_eq_none] at h
  exact ⟨h.1, h.2.symm⟩

/-- The row filed for admitted terms. -/
def Terms.draft (t : Terms) : Stat where
  live := false
  lastVote := 0
  tau := t.tau
  ttl := t.ttl
  feeder := t.feeder
  globalCeil := t.gmax
  debtCeiling := t.max
  stabilityFee := t.fee
  beg := t.beg
  penaltyRatio := t.pen
  liquid8Ratio := t.liq
  feeBalance := ⟨0, IQ_SYMBOL⟩
  totalStablecoin := ⟨0, ⟨t.stabl, 2⟩⟩
  totalCollateral := ⟨⟨0, t.clatrl⟩, t.contract⟩

theorem fileTerms_ok {proposer : Name} {t : Terms} {stats : Table (Name × SymbolCode) Stat}
    (h : fileTerms c s proposer symbl t = .ok stats) :
    (t.tau = 0 ∧ t.ttl = 0 ∧ stats = s.stats ∧
      ∃ st, s.stats.lookup (c.self, symbl) = some st ∧ proposer = st.feeder) ∨
    (t.admitted = true ∧ stats = s.stats.insert (proposer, symbl) t.draft) := by
  simp only [fileTerms, Checked.ite_eq_ok, Checked.bind_eq_ok, Checked.find_eq_ok,
    Checked.require_eq_ok, Checked.pure_eq_ok, exists_const, Maker.draft, Asset.make_eq_ok] at h
  rcases h with ⟨⟨tau, ttl⟩, st, found, feeder, rfl⟩ |
    ⟨-, admitted, _, ⟨_, ⟨-, -, rfl⟩, _, ⟨-, -, rfl⟩, _, ⟨-, -, rfl⟩, rfl⟩, rfl⟩
  · exact Or.inl ⟨tau, ttl, rfl, st, found, feeder⟩
  · exact Or.inr ⟨admitted, rfl⟩

theorem propose_ok {proposer : Name} {t : Terms} (h : propose c s proposer symbl t = .ok s') :
    ∃ stats, proposer ∈ c.auth ∧ s.props.lookup symbl = none ∧
      s.stats.lookup (proposer, symbl) = none ∧ s.feeds.lookup symbl = none ∧
      (s.feeds.lookup t.stabl).isSome = true ∧
      fileTerms c s proposer symbl t = .ok stats ∧
      s.deferred.lookup (txid c proposer) = none ∧
      s' = { s with
        stats
        props := s.props.insert symbl
          ⟨u32 (c.now + VOTE_PERIOD), proposer, ⟨0, IQ_SYMBOL⟩, ⟨0, IQ_SYMBOL⟩⟩
        deferred := s.deferred.insert (txid c proposer)
          ⟨proposer, symbl, c.clock + VOTE_PERIOD⟩ } := by
  simp only [propose, Ctx.requireAuth_eq_ok, Checked.bind_eq_ok, Checked.require_eq_ok,
    Asset.make_eq_ok, exists_const, Option.isNone_iff_eq_none] at h
  obtain ⟨auth, -, -, -, session, claimed, feed, stable, stats, filed, _, ⟨-, -, rfl⟩, sent⟩ := h
  obtain ⟨pending, rfl⟩ := schedule_ok sent
  exact ⟨stats, auth, session, claimed, feed, stable, filed, pending, rfl⟩

/-- The row in the voter's name that takes the vote, and its tag. -/
theorem escrow_ok {a b : Accounts} {voter : Name} {amount : Int}
    (h : escrow a voter symbl amount = .ok b) :
    ∃ code, Moved a [⟨(symbl, voter), (⟨symbl, 3⟩, code), amount⟩] b ∧
      (a.lookup (symbl, voter) = none ∧ code = NO_NAME ∨
        ∃ row, a.lookup (symbl, voter) = some row ∧ row.label = (⟨symbl, 3⟩, code)) := by
  simp only [escrow, Checked.bind_eq_ok, Asset.make_eq_ok] at h
  obtain ⟨_, ⟨-, -, rfl⟩, h⟩ := h
  cases found : a.lookup (symbl, voter) with
  | none =>
    simp only [found, Checked.pure_eq_ok] at h
    subst h
    refine ⟨NO_NAME, Ledger.Posted.single (fun u hu => ?_) rfl ?_, Or.inl ⟨rfl, rfl⟩⟩
    · cases found.symm.trans hu
    · rw [Ledger.held_none found]
      simp only [Account.amount, Int.zero_add]
  | some row =>
    simp only [found, Checked.bind_eq_ok, Asset.add_eq_ok, Checked.pure_eq_ok] at h
    obtain ⟨_, ⟨same, -, -, rfl⟩, rfl⟩ := h
    have label : row.label = (⟨symbl, 3⟩, row.code) := by rw [Account.label, ← same]
    refine ⟨row.code, Ledger.Posted.single ?_ label ?_, Or.inr ⟨row, rfl, label⟩⟩
    · intro u hu
      cases found.symm.trans hu
      exact label
    · rw [Ledger.held_some found]
      rfl

theorem countVote_ok {prop counted : Proposal} {against : Bool} {quantity : Asset}
    (h : countVote prop against quantity = .ok counted) :
    counted.yay.amount + counted.nay.amount =
        prop.yay.amount + prop.nay.amount + quantity.amount ∧
      counted.yay.symbol = prop.yay.symbol ∧ counted.nay.symbol = prop.nay.symbol := by
  simp only [countVote, Checked.ite_eq_ok, Checked.bind_eq_ok, Asset.add_eq_ok,
    Checked.pure_eq_ok] at h
  rcases h with ⟨-, _, ⟨-, -, -, rfl⟩, rfl⟩ | ⟨-, _, ⟨-, -, -, rfl⟩, rfl⟩
  · exact ⟨by dsimp only; omega, rfl, rfl⟩
  · exact ⟨by dsimp only; omega, rfl, rfl⟩

theorem vote_ok {voter : Name} {against : Bool} {quantity : Asset}
    (h : vote c s voter symbl against quantity = .ok s') :
    ∃ prop paid code accounts counted, voter ∈ c.auth ∧ 0 < quantity.amount ∧
      quantity.symbol = IQ_SYMBOL ∧ s.props.lookup symbl = some prop ∧
      subBalance s.accounts voter quantity = .ok (paid, code) ∧
      escrow paid voter symbl quantity.amount = .ok accounts ∧
      countVote prop against quantity = .ok counted ∧
      s' = { s with accounts, props := s.props.insert symbl counted } := by
  simp only [vote, Ctx.requireAuth_eq_ok, Checked.bind_eq_ok, Checked.require_eq_ok,
    Checked.find_eq_ok, Checked.pure_eq_ok, exists_const, Prod.exists] at h
  obtain ⟨auth, -, ⟨-, positive⟩, iq, prop, session, paid, code, debited, accounts,
    escrowed, counted, count, rfl⟩ := h
  exact ⟨prop, paid, code, accounts, counted, auth, positive, iq, session, debited, escrowed, count,
    rfl⟩

/-- Enacting writes one row: an existing type keeps its totals, a new one
starts with the proposed row. -/
theorem enact_ok {stats stats' : Table (Name × SymbolCode) Stat} {pstat : Option Stat}
    (h : enact c stats symbl pstat = .ok stats') :
    ∃ new, stats' = stats.insert (c.self, symbl) new ∧
      ((∃ st, stats.lookup (c.self, symbl) = some st ∧
          new.totalStablecoin = st.totalStablecoin ∧ new.totalCollateral = st.totalCollateral ∧
          new.feeBalance = st.feeBalance ∧
          (new.liquid8Ratio = st.liquid8Ratio ∨
            ∃ p, pstat = some p ∧ new.liquid8Ratio = p.liquid8Ratio)) ∨
        (stats.lookup (c.self, symbl) = none ∧
          ∃ p, pstat = some p ∧ new = { p with live := true, lastVote := c.now })) := by
  unfold enact at h
  cases pstat with
  | none =>
    cases found : stats.lookup (c.self, symbl) with
    | none => simp only [found, reduceCtorEq] at h
    | some st =>
      simp only [found, Checked.pure_eq_ok] at h
      exact ⟨_, h.symm, Or.inl ⟨st, rfl, rfl, rfl, rfl, Or.inl rfl⟩⟩
  | some p =>
    cases found : stats.lookup (c.self, symbl) with
    | none =>
      simp only [found, Checked.pure_eq_ok] at h
      exact ⟨_, h.symm, Or.inr ⟨rfl, p, rfl, rfl⟩⟩
    | some st =>
      simp only [found, Checked.pure_eq_ok] at h
      exact ⟨_, h.symm, Or.inl ⟨st, rfl, rfl, rfl, rfl, Or.inr ⟨p, rfl, rfl⟩⟩⟩

/-- A referendum either meets a tie and is scheduled anew, or is decided. -/
theorem referended_ok {proposer : Name} (h : referended c s proposer symbl = .ok s') :
    c.self ∈ c.auth ∧ ∃ prop, s.props.lookup symbl = some prop ∧ prop.deadline ≤ c.now ∧
      ((prop.yay.amount = prop.nay.amount ∧ s.deferred.lookup (txid c proposer) = none ∧
          s' = { s with
            deferred := s.deferred.insert (txid c proposer)
              ⟨proposer, symbl, c.clock + VOTE_PERIOD⟩ }) ∨
        ∃ stats accounts, prop.yay.amount ≠ prop.nay.amount ∧
          ((prop.nay.amount < prop.yay.amount ∧
              enact c s.stats symbl (s.stats.lookup (proposer, symbl)) = .ok stats) ∨
            (prop.yay.amount < prop.nay.amount ∧ stats = s.stats)) ∧
          refundVotes s.accounts symbl = .ok accounts ∧
          s' = { s with
            accounts
            stats := if (s.stats.lookup (proposer, symbl)).isSome
              then stats.erase (proposer, symbl) else stats
            props := s.props.erase symbl }) := by
  simp only [referended, Ctx.requireAuth_eq_ok, Checked.bind_eq_ok, Checked.require_eq_ok,
    Checked.find_eq_ok, Asset.eq_eq_ok, Asset.gt_eq_ok, Checked.ite_eq_ok, outcome,
    Checked.pure_eq_ok, exists_const] at h
  obtain ⟨auth, -, prop, session, due, _, ⟨-, rfl⟩, ⟨tie, sent⟩ |
    ⟨split, _, ⟨-, rfl⟩, stats, result, accounts, refunded, rfl⟩⟩ := h
  · obtain ⟨pending, rfl⟩ := schedule_ok sent
    exact ⟨auth, prop, session, due, Or.inl ⟨of_decide_eq_true tie, pending, rfl⟩⟩
  · have untied : prop.yay.amount ≠ prop.nay.amount := by simpa using split
    refine ⟨auth, prop, session, due, Or.inr ⟨stats, accounts, untied, ?_, refunded, rfl⟩⟩
    rcases result with ⟨passed, enacted⟩ | ⟨lost, rfl⟩
    · exact Or.inl ⟨of_decide_eq_true passed, enacted⟩
    · refine Or.inr ⟨?_, rfl⟩
      have := of_decide_eq_false (Bool.not_eq_true _ ▸ lost)
      omega

end DecentralBank.Maker
