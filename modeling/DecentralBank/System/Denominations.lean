import DecentralBank.System.Limits
import DecentralBank.System.Reserves

/-!
# Stake is in core tokens

The rows of stake are in the one token there is, and no refund is of nothing.
-/

namespace DecentralBank.System

open Checked Runs

variable {D : Type} {self : Name} {fp : Doubles D} {c : Ctx D} {s s' : State D} {core : Symbol}
  {net cpu : Asset} {owner receiver source : Name}

/-- The row of a receiver is in core tokens. -/
def UserResources.In (core : Symbol) (row : UserResources) : Prop :=
  row.netWeight.symbol = core ∧ row.cpuWeight.symbol = core

def DelegatedBandwidth.In (core : Symbol) (row : DelegatedBandwidth) : Prop :=
  row.netWeight.symbol = core ∧ row.cpuWeight.symbol = core

/-- The token exists, the rows of stake are in it, and its symbol is valid when there are any. -/
structure Denominated (core : Symbol) (s : State D) : Prop where
  dealt : ∃ st, s.token.stats.lookup core.code = some st ∧ core = st.supply.symbol
  bands : s.delband.All fun _ r => r.In core ∧ core.isValid = true
  resources : s.userres.All fun _ r => r.In core
  dues : s.refunds.All fun _ r => 0 < r.due ∧ core.isValid = true

/-! ## Rows -/

theorem updateDelegated_in {d d' : Delegations} (hd : d.All fun _ r => r.In core)
    (netCore : net.symbol = core) (cpuCore : cpu.symbol = core)
    (h : updateDelegated d owner receiver net cpu = .ok d') : d'.All fun _ r => r.In core := by
  simp only [updateDelegated, bind_eq_ok, ite_eq_ok, pure_eq_ok] at h
  obtain ⟨row, sum, -, -, -, -, written⟩ := h
  have same : row.In core := by
    cases found : d.lookup (owner, receiver) with
    | none =>
      simp only [found, pure_eq_ok] at sum
      subst sum
      exact ⟨netCore, cpuCore⟩
    | some old =>
      simp only [found, bind_eq_ok, Asset.add_eq_ok, pure_eq_ok] at sum
      obtain ⟨_, ⟨-, -, -, rfl⟩, _, ⟨-, -, -, rfl⟩, rfl⟩ := sum
      have same := hd _ _ found
      exact same
  rcases written with ⟨-, rfl⟩ | ⟨-, rfl⟩
  · exact Table.All.erase hd _
  · exact Table.All.insert hd same

theorem updateTotals_in {userres userres' : Table Name UserResources}
    (hu : userres.All fun _ r => r.In core) (netCore : net.symbol = core)
    (cpuCore : cpu.symbol = core) (h : updateTotals userres receiver net cpu = .ok userres') :
    userres'.All fun _ r => r.In core := by
  simp only [updateTotals, bind_eq_ok, ite_eq_ok, pure_eq_ok] at h
  obtain ⟨row, sum, -, -, -, -, written⟩ := h
  have same : row.In core := by
    cases found : userres.lookup receiver with
    | none =>
      simp only [found, pure_eq_ok] at sum
      subst sum
      exact ⟨netCore, cpuCore⟩
    | some old =>
      simp only [found, bind_eq_ok, Asset.add_eq_ok, pure_eq_ok] at sum
      obtain ⟨_, ⟨-, -, -, rfl⟩, _, ⟨-, -, -, rfl⟩, rfl⟩ := sum
      have same := hu _ _ found
      exact same
  rcases written with ⟨-, rfl⟩ | ⟨-, rfl⟩
  · exact Table.All.erase hu _
  · exact Table.All.insert hu same

theorem grantRam_in {userres userres' : Table Name UserResources} {bytes : Int}
    (hu : userres.All fun _ r => r.In core)
    (h : grantRam userres core receiver bytes = .ok userres') :
    userres'.All fun _ r => r.In core := by
  unfold grantRam at h
  cases found : userres.lookup receiver with
  | none =>
    simp only [found, bind_eq_ok, Asset.make_eq_ok, pure_eq_ok] at h
    obtain ⟨_, ⟨-, -, rfl⟩, rfl⟩ := h
    exact Table.All.insert hu ⟨rfl, rfl⟩
  | some row =>
    simp only [found, pure_eq_ok] at h
    subst h
    have same := hu _ _ found
    exact Table.All.insert hu same

/-- A refund that is written is of more than nothing. -/
theorem updateRefund_due {refunds : Table Name RefundRequest} {netBalance cpuBalance : Asset}
    {toSelf : Bool} (h : updateRefund c s owner net cpu toSelf = .ok (refunds, netBalance, cpuBalance)) :
    refunds = s.refunds ∨ refunds = s.refunds.erase owner ∨
      ∃ row, 0 < row.due ∧ refunds = s.refunds.insert owner row := by
  unfold updateRefund at h
  obtain ⟨-, h⟩ | ⟨-, h⟩ := ite_eq_ok.mp h
  · cases found : s.refunds.lookup owner with
    | some req =>
      simp only [found, bind_eq_ok, require_eq_ok, exists_const, pure_eq_ok, Prod.exists,
        Prod.mk.injEq] at h
      obtain ⟨netAmount, _, -, cpuAmount, _, -, netLeft, cpuLeft, rfl, -, -⟩ := h
      split
      · exact Or.inr (Or.inl rfl)
      · rename_i some
        refine Or.inr (Or.inr ⟨_, ?_, rfl⟩)
        simp only [RefundRequest.due]
        omega
    | none =>
      simp only [found, ite_eq_ok, bind_eq_ok, pure_eq_ok, Prod.exists, Prod.mk.injEq] at h
      obtain ⟨taken, _, -, netAmount, _, netOpened, cpuAmount, _, cpuOpened, rfl, -, -⟩ |
        ⟨-, rfl, -, -⟩ := h
      · refine Or.inr (Or.inr ⟨_, ?_, rfl⟩)
        simp only [openRefund, ite_eq_ok, bind_eq_ok, Asset.make_eq_ok, pure_eq_ok,
          Prod.mk.injEq] at netOpened cpuOpened
        unfold RefundRequest.due
        rcases netOpened with ⟨netTaken, rfl, -⟩ | ⟨netKept, _, ⟨-, -, rfl⟩, rfl, -⟩ <;>
          rcases cpuOpened with ⟨cpuTaken, rfl, -⟩ | ⟨cpuKept, _, ⟨-, -, rfl⟩, rfl, -⟩ <;>
          simp only [Asset.neg] <;> omega
      · exact Or.inl rfl
  · simp only [pure_eq_ok, Prod.mk.injEq] at h
    exact Or.inl h.1.symm

/-! ## Actions -/

/-- Changes of stake, and refunds of it. -/
def Action.bands : Action → Bool
  | .delegatebw .. | .undelegatebw .. | .refund .. => true
  | _ => false

/-- An action takes tokens from some accounts, and tokens keep their symbols. -/
theorem apply_outgoing {a : Action} (h : a.apply c s = .ok s') :
    ∃ payers, Outgoing payers s.token s'.token := by
  have governed (governs : a.governs = true) : ∃ payers, Outgoing payers s.token s'.token := by
    obtain ⟨e, rfl, -⟩ := apply_governs True governs h
    exact ⟨[], .refl⟩
  cases a with
  | init version core =>
    simp only [Action.apply, System.init, bind_eq_ok, pure_eq_ok] at h
    obtain ⟨-, -, -, -, -, -, _, -, -, -, -, -, rfl⟩ := h
    exact ⟨[], .refl⟩
  | newaccount creator newact =>
    obtain ⟨_, _, -, -, -, rfl⟩ := newaccount_ok h
    exact ⟨[], .refl⟩
  | setram size => exact ⟨_, (setram_trades h).outgoing⟩
  | setramrate rate => exact ⟨_, (setramrate_trades h).outgoing⟩
  | buyrambytes payer receiver bytes => exact ⟨_, (buyrambytes_trades h).outgoing⟩
  | buyram payer receiver quant => exact ⟨_, (buyram_trades h).outgoing⟩
  | sellram account bytes => exact ⟨_, (sellram_trades h).outgoing⟩
  | bidname bidder newname bid =>
    obtain ⟨_, _, _, rfl, outgoing⟩ := bidname_moves h
    exact ⟨_, outgoing⟩
  | bidrefund bidder newname =>
    obtain ⟨_, _, rfl, outgoing⟩ := bidrefund_moves h
    exact ⟨_, outgoing⟩
  | delegatebw source receiver net cpu transfer =>
    obtain ⟨-, -, -, -, -, -, changed⟩ := delegatebw_ok h
    exact ⟨_, (changebw_stakes changed).outgoing⟩
  | undelegatebw source receiver net cpu =>
    obtain ⟨-, -, -, -, -, changed⟩ := undelegatebw_ok h
    exact ⟨_, (changebw_stakes changed).outgoing⟩
  | refund owner => exact ⟨_, (refund_stakes h).outgoing⟩
  | claimrewards owner => exact ⟨_, (claimrewards_claims h).outgoing⟩
  | onblock slot producer =>
    obtain ⟨e, bids, -, -, rfl⟩ := onblock_ok h
    exact ⟨[], .refl⟩
  | rmvproducer | updtrevision | regproducer | unregprod | voteproducer | regproxy =>
    exact governed rfl

/-- What is not stake leaves what is delegated and due. -/
theorem apply_idle {a : Action} (other : a.bands = false) (h : a.apply c s = .ok s') :
    s'.delband = s.delband ∧ s'.refunds = s.refunds := by
  have governed (governs : a.governs = true) :
      s'.delband = s.delband ∧ s'.refunds = s.refunds := by
    obtain ⟨e, rfl, -⟩ := apply_governs True governs h
    exact ⟨rfl, rfl⟩
  have traded {payers : List Name} (trades : Trades payers s s') :
      s'.delband = s.delband ∧ s'.refunds = s.refunds := by
    obtain ⟨_, _, _, _, _, _, _, _, rfl⟩ := trades.rest
    exact ⟨rfl, rfl⟩
  cases a with
  | delegatebw | undelegatebw | refund => cases other
  | init version core =>
    simp only [Action.apply, System.init, bind_eq_ok, pure_eq_ok] at h
    obtain ⟨-, -, -, -, -, -, _, -, -, -, -, -, rfl⟩ := h
    exact ⟨rfl, rfl⟩
  | newaccount creator newact =>
    obtain ⟨_, _, -, -, -, rfl⟩ := newaccount_ok h
    exact ⟨rfl, rfl⟩
  | setram size => exact traded (setram_trades h)
  | setramrate rate => exact traded (setramrate_trades h)
  | buyrambytes payer receiver bytes => exact traded (buyrambytes_trades h)
  | buyram payer receiver quant => exact traded (buyram_trades h)
  | sellram account bytes => exact traded (sellram_trades h)
  | bidname bidder newname bid =>
    obtain ⟨_, _, _, rfl, -⟩ := bidname_moves h
    exact ⟨rfl, rfl⟩
  | bidrefund bidder newname =>
    obtain ⟨_, _, rfl, -⟩ := bidrefund_moves h
    exact ⟨rfl, rfl⟩
  | claimrewards owner =>
    obtain ⟨_, _, rfl, -⟩ := (claimrewards_claims h).rest
    exact ⟨rfl, rfl⟩
  | onblock slot producer =>
    obtain ⟨e, bids, -, -, rfl⟩ := onblock_ok h
    exact ⟨rfl, rfl⟩
  | rmvproducer | updtrevision | regproducer | unregprod | voteproducer | regproxy =>
    exact governed rfl

/-- The rows of receivers stay in core tokens. -/
theorem apply_in {a : Action} (market : s.coreSymbol = .ok core)
    (hu : s.userres.All fun _ r => r.In core) (h : a.apply c s = .ok s') :
    s'.userres.All fun _ r => r.In core := by
  have elsewhere (nobody : a.receives = none) : s'.userres.All fun _ r => r.In core := by
    intro account row found
    rw [apply_elsewhere h (by rw [nobody]; exact nofun)] at found
    exact hu account row found
  have bought {payer receiver : Name} {quant : Asset} (h : buyram c s payer receiver quant = .ok s') :
      s'.userres.All fun _ r => r.In core := by
    obtain ⟨_, bytes, known, granted⟩ := buyram_grants h
    cases market.symm.trans known
    exact grantRam_in hu granted
  have staked {source receiver : Name} {net cpu : Asset} {transfer : Bool}
      (symbol : net.symbol = core) (h : changebw c s source receiver net cpu transfer = .ok s') :
      s'.userres.All fun _ r => r.In core := by
    obtain ⟨-, -, -, -, ⟨same, -, -⟩, -⟩ := changebw_ok h
    exact updateTotals_in hu symbol (same.trans symbol) (changebw_totals h)
  cases a with
  | newaccount creator newact =>
    obtain ⟨none, _, -, symbol, -, rfl⟩ := newaccount_ok h
    cases market.symm.trans symbol
    exact Table.All.insert hu ⟨rfl, rfl⟩
  | buyram payer receiver quant => exact bought h
  | buyrambytes payer receiver bytes =>
    simp only [Action.apply, buyrambytes, bind_eq_ok, Prod.exists] at h
    obtain ⟨_, -, _, -, _, -, eosout, _, -, h⟩ := h
    exact bought h
  | sellram seller bytes =>
    obtain ⟨row, left, owned, sold⟩ := sellram_row h
    rw [sold]
    have same := hu _ _ owned
    exact Table.All.insert hu same
  | delegatebw source receiver net cpu transfer =>
    obtain ⟨_, known, symbol, -, -, -, changed⟩ := delegatebw_ok h
    cases market.symm.trans known
    exact staked symbol changed
  | undelegatebw source receiver net cpu =>
    obtain ⟨_, known, symbol, -, -, changed⟩ := undelegatebw_ok h
    cases market.symm.trans known
    have negative : net.neg.symbol = core := symbol
    exact staked negative changed
  | init | setram | setramrate | rmvproducer | updtrevision | bidname | bidrefund | refund
  | regproducer | unregprod | voteproducer | regproxy | onblock | claimrewards =>
    exact elsewhere rfl

theorem Spends.dealt {payers : List Name} {t t' : Token.State} (spends : Spends payers t t')
    (dealt : ∃ st, t.stats.lookup core.code = some st ∧ core = st.supply.symbol) :
    ∃ st, t'.stats.lookup core.code = some st ∧ core = st.supply.symbol := by
  obtain ⟨st, found, symbol⟩ := dealt
  obtain ⟨st', found', same⟩ := spends.symbols _ _ found
  exact ⟨st', found', symbol.trans same.symm⟩

/-- A change of stake writes rows in core tokens, whose symbol was found valid. -/
theorem Denominated.changebw {transfer : Bool} (hs : Denominated core s)
    (sound : Token.Conserved s.token) (resources : s'.userres.All fun _ r => r.In core)
    (symbol : net.symbol = core) (valid : core.isValid = true)
    (h : changebw c s source receiver net cpu transfer = .ok s') : Denominated core s' := by
  have spends := (changebw_stakes h).outgoing sound
  obtain ⟨delband, userres, paid, -, ⟨same, -, -⟩, delegated, -, settled, voted⟩ := changebw_ok h
  have bands := updateDelegated_in (fun k r found => (hs.bands k r found).1) symbol
    (same.trans symbol) delegated
  have after : paid.delband = delband ∧ paid.refunds.All fun _ r => 0 < r.due ∧ core.isValid := by
    rcases settled with ⟨-, settled⟩ | ⟨-, rfl⟩
    · obtain ⟨refunds, netBalance, cpuBalance, left, -, moved⟩ := settleStake_ok settled
      have dues : refunds.All fun _ r => 0 < r.due ∧ core.isValid := by
        rcases updateRefund_due left with rfl | rfl | ⟨row, some, rfl⟩
        · exact hs.dues
        · exact Table.All.erase hs.dues _
        · exact Table.All.insert hs.dues ⟨some, valid⟩
      rcases moved with ⟨-, sent⟩ | ⟨-, rfl⟩
      · obtain ⟨token, -, rfl⟩ := State.pay_ok sent
        exact ⟨rfl, dues⟩
      · exact ⟨rfl, dues⟩
    · exact ⟨rfl, hs.dues⟩
  obtain ⟨e, -, -, rfl⟩ := updateVotingPower_ok voted
  refine ⟨spends.dealt hs.dealt, fun k r found => ⟨bands k r ?_, valid⟩, resources, after.2⟩
  rw [← after.1]
  exact found

theorem Denominated.apply {a : Action} (hs : Denominated core s) (market : s.coreSymbol = .ok core)
    (sound : Token.Conserved s.token) (h : a.apply c s = .ok s') : Denominated core s' := by
  obtain ⟨payers, outgoing⟩ := apply_outgoing h
  have dealt := (outgoing sound).dealt hs.dealt
  have resources := apply_in market hs.resources h
  have idle (other : a.bands = false) : Denominated core s' := by
    obtain ⟨delband, refunds⟩ := apply_idle other h
    exact ⟨dealt, delband ▸ hs.bands, resources, refunds ▸ hs.dues⟩
  cases a with
  | delegatebw source receiver net cpu transfer =>
    have valid : core.isValid = true := by
      simp only [Action.apply, delegatebw, bind_eq_ok, Asset.make_eq_ok] at h
      obtain ⟨_, known, _, ⟨-, valid, -⟩, -⟩ := h
      cases market.symm.trans known
      exact valid
    obtain ⟨_, known, symbol, -, -, -, changed⟩ := delegatebw_ok h
    cases market.symm.trans known
    exact hs.changebw sound resources symbol valid changed
  | undelegatebw source receiver net cpu =>
    have valid : core.isValid = true := by
      simp only [Action.apply, undelegatebw, bind_eq_ok, Asset.make_eq_ok] at h
      obtain ⟨_, known, _, ⟨-, valid, -⟩, -⟩ := h
      cases market.symm.trans known
      exact valid
    obtain ⟨_, known, symbol, -, -, changed⟩ := undelegatebw_ok h
    cases market.symm.trans known
    have negative : net.neg.symbol = core := symbol
    exact hs.changebw sound resources negative valid changed
  | refund owner =>
    simp only [Action.apply, refund, bind_eq_ok, pure_eq_ok] at h
    obtain ⟨-, -, _, -, -, -, _, -, paid, sent, rfl⟩ := h
    obtain ⟨token, -, rfl⟩ := State.pay_ok sent
    exact ⟨dealt, hs.bands, resources, Table.All.erase hs.dues _⟩
  | _ => exact idle rfl

theorem Denominated.moves {who : Name → Bool} {ok : State D → Call D → Bool}
    (hs : Denominated core s) (market : s.coreSymbol = .ok core) (sound : Token.Conserved s.token)
    (moved : Moves who ok self fp s s') : Denominated core s' := by
  cases moved with
  | @act auth now a s' size known signs allowed done =>
    have kept := hs.apply market sound done
    exact ⟨kept.dealt, kept.bands, kept.resources, kept.dues⟩
  | params => exact ⟨hs.dealt, hs.bands, hs.resources, hs.dues⟩
  | token signs done =>
    exact ⟨(token_outgoing done sound).dealt hs.dealt, hs.bands, hs.resources, hs.dues⟩
  | stay => exact hs

/-- Nothing is denominated before anything is staked. -/
theorem Fresh.denominated {version : Nat} (fresh : Fresh s) (rows : s.userres = ∅)
    (h : init c s version core = .ok s') : Denominated core s' := by
  simp only [System.init, State.getSupply, bind_eq_ok, require_eq_ok, find_eq_ok, pure_eq_ok] at h
  obtain ⟨-, -, -, -, -, -, supply, ⟨st, found, rfl⟩, -, symbol, -, -, rfl⟩ := h
  refine ⟨⟨st, found, symbol.symm⟩, ?_, ?_, ?_⟩
  · simp only [fresh.unstaked.delband]
    exact Table.All.empty _
  · simp only [rows]
    exact Table.All.empty _
  · simp only [fresh.unstaked.refunds]
    exact Table.All.empty _

end DecentralBank.System
