import DecentralBank.Maker.Tables

/-!
# Proposals, votes and referenda

`propose`, `vote` and `referended` of `daiqcontract.cpp`.
-/

namespace DecentralBank.Maker

/-- The arguments of `propose` that describe the CDP type. -/
structure Terms where
  clatrl : Symbol
  stabl : SymbolCode
  max : Nat
  gmax : Nat
  pen : Nat
  fee : Nat
  beg : Nat
  liq : Nat
  tau : Nat
  ttl : Nat
  feeder : Name
  contract : Name
  deriving DecidableEq

/-- The bounds `propose` checks; the product is a 64-bit one. -/
def Terms.admitted (t : Terms) : Bool :=
  decide (t.max < t.gmax ∧ 0 < t.max ∧ t.gmax ≤ u64 (t.max * 1000000) ∧
    (t.pen ≤ 100 ∧ 0 < t.pen) ∧ (t.fee ≤ 100 ∧ 0 < t.fee) ∧ (t.beg ≤ 100 ∧ 0 < t.beg) ∧
    (t.liq ≤ 1000 ∧ 100 ≤ t.liq) ∧ t.tau ≤ 3600 ∧ t.ttl ≤ 600)

/-- The sender id of the deferred transaction that `proposer` sends now. -/
def txid (c : Ctx) (proposer : Name) : Nat := proposer.value * 2 ^ 64 + c.now

/-- Send the deferred `referended`. A pending transaction with the id aborts. -/
def schedule (c : Ctx) (s : State) (proposer : Name) (symbl : SymbolCode) : Checked State := do
  Checked.require (s.deferred.lookup (txid c proposer)).isNone
    "deferred transaction with the same sender_id and payer already exists"
  pure { s with
    deferred := s.deferred.insert (txid c proposer) ⟨proposer, symbl, c.clock + VOTE_PERIOD⟩ }

/-- The row that `propose` puts into the proposer's scope. -/
def draft (t : Terms) : Checked Stat := do
  let feeBalance ← Asset.make 0 IQ_SYMBOL
  let totalStablecoin ← Asset.make 0 ⟨t.stabl, 2⟩
  let quantity ← Asset.make 0 t.clatrl
  pure {
    live := false, lastVote := 0, tau := t.tau, ttl := t.ttl, feeder := t.feeder
    globalCeil := t.gmax, debtCeiling := t.max, stabilityFee := t.fee, beg := t.beg
    penaltyRatio := t.pen, liquid8Ratio := t.liq, feeBalance, totalStablecoin
    totalCollateral := ⟨quantity, t.contract⟩ }

/-- The stats after the terms are filed: none for a settlement proposal. -/
def fileTerms (c : Ctx) (s : State) (proposer : Name) (symbl : SymbolCode) (t : Terms) :
    Checked (Table (Name × SymbolCode) Stat) :=
  if t.tau = 0 ∧ t.ttl = 0 then do
    let st ← Checked.find s.stats (c.self, symbl) "cdp type doesn't exist"
    Checked.require (proposer = st.feeder)
      "only priviliged accounts may propose global settlement"
    pure s.stats
  else do
    Checked.require t.admitted "bad props"
    let pstat ← draft t
    pure (s.stats.insert (proposer, symbl) pstat)

def propose (c : Ctx) (s : State) (proposer : Name) (symbl : SymbolCode) (t : Terms) :
    Checked State := do
  c.requireAuth proposer
  Checked.require symbl.isValid "invalid cdp type symbol name"
  Checked.require t.clatrl.isValid "invalid collateral symbol name"
  Checked.require t.stabl.isValid "invalid stablecoin symbol name"
  Checked.require (s.props.lookup symbl).isNone "proposal for this cdp type already in session"
  Checked.require (s.stats.lookup (proposer, symbl)).isNone
    "proposer already claimed this cdp type"
  Checked.require (s.feeds.lookup symbl).isNone "can't propose collateral or governance symbols"
  Checked.require (s.feeds.lookup t.stabl).isSome "can't propose an unknown stablecoin symbol"
  let stats ← fileTerms c s proposer symbl t
  let zero ← Asset.make 0 IQ_SYMBOL
  schedule c { s with
    stats
    props := s.props.insert symbl ⟨u32 (c.now + VOTE_PERIOD), proposer, zero, zero⟩ } proposer symbl

/-- Put a vote into the voter's row of the type's scope. -/
def escrow (accounts : Accounts) (voter : Name) (symbl : SymbolCode) (amount : Int) :
    Checked Accounts := do
  let ballot ← Asset.make amount ⟨symbl, 3⟩
  match accounts.lookup (symbl, voter) with
  | none => pure (accounts.insert (symbl, voter) ⟨ballot, NO_NAME⟩)
  | some row => do
    let balance ← row.balance.add ballot
    pure (accounts.insert (symbl, voter) { row with balance })

/-- The proposal with the vote counted. -/
def countVote (prop : Proposal) (against : Bool) (quantity : Asset) : Checked Proposal :=
  if against then do
    let nay ← prop.nay.add quantity
    pure { prop with nay }
  else do
    let yay ← prop.yay.add quantity
    pure { prop with yay }

def vote (c : Ctx) (s : State) (voter : Name) (symbl : SymbolCode) (against : Bool)
    (quantity : Asset) : Checked State := do
  c.requireAuth voter
  Checked.require symbl.isValid "invalid symbol name"
  Checked.require (quantity.isValid ∧ 0 < quantity.amount) "invalid quantity"
  Checked.require (quantity.symbol = IQ_SYMBOL) "must vote with governance token"
  let prop ← Checked.find s.props symbl "cdp type not proposed"
  let (paid, _) ← subBalance s.accounts voter quantity
  let accounts ← escrow paid voter symbl quantity.amount
  let counted ← countVote prop against quantity
  pure { s with accounts, props := s.props.insert symbl counted }

/-- The stats after a proposal has passed: a settlement proposal flips the
type, another one makes it live on the proposed terms. -/
def enact (c : Ctx) (stats : Table (Name × SymbolCode) Stat) (symbl : SymbolCode)
    (pstat : Option Stat) : Checked (Table (Name × SymbolCode) Stat) :=
  match pstat, stats.lookup (c.self, symbl) with
  | none, none => .error "cannot pass end iterator to modify"
  | none, some st => pure (stats.insert (c.self, symbl) { st with live := !st.live })
  | some p, none => pure (stats.insert (c.self, symbl) { p with live := true, lastVote := c.now })
  | some p, some st => pure (stats.insert (c.self, symbl) { st with
      live := true, lastVote := c.now, tau := p.tau, ttl := p.ttl, beg := p.beg
      feeder := p.feeder, globalCeil := p.globalCeil, debtCeiling := p.debtCeiling
      stabilityFee := p.stabilityFee, penaltyRatio := p.penaltyRatio
      liquid8Ratio := p.liquid8Ratio })

/-- The stats after the count: a proposal voted down changes none. -/
def outcome (c : Ctx) (stats : Table (Name × SymbolCode) Stat) (symbl : SymbolCode)
    (pstat : Option Stat) (passed : Bool) : Checked (Table (Name × SymbolCode) Stat) :=
  if passed then enact c stats symbl pstat else pure stats

/-- One turn of the refund loop: the row is paid out in IQ, then erased. -/
def refund (accounts : Accounts) (row : (_ : SymbolCode × Name) × Account) : Checked Accounts := do
  let value ← Asset.make row.2.balance.amount IQ_SYMBOL
  let paid ← addBalance accounts row.1.2 value IQ_NAME
  pure (paid.erase row.1)

/-- The refund loop over the scope of `symbl`. -/
def refundVotes (accounts : Accounts) (symbl : SymbolCode) : Checked Accounts :=
  (accounts.entries.filter fun row => row.1.1 = symbl).foldlM refund accounts

def referended (c : Ctx) (s : State) (proposer : Name) (symbl : SymbolCode) : Checked State := do
  c.requireAuth c.self
  Checked.require symbl.isValid "invalid symbol name"
  let prop ← Checked.find s.props symbl "no such proposal"
  Checked.require (prop.deadline ≤ c.now) "too soon to be referended"
  let tie ← prop.yay.eq prop.nay
  if tie then schedule c s proposer symbl
  else do
    let pstat := s.stats.lookup (proposer, symbl)
    let passed ← prop.yay.gt prop.nay
    let stats ← outcome c s.stats symbl pstat passed
    let accounts ← refundVotes s.accounts symbl
    pure { s with
      accounts
      stats := if pstat.isSome then stats.erase (proposer, symbl) else stats
      props := s.props.erase symbl }

end DecentralBank.Maker
