import DecentralBank.Maker.Tables

/-!
# Tokens in and out, and price feeds

`daiqcontract.cpp` from `upfeed` to `close`. `transfer` is an action method
that `apply` does not dispatch; a transfer of another contract reaches
`deposit`.
-/

namespace DecentralBank.Maker

def upfeed (c : Ctx) (s : State) (feeder : Name) (price : Asset) (cdpType : SymbolCode)
    (symbl : Symbol) : Checked State := do
  c.requireAuth feeder
  Checked.require price.isValid "invalid quantity"
  Checked.require symbl.isValid "invalid symbol name"
  Checked.require (0 < price.amount) "must use positive quantity"
  if c.self ∉ c.auth then
    let st ← Checked.find s.stats (c.self, cdpType) "cdp type doesn't exist"
    Checked.require (st.feeder = feeder) "account not authorized to be price feeder"
    Checked.require (st.totalStablecoin.symbol = price.symbol)
      "price symbol must match stablecoin symbol"
    Checked.require (st.totalCollateral.quantity.symbol = symbl)
      "asset symbol must match collateral symbol"
  match s.feeds.lookup symbl.code with
  | some f =>
    -- 17 / 20 and 3 / 20 are integer divisions
    let scaled := i64 (f.price.amount * (17 / 20))
    let amount := i64 (scaled + i64 ((3 / 20) * price.amount))
    pure { s with
      feeds :=
        s.feeds.insert symbl.code { f with price := ⟨amount, f.price.symbol⟩, stamp := c.now } }
  | none =>
    let total ← Asset.make 0 symbl
    pure { s with feeds := s.feeds.insert symbl.code ⟨total, price, c.now⟩ }

/-- The notification of a `transfer` on the contract `code`. -/
def deposit (c : Ctx) (code : Name) (s : State) (source target : Name) (quantity : Asset)
    (memo : List UInt8) : Checked State := do
  c.requireAuth source
  Checked.require quantity.isValid "invalid quantity"
  Checked.require (0 < quantity.amount) "must transfer positive quantity"
  Checked.require (memo.length ≤ 256) "memo has more than 256 bytes"
  if source = c.self then pure s
  else do
    Checked.require (target = c.self) "can only deposit to self"
    Checked.require (quantity.symbol = IQ_SYMBOL → code = IQ_NAME)
      "IQ deposit must come from IQ contract"
    let accounts ← addBalance s.accounts source quantity code
    let fc ← Checked.find s.feeds quantity.symbol.code "feed doesn't exist"
    let total ← fc.total.add quantity
    pure { s with accounts, feeds := s.feeds.insert quantity.symbol.code { fc with total } }

/-- `isAccount` is the host's `is_account`. -/
def transfer (c : Ctx) (s : State) (isAccount : Name → Bool) (source target : Name)
    (quantity : Asset) (memo : List UInt8) : Checked State := do
  c.requireAuth source
  Checked.require (isAccount target) "to account does not exist"
  Checked.require (source ≠ target) "cannot transfer to self"
  Checked.require quantity.isValid "invalid quantity"
  Checked.require (memo.length ≤ 256) "memo has more than 256 bytes"
  Checked.require (0 < quantity.amount) "must transfer positive quantity"
  let (debited, contract) ← subBalance s.accounts source quantity
  Checked.require (contract = c.self) "can only transfer stablecoin"
  let accounts ← addBalance debited target quantity contract
  pure { s with accounts }

/-- What `withdraw` pays out: the whole balance when asked for zero. -/
def withdrawal (s : State) (owner : Name) (quantity : Asset) : Checked Asset :=
  if quantity.amount = 0 then getBalance s.accounts quantity.symbol.code owner
  else pure quantity

def withdraw (c : Ctx) (s : State) (owner : Name) (quantity : Asset) (memo : List UInt8) :
    Checked State := do
  c.requireAuth owner
  Checked.require quantity.isValid "invalid quantity"
  Checked.require (0 ≤ quantity.amount) "must transfer positive quantity"
  Checked.require (memo.length ≤ 256) "memo has more than 256 bytes"
  let quantity ← withdrawal s owner quantity
  let (accounts, code) ← subBalance s.accounts owner quantity
  Checked.require (owner ≠ c.self ∧ code ≠ c.self)
    "self cannot withdraw, cannot withdraw into self"
  let fc ← Checked.find s.feeds quantity.symbol.code "feed doesn't exist"
  let total ← fc.total.sub quantity
  pure { s with
    accounts
    sent := ⟨code, owner, quantity, memo⟩ :: s.sent
    feeds := s.feeds.insert quantity.symbol.code { fc with total } }

/-- The source hands `erase` a copy of the row that `get` found, and eosiolib refuses an
object that is not in the table. The model erases the row: a run of the contract is one of
the model without such calls, and what holds of every run of the model holds of it. -/
def close (c : Ctx) (s : State) (owner : Name) (symbl : SymbolCode) : Checked State := do
  c.requireAuth owner
  let it ← Checked.find s.accounts (symbl, owner) "no balance object found"
  Checked.require (it.balance.amount = 0) "balance must be zero"
  pure { s with accounts := s.accounts.erase (symbl, owner) }

end DecentralBank.Maker
