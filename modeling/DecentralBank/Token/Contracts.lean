import DecentralBank.Lib.Runs
import DecentralBank.Lib.Ledger
import DecentralBank.Eosio

/-!
# The token contracts

`bond.cpp`, the ledger of `everipediaiq.cpp` and the share token's
`eosio.token.cpp`. The three are one ledger but for a message, for what
becomes of a balance row that is emptied and for the actions beside `create`,
`issue` and `transfer`. The payer of a row and the recipients notified are left
out.
-/

namespace DecentralBank.Token

/-- A row of `stat`, or of `bondstats`. -/
structure CurrencyStats where
  supply : Asset
  maxSupply : Asset
  issuer : Name
  deriving DecidableEq

/-- Balances, scoped by their owner. -/
abbrev Accounts := Table (Name × SymbolCode) Asset

structure State where
  accounts : Accounts
  stats : Table SymbolCode CurrencyStats

def State.empty : State := ⟨∅, ∅⟩

/-- The account the contract runs on, the authorisations given and the accounts that exist. -/
structure Ctx where
  self : Name
  auth : List Name
  isAccount : Name → Bool

def Ctx.requireAuth (c : Ctx) (account : Name) : Checked Unit :=
  Checked.require (account ∈ c.auth) "missing required authority"

@[simp] theorem Ctx.requireAuth_eq_ok {c : Ctx} {account : Name} {u : Unit} :
    c.requireAuth account = .ok u ↔ account ∈ c.auth := by
  simp only [Ctx.requireAuth, Checked.require_eq_ok]

/-- What becomes of a balance row that is emptied. -/
inductive Emptied
  | erased
  | kept
  deriving DecidableEq

/-- What sets a contract apart from the others. -/
structure Contract where
  supplyMessage : String
  emptied : Emptied

/-! ## Balances -/

def subBalance (emptied : Emptied) (accounts : Accounts) (owner : Name) (value : Asset) :
    Checked Accounts := do
  let balance ← Checked.find accounts (owner, value.symbol.code) "no balance object found"
  Checked.require (value.amount ≤ balance.amount) "overdrawn balance"
  if emptied = .erased ∧ balance.amount = value.amount then
    pure (accounts.erase (owner, value.symbol.code))
  else
    let rest ← balance.sub value
    pure (accounts.insert (owner, value.symbol.code) rest)

def addBalance (accounts : Accounts) (owner : Name) (value : Asset) : Checked Accounts :=
  match accounts.lookup (owner, value.symbol.code) with
  | none => pure (accounts.insert (owner, value.symbol.code) value)
  | some balance => do
    let sum ← balance.add value
    pure (accounts.insert (owner, value.symbol.code) sum)

/-! ## Actions -/

variable (k : Contract)

def create (c : Ctx) (s : State) (issuer : Name) (maximumSupply : Asset) : Checked State := do
  c.requireAuth c.self
  Checked.require maximumSupply.symbol.isValid "invalid symbol name"
  Checked.require maximumSupply.isValid "invalid supply"
  Checked.require (0 < maximumSupply.amount) k.supplyMessage
  Checked.require (s.stats.lookup maximumSupply.symbol.code).isNone
    "token with symbol already exists"
  pure { s with
    stats := s.stats.insert maximumSupply.symbol.code
      ⟨⟨0, maximumSupply.symbol⟩, maximumSupply, issuer⟩ }

def transfer (c : Ctx) (s : State) (source target : Name) (quantity : Asset) (memo : List UInt8) :
    Checked State := do
  Checked.require (source ≠ target) "cannot transfer to self"
  c.requireAuth source
  Checked.require (c.isAccount target) "to account does not exist"
  let st ← Checked.find s.stats quantity.symbol.code "unable to find key"
  Checked.require quantity.isValid "invalid quantity"
  Checked.require (0 < quantity.amount) "must transfer positive quantity"
  Checked.require (quantity.symbol = st.supply.symbol) "symbol precision mismatch"
  Checked.require (memo.length ≤ 256) "memo has more than 256 bytes"
  let debited ← subBalance k.emptied s.accounts source quantity
  let accounts ← addBalance debited target quantity
  pure { s with accounts }

/-- The supply and the issuer's balance grow. -/
def mint (c : Ctx) (s : State) (quantity : Asset) (memo : List UInt8) :
    Checked (CurrencyStats × State) := do
  Checked.require quantity.symbol.isValid "invalid symbol name"
  Checked.require (memo.length ≤ 256) "memo has more than 256 bytes"
  let st ← Checked.find s.stats quantity.symbol.code
    "token with symbol does not exist, create token before issue"
  c.requireAuth st.issuer
  Checked.require quantity.isValid "invalid quantity"
  Checked.require (0 < quantity.amount) "must issue positive quantity"
  Checked.require (quantity.symbol = st.supply.symbol) "symbol precision mismatch"
  Checked.require (quantity.amount ≤ st.maxSupply.amount - st.supply.amount)
    "quantity exceeds available supply"
  let supply ← st.supply.add quantity
  let accounts ← addBalance s.accounts st.issuer quantity
  pure (st, ⟨accounts, s.stats.insert quantity.symbol.code { st with supply }⟩)

/-- The issuer's inline `transfer` runs when the action is done, and takes the
action back with it if it fails. -/
def issue (c : Ctx) (s : State) (target : Name) (quantity : Asset) (memo : List UInt8) :
    Checked State := do
  let (st, minted) ← mint c s quantity memo
  if target = st.issuer then pure minted
  else transfer k { c with auth := [st.issuer] } minted st.issuer target quantity memo

/-- What `burn` of `owner` and `retire` of the issuer do: the supply and the balance shrink. -/
def destroy (s : State) (st : CurrencyStats) (owner : Name) (quantity : Asset) : Checked State := do
  let supply ← st.supply.sub quantity
  let accounts ← subBalance k.emptied s.accounts owner quantity
  pure ⟨accounts, s.stats.insert quantity.symbol.code { st with supply }⟩

inductive Action
  | create (issuer : Name) (maximumSupply : Asset)
  | issue (target : Name) (quantity : Asset) (memo : List UInt8)
  | transfer (source target : Name) (quantity : Asset) (memo : List UInt8)

def Action.apply (c : Ctx) (s : State) : Action → Checked State
  | .create issuer maximumSupply => Token.create k c s issuer maximumSupply
  | .issue target quantity memo => Token.issue k c s target quantity memo
  | .transfer source target quantity memo => Token.transfer k c s source target quantity memo

/-! ## The three contracts -/

namespace Bond

def contract : Contract := ⟨"maximum supply must be positive", .erased⟩

def apply (c : Ctx) (s : State) (a : Action) : Checked State := a.apply contract c s

end Bond

namespace Everipediaiq

def contract : Contract := ⟨"max-supply must be positive", .erased⟩

def burn (c : Ctx) (s : State) (source : Name) (quantity : Asset) (memo : List UInt8) :
    Checked State := do
  c.requireAuth source
  Checked.require quantity.symbol.isValid "invalid symbol name"
  Checked.require (memo.length ≤ 256) "memo has more than 256 bytes"
  let st ← Checked.find s.stats quantity.symbol.code "token with symbol does not exist"
  Checked.require quantity.isValid "invalid quantity"
  Checked.require (0 < quantity.amount) "must burn positive quantity"
  Checked.require (quantity.symbol = st.supply.symbol) "symbol precision mismatch"
  destroy contract s st source quantity

inductive Action
  | ledger (action : Token.Action)
  | burn (source : Name) (quantity : Asset) (memo : List UInt8)

def apply (c : Ctx) (s : State) : Action → Checked State
  | .ledger action => action.apply contract c s
  | .burn source quantity memo => burn c s source quantity memo

end Everipediaiq

namespace EosioToken

def contract : Contract := ⟨"max-supply must be positive", .kept⟩

def retire (c : Ctx) (s : State) (quantity : Asset) (memo : List UInt8) : Checked State := do
  Checked.require quantity.symbol.isValid "invalid symbol name"
  Checked.require (memo.length ≤ 256) "memo has more than 256 bytes"
  let st ← Checked.find s.stats quantity.symbol.code "token with symbol does not exist"
  c.requireAuth st.issuer
  Checked.require quantity.isValid "invalid quantity"
  Checked.require (0 < quantity.amount) "must retire positive quantity"
  Checked.require (quantity.symbol = st.supply.symbol) "symbol precision mismatch"
  destroy contract s st st.issuer quantity

/-- `open`. -/
def openRow (c : Ctx) (s : State) (owner : Name) (symbol : Symbol) (ramPayer : Name) :
    Checked State := do
  c.requireAuth ramPayer
  let st ← Checked.find s.stats symbol.code "symbol does not exist"
  Checked.require (st.supply.symbol = symbol) "symbol precision mismatch"
  match s.accounts.lookup (owner, symbol.code) with
  | none => do
    let balance ← Asset.make 0 symbol
    pure { s with accounts := s.accounts.insert (owner, symbol.code) balance }
  | some _ => pure s

def close (c : Ctx) (s : State) (owner : Name) (symbol : Symbol) : Checked State := do
  c.requireAuth owner
  let balance ← Checked.find s.accounts (owner, symbol.code)
    "Balance row already deleted or never existed. Action won't have any effect."
  Checked.require (balance.amount = 0) "Cannot close because the balance is not zero."
  pure { s with accounts := s.accounts.erase (owner, symbol.code) }

inductive Action
  | ledger (action : Token.Action)
  | retire (quantity : Asset) (memo : List UInt8)
  | openRow (owner : Name) (symbol : Symbol) (ramPayer : Name)
  | close (owner : Name) (symbol : Symbol)

def apply (c : Ctx) (s : State) : Action → Checked State
  | .ledger action => action.apply contract c s
  | .retire quantity memo => retire c s quantity memo
  | .openRow owner symbol ramPayer => openRow c s owner symbol ramPayer
  | .close owner symbol => close c s owner symbol

end EosioToken

/-! ## Runs -/

/-- An action sent to a contract, with what the chain knows then. -/
structure Call (A : Type) where
  auth : List Name
  isAccount : Name → Bool
  action : A

section

variable {A : Type} (apply : Ctx → State → A → Checked State) (self : Name)

/-- The call's outcome; a call that fails changes nothing. -/
def step (s : State) (call : Call A) : State :=
  match apply ⟨self, call.auth, call.isAccount⟩ s call.action with
  | .ok s' => s'
  | .error _ => s

/-- The state after the calls, from empty tables. -/
def after (calls : List (Call A)) : State := Runs.run (step apply self) State.empty calls

end

end DecentralBank.Token
