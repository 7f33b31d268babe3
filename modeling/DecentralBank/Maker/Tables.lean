import DecentralBank.Lib.Ledger
import DecentralBank.Eosio

/-!
# The tables of the CDP engine

Rows of `daiqcontract`'s tables. The field of a row that is its primary key is
the key of the table and not repeated in the row. Tables scoped by a CDP type
or a balance symbol have the scope as the first part of the key.
-/

namespace DecentralBank.Maker

def SECYR : Nat := 10
def FEED_FRESH : Nat := 300
def VOTE_PERIOD : Nat := 5
def IQ_SYMBOL : Symbol := ⟨⟨20809⟩, 3⟩
/-- `everipediaiq`. -/
def IQ_NAME : Name := ⟨6257038465489280352⟩
/-- The name a row has in a field nobody assigned. -/
def NO_NAME : Name := ⟨0⟩

/-- A token balance or, under a proposed type's symbol, an escrowed vote. -/
structure Account where
  balance : Asset
  code : Name
  deriving DecidableEq

structure Bid where
  bidder : Name
  bidamt : Asset
  started : Nat
  lastbid : Nat
  deriving DecidableEq

structure Cdp where
  created : Nat
  collateral : Asset
  stablecoin : Asset
  live : Bool
  deriving DecidableEq

/-- A `prop` row. -/
structure Proposal where
  deadline : Nat
  proposer : Name
  yay : Asset
  nay : Asset
  deriving DecidableEq

structure Stat where
  live : Bool
  lastVote : Nat
  tau : Nat
  ttl : Nat
  feeder : Name
  globalCeil : Nat
  debtCeiling : Nat
  stabilityFee : Nat
  beg : Nat
  penaltyRatio : Nat
  liquid8Ratio : Nat
  feeBalance : Asset
  totalStablecoin : Asset
  totalCollateral : ExtendedAsset
  deriving DecidableEq

structure Feed where
  total : Asset
  price : Asset
  stamp : Nat
  deriving DecidableEq

/-- A deferred `referended( proposer, symbl )`, not to run before `due`. -/
structure Deferred where
  proposer : Name
  symbl : SymbolCode
  due : Nat
  deriving DecidableEq

/-- An inline `transfer` that the contract sent to the token contract `code`. -/
structure Transfer where
  code : Name
  recipient : Name
  quantity : Asset
  memo : List UInt8
  deriving DecidableEq

abbrev Accounts := Table (SymbolCode × Name) Account

/-- The tables, with the deferred transactions pending under their sender ids
and the inline transfers sent, latest first. -/
structure State where
  accounts : Accounts
  cdps : Table (SymbolCode × Name) Cdp
  bids : Table (SymbolCode × Name) Bid
  props : Table SymbolCode Proposal
  stats : Table (Name × SymbolCode) Stat
  feeds : Table SymbolCode Feed
  deferred : Table Nat Deferred
  sent : List Transfer

def State.empty : State := ⟨∅, ∅, ∅, ∅, ∅, ∅, ∅, []⟩

/-- What an action can read besides its arguments and the tables: the account
the contract runs on, the authorisations given and the time in seconds. -/
structure Ctx where
  self : Name
  auth : List Name
  clock : Nat

namespace Ctx

def now (c : Ctx) : Nat := u32 c.clock

/-- `now() - FEED_FRESH`, which wraps in the first five minutes. -/
def freshSince (c : Ctx) : Nat := u32 ((c.now : Int) - FEED_FRESH)

/-- `now() - t`. -/
def since (c : Ctx) (t : Nat) : Nat := u32 ((c.now : Int) - t)

def requireAuth (c : Ctx) (account : Name) : Checked Unit :=
  Checked.require (account ∈ c.auth) "missing required authority"

@[simp] theorem requireAuth_eq_ok {c : Ctx} {account : Name} {u : Unit} :
    c.requireAuth account = .ok u ↔ account ∈ c.auth := by
  simp only [requireAuth, Checked.require_eq_ok]

end Ctx

/-! ## Balances -/

/-- The new accounts, and the contract the debited balance comes from. -/
def subBalance (accounts : Accounts) (owner : Name) (value : Asset) :
    Checked (Accounts × Name) := do
  let owned ← Checked.find accounts (value.symbol.code, owner) "no balance object found"
  Checked.require (value.amount ≤ owned.balance.amount) "overdrawn balance"
  let balance ← owned.balance.sub value
  pure (accounts.insert (value.symbol.code, owner) { owned with balance }, owned.code)

def addBalance (accounts : Accounts) (owner : Name) (value : Asset) (code : Name) :
    Checked Accounts :=
  match accounts.lookup (value.symbol.code, owner) with
  | none => pure (accounts.insert (value.symbol.code, owner) ⟨value, code⟩)
  | some row => do
    Checked.require (row.code = code) "wrong contract"
    let balance ← row.balance.add value
    pure (accounts.insert (value.symbol.code, owner) { row with balance })

def getBalance (accounts : Accounts) (symCode : SymbolCode) (owner : Name) : Checked Asset := do
  let ac ← Checked.find accounts (symCode, owner) "unable to find key"
  pure ac.balance

/-! ## The accounts as a ledger -/

/-- The symbol of a balance and the contract it comes from. -/
def Account.label (a : Account) : Symbol × Name := (a.balance.symbol, a.code)

def Account.amount (a : Account) : Int := a.balance.amount

abbrev Move := Posting (SymbolCode × Name) (Symbol × Name)

abbrev Moved (accounts : Accounts) (moves : List Move) (accounts' : Accounts) : Prop :=
  Ledger.Posted Account.label Account.amount accounts moves accounts'

def credit (owner : Name) (value : Asset) (code : Name) : Move :=
  ⟨(value.symbol.code, owner), (value.symbol, code), value.amount⟩

def debit (owner : Name) (value : Asset) (code : Name) : Move :=
  ⟨(value.symbol.code, owner), (value.symbol, code), -value.amount⟩

/-- A debit moves the row it found, which covers it, and returns its tag. -/
theorem subBalance_ok {a b : Accounts} {owner code : Name} {value : Asset}
    (h : subBalance a owner value = .ok (b, code)) :
    Moved a [debit owner value code] b ∧
      ∃ row, a.lookup (value.symbol.code, owner) = some row ∧ row.code = code ∧
        row.balance.symbol = value.symbol ∧ value.amount ≤ row.balance.amount := by
  simp only [subBalance, Checked.bind_eq_ok, Checked.find_eq_ok, Checked.require_eq_ok,
    Asset.sub_eq_ok, Checked.pure_eq_ok, exists_const, Prod.mk.injEq] at h
  obtain ⟨row, found, covered, balance, ⟨same, -, -, rfl⟩, rfl, rfl⟩ := h
  refine ⟨Ledger.Posted.single ?_ ?_ ?_, row, found, rfl, same.symm, covered⟩
  · intro u hu
    cases found.symm.trans hu
    simp only [debit, Account.label, same]
  · simp only [debit, Account.label, same]
  · rw [debit, Ledger.held_some found]
    rfl

theorem addBalance_moved {a b : Accounts} {owner code : Name} {value : Asset}
    (h : addBalance a owner value code = .ok b) : Moved a [credit owner value code] b := by
  unfold addBalance at h
  cases found : a.lookup (value.symbol.code, owner) with
  | none =>
    simp only [found, Checked.pure_eq_ok] at h
    subst h
    refine Ledger.Posted.single (fun u hu => ?_) rfl ?_
    · cases found.symm.trans hu
    · rw [credit, Ledger.held_none found]
      simp only [Account.amount, Int.zero_add]
  | some row =>
    simp only [found, Checked.bind_eq_ok, Checked.require_eq_ok, Asset.add_eq_ok,
      Checked.pure_eq_ok, exists_const] at h
    obtain ⟨tagged, balance, ⟨same, -, -, rfl⟩, rfl⟩ := h
    refine Ledger.Posted.single ?_ ?_ ?_
    · intro u hu
      cases found.symm.trans hu
      simp only [credit, Account.label, same, tagged]
    · simp only [credit, Account.label, same, tagged]
    · rw [credit, Ledger.held_some found]
      rfl

end DecentralBank.Maker
