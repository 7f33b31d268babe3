import DecentralBank.System.Tables

/-!
# Name auctions

`bidname`, `bidrefund` and `newaccount` of `eosio.system.cpp`, and the closing
of an auction in `onblock`. The deferred `bidrefund` is in `Blockchain`; what
the chain keeps of a new account beside its limits is left out.
-/

namespace DecentralBank

/-- The character at bit `i`, zero for a dot. -/
def Name.charAt (n : Name) (i : Nat) : Nat := n.value / 2 ^ i % 32

/-- The bits after the last dot that a character other than a dot follows, zero without one. -/
def Name.bitsAfterDot (n : Name) : Nat :=
  let scan := ((List.range 12).map fun i => 59 - 5 * i).foldl
    (fun (d : Nat × Nat) i => if n.charAt i = 0 then (d.1, i) else (d.2, d.2)) (0, 0)
  if n.value % 16 = 0 then scan.1 else scan.2

def Name.suffix (n : Name) : Name :=
  let bits := n.bitsAfterDot
  if bits = 0 then n
  else ⟨n.value % 2 ^ bits / 16 * 16 * 2 ^ (64 - bits) + n.value % 16 * 2 ^ (63 - bits)⟩

def Name.hasDot (n : Name) : Bool := (List.range 12).any fun i => n.charAt (4 + 5 * i) = 0

def Name.chars : List Char := ".12345abcdefghijklmnopqrstuvwxyz".toList

def Name.toString (n : Name) : String :=
  let first := (List.range 12).map fun i => n.charAt (59 - 5 * i)
  let chars := (first ++ [n.value % 16]).map fun i => Name.chars.getD i '.'
  String.ofList (chars.reverse.dropWhile (· = '.')).reverse

namespace System

open Checked

variable {D : Type} (c : Ctx D)

/-- A bid that is outdone is added to what its bidder can have back. -/
def displace (bidrefunds : Table (Name × Name) Asset) (newname bidder : Name) (bid : Asset) :
    Checked (Table (Name × Name) Asset) :=
  match bidrefunds.lookup (newname, bidder) with
  | none => pure (bidrefunds.insert (newname, bidder) bid)
  | some amount => do
    let amount ← amount.add bid
    pure (bidrefunds.insert (newname, bidder) amount)

def bidname (s : State D) (bidder newname : Name) (bid : Asset) : Checked (State D) := do
  c.requireAuth bidder
  require (newname.suffix = newname) "you can only bid on top-level suffix"
  require (newname ≠ NOBODY) "the empty name is not a valid account name to bid on"
  require (newname.value % 16 = 0) "13 character names are not valid account names to bid on"
  require (newname.value / 16 % 32 = 0)
    "accounts with 12 character names and no dots can be created without bidding required"
  require (s.isAccount newname = false) "account already exists"
  let core ← s.coreSymbol
  require (bid.symbol = core) "asset must be system token"
  require (0 < bid.amount) "insufficient bid"
  let s ← s.pay bidder NAMES_ACCOUNT bid ("bid name " ++ newname.toString)
  match s.namebids.lookup newname with
  | none => pure { s with namebids := s.namebids.insert newname ⟨bidder, bid.amount, c.now⟩ }
  | some current => do
    require (0 < current.highBid) "this auction has already closed"
    require (current.highBid / 10 < bid.amount - current.highBid) "must increase bid by 10%"
    require (current.highBidder ≠ bidder) "account is already highest bidder"
    let outdone ← Asset.make current.highBid core
    let bidrefunds ← displace s.bidrefunds newname current.highBidder outdone
    pure { s with
      bidrefunds
      namebids := s.namebids.insert newname ⟨bidder, bid.amount, c.now⟩ }

def bidrefund (s : State D) (bidder newname : Name) : Checked (State D) := do
  let amount ← find s.bidrefunds (newname, bidder) "refund not found"
  let s ← s.pay NAMES_ACCOUNT bidder amount ("refund bid on name " ++ newname.toString)
  pure { s with bidrefunds := s.bidrefunds.erase (newname, bidder) }

/-- The row of an auction won is erased by the winner's claim. -/
def claimName (s : State D) (creator newact : Name) : Checked (State D) := do
  let current ← find s.namebids newact "no active bid for name"
  require (current.highBidder = creator) "only highest bidder can claim"
  require (current.highBid < 0) "auction for name is not closed yet"
  pure { s with namebids := s.namebids.erase newact }

/-- The chain asks for the creator's authority, and for a name that is not taken. -/
def newaccount (s : State D) (creator newact : Name) : Checked (State D) := do
  c.requireAuth creator
  require (s.isAccount newact = false) "that name is already taken"
  let s ← (if creator ≠ c.self ∧ newact.hasDot = true then
      if newact.suffix = newact then claimName s creator newact
      else do
        require (creator = newact.suffix) "only suffix may create this account"
        pure s
    else pure s)
  let core ← s.coreSymbol
  let none ← Asset.make 0 core
  require (s.userres.lookup newact).isNone "uniqueness constraint was violated"
  pure { s with
    userres := s.userres.insert newact ⟨none, none, 0⟩
    accounts := newact :: s.accounts }

/-! ## Closing -/

/-- `by_high_bid`: open auctions come last, the highest bid first among them. -/
def NameBid.byHighBid (b : NameBid) : Nat := u64 (-b.highBid)

/-- The auction at `lower_bound` of half the range of the index. -/
def highestBid (namebids : Table Name NameBid) : Option (Name × NameBid) :=
  namebids.entries.foldl (fun best e =>
    if e.2.byHighBid < (2 ^ 64 - 1) / 2 then best
    else match best with
      | none => some (e.1, e.2)
      | some b =>
        if e.2.byHighBid < b.2.byHighBid ∨
            (e.2.byHighBid = b.2.byHighBid ∧ e.1.value < b.1.value) then some (e.1, e.2)
        else some b) none

/-- The highest open bid, when it is a day old and the chain has been activated for two weeks. -/
def closeAuction (s : State D) (slot : Nat) : State D :=
  match highestBid s.namebids with
  | some (newname, highest) =>
    if 0 < highest.highBid ∧ USECONDS_PER_DAY < c.now - highest.lastBidTime ∧
        0 < s.gstate.threshActivatedStakeTime ∧
        14 * USECONDS_PER_DAY < c.now - s.gstate.threshActivatedStakeTime then
      { s with
        gstate := { s.gstate with lastNameClose := slot }
        namebids := s.namebids.insert newname { highest with highBid := -highest.highBid } }
    else s
  | none => s

end System

end DecentralBank
