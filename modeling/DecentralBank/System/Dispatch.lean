import DecentralBank.System.Bandwidth
import DecentralBank.System.Pay
import DecentralBank.Lib.Runs

/-!
# The system contract as a machine

A call brings its authorisations, the time and the doubles. A call that fails
changes nothing.
-/

namespace DecentralBank.System

open Checked Runs

variable {D : Type}

inductive Action
  | newaccount (creator newact : Name)
  | init (version : Nat) (core : Symbol)
  | setram (maxRamSize : Nat)
  | setramrate (bytesPerBlock : Nat)
  | rmvproducer (producer : Name)
  | updtrevision (revision : Nat)
  | bidname (bidder newname : Name) (bid : Asset)
  | bidrefund (bidder newname : Name)
  | buyrambytes (payer receiver : Name) (bytes : Nat)
  | buyram (payer receiver : Name) (quant : Asset)
  | sellram (account : Name) (bytes : Int)
  | delegatebw (source receiver : Name) (net cpu : Asset) (transfer : Bool)
  | undelegatebw (source receiver : Name) (net cpu : Asset)
  | refund (owner : Name)
  | regproducer (producer : Name) (key : PublicKey) (url : List UInt8) (location : Nat)
  | unregprod (producer : Name)
  | voteproducer (voter proxy : Name) (producers : List Name)
  | regproxy (proxy : Name) (isProxy : Bool)
  | onblock (slot : Nat) (producer : Name)
  | claimrewards (owner : Name)

def Action.apply (c : Ctx D) (s : State D) : Action → Checked (State D)
  | .newaccount creator newact => System.newaccount c s creator newact
  | .init version core => System.init c s version core
  | .setram maxRamSize => System.setram c s maxRamSize
  | .setramrate bytesPerBlock => System.setramrate c s bytesPerBlock
  | .rmvproducer producer => System.rmvproducer c s producer
  | .updtrevision revision => System.updtrevision c s revision
  | .bidname bidder newname bid => System.bidname c s bidder newname bid
  | .bidrefund bidder newname => System.bidrefund s bidder newname
  | .buyrambytes payer receiver bytes => System.buyrambytes c s payer receiver bytes
  | .buyram payer receiver quant => System.buyram c s payer receiver quant
  | .sellram account bytes => System.sellram c s account bytes
  | .delegatebw source receiver net cpu transfer =>
    System.delegatebw c s source receiver net cpu transfer
  | .undelegatebw source receiver net cpu => System.undelegatebw c s source receiver net cpu
  | .refund owner => System.refund c s owner
  | .regproducer producer key url location => System.regproducer c s producer key url location
  | .unregprod producer => System.unregprod c s producer
  | .voteproducer voter proxy producers => System.voteproducer c s voter proxy producers
  | .regproxy proxy isProxy => System.regproxy c s proxy isProxy
  | .onblock slot producer => System.onblock c s slot producer
  | .claimrewards owner => System.claimrewards c s owner

structure Call (D : Type) where
  auth : List Name
  now : Int
  fp : Doubles D
  action : Action

/-- Only accounts that exist can give their authority. -/
def perform (self : Name) (s : State D) (call : Call D) : Checked (State D) := do
  require (∀ account ∈ call.auth, account ∈ s.accounts)
    "transaction declares authority of account that does not exist"
  call.action.apply ⟨self, call.auth, call.now, call.fp⟩ s

def step (self : Name) (s : State D) (call : Call D) : State D :=
  match perform self s call with
  | .ok s' => s'
  | .error _ => s

/-- What `g` makes of a call that goes through and the states around it. -/
def counted (self : Name) (g : State D → Action → State D → Int) (s : State D)
    (call : Call D) : Int :=
  match perform self s call with
  | .ok s' => g s call.action s'
  | .error _ => 0

section

variable {self : Name} {s : State D} {call : Call D} {P : State D → Prop}

theorem perform_ok {s' : State D} (h : perform self s call = .ok s') :
    (∀ account ∈ call.auth, account ∈ s.accounts) ∧
      call.action.apply ⟨self, call.auth, call.now, call.fp⟩ s = .ok s' := by
  simp only [perform, bind_eq_ok, require_eq_ok, exists_const] at h
  exact h

/-- What a call keeps when it goes through, a step keeps. -/
theorem step_keeps (hs : P s) (kept : ∀ s', perform self s call = .ok s' → P s') :
    P (step self s call) := by
  unfold step
  split
  · rename_i s' done
    exact kept s' done
  · exact hs

theorem counted_sub (g h : State D → Action → State D → Int) :
    counted self (fun s a s' => g s a s' - h s a s') =
      fun s call => counted self g s call - counted self h s call := by
  funext s call
  unfold counted
  split
  · rfl
  · rfl

/-- What grows by `g` when a call goes through grows by what is counted. -/
theorem step_counts {f : State D → Int} {g : State D → Action → State D → Int}
    (moved : ∀ s', perform self s call = .ok s' → f s' = f s + g s call.action s') :
    f (step self s call) = f s + counted self g s call := by
  unfold step counted
  split
  · rename_i s' done
    exact moved s' done
  · rw [add_zero]

end

/-! ## A chain with three users -/

namespace Sample

def eosio : Name := ⟨6138663577826885632⟩
def dick : Name := ⟨5445133424467640320⟩
def nick : Name := ⟨11209740947501875200⟩
def rick : Name := ⟨13515583956715569152⟩

def EOS : Symbol := ⟨⟨5459781⟩, 4⟩

def eos (amount : Int) : Asset := ⟨amount, EOS⟩

/-- Whole numbers for doubles, with every power one. -/
def whole : Doubles Int where
  ofInt := id
  literal m d := m / 10 ^ d
  trunc := id
  add := (· + ·)
  sub := (· - ·)
  mul := (· * ·)
  div := Int.tdiv
  neg := (- ·)
  fabs := (|·|)
  pow _ _ := 1
  lt x y := decide (x < y)
  le x y := decide (x ≤ y)

/-- Whatever is computed, it comes out as `n`. -/
def always (n : Int) : Doubles Int := { whole with trunc := fun _ => n }

def parameters : BlockchainParameters :=
  ⟨1048576, 1000, 524288, 12, 500, 20, 100, 200000, 1000, 150000, 100, 3600, 600,
    3888000, 4096, 4, 6⟩

def users : List Name :=
  [eosio, TOKEN_ACCOUNT, RAM_ACCOUNT, RAMFEE_ACCOUNT, STAKE_ACCOUNT, BPAY_ACCOUNT, VPAY_ACCOUNT,
    NAMES_ACCOUNT, SAVING_ACCOUNT, dick, nick, rick]

/-- A billion EOS are issued, and all but four hundred million given out. -/
def ledger : Token.State :=
  let call account action : Token.Call Token.EosioToken.Action :=
    ⟨[account], fun name => decide (name ∈ users), .ledger action⟩
  Token.after Token.EosioToken.apply TOKEN_ACCOUNT
    ([call TOKEN_ACCOUNT (.create eosio (eos 100000000000000)),
      call eosio (.issue eosio (eos 10000000000000) [])] ++
      [dick, nick, rick, RAM_ACCOUNT, BPAY_ACCOUNT, VPAY_ACCOUNT].map fun name =>
        call eosio (.transfer eosio name (eos 1000000000000) []))

/-- 64 GiB of RAM are for sale. -/
def genesis : State Int where
  voters := ∅
  producers := ∅
  producers2 := ∅
  gstate := ⟨parameters, 64 * 1024 ^ 3, 0, 0, 0, 0, 0, 0, 0, 0, 0, 0, 0, 0, 0, 0, 0⟩
  gstate2 := ⟨0, 0, 0, 0, 0⟩
  gstate3 := ⟨0, 0⟩
  rammarket := none
  userres := ∅
  delband := ∅
  refunds := ∅
  namebids := ∅
  bidrefunds := ∅
  accounts := users
  token := ledger

/-- The market after `init`. -/
def listed : State Int :=
  { genesis with rammarket := some {
      supply := ⟨100000000000000, RAMCORE_SYMBOL⟩
      base := ⟨⟨64 * 1024 ^ 3, RAM_SYMBOL⟩, 0⟩
      quote := ⟨eos 10000000000, 0⟩ } }

def activated : State Int :=
  { listed with gstate := { listed.gstate with totalActivatedStake := MIN_ACTIVATED_STAKE } }

theorem ledger_conserved : Token.Conserved ledger := Token.eosioToken_conserved TOKEN_ACCOUNT _

/-- A call at `now`, in seconds. -/
def call (account : Name) (now : Int) (action : Action) : Call Int :=
  ⟨[account], now * 1000000, whole, action⟩

end Sample

end DecentralBank.System
