import DecentralBank.Lib.Runs
import DecentralBank.Maker.Positions
import DecentralBank.Maker.Custody
import DecentralBank.Maker.Referendum
import DecentralBank.Maker.Liquify

/-!
# Dispatch and runs

`apply` and the chain around it. An event is an action sent to the contract,
with the transfer of another contract that the contract is notified of counted
as an action, a deferred transaction run by the chain, or the passing of time.
An action that fails changes nothing; a deferred transaction is gone once it
has been tried.
-/

namespace DecentralBank.Maker

open Runs

/-- The actions that `apply` dispatches; `deposit` is a transfer on `code`. -/
inductive Action
  | openCdp (owner : Name) (symbl : SymbolCode) (ramPayer : Name)
  | close (owner : Name) (symbl : SymbolCode)
  | shut (owner : Name) (symbl : SymbolCode)
  | lock (owner : Name) (symbl : SymbolCode) (quantity : Asset)
  | bail (owner : Name) (symbl : SymbolCode) (quantity : Asset)
  | draw (owner : Name) (symbl : SymbolCode) (quantity : Asset)
  | wipe (owner : Name) (symbl : SymbolCode) (quantity : Asset)
  | settle (feeder : Name) (symbl : SymbolCode)
  | vote (voter : Name) (symbl : SymbolCode) (against : Bool) (quantity : Asset)
  | propose (proposer : Name) (symbl : SymbolCode) (terms : Terms)
  | referended (proposer : Name) (symbl : SymbolCode)
  | liquify (bidder owner : Name) (symbl : SymbolCode) (bidamt : Asset)
  | upfeed (feeder : Name) (price : Asset) (cdpType : SymbolCode) (symbl : Symbol)
  | withdraw (owner : Name) (quantity : Asset) (memo : List UInt8)
  | deposit (code source target : Name) (quantity : Asset) (memo : List UInt8)
  deriving DecidableEq

def apply (c : Ctx) (s : State) : Action → Checked State
  | .openCdp owner symbl ramPayer => openCdp c s owner symbl ramPayer
  | .close owner symbl => close c s owner symbl
  | .shut owner symbl => shut c s owner symbl
  | .lock owner symbl quantity => lock c s owner symbl quantity
  | .bail owner symbl quantity => bail c s owner symbl quantity
  | .draw owner symbl quantity => draw c s owner symbl quantity
  | .wipe owner symbl quantity => wipe c s owner symbl quantity
  | .settle feeder symbl => settle c s feeder symbl
  | .vote voter symbl against quantity => vote c s voter symbl against quantity
  | .propose proposer symbl terms => propose c s proposer symbl terms
  | .referended proposer symbl => referended c s proposer symbl
  | .liquify bidder owner symbl bidamt => liquify c s bidder owner symbl bidamt
  | .upfeed feeder price cdpType symbl => upfeed c s feeder price cdpType symbl
  | .withdraw owner quantity memo => withdraw c s owner quantity memo
  | .deposit code source target quantity memo => do
    Checked.require (code ≠ c.self) "a transfer on the contract itself is not dispatched"
    deposit c code s source target quantity memo

inductive Event
  | act (auth : List Name) (action : Action)
  | fire (id : Nat)
  | elapse (seconds : Nat)
  deriving DecidableEq

/-- The contract's state and the chain's time in seconds. -/
structure World where
  clock : Nat
  state : State

namespace World

def ctx (self : Name) (w : World) (auth : List Name) : Ctx := ⟨self, auth, w.clock⟩

/-- The call that an event makes: its context, the state it meets and the
action. A deferred transaction is taken off the queue before it runs. -/
def call (self : Name) (w : World) : Event → Option (Ctx × State × Action)
  | .act auth action => some (w.ctx self auth, w.state, action)
  | .fire id =>
    match w.state.deferred.lookup id with
    | some tx =>
      if tx.due ≤ w.clock then
        some (w.ctx self [self], { w.state with deferred := w.state.deferred.erase id },
          .referended tx.proposer tx.symbl)
      else none
    | none => none
  | .elapse _ => none

/-- The clock only moves by `elapse`. -/
def tick (w : World) : Event → Nat
  | .elapse seconds => w.clock + seconds
  | _ => w.clock

/-- An initial world: empty tables at any time. -/
def genesis (clock : Nat) : World := ⟨clock, State.empty⟩

end World

def step (self : Name) (w : World) (e : Event) : World :=
  match w.call self e with
  | none => ⟨w.tick e, w.state⟩
  | some (c, s, action) =>
    match apply c s action with
    | .ok s' => ⟨w.clock, s'⟩
    | .error _ => ⟨w.clock, s⟩

/-- The world after the events, from empty tables at time `clock`. -/
def after (self : Name) (clock : Nat) (es : List Event) : World :=
  run (step self) (World.genesis clock) es

theorem after_append (self : Name) (clock : Nat) (es fs : List Event) :
    after self clock (es ++ fs) = run (step self) (after self clock es) fs :=
  run_append _ es fs

/-- A condition on calls, asked of the call that an event makes, if any. -/
def Meets (self : Name) (C : Ctx → State → Action → Prop) (w : World) (e : Event) : Prop :=
  ∀ call ∈ w.call self e, C call.1 call.2.1 call.2.2

instance {self : Name} {C : Ctx → State → Action → Prop} [∀ c s a, Decidable (C c s a)]
    (w : World) (e : Event) : Decidable (Meets self C w e) := by
  unfold Meets
  infer_instance

/-- `g` of the call that an event makes, if the call succeeds. -/
def counted (self : Name) (g : Ctx → State → Action → Int) (w : World) (e : Event) : Int :=
  match w.call self e with
  | none => 0
  | some (c, s, a) => if (apply c s a).isOk then g c s a else 0

theorem counted_add (self : Name) (g h : Ctx → State → Action → Int) :
    counted self (fun c s a => g c s a + h c s a) =
      fun w e => counted self g w e + counted self h w e := by
  funext w e
  unfold counted
  split
  · rfl
  · split
    · rfl
    · rfl

/-- A fact about the state that does not look at the queue. -/
def Queueless (P : State → Prop) : Prop := ∀ s d, P s → P { s with deferred := d }

theorem Queueless.and {P Q : State → Prop} (hP : Queueless P) (hQ : Queueless Q) :
    Queueless fun s => P s ∧ Q s := fun s d h => ⟨hP s d h.1, hQ s d h.2⟩

theorem call_state {self : Name} {w : World} {e : Event} {c : Ctx} {s : State} {a : Action}
    (h : w.call self e = some (c, s, a)) :
    c.self = self ∧ ∃ d, s = { w.state with deferred := d } := by
  cases e with
  | act auth action =>
    cases h
    exact ⟨rfl, w.state.deferred, rfl⟩
  | fire id =>
    simp only [World.call] at h
    split at h
    · split at h
      · cases h
        exact ⟨rfl, _, rfl⟩
      · cases h
    · cases h
  | elapse seconds => cases h

theorem call_fire {self : Name} {w : World} {id : Nat} {tx : Deferred}
    (found : w.state.deferred.lookup id = some tx) (due : tx.due ≤ w.clock) :
    w.call self (.fire id) =
      some (w.ctx self [self], { w.state with deferred := w.state.deferred.erase id },
        .referended tx.proposer tx.symbl) := by
  simp only [World.call, found, due, if_true]

theorem step_clock (self : Name) (w : World) (e : Event) : (step self w e).clock = w.tick e := by
  unfold step
  cases called : w.call self e with
  | none => rfl
  | some call =>
    have still : w.tick e = w.clock := by
      cases e with
      | elapse seconds => cases called
      | act auth action => rfl
      | fire id => rfl
    simp only [still]
    split <;> rfl

/-- What an event does to the state: nothing but to the queue, or a call that
succeeds and is counted. -/
theorem step_cases (self : Name) (w : World) (e : Event) :
    (∃ d, (step self w e).state = { w.state with deferred := d } ∧ ∀ g, counted self g w e = 0) ∨
      ∃ c d a, w.call self e = some (c, { w.state with deferred := d }, a) ∧ c.self = self ∧
        apply c { w.state with deferred := d } a = .ok (step self w e).state ∧
        ∀ g, counted self g w e = g c { w.state with deferred := d } a := by
  unfold step counted
  cases called : w.call self e with
  | none => exact Or.inl ⟨w.state.deferred, rfl, fun _ => rfl⟩
  | some call =>
    obtain ⟨c, s, a⟩ := call
    obtain ⟨own, d, rfl⟩ := call_state called
    simp only
    cases applied : apply c { w.state with deferred := d } a with
    | ok s' => exact Or.inr ⟨c, d, a, rfl, own, applied, fun _ => rfl⟩
    | error _ => exact Or.inl ⟨d, rfl, fun _ => rfl⟩

/-- The event makes the call and the call succeeds. -/
structure Succeeds (own : Name) (w : World) (e : Event) (c : Ctx) (s : State) (a : Action) :
    Prop where
  called : w.call own e = some (c, s, a)
  done : apply c s a = .ok (step own w e).state

theorem Succeeds.of_isOk {self : Name} {w : World} {e : Event} {c : Ctx} {s : State} {a : Action}
    (called : w.call self e = some (c, s, a)) (ok : (apply c s a).isOk = true) :
    Succeeds self w e c s a := by
  obtain ⟨s', applied⟩ := Checked.isOk_iff.mp ok
  exact ⟨called, by simp only [step, called, applied]⟩

theorem Succeeds.counted {self : Name} {w : World} {e : Event} {c : Ctx} {s : State} {a : Action}
    (h : Succeeds self w e c s a) (g : Ctx → State → Action → Int) :
    Maker.counted self g w e = g c s a := by
  simp only [Maker.counted, h.called, h.done, Except.isOk, Except.toBool, if_true]

/-- What holds after the event holds after the call it makes. -/
theorem meets_after {self : Name} {Q : State → Prop} {w : World} {e : Event}
    (h : Q (step self w e).state) :
    Meets self (fun c s a => ∀ s', apply c s a = .ok s' → Q s') w e := by
  intro call called s' applied
  have moved : (step self w e).state = s' := by
    simp only [step, Option.mem_def.mp called, applied]
  exact moved ▸ h

/-- A call meets the facts that the state before the event satisfies. -/
theorem call_meets {self : Name} {P : State → Prop} (queue : Queueless P) {w : World} {e : Event}
    {c : Ctx} {s : State} {a : Action} (hw : P w.state) (called : w.call self e = some (c, s, a)) :
    c.self = self ∧ P s := by
  obtain ⟨own, d, rfl⟩ := call_state called
  exact ⟨own, queue w.state d hw⟩

theorem meets_true (self : Name) (w : World) (es : List Event) :
    Along (step self) (Meets self fun _ _ _ => True) w es := by
  refine along_mono ?_ (along_true w es)
  intro w e _ call _
  trivial

section Rules

variable {self : Name} {C : Ctx → State → Action → Prop} {P : State → Prop}

theorem kept_step (queue : Queueless P)
    (kept : ∀ c s a s', c.self = self → P s → C c s a → apply c s a = .ok s' → P s')
    (w : World) (e : Event) (hw : P w.state) (he : Meets self C w e) : P (step self w e).state := by
  rcases step_cases self w e with ⟨d, same, -⟩ | ⟨c, d, a, called, own, applied, -⟩
  · rw [same]
    exact queue w.state d hw
  · exact kept c _ a _ own (queue w.state d hw) (he _ called) applied

/-- An invariant that every call meeting `C` keeps holds after every run whose
calls meet `C`. -/
theorem invariant (queue : Queueless P)
    (kept : ∀ c s a s', c.self = self → P s → C c s a → apply c s a = .ok s' → P s')
    {w : World} {es : List Event} (h₀ : P w.state) (h : Along (step self) (Meets self C) w es) :
    P (run (step self) w es).state :=
  run_invariant (I := fun w => P w.state) (kept_step queue kept) h₀ h

/-- What every call keeps holds after every run. -/
theorem always (queue : Queueless P)
    (kept : ∀ c s a s', c.self = self → P s → apply c s a = .ok s' → P s')
    {w : World} {es : List Event} (h₀ : P w.state) : P (run (step self) w es).state :=
  invariant queue (fun c s a s' own hp _ h => kept c s a s' own hp h) h₀ (meets_true self w es)

variable {f : State → Int} {g : Ctx → State → Action → Int}

/-- If every call meeting `C` raises `f` by at most `g`, so does every such
run, counted over its calls. -/
theorem raised_le (queue : Queueless P)
    (kept : ∀ c s a s', c.self = self → P s → C c s a → apply c s a = .ok s' → P s')
    (still : ∀ s d, f { s with deferred := d } = f s)
    (raised : ∀ c s a s', c.self = self → P s → C c s a → apply c s a = .ok s' →
        f s' ≤ f s + g c s a)
    {w : World} {es : List Event} (h₀ : P w.state) (h : Along (step self) (Meets self C) w es) :
    f (run (step self) w es).state ≤ f w.state + tally (step self) (counted self g) w es := by
  refine run_tally_le (I := fun w => P w.state) (f := fun w => f w.state)
    (kept_step queue kept) (fun w e hw he => ?_) h₀ h
  rcases step_cases self w e with ⟨d, same, none⟩ | ⟨c, d, a, called, own, applied, one⟩
  · rw [same, none, still]
    omega
  · rw [one g, ← still w.state d]
    exact raised c _ a _ own (queue w.state d hw) (he _ called) applied

/-- If every call meeting `C` raises `f` by `g`, so does every such run. -/
theorem raised_eq (queue : Queueless P)
    (kept : ∀ c s a s', c.self = self → P s → C c s a → apply c s a = .ok s' → P s')
    (still : ∀ s d, f { s with deferred := d } = f s)
    (raised : ∀ c s a s', c.self = self → P s → C c s a → apply c s a = .ok s' →
        f s' = f s + g c s a)
    {w : World} {es : List Event} (h₀ : P w.state) (h : Along (step self) (Meets self C) w es) :
    f (run (step self) w es).state = f w.state + tally (step self) (counted self g) w es := by
  refine run_tally_eq (I := fun w => P w.state) (f := fun w => f w.state)
    (kept_step queue kept) (fun w e hw he => ?_) h₀ h
  rcases step_cases self w e with ⟨d, same, none⟩ | ⟨c, d, a, called, own, applied, one⟩
  · rw [same, none, still]
    omega
  · rw [one g, ← still w.state d]
    exact raised c _ a _ own (queue w.state d hw) (he _ called) applied

end Rules

/-! ## A type and a borrower, after `test.sh` -/

namespace Sample

def daiqcontract : Name := ⟨5304506241504612752⟩
def eosioToken : Name := ⟨6138663591592764928⟩
def fakeos : Name := ⟨6458349194942873600⟩
def dick : Name := ⟨5445133424467640320⟩
def nick : Name := ⟨11209740947501875200⟩
def rick : Name := ⟨13515583956715569152⟩
def sick : Name := ⟨14092044709018992640⟩

def USD : Symbol := ⟨⟨4477781⟩, 2⟩
def EOS : Symbol := ⟨⟨5459781⟩, 4⟩
def FUD : SymbolCode := ⟨4478278⟩
def GUD : SymbolCode := ⟨4478279⟩

def terms (collateral : Symbol) (liq : Nat) : Terms where
  clatrl := collateral
  stabl := USD.code
  max := 100000
  gmax := 100000000000
  pen := 50
  fee := 10
  beg := 20
  liq := liq
  tau := 30
  ttl := 5
  feeder := dick
  contract := eosioToken

/-- `proposer` proposes `FUD` at `clock`, `rick` votes for it with 1 IQ. -/
def referendum (proposer : Name) (clock : Nat) (t : Terms) : List Event :=
  [ .act [proposer] (.propose proposer FUD t),
    .act [rick] (.vote rick FUD false ⟨1000, IQ_SYMBOL⟩),
    .elapse VOTE_PERIOD,
    .fire (proposer.value * 2 ^ 64 + clock) ]

/-- Feeds, and IQ for `rick`. -/
def priced (collateral : Symbol) (price : Int) : List Event :=
  [ .act [daiqcontract] (.upfeed daiqcontract ⟨500, USD⟩ FUD IQ_SYMBOL),
    .act [daiqcontract] (.upfeed daiqcontract ⟨100, USD⟩ FUD USD),
    .act [daiqcontract] (.upfeed daiqcontract ⟨price, USD⟩ FUD collateral),
    .act [rick] (.deposit IQ_NAME rick daiqcontract ⟨1000, IQ_SYMBOL⟩ []) ]

/-- From time 1000 to 1005: feeds, and `FUD` on `collateral` voted in. -/
def enacted (collateral : Symbol) (price : Int) (liq : Nat) : List Event :=
  priced collateral price ++ referendum rick 1000 (terms collateral liq)

/-- `nick` opens a CDP and locks collateral in it. -/
def funded (collateral : Symbol) (price : Int) (locked : Int) : List Event :=
  enacted collateral price 150 ++
  [ .act [nick] (.deposit eosioToken nick daiqcontract ⟨locked, collateral⟩ []),
    .act [nick] (.openCdp nick FUD nick),
    .act [nick] (.lock nick FUD ⟨locked, collateral⟩) ]

def borrow (drawn : Int) : Event := .act [nick] (.draw nick FUD ⟨drawn, USD⟩)

example : (after daiqcontract 1000 (funded EOS 200 1000000 ++ [borrow 10000])).state.cdps.lookup
    (FUD, nick) = some ⟨1005, ⟨1000000, EOS⟩, ⟨10000, USD⟩, true⟩ := by decide +kernel

end Sample

end DecentralBank.Maker
