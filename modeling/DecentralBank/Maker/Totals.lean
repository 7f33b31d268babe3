import DecentralBank.Maker.Accounts
import DecentralBank.Maker.Books

/-!
# The totals of a type

`total_collateral` and `total_stablecoin` are counted by hand in each action.
The debt total is the debt of the live CDPs and of every CDP at the moment a
liquidation was opened on it; the collateral total is right as long as no
action of those that miscount it has been taken.
-/

namespace DecentralBank.Maker

open Runs

/-- The weights of the CDPs of a type added up. -/
def sumOver (T : SymbolCode) (weight : Cdp → Int) (s : State) : Int :=
  s.cdps.total fun k it => if k.1 = T then weight it else 0

variable {c : Ctx} {s s' : State} {a : Action} {T : SymbolCode}

section Sums

variable {f : Cdp → Int}

theorem sumOver_congr {g : Cdp → Int}
    (h : ∀ owner it, s.cdps.lookup (T, owner) = some it → f it = g it) :
    sumOver T f s = sumOver T g s := by
  refine Table.total_congr fun k it hk => ?_
  split
  · rename_i e
    exact h k.2 it (e ▸ hk)
  · rfl

theorem sumOver_none (h : ∀ owner, s.cdps.lookup (T, owner) = none) : sumOver T f s = 0 := by
  refine Table.total_zero fun k it hk => ?_
  split
  · rename_i e
    have absent := h k.2
    rw [← e] at absent
    cases absent.symm.trans hk
  · rfl

theorem sumOver_move {k : SymbolCode × Name} (hk : k.1 = T)
    (others : ∀ j, j ≠ k → s'.cdps.lookup j = s.cdps.lookup j) :
    sumOver T f s' =
      sumOver T f s - (s.cdps.lookup k).elim 0 f + (s'.cdps.lookup k).elim 0 f := by
  rw [sumOver, Table.total_move _ others, ← sumOver]
  simp only [Table.weightAt, hk, if_true]

theorem sumOver_other {k : SymbolCode × Name} (hk : k.1 ≠ T)
    (others : ∀ j, j ≠ k → s'.cdps.lookup j = s.cdps.lookup j) :
    sumOver T f s' = sumOver T f s := by
  rw [sumOver, Table.total_move _ others, ← sumOver]
  simp only [Table.weightAt, hk, if_false]
  cases s.cdps.lookup k <;> cases s'.cdps.lookup k <;> simp

end Sums

/-! ## Debt -/

/-- The debt of a CDP that is not in liquidation. -/
def liveDebt (it : Cdp) : Int := if it.live then it.stablecoin.amount else 0

/-- The debt that a liquidation is opened on. -/
def Action.opens : Action → Option Cdp → Int
  | .liquify .., old => old.elim 0 liveDebt
  | _, _ => 0

theorem CdpStep.liveDebt {k : SymbolCode × Name} {old new : Option Cdp}
    (h : CdpStep c s a k old new) :
    new.elim 0 liveDebt = old.elim 0 liveDebt + a.issued old - a.opens old := by
  cases h with
  | opened => simp [Maker.liveDebt, Action.issued, Action.opens]
  | freed _ _ _ live => simp [Maker.liveDebt, Action.issued, Action.opens, live]
  | drawn _ _ _ live => simp [Maker.liveDebt, Action.issued, Action.opens, live]
  | wiped _ _ live =>
    simp only [Maker.liveDebt, Action.issued, Action.opens, live, Option.elim_some, if_true]
    omega
  | locked _ _ live => simp [Maker.liveDebt, Action.issued, Action.opens, live]
  | shut _ live => simp [Maker.liveDebt, Action.issued, Action.opens, live]
  | bid type opened bidding written =>
    have dead := bidding.dead (openAuction_dead opened)
    rcases written with ⟨-, rfl⟩ | ⟨-, rfl⟩
    · simp [Maker.liveDebt, Action.issued, Action.opens, dead]
    · simp [Action.issued, Action.opens]

/-- The stablecoin total of a type, zero before there is the type. -/
def debtTotal (self : Name) (T : SymbolCode) (s : State) : Int :=
  (s.stats.lookup (self, T)).elim 0 fun st => st.totalStablecoin.amount

/-- What a call to `liquify` opens on the type. -/
def opened (T : SymbolCode) (_ : Ctx) (s : State) (a : Action) : Int :=
  a.target.elim 0 fun k => if k.1 = T then a.opens (s.cdps.lookup k) else 0

theorem debtTotal_unbooked (hf : Filed c.self s) (keeps : KeepsTypes c a)
    (h : apply c s a = .ok s') (none : a.target = none) :
    debtTotal c.self T s' = debtTotal c.self T s := by
  unfold debtTotal
  cases new : s'.stats.lookup (c.self, T) with
  | none =>
    cases old : s.stats.lookup (c.self, T) with
    | none => rfl
    | some st =>
      have kept :=
        kind_kept h keeps (show kindOf c.self s.stats T = some st.kind by simp [kindOf, old])
      rw [kindOf, new] at kept
      cases kept
  | some st' =>
    rcases (apply_unbooked hf keeps h none).2 T st' new with ⟨st, old, same, -⟩ | ⟨absent, fresh⟩
    · rw [old, Option.elim_some, Option.elim_some, same]
    · rw [absent]
      exact fresh.1

/-- Every call books on the total what it does to the live debt and what it opens. -/
theorem debt_booked (hs : Sound s) (hf : Filed c.self s) (keeps : KeepsTypes c a)
    (h : apply c s a = .ok s') :
    debtTotal c.self T s' - sumOver T liveDebt s' =
      debtTotal c.self T s - sumOver T liveDebt s + opened T c s a := by
  rcases apply_cdps h with ⟨none, same⟩ | ⟨k, target, others, moved⟩
  · have total := debtTotal_unbooked (T := T) hf keeps h none
    simp only [total, opened, none, Option.elim_none, sumOver, same]
    omega
  · obtain ⟨st, st', booked⟩ := apply_booked hs h target
    by_cases hk : k.1 = T
    · have cdp := sumOver_move (f := liveDebt) hk others
      have debt := moved.liveDebt
      have issued := booked.issued
      have old : debtTotal c.self T s = st.totalStablecoin.amount := by
        rw [debtTotal, ← hk, booked.type]
        rfl
      have new : debtTotal c.self T s' = st'.totalStablecoin.amount := by
        rw [debtTotal, ← hk, booked.type']
        rfl
      simp only [opened, target, Option.elim_some, hk, if_true]
      omega
    · have cdp := sumOver_other (f := liveDebt) hk others
      have total : debtTotal c.self T s' = debtTotal c.self T s := by
        rw [debtTotal, booked.others _ fun e => hk (congrArg Prod.snd e).symm, ← debtTotal]
      simp only [opened, target, Option.elim_some, hk, if_false]
      omega

/-- No CDP of the type is in liquidation. -/
def AllLive (T : SymbolCode) (s : State) : Prop :=
  ∀ row ∈ s.cdps.entries, row.1.1 = T → row.2.live = true

instance (T : SymbolCode) (s : State) : Decidable (AllLive T s) :=
  inferInstanceAs (Decidable (∀ row ∈ _, _))

/-- `liquify` opens a liquidation on the type. -/
def Opens (T : SymbolCode) (c : Ctx) (s : State) (a : Action) : Prop :=
  (apply c s a).isOk = true ∧ opened T c s a ≠ 0

instance (T : SymbolCode) (c : Ctx) (s : State) (a : Action) : Decidable (Opens T c s a) :=
  inferInstanceAs (Decidable (_ ∧ _))

theorem opened_nonneg (h : apply c s a = .ok s') : 0 ≤ opened T c s a := by
  cases a with
  | liquify bidder owner symbl bidamt =>
    obtain ⟨_, row, _, _, -, -, -, found, opening, -, -⟩ := liquify_ok h
    simp only [opened, Action.target, Option.elim_some]
    split
    · simp only [found, Action.opens, Option.elim_some, liveDebt]
      rcases openAuction_ok opening with ⟨dead, -⟩ | ⟨_, _, live, debt, -⟩
      · simp [dead]
      · simp only [live, if_true]
        omega
    · exact le_refl 0
  | _ =>
    unfold opened Action.opens
    cases Action.target _ <;> simp

theorem counted_opened_nonneg (self : Name) (w : World) (e : Event) :
    0 ≤ counted self (opened T) w e := by
  rcases step_cases self w e with ⟨_, -, none⟩ | ⟨c, d, a, -, -, applied, one⟩
  · rw [none]
  · rw [one]
    exact opened_nonneg applied

theorem counted_opened_iff (self : Name) (w : World) (e : Event) :
    counted self (opened T) w e = 0 ↔ Meets self (fun c s a => ¬ Opens T c s a) w e := by
  unfold counted Meets Opens
  cases called : w.call self e with
  | none => simp
  | some call =>
    obtain ⟨c, s, a⟩ := call
    cases ok : (apply c s a).isOk <;> simp [ok]

/-- The debt total is the live debt and what liquidations have been opened on. -/
theorem debtTotal_after (self : Name) (clock : Nat) (es : List Event) (T : SymbolCode)
    (keeps : Along (step self) (Meets self fun c _ a => KeepsTypes c a) (World.genesis clock) es) :
    debtTotal self T (after self clock es).state = sumOver T liveDebt (after self clock es).state +
      tally (step self) (counted self (opened T)) (World.genesis clock) es := by
  have booked := raised_eq (f := fun s => debtTotal self T s - sumOver T liveDebt s) (g := opened T)
    (Kept.queueless self) (fun _ _ _ _ own kept ok h => by subst own; exact kept.apply ok h)
    (fun _ _ => rfl)
    (fun _ _ _ _ own kept ok h => by subst own; exact debt_booked kept.sound kept.filed ok h)
    (Kept.empty self) keeps
  have start : debtTotal self T State.empty - sumOver T liveDebt State.empty = 0 := rfl
  simp only [World.genesis] at booked start ⊢
  unfold after World.genesis
  omega

/-- When all CDPs of a type are live, its stablecoin total is the sum of their
debts just when no liquidation has ever been opened on the type. -/
theorem debt_total_iff (self : Name) (clock : Nat) (es : List Event) (T : SymbolCode) (st : Stat)
    (keeps : Along (step self) (Meets self fun c _ a => KeepsTypes c a) (World.genesis clock) es)
    (type : (after self clock es).state.stats.lookup (self, T) = some st)
    (live : AllLive T (after self clock es).state) :
    st.totalStablecoin.amount =
        sumOver T (fun it => it.stablecoin.amount) (after self clock es).state ↔
      Along (step self) (Meets self fun c s a => ¬ Opens T c s a) (World.genesis clock) es := by
  have total := debtTotal_after self clock es T keeps
  have all : sumOver T liveDebt (after self clock es).state =
      sumOver T (fun it => it.stablecoin.amount) (after self clock es).state :=
    sumOver_congr fun owner it found => by
      have alive : it.live = true := live _ ((Table.lookup_iff_mem _ _ _).mp found) rfl
      simp [liveDebt, alive]
  have unopened : tally (step self) (counted self (opened T)) (World.genesis clock) es = 0 ↔
      Along (step self) (fun w e => counted self (opened T) w e = 0) (World.genesis clock) es :=
    tally_eq_zero_iff (counted_opened_nonneg self) _ _
  simp only [counted_opened_iff] at unopened
  rw [debtTotal, type, Option.elim_some, all] at total
  rw [← unopened]
  omega

/-! ## Collateral -/

def inSymbol (symbol : Symbol) (it : Cdp) : Int :=
  if it.collateral.symbol = symbol then it.collateral.amount else 0

/-- The symbol that a remainder is offered in for the next round. -/
def nextCollateral (it : Cdp) (price : Asset) : Symbol :=
  if 0 < it.stablecoin.amount then
    if it.stablecoin.symbol = IQ_SYMBOL then price.symbol else IQ_SYMBOL
  else it.stablecoin.symbol

theorem nextCollateral_eq {it next : Cdp} {price : Asset} (debt : it.stablecoin.amount ≠ 0)
    (h : convertRemainder it price = .ok next) :
    next.collateral.symbol = nextCollateral it price := by
  cases convertRemainder_ok debt h with
  | shortIQ short iq => rw [nextCollateral, if_pos short, if_pos iq]
  | short short other => rw [nextCollateral, if_pos short, if_neg other]
  | surplusIQ surplus iq =>
    rw [nextCollateral, if_neg (by omega)]
    rfl
  | surplus surplus other =>
    rw [nextCollateral, if_neg (by omega)]
    rfl

/-- The calls that leave the collateral total right: `shut` finds no collateral,
a bid that ends a round finds none in the type's symbol and starts none. -/
def KeepsCollateral (T : SymbolCode) (c : Ctx) (s : State) : Action → Prop
  | .shut owner symbl =>
    symbl = T → ∀ it ∈ s.cdps.lookup (T, owner), it.collateral.amount = 0
  | .liquify _ owner symbl bidamt =>
    symbl = T → ∀ st ∈ s.stats.lookup (c.self, T), ∀ it ∈ s.cdps.lookup (T, owner),
      ∀ bt ∈ s.bids.lookup (T, owner),
        if roundOpen c st bt then
          it.stablecoin.amount = bidamt.amount - bt.bidamt.amount →
            inSymbol st.totalCollateral.quantity.symbol it = 0
        else inSymbol st.totalCollateral.quantity.symbol it = 0 ∧
          (it.stablecoin.amount ≠ 0 → ∀ fv ∈ s.feeds.lookup IQ_SYMBOL.code,
            nextCollateral it fv.price ≠ st.totalCollateral.quantity.symbol)
  | _ => True

instance (T : SymbolCode) (c : Ctx) (s : State) : (a : Action) → Decidable (KeepsCollateral T c s a)
  | .shut .. => inferInstanceAs (Decidable (_ → ∀ it ∈ s.cdps.lookup _, _))
  | .liquify .. => by unfold KeepsCollateral; infer_instance
  | .openCdp .. | .close .. | .lock .. | .bail .. | .draw .. | .wipe .. | .settle .. | .vote ..
  | .propose .. | .referended .. | .upfeed .. | .withdraw .. | .deposit .. => isTrue trivial

/-- Under `KeepsCollateral` a step books on the collateral total what it does to the CDP. -/
theorem CdpStep.inSymbol (hs : Sound s) {k : SymbolCode × Name} {new : Option Cdp} {st : Stat}
    (h : CdpStep c s a k (s.cdps.lookup k) new) (hk : k.1 = T)
    (type : s.stats.lookup (c.self, T) = some st) (keeps : KeepsCollateral T c s a)
    (typed : ∀ it, s.cdps.lookup k = some it → it.live = true →
      it.collateral.symbol = st.totalCollateral.quantity.symbol) :
    new.elim 0 (inSymbol st.totalCollateral.quantity.symbol) =
      (s.cdps.lookup k).elim 0 (inSymbol st.totalCollateral.quantity.symbol) +
        a.collected (s.cdps.lookup k) := by
  generalize found : s.cdps.lookup k = old at h typed ⊢
  cases h with
  | opened => simp [Maker.inSymbol, Action.collected]
  | freed _ _ _ live =>
    have symbol := typed _ rfl live
    simp only [Maker.inSymbol, Action.collected, Option.elim_some, symbol, if_true]
    omega
  | drawn => simp [Maker.inSymbol, Action.collected]
  | wiped => simp [Maker.inSymbol, Action.collected]
  | locked _ _ live =>
    have symbol := typed _ rfl live
    simp [Maker.inSymbol, Action.collected, symbol]
  | shut =>
    subst hk
    have none := keeps rfl _ found
    simp [Maker.inSymbol, Action.collected, none]
  | @bid bidder owner symbl bidamt st' row it lot _ type' opened bidding written =>
    subst hk
    cases type.symm.trans type'
    simp only [Action.collected, Option.elim_some, add_zero]
    cases bidding with
    | first none taken left =>
      obtain ⟨_, _, -, -, rfl⟩ := firstBid_ok taken
      rcases written with ⟨-, rfl⟩ | ⟨paid, -⟩
      · rcases openAuction_ok opened with ⟨-, rfl⟩ | ⟨_, _, -, -, -, -, -, rfl⟩ <;> rfl
      · exact absurd paid left
    | next bt standing running taken =>
      cases standing_unopened hs standing found opened
      obtain ⟨_, _, _, -, -, -, -, -, rfl⟩ := outbid_ok taken
      have ends := keeps rfl st type _ found bt standing
      rw [if_pos running] at ends
      rcases written with ⟨-, rfl⟩ | ⟨paid, rfl⟩
      · rfl
      · exact (ends (by simp only at paid; omega)).symm
    | roll bt spent standing expired awarded taken =>
      cases standing_unopened hs standing found opened
      have ends := keeps rfl st type _ found bt standing
      rw [if_neg (by simp [expired])] at ends
      obtain ⟨gone, starts⟩ := ends
      rw [gone]
      rcases written with ⟨left, rfl⟩ | ⟨-, rfl⟩
      · obtain ⟨fv, next, _, _, _, debt, iq, converted, -, -, -, rfl⟩ :=
          roll_ok hs standing found opened awarded taken
        have other := starts debt fv iq
        rw [← nextCollateral_eq debt converted] at other
        simp only [Maker.inSymbol, Option.elim_some, other, if_false]
      · rfl

/-- The collateral total of a type is the collateral its CDPs hold in its symbol. -/
def Reconciled (self : Name) (T : SymbolCode) (s : State) : Prop :=
  ∀ st ∈ s.stats.lookup (self, T), st.totalCollateral.quantity.amount =
    sumOver T (inSymbol st.totalCollateral.quantity.symbol) s

instance (self : Name) (T : SymbolCode) (s : State) : Decidable (Reconciled self T s) :=
  inferInstanceAs (Decidable (∀ st ∈ s.stats.lookup _, _))

theorem Reconciled.apply (hk : Kept c.self s) (hr : Reconciled c.self T s) (keeps : KeepsTypes c a)
    (calm : KeepsCollateral T c s a) (h : Maker.apply c s a = .ok s') :
    Reconciled c.self T s' := by
  intro st' new
  rcases apply_cdps h with ⟨none, same⟩ | ⟨k, target, others, moved⟩
  · have sums : sumOver T (inSymbol st'.totalCollateral.quantity.symbol) s' =
        sumOver T (inSymbol st'.totalCollateral.quantity.symbol) s := by
      rw [sumOver, same, ← sumOver]
    rcases (apply_unbooked hk.filed keeps h none).2 T st' new
      with ⟨st, old, -, total⟩ | ⟨absent, fresh⟩
    · rw [sums, total]
      exact hr st old
    · rw [sums, fresh.2.1, sumOver_none]
      intro owner
      cases found : s.cdps.lookup (T, owner) with
      | none => rfl
      | some it =>
        obtain ⟨κ, kind, -⟩ := hk.typed _ _ found
        rw [kindOf, absent] at kind
        cases kind
  · obtain ⟨st, st'', booked⟩ := apply_booked hk.sound h target
    by_cases hT : k.1 = T
    · have type := booked.type
      rw [hT] at type
      cases new.symm.trans (hT ▸ booked.type')
      have symbol : st'.totalCollateral.quantity.symbol = st.totalCollateral.quantity.symbol :=
        congrArg Kind.collateral booked.kind
      have typed : ∀ it, s.cdps.lookup k = some it → it.live = true →
          it.collateral.symbol = st.totalCollateral.quantity.symbol := by
        intro it found live
        obtain ⟨κ, kind, symbols⟩ := hk.typed k it found
        rw [kindOf, hT, type] at kind
        cases kind
        exact (symbols live).1
      have cdp := moved.inSymbol hk.sound hT type calm typed
      have sums := sumOver_move (f := inSymbol st.totalCollateral.quantity.symbol) hT others
      have before := hr st type
      have collected := booked.collected
      rw [symbol]
      omega
    · have old : s.stats.lookup (c.self, T) = some st' := by
        rw [← booked.others _ fun e => hT (congrArg Prod.snd e).symm]
        exact new
      rw [sumOver_other hT others]
      exact hr st' old

/-- The collateral total is right after every run without a call that miscounts it. -/
theorem collateral_total (self : Name) (clock : Nat) (es : List Event) (T : SymbolCode)
    (calm : Along (step self) (Meets self fun c s a => KeepsTypes c a ∧ KeepsCollateral T c s a)
      (World.genesis clock) es) :
    Reconciled self T (after self clock es).state := by
  have run := invariant (P := fun s => Kept self s ∧ Reconciled self T s)
    ((Kept.queueless self).and fun _ _ h => h)
    (fun _ _ _ _ own kept ok h => by
      subst own
      exact ⟨kept.1.apply ok.1 h, kept.2.apply kept.1 ok.1 ok.2 h⟩)
    ⟨Kept.empty self, by intro st none; cases none⟩ calm
  exact run.2

section

open Sample

/-- A run in which `nick` opens, borrows, repays a part and puts in more. -/
def banked : List Event :=
  funded EOS 200 1000000 ++
    [ borrow 10000,
      .act [nick] (.deposit IQ_NAME nick daiqcontract ⟨1000, IQ_SYMBOL⟩ []),
      .act [nick] (.wipe nick FUD ⟨4000, USD⟩),
      .act [nick] (.deposit eosioToken nick daiqcontract ⟨500000, EOS⟩ []),
      .act [nick] (.lock nick FUD ⟨500000, EOS⟩),
      .act [nick] (.bail nick FUD ⟨100000, EOS⟩) ]

theorem collateral_total_banked :
    Reconciled daiqcontract FUD (after daiqcontract 1000 banked).state :=
  collateral_total daiqcontract 1000 banked FUD (by decide +kernel)

/-- `shut` adds the collateral it hands back to the total, with no CDP left. -/
theorem shut_miscounts :
    ¬ Reconciled daiqcontract FUD (after daiqcontract 1000
      (funded EOS 200 1000000 ++ [.act [nick] (.shut nick FUD)])).state := by
  decide +kernel

theorem debt_total_banked :
    (6000 : Int) =
      sumOver FUD (fun it => it.stablecoin.amount) (after daiqcontract 1000 banked).state :=
  (debt_total_iff daiqcontract 1000 banked FUD
    { (terms EOS 150).draft with
      live := true, lastVote := 1005, totalStablecoin := ⟨6000, USD⟩
      totalCollateral := ⟨⟨1400000, EOS⟩, eosioToken⟩ }
    (by decide +kernel) (by decide +kernel) (by decide +kernel)).mpr (by decide +kernel)

/-- `nick` bids on his own CDP after a price update, `sick` outbids him and pays it off. -/
def auctioned : List Event :=
  funded EOS 200 1000000 ++
    [ borrow 10000,
      .act [sick] (.deposit eosioToken sick daiqcontract ⟨2000000, EOS⟩ []),
      .act [sick] (.openCdp sick FUD sick),
      .act [sick] (.lock sick FUD ⟨2000000, EOS⟩),
      .act [sick] (.draw sick FUD ⟨15000, USD⟩),
      .act [daiqcontract] (.upfeed daiqcontract ⟨200, USD⟩ FUD EOS),
      .act [nick] (.liquify nick nick FUD ⟨5000, USD⟩),
      .act [sick] (.liquify sick nick FUD ⟨15000, USD⟩) ]

/-- The debt of the liquidated CDP stays in the total. -/
theorem liquify_miscounts : ∃ st, (after daiqcontract 1000 auctioned).state.stats.lookup
      (daiqcontract, FUD) = some st ∧
    AllLive FUD (after daiqcontract 1000 auctioned).state ∧
    st.totalStablecoin.amount = 25000 ∧
    sumOver FUD (fun it => it.stablecoin.amount) (after daiqcontract 1000 auctioned).state =
      15000 :=
  ⟨{ (terms EOS 150).draft with
      live := true, lastVote := 1005, totalStablecoin := ⟨25000, USD⟩
      totalCollateral := ⟨⟨3000000, EOS⟩, eosioToken⟩ },
    by decide +kernel, by decide +kernel, rfl, by decide +kernel⟩

end

end DecentralBank.Maker
