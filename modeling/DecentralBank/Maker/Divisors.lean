import DecentralBank.Maker.Sound

/-!
# Divisions

The contract divides by the debt of a CDP, the price of IQ and the debt of a
type. A price stays positive until its feed is updated; each other divisor is
checked first, but for the debt of a type in `settle`, which is scaled to a
word after the check.
-/

namespace DecentralBank.Maker

open Checked Runs

/-- A failure other than a division by zero. -/
@[simp] def Undivided (e : String) : Prop := e ≠ "integer divide by zero"

variable {c : Ctx} {s s' : State} {a : Action}

/-! ## Prices -/

/-- A price is fed once. -/
def FedOnce (s : State) : Action → Prop
  | .upfeed _ _ _ symbl => s.feeds.lookup symbl.code = none
  | _ => True

instance (s : State) : (a : Action) → Decidable (FedOnce s a)
  | .upfeed .. => inferInstanceAs (Decidable (_ = none))
  | .openCdp .. | .close .. | .shut .. | .lock .. | .bail .. | .draw .. | .wipe .. | .settle ..
  | .vote .. | .propose .. | .referended .. | .liquify .. | .withdraw .. | .deposit .. =>
    isTrue trivial

/-- Every price is positive. -/
def Priced (s : State) : Prop := ∀ k q, quote s.feeds k = some q → 0 < q.1.amount

theorem Priced.empty : Priced State.empty := fun k q hq => by cases hq

theorem Priced.queueless : Queueless Priced := fun _ _ h => h

theorem Priced.lookup (hp : Priced s) {k : SymbolCode} {f : Feed}
    (found : s.feeds.lookup k = some f) :
    0 < f.price.amount :=
  hp k _ (quote_of_lookup found)

theorem Priced.apply (hp : Priced s) (once : FedOnce s a) (h : Maker.apply c s a = .ok s') :
    Priced s' := by
  intro k q hq
  rcases apply_quote h with same | ⟨_, price, _, symbol, rfl, positive, rfl⟩
  · exact hp k q (same ▸ hq)
  · have unfed : s.feeds.lookup symbol.code = none := once
    obtain old | ⟨rfl, ⟨-, rfl⟩ | ⟨f, stored, -⟩⟩ := upfed_quote hq
    · exact hp k q old
    · exact positive
    · cases unfed.symm.trans stored

/-! ## Divisors -/

section Parts

variable {accounts : Accounts} {owner : Name} {value : Asset} {code : Name}

@[simp] theorem make_undivided (amount : Int) (symbol : Symbol) :
    FailsOnly Undivided (Asset.make amount symbol) := by
  simp [Asset.make]

@[simp] theorem add_undivided (x y : Asset) :
    FailsOnly Undivided (x.add y) := by
  simp [Asset.add]

@[simp] theorem sub_undivided (x y : Asset) :
    FailsOnly Undivided (x.sub y) := by
  simp [Asset.sub]

@[simp] theorem gt_undivided (x y : Asset) :
    FailsOnly Undivided (x.gt y) := by
  simp [Asset.gt, Asset.comparable]

@[simp] theorem eq_undivided (x y : Asset) :
    FailsOnly Undivided (x.eq y) := by
  simp [Asset.eq, Asset.comparable]

@[simp] theorem requireAuth_undivided (account : Name) :
    FailsOnly Undivided (c.requireAuth account) := by
  simp [Ctx.requireAuth]

@[simp] theorem subBalance_undivided :
    FailsOnly Undivided (subBalance accounts owner value) := by
  simp [subBalance]

@[simp] theorem addBalance_undivided :
    FailsOnly Undivided (addBalance accounts owner value code) := by
  unfold addBalance
  split <;> simp

@[simp] theorem divI64_undivided (x y : Int) :
    FailsOnly Undivided (divI64 x y) ↔ y ≠ 0 := by
  simp [divI64]

@[simp] theorem divU64_undivided (x y : Nat) :
    FailsOnly Undivided (divU64 x y) ↔ y ≠ 0 := by
  simp [divU64]

end Parts

section Actions

variable {owner bidder : Name} {symbl : SymbolCode} {quantity bidamt : Asset}

theorem bail_undivided : FailsOnly Undivided (bail c s owner symbl quantity) := by
  simp [bail, bailRatio]

/-- The debt that `draw` divides by is the one after it, which is a positive word. -/
theorem draw_undivided (hs : Sound s) : FailsOnly Undivided (draw c s owner symbl quantity) := by
  simp only [draw, drawRatio, bind_pure_comp, bind_map_left, failsOnly_bind, requireAuth_undivided,
    Ctx.requireAuth_eq_ok, failsOnly_require, Undivided, ne_eq, String.reduceEq, not_false_eq_true,
    or_true, require_eq_ok, failsOnly_find, find_eq_ok, divU64_undivided, addBalance_undivided,
    add_undivided, failsOnly_map, implies_true, and_self, and_true, true_and, forall_const,
    ExceptT.stM_eq]
  intro _ valid _ positive st _ _ _ it found live _ _ _ _ _
  have debt := (hs.cdps _ it found).debt live
  simp only [Asset.isValid, Asset.isAmountWithinRange, Bool.and_eq_true, decide_eq_true_eq] at valid
  have word := u64_of_lt (x := it.stablecoin.amount + quantity.amount) (by omega) (by
    simp only [Asset.maxAmount] at debt valid
    omega)
  omega

theorem wipe_undivided (hp : Priced s) : FailsOnly Undivided (wipe c s owner symbl quantity) := by
  simp only [wipe, stabilityFee, bind_pure_comp, bind_map_left, failsOnly_bind,
    requireAuth_undivided, Ctx.requireAuth_eq_ok, failsOnly_require, Undivided, ne_eq,
    String.reduceEq, not_false_eq_true, or_true, require_eq_ok, failsOnly_find, find_eq_ok,
    gt_undivided, divI64_undivided, make_undivided, subBalance_undivided, add_undivided,
    sub_undivided, failsOnly_map, implies_true, and_self, and_true, true_and, forall_const,
    ExceptT.stM_eq, Asset.gt_eq_ok]
  intro _ _ _ _ st _ _ it _ _ more _ _ fv price
  exact (hp.lookup price).ne'

theorem lock_undivided : FailsOnly Undivided (lock c s owner symbl quantity) := by
  simp [lock]

theorem shut_undivided : FailsOnly Undivided (shut c s owner symbl) := by
  simp [shut, shutDebt, shutCollateral]

/-- The debt of a type is not a multiple of `2 ^ 60`, so ten thousand times it
is not zero as a word. -/
def Scaled (c : Ctx) (s : State) : Action → Prop
  | .settle _ symbl => ∀ st, s.stats.lookup (c.self, symbl) = some st →
      ¬ 2 ^ 60 ∣ st.totalStablecoin.amount
  | _ => True

theorem scaled_word {x : Int} (h : ¬ 2 ^ 60 ∣ x) : i64 (x * 10000) ≠ 0 := by
  intro zero
  rw [i64] at zero
  have divides := Int.dvd_of_bmod_eq_zero zero
  omega

theorem settle_undivided (scaled : Scaled c s (.settle owner symbl)) :
    FailsOnly Undivided (settle c s owner symbl) := by
  simp only [settle, settleRatio, bind_pure_comp, bind_map_left, failsOnly_bind,
    requireAuth_undivided, Ctx.requireAuth_eq_ok, failsOnly_require, Undivided, ne_eq,
    String.reduceEq, not_false_eq_true, or_true, require_eq_ok, failsOnly_find, find_eq_ok,
    divI64_undivided, failsOnly_map, implies_true, and_true, true_and, forall_const,
    ExceptT.stM_eq]
  intro _ _ st type _ _ _ _
  exact scaled_word (scaled st type)

end Actions

section Referenda

variable {proposer voter : Name} {symbl : SymbolCode} {t : Terms}

@[simp] theorem schedule_undivided : FailsOnly Undivided (schedule c s proposer symbl) := by
  simp [schedule]

theorem propose_undivided : FailsOnly Undivided (propose c s proposer symbl t) := by
  simp [propose, fileTerms, draft]

theorem vote_undivided {against : Bool} {quantity : Asset} :
    FailsOnly Undivided (vote c s voter symbl against quantity) := by
  have escrow (accounts : Accounts) :
      FailsOnly Undivided (escrow accounts voter symbl quantity.amount) := by
    simp only [Maker.escrow, failsOnly_bind, make_undivided, true_and]
    intro ballot _
    split <;> simp
  simp [vote, escrow, countVote]

theorem referended_undivided : FailsOnly Undivided (referended c s proposer symbl) := by
  have refunds (accounts : Accounts) : FailsOnly Undivided (refundVotes accounts symbl) :=
    failsOnly_foldlM (fun _ _ => by simp [refund]) _ _
  have enacts (stats : Table (Name × SymbolCode) Stat) (pstat : Option Stat) :
      FailsOnly Undivided (enact c stats symbl pstat) := by
    unfold enact
    split <;> simp
  simp [referended, outcome, refunds, enacts]

end Referenda

section Bids

variable {bidder owner : Name} {symbl : SymbolCode} {bidamt : Asset} {st : Stat} {it : Cdp}
  {bt : Bid} {lot : Lot}

theorem openAuction_undivided : FailsOnly Undivided (openAuction c s st it) := by
  simp [openAuction, liquifyRatio]
  omega

@[simp] theorem outbid_undivided :
    FailsOnly Undivided (outbid c s st it bt bidder bidamt) := by
  simp [outbid]

@[simp] theorem awardCollateral_undivided :
    FailsOnly Undivided (awardCollateral c s st it bt) := by
  simp [awardCollateral, lessCollateral]

theorem convertRemainder_undivided {price : Asset} (positive : 0 < price.amount) :
    FailsOnly Undivided (convertRemainder it price) := by
  simp [convertRemainder, positive.ne']

theorem offerRemainder_undivided
    (priced : ∀ fv, lot.feeds.lookup IQ_SYMBOL.code = some fv → 0 < fv.price.amount) :
    FailsOnly Undivided (offerRemainder c lot bidder bidamt) := by
  simp only [offerRemainder, bind_pure_comp, failsOnly_ite, failsOnly_pure, failsOnly_bind,
    failsOnly_find, failsOnly_require, Undivided, ne_eq, String.reduceEq, not_false_eq_true,
    or_true, find_eq_ok, require_eq_ok, subBalance_undivided, sub_undivided, failsOnly_map,
    implies_true, and_self, and_true, true_and, forall_const, ExceptT.stM_eq]
  intro _ fv price _
  exact convertRemainder_undivided (priced fv price)

@[simp] theorem finish_undivided : FailsOnly Undivided (finish c s owner symbl lot) := by
  simp [finish, settleLot]

theorem liquify_undivided (hp : Priced s) :
    FailsOnly Undivided (liquify c s bidder owner symbl bidamt) := by
  simp only [liquify, failsOnly_bind, requireAuth_undivided, failsOnly_require, Undivided, ne_eq,
    String.reduceEq, not_false_eq_true, or_true, failsOnly_find, openAuction_undivided, true_and,
    ExceptT.stM_eq]
  intro _ _ _ _ _ _ st _ row _ it _
  cases s.bids.lookup (symbl, owner) with
  | none => simp [firstBid]
  | some bt =>
    simp only [nextBid, rollover, failsOnly_bind, failsOnly_ite, outbid_undivided,
      awardCollateral_undivided, finish_undivided, implies_true, and_true, true_and]
    intro _ spent awarded
    refine offerRemainder_undivided fun fv price => ?_
    rw [award_feeds awarded] at price
    exact hp.lookup price

end Bids

/-! ## Calls -/

theorem apply_undivided (hs : Sound s) (hp : Priced s) (scaled : Scaled c s a) :
    FailsOnly Undivided (apply c s a) := by
  cases a with
  | draw => exact draw_undivided hs
  | bail => exact bail_undivided
  | wipe => exact wipe_undivided hp
  | lock => exact lock_undivided
  | shut => exact shut_undivided
  | settle => exact settle_undivided scaled
  | liquify => exact liquify_undivided hp
  | openCdp => simp [apply, openCdp]
  | close => simp [apply, close]
  | vote => exact vote_undivided
  | propose => exact propose_undivided
  | referended => exact referended_undivided
  | upfeed feeder price cdpType symbol =>
    simp only [apply, upfeed]
    cases s.feeds.lookup symbol.code with
    | none => simp
    | some f => simp
  | withdraw => simp [apply, withdraw, withdrawal, getBalance]
  | deposit => simp [apply, deposit]

/-- In a run that feeds each price once, every price is positive, and no call
divides by zero, unless it settles a type whose debt is a multiple of `2 ^ 60`. -/
theorem division_guarded (self : Name) (clock : Nat) (es : List Event)
    (once : Along (step self) (Meets self fun _ s a => FedOnce s a) (World.genesis clock) es) :
    (∀ k f, (after self clock es).state.feeds.lookup k = some f → 0 < f.price.amount) ∧
    ∀ e c s a, (after self clock es).call self e = some (c, s, a) → Scaled c s a →
      apply c s a ≠ .error "integer divide by zero" := by
  obtain ⟨sound, priced⟩ : Sound (after self clock es).state ∧ Priced (after self clock es).state :=
    invariant (Sound.queueless.and Priced.queueless)
      (fun _ _ _ _ _ kept once h => ⟨kept.1.apply h, kept.2.apply once h⟩)
      ⟨Sound.empty, Priced.empty⟩ once
  refine ⟨fun k f found => priced.lookup found, ?_⟩
  intro e c s a called scaled trap
  obtain ⟨-, sound', priced'⟩ :=
    call_meets (Sound.queueless.and Priced.queueless) ⟨sound, priced⟩ called
  exact apply_undivided sound' priced' scaled _ trap rfl

section

open Sample

/-- `nick` repays one dollar. -/
def repayDollar : Event := .act [nick] (.wipe nick FUD ⟨100, USD⟩)

theorem division_guarded_nick : ∃ c s a,
    (after daiqcontract 1000 (funded EOS 200 1000000 ++ [borrow 10000])).call daiqcontract
        repayDollar =
      some (c, s, a) ∧ apply c s a ≠ .error "integer divide by zero" :=
  ⟨_, _, _, rfl, (division_guarded daiqcontract 1000 (funded EOS 200 1000000 ++ [borrow 10000])
    (by decide +kernel)).2 repayDollar _ _ _ rfl trivial⟩

/-- IQ is priced twice at 5.00 USD. -/
def repriced : List Event :=
  funded EOS 200 1000000 ++
    [borrow 10000, .act [daiqcontract] (.upfeed daiqcontract ⟨500, USD⟩ FUD IQ_SYMBOL)]

/-- The second price of IQ is stored as zero, and `wipe` divides by it. -/
theorem second_price_traps :
    (∃ f, (after daiqcontract 1000 repriced).state.feeds.lookup IQ_SYMBOL.code = some f ∧
      ¬ 0 < f.price.amount) ∧
    ∃ c s a, (after daiqcontract 1000 repriced).call daiqcontract repayDollar = some (c, s, a) ∧
      apply c s a = .error "integer divide by zero" :=
  ⟨⟨⟨⟨1000, IQ_SYMBOL⟩, ⟨0, USD⟩, 1005⟩, by decide +kernel, by decide⟩, _, _, _, rfl,
    failure_eq_some.mp (by decide +kernel)⟩

end

end DecentralBank.Maker
