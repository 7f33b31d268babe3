import DecentralBank.Maker.Accounts

/-!
# Bids and auctions

A CDP is in liquidation for as long as it has a standing bid. A bid that is
covered and in time is refused only where a row of an account is in its way, or
where it would end an auction that has no bid yet.
-/

namespace DecentralBank.Maker

open Runs

variable {c : Ctx} {s s' : State} {a : Action}

/-- A CDP in liquidation has a standing bid in the symbol of what is left to pay. -/
def Auctioned (s : State) : Prop :=
  s.cdps.All fun k it => it.live = false →
    ∃ bt, s.bids.lookup k = some bt ∧ bt.bidamt.symbol = it.stablecoin.symbol

theorem Auctioned.empty : Auctioned State.empty := Table.All.empty _

theorem Auctioned.queueless : Queueless Auctioned := fun _ _ h => h

section Structure

variable {bidder owner : Name} {symbl : SymbolCode} {bidamt : Asset} {st : Stat} {it row : Cdp}
  {lot : Lot}

/-- The bid that stands after a bid is in the symbol of what is left to pay. -/
theorem Bidding.bid_symbol (hs : Sound s) (h : Bidding c s bidder owner symbl bidamt st it lot)
    (found : s.cdps.lookup (symbl, owner) = some row) (opened : openAuction c s st row = .ok it) :
    lot.bt.bidamt.symbol = lot.it.stablecoin.symbol := by
  cases h with
  | first _ taken _ =>
    obtain ⟨_, _, symbol, -, rfl⟩ := firstBid_ok taken
    exact symbol
  | next bt _ _ taken =>
    obtain ⟨_, _, _, symbol, -, -, -, -, rfl⟩ := outbid_ok taken
    exact symbol
  | roll bt spent standing _ awarded taken =>
    obtain ⟨_, _, _, _, _, -, -, -, symbol, -, -, rfl⟩ :=
      roll_ok hs standing found opened awarded taken
    exact symbol

/-- Only a bid puts a CDP into liquidation or leaves it there. -/
theorem CdpStep.dead {k : SymbolCode × Name} {old new : Option Cdp} (h : CdpStep c s a k old new)
    (hn : new = some it) (dead : it.live = false) : a.auctions = true := by
  cases h with
  | bid => rfl
  | shut => cases hn
  | opened =>
    cases hn
    cases dead
  | freed _ _ _ live | drawn _ _ _ live | wiped _ _ live | locked _ _ live =>
    cases hn
    exact absurd (live.symm.trans dead) (by decide)

theorem Auctioned.apply (hs : Sound s) (ha : Auctioned s) (h : Maker.apply c s a = .ok s') :
    Auctioned s' := by
  intro k it found dead
  by_cases auction : a.auctions = false
  · rw [(apply_frame h).1 auction]
    rcases apply_cdp h k with ⟨-, same⟩ | ⟨-, moved⟩
    · exact ha k it (same ▸ found) dead
    · rw [moved.dead found dead] at auction
      cases auction
  · cases a with
    | liquify bidder owner symbl bidamt =>
      obtain ⟨st, row, it', lot, -, -, -, stored, opened, bidding, done⟩ := liquify_ok h
      have symbol := bidding.bid_symbol hs stored opened
      obtain ⟨-, cdp, bid⟩ | ⟨rfl, ⟨cdp, bid⟩ | ⟨gone, -⟩⟩ := finish_lookup done k
      · rw [bid]
        exact ha k it (cdp ▸ found) dead
      · cases cdp.symm.trans found
        exact ⟨lot.bt, bid, symbol⟩
      · cases gone.symm.trans found
    | _ => exact absurd rfl auction

theorem auctioned_after (self : Name) (clock : Nat) (es : List Event) :
    Sound (after self clock es).state ∧ Auctioned (after self clock es).state :=
  always (Sound.queueless.and Auctioned.queueless)
    (fun _ _ _ _ _ kept h => ⟨kept.1.apply h, kept.2.apply kept.1 h⟩) ⟨Sound.empty, Auctioned.empty⟩

/-- A CDP has a standing bid if and only if it is in liquidation, and then it
has something left to pay. -/
theorem bid_iff_liquidation (self : Name) (clock : Nat) (es : List Event) (T : SymbolCode)
    (owner : Name) :
    ((∃ bt, (after self clock es).state.bids.lookup (T, owner) = some bt) ↔
      ∃ it, (after self clock es).state.cdps.lookup (T, owner) = some it ∧ it.live = false) ∧
    ∀ it, (after self clock es).state.cdps.lookup (T, owner) = some it → it.live = false →
      it.stablecoin.amount ≠ 0 := by
  obtain ⟨sound, auctioned⟩ := auctioned_after self clock es
  refine ⟨⟨?_, ?_⟩, fun it found dead => (sound.cdps _ it found).left dead⟩
  · rintro ⟨bt, standing⟩
    exact (sound.bids _ bt standing).2
  · rintro ⟨it, found, dead⟩
    obtain ⟨bt, standing, -⟩ := auctioned _ it found dead
    exact ⟨bt, standing⟩

end Structure

end DecentralBank.Maker
