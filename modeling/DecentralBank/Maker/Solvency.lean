import DecentralBank.Maker.Votes
import DecentralBank.Maker.Genuine

/-!
# Custody

A token is a symbol and the contract that issues it. What the contract owes in
a token of another contract is at most what it has taken in and not paid out,
and what auctions have put up for sale without having it.
-/

namespace DecentralBank.Maker

open Runs

abbrev Token := Symbol × Name

def iqToken : Token := (IQ_SYMBOL, IQ_NAME)

/-- An amount, if its label is the token. -/
def share (token label : Token) (amount : Int) : Int := if label = token then amount else 0

section Shares

variable {token label : Token}

theorem share_add (x y : Int) :
    share token label (x + y) = share token label x + share token label y := by
  unfold share
  split <;> omega

theorem share_sub (x y : Int) :
    share token label (x - y) = share token label x - share token label y := by
  unfold share
  split <;> omega

@[simp] theorem share_zero : share token label 0 = 0 := by
  unfold share
  split <;> rfl

theorem share_neg (x : Int) : share token label (-x) = -share token label x := by
  unfold share
  split <;> omega

theorem share_nonneg (token label : Token) {x : Int} (h : 0 ≤ x) : 0 ≤ share token label x := by
  unfold share
  split <;> omega

theorem share_mono {x y : Int} (h : x ≤ y) : share token label x ≤ share token label y := by
  unfold share
  split <;> omega

end Shares

/-! ## Claims -/

/-- The balances in a token. -/
def balances (token : Token) (accounts : Accounts) : Int :=
  accounts.total fun _ row => share token row.label row.amount

/-- The contract that the collateral of a CDP comes from. -/
def Kind.source (own : Name) (κ : Kind) (symbol : Symbol) : Name :=
  if symbol = IQ_SYMBOL then IQ_NAME else if symbol = κ.collateral then κ.contract else own

/-- The collateral of a CDP in a token; a negative lot counts for none. -/
def stake (own : Name) (token : Token) (κ : Kind) (collateral : Asset) : Int :=
  share token (collateral.symbol, κ.source own collateral.symbol) (max 0 collateral.amount)

def pledged (own : Name) (token : Token) (stats : Table (Name × SymbolCode) Stat)
    (cdps : Table (SymbolCode × Name) Cdp) : Int :=
  cdps.total fun k it => (kindOf own stats k.1).elim 0 fun κ => stake own token κ it.collateral

/-- The votes in escrow. -/
def ballots (props : Table SymbolCode Proposal) : Int :=
  props.total fun _ prop => prop.yay.amount + prop.nay.amount

/-- The fees collected. -/
def fees (own : Name) (stats : Table (Name × SymbolCode) Stat) : Int :=
  stats.total fun k st => if k.1 = own then st.feeBalance.amount else 0

/-- A bid, if it is in IQ. -/
def Bid.iq (bt : Bid) : Int := if bt.bidamt.symbol = IQ_SYMBOL then bt.bidamt.amount else 0

/-- The open bids in IQ. -/
def bidden (bids : Table (SymbolCode × Name) Bid) : Int := bids.total fun _ bt => bt.iq

/-- What the contract holds in IQ besides balances and collateral. -/
def reserves (own : Name) (s : State) : Int := ballots s.props + fees own s.stats + bidden s.bids

/-- All claims on the contract in a token. -/
def claims (own : Name) (token : Token) (s : State) : Int :=
  balances token s.accounts + pledged own token s.stats s.cdps +
    share token iqToken (reserves own s)

/-- What has been paid out in a token. -/
def withdrawn (token : Token) (sent : List Transfer) : Int :=
  (sent.map fun t => share token (t.quantity.symbol, t.code) t.quantity.amount).sum

/-- What a deposit brings in. -/
def deposited (token : Token) (c : Ctx) (_ : State) : Action → Int
  | .deposit code source _ quantity _ =>
    if source = c.self then 0 else share token (quantity.symbol, code) quantity.amount
  | _ => 0

/-- What a roll-over puts up for sale beyond the bid it has received. -/
def minted (token : Token) (c : Ctx) (s : State) : Action → Int
  | .liquify _ owner symbl _ =>
    match s.stats.lookup (c.self, symbl), s.cdps.lookup (symbl, owner),
      s.bids.lookup (symbl, owner), s.feeds.lookup IQ_SYMBOL.code with
    | some st, some it, some bt, some fv =>
      if roundOpen c st bt then 0
      else match convertRemainder it fv.price with
        | .ok next => max 0 (stake c.self token st.kind next.collateral - share token iqToken bt.iq)
        | .error _ => 0
    | _, _, _, _ => 0
  | _ => 0

variable {c : Ctx} {s s' : State} {a : Action} {token : Token}

section Accounts

variable {x y : Accounts} {owner code : Name} {value : Asset}

theorem balances_moved {moves : List Move} (h : Moved x moves y) :
    balances token y = balances token x +
      (moves.map fun m => share token m.label m.amount).sum := by
  have weighed (label : Token) (amount : Int) :
      share token label amount = (if label = token then 1 else 0) * amount := by
    by_cases same : label = token <;> simp [share, same]
  simp only [weighed]
  exact h.total_eq (fun _ label => if label = token then 1 else 0)
    fun k row => weighed row.label row.amount

theorem balances_debit (paid : subBalance x owner value = .ok (y, code)) :
    balances token y = balances token x + -share token (value.symbol, code) value.amount := by
  rw [balances_moved (subBalance_ok paid).1]
  simp [Maker.debit, share_neg]

theorem balances_credit (moved : Moved x [credit owner value code] y) :
    balances token y = balances token x + share token (value.symbol, code) value.amount := by
  rw [balances_moved moved]
  simp [Maker.credit]

/-- The refund loop turns votes into IQ. -/
theorem balances_refunds {rows : List ((_ : SymbolCode × Name) × Account)} {T : SymbolCode}
    (named : token.2 ≠ NO_NAME) (apart : T ≠ IQ_SYMBOL.code) (scope : ∀ row ∈ rows, row.1.1 = T)
    (votes : ∀ k row, k.1 = T → x.lookup k = some row → row.code = NO_NAME)
    (h : rows.foldlM refund x = .ok y) :
    balances token y = balances token x +
      share token iqToken (rows.map fun row => Account.amount row.2).sum := by
  induction rows generalizing x with
  | nil =>
    cases h
    simp
  | cons row rows ih =>
    simp only [List.foldlM_cons, Checked.bind_eq_ok] at h
    obtain ⟨x₁, first, rest⟩ := h
    have here : row.1.1 = T := scope row List.mem_cons_self
    have kept : ∀ k new, k.1 = T → x₁.lookup k = some new → new.code = NO_NAME := by
      intro k new hk found
      rw [refund_lookup first fun e => apart (hk.symm.trans (congrArg Prod.fst e))] at found
      split at found
      · cases found
      · exact votes k new hk found
    rw [ih (fun r hr => scope r (List.mem_cons_of_mem _ hr)) kept rest]
    obtain ⟨paid, moved, rfl⟩ := refund_ok first
    have gone :
        Table.weightAt (fun _ row => share token (Account.label row) row.amount) paid row.1 =
          0 := by
      cases found : paid.lookup row.1 with
      | none => rw [Table.weightAt_none found]
      | some old =>
        have untouched : paid.lookup row.1 = x.lookup row.1 := by
          refine moved.elsewhere fun m hm e => apart ?_
          cases List.mem_singleton.mp hm
          exact here.symm.trans (congrArg Prod.fst e).symm
        have tag := votes row.1 old here (untouched ▸ found)
        rw [Table.weightAt_some found, share, if_neg]
        rintro rfl
        exact named tag
    have paidIn : balances token (paid.erase row.1) = balances token paid := by
      rw [balances, Table.total_erase, gone, sub_zero, ← balances]
    rw [paidIn, balances_credit moved, List.map_cons, List.sum_cons, share_add]
    simp only [iqToken, Account.amount]
    omega

end Accounts

section Tables

variable {own : Name}

theorem stake_nonneg (own : Name) (token : Token) (κ : Kind) (collateral : Asset) :
    0 ≤ stake own token κ collateral :=
  share_nonneg token _ (le_max_left _ _)

/-- The stake of collateral in the symbol of the type. -/
theorem stake_eq {κ : Kind} {amount : Int} (positive : 0 ≤ amount)
    (iq : κ.collateral = IQ_SYMBOL → κ.contract = IQ_NAME) :
    stake own token κ ⟨amount, κ.collateral⟩ = share token (κ.collateral, κ.contract) amount := by
  have source : κ.source own κ.collateral = κ.contract := by
    unfold Kind.source
    split
    · rename_i symbol
      exact (iq symbol).symm
    · exact if_pos rfl
  rw [stake, source, max_eq_right positive]

variable {stats : Table (Name × SymbolCode) Stat} {cdps : Table (SymbolCode × Name) Cdp}
  {k : SymbolCode × Name} {it next : Cdp} {κ : Kind}

theorem pledged_insert (kind : kindOf own stats k.1 = some κ) (found : cdps.lookup k = some it) :
    pledged own token stats (cdps.insert k next) =
      pledged own token stats cdps +
        (stake own token κ next.collateral - stake own token κ it.collateral) := by
  rw [pledged, Table.total_insert, Table.weightAt_some found, ← pledged, kind]
  simp only [Option.elim_some]
  omega

theorem pledged_erase (kind : kindOf own stats k.1 = some κ) (found : cdps.lookup k = some it) :
    pledged own token stats (cdps.erase k) =
      pledged own token stats cdps + -stake own token κ it.collateral := by
  rw [pledged, Table.total_erase, Table.weightAt_some found, ← pledged, kind]
  rfl

/-- A new CDP has no collateral yet. -/
theorem pledged_open (free : cdps.lookup k = none) (empty : next.collateral.amount = 0) :
    pledged own token stats (cdps.insert k next) = pledged own token stats cdps + 0 := by
  rw [pledged, Table.total_insert, Table.weightAt_none free, ← pledged, sub_zero]
  cases kindOf own stats k.1 <;> simp [stake, empty]

/-- Types keep their kind, so a call moves stakes by its CDPs alone. -/
theorem pledged_kept (token : Token) (ht : Typed c.self s) (keeps : KeepsTypes c a)
    (h : apply c s a = .ok s') :
    pledged c.self token s'.stats s'.cdps = pledged c.self token s.stats s'.cdps := by
  refine Table.total_congr fun k it found => ?_
  obtain ⟨κ, kind, -⟩ := ht.earlier h found
  rw [kind, kind_kept h keeps kind]

theorem ballots_insert {props : Table SymbolCode Proposal} {T : SymbolCode} {old prop : Proposal}
    (found : props.lookup T = some old) : ballots (props.insert T prop) =
      ballots props +
        ((prop.yay.amount + prop.nay.amount) - (old.yay.amount + old.nay.amount)) := by
  rw [ballots, Table.total_insert, Table.weightAt_some found, ← ballots]
  omega

/-- A proposal without votes adds none. -/
theorem ballots_open {props : Table SymbolCode Proposal} {T : SymbolCode} {prop : Proposal}
    (free : props.lookup T = none) (empty : prop.yay.amount + prop.nay.amount = 0) :
    ballots (props.insert T prop) = ballots props + 0 := by
  rw [ballots, Table.total_insert, Table.weightAt_none free, ← ballots, empty, sub_zero]

theorem ballots_erase {props : Table SymbolCode Proposal} {T : SymbolCode} {old : Proposal}
    (found : props.lookup T = some old) :
    ballots (props.erase T) = ballots props + -(old.yay.amount + old.nay.amount) := by
  rw [ballots, Table.total_erase, Table.weightAt_some found, ← ballots]
  rfl

theorem fees_insert {T : SymbolCode} {st new : Stat} (type : stats.lookup (own, T) = some st) :
    fees own (stats.insert (own, T) new) =
      fees own stats + (new.feeBalance.amount - st.feeBalance.amount) := by
  rw [fees, Table.total_insert, Table.weightAt_some type, ← fees, if_pos rfl, if_pos rfl]
  omega

theorem fees_same {T : SymbolCode} {st new : Stat} (type : stats.lookup (own, T) = some st)
    (same : new.feeBalance = st.feeBalance) :
    fees own (stats.insert (own, T) new) = fees own stats + 0 := by
  rw [fees_insert type, same, sub_self]

/-- A row that nothing is booked on brings no fees. -/
theorem fees_file {j : Name × SymbolCode} {new : Stat} (free : stats.lookup j = none)
    (fresh : new.Fresh) : fees own (stats.insert j new) = fees own stats + 0 := by
  rw [fees, Table.total_insert, Table.weightAt_none free, ← fees, fresh.2.2, ite_self]
  omega

theorem fees_erase {j : Name × SymbolCode} (other : j.1 ≠ own) :
    fees own (stats.erase j) = fees own stats := by
  have none :
      Table.weightAt (fun k st => if k.1 = own then st.feeBalance.amount else 0) stats j = 0 := by
    unfold Table.weightAt
    cases stats.lookup j <;> simp [other]
  rw [fees, Table.total_erase, none, ← fees, sub_zero]

theorem bidden_insert (bids : Table (SymbolCode × Name) Bid) (bt : Bid) :
    bidden (bids.insert k bt) = bidden bids + (bt.iq - (bids.lookup k).elim 0 Bid.iq) := by
  have here : Table.weightAt (fun _ bt => Bid.iq bt) bids k = (bids.lookup k).elim 0 Bid.iq := rfl
  rw [bidden, Table.total_insert, ← bidden, here]
  omega

theorem bidden_erase (bids : Table (SymbolCode × Name) Bid) :
    bidden (bids.erase k) = bidden bids + -(bids.lookup k).elim 0 Bid.iq := by
  rw [bidden, Table.total_erase, ← bidden]
  rfl

end Tables

/-! ## Auctions -/

section Auctions

variable {bidder owner : Name} {symbl : SymbolCode} {bidamt : Asset} {st : Stat} {it row : Cdp}
  {lot : Lot}

theorem minted_nonneg : 0 ≤ minted token c s a := by
  unfold minted
  split
  · split
    · split
      · exact le_refl 0
      · split
        · exact le_max_left _ _
        · exact le_refl 0
    · exact le_refl 0
  · exact le_refl 0

/-- A bid in IQ is paid in genuine IQ, another one is no claim. -/
theorem bid_share (token : Token) (bidder : Name) {code : Name} (positive : 0 < bidamt.amount)
    (genuine : bidamt.symbol = IQ_SYMBOL → code = IQ_NAME) (started lastbid : Nat) :
    share token iqToken (Bid.iq ⟨bidder, bidamt, started, lastbid⟩) ≤
      share token (bidamt.symbol, code) bidamt.amount := by
  unfold Bid.iq
  split
  · rename_i iq
    rw [iq, genuine iq, iqToken]
  · rw [share_zero]
    exact share_nonneg token _ positive.le

/-- A displaced bid is given back in the token it was made in. -/
theorem refund_share {bt : Bid} (external : token.2 ≠ c.self)
    (same : bt.bidamt.symbol = it.stablecoin.symbol) :
    share token (bt.bidamt.symbol, refundContract c it) bt.bidamt.amount =
      share token iqToken bt.iq := by
  unfold refundContract Bid.iq
  rw [same]
  split
  · rename_i iq
    rw [iq, iqToken]
  · rw [share_zero, share, if_neg]
    rintro rfl
    exact external rfl

/-- What a roll-over puts up for sale is covered by the bid it has received, or counted. -/
theorem minted_roll (token : Token) (bidder : Name) (bidamt : Asset) {bt : Bid} {fv : Feed}
    {next : Cdp} (type : s.stats.lookup (c.self, symbl) = some st)
    (found : s.cdps.lookup (symbl, owner) = some row)
    (standing : s.bids.lookup (symbl, owner) = some bt) (expired : roundOpen c st bt = false)
    (price : s.feeds.lookup IQ_SYMBOL.code = some fv)
    (converted : convertRemainder row fv.price = .ok next) :
    stake c.self token st.kind next.collateral ≤
      share token iqToken bt.iq + minted token c s (.liquify bidder owner symbl bidamt) := by
  simp only [minted, type, found, standing, price, expired, converted, Bool.false_eq_true, if_false]
  omega

theorem Bidding.solvent (hs : Sound s) (h : Bidding c s bidder owner symbl bidamt st it lot)
    (external : token.2 ≠ c.self) (positive : 0 < bidamt.amount)
    (type : s.stats.lookup (c.self, symbl) = some st)
    (found : s.cdps.lookup (symbl, owner) = some row) (opened : openAuction c s st row = .ok it)
    (genuine : ∀ x x' code later, subBalance x bidder bidamt = .ok (x', code) →
      Moved x' later lot.accounts → bidamt.symbol = IQ_SYMBOL → code = IQ_NAME) :
    balances token lot.accounts + stake c.self token st.kind lot.it.collateral +
        share token iqToken lot.bt.iq ≤
      balances token s.accounts + stake c.self token st.kind row.collateral +
        share token iqToken ((s.bids.lookup (symbl, owner)).elim 0 Bid.iq) +
        minted token c s (.liquify bidder owner symbl bidamt) := by
  have made : 0 ≤ minted token c s (.liquify bidder owner symbl bidamt) := minted_nonneg
  have collateral : it.collateral = row.collateral := by
    rcases openAuction_ok opened with ⟨-, rfl⟩ | ⟨_, _, -, -, -, -, -, rfl⟩ <;> rfl
  cases h with
  | first none taken _ =>
    obtain ⟨_, code, symbol, paid, rfl⟩ := firstBid_ok taken
    have bid := bid_share token bidder positive
      (genuine _ _ _ [] paid (Ledger.Posted.nil _)) c.now c.now
    rw [balances_debit paid, none, Option.elim_none, share_zero]
    simp only [collateral]
    omega
  | next bt standing _ taken =>
    obtain ⟨_, code, _, symbol, same, -, paid, refunded, rfl⟩ := outbid_ok taken
    have bid := bid_share token bidder positive
      (genuine _ _ _ _ paid refunded) bt.started c.now
    have back := refund_share external (same.trans symbol)
    rw [balances_credit refunded, balances_debit paid, back, standing, Option.elim_some]
    simp only [collateral]
    omega
  | roll bt spent standing expired awarded taken =>
    have stored := standing_unopened hs standing found opened
    subst stored
    -- the collateral that is left goes to nobody: the winner is credited zero
    have award : balances token spent.accounts = balances token s.accounts := by
      rcases awardCollateral_ok awarded with ⟨-, rfl⟩ | ⟨_, _, -, -, moved, rfl⟩
      · rfl
      · rw [balances_credit moved, share_zero, add_zero]
    obtain ⟨fv, next, _, code, _, -, iq, converted, -, paid, -, rfl⟩ :=
      roll_ok hs standing found opened awarded taken
    have offered := minted_roll token bidder bidamt type found standing expired iq converted
    have bid := bid_share token bidder positive
      (genuine _ _ _ [] paid (Ledger.Posted.nil _)) c.now c.now
    have gone := stake_nonneg c.self token st.kind it.collateral
    rw [balances_debit paid, award, standing, Option.elim_some]
    simp only
    omega

end Auctions

/-! ## Solvency -/

/-- What every state satisfies that is reached without a feed for a symbol in
session, and with types that last. -/
structure Custody (own : Name) (s : State) : Prop extends Kept own s where
  apart : Apart s
  genuine : Genuine own IQ_SYMBOL s

theorem Custody.empty (self : Name) : Custody self State.empty :=
  ⟨Kept.empty self, Apart.empty, Genuine.empty self IQ_SYMBOL⟩

theorem Custody.queueless (self : Name) : Queueless (Custody self) := fun s d h =>
  ⟨Kept.queueless self s d h.toKept, Apart.queueless s d h.apart,
    Genuine.queueless self IQ_SYMBOL s d h.genuine⟩

theorem Custody.apply (hc : Custody c.self s) (keeps : KeepsTypes c a) (calm : SessionsUnfed s a)
    (h : Maker.apply c s a = .ok s') : Custody c.self s' :=
  ⟨hc.toKept.apply keeps h, hc.apart.apply hc.sound calm h,
    hc.genuine.apply hc.sound hc.typed keeps undeposited_iq (voted_iq h) h⟩

/-- A debit of IQ finds a genuine row. -/
theorem Custody.iq_tag (hc : Custody c.self s) {x : Accounts} {owner code : Name} {value : Asset}
    (paid : subBalance s.accounts owner value = .ok (x, code)) (iq : value.symbol = IQ_SYMBOL) :
    code = IQ_NAME := by
  obtain ⟨-, row, found, tag, symbol, -⟩ := subBalance_ok paid
  have genuine := hc.genuine.rows _ row found (symbol.trans iq)
  rwa [tag, issuer, if_pos rfl] at genuine

/-- Locked collateral in IQ is genuine. -/
theorem Custody.iq_contract (hc : Custody c.self s) {k : SymbolCode × Name} {it : Cdp} {κ : Kind}
    (found : s.cdps.lookup k = some it) (kind : kindOf c.self s.stats k.1 = some κ)
    (locked : 0 < it.collateral.amount) (iq : κ.collateral = IQ_SYMBOL) : κ.contract = IQ_NAME := by
  by_contra other
  have foreign : κ.Foreign c.self IQ_SYMBOL := ⟨iq, by rwa [issuer, if_pos rfl]⟩
  have := (hc.genuine.idle k it found κ kind foreign).2.1
  omega

/-- A decision turns the votes counted into IQ. -/
theorem Apart.balances_refunded (ha : Apart s) {T : SymbolCode} (named : token.2 ≠ NO_NAME)
    (session : (s.props.lookup T).isSome = true) {b : Accounts}
    (h : refundVotes s.accounts T = .ok b) :
    balances token b = balances token s.accounts + share token iqToken (escrowed T s.accounts) := by
  have unfed : ¬ Fed s.feeds T := ha.unfed T session
  by_cases fed : Fed s.feeds IQ_SYMBOL.code
  · have sum : escrowed T s.accounts =
        ((s.accounts.entries.filter fun row => row.1.1 = T).map fun row =>
          Account.amount row.2).sum := by
      have rows := Table.total_filter (fun _ v => Account.amount v)
        (fun k : SymbolCode × Name => k.1 = T) s.accounts
      rw [← rows, escrowed]
      simp only [decide_eq_true_eq]
    rw [sum]
    have apart : T ≠ IQ_SYMBOL.code := fun e => unfed (e ▸ fed)
    refine balances_refunds named apart (fun row hr => ?_) ?_ h
    · exact of_decide_eq_true (List.mem_filter.mp hr).2
    · rintro k row rfl found
      exact congrArg Prod.snd (ha.votes k row found unfed).2.1
  · obtain ⟨rfl, empty⟩ := ha.idle unfed fed h
    have none : escrowed T s.accounts = 0 := Table.total_zero fun k row found => by
      by_cases scope : k.1 = T
      · rw [empty k scope] at found
        cases found
      · exact if_neg scope
    rw [none, share_zero, add_zero]

/-- A decision keeps the fees: it erases a row of the proposer only. -/
theorem fees_decided {proposer : Name} {T : SymbolCode} {stats : Table (Name × SymbolCode) Stat}
    (hf : Filed c.self s) (other : proposer ≠ c.self)
    (result : enact c s.stats T (s.stats.lookup (proposer, T)) = .ok stats ∨ stats = s.stats) :
    fees c.self
      (if (s.stats.lookup (proposer, T)).isSome then stats.erase (proposer, T) else stats) =
      fees c.self s.stats + 0 := by
  have enacted : fees c.self stats = fees c.self s.stats + 0 := by
    rcases result with enacted | rfl
    · obtain ⟨new, rfl, ⟨st, found, -, -, same, -⟩ | ⟨free, p, found, rfl⟩⟩ := enact_ok enacted
      · exact fees_same found same
      · exact fees_file free (hf _ p found other)
    · exact (add_zero _).symm
  split
  · rw [fees_erase (j := (proposer, T)) other, enacted]
  · exact enacted

/-- The parts of the claims move by these amounts. -/
theorem claims_le {own : Name} {acc cdp vote fee bid out gain : Int}
    (accounts : balances token s'.accounts = balances token s.accounts + acc)
    (cdps : pledged own token s'.stats s'.cdps = pledged own token s.stats s.cdps + cdp)
    (votes : ballots s'.props = ballots s.props + vote)
    (stats : fees own s'.stats = fees own s.stats + fee)
    (bids : bidden s'.bids = bidden s.bids + bid)
    (sent : withdrawn token s'.sent = withdrawn token s.sent + out)
    (sum : acc + cdp + (share token iqToken vote + share token iqToken fee +
      share token iqToken bid) + out ≤ gain) :
    claims own token s' + withdrawn token s'.sent ≤
      claims own token s + withdrawn token s.sent + gain := by
  simp only [claims, reserves, accounts, cdps, votes, stats, bids, sent, share_add]
  omega

section Steps

variable {owner : Name} {symbl : SymbolCode} {st : Stat} {it : Cdp} {amount : Int}

/-- Where there is collateral, any amount in its place is of the token of the type. -/
theorem Custody.stake_locked (hc : Custody c.self s)
    (type : s.stats.lookup (c.self, symbl) = some st)
    (found : s.cdps.lookup (symbl, owner) = some it) (live : it.live = true)
    (locked : 0 < it.collateral.amount) (positive : 0 ≤ amount) :
    stake c.self token st.kind ⟨amount, it.collateral.symbol⟩ =
      share token (st.kind.collateral, st.kind.contract) amount := by
  have kind : kindOf c.self s.stats symbl = some st.kind := kindOf_lookup type
  obtain ⟨κ, kind', symbols⟩ := hc.typed _ it found
  cases kind.symm.trans kind'
  rw [(symbols live).1]
  exact stake_eq positive (hc.iq_contract found kind locked)

/-- What `shut` hands back is what was pledged. -/
theorem Custody.stake_back (hc : Custody c.self s) {x y : Accounts} {quantity : Asset}
    (type : s.stats.lookup (c.self, symbl) = some st)
    (found : s.cdps.lookup (symbl, owner) = some it) (live : it.live = true)
    (back : shutCollateral x owner st it = .ok (y, quantity)) :
    balances token y = balances token x + stake c.self token st.kind it.collateral := by
  rcases shutCollateral_ok back with ⟨locked, moved, symbol, -⟩ | ⟨none, rfl, -⟩
  · rw [balances_credit moved, symbol]
    exact congrArg _ (hc.stake_locked type found live locked locked.le).symm
  · have zero : it.collateral.amount = 0 := by
      have := ((hc.sound.cdps _ it found).collateral live).1
      omega
    rw [stake, zero, max_self, share_zero, add_zero]

/-- The debt that `shut` takes back is no claim. -/
theorem balances_repaid {x y : Accounts} {stable : Asset}
    (debt : shutDebt x owner st it = .ok (y, stable)) : balances token y ≤ balances token x := by
  rcases shutDebt_ok debt with ⟨code, owing, paid, -, -⟩ | ⟨-, rfl, -⟩
  · have := share_nonneg token (it.stablecoin.symbol, code) owing.le
    rw [balances_debit paid]
    omega
  · exact le_refl _

end Steps

/-- An auction step puts up no more than it takes in, but for what it mints. -/
theorem Custody.auctioned (hc : Custody c.self s) (external : token.2 ≠ c.self)
    {bidder owner : Name} {symbl : SymbolCode} {bidamt : Asset}
    (h : Maker.apply c s (.liquify bidder owner symbl bidamt) = .ok s') :
    claims c.self token s' + withdrawn token s'.sent ≤
      claims c.self token s + withdrawn token s.sent +
        minted token c s (.liquify bidder owner symbl bidamt) := by
  obtain ⟨st, row, it, lot, auth, positive, type, found, opened, bidding, done⟩ := liquify_ok h
  have kind : kindOf c.self s.stats symbl = some st.kind := kindOf_lookup type
  have keeps : KeepsTypes c (.liquify bidder owner symbl bidamt) := trivial
  have cdps := pledged_kept token hc.typed keeps h
  have ledgered := bidding.ledgered hc.sound auth type found
    (openAuction_owed opened (hc.sound.cdps _ _ found))
  have standing : 0 < lot.bt.bidamt.amount :=
    bidding.positive positive fun bt hb => (hc.sound.bids _ _ hb).1
  have bid : 0 ≤ share token iqToken lot.bt.iq := by
    unfold Bid.iq
    split
    · exact share_nonneg token _ standing.le
    · rw [share_zero]
  have solvent := bidding.solvent hc.sound external positive type found opened
    fun x x' code later paid rest iq => by
      have genuine := ledgered.genuine_tag hc.genuine undeposited_iq (voted_iq h) paid rest iq
      rwa [issuer, if_pos rfl] at genuine
  rcases finish_ok done with ⟨-, rfl⟩ | ⟨accounts, feeds, -, settled, rfl⟩
  · refine claims_le (add_sub_cancel _ _).symm (cdps.trans (pledged_insert kind found))
      (add_zero _).symm (fees_same type (by rw [bidding.stat_eq])) (bidden_insert _ _)
      (add_zero _).symm ?_
    simp only [share_zero, share_sub]
    omega
  · have handed : balances token accounts ≤
        balances token lot.accounts + stake c.self token st.kind lot.it.collateral := by
      have some := stake_nonneg c.self token st.kind lot.it.collateral
      rcases settleLot_ok settled with ⟨-, rfl, -⟩ | ⟨_, -, moved, -, -⟩
      · omega
      · rw [balances_credit moved, bidding.stat_eq]
        exact Int.add_le_add_left (share_mono (le_max_right _ _)) _
    refine claims_le (add_sub_cancel _ _).symm (cdps.trans (pledged_erase kind found))
      (add_zero _).symm (fees_same type (by rw [bidding.stat_eq])) (bidden_erase _)
      (add_zero _).symm ?_
    simp only [share_zero, share_neg]
    omega

/-- `shut` hands back what was pledged. -/
theorem Custody.shut_claimed (hc : Custody c.self s) {owner : Name} {symbl : SymbolCode}
    (h : Maker.apply c s (.shut owner symbl) = .ok s') :
    claims c.self token s' + withdrawn token s'.sent ≤
      claims c.self token s + withdrawn token s.sent := by
  have same (x : Int) : x = x + 0 := (add_zero x).symm
  have keeps : KeepsTypes c (.shut owner symbl) := trivial
  have cdps := pledged_kept token hc.typed keeps h
  obtain ⟨st, it, debited, _, accounts, _, -, type, found, live, debt, back, rfl⟩ := shut_ok h
  have kind : kindOf c.self s.stats symbl = some st.kind := kindOf_lookup type
  have repaid : balances token debited ≤ balances token s.accounts := balances_repaid debt
  have handed : balances token accounts =
      balances token debited + stake c.self token st.kind it.collateral :=
    hc.stake_back type found live back
  refine (claims_le (add_sub_cancel _ _).symm (cdps.trans (pledged_erase kind found)) (same _)
    (fees_same type rfl) (same _) (same _) ?_).trans (add_zero _).le
  simp only [share_zero]
  omega

/-- `lock` pledges what it debits. -/
theorem Custody.lock_claimed (hc : Custody c.self s)
    {owner : Name} {symbl : SymbolCode} {quantity : Asset}
    (h : Maker.apply c s (.lock owner symbl quantity) = .ok s') :
    claims c.self token s' + withdrawn token s'.sent ≤
      claims c.self token s + withdrawn token s.sent := by
  have same (x : Int) : x = x + 0 := (add_zero x).symm
  have keeps : KeepsTypes c (.lock owner symbl quantity) := trivial
  have cdps := pledged_kept token hc.typed keeps h
  obtain ⟨st, it, _, _, -, positive, type, symbol, found, live, owned, paid, -, -, rfl⟩ := lock_ok h
  have kind : kindOf c.self s.stats symbl = some st.kind := kindOf_lookup type
  have row := (hc.sound.cdps _ it found).collateral live
  -- the debited row has the tag of the type, so IQ that is locked is genuine
  have iq : st.kind.collateral = IQ_SYMBOL → st.kind.contract = IQ_NAME := fun e =>
    hc.iq_tag paid (symbol.trans e)
  have stakes {amount : Int} (h : 0 ≤ amount) :
      stake c.self token st.kind ⟨amount, it.collateral.symbol⟩ =
        share token (st.kind.collateral, st.kind.contract) amount := by
    rw [owned, symbol]
    exact stake_eq h iq
  refine (claims_le (balances_debit paid) (cdps.trans (pledged_insert kind found)) (same _)
    (fees_same type rfl) (same _) (same _) ?_).trans (add_zero _).le
  rw [stakes (by omega), stakes row.1, symbol, share_add]
  simp only [share_zero, Stat.kind]
  omega

/-- `wipe` moves its fee from a balance to the fees, and burns the stablecoin. -/
theorem Custody.wipe_claimed (hc : Custody c.self s)
    {owner : Name} {symbl : SymbolCode} {quantity : Asset}
    (h : Maker.apply c s (.wipe owner symbl quantity) = .ok s') :
    claims c.self token s' + withdrawn token s'.sent ≤
      claims c.self token s + withdrawn token s.sent := by
  have same (x : Int) : x = x + 0 := (add_zero x).symm
  have keeps : KeepsTypes c (.wipe owner symbl quantity) := trivial
  have cdps := pledged_kept token hc.typed keeps h
  obtain ⟨st, it, _, apr, charged, _, code, _, _, -, positive, type, -, found, -, -, -, -, -, fee,
    paid, -, rfl⟩ := wipe_ok h
  have kind : kindOf c.self s.stats symbl = some st.kind := kindOf_lookup type
  have burnt := share_nonneg token (quantity.symbol, code) positive.le
  -- the fee goes from a balance to the fees, the stablecoin is burnt
  have first : balances token charged =
      balances token s.accounts + -share token iqToken (i64 apr) := by
    rw [balances_debit fee, hc.iq_tag fee rfl, iqToken]
  refine (claims_le ((balances_debit paid).trans (by rw [first, add_assoc]))
    (cdps.trans (pledged_insert kind found)) (same _) (fees_insert type) (same _) (same _) ?_).trans
      (add_zero _).le
  simp only [share_zero, share_sub, share_add, iqToken]
  omega

/-- `vote` counts what it debits. -/
theorem Custody.vote_claimed (hc : Custody c.self s) (named : token.2 ≠ NO_NAME)
    {voter : Name} {symbl : SymbolCode} {against : Bool} {quantity : Asset}
    (h : Maker.apply c s (.vote voter symbl against quantity) = .ok s') :
    claims c.self token s' + withdrawn token s'.sent ≤
      claims c.self token s + withdrawn token s.sent := by
  have same (x : Int) : x = x + 0 := (add_zero x).symm
  obtain ⟨unfed, fed, prop, count, tag, session, positive, ⟨row, found, label⟩, sum, moved, props,
    feeds⟩ := hc.apart.voting h
  have genuine : tag = IQ_NAME := by
    have code := hc.genuine.rows _ row found (congrArg Prod.fst label)
    rw [issuer, if_pos rfl] at code
    exact (congrArg Prod.snd label).symm.trans code
  subst genuine
  -- the row in escrow has no contract's tag, so the vote is a claim through the count alone
  have escrowed : share token (⟨symbl, 3⟩, NO_NAME) quantity.amount = 0 :=
    if_neg fun e => named (congrArg Prod.snd e).symm
  obtain ⟨_, _, _, _, _, -, -, -, -, -, -, -, rfl⟩ := vote_ok h
  have votes := (congrArg ballots props).trans (ballots_insert session)
  refine (claims_le (balances_moved moved) (same _) votes (same _) (same _) (same _) ?_).trans
    (add_zero _).le
  simp only [List.map_cons, List.map_nil, List.sum_cons, List.sum_nil, share_neg, escrowed,
    share_zero, sum, iqToken, share_sub, share_add]
  omega

/-- No call raises what is owed and paid out together by more than it takes in
and mints. -/
theorem Custody.claimed (hc : Custody c.self s) (external : token.2 ≠ c.self)
    (named : token.2 ≠ NO_NAME) (keeps : KeepsTypes c a) (h : Maker.apply c s a = .ok s') :
    claims c.self token s' + withdrawn token s'.sent ≤
      claims c.self token s + withdrawn token s.sent +
        (deposited token c s a + minted token c s a) := by
  have same (x : Int) : x = x + 0 := (add_zero x).symm
  have cdps := pledged_kept token hc.typed keeps h
  cases a with
  | upfeed feeder price cdpType symbol =>
    obtain ⟨-, rfl⟩ := upfeed_ok h
    exact (same _).le
  | openCdp owner symbl ramPayer =>
    obtain ⟨_, _, -, -, -, free, rfl⟩ := openCdp_ok h
    refine claims_le (same _) (pledged_open free rfl) (same _) (same _) (same _) (same _) ?_
    simp [deposited, minted]
  | close owner symbl =>
    obtain ⟨row, -, found, zero, rfl⟩ := close_ok h
    have erased : balances token (s.accounts.erase (symbl, owner)) =
        balances token s.accounts + 0 := by
      rw [balances, Table.total_erase, Table.weightAt_some found, Account.amount, zero, share_zero]
      rfl
    refine claims_le erased (same _) (same _) (same _) (same _) (same _) ?_
    simp [deposited, minted]
  | shut owner symbl =>
    simpa only [deposited, minted, add_zero] using hc.shut_claimed h
  | lock owner symbl quantity =>
    simpa only [deposited, minted, add_zero] using hc.lock_claimed h
  | bail owner symbl quantity =>
    obtain ⟨st, it, _, _, _, -, positive, type, symbol, found, live, -, less, -, -, -,
      moved, rfl⟩ :=
      bail_ok h
    have kind : kindOf c.self s.stats symbl = some st.kind := kindOf_lookup type
    have locked : 0 < it.collateral.amount := by omega
    refine claims_le (balances_credit moved) (cdps.trans (pledged_insert kind found)) (same _)
      (fees_same type rfl) (same _) (same _) ?_
    rw [hc.stake_locked type found live locked (by omega),
      hc.stake_locked type found live locked locked.le, symbol, share_sub]
    simp only [deposited, minted, share_zero, Stat.kind]
    omega
  | draw owner symbl quantity =>
    obtain ⟨st, it, _, _, _, _, -, -, type, -, found, -, -, -, -, -, -, -, moved, rfl⟩ := draw_ok h
    have kind : kindOf c.self s.stats symbl = some st.kind := kindOf_lookup type
    have issued : share token (quantity.symbol, c.self) quantity.amount = 0 :=
      if_neg fun e => external (congrArg Prod.snd e).symm
    refine claims_le (balances_credit moved) (cdps.trans (pledged_insert kind found)) (same _)
      (fees_same type rfl) (same _) (same _) ?_
    simp only [deposited, minted, share_zero, issued]
    omega
  | wipe owner symbl quantity =>
    simpa only [deposited, minted, add_zero] using hc.wipe_claimed h
  | settle feeder symbl =>
    obtain ⟨st, type, rfl⟩ := settle_ok h
    refine claims_le (same _) (cdps.trans (same _)) (same _) (fees_same type rfl)
      (same _) (same _) ?_
    simp [deposited, minted]
  | vote voter symbl against quantity =>
    simpa only [deposited, minted, add_zero] using hc.vote_claimed named h
  | propose proposer symbl terms =>
    obtain ⟨filedStats, -, free, claimed, -, -, filed, -, rfl⟩ := propose_ok h
    have stats : fees c.self filedStats = fees c.self s.stats + 0 := by
      rcases fileTerms_ok filed with ⟨-, -, rfl, -⟩ | ⟨-, rfl⟩
      · exact same _
      · exact fees_file claimed ⟨rfl, rfl, rfl⟩
    refine claims_le (same _) (cdps.trans (same _)) (ballots_open free rfl) stats
      (same _) (same _) ?_
    simp [deposited, minted]
  | referended proposer symbl =>
    obtain ⟨-, prop, session, -, ⟨-, -, rfl⟩ | ⟨_, _, -, result, refunded, rfl⟩⟩ := referended_ok h
    · exact (same _).le
    · have counted := hc.apart.counted symbl prop session
      have votes := hc.apart.balances_refunded named (by rw [session]; rfl) refunded
      have decided := fees_decided hc.filed keeps (result.imp And.right And.right)
      refine claims_le votes (cdps.trans (same _)) (ballots_erase session) decided
        (same _) (same _) ?_
      simp only [deposited, minted, share_zero, share_neg, counted]
      omega
  | liquify bidder owner symbl bidamt =>
    simp only [deposited, zero_add]
    exact hc.auctioned external h
  | withdraw owner quantity memo =>
    obtain ⟨paid, code, _, _, -, -, debited, -, -, rfl⟩ := withdraw_ok h
    have sent : withdrawn token (⟨code, owner, paid, memo⟩ :: s.sent) =
        withdrawn token s.sent + share token (paid.symbol, code) paid.amount := by
      simp only [withdrawn, List.map_cons, List.sum_cons]
      omega
    refine claims_le (balances_debit debited) (same _) (same _) (same _) (same _) sent ?_
    simp only [deposited, minted, share_zero]
    omega
  | deposit code source target quantity memo =>
    obtain ⟨-, -, ⟨own, rfl⟩ | ⟨_, _, other, -, -, moved, rfl⟩⟩ := deposit_ok (apply_deposit_ok h).2
    · simp only [deposited, if_pos own, minted]
      exact (same _).le
    · refine claims_le (balances_credit moved) (same _) (same _) (same _) (same _) (same _) ?_
      simp only [deposited, minted, if_neg other, share_zero]
      omega

/-- What is owed in a token of another contract is at most what has been deposited
and not withdrawn, and what auctions have put up for sale without having it, as
long as no feed is made for a symbol in session. -/
theorem custody_solvent (self : Name) (clock : Nat) (es : List Event) (token : Token)
    (external : token.2 ≠ self) (named : token.2 ≠ NO_NAME)
    (calm : Along (step self) (Meets self fun c s a => SessionsUnfed s a ∧ KeepsTypes c a)
      (World.genesis clock) es) :
    claims self token (after self clock es).state ≤
      tally (step self) (counted self (deposited token)) (World.genesis clock) es -
        withdrawn token (after self clock es).state.sent +
        tally (step self) (counted self (minted token)) (World.genesis clock) es := by
  have run := raised_le (P := Custody self)
    (f := fun s => claims self token s + withdrawn token s.sent)
    (g := fun c s a => deposited token c s a + minted token c s a) (Custody.queueless self)
    (fun c s a s' own kept ok h => by
      subst own
      exact kept.apply ok.2 ok.1 h)
    (fun _ _ => rfl)
    (fun c s a s' own kept ok h => by
      subst own
      exact kept.claimed external named ok.2 h)
    (Custody.empty self) calm
  have start : claims self token (World.genesis clock).state +
      withdrawn token (World.genesis clock).state.sent = 0 := by
    simp [World.genesis, State.empty, claims, balances, pledged, reserves, ballots, fees, bidden,
      withdrawn]
  rw [start, counted_add, tally_add] at run
  rw [after]
  omega

section

open Sample

/-- `nick` bids 50 USD on his own CDP and nobody outbids him. In the next round
IQ is sold for the rest of his debt; `sick` pays it and withdraws 1.5 IQ. -/
def soldShort : List Event :=
  indebted ++
    [ .act [sick] (.deposit eosioToken sick daiqcontract ⟨2000000, EOS⟩ []),
      .act [sick] (.openCdp sick FUD sick),
      .act [sick] (.lock sick FUD ⟨2000000, EOS⟩),
      .act [sick] (.draw sick FUD ⟨15000, USD⟩),
      .act [daiqcontract] (.upfeed daiqcontract ⟨200, USD⟩ FUD EOS),
      .act [nick] (.liquify nick nick FUD ⟨5000, USD⟩),
      .elapse 5,
      .act [sick] (.liquify sick nick FUD ⟨10000, USD⟩),
      .act [sick] (.withdraw sick ⟨1500, IQ_SYMBOL⟩ []) ]

theorem custody_solvent_sold :
    claims daiqcontract iqToken (after daiqcontract 1000 soldShort).state ≤
      2000 - 1500 + 20000 := by
  have bound := custody_solvent daiqcontract 1000 soldShort iqToken (by decide) (by decide)
    (by decide +kernel)
  have taken : tally (step daiqcontract) (counted daiqcontract (deposited iqToken))
      (World.genesis 1000) soldShort = 2000 := by decide +kernel
  have paid : withdrawn iqToken (after daiqcontract 1000 soldShort).state.sent = 1500 := by
    decide +kernel
  have sold : tally (step daiqcontract) (counted daiqcontract (minted iqToken))
      (World.genesis 1000) soldShort = 20000 := by decide +kernel
  rwa [taken, paid, sold] at bound

/-- The IQ sold is owed, and withdrawn, without having been deposited. -/
theorem unheld_iq_sold :
    Along (step daiqcontract) (Meets daiqcontract fun c s a => SessionsUnfed s a ∧ KeepsTypes c a)
      (World.genesis 1000) soldShort ∧
    tally (step daiqcontract) (counted daiqcontract (deposited iqToken)) (World.genesis 1000)
        soldShort - withdrawn iqToken (after daiqcontract 1000 soldShort).state.sent <
      claims daiqcontract iqToken (after daiqcontract 1000 soldShort).state := by
  decide +kernel

end

end DecentralBank.Maker
