import DecentralBank.Lib.Sharing
import DecentralBank.Maker.Sound

/-!
# Actions of two owners

`lock`, `bail`, `wipe` and `shut` change the caller's balances and CDP, and add
to running totals that all owners share: those of a type and of a feed.
-/

namespace DecentralBank.Maker

open Sharing

/-! ## Running totals -/

inductive Running
  | fees (type : Name × SymbolCode)
  | lent (type : Name × SymbolCode)
  | locked (type : Name × SymbolCode)
  | circulating (symbl : SymbolCode)
  deriving DecidableEq

/-- A running total, zero where there is no row. -/
def running (s : State) : Running → Int
  | .fees k => Ledger.held (fun st => st.feeBalance.amount) s.stats k
  | .lent k => Ledger.held (fun st => st.totalStablecoin.amount) s.stats k
  | .locked k => Ledger.held (fun st => st.totalCollateral.quantity.amount) s.stats k
  | .circulating k => Ledger.held (fun f => f.total.amount) s.feeds k

/-- A type with its running totals at zero. -/
def Stat.fixed (st : Stat) : Stat :=
  { st with
    feeBalance := ⟨0, st.feeBalance.symbol⟩
    totalStablecoin := ⟨0, st.totalStablecoin.symbol⟩
    totalCollateral := ⟨⟨0, st.totalCollateral.quantity.symbol⟩, st.totalCollateral.contract⟩ }

def Feed.fixed (f : Feed) : Feed := { f with total := ⟨0, f.total.symbol⟩ }

/-- The type with other running totals. -/
def Stat.withTotals (st : Stat) (fees lent locked : Int) : Stat :=
  { st with
    feeBalance := ⟨fees, st.feeBalance.symbol⟩
    totalStablecoin := ⟨lent, st.totalStablecoin.symbol⟩
    totalCollateral :=
      ⟨⟨locked, st.totalCollateral.quantity.symbol⟩, st.totalCollateral.contract⟩ }

def Feed.withTotal (f : Feed) (total : Int) : Feed := { f with total := ⟨total, f.total.symbol⟩ }

theorem Stat.of_fixed {st st' : Stat} (h : st'.fixed = st.fixed) :
    st' = st.withTotals st'.feeBalance.amount st'.totalStablecoin.amount
      st'.totalCollateral.quantity.amount := by
  have back := congrArg (fun u : Stat => u.withTotals st'.feeBalance.amount
    st'.totalStablecoin.amount st'.totalCollateral.quantity.amount) h
  exact back

theorem Feed.of_fixed {f f' : Feed} (h : f'.fixed = f.fixed) :
    f' = f.withTotal f'.total.amount := by
  have back := congrArg (fun u : Feed => u.withTotal f'.total.amount) h
  exact back

/-- The state with every running total at zero. -/
def State.cleared (s : State) : State :=
  { s with stats := s.stats.mapRows Stat.fixed, feeds := s.feeds.mapRows Feed.fixed }

/-! ## What an owner sees -/

/-- `owner` cannot tell the states apart but by the running totals. -/
structure Agree (owner : Name) (s t : State) : Prop where
  accounts : ∀ k, t.accounts.lookup (k, owner) = s.accounts.lookup (k, owner)
  cdps : ∀ symbl, t.cdps.lookup (symbl, owner) = s.cdps.lookup (symbl, owner)
  stats : ∀ k, (t.stats.lookup k).map Stat.fixed = (s.stats.lookup k).map Stat.fixed
  feeds : ∀ k, (t.feeds.lookup k).map Feed.fixed = (s.feeds.lookup k).map Feed.fixed

theorem agree_equivalence (owner : Name) : Equivalence (Agree owner) where
  refl _ := ⟨fun _ => rfl, fun _ => rfl, fun _ => rfl, fun _ => rfl⟩
  symm h := ⟨fun k => (h.1 k).symm, fun k => (h.2 k).symm, fun k => (h.3 k).symm,
    fun k => (h.4 k).symm⟩
  trans h g := ⟨fun k => (g.1 k).trans (h.1 k), fun k => (g.2 k).trans (h.2 k),
    fun k => (g.3 k).trans (h.3 k), fun k => (g.4 k).trans (h.4 k)⟩

theorem cleared_agree (owner : Name) (s : State) : Agree owner s s.cleared where
  accounts _ := rfl
  cdps _ := rfl
  stats k := by
    simp only [State.cleared, Table.lookup_mapRows, Option.map_map]
    rfl
  feeds k := by
    simp only [State.cleared, Table.lookup_mapRows, Option.map_map]
    rfl

theorem running_cleared (s : State) (k : Running) : running s.cleared k = 0 := by
  cases k with
  | fees k | lent k | locked k =>
    simp only [running, State.cleared, Ledger.held, Table.weightAt, Table.lookup_mapRows]
    cases s.stats.lookup k <;> rfl
  | circulating k =>
    simp only [running, State.cleared, Ledger.held, Table.weightAt, Table.lookup_mapRows]
    cases s.feeds.lookup k <;> rfl

/-- The part of the state an owner's actions work on. -/
def shared : Shared State Name Running where
  agree := Agree
  equiv := agree_equivalence
  read := running
  Fits x := Asset.isAmountWithinRange x = true
  zero := by decide
  clear := State.cleared
  cleared := cleared_agree
  read_clear := running_cleared
  Sound := Sound

/-! ## One action on two such states -/

variable {c : Ctx} {s s' t : State} {owner : Name} {symbl : SymbolCode} {quantity : Asset}

theorem Agree.stat (h : Agree owner s t) {k : Name × SymbolCode} {st : Stat}
    (type : s.stats.lookup k = some st) :
    ∃ fees lent locked, t.stats.lookup k = some (st.withTotals fees lent locked) := by
  have same := h.stats k
  rw [type, Option.map_some] at same
  obtain ⟨st', found, fixed⟩ := Option.map_eq_some_iff.mp same
  exact ⟨_, _, _, found.trans (congrArg some (Stat.of_fixed fixed))⟩

theorem Agree.feed (h : Agree owner s t) {k : SymbolCode} {f : Feed}
    (feed : s.feeds.lookup k = some f) : ∃ total, t.feeds.lookup k = some (f.withTotal total) := by
  have same := h.feeds k
  rw [feed, Option.map_some] at same
  obtain ⟨f', found, fixed⟩ := Option.map_eq_some_iff.mp same
  exact ⟨_, found.trans (congrArg some (Feed.of_fixed fixed))⟩

section Balances

variable {a a' b : Accounts} {value : Asset} {code : Name}

theorem insert_rows {V : Type} {a a' : Table (SymbolCode × Name) V}
    (rows : ∀ k, a'.lookup (k, owner) = a.lookup (k, owner)) (j : SymbolCode) (row : V)
    (k : SymbolCode) :
    (a'.insert (j, owner) row).lookup (k, owner) = (a.insert (j, owner) row).lookup (k, owner) := by
  rw [Table.lookup_insert, Table.lookup_insert, rows]

theorem insert_fixed {K V W : Type} [DecidableEq K] {f : V → W} {a a' : Table K V}
    (rows : ∀ k, (a'.lookup k).map f = (a.lookup k).map f) (j : K) {row row' : V}
    (same : f row' = f row) (k : K) :
    ((a'.insert j row').lookup k).map f = ((a.insert j row).lookup k).map f := by
  rw [Table.lookup_insert, Table.lookup_insert]
  split
  · rw [Option.map_some, Option.map_some, same]
  · exact rows k

theorem subBalance_agree (rows : ∀ k, a'.lookup (k, owner) = a.lookup (k, owner))
    (h : subBalance a owner value = .ok (b, code)) :
    ∃ b', subBalance a' owner value = .ok (b', code) ∧
      ∀ k, b'.lookup (k, owner) = b.lookup (k, owner) := by
  simp only [subBalance, Checked.bind_eq_ok, Checked.find_eq_ok, Checked.require_eq_ok,
    Asset.sub_eq_ok, Checked.pure_eq_ok, exists_const, Prod.mk.injEq] at h ⊢
  obtain ⟨row, found, covered, balance, inside, rfl, rfl⟩ := h
  exact ⟨_, ⟨row, (rows _).trans found, covered, balance, inside, rfl, rfl⟩, insert_rows rows _ _⟩

theorem addBalance_agree (rows : ∀ k, a'.lookup (k, owner) = a.lookup (k, owner))
    (h : addBalance a owner value code = .ok b) :
    ∃ b', addBalance a' owner value code = .ok b' ∧
      ∀ k, b'.lookup (k, owner) = b.lookup (k, owner) := by
  unfold addBalance at h ⊢
  rw [rows]
  cases found : a.lookup (value.symbol.code, owner) with
  | none =>
    simp only [found, Checked.pure_eq_ok] at h
    subst h
    exact ⟨_, rfl, insert_rows rows _ _⟩
  | some row =>
    simp only [found, Checked.bind_eq_ok, Checked.pure_eq_ok] at h ⊢
    obtain ⟨_, tagged, balance, sum, rfl⟩ := h
    exact ⟨_, ⟨_, tagged, balance, sum, rfl⟩, insert_rows rows _ _⟩

theorem elsewhere_rows {moves : List Move} (h : Moved a moves b) {j : Name}
    (other : ∀ m ∈ moves, m.key.2 ≠ j) (k : SymbolCode) : b.lookup (k, j) = a.lookup (k, j) :=
  h.elsewhere fun m mem here => other m mem (congrArg Prod.snd here)

end Balances

/-- The running totals of `t'` moved as those of `s'` did. -/
def SameChange (s s' t t' : State) : Prop :=
  ∀ k, running t' k = running t k + (running s' k - running s k)

def Room (s s' t : State) : Prop :=
  ∀ k, Asset.isAmountWithinRange (running t k + (running s' k - running s k)) = true

section Written

variable {K V : Type} [DecidableEq K] {f : V → Int} {a b : Table K V} {k : K}
    {u v u' v' : V} {x : Int}

theorem held_shift (f : V → Int) (old : a.lookup k = some u) (old' : b.lookup k = some v)
    (moved : f v' - f v = f u' - f u) (j : K) :
    Ledger.held f (b.insert k v') j =
      Ledger.held f b j + (Ledger.held f (a.insert k u') j - Ledger.held f a j) := by
  rw [Ledger.held_insert, Ledger.held_insert]
  split
  · rename_i here
    subst here
    rw [Ledger.held_some old, Ledger.held_some old']
    omega
  · omega

/-- There is room for what is written. -/
theorem held_room (room : Asset.isAmountWithinRange
      (Ledger.held f b k + (Ledger.held f (a.insert k u') k - Ledger.held f a k)) = true)
    (old : a.lookup k = some u) (old' : b.lookup k = some v) (moved : f v + (f u' - f u) = x) :
    -Asset.maxAmount ≤ x ∧ x ≤ Asset.maxAmount := by
  rw [Ledger.held_insert, if_pos rfl, Ledger.held_some old, Ledger.held_some old', moved] at room
  exact of_decide_eq_true room

end Written

/-- A position, its type and its feed are written in both states, and the totals move alike. -/
theorem written_agree {accounts accounts' : Accounts} {it : Cdp} {j : Name × SymbolCode}
    {st st' u u' : Stat}
    {i : SymbolCode} {fd fd' g g' : Feed} (view : Agree owner s t)
    (rows : ∀ k, accounts'.lookup (k, owner) = accounts.lookup (k, owner))
    (type : s.stats.lookup j = some st) (type' : t.stats.lookup j = some u)
    (terms : u'.fixed = st'.fixed)
    (feed : s.feeds.lookup i = some fd) (feed' : t.feeds.lookup i = some g)
    (price : g'.fixed = fd'.fixed)
    (fees : u'.feeBalance.amount - u.feeBalance.amount =
        st'.feeBalance.amount - st.feeBalance.amount)
    (lent : u'.totalStablecoin.amount - u.totalStablecoin.amount =
      st'.totalStablecoin.amount - st.totalStablecoin.amount)
    (locked : u'.totalCollateral.quantity.amount - u.totalCollateral.quantity.amount =
      st'.totalCollateral.quantity.amount - st.totalCollateral.quantity.amount)
    (total : g'.total.amount - g.total.amount = fd'.total.amount - fd.total.amount) :
    let written : State := { s with
      accounts
      cdps := s.cdps.insert (symbl, owner) it
      stats := s.stats.insert j st'
      feeds := s.feeds.insert i fd' }
    let written' : State := { t with
      accounts := accounts'
      cdps := t.cdps.insert (symbl, owner) it
      stats := t.stats.insert j u'
      feeds := t.feeds.insert i g' }
    Agree owner written written' ∧ SameChange s written t written' := by
  intro written written'
  constructor
  · exact ⟨rows, insert_rows view.cdps _ _, insert_fixed view.stats _ terms,
      insert_fixed view.feeds _ price⟩
  · intro k
    cases k with
    | fees k => exact held_shift _ type type' fees k
    | lent k => exact held_shift _ type type' lent k
    | locked k => exact held_shift _ type type' locked k
    | circulating k => exact held_shift _ feed feed' total k

theorem lock_agree (view : Agree owner s t) (h : lock c s owner symbl quantity = .ok s')
    (room : Room s s' t) :
    ∃ t', lock c t owner symbl quantity = .ok t' ∧ Agree owner s' t' ∧ SameChange s s' t t' := by
  simp only [lock, Ctx.requireAuth_eq_ok, Checked.bind_eq_ok, Checked.require_eq_ok,
    Checked.find_eq_ok, Asset.add_eq_ok, Asset.sub_eq_ok, Checked.pure_eq_ok, exists_const,
    Prod.exists] at h ⊢
  obtain ⟨auth, valid, letters, positive, st, type, live, symbol, it, found, open', accounts, code,
    paid, contract, _, ⟨same, -, -, rfl⟩, _, collateral, fc, feed, _, ⟨fed, -, -, rfl⟩, rfl⟩ := h
  obtain ⟨f, d, l, type'⟩ := view.stat type
  obtain ⟨g, feed'⟩ := view.feed feed
  obtain ⟨accounts', paid', rows⟩ := subBalance_agree view.accounts paid
  have total : -Asset.maxAmount ≤ l + quantity.amount ∧ l + quantity.amount ≤ Asset.maxAmount :=
    held_room (room (.locked (c.self, symbl))) type type' (by simp only [Stat.withTotals]; omega)
  have circulation : -Asset.maxAmount ≤ g - quantity.amount ∧
      g - quantity.amount ≤ Asset.maxAmount :=
    held_room (room (.circulating quantity.symbol.code)) feed feed'
      (by simp only [Feed.withTotal]; omega)
  refine ⟨_, ⟨auth, valid, letters, positive, _, type', live, symbol, it, (view.cdps _).trans found,
    open', accounts', code, paid', contract, _, ⟨same, total.1, total.2, rfl⟩, _, collateral, _,
    feed', _, ⟨fed, circulation.1, circulation.2, rfl⟩, rfl⟩, ?_⟩
  refine written_agree view rows type type' rfl feed feed' rfl ?_ ?_ ?_ ?_
  · simp only [Stat.withTotals, sub_self]
  · simp only [Stat.withTotals, sub_self]
  · simp only [Stat.withTotals]
    omega
  · simp only [Feed.withTotal]
    omega

theorem bail_agree (view : Agree owner s t) (h : bail c s owner symbl quantity = .ok s')
    (room : Room s s' t) :
    ∃ t', bail c t owner symbl quantity = .ok t' ∧ Agree owner s' t' ∧ SameChange s s' t t' := by
  simp only [bail, Ctx.requireAuth_eq_ok, Checked.bind_eq_ok, Checked.require_eq_ok,
    Checked.find_eq_ok, Asset.gt_eq_ok, Asset.add_eq_ok, Asset.sub_eq_ok, Checked.pure_eq_ok,
    exists_const] at h ⊢
  obtain ⟨auth, valid, letters, positive, st, type, symbol, it, found, open', more, less, free, fc,
    feed, fresh, amt, ratio, above, accounts, paid, _, collateral, _, ⟨same, -, -, rfl⟩, _,
    ⟨fed, -, -, rfl⟩, rfl⟩ := h
  obtain ⟨f, d, l, type'⟩ := view.stat type
  obtain ⟨g, feed'⟩ := view.feed feed
  obtain ⟨accounts', paid', rows⟩ := addBalance_agree view.accounts paid
  have total : -Asset.maxAmount ≤ l - quantity.amount ∧ l - quantity.amount ≤ Asset.maxAmount :=
    held_room (room (.locked (c.self, symbl))) type type' (by simp only [Stat.withTotals]; omega)
  have circulation : -Asset.maxAmount ≤ g + quantity.amount ∧
      g + quantity.amount ≤ Asset.maxAmount :=
    held_room (room (.circulating quantity.symbol.code)) feed feed'
      (by simp only [Feed.withTotal]; omega)
  refine ⟨_,
    ⟨auth, valid, letters, positive, _, type', symbol, it, (view.cdps _).trans found, open',
    more, less, free, _, feed', fresh, amt, ratio, above, accounts', paid', _, collateral, _,
    ⟨same, total.1, total.2, rfl⟩, _, ⟨fed, circulation.1, circulation.2, rfl⟩, rfl⟩, ?_⟩
  refine written_agree view rows type type' rfl feed feed' rfl ?_ ?_ ?_ ?_
  · simp only [Stat.withTotals, sub_self]
  · simp only [Stat.withTotals, sub_self]
  · simp only [Stat.withTotals]
    omega
  · simp only [Feed.withTotal]
    omega

theorem wipe_agree (view : Agree owner s t) (h : wipe c s owner symbl quantity = .ok s')
    (room : Room s s' t) :
    ∃ t', wipe c t owner symbl quantity = .ok t' ∧ Agree owner s' t' ∧ SameChange s s' t t' := by
  simp only [wipe, Ctx.requireAuth_eq_ok, Checked.bind_eq_ok, Checked.require_eq_ok,
    Checked.find_eq_ok, Asset.gt_eq_ok, Asset.add_eq_ok, Asset.sub_eq_ok, Checked.pure_eq_ok,
    exists_const, Prod.exists] at h ⊢
  obtain ⟨auth, letters, valid, positive, st, type, symbol, it, found, open', more, less, owes, fv,
    price, apr, accrued, fee, made, feePaid, feeCode, charged, accounts, code, paid, h⟩ := h
  obtain ⟨_, ⟨iq, -, -, rfl⟩, _, ⟨same, -, -, rfl⟩, _, debt, fs, feed, _, ⟨fed, -, -, rfl⟩,
    rfl⟩ := h
  obtain ⟨f, d, l, type'⟩ := view.stat type
  obtain ⟨g, feed'⟩ := view.feed feed
  obtain ⟨p, price'⟩ := view.feed price
  obtain ⟨feePaid', charged', rows'⟩ := subBalance_agree view.accounts charged
  obtain ⟨accounts', paid', rows⟩ := subBalance_agree rows' paid
  have fees : -Asset.maxAmount ≤ f + fee.amount ∧ f + fee.amount ≤ Asset.maxAmount :=
    held_room (room (.fees (c.self, symbl))) type type' (by simp only [Stat.withTotals]; omega)
  have total : -Asset.maxAmount ≤ d - quantity.amount ∧ d - quantity.amount ≤ Asset.maxAmount :=
    held_room (room (.lent (c.self, symbl))) type type' (by simp only [Stat.withTotals]; omega)
  have circulation : -Asset.maxAmount ≤ g - quantity.amount ∧
      g - quantity.amount ≤ Asset.maxAmount :=
    held_room (room (.circulating quantity.symbol.code)) feed feed'
      (by simp only [Feed.withTotal]; omega)
  refine ⟨_,
    ⟨auth, letters, valid, positive, _, type', symbol, it, (view.cdps _).trans found, open',
    more, less, owes, _, price', apr, accrued, fee, made, feePaid', feeCode, charged',
    accounts', code, paid', _, ⟨iq, fees.1, fees.2, rfl⟩, _, ⟨same, total.1, total.2, rfl⟩, _,
    debt, _, feed', _, ⟨fed, circulation.1, circulation.2, rfl⟩, rfl⟩, ?_⟩
  refine written_agree view rows type type' rfl feed feed' rfl ?_ ?_ ?_ ?_
  · simp only [Stat.withTotals]
    omega
  · simp only [Stat.withTotals]
    omega
  · simp only [Stat.withTotals, sub_self]
  · simp only [Feed.withTotal]
    omega

section Shut

variable {st : Stat} {it : Cdp} {a a' b : Accounts} {f d l x : Int}

theorem shutDebt_agree {stable : Asset} (rows : ∀ k, a'.lookup (k, owner) = a.lookup (k, owner))
    (h : shutDebt a owner st it = .ok (b, stable))
    (sum : d + (stable.amount - st.totalStablecoin.amount) = x)
    (room : -Asset.maxAmount ≤ x ∧ x ≤ Asset.maxAmount) :
    ∃ b', shutDebt a' owner (st.withTotals f d l) it = .ok (b', ⟨x, st.totalStablecoin.symbol⟩) ∧
      stable.symbol = st.totalStablecoin.symbol ∧
        ∀ k, b'.lookup (k, owner) = b.lookup (k, owner) := by
  by_cases owes : 0 < it.stablecoin.amount
  · simp only [shutDebt, if_pos owes, Checked.bind_eq_ok, Asset.sub_eq_ok, Checked.pure_eq_ok,
      Prod.exists, Prod.mk.injEq] at h ⊢
    obtain ⟨_, code, paid, _, ⟨same, -, -, rfl⟩, rfl, rfl⟩ := h
    obtain ⟨b', paid', rows'⟩ := subBalance_agree rows paid
    have left : d - it.stablecoin.amount = x := by
      rw [← sum]
      simp only
      omega
    refine ⟨b', ⟨b', code, paid', _, ⟨same, ?_, ?_, rfl⟩, rfl, ?_⟩, rfl, rows'⟩
    · exact left ▸ room.1
    · exact left ▸ room.2
    · rw [← left]
      rfl
  · simp only [shutDebt, if_neg owes, Checked.pure_eq_ok, Prod.mk.injEq] at h ⊢
    obtain ⟨rfl, rfl⟩ := h
    have still : d = x := by omega
    exact ⟨a', ⟨rfl, by rw [← still]; rfl⟩, rfl, rows⟩

theorem shutCollateral_agree {locked : Asset}
    (rows : ∀ k, a'.lookup (k, owner) = a.lookup (k, owner))
    (h : shutCollateral a owner st it = .ok (b, locked))
    (sum : l + (locked.amount - st.totalCollateral.quantity.amount) = x)
    (room : -Asset.maxAmount ≤ x ∧ x ≤ Asset.maxAmount) :
    ∃ b', shutCollateral a' owner (st.withTotals f d l) it =
        .ok (b', ⟨x, st.totalCollateral.quantity.symbol⟩) ∧
      locked.symbol = st.totalCollateral.quantity.symbol ∧
      ∀ k, b'.lookup (k, owner) = b.lookup (k, owner) := by
  by_cases some : 0 < it.collateral.amount
  · simp only [shutCollateral, if_pos some, Checked.bind_eq_ok, Asset.add_eq_ok, Checked.pure_eq_ok,
      Prod.mk.injEq] at h ⊢
    obtain ⟨_, paid, _, ⟨same, -, -, rfl⟩, rfl, rfl⟩ := h
    obtain ⟨b', paid', rows'⟩ := addBalance_agree rows paid
    have more : l + it.collateral.amount = x := by
      rw [← sum]
      simp only
      omega
    refine ⟨b', ⟨b', paid', _, ⟨same, ?_, ?_, rfl⟩, rfl, ?_⟩, rfl, rows'⟩
    · exact more ▸ room.1
    · exact more ▸ room.2
    · rw [← more]
      rfl
  · simp only [shutCollateral, if_neg some, Checked.pure_eq_ok, Prod.mk.injEq] at h ⊢
    obtain ⟨rfl, rfl⟩ := h
    have still : l = x := by omega
    exact ⟨a', ⟨rfl, by rw [← still]; rfl⟩, rfl, rows⟩

end Shut

theorem shut_agree (view : Agree owner s t) (h : shut c s owner symbl = .ok s')
    (room : Room s s' t) :
    ∃ t', shut c t owner symbl = .ok t' ∧ Agree owner s' t' ∧ SameChange s s' t t' := by
  simp only [shut, Ctx.requireAuth_eq_ok, Checked.bind_eq_ok, Checked.require_eq_ok,
    Checked.find_eq_ok, Checked.pure_eq_ok, exists_const, Prod.exists] at h ⊢
  obtain ⟨auth, letters, st, type, it, found, open', paid, stable, debt, accounts, locked,
    back, rfl⟩ := h
  obtain ⟨f, d, l, type'⟩ := view.stat type
  obtain ⟨paid', debt', cents, rows'⟩ := shutDebt_agree (f := f) (l := l) view.accounts debt rfl
    (held_room (room (.lent (c.self, symbl))) type type' rfl)
  obtain ⟨accounts', back', units, rows⟩ := shutCollateral_agree (f := f) (d := d) rows' back rfl
    (held_room (room (.locked (c.self, symbl))) type type' rfl)
  refine ⟨_,
    ⟨auth, letters, _, type', it, (view.cdps _).trans found, open', paid', _, debt', accounts',
    _, back', rfl⟩, ?_, ?_⟩
  · refine ⟨rows, fun k => ?_, insert_fixed view.stats _ ?_, view.feeds⟩
    · rw [Table.lookup_erase, Table.lookup_erase, view.cdps]
    · simp only [Stat.fixed, Stat.withTotals, cents, units]
  · intro k
    cases k with
    | fees k => exact held_shift _ type type' (by simp only [Stat.withTotals, sub_self]) k
    | lent k => exact held_shift _ type type' (by simp only [Stat.withTotals]; omega) k
    | locked k => exact held_shift _ type type' (by simp only [Stat.withTotals]; omega) k
    | circulating k => simp only [running, sub_self, add_zero]

/-! ## What an action leaves in range -/

/-- A total is left alone or left in range, and in a sound state moved by an amount in range. -/
def Bounded (s : State) (before after : Int) : Prop :=
  (Asset.isAmountWithinRange after = true ∨ after = before) ∧
    (Sound s → Asset.isAmountWithinRange (after - before) = true)

theorem Bounded.still (s : State) (x : Int) : Bounded s x x :=
  ⟨Or.inr rfl, fun _ => by rw [sub_self]; decide⟩

section Written

variable {K V : Type} [DecidableEq K] {f : V → Int} {a : Table K V} {k : K} {u u' : V}

theorem held_bounded (old : a.lookup k = some u)
    (inside : -Asset.maxAmount ≤ f u' ∧ f u' ≤ Asset.maxAmount)
    (small : Sound s → -Asset.maxAmount ≤ f u' - f u ∧ f u' - f u ≤ Asset.maxAmount) (j : K) :
    Bounded s (Ledger.held f a j) (Ledger.held f (a.insert k u') j) := by
  rw [Ledger.held_insert]
  split
  · rename_i here
    subst here
    rw [Ledger.held_some old]
    exact ⟨Or.inl (decide_eq_true inside), fun hs => decide_eq_true (small hs)⟩
  · exact Bounded.still s _

theorem held_kept (old : a.lookup k = some u) (same : f u' = f u) (j : K) :
    Bounded s (Ledger.held f a j) (Ledger.held f (a.insert k u') j) := by
  have kept : Ledger.held f (a.insert k u') j = Ledger.held f a j := by
    rw [Ledger.held_insert]
    split
    · rename_i here
      subst here
      rw [Ledger.held_some old, same]
    · rfl
  rw [kept]
  exact Bounded.still s _

end Written

theorem lock_bounded (h : lock c s owner symbl quantity = .ok s') (k : Running) :
    Bounded s (running s k) (running s' k) := by
  simp only [lock, Ctx.requireAuth_eq_ok, Checked.bind_eq_ok, Checked.require_eq_ok,
    Checked.find_eq_ok, Asset.add_eq_ok, Asset.sub_eq_ok, Checked.pure_eq_ok, exists_const,
    Prod.exists] at h
  obtain ⟨-, -, -, positive, st, type, -, -, it, found, live, accounts, code, -, -, _,
    ⟨-, lo, hi, rfl⟩, _, ⟨-, -, below, rfl⟩, fc, feed, _, ⟨-, lo', hi', rfl⟩, rfl⟩ := h
  have small (hs : Sound s) : quantity.amount ≤ Asset.maxAmount := by
    have := (hs.cdps _ _ found).collateral live
    omega
  cases k with
  | fees k => exact held_kept type (by rfl) k
  | lent k => exact held_kept type (by rfl) k
  | locked k =>
    refine held_bounded type ⟨lo, hi⟩ (fun hs => ?_) k
    have := small hs
    simp only
    omega
  | circulating k =>
    refine held_bounded feed ⟨lo', hi'⟩ (fun hs => ?_) k
    have := small hs
    simp only
    omega

theorem bail_bounded (h : bail c s owner symbl quantity = .ok s') (k : Running) :
    Bounded s (running s k) (running s' k) := by
  simp only [bail, Ctx.requireAuth_eq_ok, Checked.bind_eq_ok, Checked.require_eq_ok,
    Checked.find_eq_ok, Asset.gt_eq_ok, Asset.add_eq_ok, Asset.sub_eq_ok, Checked.pure_eq_ok,
    exists_const] at h
  obtain ⟨-, -, -, positive, st, type, -, it, found, live, more, ⟨-, rfl⟩, less, fc,
    feed, -, amt, -, -, accounts, -, _, -, _, ⟨-, lo, hi, rfl⟩, _, ⟨-, lo', hi', rfl⟩, rfl⟩ := h
  have small (hs : Sound s) : quantity.amount ≤ Asset.maxAmount := by
    have := (hs.cdps _ _ found).collateral live
    have := of_decide_eq_true less
    omega
  cases k with
  | fees k => exact held_kept type (by rfl) k
  | lent k => exact held_kept type (by rfl) k
  | locked k =>
    refine held_bounded type ⟨lo, hi⟩ (fun hs => ?_) k
    have := small hs
    simp only
    omega
  | circulating k =>
    refine held_bounded feed ⟨lo', hi'⟩ (fun hs => ?_) k
    have := small hs
    simp only
    omega

theorem wipe_bounded (h : wipe c s owner symbl quantity = .ok s') (k : Running) :
    Bounded s (running s k) (running s' k) := by
  simp only [wipe, Ctx.requireAuth_eq_ok, Checked.bind_eq_ok, Checked.require_eq_ok,
    Checked.find_eq_ok, Asset.make_eq_ok, Asset.gt_eq_ok, Asset.add_eq_ok, Asset.sub_eq_ok,
    Checked.pure_eq_ok, exists_const, Prod.exists] at h
  obtain ⟨-, -, -, positive, st, type, -, it, found, live, more, ⟨-, rfl⟩, owes, fv, -, apr, -, fee,
    ⟨word, -, rfl⟩, feePaid, feeCode, -, accounts, code, -, h⟩ := h
  obtain ⟨_, ⟨-, lo, hi, rfl⟩, _, ⟨-, lo', hi', rfl⟩, _, -, fs, feed, _,
    ⟨-, lo'', hi'', rfl⟩, rfl⟩ := h
  have small (hs : Sound s) : quantity.amount ≤ Asset.maxAmount := by
    have := (hs.cdps _ _ found).debt live
    have := of_decide_eq_true owes
    omega
  cases k with
  | fees k =>
    refine held_bounded type ⟨lo, hi⟩ (fun hs => ?_) k
    simp only
    omega
  | lent k =>
    refine held_bounded type ⟨lo', hi'⟩ (fun hs => ?_) k
    have := small hs
    simp only
    omega
  | locked k => exact held_kept type (by rfl) k
  | circulating k =>
    refine held_bounded feed ⟨lo'', hi''⟩ (fun hs => ?_) k
    have := small hs
    simp only
    omega

theorem shut_bounded (h : shut c s owner symbl = .ok s') (k : Running) :
    Bounded s (running s k) (running s' k) := by
  simp only [shut, Ctx.requireAuth_eq_ok, Checked.bind_eq_ok, Checked.require_eq_ok,
    Checked.find_eq_ok, Checked.pure_eq_ok, exists_const, Prod.exists] at h
  obtain ⟨-, -, st, type, it, found, live, paid, stable, debt, accounts, locked, back, rfl⟩ := h
  cases k with
  | fees k => exact held_kept type (by rfl) k
  | lent k =>
    by_cases owes : 0 < it.stablecoin.amount
    · simp only [shutDebt, if_pos owes, Checked.bind_eq_ok, Asset.sub_eq_ok, Checked.pure_eq_ok,
        Prod.exists, Prod.mk.injEq] at debt
      obtain ⟨_, _, -, _, ⟨-, lo, hi, rfl⟩, -, rfl⟩ := debt
      refine held_bounded type ⟨lo, hi⟩ (fun hs => ?_) k
      have := (hs.cdps _ _ found).debt live
      simp only
      omega
    · simp only [shutDebt, if_neg owes, Checked.pure_eq_ok, Prod.mk.injEq] at debt
      obtain ⟨-, rfl⟩ := debt
      exact held_kept type (by rfl) k
  | locked k =>
    by_cases some : 0 < it.collateral.amount
    · simp only [shutCollateral, if_pos some, Checked.bind_eq_ok, Asset.add_eq_ok,
        Checked.pure_eq_ok, Prod.mk.injEq] at back
      obtain ⟨_, -, _, ⟨-, lo, hi, rfl⟩, -, rfl⟩ := back
      refine held_bounded type ⟨lo, hi⟩ (fun hs => ?_) k
      have := (hs.cdps _ _ found).collateral live
      simp only
      omega
    · simp only [shutCollateral, if_neg some, Checked.pure_eq_ok, Prod.mk.injEq] at back
      obtain ⟨-, rfl⟩ := back
      exact held_kept type (by rfl) k
  | circulating k => exact Bounded.still s _

/-! ## What another owner sees -/

theorem rewrite_fixed {K V W : Type} [DecidableEq K] {f : V → W} {a : Table K V} {k : K}
    {row row' : V}
    (old : a.lookup k = some row) (same : f row' = f row) (j : K) :
    ((a.insert k row').lookup j).map f = (a.lookup j).map f := by
  rw [Table.lookup_insert]
  split
  · rename_i here
    rw [here, old, Option.map_some, Option.map_some, same]
  · rfl

theorem insert_elsewhere {V : Type} {a : Table (SymbolCode × Name) V} {j : Name} (other : j ≠ owner)
    (symbl : SymbolCode) (row : V) (k : SymbolCode) :
    (a.insert (symbl, owner) row).lookup (k, j) = a.lookup (k, j) := by
  rw [Table.lookup_insert, if_neg fun same => other (congrArg Prod.snd same)]

theorem subBalance_elsewhere {a b : Accounts} {value : Asset} {code j : Name}
    (h : subBalance a owner value = .ok (b, code)) (other : j ≠ owner) (k : SymbolCode) :
    b.lookup (k, j) = a.lookup (k, j) := by
  refine elsewhere_rows (subBalance_ok h).1 (fun m mem => ?_) k
  rw [List.mem_singleton.mp mem]
  exact other.symm

theorem credit_elsewhere {a b : Accounts} {value : Asset} {code j : Name}
    (h : Moved a [credit owner value code] b) (other : j ≠ owner) (k : SymbolCode) :
    b.lookup (k, j) = a.lookup (k, j) := by
  refine elsewhere_rows h (fun m mem => ?_) k
  rw [List.mem_singleton.mp mem]
  exact other.symm

/-- The actions of `owner` on a CDP that is live. -/
inductive Owned (owner : Name) : Action → Prop
  | lock (symbl : SymbolCode) (quantity : Asset) : Owned owner (.lock owner symbl quantity)
  | bail (symbl : SymbolCode) (quantity : Asset) : Owned owner (.bail owner symbl quantity)
  | wipe (symbl : SymbolCode) (quantity : Asset) : Owned owner (.wipe owner symbl quantity)
  | shut (symbl : SymbolCode) : Owned owner (.shut owner symbl)

variable {a : Action}

theorem Owned.frame (own : Owned owner a) (h : apply c s a = .ok s') {j : Name}
    (other : j ≠ owner) :
    Agree j s s' := by
  cases own with
  | lock symbl quantity =>
    obtain ⟨st, it, fc, accounts, -, -, type, -, -, -, -, paid, -, feed, rfl⟩ := lock_ok h
    exact ⟨subBalance_elsewhere paid other, insert_elsewhere other _ _, rewrite_fixed type (by rfl),
      rewrite_fixed feed (by rfl)⟩
  | bail symbl quantity =>
    obtain ⟨st, it, fc, _, accounts, -, -, type, -, -, -, -, -, feed, -, -, paid, rfl⟩ := bail_ok h
    exact ⟨credit_elsewhere paid other, insert_elsewhere other _ _, rewrite_fixed type (by rfl),
      rewrite_fixed feed (by rfl)⟩
  | wipe symbl quantity =>
    obtain ⟨st, it, fv, _, feePaid, _, _, fs, accounts, -, -, type, -, -, -, -, -, -, -,
      charged, paid, feed, rfl⟩ := wipe_ok h
    have rows : ∀ k, accounts.lookup (k, j) = s.accounts.lookup (k, j) := fun k =>
      (subBalance_elsewhere paid other k).trans (subBalance_elsewhere charged other k)
    exact ⟨rows, insert_elsewhere other _ _, rewrite_fixed type (by rfl),
      rewrite_fixed feed (by rfl)⟩
  | shut symbl =>
    obtain ⟨st, it, paid, stable, accounts, locked, -, type, -, -, debt, back, rfl⟩ := shut_ok h
    have repaid : stable.symbol = st.totalStablecoin.symbol ∧
        ∀ k, paid.lookup (k, j) = s.accounts.lookup (k, j) := by
      rcases shutDebt_ok debt with ⟨_, -, debited, -, rfl⟩ | ⟨-, rfl, rfl⟩
      · exact ⟨rfl, subBalance_elsewhere debited other⟩
      · exact ⟨rfl, fun _ => rfl⟩
    have freed : locked.symbol = st.totalCollateral.quantity.symbol ∧
        ∀ k, accounts.lookup (k, j) = paid.lookup (k, j) := by
      rcases shutCollateral_ok back with ⟨-, credited, -, rfl⟩ | ⟨-, rfl, rfl⟩
      · exact ⟨rfl, credit_elsewhere credited other⟩
      · exact ⟨rfl, fun _ => rfl⟩
    refine ⟨fun k => (freed.2 k).trans (repaid.2 k), fun k => ?_,
      rewrite_fixed type ?_, fun _ => rfl⟩
    · rw [Table.lookup_erase, if_neg fun same => other (congrArg Prod.snd same)]
    · simp only [Stat.fixed, repaid.1, freed.1]

theorem Owned.agree (own : Owned owner a) (view : Agree owner s t) (h : apply c s a = .ok s')
    (room : Room s s' t) :
    ∃ t', apply c t a = .ok t' ∧ Agree owner s' t' ∧ SameChange s s' t t' := by
  cases own with
  | lock symbl quantity => exact lock_agree view h room
  | bail symbl quantity => exact bail_agree view h room
  | wipe symbl quantity => exact wipe_agree view h room
  | shut symbl => exact shut_agree view h room

theorem Owned.bounded (own : Owned owner a) (h : apply c s a = .ok s') (k : Running) :
    Bounded s (running s k) (running s' k) := by
  cases own with
  | lock symbl quantity => exact lock_bounded h k
  | bail symbl quantity => exact bail_bounded h k
  | wipe symbl quantity => exact wipe_bounded h k
  | shut symbl => exact shut_bounded h k

theorem Owned.local (own : Owned owner a) (c : Ctx) :
    Local shared owner fun s => apply c s a where
  transfer view h room := own.agree view h room
  frame other h := own.frame h other
  checked k h := (own.bounded h k).1
  small k sound h := (own.bounded h k).2 sound
  sound sound h := sound.apply h

/-! ## Either order -/

/-- Tables with the same rows. -/
def SameTables (s t : State) : Prop :=
  (∀ k, s.accounts.lookup k = t.accounts.lookup k) ∧ (∀ k, s.cdps.lookup k = t.cdps.lookup k) ∧
    (∀ k, s.stats.lookup k = t.stats.lookup k) ∧ ∀ k, s.feeds.lookup k = t.feeds.lookup k

theorem sameTables_of_agree (view : ∀ owner, Agree owner s t)
    (totals : ∀ k, running t k = running s k) :
    SameTables s t := by
  refine ⟨fun k => ((view k.2).accounts k.1).symm, fun k => ((view k.2).cdps k.1).symm, fun k => ?_,
    fun k => ?_⟩
  · have same := (view ⟨0⟩).stats k
    cases left : s.stats.lookup k with
    | none =>
      rw [left, Option.map_none, Option.map_eq_none_iff] at same
      exact same.symm
    | some st =>
      obtain ⟨f, d, l, right⟩ := (view ⟨0⟩).stat left
      have fees := totals (.fees k)
      have lent := totals (.lent k)
      have locked := totals (.locked k)
      simp only [running, Ledger.held_some left, Ledger.held_some right, Stat.withTotals]
        at fees lent locked
      rw [right, fees, lent, locked]
      rfl
  · have same := (view ⟨0⟩).feeds k
    cases left : s.feeds.lookup k with
    | none =>
      rw [left, Option.map_none, Option.map_eq_none_iff] at same
      exact same.symm
    | some f =>
      obtain ⟨g, right⟩ := (view ⟨0⟩).feed left
      have total := totals (.circulating k)
      simp only [running, Ledger.held_some left, Ledger.held_some right, Feed.withTotal] at total
      rw [right, total]
      rfl

/-- The state after a call that changes nothing when it fails. -/
def result (c : Ctx) (s : State) (a : Action) : State := Sharing.outcome (fun s => apply c s a) s

/-- Whichever of the calls comes first, no running total leaves the range of assets. -/
def TotalsFit (c₁ c₂ : Ctx) (s : State) (a₁ a₂ : Action) : Prop :=
  ∀ k, Asset.isAmountWithinRange (running s k + running (result c₁ s.cleared a₁) k) = true ∧
    Asset.isAmountWithinRange (running s k + running (result c₂ s.cleared a₂) k) = true ∧
    Asset.isAmountWithinRange (running s k + running (result c₁ s.cleared a₁) k +
      running (result c₂ s.cleared a₂) k) = true

/-- Calls of `lock`, `bail`, `wipe` and `shut` by two owners commute. -/
theorem owners_commute (self : Name) (clock : Nat) (es : List Event) (auth₁ auth₂ : List Name)
    (owner₁ owner₂ : Name) (a₁ a₂ : Action) (own₁ : Owned owner₁ a₁) (own₂ : Owned owner₂ a₂)
    (apart : owner₁ ≠ owner₂)
    (room : TotalsFit ((after self clock es).ctx self auth₁) ((after self clock es).ctx self auth₂)
      (after self clock es).state a₁ a₂) :
    let c₁ := (after self clock es).ctx self auth₁
    let c₂ := (after self clock es).ctx self auth₂
    let s := (after self clock es).state
    ((apply c₁ (result c₂ s a₂) a₁).isOk = true ↔ (apply c₁ s a₁).isOk = true) ∧
      ((apply c₂ (result c₁ s a₁) a₂).isOk = true ↔ (apply c₂ s a₂).isOk = true) ∧
      SameTables (result c₂ (result c₁ s a₁) a₂) (result c₁ (result c₂ s a₂) a₁) := by
  intro c₁ c₂ s
  obtain ⟨first, second, views, totals⟩ :=
    commute (own₁.local c₁) (own₂.local c₂) apart (sound_after self clock es) room
  exact ⟨first, second, sameTables_of_agree views fun k => (totals k).symm⟩

section

open Sample

/-- Running totals far inside the range. -/
def Modest (s : State) : Prop :=
  (∀ e ∈ s.stats.entries, |e.2.feeBalance.amount| ≤ 2 ^ 60 ∧ |e.2.totalStablecoin.amount| ≤ 2 ^ 60 ∧
      |e.2.totalCollateral.quantity.amount| ≤ 2 ^ 60) ∧
    ∀ e ∈ s.feeds.entries, |e.2.total.amount| ≤ 2 ^ 60

instance (s : State) : Decidable (Modest s) := inferInstanceAs (Decidable (_ ∧ _))

theorem held_modest {K V : Type} [DecidableEq K] {f : V → Int} {a : Table K V}
    (h : ∀ e ∈ a.entries, |f e.2| ≤ 2 ^ 60) (k : K) : |Ledger.held f a k| ≤ 2 ^ 60 := by
  cases found : a.lookup k with
  | none =>
    rw [Ledger.held_none found]
    decide
  | some v =>
    rw [Ledger.held_some found]
    exact h _ ((Table.lookup_iff_mem a k v).mp found)

theorem Modest.running (h : Modest s) (k : Running) : |Maker.running s k| ≤ 2 ^ 60 := by
  cases k with
  | fees k => exact held_modest (fun e mem => (h.1 e mem).1) k
  | lent k => exact held_modest (fun e mem => (h.1 e mem).2.1) k
  | locked k => exact held_modest (fun e mem => (h.1 e mem).2.2) k
  | circulating k => exact held_modest h.2 k

theorem TotalsFit.of_modest {c₁ c₂ : Ctx} {a₁ a₂ : Action} (now : Modest s)
    (first : Modest (result c₁ s.cleared a₁)) (second : Modest (result c₂ s.cleared a₂)) :
    TotalsFit c₁ c₂ s a₁ a₂ := by
  intro k
  have x := abs_le.mp (now.running k)
  have y := abs_le.mp (first.running k)
  have z := abs_le.mp (second.running k)
  refine ⟨decide_eq_true ?_, decide_eq_true ?_, decide_eq_true ?_⟩ <;>
    unfold Asset.maxAmount <;> omega

/-- `nick` and `sick` each with a CDP of the type `FUD`. -/
def neighbours : List Event :=
  funded EOS 200 1000000 ++
  [ borrow 10000,
    .act [nick] (.deposit IQ_NAME nick daiqcontract ⟨1000, IQ_SYMBOL⟩ []),
    .act [sick] (.deposit eosioToken sick daiqcontract ⟨5000, EOS⟩ []),
    .act [sick] (.openCdp sick FUD sick),
    .act [sick] (.lock sick FUD ⟨5000, EOS⟩) ]

theorem neighbours_commute :
    let c₁ := (after daiqcontract 1000 neighbours).ctx daiqcontract [nick]
    let c₂ := (after daiqcontract 1000 neighbours).ctx daiqcontract [sick]
    let s := (after daiqcontract 1000 neighbours).state
    let a₁ := Action.wipe nick FUD ⟨2500, USD⟩
    let a₂ := Action.shut sick FUD
    ((apply c₁ (result c₂ s a₂) a₁).isOk = true ↔ (apply c₁ s a₁).isOk = true) ∧
      ((apply c₂ (result c₁ s a₁) a₂).isOk = true ↔ (apply c₂ s a₂).isOk = true) ∧
      SameTables (result c₂ (result c₁ s a₁) a₂) (result c₁ (result c₂ s a₂) a₁) :=
  owners_commute daiqcontract 1000 neighbours [nick] [sick] nick sick _ _ (.wipe FUD ⟨2500, USD⟩)
    (.shut FUD) (by decide)
    (.of_modest (by decide +kernel) (by decide +kernel) (by decide +kernel))

end

end DecentralBank.Maker
