import DecentralBank.Maker.Sound

/-!
# What an action books on a type

Each action on a CDP adds to the totals of its type, and nothing else does. A
type keeps its kind for as long as the contract does not count a referendum as
its own proposal.
-/

namespace DecentralBank.Maker

open Runs

/-- The contract is not the proposer of the referendum: it would erase the type itself. -/
def KeepsTypes (c : Ctx) : Action → Prop
  | .referended proposer _ => proposer ≠ c.self
  | _ => True

instance (c : Ctx) : (a : Action) → Decidable (KeepsTypes c a)
  | .referended .. => inferInstanceAs (Decidable (_ ≠ _))
  | .openCdp .. | .close .. | .shut .. | .lock .. | .bail .. | .draw .. | .wipe .. | .settle ..
  | .vote .. | .propose .. | .liquify .. | .upfeed .. | .withdraw .. | .deposit .. => isTrue trivial

variable {c : Ctx} {s s' : State} {a : Action}

theorem kind_kept (h : apply c s a = .ok s') (keeps : KeepsTypes c a) {T : SymbolCode} {κ : Kind}
    (hk : kindOf c.self s.stats T = some κ) : kindOf c.self s'.stats T = some κ := by
  rcases apply_kind h hk with kept | rfl
  · exact kept
  · exact absurd rfl keeps

/-! ## CDPs of their type -/

/-- The type of every CDP exists, and a live one is in the symbols of its type. -/
def Typed (self : Name) (s : State) : Prop :=
  s.cdps.All fun k it => ∃ κ, kindOf self s.stats k.1 = some κ ∧
    (it.live = true → it.collateral.symbol = κ.collateral ∧ it.stablecoin.symbol = κ.stablecoin)

theorem Typed.empty (self : Name) : Typed self State.empty := Table.All.empty _

theorem Typed.queueless (self : Name) : Queueless (Typed self) := fun _ _ h => h

theorem CdpStep.typed {k : SymbolCode × Name} {old new : Option Cdp} (h : CdpStep c s a k old new)
    (ho : ∀ it, old = some it → ∃ κ, kindOf c.self s.stats k.1 = some κ ∧
      (it.live = true → it.collateral.symbol = κ.collateral ∧ it.stablecoin.symbol = κ.stablecoin))
    {it : Cdp} (hn : new = some it) : ∃ κ, kindOf c.self s.stats k.1 = some κ ∧
      (it.live = true → it.collateral.symbol = κ.collateral ∧
        it.stablecoin.symbol = κ.stablecoin) := by
  cases h with
  | @opened _ _ _ st type feed =>
    cases hn
    exact ⟨st.kind, kindOf_lookup type, fun _ => ⟨rfl, rfl⟩⟩
  | freed =>
    cases hn
    obtain ⟨κ, kind, symbols⟩ := ho _ rfl
    exact ⟨κ, kind, symbols⟩
  | drawn =>
    cases hn
    obtain ⟨κ, kind, symbols⟩ := ho _ rfl
    exact ⟨κ, kind, symbols⟩
  | wiped =>
    cases hn
    obtain ⟨κ, kind, symbols⟩ := ho _ rfl
    exact ⟨κ, kind, symbols⟩
  | locked =>
    cases hn
    obtain ⟨κ, kind, symbols⟩ := ho _ rfl
    exact ⟨κ, kind, symbols⟩
  | shut => cases hn
  | bid type opened bidding written =>
    obtain ⟨κ, kind, -⟩ := ho _ rfl
    rcases written with ⟨-, rfl⟩ | ⟨-, rfl⟩
    · cases hn
      have dead := bidding.dead (openAuction_dead opened)
      exact ⟨κ, kind, by simp [dead]⟩
    · cases hn

/-- The CDPs after a call, too, are in the symbols that their types had before. -/
theorem Typed.earlier (ht : Typed c.self s) (h : Maker.apply c s a = .ok s')
    {k : SymbolCode × Name} {it : Cdp} (hk : s'.cdps.lookup k = some it) :
    ∃ κ, kindOf c.self s.stats k.1 = some κ ∧ (it.live = true →
      it.collateral.symbol = κ.collateral ∧ it.stablecoin.symbol = κ.stablecoin) := by
  rcases apply_cdp h k with ⟨-, same⟩ | ⟨-, moved⟩
  · exact ht k it (same ▸ hk)
  · exact moved.typed (fun row hr => ht k row hr) hk

theorem Typed.apply (ht : Typed c.self s) (keeps : KeepsTypes c a)
    (h : Maker.apply c s a = .ok s') :
    Typed c.self s' := by
  intro k it hk
  obtain ⟨κ, kind, symbols⟩ := ht.earlier h hk
  exact ⟨κ, kind_kept h keeps kind, symbols⟩

/-! ## Totals -/

/-- What a call adds to the type's stablecoin total, given the CDP it finds. -/
def Action.issued : Action → Option Cdp → Int
  | .draw _ _ quantity, _ => quantity.amount
  | .wipe _ _ quantity, _ => -quantity.amount
  | .shut _ _, some it => -it.stablecoin.amount
  | _, _ => 0

/-- What a call adds to the type's collateral total: `shut` adds what it hands back. -/
def Action.collected : Action → Option Cdp → Int
  | .lock _ _ quantity, _ => quantity.amount
  | .bail _ _ quantity, _ => -quantity.amount
  | .shut _ _, some it => it.collateral.amount
  | _, _ => 0

/-- The row of the type before and after a call, its kind and ratio kept and its totals booked. -/
structure Booked (own : Name) (s s' : State) (a : Action) (k : SymbolCode × Name) (st st' : Stat) :
    Prop where
  type : s.stats.lookup (own, k.1) = some st
  type' : s'.stats.lookup (own, k.1) = some st'
  others : ∀ j, j ≠ (own, k.1) → s'.stats.lookup j = s.stats.lookup j
  kind : st'.kind = st.kind
  issued : st'.totalStablecoin.amount = st.totalStablecoin.amount + a.issued (s.cdps.lookup k)
  collected : st'.totalCollateral.quantity.amount =
    st.totalCollateral.quantity.amount + a.collected (s.cdps.lookup k)

theorem Booked.of_insert {own : Name} {k : SymbolCode × Name} {st st' : Stat}
    (type : s.stats.lookup (own, k.1) = some st)
    (written : s'.stats = s.stats.insert (own, k.1) st') (kind : st'.kind = st.kind)
    (issued : st'.totalStablecoin.amount = st.totalStablecoin.amount + a.issued (s.cdps.lookup k))
    (collected : st'.totalCollateral.quantity.amount =
      st.totalCollateral.quantity.amount + a.collected (s.cdps.lookup k)) :
    Booked own s s' a k st st' where
  type := type
  type' := by rw [written, AList.lookup_insert]
  others j hj := by rw [written, Table.lookup_insert, if_neg hj]
  kind := kind
  issued := issued
  collected := collected

theorem apply_booked (hs : Sound s) (h : apply c s a = .ok s') {k : SymbolCode × Name}
    (target : a.target = some k) : ∃ st st', Booked c.self s s' a k st st' := by
  cases a with
  | openCdp owner symbl ramPayer =>
    cases target
    obtain ⟨st, _, type, -, -, -, rfl⟩ := openCdp_ok h
    exact ⟨st, st, type, type, fun _ _ => rfl, rfl, (Int.add_zero _).symm, (Int.add_zero _).symm⟩
  | shut owner symbl =>
    cases target
    obtain ⟨st, it, _, stable, _, locked, -, type, found, live, debt, back, rfl⟩ := shut_ok h
    have row := hs.cdps _ _ found
    refine ⟨st, _, .of_insert type rfl ?_ ?_ ?_⟩
    · rcases shutDebt_ok debt with ⟨_, -, -, -, rfl⟩ | ⟨-, -, rfl⟩ <;>
        rcases shutCollateral_ok back with ⟨-, -, -, rfl⟩ | ⟨-, -, rfl⟩ <;> rfl
    · rw [found]
      rcases shutDebt_ok debt with ⟨_, -, -, -, rfl⟩ | ⟨none, -, rfl⟩
      · exact Int.sub_eq_add_neg
      · have := (row.debt live).1
        simp only [Action.issued]
        omega
    · rw [found]
      rcases shutCollateral_ok back with ⟨-, -, -, rfl⟩ | ⟨none, -, rfl⟩
      · rfl
      · have := (row.collateral live).1
        simp only [Action.collected]
        omega
  | lock owner symbl quantity =>
    cases target
    obtain ⟨st, _, _, _, -, -, type, -, -, -, -, -, -, -, rfl⟩ := lock_ok h
    exact ⟨st, _, .of_insert type rfl rfl (Int.add_zero _).symm rfl⟩
  | bail owner symbl quantity =>
    cases target
    obtain ⟨st, _, _, _, _, -, -, type, -, -, -, -, -, -, -, -, -, rfl⟩ := bail_ok h
    exact ⟨st, _, .of_insert type rfl rfl (Int.add_zero _).symm Int.sub_eq_add_neg⟩
  | draw owner symbl quantity =>
    cases target
    obtain ⟨st, _, _, _, _, _, -, -, type, -, -, -, -, -, -, -, -, -, -, rfl⟩ := draw_ok h
    exact ⟨st, _, .of_insert type rfl rfl rfl (Int.add_zero _).symm⟩
  | wipe owner symbl quantity =>
    cases target
    obtain ⟨st, _, _, _, _, _, _, _, _, -, -, type, -, -, -, -, -, -, -, -, -, -, rfl⟩ := wipe_ok h
    exact ⟨st, _, .of_insert type rfl rfl Int.sub_eq_add_neg (Int.add_zero _).symm⟩
  | liquify bidder owner symbl bidamt =>
    cases target
    obtain ⟨st, _, _, _, -, -, type, -, -, bidding, done⟩ := liquify_ok h
    have same := bidding.stat_eq
    rcases finish_ok done with ⟨-, rfl⟩ | ⟨_, _, -, -, rfl⟩
    · exact ⟨st, _, .of_insert type (by rw [same]) rfl (Int.add_zero _).symm (Int.add_zero _).symm⟩
    · exact ⟨st, _, .of_insert type (by rw [same]) rfl (Int.add_zero _).symm (Int.add_zero _).symm⟩
  | _ => cases target

/-- A row that nobody has booked on yet. -/
def Stat.Fresh (st : Stat) : Prop :=
  st.totalStablecoin.amount = 0 ∧ st.totalCollateral.quantity.amount = 0 ∧ st.feeBalance.amount = 0

/-- Proposed terms wait in the proposer's scope with nothing booked on them. -/
def Filed (self : Name) (s : State) : Prop := s.stats.All fun k st => k.1 ≠ self → st.Fresh

theorem Filed.empty (self : Name) : Filed self State.empty := Table.All.empty _

theorem Filed.queueless (self : Name) : Queueless (Filed self) := fun _ _ h => h

/-- Without a CDP to work on, a call keeps the totals of every type, or makes a
new type without any. -/
theorem apply_unbooked (hf : Filed c.self s) (keeps : KeepsTypes c a) (h : apply c s a = .ok s')
    (none : a.target = none) :
    Filed c.self s' ∧ ∀ T st', s'.stats.lookup (c.self, T) = some st' →
      (∃ st, s.stats.lookup (c.self, T) = some st ∧ st'.totalStablecoin = st.totalStablecoin ∧
        st'.totalCollateral = st.totalCollateral) ∨
      (s.stats.lookup (c.self, T) = .none ∧ st'.Fresh) := by
  cases a with
  | upfeed feeder price cdpType symbol =>
    obtain ⟨-, rfl⟩ := upfeed_ok h
    exact ⟨hf, fun T st hst => Or.inl ⟨st, hst, rfl, rfl⟩⟩
  | close owner symbl =>
    obtain ⟨_, -, -, -, rfl⟩ := close_ok h
    exact ⟨hf, fun T st hst => Or.inl ⟨st, hst, rfl, rfl⟩⟩
  | vote voter symbl against quantity =>
    obtain ⟨_, _, _, _, _, -, -, -, -, -, -, -, rfl⟩ := vote_ok h
    exact ⟨hf, fun T st hst => Or.inl ⟨st, hst, rfl, rfl⟩⟩
  | withdraw owner quantity memo =>
    obtain ⟨_, _, _, _, -, -, -, -, -, rfl⟩ := withdraw_ok h
    exact ⟨hf, fun T st hst => Or.inl ⟨st, hst, rfl, rfl⟩⟩
  | deposit code source target quantity memo =>
    obtain ⟨-, -, ⟨-, rfl⟩ | ⟨_, _, -, -, -, -, rfl⟩⟩ := deposit_ok (apply_deposit_ok h).2
    · exact ⟨hf, fun T st hst => Or.inl ⟨st, hst, rfl, rfl⟩⟩
    · exact ⟨hf, fun T st hst => Or.inl ⟨st, hst, rfl, rfl⟩⟩
  | settle feeder symbl =>
    obtain ⟨st, type, rfl⟩ := settle_ok h
    refine ⟨Table.All.insert hf fun other => absurd rfl other, fun T st' hst => ?_⟩
    obtain ⟨e, rfl⟩ | ⟨-, old⟩ := Table.of_lookup_insert hst
    · exact Or.inl ⟨st, e ▸ type, rfl, rfl⟩
    · exact Or.inl ⟨st', old, rfl, rfl⟩
  | propose proposer symbl terms =>
    obtain ⟨_, -, -, free, -, -, filed, -, rfl⟩ := propose_ok h
    rcases fileTerms_ok filed with ⟨-, -, rfl, -⟩ | ⟨-, rfl⟩
    · exact ⟨hf, fun T st hst => Or.inl ⟨st, hst, rfl, rfl⟩⟩
    · have fresh : terms.draft.Fresh := ⟨rfl, rfl, rfl⟩
      refine ⟨Table.All.insert hf fun _ => fresh, fun T st' hst => ?_⟩
      obtain ⟨e, rfl⟩ | ⟨-, old⟩ := Table.of_lookup_insert hst
      · exact Or.inr ⟨e ▸ free, fresh⟩
      · exact Or.inl ⟨st', old, rfl, rfl⟩
  | referended proposer symbl =>
    obtain ⟨-, _, -, -, ⟨-, -, rfl⟩ | ⟨stats, _, -, result, -, rfl⟩⟩ := referended_ok h
    · exact ⟨hf, fun T st hst => Or.inl ⟨st, hst, rfl, rfl⟩⟩
    · have decided : (stats.All fun k st => k.1 ≠ c.self → st.Fresh) ∧
          ∀ T st', stats.lookup (c.self, T) = some st' →
            (∃ st, s.stats.lookup (c.self, T) = some st ∧
              st'.totalStablecoin = st.totalStablecoin ∧ st'.totalCollateral = st.totalCollateral) ∨
            (s.stats.lookup (c.self, T) = .none ∧ st'.Fresh) := by
        rcases result with ⟨-, enacted⟩ | ⟨-, rfl⟩
        · obtain ⟨new, rfl, written⟩ := enact_ok enacted
          refine ⟨Table.All.insert hf fun other => absurd rfl other, fun T st' hst => ?_⟩
          obtain ⟨e, rfl⟩ | ⟨-, old⟩ := Table.of_lookup_insert hst
          · rw [e]
            rcases written with ⟨st, found, debt, collateral, -⟩ | ⟨absent, p, found, rfl⟩
            · exact Or.inl ⟨st, found, debt, collateral⟩
            · exact Or.inr ⟨absent, hf _ p found keeps⟩
          · exact Or.inl ⟨st', old, rfl, rfl⟩
        · exact ⟨hf, fun T st hst => Or.inl ⟨st, hst, rfl, rfl⟩⟩
      refine ⟨?_, fun T st' hst => ?_⟩
      · unfold Filed
        split
        · exact Table.All.erase decided.1 _
        · exact decided.1
      · refine decided.2 T st' ?_
        split at hst
        · exact (Table.of_lookup_erase hst).2
        · exact hst
  | _ => cases none

theorem Filed.apply (hs : Sound s) (hf : Filed c.self s) (keeps : KeepsTypes c a)
    (h : Maker.apply c s a = .ok s') : Filed c.self s' := by
  cases target : a.target with
  | none => exact (apply_unbooked hf keeps h target).1
  | some k =>
    obtain ⟨st, st', booked⟩ := apply_booked hs h target
    intro j row hj other
    refine hf j row ?_ other
    rwa [booked.others j (by rintro rfl; exact other rfl)] at hj

/-- What every call keeps that keeps the types. -/
structure Kept (own : Name) (s : State) : Prop where
  sound : Sound s
  typed : Typed own s
  filed : Filed own s

theorem Kept.empty (self : Name) : Kept self State.empty :=
  ⟨Sound.empty, Typed.empty self, Filed.empty self⟩

theorem Kept.queueless (self : Name) : Queueless (Kept self) := fun s d h =>
  ⟨Sound.queueless s d h.sound, Typed.queueless self s d h.typed, Filed.queueless self s d h.filed⟩

theorem Kept.apply (hk : Kept c.self s) (keeps : KeepsTypes c a) (h : Maker.apply c s a = .ok s') :
    Kept c.self s' :=
  ⟨hk.sound.apply h, hk.typed.apply keeps h, hk.filed.apply hk.sound keeps h⟩

end DecentralBank.Maker
