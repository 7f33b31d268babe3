import DecentralBank.System.Auctions

/-!
# The auction a block closes

The index orders auctions by their bids negated, as unsigned words. Half of the
range of a word keeps the open auctions from those that are closed, and the
first from there on has the highest bid.
-/

namespace DecentralBank.System

open Checked Runs

variable {D : Type} {c : Ctx D} {s s' : State D} {newname : Name} {bids : Table Name NameBid}
  {row : NameBid}

/-! ## The index -/

theorem byHighBid_eq (range : |row.highBid| < 2 ^ 62) :
    (row.byHighBid : Int) = if 0 < row.highBid then 2 ^ 64 - row.highBid else -row.highBid := by
  obtain ⟨lo, hi⟩ := abs_lt.mp range
  unfold NameBid.byHighBid
  split
  · rename_i active
    have wrapped : u64 (-row.highBid) = u64 (2 ^ 64 - row.highBid) := u64_congr (by omega)
    rw [wrapped, u64_of_lt (by omega) (by omega)]
  · exact u64_of_lt (by omega) (by omega)

/-- Rows from half of the range on are those of open auctions. -/
theorem byHighBid_active (range : |row.highBid| < 2 ^ 62) :
    (2 ^ 64 - 1) / 2 ≤ row.byHighBid ↔ 0 < row.highBid := by
  have key := byHighBid_eq range
  obtain ⟨lo, hi⟩ := abs_lt.mp range
  split at key
  · omega
  · omega

/-- A higher bid comes first. -/
theorem byHighBid_le {other : NameBid} (range : |row.highBid| < 2 ^ 62)
    (range' : |other.highBid| < 2 ^ 62) (active : 0 < row.highBid) (active' : 0 < other.highBid) :
    row.byHighBid ≤ other.byHighBid ↔ other.highBid ≤ row.highBid := by
  have key := byHighBid_eq range
  have key' := byHighBid_eq range'
  rw [if_pos active] at key
  rw [if_pos active'] at key'
  omega

/-- The open auction with the highest bid. -/
structure Highest (bids : Table Name NameBid) (newname : Name) (row : NameBid) : Prop where
  found : bids.lookup newname = some row
  active : 0 < row.highBid
  highest : ∀ other b, bids.lookup other = some b → b.highBid ≤ row.highBid

theorem highestBid_highest (range : bids.All fun _ b => |b.highBid| < 2 ^ 62)
    (h : highestBid bids = some (newname, row)) : Highest bids newname row := by
  have first := highestBid_first bids
  rw [h] at first
  obtain ⟨among, above, least⟩ := first
  have found := mem_bidRows.mp among
  have active := (byHighBid_active (range _ _ found)).mp above
  refine ⟨found, active, fun other b found' => ?_⟩
  rcases le_or_gt b.highBid 0 with shut | active'
  · omega
  · have above' := (byHighBid_active (range _ _ found')).mpr active'
    exact (byHighBid_le (range _ _ found) (range _ _ found') active active').mp
      (least (other, b) (mem_bidRows.mpr found') above')

/-- Bids that were paid for are of less than half of the range. -/
theorem Fair.range {core : Symbol} (hs : Fair core s) :
    s.namebids.All fun _ b => |b.highBid| < 2 ^ 62 := by
  intro k b found
  obtain ⟨-, high, -⟩ := hs.bids k b found
  exact Int.lt_of_le_sub_one high

/-- Without an open auction the index has nothing in its upper half. -/
theorem highestBid_none (range : bids.All fun _ b => |b.highBid| < 2 ^ 62)
    (shut : ∀ other b, bids.lookup other = some b → b.highBid < 0) : highestBid bids = none := by
  cases h : highestBid bids with
  | none => rfl
  | some best =>
    obtain ⟨newname, row⟩ := best
    obtain ⟨found, active, -⟩ := highestBid_highest range h
    have closed := shut _ _ found
    omega

/-! ## What a block does to the auctions -/

/-- The auction at the head of the index is closed, a day after its last bid. -/
def ClosesHighest (c : Ctx D) (bids bids' : Table Name NameBid) : Prop :=
  ∃ newname row, highestBid bids = some (newname, row) ∧
    USECONDS_PER_DAY < c.now - row.lastBidTime ∧
    bids' = bids.insert newname { row with highBid := -row.highBid }

theorem closeAuction_closes (slot : Nat) : (closeAuction c s slot).namebids = s.namebids ∨
    ClosesHighest c s.namebids (closeAuction c s slot).namebids := by
  unfold closeAuction
  split
  · rename_i newname row highest
    split
    · rename_i old
      exact Or.inr ⟨newname, row, highest, old.2.1, rfl⟩
    · exact Or.inl rfl
  · exact Or.inl rfl

theorem everyMinute_closes (slot : Nat) : (everyMinute c s slot).namebids = s.namebids ∨
    ClosesHighest c s.namebids (everyMinute c s slot).namebids := by
  unfold everyMinute
  split
  · simp only
    split
    · exact closeAuction_closes slot
    · exact Or.inl rfl
  · exact Or.inl rfl

theorem countBlock_namebids (s : State D) (producer : Name) :
    (countBlock s producer).namebids = s.namebids := by
  unfold countBlock
  split
  · rfl
  · rfl

theorem onblock_closes {slot : Nat} {producer : Name} (h : onblock c s slot producer = .ok s') :
    s'.namebids = s.namebids ∨ ClosesHighest c s.namebids s'.namebids := by
  simp only [onblock, bind_eq_ok, Ctx.requireAuth_eq_ok, exists_const, ite_eq_ok, pure_eq_ok] at h
  obtain ⟨-, ⟨-, rfl⟩ | ⟨-, rfl⟩⟩ := h
  · exact Or.inl rfl
  · refine (everyMinute_closes slot).imp (fun same => same.trans (countBlock_namebids _ _))
      fun closes => ?_
    rwa [countBlock_namebids] at closes

/-- A row that a block changes is that of the open auction with the highest bid, whose last is more
than a day old. It turns negative, and no other row changes. Where all auctions are closed, none is
found in the index and none changes. -/
theorem onblock_closes_highest {slot : Nat} {producer : Name}
    (range : s.namebids.All fun _ b => |b.highBid| < 2 ^ 62)
    (h : onblock c s slot producer = .ok s') :
    (∀ newname, s'.namebids.lookup newname ≠ s.namebids.lookup newname →
      ∃ row, s.namebids.lookup newname = some row ∧ 0 < row.highBid ∧
        (∀ other b, s.namebids.lookup other = some b → b.highBid ≤ row.highBid) ∧
        USECONDS_PER_DAY < c.now - row.lastBidTime ∧
        s'.namebids.lookup newname = some { row with highBid := -row.highBid } ∧
        ∀ other, other ≠ newname → s'.namebids.lookup other = s.namebids.lookup other) ∧
      ((∀ other b, s.namebids.lookup other = some b → b.highBid < 0) →
        highestBid s.namebids = none ∧ s'.namebids = s.namebids) := by
  refine ⟨fun newname changed => ?_, fun shut => ?_⟩
  · obtain same | ⟨closed, row, first, old, same⟩ := onblock_closes h
    · exact absurd (by rw [same]) changed
    · obtain ⟨found, active, highest⟩ := highestBid_highest range first
      rw [same, Table.lookup_insert] at changed
      split at changed
      · rename_i here
        subst here
        refine ⟨row, found, active, highest, old, ?_, fun other apart => ?_⟩
        · rw [same, Table.lookup_insert, if_pos rfl]
        · rw [same, Table.lookup_insert, if_neg apart]
      · exact absurd rfl changed
  · have none := highestBid_none range shut
    refine ⟨none, ?_⟩
    obtain same | ⟨closed, row, first, -⟩ := onblock_closes h
    · exact same
    · cases none.symm.trans first

section

open Sample

def net : Name := ⟨11146972027695398912⟩
def org : Name := ⟨11950301611227611136⟩

/-- The bid of `dick` is the highest, and his auction is closed first. -/
def auctioned : State Int := run (step eosio) launched
  [call nick 2000000 (.bidname nick com (eos 400)),
    call dick 2000001 (.bidname dick net (eos 900)),
    call rick 2000002 (.bidname rick org (eos 100)),
    call eosio 2100000 (.onblock 4200000 eosio)]

/-- A block a day later. -/
def dayLater : Checked (State Int) :=
  onblock ⟨eosio, [eosio], 2200000000000, whole⟩ auctioned 4400000 eosio

/-- What is bid for a name, negative once its auction is closed. -/
def highBid (s : State Int) (newname : Name) : Option Int :=
  (s.namebids.lookup newname).map NameBid.highBid

theorem dayLater_closes_com : ∃ s', dayLater = .ok s' ∧ highBid s' com = some (-400) ∧
    highBid s' net = some (-900) ∧ highBid s' org = some 100 := by
  have start : Fair EOS launched := ⟨rfl, ledger_conserved, Table.All.empty _, Table.All.empty _⟩
  have fair : Fair EOS auctioned := start.run (by decide)
  have shown : dayLater.toOption.map (highBid · com) = some (some (-400)) := by decide +kernel
  have before : highBid auctioned com = some 400 := by decide +kernel
  cases done : dayLater with
  | error message =>
    rw [done] at shown
    cases shown
  | ok s' =>
    rw [done] at shown
    have closed : highBid s' com = some (-400) := Option.some.inj shown
    have changed : s'.namebids.lookup com ≠ auctioned.namebids.lookup com := by
      intro same
      rw [highBid, same] at closed
      exact absurd (closed.symm.trans before) (by decide)
    obtain ⟨closes, -⟩ := onblock_closes_highest fair.range done
    obtain ⟨row, -, -, -, -, -, others⟩ := closes com changed
    refine ⟨s', rfl, closed, ?_, ?_⟩
    · rw [highBid, others net (by decide)]
      decide +kernel
    · rw [highBid, others org (by decide)]
      decide +kernel

end

end DecentralBank.System
