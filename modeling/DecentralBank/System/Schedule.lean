import DecentralBank.System.Blockchain
import DecentralBank.System.Footprints

/-!
# The producers that are scheduled

The chain always has the schedule of a block before, and that block proposed
the registered producers that had the most votes then.
-/

namespace DecentralBank.System

open Checked Runs

variable {D : Type} {self : Name} {fp : Doubles D} {c : Ctx D} {s s' : State D}
  {ch ch' : Blockchain D}

def Action.blocks : Action → Bool
  | .onblock .. => true
  | _ => false

/-- Only a block resizes the schedule. -/
theorem apply_size {a : Action} (other : a.blocks = false) (h : a.apply c s = .ok s') :
    s'.gstate.lastProducerScheduleSize = s.gstate.lastProducerScheduleSize := by
  have traded {payers : List Name} (trades : Trades payers s s') :
      s'.gstate.lastProducerScheduleSize = s.gstate.lastProducerScheduleSize := by
    obtain ⟨_, _, _, _, _, _, _, _, rfl⟩ := trades.rest
    rfl
  have governed (governs : a.governs = true) :
      s'.gstate.lastProducerScheduleSize = s.gstate.lastProducerScheduleSize := by
    obtain ⟨e, rfl, kept⟩ := apply_governs True governs h
    exact kept.size
  cases a with
  | newaccount creator newact =>
    obtain ⟨_, _, -, -, -, rfl⟩ := newaccount_ok h
    rfl
  | init version core =>
    simp only [Action.apply, System.init, bind_eq_ok, pure_eq_ok] at h
    obtain ⟨-, -, -, -, -, -, _, -, -, -, -, -, rfl⟩ := h
    rfl
  | setram size => exact traded (setram_trades h)
  | setramrate rate => exact traded (setramrate_trades h)
  | buyrambytes payer receiver bytes => exact traded (buyrambytes_trades h)
  | buyram payer receiver quant => exact traded (buyram_trades h)
  | sellram account bytes => exact traded (sellram_trades h)
  | bidname bidder newname bid =>
    obtain ⟨_, _, _, rfl, -⟩ := bidname_moves h
    rfl
  | bidrefund bidder newname =>
    obtain ⟨_, _, rfl, -⟩ := bidrefund_moves h
    rfl
  | delegatebw source receiver net cpu transfer =>
    obtain ⟨-, -, -, -, -, -, changed⟩ := delegatebw_ok h
    exact (changebw_stakes changed).size
  | undelegatebw source receiver net cpu =>
    obtain ⟨-, -, -, -, -, changed⟩ := undelegatebw_ok h
    exact (changebw_stakes changed).size
  | refund owner => exact (refund_stakes h).size
  | claimrewards owner => exact (claimrewards_claims h).size
  | onblock slot producer => cases other
  | rmvproducer | updtrevision | regproducer | unregprod | voteproducer | regproxy =>
    exact governed rfl

theorem ask_proposed {a : Action} {h h' : Host} (asked : a.ask c h s s' = .ok h') :
    h'.proposed = h.proposed := by
  have trade {account : Name} (asked : askTrade h s' account = .ok h') :
      h'.proposed = h.proposed := by
    simp only [askTrade, bind_eq_ok, pure_eq_ok] at asked
    obtain ⟨_, -, _, -, rfl⟩ := asked
    rfl
  have stake {source receiver : Name} {net cpu : Asset} {transfer : Bool}
      (asked : askChangebw c h s' source receiver net cpu transfer = .ok h') :
      h'.proposed = h.proposed := by
    simp only [askChangebw, askLimits, bind_eq_ok, pure_eq_ok] at asked
    obtain ⟨_, ⟨_, -, _, -, rfl⟩, rfl⟩ := asked
    split
    · rfl
    · rfl
  cases a with
  | buyram | buyrambytes | sellram => exact trade asked
  | delegatebw | undelegatebw => exact stake asked
  | bidname bidder newname bid =>
    simp only [Action.ask, askBid, pure_eq_ok] at asked
    subst asked
    split
    · rfl
    · rfl
  | newaccount =>
    simp only [Action.ask, pure_eq_ok] at asked
    subst asked
    rfl
  | init | setram | setramrate | rmvproducer | updtrevision | bidrefund | refund | regproducer
  | unregprod | voteproducer | regproxy | onblock | claimrewards =>
    simp only [Action.ask, pure_eq_ok] at asked
    subst asked
    rfl

/-! ## One step -/

/-- The schedule stays, or is one that is elected now and no shorter. -/
def Renewed (fp : Doubles D) (ch ch' : Blockchain D) : Prop :=
  (ch'.proposed = ch.proposed ∧
    ch'.gstate.lastProducerScheduleSize = ch.gstate.lastProducerScheduleSize) ∨
  (Elected fp ch'.producers ch'.proposed ∧
    ch'.proposed.length = ch'.gstate.lastProducerScheduleSize ∧
    ch.gstate.lastProducerScheduleSize ≤ ch'.gstate.lastProducerScheduleSize)

theorem apply_renewed {accepts : List ProducerKey → Bool} {act : Act} (ordered : c.fp.Ordered)
    (h : act.apply c accepts ch = .ok ch') : Renewed c.fp ch ch' := by
  have idle {a : Action} (other : a.blocks = false)
      (h : (do
        let s ← a.apply c ch.toState
        let h ← a.ask c ch.toHost ch.toState s
        pure ⟨s, h⟩ : Checked (Blockchain D)) = .ok ch') : Renewed c.fp ch ch' := by
    simp only [bind_eq_ok, pure_eq_ok] at h
    obtain ⟨s, done, host, asked, rfl⟩ := h
    exact Or.inl ⟨ask_proposed asked, apply_size other done⟩
  cases act with
  | setparams params =>
    simp only [Act.apply, System.setparams, bind_eq_ok, pure_eq_ok] at h
    obtain ⟨_, ⟨-, -, -, -, rfl⟩, rfl⟩ := h
    exact Or.inl ⟨rfl, rfl⟩
  | setalimits account ram net cpu =>
    simp only [Act.apply, Blockchain.setalimits, bind_eq_ok, pure_eq_ok] at h
    obtain ⟨-, -, -, -, _, -, rfl⟩ := h
    exact Or.inl ⟨rfl, rfl⟩
  | system a =>
    cases a with
    | onblock slot producer =>
      obtain ⟨s, size, proposed, done, rfl, kept | ⟨rfl, rfl, grown⟩⟩ := Blockchain.onblock_ok h
      · obtain ⟨rfl, rfl⟩ := kept
        exact Or.inl ⟨rfl, rfl⟩
      · refine Or.inr ⟨packSchedule_elected ordered _, length_packSchedule _, grown⟩
    | _ => exact idle rfl h

theorem step_renewed (ordered : fp.Ordered) (ch : Blockchain D) (e : Event) :
    Renewed fp ch (ch.step self fp e) := by
  unfold Blockchain.step
  cases done : ch.perform self fp e with
  | error message => exact Or.inl ⟨rfl, rfl⟩
  | ok ch' =>
    cases e with
    | call auth now accepts act =>
      simp only [Blockchain.perform, bind_eq_ok] at done
      obtain ⟨-, -, done⟩ := done
      exact apply_renewed (c := ⟨self, auth, now, fp⟩) ordered done
    | fire id now =>
      simp only [Blockchain.perform, Blockchain.fire, bind_eq_ok] at done
      obtain ⟨tx, -, -, -, done⟩ := done
      split at done
      · rename_i ch'' fired
        cases pure_eq_ok.mp done
        have renewed := apply_renewed (c := ⟨self, [tx.authority], now, fp⟩) ordered fired
        unfold Renewed at renewed ⊢
        exact renewed
      · cases pure_eq_ok.mp done
        exact Or.inl ⟨rfl, rfl⟩
    | drop id =>
      simp only [Blockchain.perform, pure_eq_ok] at done
      subst done
      exact Or.inl ⟨rfl, rfl⟩
    | token auth action =>
      simp only [Blockchain.perform, bind_eq_ok, pure_eq_ok] at done
      obtain ⟨-, -, token, -, rfl⟩ := done
      exact Or.inl ⟨rfl, rfl⟩

/-! ## Every run -/

/-- After any run the schedule is the one of the start, or was elected by the votes there were after
some part of the run. It has never become shorter. -/
theorem schedule_elected (self : Name) (ordered : fp.Ordered) (ch : Blockchain D)
    (sized : ch.proposed.length = ch.gstate.lastProducerScheduleSize) (events : List Event) :
    let t := run (Blockchain.step self fp) ch events
    t.proposed.length = t.gstate.lastProducerScheduleSize ∧
      ch.proposed.length ≤ t.proposed.length ∧
      (t.proposed = ch.proposed ∨ ∃ first rest, events = first ++ rest ∧
        Elected fp (run (Blockchain.step self fp) ch first).producers t.proposed) := by
  induction events generalizing ch with
  | nil => exact ⟨sized, le_refl _, Or.inl rfl⟩
  | cons e events ih =>
    simp only [run_cons]
    have renewed : Renewed fp ch (ch.step self fp e) := step_renewed ordered ch e
    have sized' : (ch.step self fp e).proposed.length =
        (ch.step self fp e).gstate.lastProducerScheduleSize := by
      rcases renewed with ⟨same, size⟩ | ⟨-, size, -⟩
      · rw [same, size, sized]
      · exact size
    have grown : ch.proposed.length ≤ (ch.step self fp e).proposed.length := by
      rcases renewed with ⟨same, -⟩ | ⟨-, size, grown⟩
      · rw [same]
      · rw [size, sized]
        exact grown
    obtain ⟨size, longer, before⟩ := ih (ch.step self fp e) sized'
    refine ⟨size, grown.trans longer, ?_⟩
    rcases before with same | ⟨first, rest, split, elected⟩
    · rcases renewed with ⟨kept, -⟩ | ⟨elected, -⟩
      · exact Or.inl (same.trans kept)
      · exact Or.inr ⟨[e], events, rfl, by rw [same]; exact elected⟩
    · exact Or.inr ⟨e :: first, rest, by rw [split, List.cons_append], elected⟩

section

open Sample

/-- `dick`, `nick` and `rick` produce, `nick` votes for the first two, and `rick` is not scheduled. -/
def electing : List Event :=
  [signed dick 100 (.regproducer dick key [] 0),
    signed nick 101 (.regproducer nick key [] 0),
    signed rick 102 (.regproducer rick key [] 0),
    signed nick 103 (.delegatebw nick nick (eos 1000) (eos 0) false),
    signed nick 104 (.voteproducer nick NOBODY [dick, nick]),
    signed eosio 105 (.onblock 200 dick)]

theorem electing_elected :
    let t := run (Blockchain.step eosio whole) (blockchain activated) electing
    t.proposed = [⟨dick, key⟩, ⟨nick, key⟩] ∧ t.gstate.lastProducerScheduleSize = 2 := by
  intro t
  have sized : (blockchain activated).proposed.length =
      (blockchain activated).gstate.lastProducerScheduleSize := by rfl
  have size := (schedule_elected eosio whole_ordered (blockchain activated) sized electing).1
  have proposed : t.proposed = [⟨dick, key⟩, ⟨nick, key⟩] := by decide +kernel
  exact ⟨proposed, size.symm.trans (congrArg List.length proposed)⟩

end

end DecentralBank.System
