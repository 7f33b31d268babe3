import DecentralBank.System.Tables

/-!
# Voting

`voting.cpp`: votes, proxies and producers. A voter's weight counts for its
proxy or for the producers it votes for, and a change of a proxy's weight is
passed on to its own votes. The recursion has no bound in the code; here it
stops with `ENDLESS` when it has gone through more voters than there are.
The schedule of producers is in `Elections`.
-/

namespace DecentralBank.System

open Checked

variable {D : Type} (c : Ctx D)

/-- No failure of the code: the recursion was not over in time. -/
def ENDLESS : String := "endless recursion"

def stake2vote (staked : Int) : D :=
  let weeks := ((c.seconds : Int) - 946684800).tdiv (SECONDS_PER_DAY * 7)
  let weight := c.fp.div (c.fp.ofInt weeks) (c.fp.ofInt 52)
  c.fp.mul (c.fp.ofInt staked) (c.fp.pow (c.fp.ofInt 2) weight)

/-- The weight a voter has now. -/
def voteWeight (voter : VoterInfo D) : D :=
  let weight := stake2vote c voter.staked
  if voter.isProxy then c.fp.add weight voter.proxiedVoteWeight else weight

/-! ## Vote pay -/

/-- `x + delta`, or zero if a negative `delta` exceeds `x`. -/
def shrinkToZero (x delta : D) : D :=
  if c.fp.lt delta c.fp.zero && c.fp.lt x (c.fp.neg delta) then c.fp.zero else c.fp.add x delta

/-- The seconds from `past` to `present`. -/
def secondsSince (past present : Int) : D :=
  c.fp.div (c.fp.ofInt (present - past)) (c.fp.literal 1000000 0)

def updateTotalVotepayShare (e : Election D) (additionalShares sharesRate : D) : D × Election D :=
  let passed :=
    if e.gstate3.lastVpayStateUpdate < c.now then
      c.fp.mul e.gstate3.totalVpayShareChangeRate
        (secondsSince c e.gstate3.lastVpayStateUpdate c.now)
    else c.fp.zero
  let share := shrinkToZero c e.gstate2.totalProducerVotepayShare (c.fp.add passed additionalShares)
  (share, { e with
    gstate2 := { e.gstate2 with totalProducerVotepayShare := share }
    gstate3 := ⟨c.now, shrinkToZero c e.gstate3.totalVpayShareChangeRate sharesRate⟩ })

/-- The row `prod2` of `owner` with the share it has earned, or with none. -/
def updateProducerVotepayShare (e : Election D) (owner : Name) (prod2 : ProducerInfo2 D)
    (sharesRate : D) (reset : Bool) : D × Election D :=
  let earned :=
    if c.fp.lt c.fp.zero sharesRate ∧ prod2.lastVotepayShareUpdate < c.now then
      c.fp.mul sharesRate (secondsSince c prod2.lastVotepayShareUpdate c.now)
    else c.fp.zero
  let share := c.fp.add prod2.votepayShare earned
  (share, { e with
    producers2 := e.producers2.insert owner ⟨if reset then c.fp.zero else share, c.now⟩ })

/-- What a change of votes adds up for `updateTotalVotepayShare`. -/
structure Accrued (D : Type) where
  election : Election D
  changeRate : D
  inactiveShare : D

def Accrued.start (e : Election D) : Accrued D := ⟨e, c.fp.zero, c.fp.zero⟩

/-- A producer, whose row was `prod` before its votes changed by `delta`, accrues vote pay. -/
def Accrued.accrue (a : Accrued D) (owner : Name) (prod : ProducerInfo D) (delta : D) : Accrued D :=
  match a.election.producers2.lookup owner with
  | none => a
  | some prod2 =>
    let threshold := prod.lastClaimTime + 3 * USECONDS_PER_DAY
    let crossed := decide (threshold ≤ c.now)
    let updated := decide (threshold ≤ prod2.lastVotepayShareUpdate)
    let (share, election) := updateProducerVotepayShare c a.election owner prod2
      (if updated then c.fp.zero else prod.totalVotes) (crossed && !updated)
    if !crossed then { a with election, changeRate := c.fp.add a.changeRate delta }
    else if !updated then
      ⟨election, c.fp.sub a.changeRate prod.totalVotes, c.fp.add a.inactiveShare share⟩
    else { a with election }

/-- The votes of a producer are set to `votes`, which differ by `delta`. -/
def Accrued.revote (a : Accrued D) (owner : Name) (prod : ProducerInfo D) (votes delta : D) :
    Accrued D :=
  let e := a.election
  let gstate := { e.gstate with
    totalProducerVoteWeight := c.fp.add e.gstate.totalProducerVoteWeight delta }
  let election := { e with
    producers := e.producers.insert owner { prod with totalVotes := votes }
    gstate }
  Accrued.accrue c { a with election } owner prod delta

def Accrued.settle (a : Accrued D) : Election D :=
  (updateTotalVotepayShare c a.election (c.fp.neg a.inactiveShare) a.changeRate).2

/-! ## Propagation -/

/-- One turn of the loop over the producers of a voter whose weight changed. -/
def shiftVotes (delta : D) (a : Accrued D) (producer : Name) : Checked (Accrued D) := do
  let prod ← find a.election.producers producer "producer not found"
  pure (a.revote c producer prod (c.fp.add prod.totalVotes delta) delta)

/-- Passes a change of the weight of `owner`, whose row is `voter`, on to its votes. -/
def propagateWeightChange : Nat → Election D → Name → VoterInfo D → Checked (Election D)
  | 0, _, _, _ => .error ENDLESS
  | fuel + 1, e, owner, voter => do
    require (voter.proxy = NOBODY ∨ voter.isProxy = false)
      "account registered as a proxy is not allowed to use a proxy"
    let weight := voteWeight c voter
    let delta := c.fp.sub weight voter.lastVoteWeight
    let passed ← (
      if c.fp.lt (c.fp.ofInt 1) (c.fp.fabs delta) then
        if voter.proxy ≠ NOBODY then do
          let proxy ← find e.voters voter.proxy "proxy not found"
          let proxy := { proxy with proxiedVoteWeight := c.fp.add proxy.proxiedVoteWeight delta }
          propagateWeightChange fuel { e with voters := e.voters.insert voter.proxy proxy }
            voter.proxy proxy
        else do
          let shifted ← voter.producers.foldlM (shiftVotes c delta) (Accrued.start c e)
          pure (shifted.settle c)
      else pure e)
    pure { passed with
      voters := passed.voters.modify owner fun v => { v with lastVoteWeight := weight } }

/-- As many voters as a chain of proxies can have. -/
def Election.depth (e : Election D) : Nat := e.voters.keys.length

/-- The proxied weight of `proxy`, whose row is `row`, is set, and the change passed on. -/
def setProxied (e : Election D) (proxy : Name) (row : VoterInfo D) (weight : D) :
    Checked (Election D) :=
  let row := { row with proxiedVoteWeight := weight }
  propagateWeightChange c e.depth { e with voters := e.voters.insert proxy row } proxy row

/-! ## Ballots -/

/-- A change of votes, and whether the producer is among the new ones. -/
abbrev Deltas (D : Type) := List (Name × D × Bool)

/-- `d = deltas[producer]` changed by `f`, in the order of names. -/
def adjust (producer : Name) (f : D → D) (isNew : Bool) : Deltas D → Deltas D
  | [] => [(producer, f c.fp.zero, isNew)]
  | (name, d) :: rest =>
    if producer = name then (name, f d.1, isNew) :: rest
    else if producer.value < name.value then (producer, f c.fp.zero, isNew) :: (name, d) :: rest
    else (name, d) :: adjust producer f isNew rest

def sorted : List Name → Bool
  | a :: b :: rest => decide (a.value < b.value) && sorted (b :: rest)
  | _ => true

def checkBallot (voterName proxy : Name) (producers : List Name) : Checked Unit :=
  if proxy ≠ NOBODY then do
    require (producers.length = 0) "cannot vote for producers and proxy at same time"
    require (voterName ≠ proxy) "cannot proxy to self"
  else do
    require (producers.length ≤ 30) "attempt to vote for too many producers"
    require (sorted producers) "producer votes must be unique and sorted"

/-- The stake of a first vote counts as activated. -/
def activateStake (e : Election D) (voter : VoterInfo D) : Election D :=
  if c.fp.le voter.lastVoteWeight c.fp.zero then
    let stake := i64 (e.gstate.totalActivatedStake + voter.staked)
    let time :=
      if MIN_ACTIVATED_STAKE ≤ stake ∧ e.gstate.threshActivatedStakeTime = 0 then c.now
      else e.gstate.threshActivatedStakeTime
    { e with gstate :=
        { e.gstate with totalActivatedStake := stake, threshActivatedStakeTime := time } }
  else e

/-- The weight of the last vote is taken from the old proxy or the old producers. -/
def withdrawVote (e : Election D) (voter : VoterInfo D) : Checked (Election D × Deltas D) :=
  if c.fp.lt c.fp.zero voter.lastVoteWeight then
    if voter.proxy ≠ NOBODY then do
      let old ← find e.voters voter.proxy "old proxy not found"
      let e ← setProxied c e voter.proxy old (c.fp.sub old.proxiedVoteWeight voter.lastVoteWeight)
      pure (e, [])
    else
      let take d := c.fp.sub d voter.lastVoteWeight
      pure (e, voter.producers.foldl (fun deltas p => adjust c p take false deltas) [])
  else pure (e, [])

/-- The new weight is given to the new proxy or the new producers. -/
def castVote (e : Election D) (deltas : Deltas D) (weight : D) (proxy : Name)
    (producers : List Name)
    (voting : Bool) : Checked (Election D × Deltas D) :=
  let counts := c.fp.le c.fp.zero weight
  if proxy ≠ NOBODY then do
    let new ← find e.voters proxy "invalid proxy specified"
    require (voting = false ∨ new.isProxy = true) "proxy not found"
    let e ← (if counts then setProxied c e proxy new (c.fp.add new.proxiedVoteWeight weight)
      else pure e)
    pure (e, deltas)
  else
    let give d := c.fp.add d weight
    pure (e, if counts then producers.foldl (fun deltas p => adjust c p give true deltas) deltas
      else deltas)

/-- One turn of the loop over the producers whose votes change. -/
def applyDelta (voting : Bool) (a : Accrued D) (d : Name × D × Bool) : Checked (Accrued D) :=
  match a.election.producers.lookup d.1 with
  | some prod => do
    require (voting = false ∨ prod.isActive = true ∨ d.2.2 = false)
      "producer is not currently registered"
    let votes := c.fp.add prod.totalVotes d.2.1
    pure (a.revote c d.1 prod (if c.fp.lt votes c.fp.zero then c.fp.zero else votes) d.2.1)
  | none => do
    require (d.2.2 = false) "producer is not registered"
    pure a

def updateVotes (e : Election D) (voterName proxy : Name) (producers : List Name) (voting : Bool) :
    Checked (Election D) := do
  checkBallot voterName proxy producers
  let voter ← find e.voters voterName "user must stake before they can vote"
  require (proxy = NOBODY ∨ voter.isProxy = false)
    "account registered as a proxy is not allowed to use a proxy"
  let weight := voteWeight c voter
  let (withdrawn, deltas) ← withdrawVote c (activateStake c e voter) voter
  let (cast, deltas) ← castVote c withdrawn deltas weight proxy producers voting
  let accrued ← deltas.foldlM (applyDelta c voting) (Accrued.start c cast)
  let settled := accrued.settle c
  pure { settled with
    voters := settled.voters.modify voterName fun v =>
      { v with lastVoteWeight := weight, producers, proxy } }

/-! ## Actions -/

def voteproducer (s : State D) (voterName proxy : Name) (producers : List Name) :
    Checked (State D) := do
  c.requireAuth voterName
  let election ← updateVotes c s.toElection voterName proxy producers true
  pure { s with toElection := election }

def VoterInfo.default : VoterInfo D := ⟨NOBODY, [], 0, c.fp.zero, c.fp.zero, false⟩

def regproxy (s : State D) (proxy : Name) (isProxy : Bool) : Checked (State D) := do
  c.requireAuth proxy
  match s.voters.lookup proxy with
  | some voter => do
    require (isProxy ≠ voter.isProxy) "action has no effect"
    require (isProxy = false ∨ voter.proxy = NOBODY)
      "account that uses a proxy is not allowed to become a proxy"
    let voter := { voter with isProxy }
    let election ← propagateWeightChange c s.depth
      { s.toElection with voters := s.voters.insert proxy voter } proxy voter
    pure { s with toElection := election }
  | none => pure { s with voters := s.voters.insert proxy { VoterInfo.default c with isProxy } }

def regproducer (s : State D) (producer : Name) (key : PublicKey) (url : List UInt8)
    (location : Nat) :
    Checked (State D) := do
  require (url.length < 512) "url too long"
  require (key ≠ PublicKey.default) "public key should not be the default value"
  c.requireAuth producer
  match s.producers.lookup producer with
  | some prod => do
    let lastClaimTime := if prod.lastClaimTime = 0 then c.now else prod.lastClaimTime
    let e := { s.toElection with
      producers := s.producers.insert producer
        { prod with producerKey := key, isActive := true, url, location, lastClaimTime } }
    let election :=
      match s.producers2.lookup producer with
      | some _ => e
      | none => (updateTotalVotepayShare c
          { e with producers2 := s.producers2.insert producer ⟨c.fp.zero, c.now⟩ } c.fp.zero
          prod.totalVotes).2
    pure { s with toElection := election }
  | none => pure { s with
      producers := s.producers.insert producer ⟨c.fp.zero, key, true, url, 0, c.now, location⟩
      producers2 := s.producers2.insert producer ⟨c.fp.zero, c.now⟩ }

def unregprod (s : State D) (producer : Name) : Checked (State D) := do
  c.requireAuth producer
  let prod ← find s.producers producer "producer not found"
  pure { s with producers := s.producers.insert producer prod.deactivate }

def rmvproducer (s : State D) (producer : Name) : Checked (State D) := do
  c.requireAuth c.self
  let prod ← find s.producers producer "producer not found"
  pure { s with producers := s.producers.insert producer prod.deactivate }

end DecentralBank.System
