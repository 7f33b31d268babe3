import DecentralBank.Lib.Bytes
import DecentralBank.Token.Refinement

/-!
# Votes on articles

`epartvote` and `epartpropose` of `everipediaiq.cpp`. Each stakes IQ with an
inline `transfer` and goes on in the article contract. That contract is not in
this repository, so a parameter says what becomes of its state; what it sends
on its own account is a call like any other.
-/

namespace DecentralBank.Token.Everipediaiq

open Checked Runs

def ARTICLE_CONTRACT : Name := ⟨6146706200731988848⟩

def IQSYMBOL : Symbol := ⟨⟨20809⟩, 3⟩

def IQ_PRECISION_MULTIPLIER : Int := 1000

def EDIT_PROPOSE_IQ : UInt64 := 50

/-- What `epartvote` is given, and `vote` after it. -/
structure ArticleVote where
  voter : Name
  proposalId : UInt64
  approve : Bool
  amount : UInt64
  comment : List UInt8
  memo : List UInt8

/-- What `epartpropose` is given, and `propose2` after it. -/
structure ArticleProposal where
  proposer : Name
  wikiId : Int64
  slug : List UInt8
  ipfsHash : List UInt8
  langCode : List UInt8
  groupId : Int64
  comment : List UInt8
  memo : List UInt8

/-- What the actions of the article contract make of its state. -/
structure ArticleContract (A : Type) where
  vote : A → ArticleVote → Checked A
  propose2 : A → ArticleProposal → Checked A

/-- The token's tables, and the state of the article contract. -/
structure Wiki (A : Type) where
  token : State
  articles : A

/-- An action sent along, run when the one that sent it is done. -/
inductive Inline
  | transfer (source target : Name) (quantity : Asset) (memo : List UInt8)
  | vote (vote : ArticleVote)
  | propose2 (proposal : ArticleProposal)

/-- The product is one of unsigned words. -/
def iqAsset (whole : UInt64) : Checked Asset :=
  Asset.make (i64 (u64 (whole.toNat * IQ_PRECISION_MULTIPLIER))) IQSYMBOL

def epartpropose (c : Ctx) (p : ArticleProposal) : Checked (List Inline) := do
  c.requireAuth p.proposer
  let iqAssetPack ← iqAsset EDIT_PROPOSE_IQ
  pure [.transfer p.proposer ARTICLE_CONTRACT iqAssetPack "stake for vote".toUTF8.toList,
    .propose2 p]

def epartvote (c : Ctx) (v : ArticleVote) : Checked (List Inline) := do
  c.requireAuth v.voter
  Checked.require (0 < v.amount) "must transfer a positive amount"
  let iqAssetPack ← iqAsset v.amount
  pure [.transfer v.voter ARTICLE_CONTRACT iqAssetPack "stake for vote".toUTF8.toList, .vote v]

inductive ArticleAction
  | token (action : Action)
  | epartvote (vote : ArticleVote)
  | epartpropose (proposal : ArticleProposal)

section

variable {A : Type} (articles : ArticleContract A)

/-- An inline transfer has the authority of the account it takes from. -/
def Inline.apply (c : Ctx) (w : Wiki A) : Inline → Checked (Wiki A)
  | .transfer source target quantity memo => do
    let token ← Token.transfer contract { c with auth := [source] } w.token source
      target quantity memo
    pure { w with token }
  | .vote v => do
    let articles ← articles.vote w.articles v
    pure { w with articles }
  | .propose2 p => do
    let articles ← articles.propose2 w.articles p
    pure { w with articles }

/-- An inline action that fails takes the action that sent it back. -/
def ArticleAction.apply (c : Ctx) (w : Wiki A) : ArticleAction → Checked (Wiki A)
  | .token action => do
    let token ← Everipediaiq.apply c w.token action
    pure { w with token }
  | .epartvote v => do
    let sent ← Everipediaiq.epartvote c v
    sent.foldlM (Inline.apply articles c) w
  | .epartpropose p => do
    let sent ← Everipediaiq.epartpropose c p
    sent.foldlM (Inline.apply articles c) w

/-- The outcome of a call on the state it finds. -/
def outcome (self : Name) (w : Wiki A) (call : Call ArticleAction) : Checked (Wiki A) :=
  call.action.apply articles ⟨self, call.auth, call.isAccount⟩ w

/-- A call that fails changes nothing. -/
def Wiki.step (self : Name) (w : Wiki A) (call : Call ArticleAction) : Wiki A :=
  match outcome articles self w call with
  | .ok w' => w'
  | .error _ => w

/-- The state before any call. -/
def Wiki.launched (start : A) : Wiki A := ⟨State.empty, start⟩

/-! ## What a vote stakes -/

/-- The vote moves as many whole IQ as it weighs, to the article contract and in an amount that an
asset can have. -/
structure Staked (w w' : Wiki A) (v : ArticleVote) : Prop where
  valid : v.amount.toNat * IQ_PRECISION_MULTIPLIER ≤ Asset.maxAmount
  moved : ∀ account code,
    balanceOf w'.token.accounts account code = balanceOf w.token.accounts account code +
      (if account = v.voter ∧ code = IQSYMBOL.code then
        -(v.amount.toNat * IQ_PRECISION_MULTIPLIER) else 0) +
      if account = ARTICLE_CONTRACT ∧ code = IQSYMBOL.code then
        v.amount.toNat * IQ_PRECISION_MULTIPLIER else 0
  weighed : articles.vote w.articles v = .ok w'.articles

/-- The weight that a call announces for the voter. -/
def announced (self voter : Name) (w : Wiki A) (call : Call ArticleAction) : Int :=
  match call.action with
  | .epartvote v =>
    if v.voter = voter ∧ (outcome articles self w call).isOk = true then v.amount.toNat else 0
  | _ => 0

/-- The units of IQ that a vote takes from the voter. -/
def paid (self voter : Name) (w : Wiki A) (call : Call ArticleAction) : Int :=
  match call.action with
  | .epartvote v =>
    if v.voter = voter then balanceOf w.token.accounts voter IQSYMBOL.code -
      balanceOf (w.step articles self call).token.accounts voter IQSYMBOL.code
    else 0
  | _ => 0

/-- Where the call is a vote of the voter that goes through, the product fits its word. -/
def Fits (self voter : Name) (w : Wiki A) (call : Call ArticleAction) : Prop :=
  match call.action with
  | .epartvote v => v.voter = voter → (outcome articles self w call).isOk = true →
      v.amount.toNat * IQ_PRECISION_MULTIPLIER < 2 ^ 64
  | _ => True

variable {articles} {c : Ctx} {w w' : Wiki A} {v : ArticleVote}

theorem iq_valid {amount : Int} (positive : 0 < amount) (range : amount ≤ Asset.maxAmount) :
    (Asset.mk amount IQSYMBOL).isValid = true := by
  have symbol : IQSYMBOL.isValid = true := by decide
  have low := Asset.maxAmount_nonneg
  simp only [Asset.isValid, Asset.isAmountWithinRange, Bool.and_eq_true, decide_eq_true_eq, symbol,
    and_true]
  omega

theorem iqAsset_eq_ok {whole : UInt64} {quantity : Asset} : iqAsset whole = .ok quantity ↔
    -Asset.maxAmount ≤ i64 (whole.toNat * 1000) ∧ i64 (whole.toNat * 1000) ≤ Asset.maxAmount ∧
      ⟨i64 (whole.toNat * 1000), IQSYMBOL⟩ = quantity := by
  have symbol : IQSYMBOL.isValid = true := by decide
  simp only [iqAsset, IQ_PRECISION_MULTIPLIER, i64_u64, Asset.make_eq_ok, symbol,
    true_and, and_assoc]

/-- A vote that goes through transfers the word that its product is. -/
theorem vote_eq_ok : (ArticleAction.epartvote v).apply articles c w = .ok w' ↔
    v.voter ∈ c.auth ∧ 0 < v.amount ∧ -Asset.maxAmount ≤ i64 (v.amount.toNat * 1000) ∧
      i64 (v.amount.toNat * 1000) ≤ Asset.maxAmount ∧
      Token.transfer contract { c with auth := [v.voter] } w.token v.voter ARTICLE_CONTRACT
        ⟨i64 (v.amount.toNat * 1000), IQSYMBOL⟩ "stake for vote".toUTF8.toList = .ok w'.token ∧
      articles.vote w.articles v = .ok w'.articles := by
  simp only [ArticleAction.apply, epartvote, bind_eq_ok, Ctx.requireAuth_eq_ok, require_eq_ok,
    iqAsset_eq_ok, pure_eq_ok, exists_const]
  constructor
  · rintro ⟨_, ⟨signed, weight, _, ⟨lo, hi, rfl⟩, rfl⟩, sent⟩
    simp only [List.foldlM_cons, List.foldlM_nil, Inline.apply, bind_eq_ok, pure_eq_ok] at sent
    obtain ⟨_, ⟨token, staked, rfl⟩, _, ⟨voted, weighed, rfl⟩, rfl⟩ := sent
    exact ⟨signed, weight, lo, hi, staked, weighed⟩
  · rintro ⟨signed, weight, lo, hi, staked, weighed⟩
    refine ⟨_, ⟨signed, weight, _, ⟨lo, hi, rfl⟩, rfl⟩, ?_⟩
    simp only [List.foldlM_cons, List.foldlM_nil, Inline.apply, bind_eq_ok, pure_eq_ok]
    exact ⟨_, ⟨w'.token, staked, rfl⟩, _, ⟨w'.articles, weighed, rfl⟩, rfl⟩

/-- What such a vote stakes is an amount that can be moved. -/
theorem vote_ok (h : (ArticleAction.epartvote v).apply articles c w = .ok w') :
    0 < i64 (v.amount.toNat * 1000) ∧ i64 (v.amount.toNat * 1000) ≤ Asset.maxAmount ∧
      v.voter ≠ ARTICLE_CONTRACT ∧
      Token.transfer contract { c with auth := [v.voter] } w.token v.voter ARTICLE_CONTRACT
        ⟨i64 (v.amount.toNat * 1000), IQSYMBOL⟩ "stake for vote".toUTF8.toList = .ok w'.token ∧
      articles.vote w.articles v = .ok w'.articles := by
  obtain ⟨-, -, -, range, sent, weighed⟩ := vote_eq_ok.mp h
  obtain ⟨-, -, -, apart, positive, -⟩ := transfer_ok sent
  exact ⟨positive, range, apart, sent, weighed⟩

/-- The word that a product is, where it is an amount that can be moved. -/
theorem i64_product {amount : UInt64} (positive : 0 < i64 (amount.toNat * 1000))
    (range : i64 (amount.toNat * 1000) ≤ Asset.maxAmount) :
    i64 (amount.toNat * 1000) ≤ amount.toNat * 1000 ∧
      (i64 (amount.toNat * 1000) = amount.toNat * 1000 ↔ (amount.toNat * 1000 : Int) < 2 ^ 64) := by
  obtain ⟨k, word⟩ := i64_eq_sub (amount.toNat * 1000)
  rw [word] at positive range ⊢
  simp only [Asset.maxAmount] at range
  omega

/-- A vote that goes through stakes what it weighs when its product fits its word. -/
theorem staked_iff (h : (ArticleAction.epartvote v).apply articles c w = .ok w') :
    Staked articles w w' v ↔ v.amount.toNat * IQ_PRECISION_MULTIPLIER < 2 ^ 64 := by
  obtain ⟨positive, range, apart, sent, weighed⟩ := vote_ok h
  obtain ⟨-, exact⟩ := i64_product positive range
  have paid := balanceOf_transfer sent
  constructor
  · rintro ⟨-, moved, -⟩
    have here := (paid v.voter IQSYMBOL.code).symm.trans (moved v.voter IQSYMBOL.code)
    simp only [apart, IQ_PRECISION_MULTIPLIER, and_true, if_true, if_false] at here
    exact exact.mp (by omega)
  · intro small
    rw [exact.mpr small] at range paid
    exact ⟨range, paid, weighed⟩

/-! ## The totals of a run -/

variable {self voter : Name} {call : Call ArticleAction}

theorem step_ok (h : outcome articles self w call = .ok w') : w.step articles self call = w' := by
  simp only [Wiki.step, h]

theorem step_error {message : String} (h : outcome articles self w call = .error message) :
    w.step articles self call = w := by
  simp only [Wiki.step, h]

theorem outcome_vote (act : call.action = .epartvote v)
    (h : outcome articles self w call = .ok w') :
    (ArticleAction.epartvote v).apply articles ⟨self, call.auth, call.isAccount⟩ w = .ok w' := by
  rw [← act]
  exact h

theorem outcome_step (h : (outcome articles self w call).isOk = true) :
    outcome articles self w call = .ok (w.step articles self call) := by
  unfold Wiki.step
  cases done : outcome articles self w call with
  | ok w' => rfl
  | error message =>
    rw [done] at h
    cases h

theorem step_token {auth : List Name} {isAccount : Name → Bool} {action : Action} {s token : State}
    {a : A} (h : Everipediaiq.apply ⟨self, auth, isAccount⟩ s action = .ok token) :
    Wiki.step articles self ⟨s, a⟩ ⟨auth, isAccount, .token action⟩ = ⟨token, a⟩ := by
  refine step_ok ?_
  simp only [outcome, ArticleAction.apply, bind_eq_ok, pure_eq_ok]
  exact ⟨token, h, rfl⟩

/-- A vote takes the word of its product from the voter, which is no more than it weighs. -/
theorem paid_le :
    paid articles self voter w call ≤
      IQ_PRECISION_MULTIPLIER * announced articles self voter w call ∧
      (paid articles self voter w call =
        IQ_PRECISION_MULTIPLIER * announced articles self voter w call
        ↔ Fits articles self voter w call) := by
  unfold paid announced Fits
  cases act : call.action with
  | token action => simp
  | epartpropose proposal => simp
  | epartvote v =>
    by_cases own : v.voter = voter
    · cases done : outcome articles self w call with
      | error message =>
        simp [own, step_error done, Except.isOk, Except.toBool]
      | ok w' =>
        obtain ⟨positive, range, apart, sent, -⟩ := vote_ok (outcome_vote act done)
        obtain ⟨below, exact⟩ := i64_product positive range
        have moved := balanceOf_transfer sent voter IQSYMBOL.code
        rw [own] at apart
        simp only [own, apart, and_true, if_true, if_false] at moved
        simp only [own, step_ok done, Except.isOk, Except.toBool, and_self, if_true,
          IQ_PRECISION_MULTIPLIER, true_implies]
        omega
    · simp [own]

/-- A run announces no more weight than the whole IQ it takes when every product fits. -/
theorem announced_le_iff (calls : List (Call ArticleAction)) :
    IQ_PRECISION_MULTIPLIER *
      tally (Wiki.step articles self) (announced articles self voter) w calls ≤
        tally (Wiki.step articles self) (paid articles self voter) w calls ↔
      Along (Wiki.step articles self) (Fits articles self voter) w calls := by
  let gap := fun w call => IQ_PRECISION_MULTIPLIER * announced articles self voter w call -
    paid articles self voter w call
  have nonneg : ∀ w call, 0 ≤ gap w call := fun w call => sub_nonneg.mpr paid_le.1
  have even : tally (Wiki.step articles self) gap w calls = 0 ↔
      Along (Wiki.step articles self) (fun w call => gap w call = 0) w calls :=
    tally_eq_zero_iff nonneg w calls
  have total : 0 ≤ tally (Wiki.step articles self) gap w calls := tally_nonneg nonneg w calls
  have every : Along (Wiki.step articles self) (Fits articles self voter) w calls ↔
      Along (Wiki.step articles self) (fun w call => gap w call = 0) w calls := by
    constructor
    · exact along_mono fun w call fits => sub_eq_zero.mpr (paid_le.2.mpr fits).symm
    · exact along_mono fun w call even => paid_le.2.mp (sub_eq_zero.mp even).symm
  rw [every, ← even]
  rw [tally_sub, tally_mul] at total ⊢
  omega

/-! ## The supply -/

theorem inline_conserved (hs : Conserved w.token) {sent : Inline}
    (h : sent.apply articles c w = .ok w') : Conserved w'.token := by
  cases sent with
  | transfer source target quantity memo =>
    simp only [Inline.apply, bind_eq_ok, pure_eq_ok] at h
    obtain ⟨token, sent, rfl⟩ := h
    exact hs.transfer sent
  | vote v =>
    simp only [Inline.apply, bind_eq_ok, pure_eq_ok] at h
    obtain ⟨_, -, rfl⟩ := h
    exact hs
  | propose2 p =>
    simp only [Inline.apply, bind_eq_ok, pure_eq_ok] at h
    obtain ⟨_, -, rfl⟩ := h
    exact hs

theorem article_conserved (hs : Conserved w.token) {action : ArticleAction}
    (h : action.apply articles c w = .ok w') : Conserved w'.token := by
  have each : ∀ {sent : List Inline}, sent.foldlM (Inline.apply articles c) w = .ok w' →
      Conserved w'.token := fun sent =>
    foldlM_keeps (I := fun w => Conserved w.token)
      (fun _ _ _ _ done hs => inline_conserved hs done) sent hs
  cases action with
  | token action =>
    simp only [ArticleAction.apply, bind_eq_ok, pure_eq_ok] at h
    obtain ⟨token, done, rfl⟩ := h
    exact hs.everipediaiq done
  | epartvote v =>
    simp only [ArticleAction.apply, bind_eq_ok] at h
    obtain ⟨_, -, sent⟩ := h
    exact each sent
  | epartpropose p =>
    simp only [ArticleAction.apply, bind_eq_ok] at h
    obtain ⟨_, -, sent⟩ := h
    exact each sent

/-- Votes and proposals leave every supply the sum of its balances. -/
theorem articles_conserved (start : A) (calls : List (Call ArticleAction)) :
    Conserved (run (Wiki.step articles self) (.launched start) calls).token := by
  refine run_invariant (I := fun w : Wiki A => Conserved w.token) (fun w call hs _ => ?_)
    Conserved.empty
    (along_true _ calls)
  cases done : outcome articles self w call with
  | ok w' =>
    rw [step_ok done]
    exact article_conserved hs done
  | error message =>
    rw [step_error done]
    exact hs

end

/-! ## Every amount -/

/-- Every vote of the amount that goes through stakes it, whoever casts it after whatever calls. -/
def StakedInFull (amount : UInt64) : Prop :=
  ∀ (A : Type) (articles : ArticleContract A) (self : Name) (start : A)
    (calls : List (Call ArticleAction)) (call : Call ArticleAction) (v : ArticleVote) (w' : Wiki A),
    let w := run (Wiki.step articles self) (Wiki.launched start) calls
    call.action = .epartvote v → v.amount = amount → outcome articles self w call = .ok w' →
      Staked articles w w' v

/-- The product fits its word, or wraps to what cannot be moved. -/
def Whole (amount : UInt64) : Prop :=
  let product : Int := amount.toNat * IQ_PRECISION_MULTIPLIER
  product < 2 ^ 64 ∨ product % 2 ^ 64 = 0 ∨ 2 ^ 62 ≤ product % 2 ^ 64

section Sample

def everipediaiq : Name := ⟨6257038465489280352⟩
def nick : Name := ⟨11209740947501875200⟩

/-- An article contract that takes every vote and proposal, and writes down the votes. -/
def taking : ArticleContract (List ArticleVote) where
  vote votes v := .ok (v :: votes)
  propose2 votes _ := .ok votes

/-- The token is created, and so much of it issued to nick. -/
def issuing (amount : Int) : List (Call ArticleAction) :=
  [⟨[everipediaiq], fun _ => true, .token (.ledger (.create nick ⟨Asset.maxAmount, IQSYMBOL⟩))⟩,
    ⟨[nick], fun _ => true, .token (.ledger (.issue nick ⟨amount, IQSYMBOL⟩ []))⟩]

def nickVotes (amount : UInt64) : Call ArticleAction :=
  ⟨[nick], fun _ => true, .epartvote ⟨nick, 1, true, amount, [], []⟩⟩

end Sample

/-- Nick can come to have any amount of IQ. -/
theorem issuing_funds {amount : Int} (positive : 0 < amount) (range : amount ≤ Asset.maxAmount) :
    ∃ token, Conserved token ∧
      run (Wiki.step taking everipediaiq) (.launched []) (issuing amount) = ⟨token, []⟩ ∧
      token.books.stats IQSYMBOL.code =
        some ⟨⟨amount, IQSYMBOL⟩, ⟨Asset.maxAmount, IQSYMBOL⟩, nick⟩ ∧
      token.books.balance nick IQSYMBOL.code = amount := by
  obtain ⟨admitted, effect⟩ := ledger_refines (k := contract) (c := ⟨everipediaiq, [everipediaiq],
    fun _ => true⟩) Conserved.empty (.create nick ⟨Asset.maxAmount, IQSYMBOL⟩)
  obtain ⟨s, created⟩ := admitted.mpr ⟨by simp, by decide, by decide, rfl⟩
  have opened := effect s created
  have conserved : Conserved s := Conserved.empty.ledger created
  obtain ⟨admitted, effect⟩ := ledger_refines (k := contract) (c := ⟨everipediaiq, [nick],
    fun _ => true⟩) conserved (.issue nick ⟨amount, IQSYMBOL⟩ [])
  have listed : s.books.stats IQSYMBOL.code =
      some ⟨⟨0, IQSYMBOL⟩, ⟨Asset.maxAmount, IQSYMBOL⟩, nick⟩ := by
    rw [opened]
    simp only [Action.effect, Books.file, Function.update_self]
  have nothing : s.books.balance nick IQSYMBOL.code = 0 := by
    rw [opened]
    rfl
  obtain ⟨token, issued⟩ :=
    admitted.mpr ⟨_, listed, ⟨iq_valid positive range, positive, rfl, Nat.zero_le _⟩, by simp,
      by simpa using range, Or.inl rfl⟩
  refine ⟨token, conserved.ledger issued, ?_, ?_, ?_⟩
  · have first : Everipediaiq.apply ⟨everipediaiq, [everipediaiq], fun _ => true⟩ State.empty
        (.ledger (.create nick ⟨Asset.maxAmount, IQSYMBOL⟩)) = .ok s := created
    have second : Everipediaiq.apply ⟨everipediaiq, [nick], fun _ => true⟩ s
        (.ledger (.issue nick ⟨amount, IQSYMBOL⟩ [])) = .ok token := issued
    simp only [issuing, run_cons, run_nil, Wiki.launched, step_token first, step_token second]
  · rw [effect token issued]
    simp only [Action.effect, listed, Books.deposit, Books.file, Function.update_self,
      CurrencyStats.issued, zero_add]
  · rw [effect token issued]
    simp only [Action.effect, listed, Books.deposit, Books.file]
    simp only [nothing, and_self, if_true, zero_add]

/-- A product that is past its word, and wraps to an amount that can be moved, buys a vote. -/
theorem unstaked {amount : UInt64} (h : ¬ Whole amount) : ∃ w', outcome taking everipediaiq
    (run (Wiki.step taking everipediaiq) (.launched []) (issuing (i64 (amount.toNat * 1000))))
      (nickVotes amount) = .ok w' := by
  simp only [Whole, IQ_PRECISION_MULTIPLIER, not_or, not_lt, not_le] at h
  obtain ⟨large, nonzero, low⟩ := h
  have nonneg := Int.emod_nonneg (amount.toNat * 1000) (show (2 : Int) ^ 64 ≠ 0 by norm_num)
  have word := i64_of_emod_lt (x := amount.toNat * 1000) (by omega)
  have positive : 0 < i64 (amount.toNat * 1000) := by omega
  have small : i64 (amount.toNat * 1000) ≤ Asset.maxAmount := by
    rw [word]
    exact Int.le_sub_one_of_lt low
  obtain ⟨token, conserved, issued, listed, balance⟩ := issuing_funds positive small
  have short : "stake for vote".toUTF8.toList.length ≤ 256 := by
    rw [length_toUTF8]
    decide
  obtain ⟨token', sent⟩ : ∃ token', Token.transfer contract ⟨everipediaiq, [nick], fun _ => true⟩
      token nick ARTICLE_CONTRACT ⟨i64 (amount.toNat * 1000), IQSYMBOL⟩
        "stake for vote".toUTF8.toList = .ok token' := by
    refine (transfer_refines conserved).admitted.mpr ⟨_, listed, ⟨?_, positive, rfl, short⟩,
      List.mem_singleton_self nick, rfl, by decide, balance.ge⟩
    exact iq_valid positive small
  have cast : 0 < amount := by
    rw [UInt64.lt_iff_toNat_lt]
    simp only [UInt64.toNat_zero]
    omega
  have floor : -Asset.maxAmount ≤ i64 (amount.toNat * 1000) := by
    have top := Asset.maxAmount_nonneg
    omega
  rw [issued]
  exact ⟨⟨token', [⟨nick, 1, true, amount, [], []⟩]⟩,
    vote_eq_ok.mpr ⟨List.mem_singleton_self nick, cast, floor, small, sent, rfl⟩⟩

/-- An amount is staked in full, in every vote that goes through, when its product fits its word or
wraps to what cannot be moved. A run announces no more weight for a voter than the whole IQ their
votes take when the product of each that goes through fits. -/
theorem votes_staked_iff (amount : UInt64) {A : Type} (articles : ArticleContract A)
    (self voter : Name) (w : Wiki A) (calls : List (Call ArticleAction)) :
    (StakedInFull amount ↔ Whole amount) ∧
      (IQ_PRECISION_MULTIPLIER *
          tally (Wiki.step articles self) (announced articles self voter) w calls ≤
        tally (Wiki.step articles self) (paid articles self voter) w calls ↔
      Along (Wiki.step articles self) (Fits articles self voter) w calls) := by
  refine ⟨⟨fun staked => ?_, fun whole => ?_⟩, announced_le_iff calls⟩
  · by_contra wraps
    obtain ⟨w', done⟩ := unstaked wraps
    have small := (staked_iff done).mp (staked _ _ _ _ _ (nickVotes amount) _ _ rfl rfl done)
    exact wraps (Or.inl small)
  · intro A articles self start calls call v w' w act same done
    subst same
    have through := outcome_vote act done
    obtain ⟨positive, range, -⟩ := vote_ok through
    refine (staked_iff through).mpr ?_
    simp only [Whole, IQ_PRECISION_MULTIPLIER] at whole ⊢
    simp only [Asset.maxAmount] at range
    have wraps := i64_emod (v.amount.toNat * 1000)
    rw [Int.emod_eq_of_lt positive.le (by omega)] at wraps
    omega

/-- A weight of 18446744073709552 is had for 0.384 IQ: its product is 384 past the end of the
word. -/
theorem vote_understaked :
    let w := run (Wiki.step taking everipediaiq) (.launched []) (issuing 384)
    let w' := w.step taking everipediaiq (nickVotes 18446744073709552)
    outcome taking everipediaiq w (nickVotes 18446744073709552) = .ok w' ∧
      w'.articles.map ArticleVote.amount = [18446744073709552] ∧
      balanceOf w.token.accounts nick IQSYMBOL.code = 384 ∧
      balanceOf w'.token.accounts nick IQSYMBOL.code = 0 ∧
      ¬ Staked taking w w' ⟨nick, 1, true, 18446744073709552, [], []⟩ := by
  refine ⟨outcome_step (by decide +kernel), by decide +kernel, by decide +kernel, by decide +kernel,
    ?_⟩
  rintro ⟨valid, -, -⟩
  exact absurd valid (by decide +kernel)

end DecentralBank.Token.Everipediaiq
