import DecentralBank.Token.Conservation

/-!
# What a token ledger is for

A ledger keeps the books of its tokens: their supply, maximum and issuer, and
what every account has, which is zero unless the account was paid. Whether a
row that is emptied is erased or kept, the ledger keeps the same books and
admits the same actions.
-/

namespace DecentralBank.Token

open Checked Runs

structure Books where
  stats : SymbolCode → Option CurrencyStats
  balance : Name → SymbolCode → Int

namespace Books

def empty : Books := ⟨fun _ => none, fun _ _ => 0⟩

def deposit (b : Books) (owner : Name) (value : Asset) : Books :=
  { b with balance := fun account code =>
      b.balance account code +
        if account = owner ∧ code = value.symbol.code then value.amount else 0 }

def file (b : Books) (code : SymbolCode) (st : CurrencyStats) : Books :=
  { b with stats := Function.update b.stats code (some st) }

end Books

/-- An amount of the token that can be moved, with a memo that can be sent. -/
structure Proper (st : CurrencyStats) (quantity : Asset) (memo : List UInt8) : Prop where
  valid : quantity.isValid = true
  positive : 0 < quantity.amount
  same : quantity.symbol = st.supply.symbol
  short : memo.length ≤ 256

def CurrencyStats.issued (st : CurrencyStats) (quantity : Asset) : CurrencyStats :=
  { st with supply := ⟨st.supply.amount + quantity.amount, st.supply.symbol⟩ }

/-- When the books admit an action. -/
def Action.Admitted (c : Ctx) (b : Books) : Action → Prop
  | .create _ maximumSupply => c.self ∈ c.auth ∧ maximumSupply.isValid = true ∧
      0 < maximumSupply.amount ∧ b.stats maximumSupply.symbol.code = none
  | .issue target quantity memo => ∃ st, b.stats quantity.symbol.code = some st ∧
      Proper st quantity memo ∧ st.issuer ∈ c.auth ∧
      st.supply.amount + quantity.amount ≤ st.maxSupply.amount ∧
      (target = st.issuer ∨ c.isAccount target = true)
  | .transfer source target quantity memo => ∃ st, b.stats quantity.symbol.code = some st ∧
      Proper st quantity memo ∧ source ∈ c.auth ∧ c.isAccount target = true ∧ source ≠ target ∧
      quantity.amount ≤ b.balance source quantity.symbol.code

/-- What an action that is admitted does to the books. -/
def Action.effect (b : Books) : Action → Books
  | .create issuer maximumSupply =>
      b.file maximumSupply.symbol.code ⟨⟨0, maximumSupply.symbol⟩, maximumSupply, issuer⟩
  | .issue target quantity _ =>
      match b.stats quantity.symbol.code with
      | none => b
      | some st => (b.file quantity.symbol.code (st.issued quantity)).deposit target quantity
  | .transfer source target quantity _ => (b.deposit source quantity.neg).deposit target quantity

open Classical in
/-- The books after a call. -/
noncomputable def Books.step (self : Name) (b : Books) (call : Call Action) : Books :=
  if call.action.Admitted ⟨self, call.auth, call.isAccount⟩ b then call.action.effect b else b

noncomputable def Books.after (self : Name) (calls : List (Call Action)) : Books :=
  run (Books.step self) Books.empty calls

/-- The books a ledger keeps, in which a missing row reads as zero. -/
def State.books (s : State) : Books := ⟨s.stats.lookup, balanceOf s.accounts⟩

/-! ## Balances -/

variable {a b : Accounts} {owner account : Name} {code : SymbolCode} {value : Asset}
  {emptied : Emptied}

theorem balanceOf_add (h : addBalance a owner value = .ok b) :
    balanceOf b account code = balanceOf a account code +
      if account = owner ∧ code = value.symbol.code then value.amount else 0 := by
  rw [addBalance_ok h, balanceOf, Ledger.held_insert]
  by_cases here : account = owner ∧ code = value.symbol.code
  · obtain ⟨rfl, rfl⟩ := here
    rw [if_pos rfl, if_pos ⟨rfl, rfl⟩]
  · rw [if_neg (fun key => here (Prod.mk.inj key)), if_neg here, add_zero]

theorem balanceOf_sub (h : subBalance emptied a owner value = .ok b) :
    balanceOf b account code = balanceOf a account code +
      if account = owner ∧ code = value.symbol.code then -value.amount else 0 := by
  obtain ⟨balance, found, -, rest⟩ := subBalance_ok h
  by_cases here : account = owner ∧ code = value.symbol.code
  · obtain ⟨rfl, rfl⟩ := here
    have held : balanceOf a account value.symbol.code = balance.amount := Ledger.held_some found
    rw [if_pos ⟨rfl, rfl⟩, held]
    rcases rest with ⟨-, all, rfl⟩ | ⟨-, rfl⟩
    · rw [balanceOf, Ledger.held_erase, if_pos rfl, all]
      omega
    · rw [balanceOf, Ledger.held_insert, if_pos rfl]
      simp only
      omega
  · have other : (account, code) ≠ (owner, value.symbol.code) := fun key => here (Prod.mk.inj key)
    rw [if_neg here, add_zero]
    rcases rest with ⟨-, -, rfl⟩ | ⟨-, rfl⟩
    · rw [balanceOf, Ledger.held_erase, if_neg other]
    · rw [balanceOf, Ledger.held_insert, if_neg other]

section Rows

variable {stats : Table SymbolCode CurrencyStats} {st : CurrencyStats}

/-- A row in the way of a deposit is in the symbol deposited. -/
theorem addBalance_succeeds (hr : Rows stats a) (token : stats.lookup value.symbol.code = some st)
    (same : value.symbol = st.supply.symbol) (positive : 0 ≤ value.amount)
    (fits : balanceOf a owner value.symbol.code + value.amount ≤ Asset.maxAmount) :
    ∃ b, addBalance a owner value = .ok b := by
  unfold addBalance
  cases found : a.lookup (owner, value.symbol.code) with
  | none => exact ⟨_, rfl⟩
  | some balance =>
    obtain ⟨nonneg, st', token', symbol⟩ := hr _ _ found
    cases token.symm.trans token'
    rw [balanceOf, Ledger.held_some found] at fits
    have above : -Asset.maxAmount ≤ balance.amount + value.amount := by
      have := Asset.maxAmount_nonneg
      omega
    have sum : balance.add value = .ok ⟨balance.amount + value.amount, balance.symbol⟩ :=
      Asset.add_eq_ok.mpr ⟨same.trans symbol.symm, above, fits, rfl⟩
    exact ⟨_, by simp only [sum]; rfl⟩

/-- What can be paid is in a row, whether empty rows are erased or kept. -/
theorem subBalance_succeeds (hr : Rows stats a) (token : stats.lookup value.symbol.code = some st)
    (same : value.symbol = st.supply.symbol) (positive : 0 < value.amount)
    (covered : value.amount ≤ balanceOf a owner value.symbol.code)
    (fits : balanceOf a owner value.symbol.code ≤ Asset.maxAmount) :
    ∃ b, subBalance emptied a owner value = .ok b := by
  cases found : a.lookup (owner, value.symbol.code) with
  | none =>
    rw [balanceOf, Ledger.held_none found] at covered
    omega
  | some balance =>
    obtain ⟨-, st', token', symbol⟩ := hr _ _ found
    cases token.symm.trans token'
    rw [balanceOf, Ledger.held_some found] at covered fits
    have rest : balance.sub value = .ok ⟨balance.amount - value.amount, balance.symbol⟩ := by
      have := Asset.maxAmount_nonneg
      exact Asset.sub_eq_ok.mpr ⟨same.trans symbol.symm, by omega, by omega, rfl⟩
    simp only [subBalance, bind_eq_ok, find_eq_ok, require_eq_ok, ite_eq_ok,
      pure_eq_ok, exists_const]
    by_cases all : emptied = .erased ∧ balance.amount = value.amount
    · exact ⟨_, balance, found, covered, Or.inl ⟨all, rfl⟩⟩
    · exact ⟨_, balance, found, covered, Or.inr ⟨all, _, rest, rfl⟩⟩

end Rows

/-! ## Each action does to the ledger what it does to the books -/

variable {k : Contract} {c : Ctx} {s s' : State} {issuer source target : Name}
  {maximumSupply quantity : Asset} {memo : List UInt8}

/-- The action goes through when the books admit it, and leaves the books it should. -/
structure Refines (c : Ctx) (s : State) (action : Action) (outcome : Checked State) : Prop where
  admitted : (∃ s', outcome = .ok s') ↔ action.Admitted c s.books
  effect : ∀ s', outcome = .ok s' → s'.books = action.effect s.books

theorem create_refines :
    Refines c s (.create issuer maximumSupply) (create k c s issuer maximumSupply) where
  admitted := by
    simp only [create, Ctx.requireAuth_eq_ok, bind_eq_ok, require_eq_ok, pure_eq_ok, exists_const,
      Option.isNone_iff_eq_none, Action.Admitted, State.books]
    constructor
    · rintro ⟨-, own, -, valid, positive, fresh, -⟩
      exact ⟨own, valid, positive, fresh⟩
    · rintro ⟨own, valid, positive, fresh⟩
      have symbol : maximumSupply.symbol.isValid = true := by
        simp only [Asset.isValid, Bool.and_eq_true] at valid
        exact valid.2
      exact ⟨_, own, symbol, valid, positive, fresh, rfl⟩
  effect s' h := by
    obtain ⟨-, -, -, rfl⟩ := create_ok h
    simp only [State.books, Action.effect, Books.file, Books.mk.injEq, and_true]
    funext code
    rw [Table.lookup_insert, Function.update_apply]

/-- A balance of a token that exists is within its supply, so within range. -/
theorem Conserved.inRange (hs : Conserved s) {st : CurrencyStats}
    (token : s.stats.lookup code = some st) :
    balanceOf s.accounts account code ≤ st.supply.amount := by
  rw [← hs.sums _ _ token]
  exact hs.rows.held_le account code

theorem Conserved.atMost (hs : Conserved s) (account : Name) (code : SymbolCode) :
    balanceOf s.accounts account code ≤ Asset.maxAmount := by
  cases found : s.accounts.lookup (account, code) with
  | none =>
    rw [balanceOf, Ledger.held_none found]
    exact Asset.maxAmount_nonneg
  | some balance =>
    obtain ⟨-, st, token, -⟩ := hs.rows _ _ found
    have sound := hs.stats _ _ token
    exact (hs.inRange token).trans (sound.capped.trans sound.range)

theorem transfer_refines (hs : Conserved s) :
    Refines c s (.transfer source target quantity memo)
      (transfer k c s source target quantity memo) where
  admitted := by
    simp only [transfer, Ctx.requireAuth_eq_ok, bind_eq_ok, require_eq_ok, find_eq_ok, pure_eq_ok,
      exists_const, Action.Admitted, State.books]
    constructor
    · rintro ⟨-, apart, signed, known, st, token, valid, positive, same, short, debited,
        paid, -, -, -⟩
      refine ⟨st, token, ⟨valid, positive, same, short⟩, signed, known, apart, ?_⟩
      obtain ⟨balance, found, covered, -⟩ := subBalance_ok paid
      rwa [balanceOf, Ledger.held_some found]
    · rintro ⟨st, token, ⟨valid, positive, same, short⟩, signed, known, apart, covered⟩
      have sound := hs.stats _ _ token
      obtain ⟨debited, paid⟩ : ∃ b, subBalance k.emptied s.accounts source quantity = .ok b :=
        subBalance_succeeds hs.rows token same positive covered (hs.atMost _ _)
      have rows := hs.rows.sub paid
      have part := rows.held_le target quantity.symbol.code
      rw [circulating_sub paid, if_pos rfl, hs.sums _ _ token] at part
      have capped := sound.capped
      have range := sound.range
      obtain ⟨accounts, received⟩ := addBalance_succeeds rows token same positive.le
        (show balanceOf debited target _ + _ ≤ _ by omega)
      exact ⟨_, apart, signed, known, st, token, valid, positive, same, short, debited,
        paid, accounts, received, rfl⟩
  effect s' h := by
    obtain ⟨st, debited, accounts, -, -, -, -, paid, received, rfl⟩ := transfer_ok h
    simp only [State.books, Action.effect, Books.deposit, Books.mk.injEq, true_and]
    funext account code
    rw [balanceOf_add received, balanceOf_sub paid]
    rfl

/-- A transfer moves its amount, and nothing else. -/
theorem balanceOf_transfer (h : transfer k c s source target quantity memo = .ok s')
    (account : Name)
    (code : SymbolCode) : balanceOf s'.accounts account code = balanceOf s.accounts account code +
      (if account = source ∧ code = quantity.symbol.code then -quantity.amount else 0) +
      if account = target ∧ code = quantity.symbol.code then quantity.amount else 0 := by
  obtain ⟨st, debited, accounts, -, -, -, -, paid, received, rfl⟩ := transfer_ok h
  rw [balanceOf_add received, balanceOf_sub paid]

theorem mint_refines {st : CurrencyStats} (h : mint c s quantity memo = .ok (st, s')) :
    s'.books =
      (s.books.file quantity.symbol.code (st.issued quantity)).deposit st.issuer quantity := by
  obtain ⟨accounts, -, -, -, -, received, rfl⟩ := mint_ok h
  simp only [State.books, Books.file, Books.deposit, Books.mk.injEq]
  constructor
  · funext code
    rw [Table.lookup_insert, Function.update_apply]
    rfl
  · funext account code
    exact balanceOf_add received

theorem mint_admitted (hs : Conserved s) {st : CurrencyStats} :
    (∃ minted, mint c s quantity memo = .ok (st, minted)) ↔
      s.stats.lookup quantity.symbol.code = some st ∧ Proper st quantity memo ∧ st.issuer ∈ c.auth ∧
        st.supply.amount + quantity.amount ≤ st.maxSupply.amount := by
  simp only [mint, Ctx.requireAuth_eq_ok, bind_eq_ok, require_eq_ok, find_eq_ok, pure_eq_ok,
    exists_const, Prod.mk.injEq]
  constructor
  · rintro ⟨-, -, short, _, token, signed, valid, positive, same, capped, _, -, _, -, rfl, -⟩
    exact ⟨token, ⟨valid, positive, same, short⟩, signed, by omega⟩
  · rintro ⟨token, ⟨valid, positive, same, short⟩, signed, capped⟩
    have sound := hs.stats _ _ token
    have nonneg := sound.nonneg
    have range := sound.range
    have symbol : quantity.symbol.isValid = true := by
      simp only [Asset.isValid, Bool.and_eq_true] at valid
      exact valid.2
    have grown : st.supply.add quantity = .ok (st.issued quantity).supply :=
      Asset.add_eq_ok.mpr ⟨same, by omega, by omega, rfl⟩
    have held : balanceOf s.accounts st.issuer quantity.symbol.code ≤ st.supply.amount :=
      hs.inRange token
    obtain ⟨accounts, received⟩ : ∃ b, addBalance s.accounts st.issuer quantity = .ok b :=
      addBalance_succeeds hs.rows token same positive.le (by omega)
    exact ⟨_, symbol, short, st, token, signed, valid, positive, same, by omega, _, grown, accounts,
      received, rfl, rfl⟩

/-- The transfer that follows a mint finds what was minted. -/
theorem forward_admitted (hs : Conserved s) {st : CurrencyStats} {minted : State}
    (done : mint c s quantity memo = .ok (st, minted)) (apart : target ≠ st.issuer) :
    (∃ s',
      transfer k { c with auth := [st.issuer] } minted st.issuer target quantity memo = .ok s') ↔
      c.isAccount target = true := by
  rw [(transfer_refines (hs.mint done)).admitted, mint_refines done]
  constructor
  · rintro ⟨-, -, -, -, known, -⟩
    exact known
  · intro known
    obtain ⟨-, proper, -, -⟩ := (mint_admitted hs).mp ⟨minted, done⟩
    obtain ⟨valid, positive, same, short⟩ := proper
    refine ⟨st.issued quantity, Function.update_self .., ⟨valid, positive, same, short⟩,
      List.mem_singleton.mpr rfl, known, apart.symm, ?_⟩
    have held : 0 ≤ balanceOf s.accounts st.issuer quantity.symbol.code := hs.rows.held _ _
    simp only [Books.deposit, Books.file, State.books, and_self, if_true]
    omega

theorem deposit_through (b : Books) (owner target : Name) (value : Asset) :
    (((b.deposit owner value).deposit owner value.neg).deposit target value) =
      b.deposit target value := by
  simp only [Books.deposit, Asset.neg, Books.mk.injEq, true_and]
  funext account code
  by_cases here : account = owner ∧ code = value.symbol.code
  · simp [here]
  · simp [here]

theorem issue_refines (hs : Conserved s) :
    Refines c s (.issue target quantity memo) (issue k c s target quantity memo) where
  admitted := by
    constructor
    · rintro ⟨s', h⟩
      obtain ⟨st, minted, done, rest⟩ := issue_ok h
      obtain ⟨token, proper, signed, capped⟩ := (mint_admitted hs).mp ⟨minted, done⟩
      refine ⟨st, token, proper, signed, capped, ?_⟩
      rcases rest with ⟨own, -⟩ | ⟨apart, sent⟩
      · exact Or.inl own
      · exact Or.inr ((forward_admitted hs done apart).mp ⟨s', sent⟩)
    · rintro ⟨st, token, proper, signed, capped, known⟩
      obtain ⟨minted, done⟩ := (mint_admitted hs).mpr ⟨token, proper, signed, capped⟩
      simp only [issue, done, bind_eq_ok, ite_eq_ok, pure_eq_ok, Except.ok.injEq]
      by_cases own : target = st.issuer
      · exact ⟨minted, (st, minted), rfl, Or.inl ⟨own, rfl⟩⟩
      · obtain ⟨s', sent⟩ := (forward_admitted hs done own).mpr (known.resolve_left own)
        exact ⟨s', (st, minted), rfl, Or.inr ⟨own, sent⟩⟩
  effect s' h := by
    obtain ⟨st, minted, done, rest⟩ := issue_ok h
    obtain ⟨token, -⟩ := (mint_admitted hs).mp ⟨minted, done⟩
    simp only [Action.effect, State.books, token]
    rcases rest with ⟨rfl, rfl⟩ | ⟨-, sent⟩
    · exact mint_refines done
    · rw [← State.books, (transfer_refines (hs.mint done)).effect s' sent]
      simp only [Action.effect, mint_refines done, deposit_through]
      rfl

theorem ledger_refines (hs : Conserved s) (action : Action) :
    Refines c s action (action.apply k c s) := by
  cases action with
  | create issuer maximumSupply => exact create_refines
  | issue target quantity memo => exact issue_refines hs
  | transfer source target quantity memo => exact transfer_refines hs

/-! ## Every run -/

section

variable (k : Contract) (self : Name)

/-- Create, issue and transfer as a contract of its own. -/
abbrev ledger (c : Ctx) (s : State) (action : Action) : Checked State := action.apply k c s

theorem step_books (call : Call Action) (hs : Conserved s) :
    (step (ledger k) self s call).books = s.books.step self call := by
  obtain ⟨admitted, effect⟩ : Refines ⟨self, call.auth, call.isAccount⟩ s call.action _ :=
    ledger_refines (k := k) hs call.action
  unfold step Books.step
  simp only [ledger]
  cases outcome : call.action.apply k ⟨self, call.auth, call.isAccount⟩ s with
  | ok s' =>
    rw [if_pos (admitted.mp ⟨s', outcome⟩)]
    exact effect s' outcome
  | error message =>
    rw [if_neg]
    intro fine
    obtain ⟨s', done⟩ := admitted.mpr fine
    cases outcome.symm.trans done

/-- A ledger keeps the books, whatever becomes of rows that are emptied. -/
theorem after_books (calls : List (Call Action)) :
    (after (ledger k) self calls).books = Books.after self calls :=
  run_simulates (fun _ call hs => step_keeps (fun _ _ _ _ hs done => hs.ledger done) self call hs)
    (fun _ call hs => step_books k self call hs) Conserved.empty calls

/-- After every run the ledger admits what the books admit. -/
theorem after_admits (calls : List (Call Action)) (c : Ctx) (action : Action) :
    (∃ s', ledger k c (after (ledger k) self calls) action = .ok s') ↔
      action.Admitted c (Books.after self calls) := by
  have conserved : Conserved (after (ledger k) self calls) :=
    reached Conserved.empty (fun _ _ _ _ hs done => hs.ledger done) self calls
  rw [← after_books k self calls]
  exact (ledger_refines conserved action).admitted

end

theorem erasure_unobservable (self : Name) (calls : List (Call Action)) :
    let bond := after Bond.apply self calls
    let token := after (fun c s a => EosioToken.apply c s (.ledger a)) self calls
    bond.books = token.books ∧ ∀ c a,
      (∃ s', Bond.apply c bond a = .ok s') ↔
        ∃ s', EosioToken.apply c token (.ledger a) = .ok s' := by
  intro bond token
  constructor
  · exact (after_books Bond.contract self calls).trans
      (after_books EosioToken.contract self calls).symm
  · intro c a
    exact (after_admits Bond.contract self calls c a).trans
      (after_admits EosioToken.contract self calls c a).symm

end DecentralBank.Token
