import DecentralBank.Lib.Words

/-!
# The parts of eosiolib the contracts use

Account names, symbols and assets with their checked arithmetic. A name and a
symbol code are the unsigned words that eosiolib packs them into.
-/

namespace DecentralBank

structure Name where
  value : Nat
  deriving DecidableEq, Repr

structure SymbolCode where
  raw : Nat
  deriving DecidableEq, Repr

/-- The characters of a symbol code, lowest byte first. -/
def SymbolCode.bytes (s : SymbolCode) : List Nat :=
  (List.range 7).map fun i => s.raw / 256 ^ i % 256

/-- One to seven letters from A to Z. -/
def SymbolCode.isValid (s : SymbolCode) : Bool :=
  let letter := fun b => decide (65 ≤ b ∧ b ≤ 90)
  decide (s.raw < 256 ^ 7) && letter (s.raw % 256) && (s.bytes.dropWhile letter).all (· = 0)

structure Symbol where
  code : SymbolCode
  precision : Nat
  deriving DecidableEq, Repr

def Symbol.isValid (s : Symbol) : Bool := s.code.isValid

structure Asset where
  amount : Int
  symbol : Symbol
  deriving DecidableEq, Repr

structure ExtendedAsset where
  quantity : Asset
  contract : Name
  deriving DecidableEq, Repr

namespace Asset

def maxAmount : Int := 2 ^ 62 - 1

def isAmountWithinRange (amount : Int) : Bool :=
  decide (-maxAmount ≤ amount ∧ amount ≤ maxAmount)

def isValid (a : Asset) : Bool := isAmountWithinRange a.amount && a.symbol.isValid

/-- The constructor `asset( amount, symbol )`. -/
def make (amount : Int) (symbol : Symbol) : Checked Asset := do
  Checked.require (isAmountWithinRange amount) "magnitude of asset amount must be less than 2^62"
  Checked.require symbol.isValid "invalid symbol name"
  pure ⟨amount, symbol⟩

/-- `a += b`. -/
def add (a b : Asset) : Checked Asset := do
  Checked.require (b.symbol = a.symbol) "attempt to add asset with different symbol"
  Checked.require (-maxAmount ≤ a.amount + b.amount) "addition underflow"
  Checked.require (a.amount + b.amount ≤ maxAmount) "addition overflow"
  pure ⟨a.amount + b.amount, a.symbol⟩

/-- `a -= b`. -/
def sub (a b : Asset) : Checked Asset := do
  Checked.require (b.symbol = a.symbol) "attempt to subtract asset with different symbol"
  Checked.require (-maxAmount ≤ a.amount - b.amount) "subtraction underflow"
  Checked.require (a.amount - b.amount ≤ maxAmount) "subtraction overflow"
  pure ⟨a.amount - b.amount, a.symbol⟩

/-- `-a`. -/
def neg (a : Asset) : Asset := ⟨-a.amount, a.symbol⟩

/-- The operands of a comparison must have one symbol. -/
def comparable (a b : Asset) : Checked Unit :=
  Checked.require (a.symbol = b.symbol) "comparison of assets with different symbols is not allowed"

/-- `a > b`. -/
def gt (a b : Asset) : Checked Bool := do
  comparable a b
  pure (decide (b.amount < a.amount))

/-- `a == b`. -/
def eq (a b : Asset) : Checked Bool := do
  comparable a b
  pure (decide (a.amount = b.amount))

theorem maxAmount_nonneg : 0 ≤ maxAmount := by decide

@[simp] theorem make_eq_ok {amount : Int} {symbol : Symbol} {a : Asset} :
    make amount symbol = .ok a ↔
      (-maxAmount ≤ amount ∧ amount ≤ maxAmount) ∧ symbol.isValid = true ∧
        ⟨amount, symbol⟩ = a := by
  simp only [make, isAmountWithinRange, Checked.bind_eq_ok, Checked.require_eq_ok,
    Checked.pure_eq_ok, decide_eq_true_eq, exists_const]

@[simp] theorem add_eq_ok {a b r : Asset} :
    a.add b = .ok r ↔ b.symbol = a.symbol ∧ -maxAmount ≤ a.amount + b.amount ∧
      a.amount + b.amount ≤ maxAmount ∧ ⟨a.amount + b.amount, a.symbol⟩ = r := by
  simp only [add, Checked.bind_eq_ok, Checked.require_eq_ok, Checked.pure_eq_ok, exists_const]

@[simp] theorem sub_eq_ok {a b r : Asset} :
    a.sub b = .ok r ↔ b.symbol = a.symbol ∧ -maxAmount ≤ a.amount - b.amount ∧
      a.amount - b.amount ≤ maxAmount ∧ ⟨a.amount - b.amount, a.symbol⟩ = r := by
  simp only [sub, Checked.bind_eq_ok, Checked.require_eq_ok, Checked.pure_eq_ok, exists_const]

@[simp] theorem gt_eq_ok {a b : Asset} {r : Bool} :
    a.gt b = .ok r ↔ a.symbol = b.symbol ∧ decide (b.amount < a.amount) = r := by
  simp only [gt, comparable, Checked.bind_eq_ok, Checked.require_eq_ok, Checked.pure_eq_ok,
    exists_const]

@[simp] theorem eq_eq_ok {a b : Asset} {r : Bool} :
    a.eq b = .ok r ↔ a.symbol = b.symbol ∧ decide (a.amount = b.amount) = r := by
  simp only [eq, comparable, Checked.bind_eq_ok, Checked.require_eq_ok, Checked.pure_eq_ok,
    exists_const]

end Asset

end DecentralBank
