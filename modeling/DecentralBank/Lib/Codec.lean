import DecentralBank.Lib.Checked
import DecentralBank.Lib.Words

/-!
# Records as bytes

A record is written member by member from a list of its members, and read back
into an object that exists already: a member that is not in the list is neither
written nor read, so the object keeps its own.
-/

namespace DecentralBank

/-- How a value is written and read: what is written is read back, whatever follows it. -/
structure Codec (α : Type) where
  Valid : α → Prop
  put : α → List UInt8
  get : List UInt8 → Checked (α × List UInt8)
  get_put : ∀ {a : α}, Valid a → ∀ rest, get (put a ++ rest) = .ok (a, rest)

namespace Codec

/-! ## Words -/

/-- `n` in `w` bytes, the least significant first. -/
def putNat : Nat → Nat → List UInt8
  | 0, _ => []
  | w + 1, n => UInt8.ofNat n :: putNat w (n / 256)

def getNat : Nat → List UInt8 → Checked (Nat × List UInt8)
  | 0, bytes => .ok (0, bytes)
  | _ + 1, [] => .error "read"
  | w + 1, b :: bytes => do
    let (n, rest) ← getNat w bytes
    pure (b.toNat + 256 * n, rest)

theorem getNat_putNat {w n : Nat} (range : n < 256 ^ w) (rest : List UInt8) :
    getNat w (putNat w n ++ rest) = .ok (n, rest) := by
  induction w generalizing n with
  | zero =>
    have none : n = 0 := by omega
    rw [none]
    rfl
  | succ w ih =>
    have high : n / 256 < 256 ^ w := by
      rw [pow_succ] at range
      omega
    have low : (UInt8.ofNat n).toNat = n % 256 := UInt8.toNat_ofNat'
    have whole := Nat.mod_add_div n 256
    simp only [putNat, List.cons_append, getNat, Checked.bind_eq_ok, Checked.pure_eq_ok]
    exact ⟨(n / 256, rest), ih high, by rw [low, whole]⟩

/-- An unsigned integer of `w` bytes. -/
def unsigned (w : Nat) : Codec Nat where
  Valid n := n < 256 ^ w
  put := putNat w
  get := getNat w
  get_put := getNat_putNat

def uint8 : Codec Nat := unsigned 1
def uint16 : Codec Nat := unsigned 2
def uint32 : Codec Nat := unsigned 4
def uint64 : Codec Nat := unsigned 8

section

variable {α β : Type}

/-- Values written as the `β` that `f` makes of them and `g` turns back. -/
def via (c : Codec β) (Valid : α → Prop) (f : α → β) (g : β → α)
    (valid : ∀ {a}, Valid a → c.Valid (f a))
    (back : ∀ {a}, Valid a → g (f a) = a) : Codec α where
  Valid := Valid
  put a := c.put (f a)
  get bytes := do
    let (b, rest) ← c.get bytes
    pure (g b, rest)
  get_put := by
    intro a ha rest
    simp only [Checked.bind_eq_ok, Checked.pure_eq_ok]
    exact ⟨(f a, rest), c.get_put (valid ha) rest, by rw [back ha]⟩

end

theorem i64_u64_back {x : Int} (h : -2 ^ 63 ≤ x ∧ x < 2 ^ 63) : i64 (u64 x) = x := by
  rw [i64_u64, i64_of_lt h.1 h.2]

/-- `int64_t`. -/
def int64 : Codec Int :=
  uint64.via (fun x => -2 ^ 63 ≤ x ∧ x < 2 ^ 63) u64 (fun n => i64 n)
    (fun {x} _ => u64_lt x) i64_u64_back

end Codec

/-! ## Members -/

/-- A member of a record `S`, as a list of members has it. -/
structure Member (S : Type) where
  Valid : S → Prop
  write : S → List UInt8
  read : S → List UInt8 → Checked (S × List UInt8)
  /-- `copy s o` is the object `o` with the member of `s`. -/
  copy : S → S → S
  read_write : ∀ {s : S}, Valid s → ∀ o rest, read o (write s ++ rest) = .ok (copy s o, rest)

section

variable {S B α : Type}

def Codec.member (c : Codec α) (get : S → α) (set : S → α → S) : Member S where
  Valid s := c.Valid (get s)
  write s := c.put (get s)
  read o bytes := do
    let (a, rest) ← c.get bytes
    pure (set o a, rest)
  copy s o := set o (get s)
  read_write := by
    intro s hs o rest
    simp only [Checked.bind_eq_ok, Checked.pure_eq_ok]
    exact ⟨(get s, rest), c.get_put hs rest, rfl⟩

/-- A member of the base `B` of a derived record. -/
def Member.inherited (m : Member B) (base : S → B) (withBase : S → B → S) : Member S where
  Valid s := m.Valid (base s)
  write s := m.write (base s)
  read o bytes := do
    let (b, rest) ← m.read (base o) bytes
    pure (withBase o b, rest)
  copy s o := withBase o (m.copy (base s) (base o))
  read_write := by
    intro s hs o rest
    simp only [Checked.bind_eq_ok, Checked.pure_eq_ok]
    exact ⟨(m.copy (base s) (base o), rest), m.read_write hs (base o) rest, rfl⟩

/-- `operator <<` of a list of members. -/
def serialize : List (Member S) → S → List UInt8
  | [], _ => []
  | m :: ms, s => m.write s ++ serialize ms s

/-- `operator >>` of a list of members, into the object `o`. -/
def deserialize : List (Member S) → S → List UInt8 → Checked (S × List UInt8)
  | [], o, bytes => .ok (o, bytes)
  | m :: ms, o, bytes => do
    let (o, rest) ← m.read o bytes
    deserialize ms o rest

/-- The object `o` with the members of `s`. -/
def assign : List (Member S) → S → S → S
  | [], _, o => o
  | m :: ms, s, o => assign ms s (m.copy s o)

theorem deserialize_serialize {ms : List (Member S)} {s : S} (valid : ∀ m ∈ ms, m.Valid s) (o : S)
    (rest : List UInt8) :
    deserialize ms o (serialize ms s ++ rest) = .ok (assign ms s o, rest) := by
  induction ms generalizing o with
  | nil => rfl
  | cons m ms ih =>
    obtain ⟨first, others⟩ := List.forall_mem_cons.mp valid
    simp only [serialize, deserialize, List.append_assoc, Checked.bind_eq_ok]
    exact ⟨_, m.read_write first o _, ih others _⟩

theorem assign_append (ms ms' : List (Member S)) (s o : S) :
    assign (ms ++ ms') s o = assign ms' s (assign ms s o) := by
  induction ms generalizing o with
  | nil => rfl
  | cons m ms ih => exact ih _

/-- The members of the base, assigned one by one, make up the base. -/
theorem assign_inherited (base : S → B) (withBase : S → B → S)
    (base_with : ∀ s b, base (withBase s b) = b)
    (with_base : ∀ s, withBase s (base s) = s)
    (with_with : ∀ s b b', withBase (withBase s b) b' = withBase s b')
    (ms : List (Member B)) (s o : S) :
    assign (ms.map (·.inherited base withBase)) s o = withBase o (assign ms (base s) (base o)) := by
  induction ms generalizing o with
  | nil => exact (with_base o).symm
  | cons m ms ih =>
    rw [List.map_cons, assign, ih, Member.inherited, base_with, with_with]
    rfl

end

end DecentralBank
