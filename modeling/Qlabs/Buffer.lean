import Mathlib.Data.Nat.Bitwise
import Mathlib.Data.Nat.Digits.Defs
import Mathlib.Data.Set.Function
import Mathlib.Order.Interval.Set.Basic

/-!
# Buffers

A buffer is a number of bytes, which unsigned integers are written to, and read from, in
either byte order.

Its bits are numbered too: the bit `n` is the bit `n % 8` of the byte `n / 8`. What a value
takes of a buffer is then a set of bits, also if it is a single one, and two buffers are
compared on a set (`Agree`): what is read from it is the same (`Agree.readUint`), and what
is written outside of it does not matter (`agree_writeUint`, `agree_setBit`).
-/

namespace Qlabs

/-- A buffer: its size, and its bytes. -/
structure Buffer where
  size : ℕ
  byte : ℕ → UInt8

namespace Buffer

variable {m m' m'' : Buffer} {i : ℕ}

/-- A buffer of zeros. -/
def zero (size : ℕ) : Buffer := ⟨size, fun _ => 0⟩

/-- The bit `n`. -/
def bit (m : Buffer) (n : ℕ) : Bool := (m.byte (n / 8)).toNat.testBit (n % 8)

/-- Where the `k`th digit of an integer of `w` bytes goes, the least significant one being
    the first. -/
def place (little : Bool) (w k : ℕ) : ℕ := if little then k else w - 1 - k

/-- The unsigned integer of `w` bytes at `i`. -/
def readUint (m : Buffer) (little : Bool) (i w : ℕ) : ℕ :=
  Nat.ofDigits 256 ((List.range w).map fun k => (m.byte (i + place little w k)).toNat)

/-- Writing the `w` least significant bytes of `v` at `i`. -/
def writeUint (m : Buffer) (little : Bool) (i w v : ℕ) : Buffer :=
  { m with byte := fun j =>
      if i ≤ j ∧ j < i + w then UInt8.ofNat (v / 256 ^ place little w (j - i)) else m.byte j }

/-- Writing the bit `j` of the byte at `i`. -/
def setBit (m : Buffer) (i j : ℕ) (b : Bool) : Buffer :=
  { m with byte := Function.update m.byte i (UInt8.ofNat
      (if b then (m.byte i).toNat ||| 1 <<< j else Nat.ldiff (m.byte i).toNat (1 <<< j))) }

/-- The bits in `S` are the same. -/
def Agree (S : Set ℕ) (m m' : Buffer) : Prop := Set.EqOn m.bit m'.bit S

/-- The bits of the bytes from `lo` to `hi`. -/
def bytesBetween (lo hi : ℕ) : Set ℕ := Set.Ico (8 * lo) (8 * hi)

@[simp] theorem size_writeUint (little : Bool) (i w v : ℕ) :
    (m.writeUint little i w v).size = m.size := rfl

@[simp] theorem size_setBit (i j : ℕ) (b : Bool) : (m.setBit i j b).size = m.size := rfl

/-! ## Agreement -/

theorem Agree.mono {S S' : Set ℕ} (h : Agree S m m') (hS : S' ⊆ S) : Agree S' m m' :=
  Set.EqOn.mono hS h

theorem Agree.trans {S : Set ℕ} (h : Agree S m m') (h' : Agree S m' m'') : Agree S m m'' :=
  Set.EqOn.trans h h'

/-- Eight bits make a byte. -/
theorem Agree.byte (h : Agree (bytesBetween i (i + 1)) m m') : m.byte i = m'.byte i := by
  refine UInt8.toNat_inj.1 (Nat.eq_of_testBit_eq fun j => ?_)
  rcases lt_or_ge j 8 with hj | hj
  · have hbit := h (x := 8 * i + j) ⟨by omega, by omega⟩
    have hdiv : (8 * i + j) / 8 = i := by omega
    have hmod : (8 * i + j) % 8 = j := by omega
    simpa only [bit, hdiv, hmod] using hbit
  · have hlt : ∀ b : UInt8, b.toNat < 2 ^ j := fun b =>
      b.toNat_lt.trans_le (Nat.pow_le_pow_right (by decide) hj)
    rw [Nat.testBit_lt_two_pow (hlt _), Nat.testBit_lt_two_pow (hlt _)]

theorem place_lt (little : Bool) {w k : ℕ} (hk : k < w) : place little w k < w := by
  rw [place]
  split_ifs <;> omega

theorem place_place {little : Bool} {w k : ℕ} (hk : k < w) :
    place little w (place little w k) = k := by
  rw [place, place]
  split_ifs <;> omega

theorem Agree.readUint {w : ℕ} (h : Agree (bytesBetween i (i + w)) m m') (little : Bool) :
    m.readUint little i w = m'.readUint little i w := by
  refine congrArg _ (List.map_congr_left fun k hk => congrArg UInt8.toNat (Agree.byte ?_))
  have hlt := place_lt little (List.mem_range.1 hk)
  exact h.mono (Set.Ico_subset_Ico (by omega) (by omega))

/-! ## Writing -/

theorem agree_writeUint (little : Bool) (i w v : ℕ) :
    Agree (bytesBetween i (i + w))ᶜ (m.writeUint little i w v) m := by
  intro n hn
  have hout : ¬(i ≤ n / 8 ∧ n / 8 < i + w) := fun h => hn ⟨by omega, by omega⟩
  simp only [bit, writeUint, if_neg hout]

/-- The digits of a number are what it is modulo a power of the base. -/
theorem ofDigits_range (v w : ℕ) :
    Nat.ofDigits 256 ((List.range w).map fun k => v / 256 ^ k % 256) = v % 256 ^ w := by
  induction w with
  | zero => simp [Nat.mod_one]
  | succ w ih =>
    rw [List.range_succ, List.map_append, Nat.ofDigits_append, ih, Nat.mod_pow_succ]
    simp

/-- What was written is read. -/
theorem readUint_writeUint (little : Bool) (i w v : ℕ) :
    (m.writeUint little i w v).readUint little i w = v % 256 ^ w := by
  rw [← ofDigits_range]
  refine congrArg _ (List.map_congr_left fun k hk => ?_)
  have hk := List.mem_range.1 hk
  have hlt := place_lt little hk
  have hin : i ≤ i + place little w k ∧ i + place little w k < i + w := by omega
  simp only [writeUint, if_pos hin, Nat.add_sub_cancel_left, place_place hk, UInt8.toNat_ofNat']

/-- Zeros are the number zero. -/
theorem readUint_of_zero {w : ℕ} (h : ∀ n ∈ bytesBetween i (i + w), m.bit n = false)
    (little : Bool) : m.readUint little i w = 0 := by
  have hzero : Agree (bytesBetween i (i + w)) m (zero m.size) := fun n hn =>
    (h n hn).trans (Nat.zero_testBit _).symm
  have hdigits : ((List.range w).map fun k => ((zero m.size).byte (i + place little w k)).toNat) =
      List.replicate w 0 := by simp [zero, List.map_const']
  rw [hzero.readUint, readUint, hdigits, Nat.ofDigits_replicate_zero]

/-! ## Bits -/

theorem bit_setBit {j : ℕ} (hj : j < 8) (b : Bool) (n : ℕ) :
    (m.setBit i j b).bit n = if n = 8 * i + j then b else m.bit n := by
  have hmod : ∀ x : ℕ, (UInt8.ofNat x).toNat.testBit (n % 8) = x.testBit (n % 8) := fun x => by
    rw [UInt8.toNat_ofNat', Nat.testBit_mod_two_pow]
    simp [Nat.mod_lt]
  by_cases hn : n / 8 = i
  · -- The byte is the one that is written.
    have hiff : n = 8 * i + j ↔ j = n % 8 := by omega
    subst hn
    simp only [bit, setBit, Function.update_self, hmod, hiff]
    cases b <;> by_cases hj : j = n % 8 <;>
      simp [Nat.testBit_ldiff, Nat.one_shiftLeft, hj]
  · have hne : n ≠ 8 * i + j := by omega
    simp only [bit, setBit, Function.update_of_ne hn, if_neg hne]

theorem agree_setBit {j : ℕ} (hj : j < 8) (b : Bool) :
    Agree {8 * i + j}ᶜ (m.setBit i j b) m := by
  intro n hn
  rw [bit_setBit hj, if_neg (Set.mem_compl_singleton_iff.1 hn)]

end Buffer

end Qlabs
