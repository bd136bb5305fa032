import Mathlib.Order.CompletePartialOrder
import Qlabs.Bindings.Types

/-!
# What encoding does to a message

Encoding a value writes the bits of a slot that was allocated before, and allocates bytes
behind what there is, for what the value points to; everything else stays as it was
(`Message.Writes`). What was written can be read until it is overwritten: `Puts` says what
may be read of any buffer in which these bits are as they were written. So two encodings of
a message one after the other put what either puts, if their slots are apart (`Puts.bind`).
-/

namespace Qlabs.Bindings

variable {k : Bool} {msg msg' : Message} {x : Js Message} {S T : Set ℕ} {n p : ℕ}
  {P Q : Buffer → Prop} {v v' : View} {offset : ℕ}

/-! ## Sizes -/

/-- The next multiple of eight, of a size that is not negative. -/
def padded (a : ℕ) : ℕ := a + (8 - a % 8) % 8

theorem align_natCast (a : ℕ) : align a = padded a := by
  have hmod : (a : ℤ).tmod 8 = a % 8 := Int.tmod_eq_emod_of_nonneg (by omega)
  rw [align, padded, hmod, Int.tmod_eq_emod_of_nonneg (by omega)]
  omega

theorem dvd_padded (a : ℕ) : 8 ∣ padded a := by
  rw [padded]
  omega

theorem le_padded (a : ℕ) : a ≤ padded a := by
  rw [padded]
  omega

theorem padded_of_dvd {a : ℕ} (h : 8 ∣ a) : padded a = a := by
  rw [padded]
  omega

theorem padded_add_of_dvd (a : ℕ) {b : ℕ} (h : 8 ∣ b) : padded (a + b) = padded a + b := by
  rw [padded, padded]
  omega

/-! ## Slots -/

/-- The bits of a slot: `bits` of them, from the bit of an offset on. -/
def View.slot (v : View) (offset bit bits : ℕ) : Set ℕ :=
  Set.Ico (8 * (v.byteOffset + offset) + bit) (8 * (v.byteOffset + offset) + bit + bits)

/-- The slot of an integer of `w` bytes. -/
theorem View.slot_eq (v : View) (offset w : ℕ) :
    v.slot offset 0 (8 * w) =
      Buffer.bytesBetween (v.byteOffset + offset) (v.byteOffset + offset + w) := by
  rw [View.slot, Buffer.bytesBetween, Nat.mul_add 8 (_ + _) w, Nat.add_zero]

/-- The bits of a view from an offset on. -/
abbrev View.tail (v : View) (offset : ℕ) : Set ℕ := v.slot offset 0 (8 * (v.byteLength - offset))

/-- The bits that are allocated. -/
def Message.allocated (msg : Message) : Set ℕ := Set.Iio (8 * msg.next)

/-- A view of as many bytes, or more. -/
structure View.Extends (v v' : View) : Prop where
  byteOffset : v'.byteOffset = v.byteOffset
  byteLength : v.byteLength ≤ v'.byteLength

/-- Nothing has been written behind what is allocated. -/
def Message.Fresh (msg : Message) : Prop := ∀ i, i ∉ msg.allocated → msg.buffer.bit i = false

/-- Of a message, the bits in `S` have been written, and `n` bytes have been added. -/
structure Message.Writes (msg : Message) (S : Set ℕ) (n : ℕ) (msg' : Message) : Prop where
  size : msg'.buffer.size = msg.buffer.size
  next : msg'.next = msg.next + n
  fresh : msg'.Fresh
  frame : Buffer.Agree (msg.allocated \ S) msg'.buffer msg.buffer

theorem Message.Writes.allocated_subset (h : msg.Writes S n msg') :
    msg.allocated ⊆ msg'.allocated :=
  Set.Iio_subset_Iio (by rw [h.next]; omega)

theorem Message.Writes.trans {msg'' : Message} (h : msg.Writes S n msg')
    (h' : msg'.Writes T p msg'') : msg.Writes (S ∪ T) (n + p) msg'' where
  size := h'.size.trans h.size
  next := by rw [h'.next, h.next, Nat.add_assoc]
  fresh := h'.fresh
  frame := fun i ⟨hi, hST⟩ =>
    (h'.frame ⟨h.allocated_subset hi, fun hT => hST (.inr hT)⟩).trans
      (h.frame ⟨hi, fun hS => hST (.inl hS)⟩)

/-! ## Encoding -/

/-- Encoding `x` writes the bits in `S` of `msg`, and adds `n` bytes to it, and `P` holds of
    the buffers in which these are as they were written. -/
def Puts (msg : Message) (x : Js Message) (S : Set ℕ) (n : ℕ) (P : Buffer → Prop) : Prop :=
  ∃ msg', x = .ok msg' ∧ msg.Writes S n msg' ∧
    ∀ m : Buffer, m.size = msg.buffer.size →
      Buffer.Agree (S ∪ Buffer.bytesBetween msg.next msg'.next) m msg'.buffer → P m

/-- Nothing is written, if the bits in `S` are what they should be. -/
theorem puts_ok (hfresh : msg.Fresh)
    (hP : ∀ m : Buffer, m.size = msg.buffer.size → Buffer.Agree S m msg.buffer → P m) :
    Puts msg (.ok msg) S 0 P :=
  ⟨msg, rfl, ⟨rfl, rfl, hfresh, fun _ _ => rfl⟩, fun m hm hagree =>
    hP m hm (hagree.mono Set.subset_union_left)⟩

theorem Puts.mono (h : Puts msg x S n P) (hS : S ⊆ T)
    (hP : ∀ m : Buffer, m.size = msg.buffer.size → P m → Q m) : Puts msg x T n Q := by
  obtain ⟨msg', hx, hw, hput⟩ := h
  refine ⟨msg', hx, ⟨hw.size, hw.next, hw.fresh, hw.frame.mono (Set.sdiff_subset_sdiff_right hS)⟩,
    fun m hm hagree => hP m hm (hput m hm (hagree.mono ?_))⟩
  exact Set.union_subset_union_left _ hS

/-- One encoding after the other, if the second writes elsewhere. -/
theorem Puts.bind {f : Message → Js Message} {U : Set ℕ} {q : ℕ} (hx : Puts msg x S n P)
    (hf : ∀ msg', msg.Writes S n msg' → Puts msg' (f msg') T p Q) (hST : Disjoint S T)
    (hS : S ⊆ U) (hT : T ⊆ U) (hU : U ⊆ msg.allocated) (hq : n + p = q) :
    Puts msg (x >>= f) U q fun m => P m ∧ Q m := by
  obtain ⟨b, rfl, hb, hP⟩ := hx
  obtain ⟨c, hc, hbc, hQ⟩ := hf b hb
  have hnext := hb.next
  have hnext' := hbc.next
  have hputs : Puts msg (.ok b >>= f) (S ∪ T) (n + p) fun m => P m ∧ Q m := by
    refine ⟨c, hc, hb.trans hbc, fun m hm hagree => ⟨hP m hm ?_, hQ m (hm.trans hb.size.symm) ?_⟩⟩
    · -- The first slot, and what was added then, have not been written to since.
      refine (hagree.mono ?_).trans (hbc.frame.mono ?_)
      · refine Set.union_subset_union Set.subset_union_left (Set.Ico_subset_Ico le_rfl ?_)
        omega
      · rintro i (hi | hi)
        · exact ⟨hb.allocated_subset (hU (hS hi)), Set.disjoint_left.1 hST hi⟩
        · exact ⟨hi.2, fun hiT => absurd (hU (hT hiT)) (not_lt.2 hi.1)⟩
    · refine hagree.mono (Set.union_subset_union Set.subset_union_right
        (Set.Ico_subset_Ico ?_ le_rfl))
      omega
  exact hq ▸ hputs.mono (Set.union_subset hS hT) fun _ _ => id

/-- What is encoded after `a` bytes have been allocated may write there, too. -/
theorem Puts.of_allocated {a : ℕ}
    (h : Puts { msg with next := msg.next + a } x
      (S ∪ Buffer.bytesBetween msg.next (msg.next + a)) n P) : Puts msg x S (a + n) P := by
  obtain ⟨msg', rfl, hw, hput⟩ := h
  have hnext : msg'.next = msg.next + a + n := hw.next
  refine ⟨msg', rfl, ⟨hw.size, by omega, hw.fresh, hw.frame.mono ?_⟩, fun m hm hagree =>
    hput m hm (hagree.mono ?_)⟩
  · rintro i ⟨hi, hS⟩
    have hi : i < 8 * msg.next := hi
    exact ⟨show i < 8 * (msg.next + a) by omega, fun h => h.elim hS fun h => absurd h.1 (by omega)⟩
  · rw [Set.union_assoc]
    have hle : 8 * msg.next ≤ 8 * (msg.next + a) := by omega
    have hle' : 8 * (msg.next + a) ≤ 8 * msg'.next := by omega
    exact Set.union_subset_union_right _
      (Set.union_subset (Set.Ico_subset_Ico_right hle') (Set.Ico_subset_Ico_left hle))

/-! ## Integers, pointers, and bits -/

/-- A slot of `w` bytes that an integer may be written to. -/
structure Message.Slot (msg : Message) (v : View) (offset w : ℕ) : Prop where
  fresh : msg.Fresh
  inside : offset + w ≤ v.byteLength
  allocated : v.byteOffset + offset + w ≤ msg.next

theorem Message.Slot.subset {w : ℕ} (h : msg.Slot v offset w) :
    v.slot offset 0 (8 * w) ⊆ msg.allocated := by
  have hallocated := h.allocated
  exact fun i hi => lt_of_lt_of_le hi.2 (by omega)

theorem puts_setInt {w : ℕ} (h : msg.Slot v offset w) (value : ℤ) :
    Puts msg (v.setInt k offset w value msg) (v.slot offset 0 (8 * w)) 0 fun m =>
      ∀ v', v.Extends v' → v'.getUint k m offset w = .ok (value % 256 ^ w).toNat := by
  have hframe := Buffer.agree_writeUint (m := msg.buffer) k (v.byteOffset + offset) w
    (value % 256 ^ w).toNat
  refine ⟨_, if_pos h.inside, ⟨rfl, rfl, fun i hi => ?_, hframe.mono ?_⟩,
    fun m _ hagree v' hv' => ?_⟩
  · refine (hframe fun hbetween => hi (h.subset ?_)).trans (h.fresh i hi)
    rwa [View.slot_eq]
  · rw [View.slot_eq]
    exact fun i hi => hi.2
  · have hinside : offset + w ≤ v'.byteLength := h.inside.trans hv'.byteLength
    have hread := hagree.mono Set.subset_union_left
    rw [View.slot_eq] at hread
    rw [View.getUint, if_pos hinside, hv'.byteOffset, hread.readUint, Buffer.readUint_writeUint,
      Nat.mod_eq_of_lt]
    have hmod := Int.emod_lt_of_pos value (b := 256 ^ w) (by positivity)
    zify
    rwa [Int.toNat_of_nonneg (Int.emod_nonneg _ (by positivity))]

/-- The getters of signed integers read the same bytes. -/
theorem getInt_of_getUint {m : Buffer} {w : ℕ} {value : ℤ}
    (h : v.getUint k m offset w = .ok (value % 256 ^ w).toNat) :
    v.getInt k m offset w = .ok (value.bmod (256 ^ w)) := by
  have hpos : (0 : ℤ) < 256 ^ w := by positivity
  have hcast : ((256 ^ w : ℕ) : ℤ) = 256 ^ w := by norm_cast
  have hmod : ((value % 256 ^ w).toNat : ℤ) = value % 256 ^ w :=
    Int.toNat_of_nonneg (Int.emod_nonneg _ hpos.ne')
  have hiff : 2 * (value % 256 ^ w).toNat < 256 ^ w ↔ value % 256 ^ w < (256 ^ w + 1) / 2 := by
    zify
    rw [hmod]
    omega
  rw [View.getInt, h, Int.bmod, hcast]
  simp only [Bind.bind, Except.bind, Pure.pure, Except.pure, hiff, hmod]

theorem Message.Writes.slot {w w' offset' : ℕ} (hw : msg.Writes S n msg')
    (h : msg.Slot v offset w) (h' : offset' + w' ≤ offset + w) : msg'.Slot v offset' w' := by
  have := h.inside
  have := h.allocated
  have := hw.next
  exact ⟨hw.fresh, by omega, by omega⟩

/-- Two slots of a view, one behind the other. -/
theorem View.disjoint_slot (v : View) {bit bits offset' bit' bits' : ℕ}
    (h : 8 * offset + bit + bits ≤ 8 * offset' + bit') :
    Disjoint (v.slot offset bit bits) (v.slot offset' bit' bits') :=
  Set.disjoint_left.2 fun i hi hi' => absurd (hi'.1.trans_lt hi.2) (by omega)

theorem View.slot_subset (v : View) {bit bits offset' bit' bits' : ℕ}
    (h : 8 * offset' + bit' ≤ 8 * offset + bit)
    (h' : 8 * offset + bit + bits ≤ 8 * offset' + bit' + bits') :
    v.slot offset bit bits ⊆ v.slot offset' bit' bits' :=
  Set.Ico_subset_Ico (by omega) (by omega)

/-- Both halves are written, in the order that they are read in. -/
theorem puts_setUint64 (h : msg.Slot v offset 8) (value : ℤ) :
    Puts msg (v.setUint64 k offset value msg) (v.slot offset 0 64) 0 fun m =>
      ∀ v', v.Extends v' →
        v'.getUint k m (if k then offset else offset + 4) 4 = .ok (value % 2 ^ 32).toNat ∧
          v'.getUint k m (if k then offset + 4 else offset) 4 =
            .ok (value / 2 ^ 32 % 2 ^ 32).toNat := by
  have hfirst : msg.Slot v offset 4 := ⟨h.fresh, by have := h.inside; omega,
    by have := h.allocated; omega⟩
  have hhalf : ∀ a : ℤ, a % 2 ^ 32 % 256 ^ 4 = a % 2 ^ 32 := fun a => by omega
  have hset : ∀ a b : ℤ, Puts msg
      (v.setInt k offset 4 a msg >>= v.setInt k (offset + 4) 4 b) (v.slot offset 0 64) 0 fun m =>
        (∀ v', v.Extends v' → v'.getUint k m offset 4 = .ok (a % 256 ^ 4).toNat) ∧
          ∀ v', v.Extends v' → v'.getUint k m (offset + 4) 4 = .ok (b % 256 ^ 4).toNat := by
    intro a b
    exact (puts_setInt hfirst a).bind (fun msg' hw => puts_setInt (hw.slot h (by omega)) b)
      (v.disjoint_slot (by omega)) (v.slot_subset (by omega) (by omega))
      (v.slot_subset (by omega) (by omega)) h.subset rfl
  cases k with
  | true =>
    refine (hset _ _).mono subset_rfl fun m _ hm v' hv' => ⟨?_, ?_⟩
    · simpa [hhalf] using hm.1 v' hv'
    · simpa [hhalf] using hm.2 v' hv'
  | false =>
    refine (hset _ _).mono subset_rfl fun m _ hm v' hv' => ⟨?_, ?_⟩
    · simpa [hhalf] using hm.2 v' hv'
    · simpa [hhalf] using hm.1 v' hv'

theorem getUint64_of_halves {m : Buffer} {value : ℤ}
    (h : v.getUint k m (if k then offset else offset + 4) 4 = .ok (value % 2 ^ 32).toNat ∧
      v.getUint k m (if k then offset + 4 else offset) 4 = .ok (value / 2 ^ 32 % 2 ^ 32).toNat) :
    v.getUint64 k m offset = .ok (value % 2 ^ 64).toNat := by
  have hsum : (value / 2 ^ 32 % 2 ^ 32).toNat * 2 ^ 32 + (value % 2 ^ 32).toNat =
      (value % 2 ^ 64).toNat := by omega
  rw [← hsum, View.getUint64]
  cases k <;> simp_all [Bind.bind, Except.bind, Pure.pure, Except.pure]

/-- A pointer to what is behind it leads there. -/
theorem puts_encodeOffset (h : msg.Slot v offset 8) {target : ℕ}
    (hlt : v.byteOffset + offset < target) (htarget : target < 2 ^ 53) :
    Puts msg (v.encodeOffset k offset target msg) (v.slot offset 0 64) 0 fun m =>
      ∀ v', v.Extends v' → v'.decodeOffset k m offset = .ok target := by
  refine (puts_setUint64 h _).mono subset_rfl fun m _ hm v' hv' => ?_
  have hvalue : (((target : ℤ) - v.byteOffset - offset) % 2 ^ 64).toNat =
      target - v.byteOffset - offset := by omega
  rw [View.decodeOffset, getUint64_of_halves (hm v' hv'), hvalue, hv'.byteOffset]
  simp only [Bind.bind, Except.bind]
  rw [if_neg (by omega), if_neg (by omega)]
  exact congrArg Except.ok (by omega)

/-- Where there are zeros, there is no pointer. -/
theorem decodeOffset_of_zero {m : Buffer} (h : offset + 8 ≤ v.byteLength)
    (hzero : ∀ i ∈ v.slot offset 0 64, m.bit i = false) : v.decodeOffset k m offset = .ok 0 := by
  have hread : ∀ o, offset ≤ o → o + 4 ≤ offset + 8 → v.getUint k m o 4 = .ok 0 := by
    intro o hle hle'
    rw [View.getUint, if_pos (by omega), Buffer.readUint_of_zero]
    exact fun i hi => hzero i ⟨by have := hi.1; omega, by have := hi.2; omega⟩
  have hhalves : v.getUint64 k m offset = .ok ((0 : ℤ) % 2 ^ 64).toNat :=
    getUint64_of_halves ⟨hread _ (by split <;> omega) (by split <;> omega),
      hread _ (by split <;> omega) (by split <;> omega)⟩
  rw [View.decodeOffset, hhalves]
  rfl

theorem puts_encodeBit {bit : ℕ} (h : msg.Slot v offset 1) (hbit : bit < 8) (b : Bool) :
    Puts msg (v.encodeBit offset bit b msg) (v.slot offset bit 1) 0 fun m =>
      ∀ v', v.Extends v' → v'.decodeBit m offset bit = .ok b := by
  have hframe := Buffer.agree_setBit (m := msg.buffer) (i := v.byteOffset + offset) hbit b
  have hslot : v.slot offset bit 1 = {8 * (v.byteOffset + offset) + bit} := by
    ext i
    simp only [View.slot, Set.mem_Ico, Set.mem_singleton_iff]
    omega
  have hallocated := h.allocated
  refine ⟨_, if_pos h.inside, ⟨rfl, rfl, fun i hi => ?_, hframe.mono ?_⟩,
    fun m _ hagree v' hv' => ?_⟩
  · refine (hframe fun heq => hi ?_).trans (h.fresh i hi)
    exact Set.mem_Iio.2 (by rw [Set.mem_singleton_iff.1 heq]; dsimp only; omega)
  · rw [hslot]
    exact fun i hi => hi.2
  · have hinside : offset + 1 ≤ v'.byteLength := h.inside.trans hv'.byteLength
    have hread := hagree (x := 8 * (v.byteOffset + offset) + bit) (.inl (by rw [hslot]; rfl))
    have hdiv : (8 * (v.byteOffset + offset) + bit) / 8 = v.byteOffset + offset := by omega
    have hmod : (8 * (v.byteOffset + offset) + bit) % 8 = bit := by omega
    rw [Buffer.bit_setBit hbit, if_pos rfl, Buffer.bit, hdiv, hmod] at hread
    rw [View.decodeBit, if_pos (by omega), Int.toNat_natCast, hv'.byteOffset, hread]

/-! ## Objects -/

/-- There is room for `n` more bytes. -/
structure Message.Space (msg : Message) (n : ℕ) : Prop where
  fresh : msg.Fresh
  room : msg.next + n ≤ msg.buffer.size
  small : msg.buffer.size < 2 ^ 53

theorem Message.Writes.space {q : ℕ} (hw : msg.Writes S n msg') (h : msg.Space q)
    (hq : n + p ≤ q) : msg'.Space p where
  fresh := hw.fresh
  room := by have := h.room; rw [hw.next, hw.size]; omega
  small := hw.size ▸ h.small

/-- An object that has been allocated, which is zeros from `lo` on, and room for `n` more
    bytes. -/
structure Message.Object (msg : Message) (g : View) (lo n : ℕ) : Prop extends msg.Space n where
  allocated : g.byteOffset + g.byteLength ≤ msg.next
  zero : ∀ i ∈ g.tail lo, msg.buffer.bit i = false

theorem Message.Object.tail_subset {g : View} {lo : ℕ} (h : msg.Object g lo n) (o : ℕ)
    (ho : o ≤ g.byteLength) : g.tail o ⊆ msg.allocated := by
  have hallocated := h.allocated
  exact fun i hi => lt_of_lt_of_le hi.2 (by omega)

theorem Message.Object.slot {g : View} {lo w : ℕ} (h : msg.Object g lo n)
    (hw : offset + w ≤ g.byteLength) : msg.Slot g offset w where
  fresh := h.fresh
  inside := hw
  allocated := by have := h.allocated; omega

/-- What is written to an object is behind the zeros. -/
theorem Message.Writes.object {g : View} {lo lo' q : ℕ} (hw : msg.Writes S n msg')
    (h : msg.Object g lo q) (hq : n + p ≤ q) (hle : lo ≤ lo')
    (hS : Disjoint S (g.tail lo')) : msg'.Object g lo' p where
  toSpace := hw.space h.toSpace hq
  allocated := by have := h.allocated; rw [hw.next]; omega
  zero := fun i hi => by
    have hallocated := h.allocated
    obtain ⟨hlo, hhi⟩ := hi
    refine (hw.frame ⟨?_, fun hiS => Set.disjoint_left.1 hS hiS ⟨hlo, hhi⟩⟩).trans
      (h.zero i ⟨by omega, by omega⟩)
    show i < 8 * msg.next
    omega

theorem allocate_eq {size : ℕ} (h : msg.next + padded size ≤ msg.buffer.size) :
    allocate size msg =
      .ok (⟨msg.next, padded size⟩, { msg with next := msg.next + padded size }) := by
  rw [allocate, align_natCast, if_pos (by omega), Int.toNat_natCast]

/-- A new object, behind what there is. -/
theorem puts_allocate {size : ℕ} {f : View → Message → Js Message} {P : View → Buffer → Prop}
    (hspace : msg.Space (padded size + n))
    (hf : ∀ g msg', g.byteOffset = msg.next → g.byteLength = padded size → msg'.Object g 0 n →
      Puts msg' (f g msg') (S ∪ g.tail 0) n (P g)) :
    Puts msg (do
        let (g, msg) ← allocate size msg
        f g msg)
      S (padded size + n) fun m => ∃ g w, P g m ∧ g.Extends w ∧ g.byteOffset = msg.next ∧
        viewFrom m msg.next = .ok w := by
  have hroom := hspace.room
  let g : View := ⟨msg.next, padded size⟩
  let msg' : Message := { msg with next := msg.next + padded size }
  have hnext : msg'.next = msg.next + padded size := rfl
  have hobject : msg'.Object g 0 n := {
    fresh := by
      refine fun i hi => hspace.fresh i fun h => hi ?_
      have h : i < 8 * msg.next := h
      show i < 8 * (msg.next + padded size)
      omega
    room := by rw [hnext]; exact Nat.add_assoc _ _ n ▸ hroom
    small := hspace.small
    allocated := le_rfl
    zero := fun i hi => hspace.fresh i (not_lt.2 hi.1) }
  have htail : g.tail 0 = Buffer.bytesBetween msg.next (msg.next + padded size) := g.slot_eq _ _
  rw [allocate_eq (by omega)]
  refine Puts.of_allocated (htail ▸ (hf g msg' rfl rfl hobject).mono subset_rfl ?_)
  intro m hm hP
  have hm : m.size = msg.buffer.size := hm
  have hlength : g.byteLength ≤ m.size - msg.next := by
    show padded size ≤ _
    omega
  exact ⟨g, ⟨msg.next, m.size - msg.next⟩, hP, ⟨rfl, hlength⟩, rfl, if_pos (by omega)⟩

/-- A new object, and a pointer to it. -/
theorem puts_object {size : ℕ} {f : View → Message → Js Message} {P : View → Buffer → Prop}
    (hslot : msg.Slot v offset 8) (hspace : msg.Space (padded size + n))
    (hf : ∀ g msg', g.byteLength = padded size → msg'.Object g 0 n →
      Puts msg' (f g msg') (g.tail 0) n (P g)) :
    Puts msg (do
        let (g, msg) ← allocate size msg
        let msg ← v.encodeOffset k offset g.byteOffset msg
        f g msg)
      (v.slot offset 0 64) (padded size + n) fun m => ∃ g w, P g m ∧ g.Extends w ∧
        ∀ v', v.Extends v' → ∃ o, v'.decodeOffset k m offset = .ok o ∧ o ≠ 0 ∧
          viewFrom m o = .ok w := by
  have hroom := hspace.room
  have hsmall := hspace.small
  have hinside := hslot.inside
  have hallocated := hslot.allocated
  refine (puts_allocate hspace (S := v.slot offset 0 64)
    (f := fun g msg => v.encodeOffset k offset g.byteOffset msg >>= f g)
    (P := fun g m => P g m ∧ ∀ v', v.Extends v' →
      v'.decodeOffset k m offset = .ok g.byteOffset) fun g msg' hg hlength hobject => ?_).mono
    subset_rfl ?_
  · have hobject' := hobject.allocated
    have hsmall' := hobject.small
    have hroom' := hobject.room
    have hslot' : msg'.Slot v offset 8 := ⟨hobject.fresh, hinside, by omega⟩
    have hdisjoint : Disjoint (v.slot offset 0 64) (g.tail 0) :=
      Set.disjoint_left.2 fun i hi hi' => absurd (hi'.1.trans_lt hi.2) (by omega)
    exact ((puts_encodeOffset hslot' (by omega) (by omega)).bind
      (fun msg'' hw => hf g msg'' hlength (hw.object hobject (by omega) le_rfl hdisjoint))
      hdisjoint Set.subset_union_left Set.subset_union_right
      (Set.union_subset hslot'.subset (hobject.tail_subset 0 (Nat.zero_le _)))
      (Nat.zero_add n)).mono subset_rfl fun _ _ h => h.symm
  · rintro m - ⟨g, w, ⟨hP, hpointer⟩, hw, hg, hview⟩
    exact ⟨g, w, hP, hw, fun v' hv' => ⟨msg.next, hg ▸ hpointer v' hv', by omega, hview⟩⟩

/-- An object begins with two numbers; what is behind them is zeros until it is written. -/
theorem puts_header {g : View} {a b : ℤ} {f : Message → Js Message} (h : msg.Object g 0 n)
    (hg : 8 ≤ g.byteLength)
    (hf : ∀ msg', msg'.Object g 8 n → Puts msg' (f msg') (g.tail 8) n P) :
    Puts msg (do
        let msg ← g.encodeUint32 k 0 a msg
        let msg ← g.encodeUint32 k 4 b msg
        f msg)
      (g.tail 0) n fun m =>
        (∀ w, g.Extends w → w.decodeUint32 k m 0 = .ok (a % 256 ^ 4).toNat) ∧
          (∀ w, g.Extends w → w.decodeUint32 k m 4 = .ok (b % 256 ^ 4).toNat) ∧ P m := by
  have hfirst : ∀ msg', msg.Writes (g.slot 0 0 32) 0 msg' → msg'.Object g 4 n := fun _ hw =>
    hw.object h (by omega) (by omega) (g.disjoint_slot (by omega))
  refine (puts_setInt (h.slot (by omega)) a).bind (fun msg₁ hw₁ =>
    (puts_setInt ((hfirst msg₁ hw₁).slot (by omega)) b).bind (fun msg₂ hw₂ =>
      hf msg₂ (hw₂.object (hfirst msg₁ hw₁) (by omega) (by omega) (g.disjoint_slot (by omega))))
      (g.disjoint_slot (by omega)) (g.slot_subset (by omega) (by omega))
      (g.slot_subset (by omega) (by omega)) ((hfirst msg₁ hw₁).tail_subset 4 (by omega))
      (Nat.zero_add n)) (g.disjoint_slot (by omega)) (g.slot_subset (by omega) (by omega))
    (g.slot_subset (by omega) (by omega)) (h.tail_subset 0 (by omega)) (Nat.zero_add n)

end Qlabs.Bindings
