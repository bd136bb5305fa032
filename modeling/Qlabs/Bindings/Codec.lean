import Mathlib.Algebra.BigOperators.Ring.List
import Qlabs.Bindings.Puts

/-!
# Codecs

What one type encodes, another one decodes: usually the same, but the two sides may have
different versions of a structure. A `Codec` is a pair of types for which this is so: of
which values, and what comes out of them, the integers having been cut to their sizes.
There is one for each of the types that are given, and `Codec.array` makes one for arrays.
-/

namespace Qlabs.Bindings

variable (k : Bool)

/-! ## Codecs -/

/-- The bits that a value takes where it belongs. -/
def MojomType.bits (t : MojomType) : ℕ := if t.isBool then 1 else 8 * t.arrayElementSize

/-- The size that `v` and `ia` make room for. -/
def MojomType.pointed (t : MojomType) (a : Val) (nullable : Bool) : Js ℤ :=
  match t.dimensions with
  | some dimensions => align <$> dimensions a nullable
  | none => pure 0

/-- A slot that a value of the type may be encoded in, and room for what it points to. -/
structure MojomType.Room (t : MojomType) (v : View) (offset bit n : ℕ) (msg : Message) :
    Prop extends msg.Space n where
  inside : 8 * offset + bit + t.bits ≤ 8 * v.byteLength
  allocated : 8 * (v.byteOffset + offset) + bit + t.bits ≤ 8 * msg.next
  bit_lt : bit < 8
  bit_eq : t.isBool = false → bit = 0

/-- What `t` encodes, `r` decodes. -/
structure Codec (t r : MojomType) where
  /-- The values that are encoded. -/
  Valid : Val → Prop
  /-- What comes out of them. -/
  norm : Val → Val
  /-- The size of what they point to. -/
  size : Val → ℕ
  dvd_size : ∀ a, 8 ∣ size a
  isBool : r.isBool = t.isBool
  arrayElementSize : r.arrayElementSize = t.arrayElementSize
  isNil : ∀ {a}, Valid a → a.isNil = false
  isNull_norm : ∀ {a}, Valid a → (norm a).isNull = false
  pointed : ∀ {a}, Valid a → ∀ nullable, t.pointed a nullable = .ok (size a : ℤ)
  puts : ∀ {a v offset bit msg}, Valid a → t.Room v offset bit (size a) msg → ∀ nullable,
    Puts msg (t.encode a v offset bit nullable msg) (v.slot offset bit t.bits) (size a) fun m =>
      ∀ v' nullable', v.Extends v' → r.decode m v' offset bit nullable' = .ok (norm a)

/-- A null value leaves its slot as it is, and it is null that is read of a slot of zeros. -/
structure Codec.Nullable (t r : MojomType) : Prop where
  isBool : t.isBool = false
  encodeNull : ∀ v offset msg, t.callEncodeNull v offset msg = .ok msg
  decode : ∀ {m v offset}, 8 * offset + t.bits ≤ 8 * v.byteLength →
    (∀ i ∈ v.slot offset 0 t.bits, m.bit i = false) → ∀ nullable,
      r.decode m v offset 0 nullable = .ok .null

variable {k} {t r : MojomType} {a : Val} {v : View} {offset bit n : ℕ} {msg : Message}

theorem MojomType.bits_eq (h : t.isBool = false) : t.bits = 8 * t.arrayElementSize := by
  rw [MojomType.bits, h]
  rfl

theorem MojomType.Room.slot {w : ℕ} (h : t.Room v offset bit n msg) (hbool : t.isBool = false)
    (hw : t.arrayElementSize = w) : msg.Slot v offset w := by
  have hbits := MojomType.bits_eq hbool
  have := h.inside
  have := h.allocated
  exact ⟨h.fresh, by omega, by omega⟩

/-! ## Numbers -/

/-- Of the numbers, the low bytes come out. -/
def Codec.uint (w : ℕ) : Codec (uintType k w) (uintType k w) where
  Valid a := a.isNil = false ∧ ∃ n, a.toNumber = .ok n
  norm a := .number (a.toNumber.toOption.getD 0 % 256 ^ w)
  size _ := 0
  dvd_size _ := dvd_zero 8
  isBool := rfl
  arrayElementSize := rfl
  isNil h := h.1
  isNull_norm _ := rfl
  pointed _ _ := rfl
  puts := by
    rintro a v offset bit msg ⟨-, n, hn⟩ hroom nullable
    obtain rfl := hroom.bit_eq rfl
    simp only [uintType, hn]
    refine (puts_setInt (w := w) (hroom.slot rfl rfl) n).mono subset_rfl
      fun m _ hm v' _ hv' => ?_
    simp only [hm v' hv', Bind.bind, Except.bind, Pure.pure, Except.pure, Except.toOption,
      Option.getD_some, Int.toNat_of_nonneg (Int.emod_nonneg n (by positivity : (256 : ℤ) ^ w ≠ 0))]

/-- They come out signed. -/
def Codec.int (w : ℕ) : Codec (intType k w) (intType k w) where
  Valid a := a.isNil = false ∧ ∃ n, a.toNumber = .ok n
  norm a := .number ((a.toNumber.toOption.getD 0).bmod (256 ^ w))
  size _ := 0
  dvd_size _ := dvd_zero 8
  isBool := rfl
  arrayElementSize := rfl
  isNil h := h.1
  isNull_norm _ := rfl
  pointed _ _ := rfl
  puts := by
    rintro a v offset bit msg ⟨-, n, hn⟩ hroom nullable
    obtain rfl := hroom.bit_eq rfl
    simp only [intType, hn]
    refine (puts_setInt (w := w) (hroom.slot rfl rfl) n).mono subset_rfl
      fun m _ hm v' _ hv' => ?_
    simp only [getInt_of_getUint (hm v' hv'), Bind.bind, Except.bind, Pure.pure, Except.pure,
      Except.toOption, Option.getD_some]

/-- A condition comes out of anything but a null value. -/
def Codec.bool : Codec boolType boolType where
  Valid a := a.isNil = false
  norm a := .bool a.truthy
  size _ := 0
  dvd_size _ := dvd_zero 8
  isBool := rfl
  arrayElementSize := rfl
  isNil h := h
  isNull_norm _ := rfl
  pointed _ _ := rfl
  puts := by
    intro a v offset bit msg _ hroom nullable
    have hbits : boolType.bits = 1 := rfl
    have hinside := hroom.inside
    have hallocated := hroom.allocated
    refine (puts_encodeBit ⟨hroom.fresh, by omega, by omega⟩ hroom.bit_lt a.truthy).mono
      subset_rfl fun m _ hm v' _ hv' => ?_
    simp only [boolType, hm v' hv', Bind.bind, Except.bind, Pure.pure, Except.pure]

def Codec.uint64 : Codec (uint64Type k) (uint64Type k) where
  Valid a := a.isNil = false ∧ ∃ n, a.toBigInt = .ok n
  norm a := .bigint (a.toBigInt.toOption.getD 0 % 2 ^ 64)
  size _ := 0
  dvd_size _ := dvd_zero 8
  isBool := rfl
  arrayElementSize := rfl
  isNil h := h.1
  isNull_norm _ := rfl
  pointed _ _ := rfl
  puts := by
    rintro a v offset bit msg ⟨-, n, hn⟩ hroom nullable
    obtain rfl := hroom.bit_eq rfl
    simp only [uint64Type, hn]
    refine (puts_setUint64 (hroom.slot rfl rfl) n).mono subset_rfl fun m _ hm v' _ hv' => ?_
    have hnonneg : 0 ≤ n % 2 ^ 64 := by omega
    simp only [getUint64_of_halves (hm v' hv'), Bind.bind, Except.bind, Pure.pure, Except.pure,
      Except.toOption, Option.getD_some, Int.toNat_of_nonneg hnonneg]

def Codec.int64 : Codec (int64Type k) (int64Type k) where
  Valid a := a.isNil = false ∧ ∃ n, a.toBigInt = .ok n
  norm a := .bigint ((a.toBigInt.toOption.getD 0).bmod (2 ^ 64))
  size _ := 0
  dvd_size _ := dvd_zero 8
  isBool := rfl
  arrayElementSize := rfl
  isNil h := h.1
  isNull_norm _ := rfl
  pointed _ _ := rfl
  puts := by
    rintro a v offset bit msg ⟨-, n, hn⟩ hroom nullable
    obtain rfl := hroom.bit_eq rfl
    simp only [int64Type, hn]
    refine (puts_setUint64 (hroom.slot rfl rfl) n).mono subset_rfl fun m _ hm v' _ hv' => ?_
    obtain ⟨hlo, hhi⟩ := hm v' hv'
    have hhi : v'.getInt k m (if k then offset + 4 else offset) 4 =
        .ok ((n / 2 ^ 32).bmod (256 ^ 4)) := getInt_of_getUint hhi
    have hsum : (n / 2 ^ 32).bmod (256 ^ 4) * 2 ^ 32 + (n % 2 ^ 32).toNat = n.bmod (2 ^ 64) := by
      rw [Int.bmod, Int.bmod]
      omega
    cases k <;> simp_all [Bind.bind, Except.bind, Pure.pure, Except.pure, Except.toOption]

/-! ## Arrays -/

theorem isNull_of_isNil {a : Val} (h : a.isNil = false) : a.isNull = false := by
  cases a <;> first | rfl | cases h

theorem inlineArraySize_eq (hbool : t.isBool = false) {d : Bool} (length : ℕ) :
    inlineArraySize ⟨t, d⟩ length = (8 + length * t.arrayElementSize : ℕ) := by
  rw [inlineArraySize, hbool, if_neg Bool.false_ne_true]
  push_cast
  rfl

/-- What is encoded of an array of anything but booleans. -/
theorem encodeArray_eq (hbool : t.isBool = false) {d : Bool} (vs : List Val) :
    encodeArray k ⟨t, d⟩ v offset vs msg = (do
      let (g, msg) ← allocate (8 + vs.length * t.arrayElementSize : ℕ) msg
      let msg ← v.encodeOffset k offset g.byteOffset msg
      let msg ← g.encodeUint32 k 0 (8 + vs.length * t.arrayElementSize : ℕ) msg
      let msg ← g.encodeUint32 k 4 vs.length msg
      encodeElements ⟨t, d⟩ g vs 8 msg) := by
  rw [encodeArray, inlineArraySize_eq hbool]
  simp only [hbool, Bool.false_eq_true, if_false]

section Array

variable (c : Codec t r) (hbool : t.isBool = false) {d e : Bool}

include hbool

/-- The elements follow each other, and so does what they point to. -/
theorem Codec.puts_elements {g : View} : ∀ {vs : List Val} {offset : ℕ} {msg : Message},
    (∀ a ∈ vs, c.Valid a) → msg.Slot g offset (vs.length * t.arrayElementSize) →
    msg.Space (vs.map c.size).sum →
    Puts msg (encodeElements ⟨t, d⟩ g vs offset msg)
      (g.slot offset 0 (8 * (vs.length * t.arrayElementSize))) (vs.map c.size).sum fun m =>
        ∀ v', g.Extends v' →
          decodeElements ⟨r, e⟩ m v' vs.length offset = .ok (vs.map c.norm)
  | [], _, _, _, hslot, _ => puts_ok hslot.fresh fun _ _ _ _ _ => rfl
  | a :: vs, offset, msg, hvalid, hslot, hspace => by
    have ha := hvalid a (.head _)
    have hlength : (a :: vs).length * t.arrayElementSize =
        t.arrayElementSize + vs.length * t.arrayElementSize := by
      rw [List.length_cons, Nat.succ_mul, Nat.add_comm]
    have hinside := hslot.inside
    have hallocated := hslot.allocated
    have hroom := hspace.room
    have hbits := MojomType.bits_eq hbool
    rw [List.map_cons, List.sum_cons] at hspace hroom
    have hroom' : t.Room g offset 0 (c.size a) msg :=
      { fresh := hslot.fresh, room := by omega, small := hspace.small, inside := by omega,
        allocated := by omega, bit_lt := by omega, bit_eq := fun _ => rfl }
    have hslot' : ∀ msg', msg.Writes (g.slot offset 0 t.bits) (c.size a) msg' →
        msg'.Slot g (offset + t.arrayElementSize) (vs.length * t.arrayElementSize) :=
      fun _ hw => hw.slot hslot (by omega)
    simp only [encodeElements, isNull_of_isNil (c.isNil ha), Bool.false_eq_true, if_false,
      pure_bind, List.map_cons, List.sum_cons]
    refine ((c.puts ha hroom' d).bind (fun msg' hw => Codec.puts_elements
      (fun b hb => hvalid b (.tail _ hb)) (hslot' msg' hw) (hw.space hspace le_rfl))
      (g.disjoint_slot (by omega)) (g.slot_subset (by omega) (by omega))
      (g.slot_subset (by omega) (by omega)) hslot.subset rfl).mono subset_rfl
      fun m _ hread v' hv' => ?_
    have hnull := c.isNull_norm ha
    simp [decodeElements, hread.1 v' _ hv', hread.2 v' hv', hnull, Bind.bind, Except.bind,
      Pure.pure, Except.pure, c.arrayElementSize]

/-- What an array makes room for. -/
theorem Codec.totalArraySize_eq {vs : List Val} (hvalid : ∀ a ∈ vs, c.Valid a) :
    totalArraySize ⟨t, d⟩ vs =
      .ok (8 + vs.length * t.arrayElementSize + (vs.map c.size).sum : ℕ) := by
  cases hdim : t.dimensions with
  | none =>
    -- The elements point to nothing.
    have hsize : ∀ a ∈ vs, c.size a = 0 := fun a ha => by
      have hpointed := c.pointed (hvalid a ha) d
      rw [MojomType.pointed, hdim] at hpointed
      exact Int.natCast_eq_zero.1 (Except.ok.inj hpointed).symm
    rw [totalArraySize, hdim, List.map_congr_left hsize]
    simp [inlineArraySize_eq hbool]
  | some dimensions =>
    have helements : ∀ vs : List Val, (∀ a ∈ vs, c.Valid a) →
        elementsSize dimensions d vs = .ok ((vs.map c.size).sum : ℕ) := by
      intro vs hvalid
      induction vs with
      | nil => rfl
      | cons a vs ih =>
        have ha := hvalid a (.head _)
        have hpointed := c.pointed ha d
        rw [MojomType.pointed, hdim] at hpointed
        simp only at hpointed
        simp only [elementsSize, c.isNil ha, Bool.false_eq_true, if_false, hpointed,
          ih fun b hb => hvalid b (.tail _ hb), List.map_cons, List.sum_cons, Nat.cast_add]
        rfl
    rw [totalArraySize, hdim, inlineArraySize_eq hbool, Nat.cast_add]
    simp only [helements vs hvalid]
    rfl

/-- An array, and the pointer to it. -/
theorem Codec.puts_encodeArray {vs : List Val} (hvalid : ∀ a ∈ vs, c.Valid a)
    (hlength : vs.length < 2 ^ 32) (hslot : msg.Slot v offset 8)
    (hspace : msg.Space
      (padded (8 + vs.length * t.arrayElementSize + (vs.map c.size).sum))) :
    Puts msg (encodeArray k ⟨t, d⟩ v offset vs msg) (v.slot offset 0 64)
      (padded (8 + vs.length * t.arrayElementSize + (vs.map c.size).sum)) fun m =>
        ∀ v', v.Extends v' →
          decodeArray k ⟨r, e⟩ m v' offset = .ok (some (vs.map c.norm)) := by
  have hdvd : 8 ∣ (vs.map c.size).sum := List.dvd_sum fun n hn => by
    obtain ⟨a, -, rfl⟩ := List.mem_map.1 hn
    exact c.dvd_size a
  rw [padded_add_of_dvd _ hdvd] at hspace ⊢
  have hle := le_padded (8 + vs.length * t.arrayElementSize)
  rw [encodeArray_eq hbool]
  refine (puts_object (k := k) hslot hspace (f := fun g msg => do
    let msg ← g.encodeUint32 k 0 (8 + vs.length * t.arrayElementSize : ℕ) msg
    let msg ← g.encodeUint32 k 4 vs.length msg
    encodeElements ⟨t, d⟩ g vs 8 msg) fun g msg' hg hobject =>
      puts_header hobject (by omega) fun msg₂ hobject₂ =>
        (c.puts_elements (e := e) hbool hvalid
          (hobject₂.slot (by omega)) hobject₂.toSpace).mono (g.slot_subset (by omega) (by omega))
          fun _ _ => id).mono subset_rfl ?_
  rintro m - ⟨g, w, ⟨hsize, hlen, helements⟩, hw, hpointer⟩ v' hv'
  obtain ⟨o, ho, hne, hview⟩ := hpointer v' hv'
  have hlen' : ((vs.length : ℤ) % 256 ^ 4).toNat = vs.length := by omega
  have hr : r.isBool = false := c.isBool.trans hbool
  simp only [decodeArray, ho, hview, hsize w hw, hlen w hw, hlen', helements w hw, hr, if_neg hne,
    Bind.bind, Except.bind, Pure.pure, Except.pure, Bool.false_eq_true, if_false]

end Array

/-- An array of anything but booleans. -/
def Codec.array (c : Codec t r) (hbool : t.isBool = false) (d e : Bool) :
    Codec (arrayType k t d) (arrayType k r e) where
  Valid a := ∃ vs, a = .array vs ∧ vs.length < 2 ^ 32 ∧ ∀ b ∈ vs, c.Valid b
  norm
    | .array vs => .array (vs.map c.norm)
    | a => a
  size
    | .array vs => padded (8 + vs.length * t.arrayElementSize + (vs.map c.size).sum)
    | _ => 0
  dvd_size a := by
    cases a <;> first | exact dvd_padded _ | exact dvd_zero 8
  isBool := rfl
  arrayElementSize := rfl
  isNil := by
    rintro _ ⟨vs, rfl, -⟩
    rfl
  isNull_norm := by
    rintro _ ⟨vs, rfl, -⟩
    rfl
  pointed := by
    rintro _ ⟨vs, rfl, -, hvalid⟩ nullable
    simp only [MojomType.pointed, arrayType, c.totalArraySize_eq hbool hvalid]
    exact congrArg Except.ok (align_natCast _)
  puts := by
    rintro _ v offset bit msg ⟨vs, rfl, hlength, hvalid⟩ hroom nullable
    obtain rfl := hroom.bit_eq rfl
    refine (c.puts_encodeArray (e := e) hbool hvalid hlength (hroom.slot rfl rfl)
      hroom.toSpace).mono subset_rfl fun m _ hm v' _ hv' => ?_
    simp only [arrayType, hm v' hv']
    rfl

theorem Codec.nullable_array (d e : Bool) : Codec.Nullable (arrayType k t d) (arrayType k r e) where
  isBool := rfl
  encodeNull _ _ _ := rfl
  decode := by
    intro m v offset hinside hzero nullable
    have hbits : (arrayType k t d).bits = 64 := rfl
    simp only [arrayType, decodeArray,
      decodeOffset_of_zero (k := k) (by omega : offset + 8 ≤ v.byteLength) hzero]
    rfl

/-! ## Strings -/

theorem valid_byteVals (bs : List UInt8) :
    ∀ a ∈ byteVals bs, (Codec.uint (k := k) 1).Valid a := by
  intro a ha
  obtain ⟨b, -, rfl⟩ := List.mem_map.1 ha
  exact ⟨rfl, _, rfl⟩

theorem toBytes_byteVals (bs : List UInt8) :
    toBytes ((byteVals bs).map (Codec.uint (k := k) 1).norm) = bs := by
  have hbyte : ∀ b : UInt8, UInt8.ofNat ((b.toNat : ℤ) % 256 ^ 1 % 256).toNat = b := fun b => by
    have hlt := b.toNat_lt
    have htoNat : ((b.toNat : ℤ) % 256 ^ 1 % 256).toNat = b.toNat := by omega
    rw [htoNat, UInt8.ofNat_toNat]
  rw [toBytes, byteVals, List.map_map, List.map_map]
  exact (List.map_congr_left fun b _ => hbyte b).trans (List.map_id bs)

/-- The bytes of a string point to nothing. -/
theorem byteVals_size (bs : List UInt8) :
    8 + (byteVals bs).length * (uintType k 1).arrayElementSize +
      ((byteVals bs).map (Codec.uint (k := k) 1).size).sum = 8 + bs.length := by
  have hsize : (byteVals bs).map (Codec.uint (k := k) 1).size = List.replicate bs.length 0 := by
    rw [byteVals, List.map_map]
    exact List.map_const'
  rw [hsize]
  simp [byteVals, uintType]

/-- Of a string, what its encoding stands for comes out. -/
def Codec.string (x : Text) : Codec (stringType k x) (stringType k x) where
  Valid a := ∃ s, a = .string s ∧ (x.encode s).length < 2 ^ 32
  norm
    | .string s => .string (x.decode (x.encode s))
    | a => a
  size
    | .string s => padded (8 + (x.encode s).length)
    | _ => 0
  dvd_size a := by
    cases a <;> first | exact dvd_padded _ | exact dvd_zero 8
  isBool := rfl
  arrayElementSize := rfl
  isNil := by
    rintro _ ⟨s, rfl, -⟩
    rfl
  isNull_norm := by
    rintro _ ⟨s, rfl, -⟩
    rfl
  pointed := by
    rintro _ ⟨s, rfl, -⟩ nullable
    have htotal := (Codec.uint (k := k) 1).totalArraySize_eq (d := false) rfl
      (valid_byteVals (x.encode s))
    rw [byteVals_size] at htotal
    refine (congrArg (align <$> ·) htotal).trans ?_
    exact congrArg Except.ok (align_natCast _)
  puts := by
    rintro _ v offset bit msg ⟨s, rfl, hlength⟩ hroom nullable
    obtain rfl := hroom.bit_eq rfl
    have hslot : msg.Slot v offset 8 := hroom.slot rfl rfl
    have hputs := (Codec.uint (k := k) 1).puts_encodeArray (k := k) (d := false) (e := false) rfl
      (valid_byteVals (x.encode s)) (by simpa [byteVals] using hlength) hslot
      (by rw [byteVals_size]; exact hroom.toSpace)
    rw [byteVals_size] at hputs
    refine hputs.mono subset_rfl fun m _ hm v' _ hv' => ?_
    simp only [stringType, stringSpec, hm v' hv']
    exact congrArg (fun bs => Except.ok (Val.string (x.decode bs))) (toBytes_byteVals _)

theorem Codec.nullable_string (x : Text) : Codec.Nullable (stringType k x) (stringType k x) where
  isBool := rfl
  encodeNull _ _ _ := rfl
  decode := by
    intro m v offset hinside hzero nullable
    have hbits : (stringType k x).bits = 64 := rfl
    simp only [stringType, decodeArray,
      decodeOffset_of_zero (k := k) (by omega : offset + 8 ≤ v.byteLength) hzero]
    rfl

end Qlabs.Bindings
