import Qlabs.Bindings.RoundTrip

/-!
# Arrays of booleans

The size of an array of booleans, `8+b.length+7>>3`, is not what its elements take: the sum
is made before the shift, so that the eight bytes of the header count as one. What is
allocated is a multiple of eight bytes, though, and so it is enough for some lengths; for
all others, encoding the elements runs out of the view (`encodeArray_bool`). For the greatest
lengths the shift, which takes 32 bits with a sign, makes the size negative, or next to nothing.
-/

namespace Qlabs.Bindings

variable {k : Bool} {msg : Message} {v : View} {offset : ℕ} {d e : Bool}

/-- The lengths for which what is allocated is enough. -/
def BoolArray.Fits (length : ℕ) : Prop := length < 2 ^ 31 - 15 ∧ (length + 7) / 8 % 8 = 0

instance : DecidablePred BoolArray.Fits := fun _ => inferInstanceAs (Decidable (_ ∧ _))

/-- Of a number that has no more than 31 bits, the shift takes all. -/
theorem shiftRight_natCast {n : ℕ} (h : n < 2 ^ 31) : shiftRight n 3 = (n / 8 : ℕ) := by
  have hn : toInt32 n = n := Int.bmod_eq_of_le_mul_two (by omega) (by omega)
  rw [shiftRight, hn]
  omega

theorem inlineArraySize_bool {length : ℕ} (h : length < 2 ^ 31 - 15) :
    inlineArraySize ⟨boolType, d⟩ length = ((length + 15) / 8 : ℕ) := by
  have hsum : (8 + length + 7 : ℤ) = (length + 15 : ℕ) := by omega
  rw [inlineArraySize, boolType, if_pos rfl, hsum, shiftRight_natCast (by omega)]

/-- The sign of a greater length is that of its greatest bit. -/
theorem inlineArraySize_bool_le {length : ℕ} (h : 2 ^ 31 - 15 ≤ length) (h' : length < 2 ^ 32) :
    inlineArraySize ⟨boolType, d⟩ length ≤ 1 := by
  rw [inlineArraySize, boolType, if_pos rfl, shiftRight, toInt32, Int.bmod]
  split_ifs <;> omega

theorem align_lt (a : ℤ) : align a < a + 8 := by
  have hlt := Int.tmod_lt_of_pos (8 - a.tmod 8) (b := 8) (by decide)
  rw [align]
  omega

/-- The elements are within what is allocated if, and only if, the length fits. -/
theorem BoolArray.fits_iff {length : ℕ} (h : length < 2 ^ 32) : BoolArray.Fits length ↔
    64 + length ≤ 8 * align (inlineArraySize ⟨boolType, d⟩ length) := by
  rw [BoolArray.Fits]
  by_cases hlength : length < 2 ^ 31 - 15
  · rw [inlineArraySize_bool hlength, align_natCast, padded]
    omega
  · have hsize := inlineArraySize_bool_le (d := d) (Nat.not_lt.1 hlength) h
    have halign := align_lt (inlineArraySize ⟨boolType, d⟩ length)
    omega

/-- The next bit is the one of the next element. -/
theorem encodeBits_cons (a : Val) (as : List Val) (i : ℕ) :
    encodeBits v (a :: as) (8 + i / 8) (i % 8) msg =
      v.encodeBit (8 + i / 8) (i % 8) a.truthy msg >>=
        encodeBits v as (8 + (i + 1) / 8) ((i + 1) % 8) := by
  by_cases hbit : i % 8 + 1 = 8
  · have hoffset : 8 + i / 8 + 1 = 8 + (i + 1) / 8 := by omega
    have hzero : 0 = (i + 1) % 8 := by omega
    simp only [encodeBits, if_pos hbit, hoffset, ← hzero]
  · have hoffset : 8 + i / 8 = 8 + (i + 1) / 8 := by omega
    have hnext : i % 8 + 1 = (i + 1) % 8 := by omega
    simp only [encodeBits, if_neg hbit, ← hoffset, ← hnext]

/-- The elements from the `i`th on, within the view. -/
theorem puts_encodeBits : ∀ {as : List Val} {i : ℕ} {msg : Message}, msg.Fresh →
    v.byteOffset + v.byteLength ≤ msg.next → 64 + i + as.length ≤ 8 * v.byteLength →
    i + as.length < 2 ^ 31 →
    Puts msg (encodeBits v as (8 + i / 8) (i % 8) msg) (v.slot 8 i as.length) 0 fun m =>
      ∀ v', v.Extends v' → decodeBits m v' as.length i = .ok (as.map fun a => .bool a.truthy)
  | [], _, _, hfresh, _, _, _ => puts_ok hfresh fun _ _ _ _ _ => rfl
  | a :: as, i, msg, hfresh, hallocated, hinside, hlength => by
    rw [List.length_cons] at hinside hlength
    rw [encodeBits_cons]
    have hslot : msg.Slot v (8 + i / 8) 1 := ⟨hfresh, by omega, by omega⟩
    refine ((puts_encodeBit hslot (Nat.mod_lt i (by decide)) a.truthy).bind (fun msg' hw =>
      puts_encodeBits (i := i + 1) hw.fresh (by rw [hw.next]; omega) (by omega) (by omega))
      (v.disjoint_slot (by omega)) (v.slot_subset (by omega) (by rw [List.length_cons]; omega))
      (v.slot_subset (by omega) (by rw [List.length_cons]; omega))
      (fun n hn => lt_of_lt_of_le hn.2 (by rw [List.length_cons]; omega)) rfl).mono subset_rfl ?_
    rintro m - ⟨hfirst, hrest⟩ v' hv'
    have hoffset : 8 + shiftRight (i : ℤ) 3 = (8 + i / 8 : ℕ) := by
      rw [shiftRight_natCast (by omega)]
      omega
    rw [List.length_cons, decodeBits, hoffset, hfirst v' hv']
    simp only [hrest v' hv', Bind.bind, Except.bind, Pure.pure, Except.pure, List.map_cons]

/-- Where the elements do not fit, the view is left. -/
theorem encodeBits_eq_rangeError : ∀ {as : List Val} {i : ℕ} {msg : Message}, as ≠ [] →
    8 * v.byteLength < 64 + i + as.length →
    encodeBits v as (8 + i / 8) (i % 8) msg = .error .rangeError
  | [], _, _, has, _ => absurd rfl has
  | a :: as, i, msg, _, hlong => by
    rw [List.length_cons] at hlong
    rw [encodeBits_cons]
    by_cases hinside : 8 + i / 8 + 1 ≤ v.byteLength
    · have has : as ≠ [] := by
        rintro rfl
        rw [List.length_nil] at hlong
        omega
      rw [View.encodeBit, if_pos hinside]
      exact encodeBits_eq_rangeError has (by omega)
    · rw [View.encodeBit, if_neg hinside]
      rfl

/-- A pointer can be written to any slot within the view. -/
theorem exists_encodeOffset (h : offset + 8 ≤ v.byteLength) (target : ℕ) (msg : Message) :
    ∃ msg', v.encodeOffset k offset target msg = .ok msg' := by
  have hfirst : offset + 4 ≤ v.byteLength := by omega
  have hsecond : offset + 4 + 4 ≤ v.byteLength := by omega
  cases k <;> exact ⟨_, by
    simp only [View.encodeOffset, View.setUint64, View.setInt, if_pos hfirst, if_pos hsecond,
      Bool.false_eq_true, if_true, if_false]
    rfl⟩

/-- What is encoded of an array of booleans, without the choice of the loop. -/
theorem encodeArray_bool_eq (as : List Val) :
    encodeArray k ⟨boolType, d⟩ v offset as msg = (do
      let (g, msg) ← allocate (inlineArraySize ⟨boolType, d⟩ as.length) msg
      let msg ← v.encodeOffset k offset g.byteOffset msg
      let msg ← g.encodeUint32 k 0 (inlineArraySize ⟨boolType, d⟩ as.length) msg
      let msg ← g.encodeUint32 k 4 as.length msg
      encodeBits g as 8 0 msg) := rfl

/-- Arrays of booleans of these lengths are encoded, and decoded. -/
theorem puts_encodeArray_bool {as : List Val} (hfits : BoolArray.Fits as.length)
    (hslot : msg.Slot v offset 8) (hspace : msg.Space (padded ((as.length + 15) / 8))) :
    Puts msg (encodeArray k ⟨boolType, d⟩ v offset as msg) (v.slot offset 0 64)
      (padded ((as.length + 15) / 8)) fun m => ∀ v', v.Extends v' →
        decodeArray k ⟨boolType, e⟩ m v' offset = .ok (some (as.map fun a => .bool a.truthy)) := by
  have hlength := hfits.1
  rw [BoolArray.fits_iff (d := d) (by omega), inlineArraySize_bool hlength, align_natCast] at hfits
  rw [encodeArray_bool_eq, inlineArraySize_bool hlength]
  refine (puts_object (k := k) (n := 0) hslot hspace (f := fun g msg => do
    let msg ← g.encodeUint32 k 0 ((as.length + 15) / 8 : ℕ) msg
    let msg ← g.encodeUint32 k 4 as.length msg
    encodeBits g as 8 0 msg) fun g msg' hg hobject =>
      puts_header hobject (by omega) fun msg₂ hobject₂ =>
        (puts_encodeBits (i := 0) hobject₂.fresh hobject₂.allocated (by omega) (by omega)).mono
          (g.slot_subset (by omega) (by omega)) fun _ _ => id).mono subset_rfl ?_
  rintro m - ⟨g, w, ⟨hsize, hlen, hbits⟩, hw, hpointer⟩ v' hv'
  obtain ⟨o, ho, hne, hview⟩ := hpointer v' hv'
  have hlen' : ((as.length : ℤ) % 256 ^ 4).toNat = as.length := by omega
  simp only [decodeArray, ho, hview, hsize w hw, hlen w hw, hlen', hbits w hw, if_neg hne,
    Bind.bind, Except.bind, Pure.pure, Except.pure, boolType, if_true]

/-- Where the elements are not within what is allocated, a view is left: by the header already,
    or else by an element; or there is no such view. -/
theorem encodeArray_bool_eq_rangeError {as : List Val} (has : as ≠ [])
    (hlong : 8 * align (inlineArraySize ⟨boolType, d⟩ as.length) < 64 + as.length)
    (hslot : offset + 8 ≤ v.byteLength) :
    encodeArray k ⟨boolType, d⟩ v offset as msg = .error .rangeError := by
  rw [encodeArray_bool_eq]
  generalize inlineArraySize ⟨boolType, d⟩ as.length = size at hlong ⊢
  rw [allocate]
  split_ifs with hroom
  · let g : View := ⟨msg.next, (align size).toNat⟩
    have hg : (g.byteLength : ℤ) = align size := Int.toNat_of_nonneg hroom.1
    have hset : ∀ (o : ℕ) (a : ℤ) (msg : Message), g.encodeUint32 k o a msg = .error .rangeError ∨
        ∃ msg', g.encodeUint32 k o a msg = .ok msg' := fun o a msg => by
      rw [View.encodeUint32, View.setInt]
      split_ifs
      · exact .inr ⟨_, rfl⟩
      · exact .inl rfl
    have hbits : ∀ msg, encodeBits g as 8 0 msg = .error .rangeError := fun msg =>
      encodeBits_eq_rangeError (i := 0) has (by omega)
    obtain ⟨msg₁, hmsg₁⟩ := exists_encodeOffset (k := k) hslot g.byteOffset
      { msg with next := msg.next + (align size).toNat }
    have hbind : ∀ {x : Js Message} {f : Message → Js Message},
        (∀ msg, f msg = .error .rangeError) → (x = .error .rangeError ∨ ∃ msg', x = .ok msg') →
          x >>= f = .error .rangeError := by
      rintro _ f hf (rfl | ⟨msg', rfl⟩)
      · rfl
      · exact hf msg'
    exact hbind (fun msg => hbind (fun msg => hbind hbits (hset 4 as.length msg)) (hset 0 size msg))
      (.inr ⟨msg₁, hmsg₁⟩)
  · rfl

/-- Of an array of booleans of one of these lengths, conditions come out. -/
def Codec.boolArray (d e : Bool) : Codec (arrayType k boolType d) (arrayType k boolType e) where
  Valid a := ∃ as, a = .array as ∧ BoolArray.Fits as.length
  norm
    | .array as => .array (as.map fun a => .bool a.truthy)
    | a => a
  size
    | .array as => padded ((as.length + 15) / 8)
    | _ => 0
  dvd_size a := by
    cases a <;> first | exact dvd_padded _ | exact dvd_zero 8
  isBool := rfl
  arrayElementSize := rfl
  isNil := by
    rintro _ ⟨as, rfl, -⟩
    rfl
  isNull_norm := by
    rintro _ ⟨as, rfl, -⟩
    rfl
  pointed := by
    rintro _ ⟨as, rfl, hfits⟩ nullable
    have hsize := congrArg align (inlineArraySize_bool (d := d) hfits.1)
    rw [align_natCast] at hsize
    exact congrArg Except.ok hsize
  puts := by
    rintro _ v offset bit msg ⟨as, rfl, hfits⟩ hroom nullable
    obtain rfl := hroom.bit_eq rfl
    refine (puts_encodeArray_bool (e := e) hfits (hroom.slot rfl rfl) hroom.toSpace).mono subset_rfl
      fun m _ hm v' _ hv' => ?_
    simp only [arrayType, hm v' hv']
    rfl

/-- An array of booleans is encoded if its length fits, and decoded then; for any other
    length it is not, though there be room for what has been computed. -/
theorem encodeArray_bool {as : List Val} (hlength : as.length < 2 ^ 32)
    (hslot : msg.Slot v offset 8)
    (hspace : msg.Space (align (inlineArraySize ⟨boolType, d⟩ as.length)).toNat) :
    if BoolArray.Fits as.length then
      Puts msg (encodeArray k ⟨boolType, d⟩ v offset as msg) (v.slot offset 0 64)
        (align (inlineArraySize ⟨boolType, d⟩ as.length)).toNat fun m => ∀ v', v.Extends v' →
          decodeArray k ⟨boolType, e⟩ m v' offset = .ok (some (as.map fun a => .bool a.truthy))
    else encodeArray k ⟨boolType, d⟩ v offset as msg = .error .rangeError := by
  split_ifs with hfits
  · rw [inlineArraySize_bool hfits.1, align_natCast, Int.toNat_natCast] at hspace ⊢
    exact puts_encodeArray_bool hfits hslot hspace
  · have has : as ≠ [] := by
      rintro rfl
      exact hfits ⟨by decide, rfl⟩
    exact encodeArray_bool_eq_rangeError has
      (not_le.1 ((BoolArray.fits_iff hlength).not.1 hfits)) hslot.inside

/-- A message whose structure has been allocated, with room for an array. -/
def messageWithRoom (room : ℕ) : Message := ⟨.zero (40 + room), 40⟩

/-- Of 64 booleans, what is allocated is enough for all. But three booleans take one byte behind
    the header of their array, for which there are none. -/
theorem encodeArray_bool_lengths :
    (Puts (messageWithRoom 16)
      (encodeArray true ⟨boolType, false⟩ ⟨24, 16⟩ 8 (.replicate 64 (.bool true))
        (messageWithRoom 16)) (View.slot ⟨24, 16⟩ 8 0 64) 16 fun m =>
        ∀ v', View.Extends ⟨24, 16⟩ v' → decodeArray true ⟨boolType, false⟩ m v' 8 =
          .ok (some (.replicate 64 (.bool true)))) ∧
    encodeArray true ⟨boolType, false⟩ ⟨24, 16⟩ 8 [.bool true, .bool false, .bool true]
      (messageWithRoom 8) = .error .rangeError := by
  have hfresh : ∀ room, (messageWithRoom room).Fresh := fun _ _ _ => Nat.zero_testBit _
  have hslot : ∀ room, (messageWithRoom room).Slot ⟨24, 16⟩ 8 8 := fun room =>
    ⟨hfresh room, by decide, le_rfl⟩
  constructor
  · have hlength : (List.replicate 64 (Val.bool true)).length < 2 ^ 32 := by decide
    have h := encodeArray_bool (k := true) (d := false) (e := false) hlength (hslot 16)
      ⟨hfresh 16, by decide, by decide⟩
    rwa [if_pos (by decide)] at h
  · have hlength : [Val.bool true, .bool false, .bool true].length < 2 ^ 32 := by decide
    have h := encodeArray_bool (k := true) (d := false) (e := false) hlength (hslot 8)
      ⟨hfresh 8, by decide, by decide⟩
    rwa [if_neg (by decide)] at h

end Qlabs.Bindings
