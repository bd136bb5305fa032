import Qlabs.Bindings.Codec
import Qlabs.Bindings.Control

/-!
# Structures of different versions, and messages

A structure is sent in the version of the sender and received in that of the receiver, who
may know of fewer fields, or of more: `StructCodec` says when the two go together, and what
is received then. `Codec.struct` makes a type of it, so that structures may contain others;
`StructCodec.closedEvent` is an example.

The main result is about messages: what the receiver of a message makes of it is what went
into it, header and structure, whatever else was written to the buffer in between.
-/

namespace Qlabs.Bindings

variable {k : Bool} {msg : Message} {n : ℕ}

/-! ## Fields -/

/-- A field as it is sent, and the type that it is received as. -/
structure SentField where
  field : StructField
  reader : MojomType
  codec : Codec field.type reader
  bit_lt : field.packedBitOffset < 8
  bit_eq : field.type.isBool = false → field.packedBitOffset = 0
  nullable : field.nullable = true → Codec.Nullable field.type reader

/-- The first bit of the field, in its structure. -/
def StructField.firstBit (f : StructField) : ℕ := 8 * (8 + f.packedOffset) + f.packedBitOffset

/-- The first bit behind the field. -/
def StructField.lastBit (f : StructField) : ℕ := f.firstBit + f.type.bits

/-- The bits of the field. -/
def StructField.slot (f : StructField) (g : View) : Set ℕ :=
  g.slot (8 + f.packedOffset) f.packedBitOffset f.type.bits

/-- The fields do not overlap. -/
def StructField.Apart (f f' : StructField) : Prop :=
  f.lastBit ≤ f'.firstBit ∨ f'.lastBit ≤ f.firstBit

theorem StructField.Apart.disjoint {f f' : StructField} (h : f.Apart f') (g : View) :
    Disjoint (f.slot g) (f'.slot g) := by
  simp only [StructField.Apart, StructField.lastBit, StructField.firstBit] at h
  rcases h with h | h
  · exact g.disjoint_slot h
  · exact (g.disjoint_slot h).symm

namespace SentField

variable (s : SentField) (c : Val)

/-- What is sent: the property of the object, be it an inherited one, or else the default. -/
def value : Val :=
  if (c.property s.field.name).isNil then s.field.defaultValue else c.property s.field.name

/-- What is received. -/
def norm : Val := if (s.value c).isNull then .null else s.codec.norm (s.value c)

def size : ℕ := if (s.value c).isNull then 0 else s.codec.size (s.value c)

/-- The property can be sent, or is missing from where it may. -/
def Valid : Prop :=
  s.codec.Valid (s.value c) ∨ (s.value c).isNull = true ∧ s.field.nullable = true

end SentField

theorem isNil_of_isNull {a : Val} (h : a.isNull = true) : a.isNil = true := by
  cases a <;> first | rfl | cases h

/-- The choice of what is encoded. -/
theorem encodeField_object (name : String) (g : View) (fs : List (String × Val)) (d : StructField) :
    encodeField name g (.object fs) d msg =
      if !((Val.object fs).property d.name).isNil then
        d.type.encode ((Val.object fs).property d.name) g (8 + d.packedOffset) d.packedBitOffset
          d.nullable msg
      else if !d.defaultValue.isNull then
        d.type.encode d.defaultValue g (8 + d.packedOffset) d.packedBitOffset d.nullable msg
      else if d.nullable then d.type.callEncodeNull g (8 + d.packedOffset) msg
      else .error (.error
        (name ++ " missing value for non-nullable field \"" ++ d.name ++ "\"")) := rfl

/-- A value that can be sent is encoded, be it the property or the default. -/
theorem encodeField_of_valid {s : SentField} {fs : List (String × Val)} (name : String) (g : View)
    (h : s.codec.Valid (s.value (.object fs))) :
    encodeField name g (.object fs) s.field msg = s.field.type.encode (s.value (.object fs)) g
      (8 + s.field.packedOffset) s.field.packedBitOffset s.field.nullable msg := by
  have hnull := isNull_of_isNil (s.codec.isNil h)
  rw [encodeField_object]
  cases hget : ((Val.object fs).property s.field.name).isNil with
  | false => simp [SentField.value, hget]
  | true =>
    rw [SentField.value, hget, if_pos rfl] at hnull
    simp [SentField.value, hget, hnull]

/-- Where there is nothing to be sent, null is encoded. -/
theorem encodeField_of_null {s : SentField} {fs : List (String × Val)} (name : String) (g : View)
    (h : (s.value (.object fs)).isNull = true) (hnullable : s.field.nullable = true) :
    encodeField name g (.object fs) s.field msg = .ok msg := by
  have hcall := (s.nullable hnullable).encodeNull g (8 + s.field.packedOffset) msg
  rw [encodeField_object]
  cases hget : ((Val.object fs).property s.field.name).isNil with
  | false =>
    rw [SentField.value, hget, if_neg Bool.false_ne_true] at h
    rw [isNil_of_isNull h] at hget
    cases hget
  | true =>
    rw [SentField.value, hget, if_pos rfl] at h
    simp [h, hnullable, hcall]

/-- A field of an object is encoded as the value that stands for it. -/
theorem puts_encodeField {s : SentField} {fs : List (String × Val)} {g : View} (name : String)
    (hvalid : s.Valid (.object fs)) (hinside : s.field.lastBit ≤ 8 * g.byteLength)
    (hspace : msg.Space (s.size (.object fs))) (hallocated : g.byteOffset + g.byteLength ≤ msg.next)
    (hzero : ∀ i ∈ s.field.slot g, msg.buffer.bit i = false) :
    Puts msg (encodeField name g (.object fs) s.field msg) (s.field.slot g)
      (s.size (.object fs)) fun m => ∀ w nullable, g.Extends w →
        s.reader.decode m w (8 + s.field.packedOffset) s.field.packedBitOffset nullable =
          .ok (s.norm (.object fs)) := by
  rw [StructField.lastBit, StructField.firstBit] at hinside
  rcases hvalid with hvalid | ⟨hnull, hnullable⟩
  · have hnull := isNull_of_isNil (s.codec.isNil hvalid)
    have hsize : s.size (.object fs) = s.codec.size (s.value (.object fs)) := by
      simp [SentField.size, hnull]
    have hnorm : s.norm (.object fs) = s.codec.norm (s.value (.object fs)) := by
      simp [SentField.norm, hnull]
    rw [hsize] at hspace ⊢
    rw [encodeField_of_valid name g hvalid, hnorm]
    refine (s.codec.puts hvalid ?_ s.field.nullable).mono subset_rfl fun m _ hm w e hw => hm w e hw
    exact { toSpace := hspace, inside := hinside, allocated := by omega, bit_lt := s.bit_lt,
            bit_eq := s.bit_eq }
  · have hnorm : s.norm (.object fs) = .null := by simp [SentField.norm, hnull]
    have hsize : s.size (.object fs) = 0 := by simp [SentField.size, hnull]
    have hlaw := s.nullable hnullable
    have hbit := s.bit_eq hlaw.isBool
    rw [encodeField_of_null name g hnull hnullable, hnorm, hsize]
    refine puts_ok hspace.fresh fun m _ hagree w e hw => ?_
    rw [hbit] at hinside ⊢
    have hlength := hw.byteLength
    refine hlaw.decode (by omega) (fun i hi => ?_) e
    have hi' : i ∈ s.field.slot g := by rwa [StructField.slot, hbit, View.slot, ← hw.byteOffset]
    exact (hagree hi').trans (hzero i hi')

/-- The fields of an object, in any order of their slots. -/
theorem puts_encodeFields {fs : List (String × Val)} {g : View} (name : String) :
    ∀ {l : List SentField} {msg : Message},
    (l.Pairwise fun s s' => s.field.Apart s'.field) → (∀ s ∈ l, s.Valid (.object fs)) →
    (∀ s ∈ l, s.field.lastBit ≤ 8 * g.byteLength) →
    msg.Space (l.map fun s => s.size (.object fs)).sum →
    g.byteOffset + g.byteLength ≤ msg.next →
    (∀ s ∈ l, ∀ i ∈ s.field.slot g, msg.buffer.bit i = false) →
    Puts msg (encodeFields name g (.object fs) (l.map SentField.field) msg)
      {i | ∃ s ∈ l, i ∈ s.field.slot g} (l.map fun s => s.size (.object fs)).sum fun m =>
        ∀ s ∈ l, ∀ w nullable, g.Extends w →
          s.reader.decode m w (8 + s.field.packedOffset) s.field.packedBitOffset nullable =
            .ok (s.norm (.object fs))
  | [], _, _, _, _, hspace, _, _ => puts_ok hspace.fresh fun _ _ _ _ hs => by cases hs
  | s :: l, msg, hapart, hvalid, hinside, hspace, hallocated, hzero => by
    obtain ⟨hs, hapart⟩ := List.pairwise_cons.1 hapart
    have hroom : msg.Space (s.size (.object fs) + (l.map fun s => s.size (.object fs)).sum) :=
      hspace
    have hspace' : msg.Space (s.size (.object fs)) :=
      ⟨hspace.fresh, by have := hroom.room; omega, hspace.small⟩
    have hsubset : ∀ s' ∈ s :: l, s'.field.slot g ⊆ msg.allocated := fun s' hs' i hi => by
      have hlast := hinside s' hs'
      rw [StructField.lastBit, StructField.firstBit] at hlast
      exact lt_of_lt_of_le hi.2 (by omega)
    have hdisjoint : ∀ s' ∈ l, Disjoint (s.field.slot g) (s'.field.slot g) := fun s' hs' =>
      (hs s' hs').disjoint g
    refine ((puts_encodeField name (hvalid s (.head _)) (hinside s (.head _)) hspace' hallocated
      (hzero s (.head _))).bind (fun msg' hw => puts_encodeFields name hapart
        (fun s' hs' => hvalid s' (.tail _ hs')) (fun s' hs' => hinside s' (.tail _ hs'))
        (hw.space hroom le_rfl) (by rw [hw.next]; omega) fun s' hs' i hi => ?_)
      ?_ ?_ ?_ ?_ rfl).mono subset_rfl ?_
    · -- The slots of the other fields are left as they were.
      have hnot : i ∉ s.field.slot g := fun his => Set.disjoint_left.1 (hdisjoint s' hs') his hi
      exact (hw.frame ⟨hsubset s' (.tail _ hs') hi, hnot⟩).trans (hzero s' (.tail _ hs') i hi)
    · exact Set.disjoint_left.2 fun i hi ⟨s', hs', hi'⟩ =>
        Set.disjoint_left.1 (hdisjoint s' hs') hi hi'
    · exact fun i hi => ⟨s, .head _, hi⟩
    · exact fun i ⟨s', hs', hi⟩ => ⟨s', .tail _ hs', hi⟩
    · exact fun i ⟨s', hs', hi⟩ => hsubset s' hs' hi
    · rintro m - ⟨hfirst, hrest⟩ s' hs'
      rcases List.mem_cons.1 hs' with rfl | hs'
      · exact hfirst
      · exact hrest s' hs'

/-- What a field makes room for. -/
theorem fieldSize_eq {s : SentField} {fs : List (String × Val)} (hvalid : s.Valid (.object fs)) :
    fieldSize (.object fs) s.field = .ok (s.size (.object fs) : ℤ) := by
  have hsize : fieldSize (.object fs) s.field = if (s.value (.object fs)).isNull then .ok 0
      else s.field.type.pointed (s.value (.object fs)) s.field.nullable := by
    simp only [fieldSize, Val.get, Val.isNil, SentField.value, MojomType.pointed]
    cases s.field.type.dimensions <;> rfl
  rcases hvalid with hvalid | ⟨hnull, -⟩
  · have hnull := isNull_of_isNil (s.codec.isNil hvalid)
    rw [hsize, SentField.size, hnull, if_neg Bool.false_ne_true, if_neg Bool.false_ne_true,
      s.codec.pointed hvalid]
  · rw [hsize, SentField.size, hnull, if_pos rfl, if_pos rfl, Nat.cast_zero]

/-- Null is received only if it may be sent. -/
theorem SentField.nullable_of_norm {s : SentField} {a : Val} (hvalid : s.Valid a)
    (h : (s.norm a).isNull = true) : s.field.nullable = true := by
  rcases hvalid with hvalid | ⟨-, hnullable⟩
  · rw [SentField.norm, isNull_of_isNil (s.codec.isNil hvalid), if_neg Bool.false_ne_true,
      s.codec.isNull_norm hvalid] at h
    cases h
  · exact hnullable

/-! ## Structures -/

/-- A structure that is sent as `S` and received as `R`. -/
structure StructCodec (S R : StructSpec) where
  /-- The fields that are sent. -/
  sent : List SentField
  fields_sent : S.fields = sent.map SentField.field
  apart : sent.Pairwise fun s s' => s.field.Apart s'.field
  inside : ∀ s ∈ sent, s.field.lastBit ≤ 8 * S.packedSize
  le_packedSize : 8 ≤ S.packedSize
  dvd_packedSize : 8 ∣ S.packedSize
  packedSize_lt : S.packedSize < 2 ^ 32
  version_lt : S.lastVersion.1 < 2 ^ 32
  /-- The receiver knows this version, or only older ones. -/
  accepted : checkVersion S.packedSize S.lastVersion.1 R.versions.reverse = some true
  /-- The fields that are received, each with the one that was sent for it, if there is. -/
  received : List (StructField × Option SentField)
  fields_received : R.fields = received.map Prod.fst
  /-- The sender did not know of it. -/
  newer : ∀ g ∈ received, g.2 = none → S.lastVersion.1 < g.1.minVersion
  minVersion_le : ∀ g ∈ received, ∀ s ∈ g.2, g.1.minVersion ≤ S.lastVersion.1
  /-- It is read where it was written, and null if it may be. -/
  known : ∀ g ∈ received, ∀ s ∈ g.2, s ∈ sent ∧ g.1.packedOffset = s.field.packedOffset ∧
    g.1.packedBitOffset = s.field.packedBitOffset ∧ g.1.type = s.reader ∧
      (s.field.nullable = true → g.1.nullable = true)

namespace StructCodec

variable {S R : StructSpec} (c : StructCodec S R)

/-- An object with the properties that are sent. -/
def Valid (a : Val) : Prop := (∃ fs, a = .object fs) ∧ ∀ s ∈ c.sent, s.Valid a

/-- What is received: the fields that the receiver knows of, and for those that the sender
    did not know of, their defaults. -/
def norm (a : Val) : Val :=
  .object (c.received.map fun g => (g.1.name, g.2.elim g.1.defaultValue (·.norm a)))

/-- The size of what the fields point to. -/
def rest (a : Val) : ℕ := (c.sent.map fun s => s.size a).sum

theorem dvd_rest (a : Val) : 8 ∣ c.rest a := List.dvd_sum fun n hn => by
  obtain ⟨s, -, rfl⟩ := List.mem_map.1 hn
  rw [SentField.size]
  split_ifs
  · exact dvd_zero 8
  · exact s.codec.dvd_size _

variable {c} {a : Val}

/-- What a structure makes room for. -/
theorem structDimensions_eq (h : c.Valid a) :
    structDimensions S a = .ok (S.packedSize + c.rest a : ℕ) := by
  obtain ⟨⟨fs, rfl⟩, hvalid⟩ := h
  have hfields : ∀ l : List SentField, (∀ s ∈ l, s.Valid (.object fs)) →
      fieldsSize (.object fs) (l.map SentField.field) =
        .ok ((l.map fun s => s.size (.object fs)).sum : ℕ) := by
    intro l hl
    induction l with
    | nil => rfl
    | cons s l ih =>
      simp only [List.map_cons, List.sum_cons, fieldsSize, fieldSize_eq (hl s (.head _)),
        ih fun s' hs' => hl s' (.tail _ hs'), Nat.cast_add]
      rfl
  rw [structDimensions, c.fields_sent, hfields _ hvalid, Nat.cast_add]
  rfl

/-- What is received of the fields. -/
theorem decodeFields_eq {m : Buffer} {w : View} (name : String) (h : c.Valid a)
    (hread : ∀ s ∈ c.sent, ∀ nullable, s.reader.decode m w (8 + s.field.packedOffset)
      s.field.packedBitOffset nullable = .ok (s.norm a)) :
    decodeFields name S.lastVersion.1 m w R.fields =
      .ok (c.received.map fun g => (g.1.name, g.2.elim g.1.defaultValue (·.norm a))) := by
  have hfield : ∀ g ∈ c.received, decodeField name S.lastVersion.1 m w g.1 =
      .ok (g.1.name, g.2.elim g.1.defaultValue (·.norm a)) := by
    rintro ⟨g, _ | s⟩ hg
    · exact if_pos (c.newer _ hg rfl)
    · obtain ⟨hs, hoffset, hbit, htype, hnullable⟩ := c.known _ hg s rfl
      have hversion : ¬g.minVersion > S.lastVersion.1 := not_lt.2 (c.minVersion_le _ hg s rfl)
      have hnull : ¬((s.norm a).isNull = true ∧ (!g.nullable) = true) := fun hnull => by
        have := hnullable (SentField.nullable_of_norm (h.2 s hs) hnull.1)
        simp_all
      simp only at hoffset hbit htype
      simp only [decodeField, if_neg hversion, hoffset, hbit, htype, hread s hs, Bind.bind,
        Except.bind, Pure.pure, Except.pure, if_neg hnull, Option.elim_some]
  rw [c.fields_received]
  generalize c.received = l at hfield
  induction l with
  | nil => rfl
  | cons g l ih =>
    simp only [List.map_cons, decodeFields, hfield g (.head _),
      ih fun g' hg' => hfield g' (.tail _ hg')]
    rfl

/-- A structure where it belongs, read by any view of it. -/
theorem puts_inline {g : View} (h : c.Valid a) (hobject : msg.Object g 0 (c.rest a))
    (hg : g.byteLength = S.packedSize) :
    Puts msg (encodeStructInline k S g a msg) (g.tail 0) (c.rest a) fun m =>
      ∀ w, g.Extends w → decodeStructInline k R m w = .ok (c.norm a) := by
  have hpacked := c.le_packedSize
  have hsize := c.packedSize_lt
  have hversion := c.version_lt
  obtain ⟨⟨fs, rfl⟩, hvalid⟩ := id h
  refine (puts_header hobject (by omega) (P := fun m => ∀ s ∈ c.sent, ∀ w nullable, g.Extends w →
    s.reader.decode m w (8 + s.field.packedOffset) s.field.packedBitOffset nullable =
      .ok (s.norm (.object fs))) fun msg' hobject' => ?_).mono subset_rfl ?_
  · have hinside : ∀ s ∈ c.sent, s.field.lastBit ≤ 8 * g.byteLength := by
      rw [hg]
      exact c.inside
    have htail : ∀ s ∈ c.sent, s.field.slot g ⊆ g.tail 8 := fun s hs => by
      have hlast := hinside s hs
      rw [StructField.lastBit, StructField.firstBit] at hlast
      exact g.slot_subset (by omega) (by omega)
    rw [c.fields_sent]
    exact (puts_encodeFields S.name c.apart hvalid hinside hobject'.toSpace hobject'.allocated
      fun s hs i hi => hobject'.zero i (htail s hs hi)).mono
      (fun i ⟨s, hs, hi⟩ => htail s hs hi) fun _ _ => id
  · rintro m - ⟨hreadSize, hreadVersion, hfields⟩ w hw
    have hsize' : ((S.packedSize : ℤ) % 256 ^ 4).toNat = S.packedSize := by omega
    have hversion' : ((S.lastVersion.1 : ℤ) % 256 ^ 4).toNat = S.lastVersion.1 := by omega
    have hdecode := decodeFields_eq R.name h (m := m) (w := w) fun s hs e => hfields s hs w e hw
    simp only [decodeStructInline, hreadSize w hw, hreadVersion w hw, hsize', hversion',
      c.accepted, hdecode, Bind.bind, Except.bind, Pure.pure, Except.pure]
    rfl

end StructCodec

/-- The type of a structure, with all that it consists of. -/
def Codec.struct {S R : StructSpec} (c : StructCodec S R) :
    Codec (structType k S) (structType k R) where
  Valid := c.Valid
  norm := c.norm
  size a := S.packedSize + c.rest a
  dvd_size a := (Nat.dvd_add_right c.dvd_packedSize).2 (c.dvd_rest a)
  isBool := rfl
  arrayElementSize := rfl
  isNil := by
    rintro _ ⟨⟨fs, rfl⟩, -⟩
    rfl
  isNull_norm _ := rfl
  pointed := by
    intro a h nullable
    have hdvd := (Nat.dvd_add_right c.dvd_packedSize).2 (c.dvd_rest a)
    simp only [MojomType.pointed, structType, StructCodec.structDimensions_eq h]
    exact congrArg Except.ok ((align_natCast _).trans (congrArg Nat.cast (padded_of_dvd hdvd)))
  puts := by
    intro a v offset bit msg h hroom nullable
    obtain rfl := hroom.bit_eq rfl
    have halign := padded_of_dvd c.dvd_packedSize
    have hputs := puts_object (k := k) (n := c.rest a) (hroom.slot rfl rfl)
      (by rw [halign]; exact hroom.toSpace) (f := fun g => encodeStructInline k S g a)
      fun g msg' hg hobject => StructCodec.puts_inline (k := k) h hobject (hg.trans halign)
    rw [halign] at hputs
    refine hputs.mono subset_rfl ?_
    rintro m - ⟨g, w, hinline, hw, hpointer⟩ v' e hv'
    obtain ⟨o, ho, hne, hview⟩ := hpointer v' hv'
    simp only [structType, ho, if_neg hne, hview, Bind.bind, Except.bind, hinline w hw]

theorem Codec.nullable_struct (S R : StructSpec) :
    Codec.Nullable (structType k S) (structType k R) where
  isBool := rfl
  encodeNull _ _ _ := rfl
  decode := by
    intro m v offset hinside hzero nullable
    have hbits : (structType k S).bits = 64 := rfl
    simp only [structType,
      decodeOffset_of_zero (k := k) (by omega : offset + 8 ≤ v.byteLength) hzero]
    rfl

/-- A version is accepted by those who know of no later one. -/
theorem checkVersion_self {S : StructSpec} (h : 8 ≤ S.packedSize) :
    checkVersion S.packedSize S.lastVersion.1 S.versions.reverse = some true := by
  rcases List.eq_nil_or_concat S.versions with hnil | ⟨l, g, hconcat⟩
  · rw [StructSpec.packedSize, StructSpec.lastVersion, hnil] at h
    exact absurd h (by decide)
  · have hlast : S.lastVersion = g := by simp [StructSpec.lastVersion, hconcat]
    simp [StructSpec.packedSize, hlast, hconcat, checkVersion]

/-- Both sides have the same version of the structure. -/
def StructCodec.same (S : StructSpec) (sent : List SentField)
    (fields_sent : S.fields = sent.map SentField.field)
    (apart : sent.Pairwise fun s s' => s.field.Apart s'.field)
    (inside : ∀ s ∈ sent, s.field.lastBit ≤ 8 * S.packedSize) (le_packedSize : 8 ≤ S.packedSize)
    (dvd_packedSize : 8 ∣ S.packedSize) (packedSize_lt : S.packedSize < 2 ^ 32)
    (version_lt : S.lastVersion.1 < 2 ^ 32)
    (minVersion_le : ∀ s ∈ sent, s.field.minVersion ≤ S.lastVersion.1)
    (reader : ∀ s ∈ sent, s.field.type = s.reader) : StructCodec S S where
  sent := sent
  fields_sent := fields_sent
  apart := apart
  inside := inside
  le_packedSize := le_packedSize
  dvd_packedSize := dvd_packedSize
  packedSize_lt := packedSize_lt
  version_lt := version_lt
  accepted := checkVersion_self le_packedSize
  received := sent.map fun s => (s.field, some s)
  fields_received := by rw [fields_sent, List.map_map]; rfl
  newer g hg hnone := by
    obtain ⟨s, -, rfl⟩ := List.mem_map.1 hg
    cases hnone
  minVersion_le g hg s hs := by
    obtain ⟨s', hs', rfl⟩ := List.mem_map.1 hg
    exact minVersion_le s' hs'
  known g hg s hs := by
    obtain ⟨s', hs', rfl⟩ := List.mem_map.1 hg
    obtain rfl := Option.some.inj hs
    exact ⟨hs', rfl, rfl, reader s' hs', id⟩

/-! ## The structures of `echo.mojom.m.js` -/

/-- A structure of one string, which is neither null nor has it a default. -/
def stringStruct (k : Bool) (x : Text) (name field : String) (hfield : field ≠ "__proto__") :
    StructSpec where
  name := name
  fields := [⟨field, 0, 0, stringType k x, .null, false, 0⟩]
  versions := [(0, 16)]
  names := by simpa using hfield.symm

theorem request_ne : "request" ≠ "__proto__" := by decide

theorem result_ne : "result" ≠ "__proto__" := by decide

/-- `Echo_Execute_ParamsSpec` -/
def executeParamsSpec (k : Bool) (x : Text) : StructSpec :=
  stringStruct k x "Echo_Execute_Params" "request" request_ne

/-- `Echo_Execute_ResponseParamsSpec` -/
def executeResponseParamsSpec (k : Bool) (x : Text) : StructSpec :=
  stringStruct k x "Echo_Execute_ResponseParams" "result" result_ne

/-- The ordinal of `execute`. -/
def executeOrdinal : ℕ := 531230075

/-- A string that may be neither null nor missing. -/
def SentField.string (k : Bool) (x : Text) (name : String) (packedOffset : ℕ) : SentField :=
  ⟨⟨name, packedOffset, 0, stringType k x, .null, false, 0⟩, stringType k x, Codec.string x,
    Nat.zero_lt_succ 7, fun _ => rfl, fun h => by cases h⟩

def StructCodec.string (k : Bool) (x : Text) (name field : String) (hfield : field ≠ "__proto__") :
    StructCodec (stringStruct k x name field hfield) (stringStruct k x name field hfield) :=
  .same _ [.string k x field 0] rfl (List.pairwise_singleton _ _)
    (by
      intro s hs
      obtain rfl := List.mem_singleton.1 hs
      exact le_refl 128)
    (show 8 ≤ 16 by decide) (show 8 ∣ 16 by decide) (show 16 < 2 ^ 32 by decide)
    (show 0 < 2 ^ 32 by decide) (fun s hs => List.mem_singleton.1 hs ▸ le_rfl)
    (fun s hs => List.mem_singleton.1 hs ▸ rfl)

/-! ## A structure of two versions -/

/-- A number that is zero if it is missing. -/
def SentField.uint32 (k : Bool) (name : String) (packedOffset : ℕ) : SentField :=
  ⟨⟨name, packedOffset, 0, uintType k 4, .number 0, false, 0⟩, uintType k 4, Codec.uint 4,
    Nat.zero_lt_succ 7, fun _ => rfl, fun h => by cases h⟩

def StructCodec.disconnectReason (k : Bool) (x : Text) :
    StructCodec (disconnectReasonSpec k x) (disconnectReasonSpec k x) :=
  .same _ [.uint32 k "customReason" 0, .string k x "description" 8] rfl
    (List.pairwise_pair.2 (.inl (show 96 ≤ 128 by decide)))
    (by
      intro s hs
      rcases List.mem_pair.1 hs with rfl | rfl
      · exact show 96 ≤ 192 by decide
      · exact le_refl 192)
    (show 8 ≤ 24 by decide) (show 8 ∣ 24 by decide) (show 24 < 2 ^ 32 by decide)
    (show 0 < 2 ^ 32 by decide)
    (fun s hs => by rcases List.mem_pair.1 hs with rfl | rfl <;> exact le_rfl)
    (fun s hs => by rcases List.mem_pair.1 hs with rfl | rfl <;> rfl)

/-- A version of `peerAssociatedEndpointClosedEventSpec` that also has the time of the event. -/
def laterClosedEventSpec (k : Bool) (x : Text) : StructSpec where
  name := "PeerAssociatedEndpointClosedEvent"
  fields := [⟨"id", 0, 0, uintType k 4, .number 0, false, 0⟩,
    ⟨"disconnectReason", 8, 0, structType k (disconnectReasonSpec k x), .null, true, 0⟩,
    ⟨"time", 16, 0, uint64Type k, .bigint 0, false, 1⟩]
  versions := [(0, 24), (1, 32)]

/-- The sender does not know of the time yet. -/
def StructCodec.closedEvent (k : Bool) (x : Text) :
    StructCodec (peerAssociatedEndpointClosedEventSpec k x) (laterClosedEventSpec k x) :=
  let id := SentField.uint32 k "id" 0
  let reason : SentField := ⟨⟨"disconnectReason", 8, 0, structType k (disconnectReasonSpec k x),
    .null, true, 0⟩, structType k (disconnectReasonSpec k x), Codec.struct (.disconnectReason k x),
    Nat.zero_lt_succ 7, fun _ => rfl, fun _ => Codec.nullable_struct _ _⟩
  { sent := [id, reason]
    fields_sent := rfl
    apart := List.pairwise_pair.2 (.inl (show 96 ≤ 128 by decide))
    inside := by
      intro s hs
      rcases List.mem_pair.1 hs with rfl | rfl
      · exact show 96 ≤ 192 by decide
      · exact le_refl 192
    le_packedSize := show 8 ≤ 24 by decide
    dvd_packedSize := show 8 ∣ 24 by decide
    packedSize_lt := show 24 < 2 ^ 32 by decide
    version_lt := show 0 < 2 ^ 32 by decide
    accepted := rfl
    received := [(id.field, some id), (reason.field, some reason),
      (⟨"time", 16, 0, uint64Type k, .bigint 0, false, 1⟩, none)]
    fields_received := rfl
    newer := by
      intro g hg hnone
      simp only [List.mem_cons, List.not_mem_nil, or_false] at hg
      rcases hg with rfl | rfl | rfl
      · cases hnone
      · cases hnone
      · exact show 0 < 1 by decide
    minVersion_le := by
      intro g hg s hs
      simp only [List.mem_cons, List.not_mem_nil, or_false] at hg
      rcases hg with rfl | rfl | rfl
      · exact le_rfl
      · exact le_rfl
      · cases hs
    known := by
      intro g hg s hs
      simp only [List.mem_cons, List.not_mem_nil, or_false] at hg
      rcases hg with rfl | rfl | rfl
      · obtain rfl := Option.some.inj hs
        exact ⟨.head _, rfl, rfl, rfl, fun h => h⟩
      · obtain rfl := Option.some.inj hs
        exact ⟨.tail _ (.head _), rfl, rfl, rfl, fun h => h⟩
      · cases hs }

/-! ## Messages -/

/-- A number of the header, and what is behind it. -/
theorem puts_word {u : View} {f : Message → Js Message} {Q : Buffer → Prop} {H o w p : ℕ}
    {value : ℤ} (hu : u.byteOffset = 0) (hH : H ≤ u.byteLength) (how : o + w ≤ H)
    (hfresh : msg.Fresh) (hnext : H ≤ msg.next)
    (hf : ∀ msg', msg'.Fresh → H ≤ msg'.next →
      Puts msg' (f msg') (Buffer.bytesBetween (o + w) H) p Q) :
    Puts msg (u.setInt k o w value msg >>= f) (Buffer.bytesBetween o H) p fun m =>
      (∀ u', u.Extends u' → u'.getUint k m o w = .ok (value % 256 ^ w).toNat) ∧ Q m := by
  have hslot : u.slot o 0 (8 * w) = Buffer.bytesBetween o (o + w) := by
    rw [View.slot_eq, hu, Nat.zero_add]
  have hput : msg.Slot u o w := ⟨hfresh, by omega, by omega⟩
  have hputs := puts_setInt (k := k) hput value
  rw [hslot] at hputs
  refine hputs.bind (fun msg' hw => hf msg' hw.fresh (by rw [hw.next]; omega)) ?_
    (Set.Ico_subset_Ico le_rfl (by omega)) (Set.Ico_subset_Ico (by omega) le_rfl)
    (fun i hi => lt_of_lt_of_le hi.2 (by omega)) (Nat.zero_add p)
  exact Set.disjoint_left.2 fun i hi hi' => absurd (hi'.1.trans_lt hi.2) (by omega)

/-- The header has one of two sizes, which is that of its version. -/
def Header.Sized (h : Header) : Prop :=
  h.headerSize = 24 ∧ h.version = 0 ∨ h.headerSize = 32 ∧ h.version = 1

theorem newHeader_sized (interfaceId flags ordinal requestId : ℕ) :
    (newHeader interfaceId flags ordinal requestId).Sized := by
  rw [newHeader]
  split_ifs
  · exact .inl ⟨rfl, rfl⟩
  · exact .inr ⟨rfl, rfl⟩

/-- The first four bytes of the id of the request. -/
def Header.idWord (k : Bool) (h : Header) : ℕ :=
  ((if k then (h.requestId : ℤ) else h.requestId / 2 ^ 32) % 2 ^ 32).toNat

/-- The numbers of a header are where they are looked for. -/
structure HeaderAt (k : Bool) (m : Buffer) (u : View) (h : Header) : Prop where
  headerSize : u.getUint k m 0 4 = .ok ((h.headerSize : ℤ) % 256 ^ 4).toNat
  version : u.getUint k m 4 4 = .ok ((h.version : ℤ) % 256 ^ 4).toNat
  interfaceId : u.getUint k m 8 4 = .ok ((h.interfaceId : ℤ) % 256 ^ 4).toNat
  ordinal : u.getUint k m 12 4 = .ok ((h.ordinal : ℤ) % 256 ^ 4).toNat
  flags : u.getUint k m 16 4 = .ok ((h.flags : ℤ) % 256 ^ 4).toNat
  requestId : h.version = 1 → u.getUint k m 24 4 = .ok (h.idWord k)

theorem puts_encodeHeader {u : View} {h : Header} (hu : u.byteOffset = 0) (hsized : h.Sized)
    (hH : h.headerSize ≤ u.byteLength) (hfresh : msg.Fresh) (hnext : h.headerSize ≤ msg.next) :
    Puts msg (encodeHeader k u h msg) (Buffer.bytesBetween 0 h.headerSize) 0 fun m =>
      ∀ u', u.Extends u' → HeaderAt k m u' h := by
  have hle : 24 ≤ h.headerSize := by
    rcases hsized with ⟨hsize, -⟩ | ⟨hsize, -⟩ <;> omega
  have hrest : ∀ msg' : Message, msg'.Fresh → h.headerSize ≤ msg'.next →
      Puts msg' (if 1 ≤ h.version then u.setUint64 k 24 h.requestId msg' else .ok msg')
        (Buffer.bytesBetween (20 + 4) h.headerSize) 0 fun m => ∀ u', u.Extends u' →
          h.version = 1 → u'.getUint k m 24 4 = .ok (h.idWord k) := by
    intro msg' hfresh' hnext'
    rcases hsized with ⟨hsize, hversion⟩ | ⟨hsize, hversion⟩
    · rw [if_neg (by omega)]
      exact puts_ok hfresh' fun _ _ _ _ _ h1 => absurd h1 (by omega)
    · rw [if_pos (by omega)]
      have hslot : msg'.Slot u 24 8 := ⟨hfresh', by omega, by omega⟩
      have hbits : u.slot 24 0 64 = Buffer.bytesBetween (20 + 4) h.headerSize := by
        rw [hsize, View.slot, hu, Buffer.bytesBetween]
      refine (puts_setUint64 (k := k) hslot h.requestId).mono hbits.le fun m _ hm u' hu' _ => ?_
      cases k with
      | true => exact (hm u' hu').1
      | false => exact (hm u' hu').2
  refine (puts_word hu hH (by omega) hfresh hnext fun _ hf₁ hn₁ =>
    puts_word hu hH (by omega) hf₁ hn₁ fun _ hf₂ hn₂ =>
    puts_word hu hH (by omega) hf₂ hn₂ fun _ hf₃ hn₃ =>
    puts_word hu hH (by omega) hf₃ hn₃ fun _ hf₄ hn₄ =>
    puts_word hu hH (by omega) hf₄ hn₄ fun _ hf₅ hn₅ =>
    puts_word hu hH (by omega) hf₅ hn₅ hrest).mono subset_rfl ?_
  rintro m - ⟨h₁, h₂, h₃, h₄, h₅, -, h₆⟩ u' hu'
  exact ⟨h₁ u' hu', h₂ u' hu', h₃ u' hu', h₄ u' hu', h₅ u' hu', h₆ u' hu'⟩

/-- The header as it is read: the id of the request comes from the first four bytes. -/
def Header.received (k : Bool) (h : Header) : Header :=
  { h with requestId := if h.version = 0 ∨ k = false then 0 else h.requestId }

/-- The numbers of a header fit where they are written. -/
structure Header.Fits (h : Header) : Prop where
  interfaceId : h.interfaceId < 2 ^ 32
  ordinal : h.ordinal < 2 ^ 32
  flags : h.flags < 2 ^ 32
  requestId : h.requestId < 2 ^ 32

theorem decodeHeader_of_headerAt {m : Buffer} {h : Header} (hsized : h.Sized) (hfits : h.Fits)
    (hsize : 24 ≤ m.size) (hat : HeaderAt k m ⟨0, m.size⟩ h) :
    decodeHeader k m = .ok (some (h.received k)) := by
  obtain ⟨hinterface, hordinal, hflags, hid⟩ := hfits
  have hword : ∀ n : ℕ, n < 2 ^ 32 → ((n : ℤ) % 256 ^ 4).toNat = n := fun n hn => by omega
  have hheader : ∀ a b : ℕ, h.headerSize = a → h.version = b → a < 2 ^ 32 → b < 2 ^ 32 →
      ((h.headerSize : ℤ) % 256 ^ 4).toNat = a ∧ ((h.version : ℤ) % 256 ^ 4).toNat = b :=
    fun a b ha hb hlt hlt' => ⟨ha ▸ hword _ (ha ▸ hlt), hb ▸ hword _ (hb ▸ hlt')⟩
  rw [decodeHeader, if_neg (by omega)]
  simp only [hat.headerSize, hat.version, hat.interfaceId, hat.ordinal, hat.flags,
    hword _ hinterface, hword _ hordinal, hword _ hflags, Bind.bind, Except.bind]
  rcases hsized with ⟨hs, hv⟩ | ⟨hs, hv⟩
  · simp [Header.received, hs, hv, Pure.pure, Except.pure]
  · obtain ⟨hs', hv'⟩ := hheader 32 1 hs hv (by decide) (by decide)
    have hidWord : h.idWord k = if k then h.requestId else 0 := by
      rw [Header.idWord]
      cases k <;> simp only [Bool.false_eq_true, if_true, if_false] <;> omega
    simp only [hs', hv', hat.requestId hv, hidWord]
    cases k <;> simp [Header.received, hs, hv, Pure.pure, Except.pure]

/-- What is read of a message: its header, and the structure. -/
def Received (k : Bool) (R : StructSpec) (m : Buffer) (h : Header) (a : Val) : Prop :=
  decodeHeader k m = .ok (some h) ∧ decodePayload k R m h = .ok a

/-- A message is encoded: its header is where it is looked for, and its structure is read. -/
theorem exists_message {S R : StructSpec} (c : StructCodec S R) {a : Val} (hvalid : c.Valid a)
    (interfaceId flags ordinal requestId : ℕ) (hsmall : 32 + S.packedSize + c.rest a < 2 ^ 53) :
    ∃ m, encodeMessage k interfaceId flags ordinal requestId S a = .ok m ∧ 24 ≤ m.size ∧
      HeaderAt k m ⟨0, m.size⟩ (newHeader interfaceId flags ordinal requestId) ∧
      decodePayload k R m (newHeader interfaceId flags ordinal requestId) = .ok (c.norm a) := by
  have hsized := newHeader_sized interfaceId flags ordinal requestId
  rw [encodeMessage, StructCodec.structDimensions_eq hvalid]
  generalize newHeader interfaceId flags ordinal requestId = h at hsized ⊢
  have hle : 24 ≤ h.headerSize ∧ h.headerSize ≤ 32 := by
    rcases hsized with ⟨hsize, -⟩ | ⟨hsize, -⟩ <;> omega
  have halign := padded_of_dvd c.dvd_packedSize
  let total := h.headerSize + (S.packedSize + c.rest a)
  have hbuffer : newBuffer (h.headerSize + (S.packedSize + c.rest a : ℕ)) = .ok (.zero total) := by
    rw [newBuffer, if_pos (by omega), ← Nat.cast_add, Int.toNat_natCast]
  let msg : Message := ⟨.zero total, h.headerSize⟩
  have hspace : msg.Space (padded S.packedSize + c.rest a) := {
    fresh := fun i _ => Nat.zero_testBit _
    room := by rw [halign]; exact le_rfl
    small := by show total < 2 ^ 53; omega }
  have hbody : ∀ msg' : Message, msg.Writes (Buffer.bytesBetween 0 h.headerSize) 0 msg' →
      Puts msg' (allocate S.packedSize msg' >>= fun p => encodeStructInline k S p.1 a p.2) ∅
        (padded S.packedSize + c.rest a) fun m => decodePayload k R m h = .ok (c.norm a) := by
    intro msg' hw
    have hnext : msg'.next = h.headerSize := hw.next
    refine (puts_allocate (S := ∅) (hw.space hspace (by omega))
      (f := fun g msg => encodeStructInline k S g a msg) fun g msg'' _ hg hobject =>
        (StructCodec.puts_inline (k := k) hvalid hobject (hg.trans halign)).mono
          Set.subset_union_right fun _ _ => id).mono subset_rfl ?_
    rintro m - ⟨g, w, hinline, hw, -, hview⟩
    rw [hnext] at hview
    simp only [decodePayload, hview, Bind.bind, Except.bind, hinline w hw]
  have hheader := puts_encodeHeader (k := k) (u := ⟨0, total⟩) rfl hsized (Nat.le_add_right _ _)
    hspace.fresh le_rfl
  obtain ⟨msg', hencode, hw, hread⟩ := hheader.bind hbody (Set.disjoint_empty _) subset_rfl
    (Set.empty_subset _) Set.Ico_subset_Iio_self (Nat.zero_add _)
  obtain ⟨hat, hpayload⟩ := hread msg'.buffer hw.size (fun _ _ => rfl)
  refine ⟨msg'.buffer, ?_, ?_, hat _ ⟨rfl, ?_⟩, hpayload⟩
  · have hassoc : ∀ (x : Js Message) (f : Message → Js (View × Message)),
        (do
          let msg ← x
          let p ← f msg
          let msg ← encodeStructInline k S p.1 a p.2
          pure msg.buffer) = (do
          let msg ← (do
            let msg ← x
            let p ← f msg
            encodeStructInline k S p.1 a p.2)
          (pure msg.buffer : Js Buffer)) := fun x f => by simp only [bind_assoc]
    simp only [Bind.bind, Except.bind, hbuffer]
    exact (hassoc (encodeHeader k ⟨0, total⟩ h msg) (allocate S.packedSize)).trans
      (congrArg (· >>= fun msg : Message => pure msg.buffer) hencode)
  · rw [hw.size]
    exact hle.1.trans (Nat.le_add_right _ _)
  · rw [hw.size]
    exact le_rfl

/-- What is encoded is received. -/
theorem received_of_encodeMessage {S R : StructSpec} (c : StructCodec S R) {a : Val}
    (hvalid : c.Valid a) {interfaceId flags ordinal requestId : ℕ}
    (hfits : (newHeader interfaceId flags ordinal requestId).Fits)
    (hsmall : 32 + S.packedSize + c.rest a < 2 ^ 53) {m : Buffer}
    (hm : encodeMessage k interfaceId flags ordinal requestId S a = .ok m) :
    Received k R m ((newHeader interfaceId flags ordinal requestId).received k) (c.norm a) := by
  obtain ⟨m', hm', hsize, hat, hpayload⟩ :=
    exists_message (k := k) c hvalid interfaceId flags ordinal requestId hsmall
  obtain rfl := Except.ok.inj (hm.symm.trans hm')
  exact ⟨decodeHeader_of_headerAt (newHeader_sized ..) hfits hsize hat, hpayload⟩

/-- Of a message, the receiver reads what the sender has made it of: the header, though of the
    id of the request only what a little-endian host finds in its first half, and the
    structure, as far as it knows of it. -/
theorem message_round_trip {S R : StructSpec} (c : StructCodec S R) {a : Val} (hvalid : c.Valid a)
    {interfaceId flags ordinal requestId : ℕ}
    (hfits : (newHeader interfaceId flags ordinal requestId).Fits)
    (hsmall : 32 + S.packedSize + c.rest a < 2 ^ 53) :
    ∃ m, encodeMessage k interfaceId flags ordinal requestId S a = .ok m ∧
      Received k R m ((newHeader interfaceId flags ordinal requestId).received k) (c.norm a) := by
  obtain ⟨m, hm, hsize, hat, hpayload⟩ :=
    exists_message (k := k) c hvalid interfaceId flags ordinal requestId hsmall
  exact ⟨m, hm, decodeHeader_of_headerAt (newHeader_sized ..) hfits hsize hat, hpayload⟩

/-- A codec of the characters that take a byte. -/
def asciiText : Text := ⟨List.map UInt16.toUInt8, List.map UInt8.toUInt16⟩

/-- An event is sent without its id, and with a reason that says only `hi`; another one is sent
    without a reason. To both, a later version adds that the time is zero. -/
theorem message_round_trip_versions :
    let S := peerAssociatedEndpointClosedEventSpec true asciiText
    let R := laterClosedEventSpec true asciiText
    (∃ m, encodeMessage true 0 1 executeOrdinal 7 S
        (.object [("disconnectReason", .object [("description", .string [104, 105])])]) = .ok m ∧
      Received true R m ⟨32, 1, 0, executeOrdinal, 1, 7⟩ (.object [("id", .number 0),
        ("disconnectReason", .object [("customReason", .number 0),
          ("description", .string [104, 105])]), ("time", .bigint 0)])) ∧
    ∃ m, encodeMessage true 0 1 executeOrdinal 8 S (.object [("id", .number 3)]) = .ok m ∧
      Received true R m ⟨32, 1, 0, executeOrdinal, 1, 8⟩
        (.object [("id", .number 3), ("disconnectReason", .null), ("time", .bigint 0)]) := by
  let c := StructCodec.closedEvent true asciiText
  have hfits : ∀ id < 9, (newHeader 0 1 executeOrdinal id).Fits := fun id hid =>
    ⟨show 0 < 2 ^ 32 by decide, show executeOrdinal < 2 ^ 32 by decide, show 1 < 2 ^ 32 by decide,
      show id < 2 ^ 32 by omega⟩
  constructor
  · let a : Val := .object [("disconnectReason", .object [("description", .string [104, 105])])]
    have hreason : (StructCodec.disconnectReason true asciiText).Valid
        (.object [("description", .string [104, 105])]) := by
      refine ⟨⟨_, rfl⟩, fun s hs => .inl ?_⟩
      rcases List.mem_pair.1 hs with rfl | rfl
      · exact ⟨rfl, 0, rfl⟩
      · exact ⟨[104, 105], rfl, by decide⟩
    have hvalid : c.Valid a := by
      refine ⟨⟨_, rfl⟩, fun s hs => .inl ?_⟩
      rcases List.mem_pair.1 hs with rfl | rfl
      · exact ⟨rfl, 0, rfl⟩
      · exact hreason
    exact message_round_trip (k := true) c hvalid (hfits 7 (by decide)) (by decide)
  · let a : Val := .object [("id", .number 3)]
    have hvalid : c.Valid a := by
      refine ⟨⟨_, rfl⟩, fun s hs => ?_⟩
      rcases List.mem_pair.1 hs with rfl | rfl
      · exact .inl ⟨rfl, 3, rfl⟩
      · exact .inr ⟨rfl, rfl⟩
    exact message_round_trip (k := true) c hvalid (hfits 8 (by decide)) (by decide)

end Qlabs.Bindings
