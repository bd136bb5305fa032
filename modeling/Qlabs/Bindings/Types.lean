import Qlabs.Bindings.Wire

/-!
# Arrays, strings, structures, unions, and messages

The types of `bindings.js` that are made of types, and the messages that carry a structure:
the constructor of a message (`encodeMessage`), and how the header of one is read
(`decodeHeader`).

Sizes are numbers of JavaScript, which may turn out negative: the size of an array of
booleans is made by an operator on bits. There is no buffer and no view of such a size.
-/

namespace Qlabs.Bindings

variable (k : Bool)

/-! ## Arrays -/

/-- What an array is an array of. -/
structure ArraySpec where
  elementType : MojomType
  elementNullable : Bool := false

/-- `ja`. For booleans, the sum is made before the shift, which takes 32 bits of it. -/
def inlineArraySize (spec : ArraySpec) (length : ℕ) : ℤ :=
  if spec.elementType.isBool then shiftRight (8 + length + 7) 3
  else 8 + length * spec.elementType.arrayElementSize

/-- The sizes of what the elements point to. -/
def elementsSize (dimensions : Val → Bool → Js ℤ) (nullable : Bool) : List Val → Js ℤ
  | [] => .ok 0
  | e :: es => do
    let size ← if e.isNil then pure 0 else align <$> dimensions e nullable
    return size + (← elementsSize dimensions nullable es)

/-- `v` -/
def totalArraySize (spec : ArraySpec) (vs : List Val) : Js ℤ :=
  match spec.elementType.dimensions with
  | none => .ok (inlineArraySize spec vs.length)
  | some dimensions => do
    return inlineArraySize spec vs.length + (← elementsSize dimensions spec.elementNullable vs)

/-- The loop of `B` for booleans: eight to a byte. -/
def encodeBits (v : View) : List Val → ℕ → ℕ → Message → Js Message
  | [], _, _, msg => .ok msg
  | l :: ls, offset, bit, msg => do
    let msg ← v.encodeBit offset bit l.truthy msg
    if bit + 1 = 8 then encodeBits v ls (offset + 1) 0 msg else encodeBits v ls offset (bit + 1) msg

/-- The loop of `B` for other elements. A null one is encoded as such first. -/
def encodeElements (spec : ArraySpec) (v : View) : List Val → ℕ → Message → Js Message
  | [], _, msg => .ok msg
  | l :: ls, offset, msg => do
    let msg ←
      if l.isNull then
        if !spec.elementNullable then
          throw (.error "Trying to send a null element in an array of non-nullable elements")
        else spec.elementType.callEncodeNull v offset msg
      else pure msg
    let msg ← spec.elementType.encode l v offset 0 spec.elementNullable msg
    encodeElements spec v ls (offset + spec.elementType.arrayElementSize) msg

/-- `B` -/
def encodeArray (spec : ArraySpec) (v : View) (offset : ℕ) (vs : List Val) (msg : Message) :
    Js Message := do
  let size := inlineArraySize spec vs.length
  let (g, msg) ← allocate size msg
  let msg ← v.encodeOffset k offset g.byteOffset msg
  let msg ← g.encodeUint32 k 0 size msg
  let msg ← g.encodeUint32 k 4 vs.length msg
  if spec.elementType.isBool then encodeBits g vs 8 0 msg else encodeElements spec g vs 8 msg

/-- The loop of `E` for booleans, from the element `d` on. -/
def decodeBits (m : Buffer) (v : View) : ℕ → ℕ → Js (List Val)
  | 0, _ => .ok []
  | n + 1, d => do
    let g ← v.decodeBit m (8 + shiftRight d 3) (d % 8)
    return .bool g :: (← decodeBits m v n (d + 1))

/-- The loop of `E` for other elements. -/
def decodeElements (spec : ArraySpec) (m : Buffer) (v : View) : ℕ → ℕ → Js (List Val)
  | 0, _ => .ok []
  | n + 1, offset => do
    let g ← spec.elementType.decode m v offset 0 spec.elementNullable
    if g.isNull ∧ !spec.elementNullable then throw (.error "Received unexpected array element")
    return g :: (← decodeElements spec m v n (offset + spec.elementType.arrayElementSize))

/-- `E` -/
def decodeArray (spec : ArraySpec) (m : Buffer) (v : View) (offset : ℕ) :
    Js (Option (List Val)) := do
  let c ← v.decodeOffset k m offset
  if c = 0 then return none
  let a ← viewFrom m c
  let _ ← a.decodeUint32 k m 0
  let length ← a.decodeUint32 k m 4
  if spec.elementType.isBool then return some (← decodeBits m a length 0)
  return some (← decodeElements spec m a length 8)

/-- `mojo.internal.Array`. Values that are no arrays are left out: they may have a length, and
    even elements. -/
def arrayType (elementType : MojomType) (elementNullable : Bool) : MojomType :=
  let spec : ArraySpec := ⟨elementType, elementNullable⟩
  { encode := fun e v offset _ _ msg =>
      match e with
      | .array vs => encodeArray k spec v offset vs msg
      | .undefined | .null => .error .typeError
      | _ => .error .leftOut
    encodeNull := some fun _ _ msg => .ok msg
    decode := fun m v offset _ _ => return (← decodeArray k spec m v offset).elim .null .array
    dimensions := some fun e _ =>
      match e with
      | .array vs => totalArraySize spec vs
      | .undefined | .null => .error .typeError
      | _ => .error .leftOut
    arrayElementSize := 8 }

/-! ## Strings -/

/-- The array that stands for a string. -/
def stringSpec : ArraySpec := ⟨uintType k 1, false⟩

def byteVals (bs : List UInt8) : List Val := bs.map fun b => .number b.toNat

/-- The bytes that an array of numbers stands for. -/
def toBytes (vs : List Val) : List UInt8 := vs.map fun
  | .number n => UInt8.ofNat (n % 256).toNat
  | _ => 0

/-- `mojo.internal.String` -/
def stringType (x : Text) : MojomType where
  encode a v offset _ _ msg :=
    match a with
    | .string s => encodeArray k (stringSpec k) v offset (byteVals (x.encode s)) msg
    | _ => .error (.error "Unxpected non-string value for string field.")
  encodeNull := some fun _ _ msg => .ok msg
  decode m v offset _ _ := do
    let a ← decodeArray k (stringSpec k) m v offset
    return a.elim .null fun vs => .string (x.decode (toBytes vs))
  dimensions := some fun a _ =>
    match a with
    | .string s => totalArraySize (stringSpec k) (byteVals (x.encode s))
    | _ => .error .leftOut
  arrayElementSize := 8

/-! ## Structures -/

/-- `mojo.internal.StructField` -/
structure StructField where
  name : String
  packedOffset : ℕ
  packedBitOffset : ℕ
  type : MojomType
  defaultValue : Val
  nullable : Bool
  minVersion : ℕ := 0

/-- A structure: its fields, and the size of each of its versions. -/
structure StructSpec where
  name : String
  fields : List StructField
  /-- `oa`: the versions, each with its size. -/
  versions : List (ℕ × ℕ)
  /-- The names of the fields differ, and none is the one that sets what an object inherits
      from. -/
  names : ("__proto__" :: fields.map StructField.name).Nodup := by simp

/-- The last version, and its size. -/
def StructSpec.lastVersion (spec : StructSpec) : ℕ × ℕ := spec.versions.getLastD (0, 0)

/-- `K` -/
def StructSpec.packedSize (spec : StructSpec) : ℕ := spec.lastVersion.2

/-- What a field of a value points to. -/
def fieldSize (b : Val) (d : StructField) : Js ℤ := do
  let a ← b.get d.name
  let a := if a.isNil then d.defaultValue else a
  if a.isNull then return 0
  match d.type.dimensions with
  | some dimensions => return align (← dimensions a d.nullable)
  | none => return 0

def fieldsSize (b : Val) : List StructField → Js ℤ
  | [] => .ok 0
  | d :: ds => do return (← fieldSize b d) + (← fieldsSize b ds)

/-- `ia` -/
def structDimensions (spec : StructSpec) (b : Val) : Js ℤ := do
  return spec.packedSize + (← fieldsSize b spec.fields)

/-- A field of `ka`. -/
def encodeField (name : String) (a : View) (c : Val) (d : StructField) (msg : Message) :
    Js Message := do
  let offset := 8 + d.packedOffset
  let value ← if c.truthy then c.get d.name else pure .undefined
  if !value.isNil then d.type.encode value a offset d.packedBitOffset d.nullable msg
  else if !d.defaultValue.isNull then
    d.type.encode d.defaultValue a offset d.packedBitOffset d.nullable msg
  else if d.nullable then d.type.callEncodeNull a offset msg
  else throw (.error
    (name ++ " missing value for non-nullable field \"" ++ d.name ++ "\""))

def encodeFields (name : String) (a : View) (c : Val) : List StructField → Message → Js Message
  | [], msg => .ok msg
  | d :: ds, msg => do encodeFields name a c ds (← encodeField name a c d msg)

/-- `ka` -/
def encodeStructInline (spec : StructSpec) (a : View) (c : Val) (msg : Message) : Js Message := do
  let msg ← a.encodeUint32 k 0 spec.packedSize msg
  let msg ← a.encodeUint32 k 4 spec.lastVersion.1 msg
  encodeFields spec.name a c spec.fields msg

/-- The search of `I` in the versions, from the last one on: whether the size is right. -/
def checkVersion (size version : ℕ) : List (ℕ × ℕ) → Option Bool
  | [] => none
  | g :: gs =>
    if version > g.1 then some (size ≥ g.2)
    else if version = g.1 then some (size = g.2)
    else checkVersion size version gs

/-- A field of `I`. -/
def decodeField (name : String) (version : ℕ) (m : Buffer) (a : View) (f : StructField) :
    Js (String × Val) :=
  if f.minVersion > version then .ok (f.name, f.defaultValue)
  else do
    let d ← f.type.decode m a (8 + f.packedOffset) f.packedBitOffset f.nullable
    if d.isNull ∧ !f.nullable then
      throw (.error ("Received " ++ name ++ " with invalid null field \"" ++ f.name ++ "\""))
    return (f.name, d)

def decodeFields (name : String) (version : ℕ) (m : Buffer) (a : View) :
    List StructField → Js (List (String × Val))
  | [] => .ok []
  | f :: fs => do
    let c ← decodeField name version m a f
    return c :: (← decodeFields name version m a fs)

/-- `I` -/
def decodeStructInline (spec : StructSpec) (m : Buffer) (a : View) : Js Val := do
  let size ← a.decodeUint32 k m 0
  let version ← a.decodeUint32 k m 4
  match checkVersion size version spec.versions.reverse with
  | none => throw (.error
    ("Impossible version " ++ toString version ++ " for struct " ++ spec.name))
  | some false => throw (.error ("Received " ++ spec.name ++ " of invalid size (" ++
      toString size ++ ") and/or version (" ++ toString version ++ ")"))
  | some true => return .object (← decodeFields spec.name version m a spec.fields)

/-- `mojo.internal.Struct` -/
def structType (spec : StructSpec) : MojomType where
  encode f v offset _ _ msg := do
    let (t, msg) ← allocate spec.packedSize msg
    let msg ← v.encodeOffset k offset t.byteOffset msg
    encodeStructInline k spec t f msg
  encodeNull := some fun _ _ msg => .ok msg
  decode m v offset _ _ := do
    let g ← v.decodeOffset k m offset
    if g = 0 then return .null
    decodeStructInline k spec m (← viewFrom m g)
  dimensions := some fun f _ => structDimensions spec f
  arrayElementSize := 8

/-! ## Unions -/

/-- A field of a union, under its name. -/
structure UnionField where
  name : String
  ordinal : ℕ
  type : MojomType
  nullable : Bool := false

/-- A union. Its fields are no unions themselves: these are left out. -/
structure UnionSpec where
  name : String
  fields : List UnionField
  flat : ∀ f ∈ fields, f.type.isUnion = false := by simp [structType]

def UnionSpec.field? (spec : UnionSpec) (name : String) : Option UnionField :=
  spec.fields.find? (·.name = name)

/-- The one property of a value of the union. -/
def UnionSpec.key (spec : UnionSpec) (e : Val) : Js (String × Val) :=
  match e with
  | .object [d] => .ok d
  | .object _ => .error (.error ("Value for " ++ spec.name ++
      " must be an Object with a single property named one of: " ++
      ",".intercalate (spec.fields.map UnionField.name)))
  | .undefined | .null => .error .typeError
  | _ => .error .leftOut

/-- `sa` -/
def encodeUnion (spec : UnionSpec) (a : View) (offset : ℕ) (e : Val) (msg : Message) :
    Js Message := do
  let (name, d) ← spec.key e
  let msg ← a.encodeUint32 k offset 16 msg
  match spec.field? name with
  | none => throw .typeError
  | some b =>
    let msg ← a.encodeUint32 k (offset + 4) b.ordinal msg
    b.type.encode d a (offset + 8) 0 b.nullable msg

/-- `ua`: of an unknown field, nothing is returned. -/
def decodeUnion (spec : UnionSpec) (m : Buffer) (a : View) (offset : ℕ) : Js Val := do
  let size ← a.decodeUint32 k m offset
  if size = 0 then return .null
  let ordinal ← a.decodeUint32 k m (offset + 4)
  match spec.fields.find? (·.ordinal = ordinal) with
  | none => return .undefined
  | some f =>
    let d ← f.type.decode m a (offset + 8) 0 f.nullable
    -- The message gives the property `name` of the field, which it does not have.
    if d.isNull ∧ !f.nullable then
      throw (.error ("Received " ++ spec.name ++ " with invalid null field: undefined"))
    return .object [(f.name, d)]

/-- What a value of a union takes besides its slot. -/
def unionDimensions (spec : UnionSpec) (e : Val) (nullable : Bool) : Js ℤ := do
  let (name, d) ← spec.key e
  let size : ℤ := if nullable then 16 else 0
  if d.isNil then return size
  match spec.field? name with
  | none => throw .typeError
  | some l =>
    match l.type.dimensions with
    | some dimensions => return size + align (← dimensions d l.nullable)
    | none => return size

/-- `mojo.internal.Union`. As an element of an array it is left out. -/
def unionType (spec : UnionSpec) : MojomType where
  encode d v offset _ _ msg := encodeUnion k spec v offset d msg
  encodeNull := some fun _ _ msg => .ok msg
  decode m v offset _ _ := decodeUnion k spec m v offset
  dimensions := some (unionDimensions spec)
  arrayElementSize := 16
  isUnion := true

/-- `mojo.internal.Handle`, in messages without handles. -/
def handleType : MojomType where
  encode _ _ _ _ _ _ := .error .leftOut
  encodeNull := some fun v offset msg => v.encodeUint32 k offset 4294967295 msg
  decode m v offset _ _ := do
    let b ← v.decodeUint32 k m offset
    if b = 4294967295 then return .null
    throw (.error "Decoded invalid handle index")
  arrayElementSize := 4

/-! ## Messages -/

/-- The header of a message. -/
structure Header where
  headerSize : ℕ
  version : ℕ
  interfaceId : ℕ
  ordinal : ℕ
  flags : ℕ
  requestId : ℕ
  deriving DecidableEq

/-- The header of `la`: the id of the request is there from the version 1 on. -/
def encodeHeader (u : View) (h : Header) (msg : Message) : Js Message := do
  let msg ← u.setInt k 0 4 h.headerSize msg
  let msg ← u.setInt k 4 4 h.version msg
  let msg ← u.setInt k 8 4 h.interfaceId msg
  let msg ← u.setInt k 12 4 h.ordinal msg
  let msg ← u.setInt k 16 4 h.flags msg
  -- It is zero in either byte order.
  let msg ← u.setInt k 20 4 0 msg
  if 1 ≤ h.version then u.setUint64 k 24 h.requestId msg else return msg

/-- The size and the version of the header of `la`, for a message without interfaces. -/
def newHeader (interfaceId flags ordinal requestId : ℕ) : Header :=
  if flags &&& 3 = 0 then ⟨24, 0, interfaceId, ordinal, flags, requestId⟩
  else ⟨32, 1, interfaceId, ordinal, flags, requestId⟩

/-- `la`: a new message. Without interfaces, there is nothing behind the structure. -/
def encodeMessage (interfaceId flags ordinal requestId : ℕ) (spec : StructSpec) (value : Val) :
    Js Buffer := do
  let size ← structDimensions spec value
  let h := newHeader interfaceId flags ordinal requestId
  let buffer ← newBuffer (h.headerSize + size)
  let msg ← encodeHeader k ⟨0, buffer.size⟩ h ⟨buffer, h.headerSize⟩
  let (b, msg) ← allocate spec.packedSize msg
  let msg ← encodeStructInline k spec b value msg
  return msg.buffer

/-- `wa`, as far as it reads the header: an undersized message is rejected, which closes
    the pipe. Of the id of the request, four bytes are read. -/
def decodeHeader (m : Buffer) : Js (Option Header) :=
  if m.size < 24 then .ok none
  else do
    let u : View := ⟨0, m.size⟩
    let headerSize ← u.getUint k m 0 4
    let version ← u.getUint k m 4 4
    if version = 0 ∧ headerSize ≠ 24 ∨ version = 1 ∧ headerSize ≠ 32 ∨ 2 < version then
      throw (.error "Received invalid message header")
    let interfaceId ← u.getUint k m 8 4
    let ordinal ← u.getUint k m 12 4
    let flags ← u.getUint k m 16 4
    let requestId ← if version < 1 then pure 0 else u.getUint k m 24 4
    return some ⟨headerSize, version, interfaceId, ordinal, flags, requestId⟩

/-- The structure that a message carries. -/
def decodePayload (spec : StructSpec) (m : Buffer) (h : Header) : Js Val := do
  decodeStructInline k spec m (← viewFrom m h.headerSize)

end Qlabs.Bindings
