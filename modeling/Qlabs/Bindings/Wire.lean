import Qlabs.Buffer

/-!
# Messages of `bindings.js`

The script that the page of the echo server loads encodes the requests of the page into
messages, and decodes the responses. A mojom type is an object with the functions that do it
(`MojomType`): the integers, the booleans and the strings are given, and `Array` and
`Struct` make types of types.

A message is a buffer of the size that `dimensions` computes beforehand, where a structure
or an array is allocated behind what there is, and pointed to from where it belongs, by the
offset from there. The names of the script are minified; each definition gives the one it
models.

The types of interfaces and maps are left out, and so are floating-point numbers, the
conversions of strings and objects to numbers, and the properties of values that are no
objects of their own. Where the script comes to what is left out, the model says so
(`JsError.leftOut`).
-/

namespace Qlabs.Bindings

/-! ## Values -/

/-- A value of JavaScript. The units of a string are those of UTF-16. The only functions
    are those that objects inherit. -/
inductive Val
  | undefined
  | null
  | bool (b : Bool)
  | number (n : ℤ)
  | bigint (n : ℤ)
  | string (s : List UInt16)
  | array (vs : List Val)
  | object (fields : List (String × Val))
  | function (name : String)

/-- What is thrown. -/
inductive JsError
  | error (message : String)
  | rangeError
  | typeError
  /-- It is not known: what the script does then is left out. -/
  | leftOut
  deriving DecidableEq

abbrev Js := Except JsError

namespace Val

/-- `m` -/
def isNil : Val → Bool
  | undefined | null => true
  | _ => false

def isNull : Val → Bool
  | null => true
  | _ => false

/-- Whether a condition holds of the value. -/
def truthy : Val → Bool
  | undefined | null => false
  | bool b => b
  | number n | bigint n => n ≠ 0
  | string s => !s.isEmpty
  | array _ | object _ | function _ => true

/-- The functions that an object inherits from `Object.prototype`. The one other property of
    that, `__proto__`, is never the name of a field. -/
def inherited : List String :=
  ["constructor", "hasOwnProperty", "isPrototypeOf", "propertyIsEnumerable", "toLocaleString",
    "toString", "valueOf", "__defineGetter__", "__defineSetter__", "__lookupGetter__",
    "__lookupSetter__"]

/-- The property of that name of an object: its own, or an inherited one. -/
def property : Val → String → Val
  | object fields, name =>
    (fields.lookup name).getD (if name ∈ inherited then function name else undefined)
  | _, _ => undefined

/-- Getting the property of that name. -/
def get (a : Val) (name : String) : Js Val :=
  match a with
  | undefined | null => .error .typeError
  | object _ => .ok (a.property name)
  | _ => .error .leftOut

/-- `a.hasOwnProperty(name)` -/
def hasOwnProperty (a : Val) (name : String) : Js Bool :=
  match a with
  | undefined | null => .error .typeError
  | object fields => .ok (fields.lookup name).isSome
  | _ => .error .leftOut

/-- What the setters of a `DataView` make of a value, before they cut it. -/
def toNumber : Val → Js ℤ
  | number n => .ok n
  | bool b => .ok (if b then 1 else 0)
  | undefined | null => .ok 0
  | bigint _ => .error .typeError
  | string _ | array _ | object _ | function _ => .error .leftOut

/-- `BigInt(a)` -/
def toBigInt : Val → Js ℤ
  | number n | bigint n => .ok n
  | bool b => .ok (if b then 1 else 0)
  | undefined | null => .error .typeError
  | string _ | array _ | object _ | function _ => .error .leftOut

end Val

/-- What the operators on bits make of a number: 32 bits, in two's complement. -/
def toInt32 (n : ℤ) : ℤ := n.bmod (2 ^ 32)

/-- `n >> b` -/
def shiftRight (n : ℤ) (b : ℕ) : ℤ := toInt32 n / 2 ^ b

/-- `TextEncoder` and `TextDecoder`, for UTF-8. -/
structure Text where
  encode : List UInt16 → List UInt8
  decode : List UInt8 → List UInt16

/-! ## Views -/

/-- A `DataView`: where it is in its buffer. -/
structure View where
  byteOffset : ℕ
  byteLength : ℕ

/-- A message that is being encoded: its buffer, and where the next object goes. -/
structure Message where
  buffer : Buffer
  next : ℕ

/-- `new ArrayBuffer(size)`, where there is memory enough. -/
def newBuffer (size : ℤ) : Js Buffer :=
  if 0 ≤ size then .ok (.zero size.toNat) else .error .rangeError

/-- `new DataView(buffer, byteOffset)` -/
def viewFrom (m : Buffer) (byteOffset : ℕ) : Js View :=
  if byteOffset ≤ m.size then .ok ⟨byteOffset, m.size - byteOffset⟩ else .error .rangeError

namespace View

variable (k : Bool) (v : View)

/-- The setters of integers of `w` bytes. -/
def setInt (offset w : ℕ) (value : ℤ) (msg : Message) : Js Message :=
  if offset + w ≤ v.byteLength then
    .ok { msg with
      buffer := msg.buffer.writeUint k (v.byteOffset + offset) w (value % 256 ^ w).toNat }
  else .error .rangeError

/-- The getters of unsigned integers of `w` bytes. -/
def getUint (m : Buffer) (offset w : ℕ) : Js ℕ :=
  if offset + w ≤ v.byteLength then .ok (m.readUint k (v.byteOffset + offset) w)
  else .error .rangeError

/-- The getters of signed integers of `w` bytes, in two's complement. -/
def getInt (m : Buffer) (offset w : ℕ) : Js ℤ := do
  let n ← v.getUint k m offset w
  return if 2 * n < 256 ^ w then n else n - 256 ^ w

/-- `A` -/
def encodeUint32 (offset : ℕ) (value : ℤ) (msg : Message) : Js Message :=
  v.setInt k offset 4 value msg

/-- `D` -/
def decodeUint32 (m : Buffer) (offset : ℕ) : Js ℕ := v.getUint k m offset 4

/-- `p`: the low half, and the high half. -/
def setUint64 (offset : ℕ) (value : ℤ) (msg : Message) : Js Message :=
  if k then do
    let msg ← v.setInt k offset 4 (value % 2 ^ 32) msg
    v.setInt k (offset + 4) 4 (value / 2 ^ 32 % 2 ^ 32) msg
  else do
    let msg ← v.setInt k offset 4 (value / 2 ^ 32 % 2 ^ 32) msg
    v.setInt k (offset + 4) 4 (value % 2 ^ 32) msg

/-- `q` -/
def getUint64 (m : Buffer) (offset : ℕ) : Js ℕ :=
  if k then do
    let lo ← v.getUint k m offset 4
    let hi ← v.getUint k m (offset + 4) 4
    return hi * 2 ^ 32 + lo
  else do
    let lo ← v.getUint k m (offset + 4) 4
    let hi ← v.getUint k m offset 4
    return hi * 2 ^ 32 + lo

/-- `C`: a pointer, as the offset from where it is. -/
def encodeOffset (offset target : ℕ) (msg : Message) : Js Message :=
  v.setUint64 k offset ((target : ℤ) - v.byteOffset - offset) msg

/-- `G`: where a pointer leads; a null one gives zero. -/
def decodeOffset (m : Buffer) (offset : ℕ) : Js ℕ := do
  let c ← v.getUint64 k m offset
  if c = 0 then return 0
  else if 2 ^ 53 - 1 < c then throw (.error "Mesage offset too large")
  else return v.byteOffset + offset + c

/-- `na`: one bit. -/
def encodeBit (offset bit : ℕ) (value : Bool) (msg : Message) : Js Message :=
  if offset + 1 ≤ v.byteLength then
    .ok { msg with buffer := msg.buffer.setBit (v.byteOffset + offset) bit value }
  else .error .rangeError

/-- `getUint8(offset) & 1 << bit` -/
def decodeBit (m : Buffer) (offset : ℤ) (bit : ℕ) : Js Bool :=
  if 0 ≤ offset ∧ offset + 1 ≤ v.byteLength then
    .ok ((m.byte (v.byteOffset + offset.toNat)).toNat.testBit bit)
  else .error .rangeError

end View

/-- `n`: the next multiple of eight. A remainder has the sign of the dividend. -/
def align (a : ℤ) : ℤ := a + (8 - a.tmod 8).tmod 8

/-- `w`: a new object of the message. -/
def allocate (size : ℤ) (msg : Message) : Js (View × Message) :=
  if 0 ≤ align size ∧ msg.next + align size ≤ msg.buffer.size then
    .ok (⟨msg.next, (align size).toNat⟩, { msg with next := msg.next + (align size).toNat })
  else .error .rangeError

/-! ## Types -/

/-- A mojom type. -/
structure MojomType where
  /-- `encode`: at an offset, and a bit, of a view; whether it may be null. -/
  encode : Val → View → ℕ → ℕ → Bool → Message → Js Message
  /-- `D`, which not all types have. -/
  encodeNull : Option (View → ℕ → Message → Js Message) := none
  decode : Buffer → View → ℕ → ℕ → Bool → Js Val
  /-- `H`: the size of what a value points to; not all types have it. -/
  dimensions : Option (Val → Bool → Js ℤ) := none
  /-- `j`, of an element of an array. -/
  arrayElementSize : ℕ
  /-- It is `r`, the type of booleans. -/
  isBool : Bool := false
  /-- It has a `T`: it is a union. -/
  isUnion : Bool := false

/-- `encodeNull` of a type that does not have it is no function. -/
def MojomType.callEncodeNull (t : MojomType) (v : View) (offset : ℕ) (msg : Message) :
    Js Message :=
  match t.encodeNull with
  | some encodeNull => encodeNull v offset msg
  | none => .error .typeError

variable (k : Bool)

/-- `mojo.internal.Uint8`, `Uint16` and `Uint32`, of `w` bytes. -/
def uintType (w : ℕ) : MojomType where
  encode a v offset _ _ msg := do v.setInt k offset w (← a.toNumber) msg
  decode m v offset _ _ := return .number (← v.getUint k m offset w)
  arrayElementSize := w

/-- `mojo.internal.Int8`, `Int16` and `Int32`, of `w` bytes. -/
def intType (w : ℕ) : MojomType where
  encode a v offset _ _ msg := do v.setInt k offset w (← a.toNumber) msg
  decode m v offset _ _ := return .number (← v.getInt k m offset w)
  arrayElementSize := w

/-- `mojo.internal.Enum()` -/
def enumType : MojomType := intType k 4

/-- `mojo.internal.Uint64` -/
def uint64Type : MojomType where
  encode a v offset _ _ msg := do v.setUint64 k offset (← a.toBigInt) msg
  decode m v offset _ _ := return .bigint (← v.getUint64 k m offset)
  arrayElementSize := 8

/-- `mojo.internal.Int64`: the high half is signed. -/
def int64Type : MojomType where
  encode a v offset _ _ msg := do v.setUint64 k offset (← a.toBigInt) msg
  decode m v offset _ _ :=
    if k then do
      let lo ← v.getUint k m offset 4
      let hi ← v.getInt k m (offset + 4) 4
      return .bigint (hi * 2 ^ 32 + lo)
    else do
      let lo ← v.getUint k m (offset + 4) 4
      let hi ← v.getInt k m offset 4
      return .bigint (hi * 2 ^ 32 + lo)
  arrayElementSize := 8

/-- `mojo.internal.Bool` -/
def boolType : MojomType where
  encode a v offset bit _ msg := v.encodeBit offset bit a.truthy msg
  decode m v offset bit _ := return .bool (← v.decodeBit m offset bit)
  arrayElementSize := 0
  isBool := true

end Qlabs.Bindings
