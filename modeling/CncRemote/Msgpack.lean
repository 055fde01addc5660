import Mathlib.Algebra.Order.Ring.Int
import Mathlib.Data.List.OfFn

/-!
# MessagePack

Values of the MessagePack format, and codecs between them and typed data.  A codec converts a value
into an existing object, because a packed array or map may leave members of a structure out.
-/

namespace Msgpack

/-- A packed value.  Floating-point numbers are bit patterns. -/
inductive Value where
  | nil
  | bool (value : Bool)
  | int (value : Int)
  | float (bits : UInt32)
  | double (bits : UInt64)
  | str (bytes : List UInt8)
  | bin (bytes : List UInt8)
  | array (elements : List Value)
  | map (entries : List (Value × Value))

/-- How objects of a type are packed, and how they are converted back. -/
structure Codec (α : Type*) where
  pack : α → Value
  /-- Convert a value into an object; `none` is the exception `type_error`. -/
  convert : α → Value → Option α
  /-- What was packed is converted back, whatever the object held before. -/
  convert_pack : ∀ into value, convert into (pack value) = some value

attribute [simp] Codec.convert_pack

namespace Codec

/-- `as<T>()`, which converts into a new object. -/
def as {α : Type*} [Inhabited α] (codec : Codec α) (value : Value) : Option α :=
  codec.convert default value

@[simp] theorem as_pack {α : Type*} [Inhabited α] (codec : Codec α) (value : α) :
    codec.as (codec.pack value) = some value := codec.convert_pack default value

def bool : Codec Bool where
  pack := .bool
  convert
    | _, .bool value => some value
    | _, _ => none
  convert_pack := fun _ _ => rfl

/-- A signed integer is converted when it is in range. -/
def int : Codec Int32 where
  pack value := .int value.toInt
  convert
    | _, .int value =>
        if -2 ^ 31 ≤ value ∧ value < 2 ^ 31 then some (Int32.ofInt value) else none
    | _, _ => none
  convert_pack into value := by
    dsimp only
    rw [if_pos ⟨value.le_toInt, value.toInt_lt⟩, Int32.ofInt_toInt]

/-- An unsigned integer is converted when it is in range. -/
def uint : Codec UInt32 where
  pack value := .int value.toNat
  convert
    | _, .int value => if 0 ≤ value ∧ value < 2 ^ 32 then some (UInt32.ofNat value.toNat) else none
    | _, _ => none
  convert_pack into value := by
    have below : (value.toNat : Int) < 2 ^ 32 := by exact_mod_cast value.toNat_lt
    dsimp only
    rw [if_pos ⟨Int.natCast_nonneg _, below⟩, Int.toNat_natCast, UInt32.ofNat_toNat]

/-- A string is packed as text and converted from text or binary data. -/
def string : Codec (List UInt8) where
  pack := .str
  convert
    | _, .str bytes | _, .bin bytes => some bytes
    | _, _ => none
  convert_pack := fun _ _ => rfl

end Codec

/-- Shift right, rounding half to even. -/
def roundShift (mantissa places : Nat) : Nat :=
  let quotient := mantissa >>> places
  let rest := mantissa % 2 ^ places
  if 2 * rest < 2 ^ places ∨ 2 * rest = 2 ^ places ∧ quotient % 2 = 0 then quotient
  else quotient + 1

/-- The bits of the double that is nearest to a natural number below 2 ^ 1023. -/
def doubleOfNat (value : Nat) : UInt64 :=
  if value = 0 then 0
  else
    let exponent := value.log2
    let mantissa :=
      if exponent ≤ 52 then value <<< (52 - exponent) else roundShift value (exponent - 52)
    UInt64.ofNat ((exponent + 1023) <<< 52 + (mantissa - 2 ^ 52))

/-- The bits of the double that is nearest to an integer. -/
def doubleOfInt : Int → UInt64
  | .ofNat value => doubleOfNat value
  | .negSucc value => doubleOfNat (value + 1) ||| 0x8000000000000000

/-- The bits of the double that has the value of a float. -/
def doubleOfFloat (bits : UInt32) : UInt64 :=
  let sign := bits.toNat / 2 ^ 31
  let exponent := bits.toNat / 2 ^ 23 % 2 ^ 8
  let fraction := bits.toNat % 2 ^ 23
  let magnitude :=
    if exponent = 255 then 2047 <<< 52 + fraction <<< 29
    else if exponent = 0 then
      if fraction = 0 then 0
      else (fraction.log2 + 874) <<< 52 + (fraction <<< (52 - fraction.log2) - 2 ^ 52)
    else (exponent + 896) <<< 52 + fraction <<< 29
  UInt64.ofNat (sign <<< 63 + magnitude)

/-- 3, -2 and 2 ^ 53 + 1, and the floats 1.5 and 2 ^ -149. -/
example : doubleOfInt 3 = 0x4008000000000000 ∧ doubleOfInt (-2) = 0xC000000000000000 ∧
    doubleOfInt 9007199254740993 = 0x4340000000000000 ∧
    doubleOfFloat 0x3FC00000 = 0x3FF8000000000000 ∧
    doubleOfFloat 1 = 0x36A0000000000000 := by decide

/-- The bits of the float that is nearest to a natural number below 2 ^ 127. -/
def floatOfNat (value : Nat) : UInt32 :=
  if value = 0 then 0
  else
    let exponent := value.log2
    let mantissa :=
      if exponent ≤ 23 then value <<< (23 - exponent) else roundShift value (exponent - 23)
    UInt32.ofNat ((exponent + 127) <<< 23 + (mantissa - 2 ^ 23))

/-- The bits of the float that is nearest to an integer. -/
def floatOfInt : Int → UInt32
  | .ofNat value => floatOfNat value
  | .negSucc value => floatOfNat (value + 1) ||| 0x80000000

/-- The bits of the float that is nearest to a double. -/
def floatOfDouble (bits : UInt64) : UInt32 :=
  let sign := bits.toNat / 2 ^ 63
  let exponent := bits.toNat / 2 ^ 52 % 2 ^ 11
  let fraction := bits.toNat % 2 ^ 52
  let infinity := 255 <<< 23
  let magnitude :=
    if exponent = 2047 then
      if fraction = 0 then infinity else infinity + 2 ^ 22 + fraction % 2 ^ 51 / 2 ^ 29
    else if exponent ≤ 896 then
      roundShift (if exponent = 0 then fraction else 2 ^ 52 + fraction) (926 - exponent)
    else min infinity ((exponent - 897) <<< 23 + roundShift (2 ^ 52 + fraction) 29)
  UInt32.ofNat (sign <<< 31 + magnitude)

/-- 3, -2 and 2 ^ 24 + 1, and the doubles 1.5, 1e300 and 2 ^ -149. -/
example : floatOfInt 3 = 0x40400000 ∧ floatOfInt (-2) = 0xC0000000 ∧
    floatOfInt 16777217 = 0x4B800000 ∧ floatOfDouble 0x3FF8000000000000 = 0x3FC00000 ∧
    floatOfDouble 0x7E37E43C8800759C = 0x7F800000 ∧
    floatOfDouble 0x36A0000000000000 = 1 := by decide

/-- Collect the values of a family, if all of them exist. -/
def traverse {α : Type*} {n : Nat} (family : Fin n → Option α) : Option (Fin n → α) :=
  if defined : ∀ index, (family index).isSome then
    some fun index => (family index).get (defined index)
  else
    none

@[simp] theorem traverse_some {α : Type*} {n : Nat} (family : Fin n → α) :
    traverse (fun index => some (family index)) = some family := by
  simp [traverse]

namespace Codec

/-- A double is packed as such and converted from every kind of number. -/
def double : Codec UInt64 where
  pack := .double
  convert
    | _, .double bits => some bits
    | _, .float bits => some (doubleOfFloat bits)
    | _, .int value => some (doubleOfInt value)
    | _, _ => none
  convert_pack := fun _ _ => rfl

/-- A float is packed as such and converted from every kind of number. -/
def float : Codec UInt32 where
  pack := .float
  convert
    | _, .float bits => some bits
    | _, .double bits => some (floatOfDouble bits)
    | _, .int value => some (floatOfInt value)
    | _, _ => none
  convert_pack := fun _ _ => rfl

/-- A C array, whose trailing elements may be missing in the value. -/
def cArray {α : Type*} (n : Nat) (codec : Codec α) : Codec (Fin n → α) where
  pack elements := .array (List.ofFn fun index => codec.pack (elements index))
  convert
    | into, .array values =>
        if values.length ≤ n then
          traverse fun index =>
            match values[index.val]? with
            | some value => codec.convert (into index) value
            | none => some (into index)
        else none
    | _, _ => none
  convert_pack into elements := by
    simp

/-- A structure whose only member is packed by `MSGPACK_DEFINE_ARRAY`. -/
def single {α : Type*} (codec : Codec α) : Codec α where
  pack member := .array [codec.pack member]
  convert
    | into, .array [] => some into
    | into, .array (value :: _) => codec.convert into value
    | _, _ => none
  convert_pack into member := by
    simp

/-- The value that a map holds for a text key. -/
def lookup (key : List UInt8) (entries : List (Value × Value)) : Option Value :=
  entries.findSome? fun entry =>
    match entry.1 with
    | .str bytes => if bytes = key then some entry.2 else none
    | _ => none

/-- Convert the member of a structure that is packed by `MSGPACK_DEFINE_MAP`, if it is there. -/
def convertMember {α : Type*} (codec : Codec α) (key : List UInt8)
    (entries : List (Value × Value)) (into : α) : Option α :=
  match lookup key entries with
  | some value => codec.convert into value
  | none => some into

/-- A structure of two members that is packed by `MSGPACK_DEFINE_MAP`. -/
def map2 {α β : Type*} (firstKey secondKey : List UInt8) (distinct : firstKey ≠ secondKey)
    (first : Codec α) (second : Codec β) : Codec (α × β) where
  pack members :=
    .map [(.str firstKey, first.pack members.1), (.str secondKey, second.pack members.2)]
  convert
    | into, .map entries =>
        (first.convertMember firstKey entries into.1).bind fun firstMember =>
          (second.convertMember secondKey entries into.2).map (firstMember, ·)
    | _, _ => none
  convert_pack into members := by
    simp [convertMember, lookup, distinct]

/-- The same codec for a type that wraps the packed one. -/
def wrapped {α β : Type*} (wrap : α → β) (unwrap : β → α)
    (inverse : ∀ value, wrap (unwrap value) = value) (codec : Codec α) : Codec β where
  pack value := codec.pack (unwrap value)
  convert into value := (codec.convert (unwrap into) value).map wrap
  convert_pack into value := by
    simp [inverse]

end Codec

/-- Members of a structure that are packed one after the other. -/
structure Members (α : Type*) where
  pack : α → List Value
  /-- Convert the values into the members of an object; a member without a value is left alone. -/
  convert : α → List Value → Option α
  /-- What was packed is converted back, whatever the object held before. -/
  convert_pack : ∀ into value, convert into (pack value) = some value

attribute [simp] Members.convert_pack

namespace Members

/-- No members are left. -/
def nil : Members Unit where
  pack _ := []
  convert into _ := some into
  convert_pack := fun _ _ => rfl

/-- One more member in front. -/
def cons {α β : Type*} (codec : Codec α) (rest : Members β) : Members (α × β) where
  pack members := codec.pack members.1 :: rest.pack members.2
  convert
    | into, [] => some into
    | into, value :: values =>
        (codec.convert into.1 value).bind fun first =>
          (rest.convert into.2 values).map (first, ·)
  convert_pack into members := by
    simp

end Members

/-- A structure that is packed by `MSGPACK_DEFINE_ARRAY`. -/
def Codec.array {α : Type*} (members : Members α) : Codec α where
  pack value := .array (members.pack value)
  convert
    | into, .array values => members.convert into values
    | _, _ => none
  convert_pack into value := by
    simp

/-- A `std::vector`, which is packed element by element. -/
def packVector {α : Type*} (pack : α → Value) (elements : List α) : Value :=
  .array (elements.map pack)

/-- Convert each value into the new element at its place. -/
def convertElements {α : Type*} (convert : α → Value → Option α) :
    (Nat → α) → List Value → Option (List α)
  | _, [] => some []
  | fresh, value :: values =>
      (convert (fresh 0) value).bind fun element =>
        (convertElements convert (fun index => fresh (index + 1)) values).map (element :: ·)

/-- Convert an array into an empty vector, which is first given as many new elements. -/
def convertVector {α : Type*} (convert : α → Value → Option α) (fresh : Nat → α) :
    Value → Option (List α)
  | .array values => convertElements convert fresh values
  | _ => none

/-- Every element comes back as far as its own conversion goes. -/
theorem convertVector_packVector {α : Type*} {pack : α → Value} {convert : α → Value → Option α}
    {merge : α → α → α}
    (converts : ∀ into value, convert into (pack value) = some (merge into value))
    (fresh : Nat → α) (elements : List α) :
    convertVector convert fresh (packVector pack elements) =
      some (elements.mapIdx fun index element => merge (fresh index) element) := by
  change convertElements convert fresh (elements.map pack) = _
  induction elements generalizing fresh with
  | nil => rfl
  | cons element elements ih =>
      rw [List.map_cons, convertElements, converts, Option.bind_some, ih, Option.map_some,
        List.mapIdx_cons]

/-- A `std::vector`, which is given as many elements as the value has before they are converted. -/
def Codec.vector {α : Type*} [Inhabited α] (codec : Codec α) : Codec (List α) where
  pack := packVector codec.pack
  convert into := convertVector codec.convert fun index => into.getD index default
  convert_pack into elements := by
    rw [convertVector_packVector (fun into value => codec.convert_pack into value)]
    exact congrArg some (List.mapIdx_eq_iff.mpr fun index => by simp)

end Msgpack
