import RatchetSession.Octets
set_option autoImplicit false

/-!
CBOR as it is written here: definite lengths, the shortest head for each
number, structures as maps with text keys. `Cbor/Reader` reads more than this.
-/

namespace RatchetSession.Cbor

inductive Major where
  | unsigned
  | negative
  | bytes
  | text
  | array
  | map
  | tag
deriving DecidableEq, Repr

def Major.bits : Major → UInt8
  | unsigned => 0x00
  | negative => 0x20
  | bytes => 0x40
  | text => 0x60
  | array => 0x80
  | map => 0xa0
  | tag => 0xc0

/-- The shortest head of a major type and a number below 2^64. -/
def head (major : Major) (value : Nat) : Bytes :=
  if value < 24 then [major.bits ||| value.toUInt8]
  else if value < 0x100 then (major.bits ||| 24) :: natBE 1 value
  else if value < 0x10000 then (major.bits ||| 25) :: natBE 2 value
  else if value < 0x100000000 then (major.bits ||| 26) :: natBE 4 value
  else (major.bits ||| 27) :: natBE 8 value

/-- The head of an array or map whose length no 64-bit number can hold. -/
def openHead (major : Major) : Bytes := [major.bits ||| 31]

def stop : UInt8 := 0xff

def null : Bytes := [0xf6]

def unsigned (value : Nat) : Bytes := head .unsigned value

def mapHead (entries : Nat) : Bytes := head .map entries

def text (value : String) : Bytes :=
  let bytes := value.toUTF8.toList
  head .text bytes.length ++ bytes

def key (name : String) : Bytes := head .text (ascii name).length ++ ascii name

/-- An item holding `count` others: with its length in the head, or stopped if it has no head. -/
def container (major : Major) (count : Nat) (content : Bytes) : Bytes :=
  if count < 0x10000000000000000 then head major count ++ content
  else openHead major ++ content ++ [stop]

def array {α : Type} (item : α → Bytes) (items : List α) : Bytes :=
  container .array items.length (items.flatMap item)

/-- A map, entry by entry; an entry is its key and its value. -/
def map {α : Type} (entry : α → Bytes) (entries : List α) : Bytes :=
  container .map entries.length (entries.flatMap entry)

/-- A byte string as an array of numbers. -/
def numbers (bytes : Bytes) : Bytes := array (fun b => unsigned b.toNat) bytes

def byteString (bytes : Bytes) : Bytes := head .bytes bytes.length ++ bytes

def optional {α : Type} (item : α → Bytes) : Option α → Bytes
  | none => null
  | some value => item value

end RatchetSession.Cbor
