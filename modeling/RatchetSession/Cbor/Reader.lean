import RatchetSession.Cbor.Token
set_option autoImplicit false

/-!
Typed readers. They are more liberal than `Cbor/Head` writes: tags in front of a value
are passed over, numbers may have any head or be tagged big numbers, lengths may be
absent, and byte strings and arrays of numbers stand for each other. Failures are
found in the order of the input.
-/

namespace RatchetSession.Cbor

/-- The first token that is not a tag. -/
def untaggedFrom : (clock : Bytes) → Bytes → EStateM.Result Fault Bytes Token
  | [], s => .error .ended s
  | _ :: clock, s =>
    match token s with
    | .ok (.tag _) rest => untaggedFrom clock rest
    | result => result

def untagged : Reader Token := fun s => untaggedFrom s s

/-- A big number read so far: its digits in base 256 without leading zeros, and its value. -/
structure BigNumber where
  digits : Nat := 0
  value : Nat := 0

def maxDigits : Nat := 16

/-- Appends digits; `none` when there are too many. -/
def BigNumber.push : BigNumber → Bytes → Option BigNumber
  | number, [] => some number
  | number, b :: rest =>
    if number.digits = maxDigits then none
    else if number.digits = 0 ∧ b = 0 then number.push rest
    else BigNumber.push ⟨number.digits + 1, 256 * number.value + b.toNat⟩ rest

/-- A segment of a big number, sixteen bytes at a time. -/
def bigSegment :
    (clock : Bytes) → Nat → BigNumber → Bytes → EStateM.Result Fault Bytes BigNumber
  | _, 0, number, s => .ok number s
  | [], _ + 1, _, s => .error .ended s
  | _ :: clock, length + 1, number, s =>
    match take (min 16 (length + 1)) s with
    | .ok chunk rest =>
      match number.push chunk with
      | some number => bigSegment clock (length + 1 - 16) number rest
      | none => .error .unexpected rest
    | .error fault rest => .error fault rest

def bigNumber : Reader Nat := fun s =>
  match token s with
  | .ok (.bytes length) rest =>
    (BigNumber.value <$>
      stringContent Token.bytesLength? (fun n number s => bigSegment s n number s) {} length) rest
  | .ok _ rest => .error .unexpected rest
  | .error fault rest => .error fault rest

/-- The value of an integer that is not negative; `none` for one that is. -/
def integerFrom : (clock : Bytes) → Bytes → EStateM.Result Fault Bytes (Option Nat)
  | [], s => .error .ended s
  | _ :: clock, s =>
    match token s with
    | .ok (.unsigned value) rest => .ok (some value) rest
    | .ok (.negative _) rest => .ok none rest
    | .ok (.tag 2) rest => (some <$> bigNumber) rest
    | .ok (.tag 3) rest => ((fun _ => none) <$> bigNumber) rest
    | .ok (.tag _) rest => integerFrom clock rest
    | .ok _ rest => .error .unexpected rest
    | .error fault rest => .error fault rest

def number (bound : Nat) : Reader Nat := fun s =>
  match integerFrom s s with
  | .ok (some value) rest => if value < bound then .ok value rest else .error .unexpected rest
  | .ok none rest => .error .unexpected rest
  | .error fault rest => .error fault rest

def byte : Reader UInt8 := (·.toUInt8) <$> number 0x100

def word : Reader UInt32 := (·.toUInt32) <$> number 0x100000000

def byteSequence (depth : Nat) : Reader Bytes := fun s =>
  match untagged s with
  | .ok (.array count) rest => nested depth (fun _ s => items byte [] s count s) rest
  | .ok (.bytes length) rest => bytesContent length rest
  | .ok _ rest => .error .unexpected rest
  | .error fault rest => .error fault rest

/-- `n` bytes of an array, behind `acc` in reverse, and whether more are announced. What follows
them, a stop included, is not read. -/
def firstBytes (acc : Bytes) : Nat → Option Nat → Bytes →
    EStateM.Result Fault Bytes (Bytes × Option Nat)
  | 0, count, s => .ok (acc.reverse, count) s
  | n + 1, count, s =>
    match more count s with
    | .ok none rest => .error .unexpected rest
    | .ok (some count) rest =>
      match byte rest with
      | .ok b rest => firstBytes (b :: acc) n count rest
      | .error fault rest => .error fault rest
    | .error fault rest => .error fault rest

def toOctets (n : Nat) (bytes : Bytes) : Reader (Octets n) :=
  match Octets.ofList? n bytes with
  | some octets => pure octets
  | none => throw .unexpected

/-- The first `n` bytes of an array or a byte string. -/
def octets (n : Nat) (depth : Nat) : Reader (Octets n) := fun s =>
  match untagged s with
  | .ok (.array count) rest =>
    nested depth (fun _ => firstBytes [] n count >>= fun first => toOctets n first.1) rest
  | .ok (.bytes length) rest =>
    (bytesContent length >>= fun bytes => toOctets n (bytes.take n)) rest
  | .ok _ rest => .error .unexpected rest
  | .error fault rest => .error fault rest

/-- Exactly `n` bytes: a byte string of known length, or an array. A failure to read an item past
the last one ends an array like its stop. -/
def exactOctets (n : Nat) (depth : Nat) : Reader (Octets n) := fun s =>
  match untagged s with
  | .ok (.array count) rest =>
    nested depth (fun _ s =>
      match firstBytes [] n count s with
      | .ok (bytes, count) rest =>
        match more count rest with
        | .ok none rest => toOctets n bytes rest
        | .error _ rest => toOctets n bytes rest
        | .ok (some _) rest =>
          match byte rest with
          | .ok _ rest => .error .unexpected rest
          | .error _ rest => toOctets n bytes rest
      | .error fault rest => .error fault rest) rest
  | .ok (.bytes (some length)) rest =>
    if length ≤ bufferSize then (take length >>= toOctets n) rest
    else .error .unexpected rest
  | .ok _ rest => .error .unexpected rest
  | .error fault rest => .error fault rest

/-- Null and undefined are nothing; a tag in front of them is not allowed. -/
def option {α : Type} (item : Reader α) : Reader (Option α) := fun s =>
  match token s with
  | .ok (.simple 22) rest => .ok none rest
  | .ok (.simple 23) rest => .ok none rest
  | .ok _ _ => (some <$> item) s
  | .error fault rest => .error fault rest

/-- An array. An empty byte string passes for an empty one. -/
def arrayOf {α : Type} (item : Nat → Reader α) (depth : Nat) : Reader (List α) := fun s =>
  match untagged s with
  | .ok (.array count) rest => nested depth (fun depth s => items (item depth) [] s count s) rest
  | .ok (.bytes length) rest =>
    (bytesContent length >>= fun bytes =>
      if bytes.isEmpty then pure [] else throw .unexpected) rest
  | .ok _ rest => .error .unexpected rest
  | .error fault rest => .error fault rest

def mapOf {α : Type} (entry : Nat → Reader α) (depth : Nat) : Reader (List α) := fun s =>
  match untagged s with
  | .ok (.map count) rest => nested depth (fun depth s => items (entry depth) [] s count s) rest
  | .ok _ rest => .error .unexpected rest
  | .error fault rest => .error fault rest

/-- The items of a container that is passed over, where `inner` passes over one; too deep without
it. -/
def skipContent (inner : Option (Reader Unit)) (count : Option Nat) : Reader Unit := fun s =>
  match inner with
  | some inner =>
    match items inner [] s count s with
    | .ok _ rest => .ok () rest
    | .error fault rest => .error fault rest
  | none => .error .tooDeep s

/-- The length of the big number that a tag and the token after it announce. Only a byte string of
known length and with no more than the digits allowed counts as one. -/
def bigLength? (tag : Nat) : Token → Option Nat
  | .bytes (some length) => if (tag = 2 ∨ tag = 3) ∧ length ≤ maxDigits then some length else none
  | _ => none

/-- Passes over what a tag stands in front of: a big number, which must not lie below -2^127, or
else one item inside the tag. -/
def skipTagged (inner : Option (Reader Unit)) (tag : Nat) : Reader Unit := fun s =>
  match token s with
  | .ok next rest =>
    match bigLength? tag next with
    | some length =>
      (take length >>= fun digits =>
        if tag = 3 ∧ 0x80000000000000000000000000000000 ≤ beNat digits then throw .unexpected else pure ()) rest
    | none => inner.getD (throw .tooDeep) s
  | .error fault rest => .error fault rest

def skipItem (inner : Option (Reader Unit)) : Reader Unit := fun s =>
  match token s with
  | .ok (.unsigned _) rest => .ok () rest
  | .ok (.negative _) rest => .ok () rest
  | .ok (.bytes length) rest => ((fun _ => ()) <$> bytesContent length) rest
  | .ok (.text length) rest => textContent length rest
  | .ok (.array count) rest => skipContent inner count rest
  | .ok (.map count) rest =>
    skipContent (inner.map fun item => item >>= fun _ => item) count rest
  | .ok (.tag number) rest => skipTagged inner number rest
  | .ok (.simple value) rest =>
    if 20 ≤ value ∧ value ≤ 23 then .ok () rest else .error .unexpected rest
  | .ok .float rest => .ok () rest
  | .ok .stop rest => .error .unexpected rest
  | .error fault rest => .error fault rest

def skip : (depth : Nat) → Reader Unit
  | 0 => skipItem none
  | depth + 1 => skipItem (some (skip depth))

def fieldName : Reader Bytes := fun s =>
  match untagged s with
  | .ok (.text (some length)) rest =>
    if length ≤ bufferSize then utf8 length rest else .error .unexpected rest
  | .ok (.bytes (some length)) rest =>
    if length ≤ bufferSize then take length rest else .error .unexpected rest
  | .ok _ rest => .error .unexpected rest
  | .error fault rest => .error fault rest

/-- How the fields of a structure are read onto what is known of it: `none` for a name that the
structure does not have. -/
abbrev Fields (σ : Type) := (depth : Nat) → (name : Bytes) → σ → Option (Reader σ)

/-- A field's value, stored by `set`, unless the field was there before. -/
def once {α σ : Type} (known : Option α) (value : Reader α) (set : α → σ) : Option (Reader σ) :=
  some (if known.isSome then throw .unexpected else set <$> value)

/-- One field after another, in any order; unknown ones are passed over. -/
def fieldsFrom {σ : Type} (fields : Fields σ) (depth : Nat) :
    (clock : Bytes) → Option Nat → σ → Bytes → EStateM.Result Fault Bytes σ
  | _, some 0, acc, s => .ok acc s
  | [], _, _, s => .error .ended s
  | _ :: clock, count, acc, s =>
    match more count s with
    | .ok none rest => .ok acc rest
    | .ok (some count) rest =>
      match fieldName rest with
      | .ok name rest =>
        match fields depth name acc with
        | some reader =>
          match reader rest with
          | .ok acc rest => fieldsFrom fields depth clock count acc rest
          | .error fault rest => .error fault rest
        | none =>
          match skip depth rest with
          | .ok _ rest => fieldsFrom fields depth clock count acc rest
          | .error fault rest => .error fault rest
      | .error fault rest => .error fault rest
    | .error fault rest => .error fault rest

/-- A map read as a structure, which is complete when `finish` gives a value. -/
def structureOf {σ α : Type} (fields : Fields σ) (start : σ) (finish : σ → Option α)
    (depth : Nat) : Reader α := fun s =>
  match untagged s with
  | .ok (.map count) rest =>
    nested depth (fun depth s =>
      match fieldsFrom fields depth s count start s with
      | .ok known rest =>
        match finish known with
        | some value => .ok value rest
        | none => .error .unexpected rest
      | .error fault rest => .error fault rest) rest
  | .ok _ rest => .error .unexpected rest
  | .error fault rest => .error fault rest

end RatchetSession.Cbor
