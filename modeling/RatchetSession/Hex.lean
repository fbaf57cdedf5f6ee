import RatchetSession.Octets
set_option autoImplicit false

namespace RatchetSession.Hex

def digit (value : UInt8) : Char :=
  if value < 10 then Char.ofNat (48 + value.toNat) else Char.ofNat (87 + value.toNat)

def encodeByte (byte : UInt8) : List Char := [digit (byte >>> 4), digit (byte &&& 15)]

def encode (bytes : Bytes) : String := String.ofList (bytes.flatMap encodeByte)

def value? (c : Char) : Option UInt8 :=
  if '0' ≤ c ∧ c ≤ '9' then some (c.toNat - 48).toUInt8
  else if 'a' ≤ c ∧ c ≤ 'f' then some (c.toNat - 87).toUInt8
  else if 'A' ≤ c ∧ c ≤ 'F' then some (c.toNat - 55).toUInt8
  else none

/-- Reads digit pairs onto `acc`, which holds the bytes read so far in reverse. -/
def decodeOnto (acc : Bytes) : List Char → Option Bytes
  | [] => some acc.reverse
  | high :: low :: rest =>
    match value? high, value? low with
    | some h, some l => decodeOnto ((h <<< 4 ||| l) :: acc) rest
    | _, _ => none
  | [_] => none

/-- Refuses an odd digit count and any other character. -/
def decode (text : String) : Option Bytes := decodeOnto [] text.toList

end RatchetSession.Hex
