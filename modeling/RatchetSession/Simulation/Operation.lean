import RatchetSession.Courier
set_option autoImplicit false

namespace RatchetSession

/-- A short content, expanded from a seed and a class of size. -/
structure Content where
  seed : UInt8
  sizeClass : UInt8
deriving DecidableEq, Repr

namespace Content

def length (c : Content) : Nat :=
  if c.sizeClass % 4 = 0 then 0
  else if c.sizeClass % 4 = 1 then 8
  else if c.sizeClass % 4 = 2 then 64
  else 200

def toBytes (c : Content) : Bytes := (List.range c.length).map fun i => c.seed + i.toUInt8

end Content

inductive Side where
  | first
  | second
deriving DecidableEq, Repr

namespace Side

def other : Side → Side
  | first => second
  | second => first

def pick {α : Type} (one two : α) : Side → α
  | first => one
  | second => two

def ofNumber (n : UInt8) : Side := if n % 2 = 0 then first else second

end Side

inductive Operation where
  | send (sender : Side) (content : Content)
  | deliver (slot : UInt8)
  | duplicate (slot : UInt8)
  | lose (slot : UInt8)
deriving DecidableEq, Repr

namespace Operation

def isSend : Operation → Bool
  | send _ _ => true
  | _ => false

def isDeliver : Operation → Bool
  | deliver _ => true
  | _ => false

end Operation

inductive Outcome where
  | sent
  | delivered (plaintext : Bytes)
  /-- An operation of the courier alone, or nothing in flight. -/
  | idle
  | noSession
  | duplicate
  | unexpected
deriving DecidableEq, Repr

end RatchetSession
