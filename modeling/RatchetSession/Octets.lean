set_option autoImplicit false

namespace RatchetSession

abbrev Bytes := List UInt8

structure Octets (n : Nat) where
  toList : Bytes
  length_toList : toList.length = n
deriving DecidableEq

namespace Octets

theorem ext {n : Nat} {a b : Octets n} (h : a.toList = b.toList) : a = b := by
  cases a
  cases b
  cases h
  rfl

attribute [simp] length_toList

def replicate (n : Nat) (byte : UInt8) : Octets n :=
  ⟨List.replicate n byte, List.length_replicate⟩

instance {n : Nat} : Inhabited (Octets n) := ⟨replicate n 0⟩

def ofList? (n : Nat) (bytes : Bytes) : Option (Octets n) :=
  if h : bytes.length = n then some ⟨bytes, h⟩ else none

/-- The first `n` bytes, filled up with zeros where the string is shorter. -/
def fit (n : Nat) (bytes : Bytes) : Octets n :=
  ⟨(bytes ++ List.replicate n 0).take n, by simp⟩

end Octets

/-- The value of a byte string whose first byte is the least significant. -/
def leNat : Bytes → Nat
  | [] => 0
  | b :: rest => b.toNat + 256 * leNat rest

def beNat (bytes : Bytes) : Nat :=
  bytes.foldl (fun value b => 256 * value + b.toNat) 0

def natLE : Nat → Nat → Bytes
  | 0, _ => []
  | n + 1, value => value.toUInt8 :: natLE n (value / 256)

@[simp] theorem natLE_length (n value : Nat) : (natLE n value).length = n := by
  induction n generalizing value with
  | zero => rfl
  | succ n ih => simp [natLE, ih]

def natBE (n value : Nat) : Bytes := (natLE n value).reverse

@[simp] theorem natBE_length (n value : Nat) : (natBE n value).length = n := by
  simp [natBE]

def Octets.ofNatLE (n value : Nat) : Octets n := ⟨natLE n value, natLE_length n value⟩

def u32BE (word : UInt32) : Bytes := natBE 4 word.toNat

@[simp] theorem u32BE_length (word : UInt32) : (u32BE word).length = 4 := by
  simp [u32BE]

def ascii (text : String) : Bytes := text.toList.map fun c => c.toNat.toUInt8

end RatchetSession
