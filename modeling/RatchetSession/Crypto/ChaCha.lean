import RatchetSession.Octets
set_option autoImplicit false

/-!
The ChaCha20 block function and HChaCha20, on sixteen words. Counter
layout is left to the callers: a block is a function of the whole input state.
-/

namespace RatchetSession.ChaCha

abbrev State := Vector UInt32 16

def rotateLeft (x n : UInt32) : UInt32 := (x <<< n) ||| (x >>> (32 - n))

def quarterRound (s : State) (a b c d : Fin 16) : State :=
  let xa := s[a] + s[b]
  let xd := rotateLeft (s[d] ^^^ xa) 16
  let xc := s[c] + xd
  let xb := rotateLeft (s[b] ^^^ xc) 12
  let ya := xa + xb
  let yd := rotateLeft (xd ^^^ ya) 8
  let yc := xc + yd
  let yb := rotateLeft (xb ^^^ yc) 7
  (((s.set a ya).set b yb).set c yc).set d yd

def doubleRound (s : State) : State :=
  let s := quarterRound s 0 4 8 12
  let s := quarterRound s 1 5 9 13
  let s := quarterRound s 2 6 10 14
  let s := quarterRound s 3 7 11 15
  let s := quarterRound s 0 5 10 15
  let s := quarterRound s 1 6 11 12
  let s := quarterRound s 2 7 8 13
  quarterRound s 3 4 9 14

def permute (s : State) : State := Nat.repeat doubleRound 10 s

def wordLE (bytes : Bytes) (i : Nat) : UInt32 := (leNat ((bytes.drop (4 * i)).take 4)).toUInt32

/-- The four words every input state starts with, "expand 32-byte k" in ASCII. -/
def constants : Vector UInt32 4 := #v[0x61707865, 0x3320646e, 0x79622d32, 0x6b206574]

def input (key : Octets 32) (w0 w1 w2 w3 : UInt32) : State :=
  constants ++ Vector.ofFn (fun i : Fin 8 => wordLE key.toList i) ++ #v[w0, w1, w2, w3]

def blockWords (s : State) : Vector UInt32 16 :=
  Vector.zipWith (· + ·) (permute s) s

def serialize (words : List UInt32) : Bytes := words.flatMap fun w => natLE 4 w.toNat

def block (s : State) : Bytes := serialize (blockWords s).toList

/-- HChaCha20: the first and last four words of the permuted state of a key and sixteen bytes. -/
def subkey (key : Octets 32) (nonce : Bytes) : Octets 32 :=
  let s := permute (input key (wordLE nonce 0) (wordLE nonce 1) (wordLE nonce 2) (wordLE nonce 3))
  .fit 32 (serialize (s.toList.take 4 ++ s.toList.drop 12))

end RatchetSession.ChaCha
