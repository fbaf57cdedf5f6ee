import RatchetSession.Crypto.ChaCha
set_option autoImplicit false

namespace RatchetSession

/-- The position in a keystream: the key, the next block, and the words left of the last one. -/
structure Stream where
  key : Octets 32
  block : Nat
  pending : List UInt32

namespace Stream

/-- One output of the expanding generator: a permuted 64-bit linear congruential state. -/
def permuted (state : UInt64) : UInt32 :=
  let x : UInt32 := (((state >>> 18) ^^^ state) >>> 27).toUInt32
  let r : UInt32 := (state >>> 59).toUInt32
  (x >>> r) ||| (x <<< ((32 - r) % 32))

def expand : Nat → UInt64 → List UInt32
  | 0, _ => []
  | count + 1, state =>
    let state := state * 6364136223846793005 + 11634580027462260723
    permuted state :: expand count state

def ofSeed (seed : UInt64) : Stream where
  key := .fit 32 (ChaCha.serialize (expand 8 seed))
  block := 0
  pending := []

def blockWords (key : Octets 32) (index : Nat) : List UInt32 :=
  (ChaCha.blockWords
    (ChaCha.input key index.toUInt32 (index / 0x100000000).toUInt32 0 0)).toList

def word (s : Stream) : UInt32 × Stream :=
  match s.pending with
  | w :: rest => (w, { s with pending := rest })
  | [] =>
    match blockWords s.key s.block with
    | w :: rest => (w, { s with block := s.block + 1, pending := rest })
    | [] => (0, s)

def wordsOnto (acc : List UInt32) : Nat → Stream → List UInt32 × Stream
  | 0, s => (acc.reverse, s)
  | count + 1, s => wordsOnto (s.word.1 :: acc) count s.word.2

/-- `n` bytes from whole words: what is left of the last word is not used again. -/
def take (n : Nat) (s : Stream) : Octets n × Stream :=
  let result := wordsOnto [] ((n + 3) / 4) s
  (.fit n (ChaCha.serialize result.1), result.2)

end Stream

end RatchetSession
