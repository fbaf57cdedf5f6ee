import RatchetSession.Crypto.Aead
set_option autoImplicit false

namespace RatchetSession

namespace ChaCha

theorem length_serialize (words : List UInt32) : (serialize words).length = 4 * words.length := by
  induction words with
  | nil => rfl
  | cons word rest ih =>
    simp only [serialize, List.flatMap_cons, List.length_append, natLE_length, List.length_cons] at ih ⊢
    omega

theorem length_block (s : State) : (block s).length = 64 := by
  rw [block, length_serialize, Vector.length_toList]

end ChaCha

namespace Aead

variable (key : Octets 32)

theorem length_keystreamBlock (nonceTail : Bytes) (index : Nat) :
    (keystreamBlock key nonceTail index).length = 64 :=
  ChaCha.length_block _

theorem length_applyBlocks (nonceTail : Bytes) (count index : Nat) (text : Bytes) :
    (applyBlocks key nonceTail count index text).flatten.length = min (64 * count) text.length := by
  induction count generalizing index text with
  | zero => simp [applyBlocks]
  | succ count ih =>
    simp only [applyBlocks, List.flatten_cons, List.length_append, List.length_zipWith,
      List.length_take, length_keystreamBlock, ih, List.length_drop]
    omega

theorem length_applyKeystream (nonceTail text : Bytes) :
    (applyKeystream key nonceTail text).length = text.length := by
  rw [applyKeystream, length_applyBlocks]
  omega

theorem length_encrypt (nonce : Octets 24) (associated plaintext : Bytes) :
    (encrypt key nonce associated plaintext).length = plaintext.length + tagLength := by
  simp only [encrypt, tag, List.length_append, length_applyKeystream, Octets.length_toList, tagLength]

end Aead

end RatchetSession
