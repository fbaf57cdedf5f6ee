import RatchetSession.Crypto.ChaCha
import RatchetSession.Crypto.Poly1305
set_option autoImplicit false

namespace RatchetSession.Aead

def tagLength : Nat := 16

/-- A text has fewer whole blocks than a 32-bit counter counts. -/
def maxPlaintext : Nat := 64 * 0xffffffff - 1

def keystreamBlock (key : Octets 32) (nonceTail : Bytes) (index : Nat) : Bytes :=
  ChaCha.block (ChaCha.input key index.toUInt32 0 (ChaCha.wordLE nonceTail 0)
    (ChaCha.wordLE nonceTail 1))

def applyBlocks (key : Octets 32) (nonceTail : Bytes) : Nat → Nat → Bytes → List Bytes
  | 0, _, _ => []
  | count + 1, index, text =>
    List.zipWith (· ^^^ ·) (text.take 64) (keystreamBlock key nonceTail index) ::
      applyBlocks key nonceTail count (index + 1) (text.drop 64)

/-- Adds the keystream, which starts at block one; block zero makes the tag key. -/
def applyKeystream (key : Octets 32) (nonceTail : Bytes) (text : Bytes) : Bytes :=
  (applyBlocks key nonceTail ((text.length + 63) / 64) 1 text).flatten

def fill16 (bytes : Bytes) : Bytes := List.replicate ((16 - bytes.length % 16) % 16) 0

/-- What the tag covers: both parts filled to sixteen bytes, then their lengths. -/
def authenticated (associated ciphertext : Bytes) : Bytes :=
  associated ++ fill16 associated ++ ciphertext ++ fill16 ciphertext ++
    natLE 8 associated.length ++ natLE 8 ciphertext.length

def tag (key : Octets 32) (nonceTail associated ciphertext : Bytes) : Bytes :=
  (Poly1305.tag (.fit 32 (keystreamBlock key nonceTail 0))
    (authenticated associated ciphertext)).toList

def encrypt (key : Octets 32) (nonce : Octets 24) (associated plaintext : Bytes) : Bytes :=
  let subkey := ChaCha.subkey key (nonce.toList.take 16)
  let tail := nonce.toList.drop 16
  let ciphertext := applyKeystream subkey tail plaintext
  ciphertext ++ tag subkey tail associated ciphertext

def decrypt? (key : Octets 32) (nonce : Octets 24) (associated sealedText : Bytes) :
    Option Bytes :=
  if sealedText.length < tagLength || maxPlaintext + tagLength < sealedText.length then none
  else
    let subkey := ChaCha.subkey key (nonce.toList.take 16)
    let tail := nonce.toList.drop 16
    let ciphertext := sealedText.take (sealedText.length - tagLength)
    if tag subkey tail associated ciphertext = sealedText.drop (sealedText.length - tagLength) then
      some (applyKeystream subkey tail ciphertext)
    else none

end RatchetSession.Aead
