import RatchetSession.Error
set_option autoImplicit false

namespace RatchetSession.Padding

def blockSize : Nat := 160

def marker : UInt8 := 0x80

/-- The least multiple of the block size that leaves room for the marker. -/
def paddedLength (length : Nat) : Nat := (length + 1 + (blockSize - 1)) / blockSize * blockSize

def pad (plaintext : Bytes) : Bytes :=
  plaintext ++ marker :: List.replicate (paddedLength plaintext.length - (plaintext.length + 1)) 0

/-- What stands before the last byte that is not zero, which must be the marker. -/
def unpad (padded : Bytes) : Except SessionError Bytes :=
  match padded.reverse.dropWhile (· == 0) with
  | [] => .error .invalidPadding
  | last :: rest => if last = marker then .ok rest.reverse else .error .invalidPadding

theorem unpad_pad (plaintext : Bytes) : unpad (pad plaintext) = .ok plaintext := by
  simp [unpad, pad, marker]

end RatchetSession.Padding
