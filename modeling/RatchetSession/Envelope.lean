import RatchetSession.Envelope.Header
import RatchetSession.Message.Codec
set_option autoImplicit false

/-!
Envelopes: a header and the CBOR form of one message. Reading accepts what writing
produces and nothing else.
-/

namespace RatchetSession.Envelope

def encode (m : Message) : Except WireError Bytes :=
  let body := m.toCbor
  if maxPayload < body.length then .error (.payloadTooLarge body.length maxPayload)
  else .ok ((Header.mk m.kind body.length.toUInt32).toBytes ++ body)

/-- The message whose CBOR form is the whole payload. A payload that reads as a message but is
written otherwise is refused. -/
def decodeBody (kind : MessageKind) (payload : Bytes) : Except WireError Message :=
  match Message.reader kind payload with
  | .error fault _ => .error (.decode fault.text)
  | .ok message rest =>
    if rest.isEmpty then
      if message.toCbor == payload then .ok message
      else .error (.decode "non-canonical encoding")
    else .error (.trailingBytes rest.length)

def decode (bytes : Bytes) : Except WireError Message :=
  match Header.ofBytes bytes with
  | .error fault => .error fault
  | .ok (header, rest) =>
    let length := header.payloadLength.toNat
    if rest.length < length then .error (.truncated (headerSize + length) bytes.length)
    else if length < rest.length then .error (.trailingBytes (rest.length - length))
    else decodeBody header.kind rest

end RatchetSession.Envelope
