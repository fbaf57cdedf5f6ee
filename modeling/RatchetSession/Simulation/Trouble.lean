import RatchetSession.Error
set_option autoImplicit false

namespace RatchetSession

inductive Trouble where
  | noParty
  | noBundle
  | noMessage
  | noRecord
  | nothingStored
  | noSignedPreKey
  | unsendable (error : WireError)
  | failed (error : SessionError)
deriving DecidableEq, Repr

def Trouble.text : Trouble → String
  | noParty => "no such party"
  | noBundle => "no such bundle"
  | noMessage => "no such message"
  | noRecord => "no such record"
  | nothingStored => "no record"
  | noSignedPreKey => "no signed pre-key"
  | unsendable error => error.message
  | failed error => error.message

end RatchetSession
