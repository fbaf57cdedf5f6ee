import RatchetSession.Cbor.Head
import RatchetSession.Utf8
set_option autoImplicit false

/-!
Reading heads. A reader takes input from the front and leaves the rest, also when it
fails. Loops over the input count their steps on a list as long as the input, since
every step takes at least one byte.
-/

namespace RatchetSession.Cbor

inductive Fault where
  | ended
  | malformed
  | unexpected
  | tooDeep
deriving DecidableEq, Repr

def Fault.text : Fault → String
  | ended => "Io"
  | malformed => "Syntax"
  | unexpected => "Semantic"
  | tooDeep => "RecursionLimitExceeded"

abbrev Reader := EStateM Fault Bytes

/-- The head of an item. A length is absent where a stop ends the item. -/
inductive Token where
  | unsigned (value : Nat)
  | negative (value : Nat)
  | bytes (length : Option Nat)
  | text (length : Option Nat)
  | array (count : Option Nat)
  | map (count : Option Nat)
  | tag (number : Nat)
  | simple (value : Nat)
  | float
  | stop
deriving DecidableEq, Repr

/-- The first bytes, behind `taken` in reverse, and what follows them. -/
def splitOnto (taken : Bytes) : Nat → Bytes → Option (Bytes × Bytes)
  | 0, rest => some (taken.reverse, rest)
  | _ + 1, [] => none
  | n + 1, b :: rest => splitOnto (b :: taken) n rest

def take (n : Nat) : Reader Bytes := fun s =>
  match splitOnto [] n s with
  | some (taken, rest) => .ok taken rest
  | none => .error .ended []

/-- The number after a first byte with this value in its low five bits. -/
def argument (minor : Nat) : Reader (Option Nat) :=
  if minor < 24 then pure (some minor)
  else if minor = 24 then (fun bytes => some (beNat bytes)) <$> take 1
  else if minor = 25 then (fun bytes => some (beNat bytes)) <$> take 2
  else if minor = 26 then (fun bytes => some (beNat bytes)) <$> take 4
  else if minor = 27 then (fun bytes => some (beNat bytes)) <$> take 8
  else if minor = 31 then pure none
  else throw .malformed

def Token.ofHead (major minor : Nat) (number : Option Nat) : Except Fault Token :=
  match major, number with
  | 0, some value => .ok (.unsigned value)
  | 1, some value => .ok (.negative value)
  | 2, length => .ok (.bytes length)
  | 3, length => .ok (.text length)
  | 4, count => .ok (.array count)
  | 5, count => .ok (.map count)
  | 6, some value => .ok (.tag value)
  | 7, none => .ok .stop
  | 7, some value => if minor ≤ 24 then .ok (.simple value) else .ok .float
  | _, _ => .error .malformed

def token : Reader Token := fun s =>
  match s with
  | [] => .error .ended []
  | first :: rest =>
    match argument (first.toNat % 32) rest with
    | .ok number rest =>
      match Token.ofHead (first.toNat / 32) (first.toNat % 32) number with
      | .ok t => .ok t rest
      | .error fault => .error fault rest
    | .error fault rest => .error fault rest

def maxDepth : Nat := 256

def nested {α : Type} (depth : Nat) (content : Nat → Reader α) : Reader α :=
  match depth with
  | 0 => throw .tooDeep
  | depth + 1 => content depth

/-- Whether a container has another item, and how many are then left if that is known. -/
def more : Option Nat → Reader (Option (Option Nat))
  | some 0 => pure none
  | some (count + 1) => pure (some (some count))
  | none => fun s =>
    match token s with
    | .ok .stop rest => .ok none rest
    | .ok _ _ => .ok (some none) s
    | .error fault rest => .error fault rest

/-- The items of a container to its end, behind `acc` in reverse. -/
def items {α : Type} (item : Reader α) (acc : List α) :
    (clock : Bytes) → Option Nat → Bytes → EStateM.Result Fault Bytes (List α)
  | _, some 0, s => .ok acc.reverse s
  | [], _, s => .error .ended s
  | _ :: clock, count, s =>
    match more count s with
    | .ok none rest => .ok acc.reverse rest
    | .ok (some count) rest =>
      match item rest with
      | .ok a rest => items item (a :: acc) clock count rest
      | .error fault rest => .error fault rest
    | .error fault rest => .error fault rest

/-- The segments of a string until its stop; a string of unknown
length may hold others. Any other item is malformed. -/
def segments {α : Type} (length? : Token → Option (Option Nat)) (segment : Nat → α → Reader α) :
    (clock : Bytes) → (unfinished : Nat) → α → Bytes → EStateM.Result Fault Bytes α
  | [], _, _, s => .error .ended s
  | _ :: clock, unfinished, acc, s =>
    match token s with
    | .ok .stop rest =>
      if unfinished ≤ 1 then .ok acc rest else segments length? segment clock (unfinished - 1) acc rest
    | .ok t rest =>
      match length? t with
      | some (some n) =>
        match segment n acc rest with
        | .ok acc rest => segments length? segment clock unfinished acc rest
        | .error fault rest => .error fault rest
      | some none => segments length? segment clock (unfinished + 1) acc rest
      | none => .error .malformed rest
    | .error fault rest => .error fault rest

def stringContent {α : Type} (length? : Token → Option (Option Nat))
    (segment : Nat → α → Reader α) (acc : α) : Option Nat → Reader α
  | some n => segment n acc
  | none => fun s => segments length? segment s 1 acc s

def Token.bytesLength? : Token → Option (Option Nat)
  | .bytes length => some length
  | _ => none

def Token.textLength? : Token → Option (Option Nat)
  | .text length => some length
  | _ => none

def bytesContent (length : Option Nat) : Reader Bytes :=
  List.flatten <$> List.reverse <$>
    stringContent Token.bytesLength? (fun n acc => (· :: acc) <$> take n) [] length

/-- Byte strings and texts are read into a buffer of this size. -/
def bufferSize : Nat := 4096

def utf8 (n : Nat) : Reader Bytes := do
  let bytes ← take n
  if (Utf8.remainder bytes).isEmpty then pure bytes else throw .malformed

/-- Bytes that the longest character may have before it is whole. -/
def maxPartial : Nat := 3

/-- A segment of a text, one buffer at a time. A character that the end of a buffer cuts is `saved`
for the next one. -/
def textSegment : (clock : Bytes) → (unread : Nat) → (saved : Bytes) → Bytes →
    EStateM.Result Fault Bytes Unit
  | _, 0, saved, s => if saved.isEmpty then .ok () s else .error .malformed s
  | [], _ + 1, _, s => .error .ended s
  | _ :: clock, unread + 1, saved, s =>
    let size := min (bufferSize - saved.length) (unread + 1)
    match take size s with
    | .ok chunk rest =>
      let saved := Utf8.remainder (saved ++ chunk)
      if maxPartial < saved.length then .error .malformed rest
      else textSegment clock (unread + 1 - size) saved rest
    | .error fault rest => .error fault rest

def textContent (length : Option Nat) : Reader Unit :=
  stringContent Token.textLength? (fun n _ s => textSegment s n [] s) () length

end RatchetSession.Cbor
