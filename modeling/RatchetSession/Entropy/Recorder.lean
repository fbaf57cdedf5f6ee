import RatchetSession.Entropy
set_option autoImplicit false

namespace RatchetSession

structure Recorder (E : Type) where
  source : E
  seeds : List (Octets 32)

namespace Recorder

variable {E : Type}

def ofSource (source : E) : Recorder E := ⟨source, []⟩

/-- Only draws that have the length of a seed are kept. -/
def keep (r : Recorder E) {n : Nat} (bytes : Octets n) : List (Octets 32) :=
  if h : n = 32 then r.seeds ++ [h ▸ bytes] else r.seeds

instance [Randomness E] : Randomness (Recorder E) :=
  ⟨fun n r =>
    match Randomness.draw n r.source with
    | .ok bytes source => .ok bytes ⟨source, r.keep bytes⟩
    | .error error source => .error error ⟨source, r.seeds⟩⟩

end Recorder

end RatchetSession
