import Nfs3.ClientError

/-!
Noticing that a server restarted. It shows the same verifier with every write and commit until it
does, and then data not yet stable may be lost; so a caller compares each verifier with the first.
-/
namespace Nfs3

namespace WriteVerifier

def check (server procedure : String) (expected : Option WriteVerifier) (actual : WriteVerifier) :
    Except ClientError Unit :=
  match expected with
  | some v => if v = actual then .ok () else .error (.serverRestarted server procedure v actual)
  | none => .ok ()

end WriteVerifier

/-- Remembers the first verifier since the last reset. -/
structure VerifierTracker where
  server : String
  first : Option WriteVerifier := none

namespace VerifierTracker

def observe (t : VerifierTracker) (procedure : String) (v : WriteVerifier) :
    Except ClientError Unit × VerifierTracker :=
  (WriteVerifier.check t.server procedure t.first v, { t with first := t.first <|> some v })

def reset (t : VerifierTracker) : VerifierTracker := { t with first := none }

end VerifierTracker

end Nfs3
