import Nfs3.File.Attributes

/-! Times of the local file system, which reach further than those of the protocol. -/
namespace Nfs3

structure FileTime where
  seconds : Int
  nanoseconds : UInt32
  deriving DecidableEq

namespace FileTime

def ofNfsTime (t : NfsTime) : FileTime := ⟨Int.ofNat t.seconds.toNat, t.nanoseconds⟩

/-- Seconds out of range become the nearest that fit; before the epoch nothing is left of the
nanoseconds. -/
def toNfsTime (t : FileTime) : NfsTime :=
  ⟨UInt32.ofNat (min t.seconds.toNat (UInt32.size - 1)), if t.seconds < 0 then 0 else t.nanoseconds⟩

end FileTime

end Nfs3
