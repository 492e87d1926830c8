import Nfs3.Net.IpAddress
import Nfs3.SipHash

/-! The addresses of one server. Calls with one key always go to the same of them. -/
namespace Nfs3.Net

/-- Where a key and a byte string fall among all words. -/
structure Hashing where
  word : UInt64 → UInt64
  bytes : Bytes → UInt64

namespace Hashing

def sip : Hashing := ⟨SipHash.hashWord, SipHash.hashBytes⟩

instance : Inhabited Hashing := ⟨sip⟩

end Hashing

structure AddressPool where
  addresses : List IpAddress := []
  deriving DecidableEq, Inhabited

namespace AddressPool

/-- Each address once, in the order of first occurrence. -/
def ofList (addresses : List IpAddress) : AddressPool := ⟨addresses.eraseDups⟩

def empty : AddressPool := ⟨[]⟩

def pickBy (hash : UInt64 → UInt64) (pool : AddressPool) (key : UInt64) : Option IpAddress :=
  pool.addresses[(hash key).toNat % pool.addresses.length]?

end AddressPool

end Nfs3.Net
