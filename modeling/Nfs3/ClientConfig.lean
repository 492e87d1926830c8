import Nfs3.Duration
import Nfs3.Net.AddressPool

/-! What a client is told before it starts. -/
namespace Nfs3

def trimSlashes (cs : List Char) : List Char :=
  ((cs.dropWhile (· == '/')).reverse.dropWhile (· == '/')).reverse

/-- One slash in front, none behind; slashes between names are kept. -/
def normalizeExport (path : String) : String := String.ofList ('/' :: trimSlashes path.toList)

structure ClientConfig where
  server : String
  exportPath : String
  retry : RetryPolicy := default
  timeout : Duration := .ofSeconds 30
  privileged : Bool := false
  mountPort : Option UInt16 := none
  nfsPort : Option UInt16 := none
  /-- Spreads calls over the addresses of the server. -/
  hashing : Net.Hashing := .sip

def ClientConfig.ofExport (server path : String) : ClientConfig :=
  { server, exportPath := normalizeExport path }

end Nfs3
