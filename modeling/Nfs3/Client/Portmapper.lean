import Nfs3.Client.Dispatcher
import Nfs3.Procedures

/-! Asking a server's portmapper where a program listens. There is one dispatcher per server name,
made when the name is first used. -/
namespace Nfs3.Client

open Wire Rpc Net

structure Portmapper where
  retry : RetryPolicy
  timeout : Duration
  privileged : Bool := false
  hashing : Hashing := .sip
  dispatchers : List (String × Dispatcher) := []

namespace Portmapper

def fresh (m : Portmapper) (server : String) : Dispatcher :=
  { server, retry := m.retry, timeout := m.timeout, privileged := m.privileged,
    hashing := m.hashing }

def known (m : Portmapper) (server : String) : Option Dispatcher := m.dispatchers.lookup server

/-- A dispatcher once stored is never replaced. -/
def store (m : Portmapper) (server : String) (d : Dispatcher) : Portmapper :=
  if (m.known server).isSome then m else { m with dispatchers := m.dispatchers ++ [(server, d)] }

def dispatcherOf (server : String) : Part Portmapper Dispatcher where
  get m := (m.known server).getD (m.fresh server)
  modify f m :=
    { m with
      dispatchers := m.dispatchers.map fun (s, d) => if s = server then (s, f d) else (s, d) }

def connect (server : String) : Program Portmapper Unit := do
  let m ← Program.inspect
  match m.known server with
  | some _ => pure ()
  | none =>
    let found ← Program.discover server portmapPort
    Program.update (·.store server ((m.fresh server).listen portmapPort found))

def call {Args Reply : Type} (server : String) (p : Procedure Args Reply) (args : Args) :
    Task Portmapper Reply := do
  Task.lift (connect server)
  let r ← Task.lift (Request.fresh args .none)
  (Dispatcher.call p r Dispatcher.acceptAny).onPart (dispatcherOf server)

def null (server : String) : Task Portmapper Unit := call server Procedures.portmapNull ()

/-- Zero says that the program is not registered, and no port is larger than a port number. -/
def readPort (server : String) (service : Service) (port : UInt32) : Except ClientError UInt16 :=
  if port = 0 then .error (.portUnavailable server service.program service.version)
  else if port.toNat < UInt16.size then .ok port.toUInt16
  else .error (.malformedMessage (.portTooLarge port service.program))

def resolve (server : String) (service : Service) : Task Portmapper UInt16 := do
  let port ← call server Procedures.getPort ⟨service.program, service.version, tcp, 0⟩
  Task.ofExcept (readPort server service port)

end Portmapper

end Nfs3.Client
