import Nfs3.Client.Program
import Nfs3.Net.AddressPool
import Nfs3.Rpc.Call
import Nfs3.Rpc.Procedure

/-!
Calls of one program on one server. Network failures and replies to another transaction are sent
again after a pause, a limited number of times. A rejected credential moves the procedure to a
privileged source port for good and is sent again at once. Everything else is final.
-/
namespace Nfs3.Client

open Wire Rpc Net

structure Dispatcher where
  server : String
  retry : RetryPolicy
  timeout : Duration
  port : UInt16 := 0
  pool : AddressPool := .empty
  hashing : Hashing := .sip
  privileged : Bool := false
  /-- Procedures whose credential was rejected from an unprivileged port. -/
  escalated : List UInt32 := []

structure Request (Args : Type) where
  xid : UInt32
  args : Args
  credential : Credential
  routingKey : UInt64

namespace Request

variable {σ Args Reply : Type}

/-- A request under the next transaction id, which also routes it. -/
def fresh (args : Args) (credential : Credential) : Program σ (Request Args) := do
  let xid ← Program.freshXid
  pure ⟨xid, args, credential, xid.toUInt64⟩

def header (r : Request Args) (p : Procedure Args Reply) : CallHeader :=
  ⟨r.xid, p.service.program, p.service.version, p.number⟩

def segments (r : Request Args) (p : Procedure Args Reply) (stamp : UInt32) :
    Except ClientError (List Bytes) :=
  let build : Buffered Unit := do
    (r.header p).marshal r.credential stamp
    p.marshal r.args
    let _ ← MessageBuffer.finalizePayloads
  match build.run .empty with
  | .ok _ b => .ok b.segments
  | .error e _ => .error e

def readReply (r : Request Args) (p : Procedure Args Reply) (server : String) (reply : Bytes) :
    Except ClientError Reply :=
  match (ReplyOutcome.read r.xid).run (.ofBytes reply) with
  | .error e _ => .error e
  | .ok outcome b => do
    outcome.check server p.name
    match (MessageBuffer.fetch p.reply).run b with
    | .ok v _ => .ok v
    | .error e _ => .error e

end Request

namespace Dispatcher

variable {Args Reply : Type}

def usesPrivilegedPort (d : Dispatcher) (procedure : UInt32) : Bool :=
  d.privileged || d.escalated.contains procedure

def escalate (d : Dispatcher) (procedure : UInt32) : Dispatcher :=
  { d with escalated := d.escalated.insert procedure }

/-- A failed discovery leaves no addresses, and calls then go to the server by its name. -/
def listen (d : Dispatcher) (port : UInt16) (found : Option (List IpAddress)) : Dispatcher :=
  { d with pool := found.elim .empty .ofList, port := port }

def chooseHost (d : Dispatcher) (key : UInt64) : Except ClientError String :=
  match d.pool.pickBy d.hashing.word key with
  | some a => .ok a.text
  | none => if d.server.isEmpty then .error (.noRouteAvailable d.server) else .ok d.server

def setPort (port : UInt16) : Program Dispatcher Unit := do
  let d ← Program.inspect
  let found ← Program.discover d.server port
  Program.update (·.listen port found)

def setPrivileged (value : Bool) : Program Dispatcher Unit :=
  Program.update ({ · with privileged := value })

def callOnce (p : Procedure Args Reply) (r : Request Args) (host : String) (privileged : Bool) :
    Task Dispatcher Reply := do
  let stamp ← Task.lift .timestamp
  let segments ← Task.ofExcept (r.segments p stamp)
  let d ← Task.lift .inspect
  match ← Task.lift (.send ⟨host, d.port, privileged, segments, d.timeout⟩) with
  | .error cause => throw (.network d.server p.name cause)
  | .ok reply => Task.ofExcept (r.readReply p d.server reply)

/-- One attempt: a send, and if that is refused for its credential on an unprivileged port, one
more from a privileged port. -/
def attempt (p : Procedure Args Reply) (r : Request Args) : Task Dispatcher Reply := do
  let d ← Task.lift .inspect
  let host ← Task.ofExcept (d.chooseHost r.routingKey)
  let privileged := d.usesPrivilegedPort p.number
  match ← Task.lift (callOnce p r host privileged).run with
  | .ok reply => pure reply
  | .error (.authRejected server name stat) =>
    if privileged then throw (.authRejected server name stat)
    else
      Task.lift (.update (·.escalate p.number))
      let d ← Task.lift .inspect
      let host ← Task.ofExcept (d.chooseHost r.routingKey)
      callOnce p r host true
  | .error e => throw e

/-- Attempts after `failures` transient ones, of which `left` more may follow the next. An accepted
reply is final whatever `validate` says of it. -/
def attempts (p : Procedure Args Reply) (r : Request Args)
    (validate : Args → Reply → Except ClientError Unit) :
    (left failures : Nat) → Task Dispatcher Reply
  | left, failures => do
    match ← Task.lift (attempt p r).run with
    | .ok reply =>
      Task.ofExcept (validate r.args reply)
      pure reply
    | .error e =>
      if e.isTransient then
        match left with
        | 0 => throw e
        | left + 1 =>
          let d ← Task.lift .inspect
          Task.lift (.sleep (d.retry.backoff (failures + 1)))
          attempts p r validate left (failures + 1)
      else throw e

def call (p : Procedure Args Reply) (r : Request Args)
    (validate : Args → Reply → Except ClientError Unit) : Task Dispatcher Reply := do
  let d ← Task.lift .inspect
  attempts p r validate (d.retry.attempts - 1) 0

def acceptAny : Args → Reply → Except ClientError Unit := fun _ _ => .ok ()

end Dispatcher

end Nfs3.Client
