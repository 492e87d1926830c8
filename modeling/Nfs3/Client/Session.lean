import Nfs3.Client.Portmapper
import Nfs3.ClientConfig
import Nfs3.WriteVerifier

/-!
A session on one export. It mounts on first use: it finds the mount service, asks it for the root
handle, releases the mount entry again and finds the NFS service. When a server calls the root
handle stale, the session mounts once more; the call that noticed still fails.
-/
namespace Nfs3.Client

open Wire Rpc Net

inductive MountPhase where
  | unresolved | portResolved | mounted
  deriving DecidableEq

structure MountState where
  phase : MountPhase := .unresolved
  root : Option FileHandle := none
  authFlavors : List UInt32 := []
  /-- The number of handshakes completed. -/
  generation : UInt64 := 0
  deriving DecidableEq

namespace MountState

/-- The root handle, as long as the session is mounted. -/
def mountedRoot (s : MountState) : Option FileHandle :=
  match s.phase with
  | .mounted => s.root
  | _ => none

def enter (phase : MountPhase) (s : MountState) : MountState := { s with phase }

def complete (mounted : Mounted) (s : MountState) : MountState :=
  ⟨.mounted, some ⟨mounted.handle⟩, mounted.authFlavors, s.generation + 1⟩

end MountState

inductive PortSource where
  | portmapper
  | external

structure Session where
  config : ClientConfig
  portSource : PortSource
  portmapper : Portmapper
  mountCalls : Dispatcher
  nfsCalls : Dispatcher
  credential : Credential := .none
  mounting : MountState := {}

namespace Session

def ofConfig (config : ClientConfig) (portSource : PortSource) : Session :=
  let calls : Dispatcher :=
    { server := config.server, retry := config.retry, timeout := config.timeout,
      privileged := config.privileged, hashing := config.hashing }
  { config, portSource, mountCalls := calls, nfsCalls := calls,
    portmapper :=
      { retry := config.retry, timeout := config.timeout, privileged := config.privileged,
        hashing := config.hashing } }

def portmapperPart : Part Session Portmapper where
  get := portmapper
  modify f s := { s with portmapper := f s.portmapper }

def mountCallsPart : Part Session Dispatcher where
  get := mountCalls
  modify f s := { s with mountCalls := f s.mountCalls }

def nfsCallsPart : Part Session Dispatcher where
  get := nfsCalls
  modify f s := { s with nfsCalls := f s.nfsCalls }

def remember (change : MountState → MountState) : Task Session Unit :=
  Task.lift (.update fun s => { s with mounting := change s.mounting })

def setCredential (credential : Credential) : Program Session Unit :=
  Program.update ({ · with credential })

def resolvePort (configured : Option UInt16) (service : Service) : Task Session UInt16 :=
  match configured with
  | some port => pure port
  | none => do
    let s ← Task.lift .inspect
    match s.portSource with
    | .portmapper => (Portmapper.resolve s.config.server service).onPart portmapperPart
    | .external => ExceptT.mk (.lookup s.config.server service)

def callMount {Args Reply : Type} (p : Procedure Args Reply) (r : Request Args) :
    Task Session Reply :=
  (Dispatcher.call p r Dispatcher.acceptAny).onPart mountCallsPart

/-- Mounts from the beginning. Both calls to the mount service carry the credential in place when
its port was found; whether the release succeeds does not matter. -/
def handshake : Task Session FileHandle := do
  let s ← Task.lift .inspect
  let config := s.config
  remember (.enter .unresolved)
  let port ← resolvePort config.mountPort mountService
  Task.lift ((Dispatcher.setPort port).onPart mountCallsPart)
  remember (.enter .portResolved)
  let s ← Task.lift .inspect
  let credential := s.credential
  let request ← Task.lift (Request.fresh config.exportPath credential)
  match ← callMount Procedures.mount request with
  | .refused status => throw (.mountFailed config.server config.exportPath status)
  | .ok mounted =>
    let release ← Task.lift (Request.fresh config.exportPath credential)
    let _ ← Task.lift (callMount Procedures.unmount release).run
    let port ← resolvePort config.nfsPort nfsService
    Task.lift ((Dispatcher.setPort port).onPart nfsCallsPart)
    remember (.complete mounted)
    pure ⟨mounted.handle⟩

/-- Mounts anew for a caller that last saw `generation`. Who had to wait while another mounted takes
the root found then. -/
def refresh (generation : UInt64) : Task Session FileHandle :=
  ExceptT.mk <| Program.locked <| ExceptT.run do
    let s ← Task.lift .inspect
    match s.mounting.mountedRoot with
    | some root => if s.mounting.generation ≠ generation then pure root else handshake
    | none => handshake

def mount : Task Session FileHandle := do
  let s ← Task.lift .inspect
  match s.mounting.mountedRoot with
  | some root => pure root
  | none => refresh s.mounting.generation

def rootHandle : Task Session FileHandle := do
  let s ← Task.lift .inspect
  match s.mounting.mountedRoot with
  | some root => pure root
  | none => mount

def remount : Task Session FileHandle := do
  let s ← Task.lift .inspect
  refresh s.mounting.generation

def null : Task Session Unit := do
  let _ ← mount
  let s ← Task.lift .inspect
  let r ← Task.lift (Request.fresh () s.credential)
  (Dispatcher.call Procedures.null r Dispatcher.acceptAny).onPart nfsCallsPart

def mountNull : Task Session Unit := do
  let _ ← mount
  let s ← Task.lift .inspect
  let r ← Task.lift (Request.fresh () s.credential)
  callMount Procedures.mountNull r

/-- Calls on one handle go to one address. -/
def routingKey (hashing : Hashing) (handle : FileHandle) : UInt64 := hashing.bytes handle.data

def isStale (status : NfsStatus) : Bool := status = .stale ∨ status = .badHandle

def settle {Args Ok Fail : Type} (p : FileProcedure Args Ok Fail) (args : Args)
    (generation : UInt64) (reply : NfsReply Ok Fail) : Task Session Ok := do
  let s ← Task.lift .inspect
  if isStale reply.status then
    if (p.handles args).any (some · = s.mounting.root) then
      let _ ← Task.lift (refresh generation).run
    throw (.staleHandle s.config.server p.name reply.status)
  else
    Task.ofExcept (reply.result s.config.server p.name)

def callValidated {Args Ok Fail : Type} (p : FileProcedure Args Ok Fail)
    (validate : String → Args → NfsReply Ok Fail → Except ClientError Unit) (args : Args) :
    Task Session Ok := do
  let _ ← mount
  let s ← Task.lift .inspect
  let request ← Task.lift (Request.fresh args s.credential)
  let reply ←
    (Dispatcher.call p.toProcedure
      { request with routingKey := routingKey s.config.hashing (p.handle args) }
      (validate s.config.server)).onPart nfsCallsPart
  settle p args s.mounting.generation reply

def call {Args Ok Fail : Type} (p : FileProcedure Args Ok Fail) (args : Args) : Task Session Ok :=
  callValidated p (fun _ => Dispatcher.acceptAny) args

/-- Fails when the server shows another verifier than `expected`. -/
def write (expected : Option WriteVerifier) (args : WriteArgs) : Task Session WriteOk :=
  callValidated Procedures.write (fun server _ reply =>
    match reply with
    | .ok v => WriteVerifier.check server Procedures.write.name expected v.verifier
    | .fail .. => .ok ()) args

def commit (expected : Option WriteVerifier) (args : RangeArgs) : Task Session CommitOk :=
  callValidated Procedures.commit (fun server _ reply =>
    match reply with
    | .ok v => WriteVerifier.check server Procedures.commit.name expected v.verifier
    | .fail .. => .ok ()) args

end Session

end Nfs3.Client
