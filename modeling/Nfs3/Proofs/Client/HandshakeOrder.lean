import Nfs3.Proofs.Client.CallHead
import Nfs3.Proofs.Client.CallRecord
import Nfs3.Proofs.Client.HandshakeFailure
import Nfs3.Proofs.Client.Routing

/-!
What a handshake asks of others, in order: where the mount service is, for the root handle, to have
the mount entry released, and where the NFS service is. The first that fails is the last, the
release excepted.
-/
namespace Nfs3.Client
open Wire Rpc

/-- What is asked of others, address discovery apart. -/
def requests (es : List Event) : List Event :=
  es.filter fun
    | .sent .. | .lookedUp .. => true
    | _ => false

section CallMade
variable {Args Reply : Type} {p : Procedure Args Reply} {r : Request Args} {args : Args}
  {es : List Event} {v : Except ClientError Reply}

/-- One call of `p` with `args`: all that is sent is the same request, and what the call comes to is
what a reply to it says. -/
def CallMade (p : Procedure Args Reply) (args : Args) (es : List Event)
    (v : Except ClientError Reply) : Prop :=
  ∃ r : Request Args, r.args = args ∧
    (∀ e ∈ es, ∃ m answer stamp, e = .sent m answer ∧ r.segments p stamp = .ok m.segments) ∧
    ∀ u, Answered es p r u ↔ v = .ok u

theorem CallMade.names (h : CallMade p args es v) (hp : p.Regular) {m : Transmission}
    {answer : Except IoFailure Bytes} (hm : .sent m answer ∈ es) :
    m.program = p.service.program ∧ m.procedure = p.number := by
  obtain ⟨r, -, hs, -⟩ := h
  obtain ⟨m', answer', stamp, he, hs⟩ := hs _ hm
  cases he
  exact Request.names_of_segments hp hs

theorem answered_requests {u : Reply} : Answered (requests es) p r u ↔ Answered es p r u := by
  unfold Answered requests
  simp [List.mem_filter]

theorem Recorded.made (h : Recorded p r es v) : CallMade p r.args (requests es) v := by
  refine ⟨r, rfl, fun e he => ?_, fun u => answered_requests.trans (h.answered u)⟩
  obtain ⟨he, hq⟩ := List.mem_filter.1 he
  obtain ⟨d, rfl⟩ | hs := h.events e he
  · cases hq
  · exact hs

end CallMade

namespace Dispatcher
variable {ε Args Reply : Type} {env : Environment ε} {p : Procedure Args Reply} {r : Request Args}
  {w w' : World Dispatcher ε}

end Dispatcher

namespace Session
variable {ε : Type} {env : Environment ε} {w w₁ w' : World Session ε}

theorem mountCallsPart_shows : mountCallsPart.Shows := fun _ _ => rfl

theorem nfsCallsPart_shows : nfsCallsPart.Shows := fun _ _ => rfl

section CallMount
variable {Args Reply : Type} {p : Procedure Args Reply} {r : Request Args}
  {v : Except ClientError Reply}

end CallMount

def nextRequest {Args : Type} (w : World Session ε) (args : Args) (credential : Credential) :
    Request Args := ⟨w.nextXid, args, credential, w.nextXid.toUInt64⟩

section CallMount
variable {Args Reply : Type} {p : Procedure Args Reply} {r : Request Args}

end CallMount

/-- How the port of a service is looked for, and what comes of it. -/
inductive PortSearch (config : ClientConfig) (source : PortSource) (service : Service) :
    Option UInt16 → List Event → Except ClientError UInt16 → Prop where
  | configured {port : UInt16} : PortSearch config source service (some port) [] (.ok port)
  | external {found : Except ClientError UInt16} : source = .external →
    PortSearch config source service none [.lookedUp config.server service found] found
  | portmapper {es : List Event} {answer : Except ClientError UInt32} : source = .portmapper →
    CallMade Procedures.getPort ⟨service.program, service.version, tcp, 0⟩ es answer →
    PortSearch config source service none es
      (answer.bind (Portmapper.readPort config.server service))

/-- The order in which a handshake asks others, as far as it gets, and whether it completes. -/
inductive HandshakeOrder (config : ClientConfig) (source : PortSource) :
    List Event → Bool → Prop where
  | noMountService {a : List Event} {e : ClientError} :
    PortSearch config source mountService config.mountPort a (.error e) →
    HandshakeOrder config source a false
  | notMounted {a b : List Event} {port : UInt16} {reply : Except ClientError MountReply} :
    PortSearch config source mountService config.mountPort a (.ok port) →
    CallMade Procedures.mount config.exportPath b reply →
    (∀ mounted, reply ≠ .ok (.ok mounted)) →
    HandshakeOrder config source (a ++ b) false
  | released {a b c d : List Event} {port : UInt16} {mounted : Mounted}
      {released : Except ClientError Unit} {found : Except ClientError UInt16} :
    PortSearch config source mountService config.mountPort a (.ok port) →
    CallMade Procedures.mount config.exportPath b (.ok (.ok mounted)) →
    CallMade Procedures.unmount config.exportPath c released → c ≠ [] →
    PortSearch config source nfsService config.nfsPort d found →
    HandshakeOrder config source (a ++ b ++ c ++ d) found.isOk

theorem PortSearch.names {config : ClientConfig} {source : PortSource} {service : Service}
    {configured : Option UInt16} {es : List Event} {found : Except ClientError UInt16}
    (h : PortSearch config source service configured es found) {m : Transmission}
    {answer : Except IoFailure Bytes} (hm : .sent m answer ∈ es) :
    m.program = portmapService.program := by
  cases h with
  | configured => cases hm
  | external _ => simp at hm
  | portmapper _ hc =>
    have hp : Procedures.getPort.Regular := fun _ => .put _ _
    exact (hc.names hp hm).1

theorem HandshakeOrder.names {config : ClientConfig} {source : PortSource} {es : List Event}
    {completed : Bool} (h : HandshakeOrder config source es completed) {m : Transmission}
    {answer : Except IoFailure Bytes} (hm : .sent m answer ∈ es) :
    m.program = mountService.program ∨ m.program = portmapService.program := by
  have hmount : Procedures.mount.Regular := fun _ => .put _ _
  have hunmount : Procedures.unmount.Regular := fun _ => .put _ _
  cases h with
  | noMountService ha => exact .inr (ha.names hm)
  | notMounted ha hb _ =>
    obtain hm | hm := List.mem_append.1 hm
    · exact .inr (ha.names hm)
    · exact .inl (hb.names hmount hm).1
  | released ha hb hc _ hd =>
    simp only [List.mem_append] at hm
    obtain ((hm | hm) | hm) | hm := hm
    · exact .inr (ha.names hm)
    · exact .inl (hb.names hmount hm).1
    · exact .inl (hc.names hunmount hm).1
    · exact .inr (hd.names hm)

end Session
end Nfs3.Client
