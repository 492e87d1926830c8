import Nfs3.Failure
import Nfs3.File.Data
import Nfs3.Mount
import Nfs3.Rpc.Message
import Nfs3.Text.Quoted

/-! Everything that can go wrong with a call, and the text that says so. -/
namespace Nfs3

open Wire Rpc

inductive MalformedMessage where
  | unreadable (fault : ReadFault)
  | positionPastEnd (position length : Nat)
  | lengthPastEnd (length remaining : Nat)
  | skipOverflow (count : UInt64)
  | skipPastEnd (target length : Nat)
  | notUtf8
  | notAReply (messageType : UInt32)
  | unknownReplyStatus (status : UInt32)
  | portTooLarge (port program : UInt32)
  | refused (reason : String)

def MalformedMessage.text : MalformedMessage → String
  | unreadable fault => fault.message
  | positionPastEnd p n =>
    "position " ++ toString p ++ " is past the end of a " ++ toString n ++ " byte buffer"
  | lengthPastEnd n r =>
    "opaque length " ++ toString n ++ " exceeds the " ++ toString r ++ " remaining bytes"
  | skipOverflow n => "skip of " ++ toString n.toNat ++ " bytes overflows the cursor"
  | skipPastEnd t n =>
    "skip to " ++ toString t ++ " runs past the end of a " ++ toString n ++ " byte buffer"
  | notUtf8 => "string is not valid UTF-8"
  | notAReply t => "expected a REPLY, got message type " ++ toString t.toNat
  | unknownReplyStatus s => "invalid reply status " ++ toString s.toNat
  | portTooLarge p g =>
    "portmapper returned port " ++ toString p.toNat ++ " for program " ++ toString g.toNat
  | refused reason => reason

inductive ClientError where
  | malformedMessage (problem : MalformedMessage)
  | network (server procedure : String) (cause : IoFailure)
  | authRejected (server procedure : String) (stat : AuthStat)
  | rpcRejected (server procedure : String) (reason : RejectBody)
  | rpcAcceptedFailure (server procedure : String) (status : AcceptBody)
  | xidMismatch (expected actual : UInt32)
  | mountFailed (server exportPath : String) (status : MountStatus)
  | portUnavailable (server : String) (program version : UInt32)
  | noRouteAvailable (server : String)
  | staleHandle (server procedure : String) (status : NfsStatus)
  | serverRestarted (server procedure : String) (expected actual : WriteVerifier)
  | nfs (server procedure : String) (status : NfsStatus)
  | io (cause : IoFailure)
  /-- A sum left the range of machine words unchecked, and the program stops. -/
  | overflow

namespace ClientError

/-- A transient failure may go away when the call is sent again. -/
def isTransient : ClientError → Bool
  | network .. | xidMismatch .. => true
  | _ => false

def message : ClientError → String
  | malformedMessage p => "malformed message: " ++ p.text
  | network server procedure cause =>
    "network failure calling " ++ procedure ++ " on " ++ server ++ ": " ++ cause.message
  | authRejected server procedure stat =>
    server ++ " rejected the credential for " ++ procedure ++ ": " ++ stat.name
  | rpcRejected server procedure reason =>
    server ++ " rejected " ++ procedure ++ ": " ++ reason.text
  | rpcAcceptedFailure server procedure status =>
    server ++ " accepted " ++ procedure ++ " but failed it: " ++ status.text
  | xidMismatch expected actual =>
    "reply xid 0x" ++ Text.paddedHex 8 actual.toNat ++ " does not match call xid 0x" ++
      Text.paddedHex 8 expected.toNat
  | mountFailed server exportPath status =>
    "mount of " ++ server ++ ":" ++ exportPath ++ " failed: " ++ status.name
  | portUnavailable server program version =>
    "program " ++ toString program.toNat ++ " version " ++ toString version.toNat ++
      " is not registered on " ++ server
  | noRouteAvailable server => "no address available for " ++ Text.quoted server.toList
  | staleHandle server procedure status =>
    procedure ++ " on " ++ server ++ " used a stale file handle: " ++ status.name
  | serverRestarted server procedure expected actual =>
    server ++ " restarted before " ++ procedure ++ ": write verifier changed from " ++
      Text.hexList expected.val ++ " to " ++ Text.hexList actual.val
  | nfs server procedure status => procedure ++ " on " ++ server ++ " failed: " ++ status.name
  | io cause => cause.message
  | overflow => "attempt to add with overflow"

end ClientError

def NfsReply.result {Ok Fail : Type} (server procedure : String) :
    NfsReply Ok Fail → Except ClientError Ok
  | .ok v => .ok v
  | .fail s _ => .error (.nfs server procedure s)

end Nfs3
