import Nfs3.Rpc.Credential

/-! The head of a call, and the reading of the head of a reply. -/
namespace Nfs3.Rpc

open Wire

structure CallHeader where
  xid : UInt32
  program : UInt32
  version : UInt32
  procedure : UInt32
  deriving DecidableEq

namespace CallHeader

def encodedLength (c : Credential) : Nat := 6 * 4 + c.encodedLength

/-- The arguments of the procedure follow. -/
def marshal (h : CallHeader) (c : Credential) (stamp : UInt32) : Buffered Unit := do
  MessageBuffer.put .word h.xid
  MessageBuffer.put .word 0
  MessageBuffer.put .word rpcVersion
  MessageBuffer.put .word h.program
  MessageBuffer.put .word h.version
  MessageBuffer.put .word h.procedure
  c.marshal stamp

end CallHeader

/-- What a server said of a call, before any result. -/
inductive ReplyOutcome where
  | accepted (body : AcceptBody)
  | rejected (reason : RejectBody)
  deriving DecidableEq

namespace ReplyOutcome

/-- Only a call accepted with success has a result. -/
def check (server procedure : String) : ReplyOutcome → Except ClientError Unit
  | .accepted .success => .ok ()
  | .accepted status => .error (.rpcAcceptedFailure server procedure status)
  | .rejected (.authError stat) => .error (.authRejected server procedure stat)
  | .rejected reason => .error (.rpcRejected server procedure reason)

/-- Reads the head of a reply from the start of the buffer, and stops where the result begins. The
verifier of an accepted reply is passed over unread. -/
def read (expected : UInt32) : Buffered ReplyOutcome := do
  MessageBuffer.reset
  let xid ← MessageBuffer.fetch .word
  let direction ← MessageBuffer.fetch .word
  if direction ≠ 1 then
    MessageBuffer.malformed (.notAReply direction)
  else if xid ≠ expected then
    throw (.xidMismatch expected xid)
  else
    match ← MessageBuffer.fetch .word with
    | 0 =>
      let _ ← MessageBuffer.fetch .word
      let n ← MessageBuffer.fetch .word
      MessageBuffer.skip n.toUInt64
      let body ← MessageBuffer.fetch AcceptBody.codec
      pure (.accepted body)
    | 1 =>
      let reason ← MessageBuffer.fetch RejectBody.codec
      pure (.rejected reason)
    | status => MessageBuffer.malformed (.unknownReplyStatus status)

end ReplyOutcome

end Nfs3.Rpc
