import Nfs3.MessageBuffer
import Nfs3.Rpc.Program

/-!
Remote procedures: where they live, how their arguments enter a message and how their result is
read. A procedure on files also names the handles in its arguments.
-/
namespace Nfs3.Rpc

open Wire

structure Procedure (Args Reply : Type) where
  service : Service
  number : UInt32
  name : String
  marshal : Args → Buffered Unit
  /-- Room to set aside for the arguments. -/
  sizeHint : Args → Nat
  reply : Codec Reply

def defaultRoom : Nat := 256

namespace Procedure

variable {Args Reply : Type}

def plain (service : Service) (number : UInt32) (name : String) (args : Codec Args)
    (reply : Codec Reply) : Procedure Args Reply :=
  ⟨service, number, name, MessageBuffer.put args, fun _ => defaultRoom, reply⟩

end Procedure

structure FileProcedure (Args Ok Fail : Type) extends Procedure Args (NfsReply Ok Fail) where
  /-- The handle that decides where a call goes. -/
  handle : Args → FileHandle
  /-- Every handle in the arguments, that one first. -/
  handles : Args → List FileHandle

namespace FileProcedure

variable {Args Ok Fail : Type}

def plain (number : NfsNumber) (args : Codec Args) (reply : Codec (NfsReply Ok Fail))
    (handle : Args → FileHandle) : FileProcedure Args Ok Fail where
  toProcedure := .plain nfsService number.code number.label args reply
  handle := handle
  handles a := [handle a]

end FileProcedure

/-- The data of a write follows its other arguments as a payload, uncopied. Arguments that disagree
with their data are refused before anything is written. -/
def marshalWrite (a : WriteArgs) : Buffered Unit := do
  if a.data.length > maxLength then
    MessageBuffer.writeFault (.dataOverflow a.data.length)
  else if a.count ≠ UInt32.ofNat a.data.length then
    MessageBuffer.writeFault (.countMismatch a.count a.data.length)
  else
    MessageBuffer.put FileHandle.codec a.file
    MessageBuffer.put .hyper a.offset
    MessageBuffer.put .word a.count
    MessageBuffer.put Stability.codec a.stable
    MessageBuffer.put .word (UInt32.ofNat a.data.length)
    MessageBuffer.appendPayload [a.data]

def writeRoom (a : WriteArgs) : Nat := 4 + a.file.data.length + 3 + 8 + 4 + 4 + 4

end Nfs3.Rpc
