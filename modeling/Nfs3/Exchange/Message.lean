import Nfs3.Exchange.Tree
import Nfs3.Mount
import Nfs3.Rpc.Message

/-! The exchange forms of messages, of the mount protocol's answers and of port mappings. -/
namespace Nfs3.Exchange

open Rpc

instance : Form UnixBody :=
  (Fields.of UnixBody.mk).add "stamp" (·.stamp) |>.add "machinename" (·.machineName)
    |>.add "uid" (·.uid) |>.add "gid" (·.gid) |>.add "gids" (·.gids) |>.form

instance : Form AuthField :=
  (Fields.of AuthField.mk).add "flavor" (·.flavor) |>.add "body" (·.body) |>.form

instance : Form VersionRange :=
  (Fields.of VersionRange.mk).add "low" (·.low) |>.add "high" (·.high) |>.form

instance : Form AcceptBody where
  toTree
    | .success => .text "SUCCESS"
    | .programUnavailable => .text "PROG_UNAVAIL"
    | .programMismatch v => .arm "PROG_MISMATCH" (toTree v)
    | .procedureUnavailable => .text "PROC_UNAVAIL"
    | .garbageArguments => .text "GARBAGE_ARGS"
    | .systemError => .text "SYSTEM_ERR"
  ofTree? t := t.arm?.bind fun
    | ("SUCCESS", _) => some .success
    | ("PROG_UNAVAIL", _) => some .programUnavailable
    | ("PROG_MISMATCH", v) => (ofTree? v).map .programMismatch
    | ("PROC_UNAVAIL", _) => some .procedureUnavailable
    | ("GARBAGE_ARGS", _) => some .garbageArguments
    | ("SYSTEM_ERR", _) => some .systemError
    | _ => none

instance : Form RejectBody where
  toTree
    | .rpcMismatch v => .arm "RPC_MISMATCH" (toTree v)
    | .authError s => .arm "AUTH_ERROR" (toTree s)
  ofTree? t := t.arm?.bind fun
    | ("RPC_MISMATCH", v) => (ofTree? v).map .rpcMismatch
    | ("AUTH_ERROR", v) => (ofTree? v).map .authError
    | _ => none

instance : Form AcceptedReply :=
  (Fields.of AcceptedReply.mk).add "verf" (·.verifier) |>.add "reply_data" (·.body) |>.form

instance : Form ReplyBody where
  toTree
    | .accepted v => .arm "MSG_ACCEPTED" (toTree v)
    | .denied v => .arm "MSG_DENIED" (toTree v)
  ofTree? t := t.arm?.bind fun
    | ("MSG_ACCEPTED", v) => (ofTree? v).map .accepted
    | ("MSG_DENIED", v) => (ofTree? v).map .denied
    | _ => none

instance : Form CallBody :=
  (Fields.of CallBody.mk).add "rpcvers" (·.rpcVersion) |>.add "prog" (·.program)
    |>.add "vers" (·.version) |>.add "proc" (·.procedure) |>.add "cred" (·.credential)
    |>.add "verf" (·.verifier) |>.form

instance : Form MessageBody where
  toTree
    | .call v => .arm "CALL" (toTree v)
    | .reply v => .arm "REPLY" (toTree v)
  ofTree? t := t.arm?.bind fun
    | ("CALL", v) => (ofTree? v).map .call
    | ("REPLY", v) => (ofTree? v).map .reply
    | _ => none

instance : Form Message :=
  (Fields.of Message.mk).add "xid" (·.xid) |>.add "body" (·.body) |>.form

instance : Form Mounted :=
  (Fields.of Mounted.mk).add "fhandle" (·.handle) |>.add "auth_flavors" (·.authFlavors) |>.form

instance : Form MountReply where
  toTree
    | .ok v => .arm "Ok" (toTree v)
    | .refused s => .arm "Err" (toTree s)
  ofTree? t := t.arm?.bind fun
    | ("Ok", v) => (ofTree? v).map .ok
    | ("Err", v) => (ofTree? v).map .refused
    | _ => none

instance : Form PortMapping :=
  (Fields.of PortMapping.mk).add "prog" (·.program) |>.add "vers" (·.version)
    |>.add "prot" (·.protocol) |>.add "port" (·.port) |>.form

end Nfs3.Exchange
