import Nfs3.Wire.Field

/-! Remote procedure call messages: the header of a call, and what a server may say about it. -/
namespace Nfs3.Rpc

open Wire

def rpcVersion : UInt32 := 2

inductive AuthStat where
  | ok | badCred | rejectedCred | badVerf | rejectedVerf | tooWeak | invalidResp | failed
  deriving DecidableEq

namespace AuthStat

instance : Inhabited AuthStat := ⟨badCred⟩

def name : AuthStat → String
  | ok => "AUTH_OK"
  | badCred => "AUTH_BADCRED"
  | rejectedCred => "AUTH_REJECTEDCRED"
  | badVerf => "AUTH_BADVERF"
  | rejectedVerf => "AUTH_REJECTEDVERF"
  | tooWeak => "AUTH_TOOWEAK"
  | invalidResp => "AUTH_INVALIDRESP"
  | failed => "AUTH_FAILED"

instance : Enumeration AuthStat where
  members := [ok, badCred, rejectedCred, badVerf, rejectedVerf, tooWeak, invalidResp, failed]
  code
    | ok => 0 | badCred => 1 | rejectedCred => 2 | badVerf => 3 | rejectedVerf => 4 | tooWeak => 5
    | invalidResp => 6 | failed => 7
  name := name

def codec : Codec AuthStat := .enumeration _

end AuthStat

inductive AuthFlavor where
  | null | unix | short | des
  deriving DecidableEq, Inhabited

namespace AuthFlavor

def name : AuthFlavor → String
  | null => "AUTH_NULL" | unix => "AUTH_UNIX" | short => "AUTH_SHORT" | des => "AUTH_DES"

instance : Enumeration AuthFlavor where
  members := [null, unix, short, des]
  code
    | null => 0 | unix => 1 | short => 2 | des => 3
  name := name

def codec : Codec AuthFlavor := .enumeration _

end AuthFlavor

structure UnixBody where
  stamp : UInt32
  machineName : Bytes
  uid : UInt32
  gid : UInt32
  gids : List UInt32
  deriving DecidableEq, Inhabited

def UnixBody.codec : Codec UnixBody :=
  (Codec.word.pair <| Codec.bytes.pair <| Codec.word.pair <| Codec.word.pair <|
    Codec.word.array).iso
    (fun (a, b, c, d, e) => ⟨a, b, c, d, e⟩)
    (fun v => (v.stamp, v.machineName, v.uid, v.gid, v.gids))

def UnixBody.WellFormed (v : UnixBody) : Prop :=
  v.machineName.length ≤ maxLength ∧ v.gids.length ≤ maxLength

structure AuthField where
  flavor : AuthFlavor
  body : Bytes
  deriving DecidableEq, Inhabited

def AuthField.codec : Codec AuthField :=
  (AuthFlavor.codec.pair .bytes).iso (fun (a, b) => ⟨a, b⟩) (fun v => (v.flavor, v.body))

def AuthField.WellFormed (v : AuthField) : Prop := v.body.length ≤ maxLength

structure VersionRange where
  low : UInt32
  high : UInt32
  deriving DecidableEq, Inhabited

def VersionRange.codec : Codec VersionRange :=
  (Codec.word.pair .word).iso (fun (a, b) => ⟨a, b⟩) (fun v => (v.low, v.high))

def VersionRange.text (v : VersionRange) : String :=
  "mismatch_info \x7b low: " ++ toString v.low.toNat ++ ", high: " ++ toString v.high.toNat ++
    " \x7d"

inductive AcceptBody where
  | success
  | programUnavailable
  | programMismatch (supported : VersionRange)
  | procedureUnavailable
  | garbageArguments
  | systemError
  deriving DecidableEq, Inhabited

def AcceptBody.text : AcceptBody → String
  | success => "SUCCESS"
  | programUnavailable => "PROG_UNAVAIL"
  | programMismatch v => "PROG_MISMATCH(" ++ v.text ++ ")"
  | procedureUnavailable => "PROC_UNAVAIL"
  | garbageArguments => "GARBAGE_ARGS"
  | systemError => "SYSTEM_ERR"

def AcceptBody.codec : Codec AcceptBody where
  write
    | .success => Codec.word.write 0
    | .programUnavailable => Codec.word.write 1
    | .programMismatch v => Codec.word.write 2 ++ VersionRange.codec.write v
    | .procedureUnavailable => Codec.word.write 3
    | .garbageArguments => Codec.word.write 4
    | .systemError => Codec.word.write 5
  read := do
    match ← Codec.word.read with
    | 0 => pure .success
    | 1 => pure .programUnavailable
    | 2 => AcceptBody.programMismatch <$> VersionRange.codec.read
    | 3 => pure .procedureUnavailable
    | 4 => pure .garbageArguments
    | 5 => pure .systemError
    | tag => throw (.unknownArm .acceptBody tag)

inductive RejectBody where
  | rpcMismatch (supported : VersionRange)
  | authError (stat : AuthStat)
  deriving DecidableEq

instance : Inhabited RejectBody := ⟨.authError default⟩

def RejectBody.text : RejectBody → String
  | rpcMismatch v => "RPC_MISMATCH(" ++ v.text ++ ")"
  | authError s => "AUTH_ERROR(" ++ s.name ++ ")"

def RejectBody.codec : Codec RejectBody where
  write
    | .rpcMismatch v => Codec.word.write 0 ++ VersionRange.codec.write v
    | .authError s => Codec.word.write 1 ++ AuthStat.codec.write s
  read := do
    match ← Codec.word.read with
    | 0 => RejectBody.rpcMismatch <$> VersionRange.codec.read
    | 1 => RejectBody.authError <$> AuthStat.codec.read
    | tag => throw (.unknownArm .rejectBody tag)

structure AcceptedReply where
  verifier : AuthField
  body : AcceptBody
  deriving DecidableEq, Inhabited

def AcceptedReply.codec : Codec AcceptedReply :=
  (AuthField.codec.pair AcceptBody.codec).iso (fun (a, b) => ⟨a, b⟩) (fun v => (v.verifier, v.body))

def AcceptedReply.WellFormed (v : AcceptedReply) : Prop := v.verifier.WellFormed

inductive ReplyBody where
  | accepted (reply : AcceptedReply)
  | denied (reason : RejectBody)
  deriving DecidableEq, Inhabited

def ReplyBody.codec : Codec ReplyBody where
  write
    | .accepted v => Codec.word.write 0 ++ AcceptedReply.codec.write v
    | .denied v => Codec.word.write 1 ++ RejectBody.codec.write v
  read := do
    match ← Codec.word.read with
    | 0 => ReplyBody.accepted <$> AcceptedReply.codec.read
    | 1 => ReplyBody.denied <$> RejectBody.codec.read
    | tag => throw (.unknownArm .replyBody tag)

def ReplyBody.WellFormed : ReplyBody → Prop
  | .accepted v => v.WellFormed
  | .denied _ => True

structure CallBody where
  rpcVersion : UInt32
  program : UInt32
  version : UInt32
  procedure : UInt32
  credential : AuthField
  verifier : AuthField
  deriving DecidableEq, Inhabited

def CallBody.codec : Codec CallBody :=
  (Codec.word.pair <| .pair .word <| .pair .word <| .pair .word <|
    AuthField.codec.pair AuthField.codec).iso
    (fun (a, b, c, d, e, f) => ⟨a, b, c, d, e, f⟩)
    (fun v => (v.rpcVersion, v.program, v.version, v.procedure, v.credential, v.verifier))

def CallBody.WellFormed (v : CallBody) : Prop := v.credential.WellFormed ∧ v.verifier.WellFormed

inductive MessageBody where
  | call (body : CallBody)
  | reply (body : ReplyBody)
  deriving DecidableEq, Inhabited

def MessageBody.codec : Codec MessageBody where
  write
    | .call v => Codec.word.write 0 ++ CallBody.codec.write v
    | .reply v => Codec.word.write 1 ++ ReplyBody.codec.write v
  read := do
    match ← Codec.word.read with
    | 0 => MessageBody.call <$> CallBody.codec.read
    | 1 => MessageBody.reply <$> ReplyBody.codec.read
    | tag => throw (.unknownArm .messageBody tag)

def MessageBody.WellFormed : MessageBody → Prop
  | .call v => v.WellFormed
  | .reply v => v.WellFormed

structure Message where
  xid : UInt32
  body : MessageBody
  deriving DecidableEq, Inhabited

def Message.codec : Codec Message :=
  (Codec.word.pair MessageBody.codec).iso (fun (a, b) => ⟨a, b⟩) (fun v => (v.xid, v.body))

def Message.WellFormed (v : Message) : Prop := v.body.WellFormed

/-- The reply a server accepts a call with, under an empty verifier. -/
def Message.accepted (xid : UInt32) (body : AcceptBody) : Message :=
  ⟨xid, .reply (.accepted ⟨default, body⟩)⟩

def Message.denied (xid : UInt32) (reason : RejectBody) : Message :=
  ⟨xid, .reply (.denied reason)⟩

end Nfs3.Rpc
