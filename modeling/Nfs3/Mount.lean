import Nfs3.Wire.Field

/-! The mount protocol's answer: the root handle of an export, or why there is none. -/
namespace Nfs3

open Wire

inductive MountStatus where
  | ok | perm | noEnt | io | acces | notDir | inval | nameTooLong | notSupp | serverFault
  deriving DecidableEq, Inhabited

namespace MountStatus

def name : MountStatus → String
  | ok => "MNT3_OK"
  | perm => "MNT3ERR_PERM"
  | noEnt => "MNT3ERR_NOENT"
  | io => "MNT3ERR_IO"
  | acces => "MNT3ERR_ACCES"
  | notDir => "MNT3ERR_NOTDIR"
  | inval => "MNT3ERR_INVAL"
  | nameTooLong => "MNT3ERR_NAMETOOLONG"
  | notSupp => "MNT3ERR_NOTSUPP"
  | serverFault => "MNT3ERR_SERVERFAULT"

instance : Enumeration MountStatus where
  members := [ok, perm, noEnt, io, acces, notDir, inval, nameTooLong, notSupp, serverFault]
  code
    | ok => 0 | perm => 1 | noEnt => 2 | io => 5 | acces => 13 | notDir => 20 | inval => 22
    | nameTooLong => 63 | notSupp => 10004 | serverFault => 10006
  name := name

def codec : Codec MountStatus := .enumeration _

end MountStatus

structure Mounted where
  handle : Bytes
  authFlavors : List UInt32
  deriving DecidableEq, Inhabited

def Mounted.codec : Codec Mounted :=
  (Codec.bytes.pair Codec.word.array).iso
    (fun (a, b) => ⟨a, b⟩) (fun v => (v.handle, v.authFlavors))

def Mounted.WellFormed (v : Mounted) : Prop :=
  v.handle.length ≤ maxLength ∧ v.authFlavors.length ≤ maxLength

inductive MountReply where
  | ok (mounted : Mounted)
  | refused (status : MountStatus)
  deriving DecidableEq

instance : Inhabited MountReply := ⟨.refused .serverFault⟩

def MountReply.codec : Codec MountReply where
  write
    | .ok v => MountStatus.codec.write .ok ++ Mounted.codec.write v
    | .refused s => MountStatus.codec.write s
  read := do
    match ← MountStatus.codec.read with
    | .ok => MountReply.ok <$> Mounted.codec.read
    | s => pure (.refused s)

def MountReply.WellFormed : MountReply → Prop
  | .ok v => v.WellFormed
  | .refused s => s ≠ .ok

structure PortMapping where
  program : UInt32
  version : UInt32
  protocol : UInt32
  port : UInt32
  deriving DecidableEq, Inhabited

def PortMapping.codec : Codec PortMapping :=
  (Codec.word.pair <| .pair .word <| .pair .word .word).iso
    (fun (a, b, c, d) => ⟨a, b, c, d⟩) (fun v => (v.program, v.version, v.protocol, v.port))

end Nfs3
