import Nfs3.Wire.Field

/-! Status codes, and the reply union every procedure but NULL answers with. -/
namespace Nfs3

open Wire

inductive NfsStatus where
  | ok | perm | noEnt | io | nxIo | acces | exist | xDev | noDev | notDir | isDir | inval | fBig
  | noSpc | roFs | mLink | nameTooLong | notEmpty | dQuot | stale | remote | badHandle | notSync
  | badCookie | notSupp | tooSmall | serverFault | badType | jukebox
  deriving DecidableEq, Inhabited

namespace NfsStatus

def code : NfsStatus → UInt32
  | ok => 0 | perm => 1 | noEnt => 2 | io => 5 | nxIo => 6 | acces => 13 | exist => 17 | xDev => 18
  | noDev => 19 | notDir => 20 | isDir => 21 | inval => 22 | fBig => 27 | noSpc => 28 | roFs => 30
  | mLink => 31 | nameTooLong => 63 | notEmpty => 66 | dQuot => 69 | stale => 70 | remote => 71
  | badHandle => 10001 | notSync => 10002 | badCookie => 10003 | notSupp => 10004
  | tooSmall => 10005 | serverFault => 10006 | badType => 10007 | jukebox => 10008

def name : NfsStatus → String
  | ok => "NFS3_OK"
  | perm => "NFS3ERR_PERM"
  | noEnt => "NFS3ERR_NOENT"
  | io => "NFS3ERR_IO"
  | nxIo => "NFS3ERR_NXIO"
  | acces => "NFS3ERR_ACCES"
  | exist => "NFS3ERR_EXIST"
  | xDev => "NFS3ERR_XDEV"
  | noDev => "NFS3ERR_NODEV"
  | notDir => "NFS3ERR_NOTDIR"
  | isDir => "NFS3ERR_ISDIR"
  | inval => "NFS3ERR_INVAL"
  | fBig => "NFS3ERR_FBIG"
  | noSpc => "NFS3ERR_NOSPC"
  | roFs => "NFS3ERR_ROFS"
  | mLink => "NFS3ERR_MLINK"
  | nameTooLong => "NFS3ERR_NAMETOOLONG"
  | notEmpty => "NFS3ERR_NOTEMPTY"
  | dQuot => "NFS3ERR_DQUOT"
  | stale => "NFS3ERR_STALE"
  | remote => "NFS3ERR_REMOTE"
  | badHandle => "NFS3ERR_BADHANDLE"
  | notSync => "NFS3ERR_NOT_SYNC"
  | badCookie => "NFS3ERR_BAD_COOKIE"
  | notSupp => "NFS3ERR_NOTSUPP"
  | tooSmall => "NFS3ERR_TOOSMALL"
  | serverFault => "NFS3ERR_SERVERFAULT"
  | badType => "NFS3ERR_BADTYPE"
  | jukebox => "NFS3ERR_JUKEBOX"

instance : Enumeration NfsStatus where
  members := [ok, perm, noEnt, io, nxIo, acces, exist, xDev, noDev, notDir, isDir, inval, fBig,
    noSpc, roFs, mLink, nameTooLong, notEmpty, dQuot, stale, remote, badHandle, notSync, badCookie,
    notSupp, tooSmall, serverFault, badType, jukebox]
  code := code
  name := name

def codec : Codec NfsStatus := .enumeration _

end NfsStatus

/-- A reply is the result, or a status with what the procedure reports on failure. -/
inductive NfsReply (Ok Fail : Type) where
  | ok (result : Ok)
  | fail (status : NfsStatus) (body : Fail)
  deriving DecidableEq

namespace NfsReply

variable {Ok Fail : Type}

instance [Inhabited Fail] : Inhabited (NfsReply Ok Fail) := ⟨.fail .serverFault default⟩

def status : NfsReply Ok Fail → NfsStatus
  | .ok _ => .ok
  | .fail s _ => s

def codec (okBody : Codec Ok) (failBody : Codec Fail) : Codec (NfsReply Ok Fail) where
  write
    | .ok v => NfsStatus.codec.write .ok ++ okBody.write v
    | .fail s v => NfsStatus.codec.write s ++ failBody.write v
  read := do
    match ← NfsStatus.codec.read with
    | .ok => NfsReply.ok <$> okBody.read
    | s => NfsReply.fail s <$> failBody.read

/-- A failure has a status other than success. -/
def WellFormed (okBody : Ok → Prop) (failBody : Fail → Prop) : NfsReply Ok Fail → Prop
  | .ok v => okBody v
  | .fail s v => s ≠ .ok ∧ failBody v

end NfsReply

end Nfs3
