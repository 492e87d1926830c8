import Nfs3.Wire.Primitive

/-! The three programs a client calls, and the numbers of their procedures. -/
namespace Nfs3.Rpc

open Wire

/-- A program at one version, as calls name it and portmappers register it. -/
structure Service where
  program : UInt32
  version : UInt32
  deriving DecidableEq

def nfsService : Service := ⟨100003, 3⟩
def mountService : Service := ⟨100005, 3⟩
def portmapService : Service := ⟨100000, 2⟩

/-- Portmappers listen here. -/
def portmapPort : UInt16 := 111

def tcp : UInt32 := 6

inductive NfsNumber where
  | null | getAttr | setAttr | lookup | access | readLink | read | write | create | mkDir | symlink
  | mkNod | remove | rmDir | rename | link | readDir | readDirPlus | fsStat | fsInfo | pathConf
  | commit
  deriving DecidableEq

namespace NfsNumber

def code : NfsNumber → UInt32
  | null => 0 | getAttr => 1 | setAttr => 2 | lookup => 3 | access => 4 | readLink => 5 | read => 6
  | write => 7 | create => 8 | mkDir => 9 | symlink => 10 | mkNod => 11 | remove => 12 | rmDir => 13
  | rename => 14 | link => 15 | readDir => 16 | readDirPlus => 17 | fsStat => 18 | fsInfo => 19
  | pathConf => 20 | commit => 21

def label : NfsNumber → String
  | null => "NULL" | getAttr => "GETATTR" | setAttr => "SETATTR" | lookup => "LOOKUP"
  | access => "ACCESS" | readLink => "READLINK" | read => "READ" | write => "WRITE"
  | create => "CREATE" | mkDir => "MKDIR" | symlink => "SYMLINK" | mkNod => "MKNOD"
  | remove => "REMOVE" | rmDir => "RMDIR" | rename => "RENAME" | link => "LINK"
  | readDir => "READDIR" | readDirPlus => "READDIRPLUS" | fsStat => "FSSTAT" | fsInfo => "FSINFO"
  | pathConf => "PATHCONF" | commit => "COMMIT"

instance : Enumeration NfsNumber where
  members := [null, getAttr, setAttr, lookup, access, readLink, read, write, create, mkDir, symlink,
    mkNod, remove, rmDir, rename, link, readDir, readDirPlus, fsStat, fsInfo, pathConf, commit]
  code := code
  name n := "NFSPROC3_" ++ n.label

end NfsNumber

inductive MountNumber where
  | null | mount | dump | unmount | unmountAll | exports
  deriving DecidableEq

namespace MountNumber

def code : MountNumber → UInt32
  | null => 0 | mount => 1 | dump => 2 | unmount => 3 | unmountAll => 4 | exports => 5

instance : Enumeration MountNumber where
  members := [null, mount, dump, unmount, unmountAll, exports]
  code := code
  name
    | null => "MOUNTPROC3_NULL" | mount => "MOUNTPROC3_MNT" | dump => "MOUNTPROC3_DUMP"
    | unmount => "MOUNTPROC3_UMNT" | unmountAll => "MOUNTPROC3_UMNTALL"
    | exports => "MOUNTPROC3_EXPORT"

end MountNumber

inductive PortmapNumber where
  | null | set | unset | getPort | dump | callIt
  deriving DecidableEq

namespace PortmapNumber

def code : PortmapNumber → UInt32
  | null => 0 | set => 1 | unset => 2 | getPort => 3 | dump => 4 | callIt => 5

instance : Enumeration PortmapNumber where
  members := [null, set, unset, getPort, dump, callIt]
  code := code
  name
    | null => "PMAPPROC_NULL" | set => "PMAPPROC_SET" | unset => "PMAPPROC_UNSET"
    | getPort => "PMAPPROC_GETPORT" | dump => "PMAPPROC_DUMP" | callIt => "PMAPPROC_CALLIT"

end PortmapNumber

end Nfs3.Rpc
