import Nfs3.File.Status

/-! File handles, times and attributes, with the attribute changes a caller may ask for. -/
namespace Nfs3

open Wire

/-- A name or path is a byte string: servers need not use UTF-8. -/
structure FileName where
  bytes : Bytes
  deriving DecidableEq, Inhabited

def FileName.codec : Codec FileName := Codec.bytes.iso FileName.mk FileName.bytes

def FileName.WellFormed (v : FileName) : Prop := v.bytes.length ≤ maxLength

/-- The server's name for a file or directory; its content means nothing to a client. -/
structure FileHandle where
  data : Bytes
  deriving DecidableEq, Inhabited

def FileHandle.codec : Codec FileHandle := Codec.bytes.iso FileHandle.mk FileHandle.data

def FileHandle.WellFormed (v : FileHandle) : Prop := v.data.length ≤ maxLength

inductive FileKind where
  | regular | directory | blockDevice | characterDevice | symlink | socket | fifo
  deriving DecidableEq, Inhabited

namespace FileKind

instance : Enumeration FileKind where
  members := [regular, directory, blockDevice, characterDevice, symlink, socket, fifo]
  code
    | regular => 1 | directory => 2 | blockDevice => 3 | characterDevice => 4 | symlink => 5
    | socket => 6 | fifo => 7
  name
    | regular => "NF3REG" | directory => "NF3DIR" | blockDevice => "NF3BLK"
    | characterDevice => "NF3CHR" | symlink => "NF3LNK" | socket => "NF3SOCK" | fifo => "NF3FIFO"

def codec : Codec FileKind := .enumeration _

end FileKind

structure DeviceNumber where
  major : UInt32
  minor : UInt32
  deriving DecidableEq, Inhabited

def DeviceNumber.codec : Codec DeviceNumber :=
  (Codec.word.pair .word).iso (fun (a, b) => ⟨a, b⟩) (fun v => (v.major, v.minor))

structure NfsTime where
  seconds : UInt32
  nanoseconds : UInt32
  deriving DecidableEq, Inhabited

def NfsTime.codec : Codec NfsTime :=
  (Codec.word.pair .word).iso (fun (s, n) => ⟨s, n⟩) (fun t => (t.seconds, t.nanoseconds))

structure FileAttributes where
  kind : FileKind
  mode : UInt32
  linkCount : UInt32
  uid : UInt32
  gid : UInt32
  size : UInt64
  used : UInt64
  device : DeviceNumber
  fileSystem : UInt64
  fileId : UInt64
  accessed : NfsTime
  modified : NfsTime
  changed : NfsTime
  deriving DecidableEq, Inhabited

def FileAttributes.codec : Codec FileAttributes :=
  (FileKind.codec.pair <| .pair .word <| .pair .word <| .pair .word <| .pair .word <|
    .pair .hyper <| .pair .hyper <| DeviceNumber.codec.pair <| .pair .hyper <| .pair .hyper <|
    NfsTime.codec.pair <| NfsTime.codec.pair NfsTime.codec).iso
    (fun (a, b, c, d, e, f, g, h, i, j, k, l, m) => ⟨a, b, c, d, e, f, g, h, i, j, k, l, m⟩)
    (fun v => (v.kind, v.mode, v.linkCount, v.uid, v.gid, v.size, v.used, v.device, v.fileSystem,
      v.fileId, v.accessed, v.modified, v.changed))

/-- The attributes by which a client notices that a file changed behind its cache. -/
structure ChangeMarks where
  size : UInt64
  modified : NfsTime
  changed : NfsTime
  deriving DecidableEq, Inhabited

def ChangeMarks.codec : Codec ChangeMarks :=
  (Codec.hyper.pair <| NfsTime.codec.pair NfsTime.codec).iso
    (fun (a, b, c) => ⟨a, b, c⟩) (fun v => (v.size, v.modified, v.changed))

/-- What the server says of an object before and after an operation; either side may be missing. -/
structure CacheData where
  before : Option ChangeMarks
  after : Option FileAttributes
  deriving DecidableEq, Inhabited

def CacheData.codec : Codec CacheData :=
  (ChangeMarks.codec.optional.pair FileAttributes.codec.optional).iso
    (fun (a, b) => ⟨a, b⟩) (fun v => (v.before, v.after))

inductive SetTime where
  | keep
  | serverTime
  | clientTime (time : NfsTime)
  deriving DecidableEq, Inhabited

/-- Access and modification time have the same arms; only the name in a fault differs. -/
def SetTime.codec (union : UnionName) : Codec SetTime where
  write
    | .keep => Codec.word.write 0
    | .serverTime => Codec.word.write 1
    | .clientTime t => Codec.word.write 2 ++ NfsTime.codec.write t
  read := do
    match ← Codec.word.read with
    | 0 => pure .keep
    | 1 => pure .serverTime
    | 2 => SetTime.clientTime <$> NfsTime.codec.read
    | tag => throw (.unknownArm union tag)

structure SetAttributes where
  mode : Option UInt32
  uid : Option UInt32
  gid : Option UInt32
  size : Option UInt64
  accessed : SetTime
  modified : SetTime
  deriving DecidableEq, Inhabited

def SetAttributes.codec : Codec SetAttributes :=
  (Codec.word.optional.pair <| Codec.word.optional.pair <| Codec.word.optional.pair <|
    Codec.hyper.optional.pair <| (SetTime.codec .accessTime).pair (SetTime.codec .modifyTime)).iso
    (fun (a, b, c, d, e, f) => ⟨a, b, c, d, e, f⟩)
    (fun v => (v.mode, v.uid, v.gid, v.size, v.accessed, v.modified))

structure DirectoryEntry where
  directory : FileHandle
  name : FileName
  deriving DecidableEq, Inhabited

def DirectoryEntry.codec : Codec DirectoryEntry :=
  (FileHandle.codec.pair FileName.codec).iso
    (fun (a, b) => ⟨a, b⟩) (fun v => (v.directory, v.name))

def DirectoryEntry.WellFormed (v : DirectoryEntry) : Prop :=
  v.directory.WellFormed ∧ v.name.WellFormed

structure ObjectArgs where
  object : FileHandle
  deriving DecidableEq, Inhabited

def ObjectArgs.codec : Codec ObjectArgs := FileHandle.codec.iso ObjectArgs.mk ObjectArgs.object

def ObjectArgs.WellFormed (v : ObjectArgs) : Prop := v.object.WellFormed

structure GetAttrOk where
  attributes : FileAttributes
  deriving DecidableEq, Inhabited

def GetAttrOk.codec : Codec GetAttrOk := FileAttributes.codec.iso GetAttrOk.mk GetAttrOk.attributes

/-- The change is made only if the object's change time is still `guardTime`, when given. -/
structure SetAttrArgs where
  object : FileHandle
  attributes : SetAttributes
  guardTime : Option NfsTime
  deriving DecidableEq, Inhabited

def SetAttrArgs.codec : Codec SetAttrArgs :=
  (FileHandle.codec.pair <| SetAttributes.codec.pair NfsTime.codec.optional).iso
    (fun (a, b, c) => ⟨a, b, c⟩) (fun v => (v.object, v.attributes, v.guardTime))

def SetAttrArgs.WellFormed (v : SetAttrArgs) : Prop := v.object.WellFormed

structure SetAttrOk where
  object : CacheData
  deriving DecidableEq, Inhabited

def SetAttrOk.codec : Codec SetAttrOk := CacheData.codec.iso SetAttrOk.mk SetAttrOk.object

abbrev GetAttrReply := NfsReply GetAttrOk Unit
abbrev SetAttrReply := NfsReply SetAttrOk CacheData

def GetAttrReply.codec : Codec GetAttrReply := NfsReply.codec GetAttrOk.codec .void
def SetAttrReply.codec : Codec SetAttrReply := NfsReply.codec SetAttrOk.codec CacheData.codec

end Nfs3
