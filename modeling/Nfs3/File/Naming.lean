import Nfs3.File.Attributes

/-! Procedures that look up, make, move or remove names in directories. -/
namespace Nfs3

open Wire

structure LookupArgs where
  entry : DirectoryEntry
  deriving DecidableEq, Inhabited

def LookupArgs.codec : Codec LookupArgs := DirectoryEntry.codec.iso LookupArgs.mk LookupArgs.entry

def LookupArgs.WellFormed (v : LookupArgs) : Prop := v.entry.WellFormed

structure LookupOk where
  object : FileHandle
  attributes : Option FileAttributes
  directory : Option FileAttributes
  deriving DecidableEq, Inhabited

def LookupOk.codec : Codec LookupOk :=
  (FileHandle.codec.pair <| FileAttributes.codec.optional.pair FileAttributes.codec.optional).iso
    (fun (a, b, c) => ⟨a, b, c⟩) (fun v => (v.object, v.attributes, v.directory))

def LookupOk.WellFormed (v : LookupOk) : Prop := v.object.WellFormed

abbrev LookupReply := NfsReply LookupOk (Option FileAttributes)

def LookupReply.codec : Codec LookupReply :=
  NfsReply.codec LookupOk.codec FileAttributes.codec.optional

inductive CreateMode where
  | unchecked | guarded | exclusive
  deriving DecidableEq, Inhabited

namespace CreateMode

instance : Enumeration CreateMode where
  members := [unchecked, guarded, exclusive]
  code
    | unchecked => 0 | guarded => 1 | exclusive => 2
  name
    | unchecked => "UNCHECKED" | guarded => "GUARDED" | exclusive => "EXCLUSIVE"

def codec : Codec CreateMode := .enumeration _

end CreateMode

/-- An exclusive create carries a verifier in place of attributes. -/
inductive CreateHow where
  | unchecked (attributes : SetAttributes)
  | guarded (attributes : SetAttributes)
  | exclusive (verifier : Sized UInt8 8)
  deriving DecidableEq, Inhabited

def CreateHow.codec : Codec CreateHow where
  write
    | .unchecked a => CreateMode.codec.write .unchecked ++ SetAttributes.codec.write a
    | .guarded a => CreateMode.codec.write .guarded ++ SetAttributes.codec.write a
    | .exclusive v => CreateMode.codec.write .exclusive ++ (Codec.fixedBytes 8).write v
  read := do
    match ← CreateMode.codec.read with
    | .unchecked => CreateHow.unchecked <$> SetAttributes.codec.read
    | .guarded => CreateHow.guarded <$> SetAttributes.codec.read
    | .exclusive => CreateHow.exclusive <$> (Codec.fixedBytes 8).read

structure CreateArgs where
  entry : DirectoryEntry
  how : CreateHow
  deriving DecidableEq, Inhabited

def CreateArgs.codec : Codec CreateArgs :=
  (DirectoryEntry.codec.pair CreateHow.codec).iso (fun (a, b) => ⟨a, b⟩) (fun v => (v.entry, v.how))

def CreateArgs.WellFormed (v : CreateArgs) : Prop := v.entry.WellFormed

structure MadeOk where
  object : Option FileHandle
  attributes : Option FileAttributes
  directory : CacheData
  deriving DecidableEq, Inhabited

def MadeOk.codec : Codec MadeOk :=
  (FileHandle.codec.optional.pair <| FileAttributes.codec.optional.pair CacheData.codec).iso
    (fun (a, b, c) => ⟨a, b, c⟩) (fun v => (v.object, v.attributes, v.directory))

def MadeOk.WellFormed (v : MadeOk) : Prop := ∀ h ∈ v.object, h.WellFormed

abbrev MadeReply := NfsReply MadeOk CacheData

def MadeReply.codec : Codec MadeReply := NfsReply.codec MadeOk.codec CacheData.codec

structure MkDirArgs where
  entry : DirectoryEntry
  attributes : SetAttributes
  deriving DecidableEq, Inhabited

def MkDirArgs.codec : Codec MkDirArgs :=
  (DirectoryEntry.codec.pair SetAttributes.codec).iso
    (fun (a, b) => ⟨a, b⟩) (fun v => (v.entry, v.attributes))

def MkDirArgs.WellFormed (v : MkDirArgs) : Prop := v.entry.WellFormed

structure SymlinkTarget where
  attributes : SetAttributes
  path : FileName
  deriving DecidableEq, Inhabited

def SymlinkTarget.codec : Codec SymlinkTarget :=
  (SetAttributes.codec.pair FileName.codec).iso
    (fun (a, b) => ⟨a, b⟩) (fun v => (v.attributes, v.path))

def SymlinkTarget.WellFormed (v : SymlinkTarget) : Prop := v.path.WellFormed

structure SymlinkArgs where
  entry : DirectoryEntry
  target : SymlinkTarget
  deriving DecidableEq, Inhabited

def SymlinkArgs.codec : Codec SymlinkArgs :=
  (DirectoryEntry.codec.pair SymlinkTarget.codec).iso
    (fun (a, b) => ⟨a, b⟩) (fun v => (v.entry, v.target))

def SymlinkArgs.WellFormed (v : SymlinkArgs) : Prop := v.entry.WellFormed ∧ v.target.WellFormed

structure DeviceData where
  attributes : SetAttributes
  device : DeviceNumber
  deriving DecidableEq, Inhabited

def DeviceData.codec : Codec DeviceData :=
  (SetAttributes.codec.pair DeviceNumber.codec).iso
    (fun (a, b) => ⟨a, b⟩) (fun v => (v.attributes, v.device))

/-- The special files MKNOD makes; a kind it does not make carries nothing. -/
inductive NodeData where
  | characterDevice (device : DeviceData)
  | blockDevice (device : DeviceData)
  | socket (attributes : SetAttributes)
  | fifo (attributes : SetAttributes)
  | other (kind : FileKind)
  deriving DecidableEq

instance : Inhabited NodeData := ⟨.fifo default⟩

def NodeData.codec : Codec NodeData where
  write
    | .characterDevice d => FileKind.codec.write .characterDevice ++ DeviceData.codec.write d
    | .blockDevice d => FileKind.codec.write .blockDevice ++ DeviceData.codec.write d
    | .socket a => FileKind.codec.write .socket ++ SetAttributes.codec.write a
    | .fifo a => FileKind.codec.write .fifo ++ SetAttributes.codec.write a
    | .other k => FileKind.codec.write k
  read := do
    match ← FileKind.codec.read with
    | .characterDevice => NodeData.characterDevice <$> DeviceData.codec.read
    | .blockDevice => NodeData.blockDevice <$> DeviceData.codec.read
    | .socket => NodeData.socket <$> SetAttributes.codec.read
    | .fifo => NodeData.fifo <$> SetAttributes.codec.read
    | k => pure (.other k)

/-- A kind that MKNOD makes has an arm of its own. -/
def NodeData.WellFormed : NodeData → Prop
  | .other k => k ≠ .characterDevice ∧ k ≠ .blockDevice ∧ k ≠ .socket ∧ k ≠ .fifo
  | _ => True

structure MkNodArgs where
  entry : DirectoryEntry
  node : NodeData
  deriving DecidableEq, Inhabited

def MkNodArgs.codec : Codec MkNodArgs :=
  (DirectoryEntry.codec.pair NodeData.codec).iso
    (fun (a, b) => ⟨a, b⟩) (fun v => (v.entry, v.node))

def MkNodArgs.WellFormed (v : MkNodArgs) : Prop := v.entry.WellFormed ∧ v.node.WellFormed

/-- REMOVE and RMDIR take the same arguments and give the same reply. -/
structure RemoveArgs where
  entry : DirectoryEntry
  deriving DecidableEq, Inhabited

def RemoveArgs.codec : Codec RemoveArgs := DirectoryEntry.codec.iso RemoveArgs.mk RemoveArgs.entry

def RemoveArgs.WellFormed (v : RemoveArgs) : Prop := v.entry.WellFormed

structure RemoveOk where
  directory : CacheData
  deriving DecidableEq, Inhabited

def RemoveOk.codec : Codec RemoveOk := CacheData.codec.iso RemoveOk.mk RemoveOk.directory

abbrev RemoveReply := NfsReply RemoveOk CacheData

def RemoveReply.codec : Codec RemoveReply := NfsReply.codec RemoveOk.codec CacheData.codec

structure RenameArgs where
  source : DirectoryEntry
  target : DirectoryEntry
  deriving DecidableEq, Inhabited

def RenameArgs.codec : Codec RenameArgs :=
  (DirectoryEntry.codec.pair DirectoryEntry.codec).iso
    (fun (a, b) => ⟨a, b⟩) (fun v => (v.source, v.target))

def RenameArgs.WellFormed (v : RenameArgs) : Prop := v.source.WellFormed ∧ v.target.WellFormed

/-- Both directories, also when the rename failed. -/
structure RenameOk where
  source : CacheData
  target : CacheData
  deriving DecidableEq, Inhabited

def RenameOk.codec : Codec RenameOk :=
  (CacheData.codec.pair CacheData.codec).iso
    (fun (a, b) => ⟨a, b⟩) (fun v => (v.source, v.target))

abbrev RenameReply := NfsReply RenameOk RenameOk

def RenameReply.codec : Codec RenameReply := NfsReply.codec RenameOk.codec RenameOk.codec

structure LinkArgs where
  file : FileHandle
  link : DirectoryEntry
  deriving DecidableEq, Inhabited

def LinkArgs.codec : Codec LinkArgs :=
  (FileHandle.codec.pair DirectoryEntry.codec).iso
    (fun (a, b) => ⟨a, b⟩) (fun v => (v.file, v.link))

def LinkArgs.WellFormed (v : LinkArgs) : Prop := v.file.WellFormed ∧ v.link.WellFormed

structure LinkOk where
  file : Option FileAttributes
  directory : CacheData
  deriving DecidableEq, Inhabited

def LinkOk.codec : Codec LinkOk :=
  (FileAttributes.codec.optional.pair CacheData.codec).iso
    (fun (a, b) => ⟨a, b⟩) (fun v => (v.file, v.directory))

abbrev LinkReply := NfsReply LinkOk LinkOk

def LinkReply.codec : Codec LinkReply := NfsReply.codec LinkOk.codec LinkOk.codec

end Nfs3
