import Nfs3.File.Attributes

/-! Procedures on the content of a file: access rights, symbolic links, reading and writing. -/
namespace Nfs3

open Wire

structure AccessArgs where
  object : FileHandle
  access : UInt32
  deriving DecidableEq, Inhabited

def AccessArgs.codec : Codec AccessArgs :=
  (FileHandle.codec.pair .word).iso (fun (a, b) => ⟨a, b⟩) (fun v => (v.object, v.access))

def AccessArgs.WellFormed (v : AccessArgs) : Prop := v.object.WellFormed

structure AccessOk where
  attributes : Option FileAttributes
  access : UInt32
  deriving DecidableEq, Inhabited

def AccessOk.codec : Codec AccessOk :=
  (FileAttributes.codec.optional.pair .word).iso
    (fun (a, b) => ⟨a, b⟩) (fun v => (v.attributes, v.access))

abbrev AccessReply := NfsReply AccessOk (Option FileAttributes)

def AccessReply.codec : Codec AccessReply :=
  NfsReply.codec AccessOk.codec FileAttributes.codec.optional

structure ReadLinkArgs where
  symlink : FileHandle
  deriving DecidableEq, Inhabited

def ReadLinkArgs.codec : Codec ReadLinkArgs :=
  FileHandle.codec.iso ReadLinkArgs.mk ReadLinkArgs.symlink

def ReadLinkArgs.WellFormed (v : ReadLinkArgs) : Prop := v.symlink.WellFormed

structure ReadLinkOk where
  attributes : Option FileAttributes
  path : FileName
  deriving DecidableEq, Inhabited

def ReadLinkOk.codec : Codec ReadLinkOk :=
  (FileAttributes.codec.optional.pair FileName.codec).iso
    (fun (a, b) => ⟨a, b⟩) (fun v => (v.attributes, v.path))

def ReadLinkOk.WellFormed (v : ReadLinkOk) : Prop := v.path.WellFormed

abbrev ReadLinkReply := NfsReply ReadLinkOk (Option FileAttributes)

def ReadLinkReply.codec : Codec ReadLinkReply :=
  NfsReply.codec ReadLinkOk.codec FileAttributes.codec.optional

/-- A range of a file: what READ asks for and what COMMIT makes stable. -/
structure RangeArgs where
  file : FileHandle
  offset : UInt64
  count : UInt32
  deriving DecidableEq, Inhabited

def RangeArgs.codec : Codec RangeArgs :=
  (FileHandle.codec.pair <| Codec.hyper.pair .word).iso
    (fun (a, b, c) => ⟨a, b, c⟩) (fun v => (v.file, v.offset, v.count))

def RangeArgs.WellFormed (v : RangeArgs) : Prop := v.file.WellFormed

structure ReadOk where
  attributes : Option FileAttributes
  count : UInt32
  atEnd : Bool
  data : Bytes
  deriving DecidableEq, Inhabited

def ReadOk.codec : Codec ReadOk :=
  (FileAttributes.codec.optional.pair <| Codec.word.pair <| Codec.bool.pair .bytes).iso
    (fun (a, b, c, d) => ⟨a, b, c, d⟩) (fun v => (v.attributes, v.count, v.atEnd, v.data))

def ReadOk.WellFormed (v : ReadOk) : Prop := v.data.length ≤ maxLength

abbrev ReadReply := NfsReply ReadOk (Option FileAttributes)

def ReadReply.codec : Codec ReadReply := NfsReply.codec ReadOk.codec FileAttributes.codec.optional

/-- Changes whenever the server restarts and may have lost unstable data. -/
abbrev WriteVerifier := Sized UInt8 8

structure CommitOk where
  file : CacheData
  verifier : WriteVerifier
  deriving DecidableEq, Inhabited

def CommitOk.codec : Codec CommitOk :=
  (CacheData.codec.pair (.fixedBytes 8)).iso
    (fun (a, b) => ⟨a, b⟩) (fun v => (v.file, v.verifier))

abbrev CommitReply := NfsReply CommitOk CacheData

def CommitReply.codec : Codec CommitReply := NfsReply.codec CommitOk.codec CacheData.codec

inductive Stability where
  | unstable | dataSync | fileSync
  deriving DecidableEq, Inhabited

namespace Stability

instance : Enumeration Stability where
  members := [unstable, dataSync, fileSync]
  code
    | unstable => 0 | dataSync => 1 | fileSync => 2
  name
    | unstable => "UNSTABLE" | dataSync => "DATA_SYNC" | fileSync => "FILE_SYNC"

def codec : Codec Stability := .enumeration _

end Stability

/-- The count must be the number of bytes of data; arguments that disagree are refused before
sending. -/
structure WriteArgs where
  file : FileHandle
  offset : UInt64
  count : UInt32
  stable : Stability
  data : Bytes
  deriving DecidableEq, Inhabited

/-- The count of the data as a word, so it agrees with the data up to `maxLength` bytes. -/
def WriteArgs.ofData (file : FileHandle) (offset : UInt64) (stable : Stability) (data : Bytes) :
    WriteArgs :=
  ⟨file, offset, UInt32.ofNat data.length, stable, data⟩

structure WriteOk where
  file : CacheData
  count : UInt32
  committed : Stability
  verifier : WriteVerifier
  deriving DecidableEq, Inhabited

def WriteOk.codec : Codec WriteOk :=
  (CacheData.codec.pair <| Codec.word.pair <| Stability.codec.pair (.fixedBytes 8)).iso
    (fun (a, b, c, d) => ⟨a, b, c, d⟩) (fun v => (v.file, v.count, v.committed, v.verifier))

abbrev WriteReply := NfsReply WriteOk CacheData

def WriteReply.codec : Codec WriteReply := NfsReply.codec WriteOk.codec CacheData.codec

end Nfs3
