import Nfs3.File.Attributes

/-! What a server tells of a whole file system. -/
namespace Nfs3

open Wire

structure FsInfoOk where
  attributes : Option FileAttributes
  readMax : UInt32
  readPreferred : UInt32
  readMultiple : UInt32
  writeMax : UInt32
  writePreferred : UInt32
  writeMultiple : UInt32
  directoryPreferred : UInt32
  maxFileSize : UInt64
  timeStep : NfsTime
  properties : UInt32
  deriving DecidableEq, Inhabited

def FsInfoOk.codec : Codec FsInfoOk :=
  (FileAttributes.codec.optional.pair <| Codec.word.pair <| .pair .word <| .pair .word <|
    .pair .word <| .pair .word <| .pair .word <| .pair .word <| .pair .hyper <|
    NfsTime.codec.pair .word).iso
    (fun (a, b, c, d, e, f, g, h, i, j, k) => ⟨a, b, c, d, e, f, g, h, i, j, k⟩)
    (fun v => (v.attributes, v.readMax, v.readPreferred, v.readMultiple, v.writeMax,
      v.writePreferred, v.writeMultiple, v.directoryPreferred, v.maxFileSize, v.timeStep,
      v.properties))

abbrev FsInfoReply := NfsReply FsInfoOk (Option FileAttributes)

def FsInfoReply.codec : Codec FsInfoReply :=
  NfsReply.codec FsInfoOk.codec FileAttributes.codec.optional

structure FsStatOk where
  attributes : Option FileAttributes
  totalBytes : UInt64
  freeBytes : UInt64
  availableBytes : UInt64
  totalFiles : UInt64
  freeFiles : UInt64
  availableFiles : UInt64
  steadySeconds : UInt32
  deriving DecidableEq, Inhabited

def FsStatOk.codec : Codec FsStatOk :=
  (FileAttributes.codec.optional.pair <| Codec.hyper.pair <| .pair .hyper <| .pair .hyper <|
    .pair .hyper <| .pair .hyper <| .pair .hyper .word).iso
    (fun (a, b, c, d, e, f, g, h) => ⟨a, b, c, d, e, f, g, h⟩)
    (fun v => (v.attributes, v.totalBytes, v.freeBytes, v.availableBytes, v.totalFiles,
      v.freeFiles, v.availableFiles, v.steadySeconds))

abbrev FsStatReply := NfsReply FsStatOk (Option FileAttributes)

def FsStatReply.codec : Codec FsStatReply :=
  NfsReply.codec FsStatOk.codec FileAttributes.codec.optional

structure PathConfOk where
  attributes : Option FileAttributes
  linkMax : UInt32
  nameMax : UInt32
  noTruncation : Bool
  chownRestricted : Bool
  caseInsensitive : Bool
  casePreserving : Bool
  deriving DecidableEq, Inhabited

def PathConfOk.codec : Codec PathConfOk :=
  (FileAttributes.codec.optional.pair <| Codec.word.pair <| .pair .word <| .pair .bool <|
    .pair .bool <| .pair .bool .bool).iso
    (fun (a, b, c, d, e, f, g) => ⟨a, b, c, d, e, f, g⟩)
    (fun v => (v.attributes, v.linkMax, v.nameMax, v.noTruncation, v.chownRestricted,
      v.caseInsensitive, v.casePreserving))

abbrev PathConfReply := NfsReply PathConfOk (Option FileAttributes)

def PathConfReply.codec : Codec PathConfReply :=
  NfsReply.codec PathConfOk.codec FileAttributes.codec.optional

end Nfs3
