import Nfs3.File.Naming
import Nfs3.File.Listing
import Nfs3.File.Volume
import Nfs3.Rpc.Procedure

/-! The procedures a client calls. -/
namespace Nfs3

open Wire Rpc

namespace Procedures

def null : Procedure Unit Unit := .plain nfsService NfsNumber.null.code "NULL" .void .void

def getAttr : FileProcedure ObjectArgs GetAttrOk Unit :=
  .plain .getAttr ObjectArgs.codec GetAttrReply.codec (·.object)

def setAttr : FileProcedure SetAttrArgs SetAttrOk CacheData :=
  .plain .setAttr SetAttrArgs.codec SetAttrReply.codec (·.object)

def lookup : FileProcedure LookupArgs LookupOk (Option FileAttributes) :=
  .plain .lookup LookupArgs.codec LookupReply.codec (·.entry.directory)

def access : FileProcedure AccessArgs AccessOk (Option FileAttributes) :=
  .plain .access AccessArgs.codec AccessReply.codec (·.object)

def readLink : FileProcedure ReadLinkArgs ReadLinkOk (Option FileAttributes) :=
  .plain .readLink ReadLinkArgs.codec ReadLinkReply.codec (·.symlink)

def read : FileProcedure RangeArgs ReadOk (Option FileAttributes) :=
  .plain .read RangeArgs.codec ReadReply.codec (·.file)

def write : FileProcedure WriteArgs WriteOk CacheData where
  service := nfsService
  number := NfsNumber.write.code
  name := NfsNumber.write.label
  marshal := marshalWrite
  sizeHint := writeRoom
  reply := WriteReply.codec
  handle a := a.file
  handles a := [a.file]

def create : FileProcedure CreateArgs MadeOk CacheData :=
  .plain .create CreateArgs.codec MadeReply.codec (·.entry.directory)

def mkDir : FileProcedure MkDirArgs MadeOk CacheData :=
  .plain .mkDir MkDirArgs.codec MadeReply.codec (·.entry.directory)

def symlink : FileProcedure SymlinkArgs MadeOk CacheData :=
  .plain .symlink SymlinkArgs.codec MadeReply.codec (·.entry.directory)

def mkNod : FileProcedure MkNodArgs MadeOk CacheData :=
  .plain .mkNod MkNodArgs.codec MadeReply.codec (·.entry.directory)

def remove : FileProcedure RemoveArgs RemoveOk CacheData :=
  .plain .remove RemoveArgs.codec RemoveReply.codec (·.entry.directory)

def rmDir : FileProcedure RemoveArgs RemoveOk CacheData :=
  .plain .rmDir RemoveArgs.codec RemoveReply.codec (·.entry.directory)

def rename : FileProcedure RenameArgs RenameOk RenameOk :=
  { FileProcedure.plain .rename RenameArgs.codec RenameReply.codec (·.source.directory) with
    handles := fun a => [a.source.directory, a.target.directory] }

def link : FileProcedure LinkArgs LinkOk LinkOk :=
  { FileProcedure.plain .link LinkArgs.codec LinkReply.codec (·.file) with
    handles := fun a => [a.file, a.link.directory] }

def readDir : FileProcedure ReadDirArgs (ReadDirOk ListedName) (Option FileAttributes) :=
  .plain .readDir ReadDirArgs.codec ReadDirReply.codec (·.directory)

def readDirPlus : FileProcedure ReadDirPlusArgs (ReadDirOk ListedObject) (Option FileAttributes) :=
  .plain .readDirPlus ReadDirPlusArgs.codec ReadDirPlusReply.codec (·.directory)

def fsStat : FileProcedure ObjectArgs FsStatOk (Option FileAttributes) :=
  .plain .fsStat ObjectArgs.codec FsStatReply.codec (·.object)

def fsInfo : FileProcedure ObjectArgs FsInfoOk (Option FileAttributes) :=
  .plain .fsInfo ObjectArgs.codec FsInfoReply.codec (·.object)

def pathConf : FileProcedure ObjectArgs PathConfOk (Option FileAttributes) :=
  .plain .pathConf ObjectArgs.codec PathConfReply.codec (·.object)

def commit : FileProcedure RangeArgs CommitOk CacheData :=
  .plain .commit RangeArgs.codec CommitReply.codec (·.file)

def mountNull : Procedure Unit Unit :=
  .plain mountService MountNumber.null.code "MOUNT NULL" .void .void

def mount : Procedure String MountReply :=
  .plain mountService MountNumber.mount.code "MNT" .text MountReply.codec

def unmount : Procedure String Unit :=
  .plain mountService MountNumber.unmount.code "UMNT" .text .void

def portmapNull : Procedure Unit Unit :=
  .plain portmapService PortmapNumber.null.code "PMAP NULL" .void .void

def getPort : Procedure PortMapping UInt32 :=
  .plain portmapService PortmapNumber.getPort.code "GETPORT" PortMapping.codec .word

end Procedures

end Nfs3
