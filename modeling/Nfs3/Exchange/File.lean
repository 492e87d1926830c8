import Nfs3.Exchange.Tree
import Nfs3.File.Naming
import Nfs3.File.Listing
import Nfs3.File.Data
import Nfs3.File.Volume

/-! The exchange forms of the file protocol's types, under the published field names. -/
namespace Nfs3.Exchange

open Wire

instance : Form FileName := .iso FileName.mk FileName.bytes

instance : Form FileHandle := (Fields.of FileHandle.mk).add "data" (·.data) |>.form

instance : Form DeviceNumber :=
  (Fields.of DeviceNumber.mk).add "specdata1" (·.major) |>.add "specdata2" (·.minor) |>.form

instance : Form NfsTime :=
  (Fields.of NfsTime.mk).add "seconds" (·.seconds) |>.add "nseconds" (·.nanoseconds) |>.form

instance : Form FileAttributes :=
  (Fields.of FileAttributes.mk).add "ftype" (·.kind) |>.add "mode" (·.mode)
    |>.add "nlink" (·.linkCount) |>.add "uid" (·.uid) |>.add "gid" (·.gid) |>.add "size" (·.size)
    |>.add "used" (·.used) |>.add "rdev" (·.device) |>.add "fsid" (·.fileSystem)
    |>.add "fileid" (·.fileId) |>.add "atime" (·.accessed) |>.add "mtime" (·.modified)
    |>.add "ctime" (·.changed) |>.form

instance : Form ChangeMarks :=
  (Fields.of ChangeMarks.mk).add "size" (·.size) |>.add "mtime" (·.modified)
    |>.add "ctime" (·.changed) |>.form

instance : Form (Option ChangeMarks) := .orVoid "attributes"

instance : Form (Option FileAttributes) := .orVoid "attributes"

instance : Form (Option FileHandle) := .orVoid "handle"

/-- The guard of a SETATTR. -/
instance : Form (Option NfsTime) := .orVoid "obj_ctime"

instance : Form CacheData :=
  (Fields.of CacheData.mk).add "before" (·.before) |>.add "after" (·.after) |>.form

instance : Form SetTime where
  toTree
    | .keep => .text "DONT_CHANGE"
    | .serverTime => .text "SET_TO_SERVER_TIME"
    | .clientTime t => .arm "SET_TO_CLIENT_TIME" (toTree t)
  ofTree? t := t.arm?.bind fun
    | ("DONT_CHANGE", _) => some .keep
    | ("SET_TO_SERVER_TIME", _) => some .serverTime
    | ("SET_TO_CLIENT_TIME", v) => (ofTree? v).map .clientTime
    | _ => none

abbrev setMode : Form (Option UInt32) := .orVoid "mode"

abbrev setUid : Form (Option UInt32) := .orVoid "uid"

abbrev setGid : Form (Option UInt32) := .orVoid "gid"

abbrev setSize : Form (Option UInt64) := .orVoid "size"

instance : Form SetAttributes :=
  (Fields.of SetAttributes.mk).addAs setMode "mode" (·.mode) |>.addAs setUid "uid" (·.uid)
    |>.addAs setGid "gid" (·.gid) |>.addAs setSize "size" (·.size) |>.add "atime" (·.accessed)
    |>.add "mtime" (·.modified) |>.form

instance : Form DirectoryEntry :=
  (Fields.of DirectoryEntry.mk).add "dir" (·.directory) |>.add "name" (·.name) |>.form

instance : Form ObjectArgs := (Fields.of ObjectArgs.mk).add "object" (·.object) |>.form

instance : Form GetAttrOk := (Fields.of GetAttrOk.mk).add "obj_attributes" (·.attributes) |>.form

instance : Form SetAttrArgs :=
  (Fields.of SetAttrArgs.mk).add "object" (·.object) |>.add "new_attribute" (·.attributes)
    |>.add "guard" (·.guardTime) |>.form

instance : Form SetAttrOk := (Fields.of SetAttrOk.mk).add "obj_wcc" (·.object) |>.form

instance : Form LookupArgs := (Fields.of LookupArgs.mk).add "what" (·.entry) |>.form

instance : Form LookupOk :=
  (Fields.of LookupOk.mk).add "object" (·.object) |>.add "obj_attributes" (·.attributes)
    |>.add "dir_attributes" (·.directory) |>.form

instance : Form CreateHow where
  toTree
    | .unchecked a => .arm "UNCHECKED" (toTree a)
    | .guarded a => .arm "GUARDED" (toTree a)
    | .exclusive v => .arm "EXCLUSIVE" (toTree v)
  ofTree? t := t.arm?.bind fun
    | ("UNCHECKED", v) => (ofTree? v).map .unchecked
    | ("GUARDED", v) => (ofTree? v).map .guarded
    | ("EXCLUSIVE", v) => (ofTree? v).map .exclusive
    | _ => none

instance : Form CreateArgs :=
  (Fields.of CreateArgs.mk).add "dirops" (·.entry) |>.add "how" (·.how) |>.form

instance : Form MadeOk :=
  (Fields.of MadeOk.mk).add "obj" (·.object) |>.add "obj_attributes" (·.attributes)
    |>.add "dir_wcc" (·.directory) |>.form

instance : Form MkDirArgs :=
  (Fields.of MkDirArgs.mk).add "dirops" (·.entry) |>.add "attributes" (·.attributes) |>.form

instance : Form SymlinkTarget :=
  (Fields.of SymlinkTarget.mk).add "symlink_attributes" (·.attributes)
    |>.add "symlink_data" (·.path) |>.form

instance : Form SymlinkArgs :=
  (Fields.of SymlinkArgs.mk).add "dirops" (·.entry) |>.add "symlink" (·.target) |>.form

instance : Form DeviceData :=
  (Fields.of DeviceData.mk).add "dev_attributes" (·.attributes) |>.add "spec" (·.device) |>.form

instance : Form NodeData where
  toTree
    | .characterDevice d => .arm "Chr" (toTree d)
    | .blockDevice d => .arm "Blk" (toTree d)
    | .socket a => .arm "Sock" (toTree a)
    | .fifo a => .arm "Fifo" (toTree a)
    | .other k => .arm "Other" (toTree k)
  ofTree? t := t.arm?.bind fun
    | ("Chr", v) => (ofTree? v).map .characterDevice
    | ("Blk", v) => (ofTree? v).map .blockDevice
    | ("Sock", v) => (ofTree? v).map .socket
    | ("Fifo", v) => (ofTree? v).map .fifo
    | ("Other", v) => (ofTree? v).map .other
    | _ => none

instance : Form MkNodArgs :=
  (Fields.of MkNodArgs.mk).add "where_dir" (·.entry) |>.add "what" (·.node) |>.form

instance : Form RemoveArgs := (Fields.of RemoveArgs.mk).add "object" (·.entry) |>.form

instance : Form RemoveOk := (Fields.of RemoveOk.mk).add "dir_wcc" (·.directory) |>.form

instance : Form RenameArgs :=
  (Fields.of RenameArgs.mk).add "from" (·.source) |>.add "to" (·.target) |>.form

instance : Form RenameOk :=
  (Fields.of RenameOk.mk).add "fromdir_wcc" (·.source) |>.add "todir_wcc" (·.target) |>.form

instance : Form LinkArgs :=
  (Fields.of LinkArgs.mk).add "file" (·.file) |>.add "link" (·.link) |>.form

instance : Form LinkOk :=
  (Fields.of LinkOk.mk).add "file_attributes" (·.file) |>.add "linkdir_wcc" (·.directory) |>.form

instance : Form ListedName :=
  (Fields.of ListedName.mk).add "fileid" (·.fileId) |>.add "name" (·.name)
    |>.add "cookie" (·.cookie) |>.form

instance : Form ReadDirArgs :=
  (Fields.of ReadDirArgs.mk).add "dir" (·.directory) |>.add "cookie" (·.cookie)
    |>.add "cookieverf" (·.verifier) |>.add "count" (·.count) |>.form

instance {Entry : Type} [Form Entry] : Form (Listing Entry) :=
  (Fields.of Listing.mk).add "entries" (·.entries) |>.add "eof" (·.atEnd) |>.form

instance {Entry : Type} [Form Entry] : Form (ReadDirOk Entry) :=
  (Fields.of ReadDirOk.mk).add "dir_attributes" (·.directory) |>.add "cookieverf" (·.verifier)
    |>.add "reply" (·.listing) |>.form

instance : Form ListedObject :=
  (Fields.of ListedObject.mk).add "fileid" (·.fileId) |>.add "name" (·.name)
    |>.add "cookie" (·.cookie) |>.add "name_attributes" (·.attributes)
    |>.add "name_handle" (·.handle) |>.form

instance : Form ReadDirPlusArgs :=
  (Fields.of ReadDirPlusArgs.mk).add "dir" (·.directory) |>.add "cookie" (·.cookie)
    |>.add "cookieverf" (·.verifier) |>.add "dircount" (·.directoryCount)
    |>.add "maxcount" (·.maxCount) |>.form

instance : Form AccessArgs :=
  (Fields.of AccessArgs.mk).add "object" (·.object) |>.add "access" (·.access) |>.form

instance : Form AccessOk :=
  (Fields.of AccessOk.mk).add "obj_attributes" (·.attributes) |>.add "access" (·.access) |>.form

instance : Form ReadLinkArgs := (Fields.of ReadLinkArgs.mk).add "symlink" (·.symlink) |>.form

instance : Form ReadLinkOk :=
  (Fields.of ReadLinkOk.mk).add "symlink_attributes" (·.attributes) |>.add "data" (·.path) |>.form

instance : Form RangeArgs :=
  (Fields.of RangeArgs.mk).add "file" (·.file) |>.add "offset" (·.offset)
    |>.add "count" (·.count) |>.form

instance : Form ReadOk :=
  (Fields.of ReadOk.mk).add "file_attributes" (·.attributes) |>.add "count" (·.count)
    |>.add "eof" (·.atEnd) |>.add "data" (·.data) |>.form

instance : Form CommitOk :=
  (Fields.of CommitOk.mk).add "file_wcc" (·.file) |>.add "verf" (·.verifier) |>.form

instance : Form WriteArgs :=
  (Fields.of WriteArgs.mk).add "file" (·.file) |>.add "offset" (·.offset)
    |>.add "count" (·.count) |>.add "stable" (·.stable) |>.add "data" (·.data) |>.form

instance : Form WriteOk :=
  (Fields.of WriteOk.mk).add "file_wcc" (·.file) |>.add "count" (·.count)
    |>.add "committed" (·.committed) |>.add "verf" (·.verifier) |>.form

instance : Form FsInfoOk :=
  (Fields.of FsInfoOk.mk).add "obj_attributes" (·.attributes) |>.add "rtmax" (·.readMax)
    |>.add "rtpref" (·.readPreferred) |>.add "rtmult" (·.readMultiple)
    |>.add "wtmax" (·.writeMax) |>.add "wtpref" (·.writePreferred)
    |>.add "wtmult" (·.writeMultiple) |>.add "dtpref" (·.directoryPreferred)
    |>.add "maxfilesize" (·.maxFileSize) |>.add "time_delta" (·.timeStep)
    |>.add "properties" (·.properties) |>.form

instance : Form FsStatOk :=
  (Fields.of FsStatOk.mk).add "obj_attributes" (·.attributes) |>.add "tbytes" (·.totalBytes)
    |>.add "fbytes" (·.freeBytes) |>.add "abytes" (·.availableBytes)
    |>.add "tfiles" (·.totalFiles) |>.add "ffiles" (·.freeFiles)
    |>.add "afiles" (·.availableFiles) |>.add "invarsec" (·.steadySeconds) |>.form

instance : Form PathConfOk :=
  (Fields.of PathConfOk.mk).add "obj_attributes" (·.attributes) |>.add "linkmax" (·.linkMax)
    |>.add "name_max" (·.nameMax) |>.add "no_trunc" (·.noTruncation)
    |>.add "chown_restricted" (·.chownRestricted)
    |>.add "case_insensitive" (·.caseInsensitive)
    |>.add "case_preserving" (·.casePreserving) |>.form

instance {Ok Fail : Type} [Form Ok] [Form Fail] : Form (NfsReply Ok Fail) where
  toTree
    | .ok v => .arm "Ok" (toTree v)
    | .fail s v => .arm "Fail" (.record [("status", toTree s), ("body", toTree v)])
  ofTree? t := t.arm?.bind fun
    | ("Ok", v) => (ofTree? v).map .ok
    | ("Fail", v) => do
      let status ← v.field? "status"
      let body ← v.field? "body"
      return .fail (← ofTree? status) (← ofTree? body)
    | _ => none

end Nfs3.Exchange
