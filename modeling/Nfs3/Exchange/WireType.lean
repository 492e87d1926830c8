import Nfs3.Exchange.File
import Nfs3.Exchange.Message

/-!
All types that cross the wire, under their published names: how values are written and read, which
values can be, the zero value, and the exchange form. Brackets, stars and `list` make new types of
known ones.
-/
namespace Nfs3.Exchange

open Wire Rpc

structure WireType where
  {Value : Type}
  codec : Codec Value
  zero : Value
  form : Form Value
  /-- No count exceeds its length word, and no arm of a union stands for another. -/
  wellFormed : Value → Prop

namespace WireType

def of {α : Type} [Inhabited α] [form : Form α] (codec : Codec α)
    (wellFormed : α → Prop := Always) : WireType :=
  ⟨codec, default, form, wellFormed⟩

/-- No procedure reports anything on failure that could be too long. -/
def ofReply {Ok Fail : Type} [Form Ok] [Inhabited Fail] [Form Fail]
    (codec : Codec (NfsReply Ok Fail)) (ok : Ok → Prop := Always) : WireType :=
  of codec (NfsReply.WellFormed ok Always)

def ofEnumeration (α : Type) [Inhabited α] [Enumeration α] : WireType := of (.enumeration α)

def array (t : WireType) : WireType :=
  have := t.form
  ⟨t.codec.array, [], inferInstance, fun xs => xs.length ≤ maxLength ∧ ∀ x ∈ xs, t.wellFormed x⟩

def vector (t : WireType) (n : Nat) : WireType :=
  have := t.form
  ⟨t.codec.vector n, ⟨List.replicate n t.zero, List.length_replicate⟩, inferInstance,
    fun xs => ∀ x ∈ xs.val, t.wellFormed x⟩

def optional (t : WireType) : WireType :=
  have := t.form
  ⟨t.codec.optional, none, .orNull, fun o => ∀ v, o = some v → t.wellFormed v⟩

def chain (t : WireType) : WireType :=
  have := t.form
  ⟨t.codec.chain, [], inferInstance, fun xs => ∀ x ∈ xs, t.wellFormed x⟩

def scalars : List (String × WireType) :=
  [("void", of .void), ("bool", of .bool), ("int", of .signedWord), ("unsigned int", of .word),
    ("hyper", of .signedHyper), ("unsigned hyper", of .hyper), ("float", of .binary32),
    ("double", of .binary64), ("opaque<>", of .bytes (·.length ≤ maxLength)),
    ("string", of .text (·.utf8ByteSize ≤ maxLength)),
    ("filename3", of FileName.codec FileName.WellFormed),
    ("nfspath3", of FileName.codec FileName.WellFormed)]

def messages : List (String × WireType) :=
  [("auth_stat", ofEnumeration AuthStat), ("auth_flavor", ofEnumeration AuthFlavor),
    ("auth_unix", of UnixBody.codec UnixBody.WellFormed),
    ("opaque_auth", of AuthField.codec AuthField.WellFormed),
    ("mismatch_info", of VersionRange.codec), ("accept_body", of AcceptBody.codec),
    ("rejected_reply", of RejectBody.codec),
    ("accepted_reply", of AcceptedReply.codec AcceptedReply.WellFormed),
    ("reply_body", of ReplyBody.codec ReplyBody.WellFormed),
    ("call_body", of CallBody.codec CallBody.WellFormed),
    ("rpc_body", of MessageBody.codec MessageBody.WellFormed),
    ("rpc_msg", of Message.codec Message.WellFormed), ("mountstat3", ofEnumeration MountStatus),
    ("mountres3_ok", of Mounted.codec Mounted.WellFormed),
    ("mountres3", of MountReply.codec MountReply.WellFormed), ("mapping", of PortMapping.codec)]

def fileParts : List (String × WireType) :=
  [("nfsstat3", ofEnumeration NfsStatus), ("ftype3", ofEnumeration FileKind),
    ("createmode3", ofEnumeration CreateMode), ("stable_how", ofEnumeration Stability),
    ("specdata3", of DeviceNumber.codec), ("nfs_fh3", of FileHandle.codec FileHandle.WellFormed),
    ("nfstime3", of NfsTime.codec), ("fattr3", of FileAttributes.codec),
    ("wcc_attr", of ChangeMarks.codec), ("pre_op_attr", of ChangeMarks.codec.optional),
    ("post_op_attr", of FileAttributes.codec.optional), ("wcc_data", of CacheData.codec),
    ("post_op_fh3", of FileHandle.codec.optional fun o => ∀ h, o = some h → h.WellFormed),
    ("set_mode3", ⟨Codec.word.optional, none, setMode, Always⟩),
    ("set_uid3", ⟨Codec.word.optional, none, setUid, Always⟩),
    ("set_gid3", ⟨Codec.word.optional, none, setGid, Always⟩),
    ("set_size3", ⟨Codec.hyper.optional, none, setSize, Always⟩),
    ("set_atime", of (SetTime.codec .accessTime)), ("set_mtime", of (SetTime.codec .modifyTime)),
    ("sattr3", of SetAttributes.codec), ("sattrguard3", of NfsTime.codec.optional),
    ("diropargs3", of DirectoryEntry.codec DirectoryEntry.WellFormed),
    ("symlinkdata3", of SymlinkTarget.codec SymlinkTarget.WellFormed),
    ("createhow3", of CreateHow.codec), ("devicedata3", of DeviceData.codec),
    ("mknoddata3", of NodeData.codec NodeData.WellFormed),
    ("entry3", of ListedName.codec ListedName.WellFormed),
    ("entryplus3", of ListedObject.codec ListedObject.WellFormed),
    ("dirlist3", of (Listing.codec ListedName.codec) (Listing.WellFormed ListedName.WellFormed)),
    ("dirlistplus3",
      of (Listing.codec ListedObject.codec) (Listing.WellFormed ListedObject.WellFormed))]

def arguments : List (String × WireType) :=
  [("GETATTR3args", of ObjectArgs.codec ObjectArgs.WellFormed),
    ("SETATTR3args", of SetAttrArgs.codec SetAttrArgs.WellFormed),
    ("LOOKUP3args", of LookupArgs.codec LookupArgs.WellFormed),
    ("ACCESS3args", of AccessArgs.codec AccessArgs.WellFormed),
    ("READLINK3args", of ReadLinkArgs.codec ReadLinkArgs.WellFormed),
    ("READ3args", of RangeArgs.codec RangeArgs.WellFormed),
    ("CREATE3args", of CreateArgs.codec CreateArgs.WellFormed),
    ("MKDIR3args", of MkDirArgs.codec MkDirArgs.WellFormed),
    ("SYMLINK3args", of SymlinkArgs.codec SymlinkArgs.WellFormed),
    ("MKNOD3args", of MkNodArgs.codec MkNodArgs.WellFormed),
    ("REMOVE3args", of RemoveArgs.codec RemoveArgs.WellFormed),
    ("RMDIR3args", of RemoveArgs.codec RemoveArgs.WellFormed),
    ("RENAME3args", of RenameArgs.codec RenameArgs.WellFormed),
    ("LINK3args", of LinkArgs.codec LinkArgs.WellFormed),
    ("READDIR3args", of ReadDirArgs.codec ReadDirArgs.WellFormed),
    ("READDIRPLUS3args", of ReadDirPlusArgs.codec ReadDirPlusArgs.WellFormed),
    ("FSSTAT3args", of ObjectArgs.codec ObjectArgs.WellFormed),
    ("FSINFO3args", of ObjectArgs.codec ObjectArgs.WellFormed),
    ("PATHCONF3args", of ObjectArgs.codec ObjectArgs.WellFormed),
    ("COMMIT3args", of RangeArgs.codec RangeArgs.WellFormed)]

def results : List (String × WireType) :=
  [("GETATTR3resok", of GetAttrOk.codec), ("SETATTR3resok", of SetAttrOk.codec),
    ("LOOKUP3resok", of LookupOk.codec LookupOk.WellFormed), ("ACCESS3resok", of AccessOk.codec),
    ("READLINK3resok", of ReadLinkOk.codec ReadLinkOk.WellFormed),
    ("READ3resok", of ReadOk.codec ReadOk.WellFormed), ("WRITE3resok", of WriteOk.codec),
    ("CREATE3resok", of MadeOk.codec MadeOk.WellFormed),
    ("MKDIR3resok", of MadeOk.codec MadeOk.WellFormed),
    ("SYMLINK3resok", of MadeOk.codec MadeOk.WellFormed),
    ("MKNOD3resok", of MadeOk.codec MadeOk.WellFormed), ("REMOVE3resok", of RemoveOk.codec),
    ("RMDIR3resok", of RemoveOk.codec), ("RENAME3resok", of RenameOk.codec),
    ("LINK3resok", of LinkOk.codec),
    ("READDIR3resok",
      of (ReadDirOk.codec ListedName.codec) (ReadDirOk.WellFormed ListedName.WellFormed)),
    ("READDIRPLUS3resok",
      of (ReadDirOk.codec ListedObject.codec) (ReadDirOk.WellFormed ListedObject.WellFormed)),
    ("FSSTAT3resok", of FsStatOk.codec), ("FSINFO3resok", of FsInfoOk.codec),
    ("PATHCONF3resok", of PathConfOk.codec), ("COMMIT3resok", of CommitOk.codec)]

def replies : List (String × WireType) :=
  [("GETATTR3res", ofReply GetAttrReply.codec), ("SETATTR3res", ofReply SetAttrReply.codec),
    ("LOOKUP3res", ofReply LookupReply.codec LookupOk.WellFormed),
    ("ACCESS3res", ofReply AccessReply.codec),
    ("READLINK3res", ofReply ReadLinkReply.codec ReadLinkOk.WellFormed),
    ("READ3res", ofReply ReadReply.codec ReadOk.WellFormed),
    ("WRITE3res", ofReply WriteReply.codec),
    ("CREATE3res", ofReply MadeReply.codec MadeOk.WellFormed),
    ("MKDIR3res", ofReply MadeReply.codec MadeOk.WellFormed),
    ("SYMLINK3res", ofReply MadeReply.codec MadeOk.WellFormed),
    ("MKNOD3res", ofReply MadeReply.codec MadeOk.WellFormed),
    ("REMOVE3res", ofReply RemoveReply.codec), ("RMDIR3res", ofReply RemoveReply.codec),
    ("RENAME3res", ofReply RenameReply.codec), ("LINK3res", ofReply LinkReply.codec),
    ("READDIR3res", ofReply ReadDirReply.codec (ReadDirOk.WellFormed ListedName.WellFormed)),
    ("READDIRPLUS3res",
      ofReply ReadDirPlusReply.codec (ReadDirOk.WellFormed ListedObject.WellFormed)),
    ("FSSTAT3res", ofReply FsStatReply.codec), ("FSINFO3res", ofReply FsInfoReply.codec),
    ("PATHCONF3res", ofReply PathConfReply.codec), ("COMMIT3res", ofReply CommitReply.codec)]

def published : List (String × WireType) :=
  scalars ++ messages ++ fileParts ++ arguments ++ results ++ replies

end WireType

inductive TypeName where
  | published (name : String)
  | bytes (length : Nat)
  | array (item : TypeName)
  | vector (item : TypeName) (length : Nat)
  | optional (item : TypeName)
  | chain (item : TypeName)

namespace TypeName

def rename (names : String → String) : TypeName → TypeName
  | published name => published (names name)
  | bytes n => bytes n
  | array t => array (t.rename names)
  | vector t n => vector (t.rename names) n
  | optional t => optional (t.rename names)
  | chain t => chain (t.rename names)

/-- The type a spelling means, unless a name in it is unknown. -/
def type? : TypeName → Option WireType
  | published name => WireType.published.lookup name
  | bytes n => some (.of (.fixedBytes n))
  | array t => t.type?.map .array
  | vector t n => t.type?.map (·.vector n)
  | optional t => t.type?.map .optional
  | chain t => t.type?.map .chain

def count? : List Char → Option (Nat × List Char)
  | ']' :: cs =>
    match cs.dropWhile Char.isDigit with
    | '[' :: rest => (String.ofList (cs.takeWhile Char.isDigit).reverse).toNat?.map (·, rest)
    | _ => none
  | _ => none

/-- Reads the reversed text of a type without the word `list`; each step takes one sign off. -/
def ofReversed : Nat → List Char → TypeName
  | 0, cs => published (String.ofList cs.reverse)
  | signs + 1, cs =>
    match cs with
    | ['>', '<', 'e', 'u', 'q', 'a', 'p', 'o'] => published "opaque<>"
    | '>' :: '<' :: rest => array (ofReversed signs rest)
    | '*' :: rest => optional (ofReversed signs rest)
    | _ =>
      match count? cs with
      | some (n, rest) =>
        if rest = "opaque".toList.reverse then bytes n else vector (ofReversed signs rest) n
      | none => published (String.ofList cs.reverse)

def ofChars : List Char → TypeName
  | 'l' :: 'i' :: 's' :: 't' :: ' ' :: cs => chain (ofChars cs)
  | cs => ofReversed cs.length cs.reverse

def ofString (s : String) : TypeName := ofChars s.toList

end TypeName

end Nfs3.Exchange
