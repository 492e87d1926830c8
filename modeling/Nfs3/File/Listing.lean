import Nfs3.File.Attributes

/-! Directory listings, plain and with attributes. A listing is a chain of entries and a mark that
says whether the directory ends there. -/
namespace Nfs3

open Wire

structure ListedName where
  fileId : UInt64
  name : FileName
  cookie : UInt64
  deriving DecidableEq, Inhabited

def ListedName.codec : Codec ListedName :=
  (Codec.hyper.pair <| FileName.codec.pair .hyper).iso
    (fun (a, b, c) => ⟨a, b, c⟩) (fun v => (v.fileId, v.name, v.cookie))

def ListedName.WellFormed (v : ListedName) : Prop := v.name.WellFormed

structure ReadDirArgs where
  directory : FileHandle
  cookie : UInt64
  verifier : Sized UInt8 8
  count : UInt32
  deriving DecidableEq, Inhabited

def ReadDirArgs.codec : Codec ReadDirArgs :=
  (FileHandle.codec.pair <| Codec.hyper.pair <| (Codec.fixedBytes 8).pair .word).iso
    (fun (a, b, c, d) => ⟨a, b, c, d⟩) (fun v => (v.directory, v.cookie, v.verifier, v.count))

def ReadDirArgs.WellFormed (v : ReadDirArgs) : Prop := v.directory.WellFormed

structure Listing (Entry : Type) where
  entries : List Entry
  atEnd : Bool
  deriving DecidableEq, Inhabited

def Listing.codec {Entry : Type} (entry : Codec Entry) : Codec (Listing Entry) :=
  (entry.chain.pair .bool).iso (fun (a, b) => ⟨a, b⟩) (fun v => (v.entries, v.atEnd))

def Listing.WellFormed {Entry : Type} (entry : Entry → Prop) (v : Listing Entry) : Prop :=
  ∀ e ∈ v.entries, entry e

structure ReadDirOk (Entry : Type) where
  directory : Option FileAttributes
  verifier : Sized UInt8 8
  listing : Listing Entry
  deriving DecidableEq, Inhabited

def ReadDirOk.codec {Entry : Type} (entry : Codec Entry) : Codec (ReadDirOk Entry) :=
  (FileAttributes.codec.optional.pair <| (Codec.fixedBytes 8).pair (Listing.codec entry)).iso
    (fun (a, b, c) => ⟨a, b, c⟩) (fun v => (v.directory, v.verifier, v.listing))

def ReadDirOk.WellFormed {Entry : Type} (entry : Entry → Prop) (v : ReadDirOk Entry) : Prop :=
  v.listing.WellFormed entry

abbrev ReadDirReply := NfsReply (ReadDirOk ListedName) (Option FileAttributes)

def ReadDirReply.codec : Codec ReadDirReply :=
  NfsReply.codec (ReadDirOk.codec ListedName.codec) FileAttributes.codec.optional

structure ListedObject where
  fileId : UInt64
  name : FileName
  cookie : UInt64
  attributes : Option FileAttributes
  handle : Option FileHandle
  deriving DecidableEq, Inhabited

def ListedObject.codec : Codec ListedObject :=
  (Codec.hyper.pair <| FileName.codec.pair <| Codec.hyper.pair <|
    FileAttributes.codec.optional.pair FileHandle.codec.optional).iso
    (fun (a, b, c, d, e) => ⟨a, b, c, d, e⟩)
    (fun v => (v.fileId, v.name, v.cookie, v.attributes, v.handle))

def ListedObject.WellFormed (v : ListedObject) : Prop :=
  v.name.WellFormed ∧ ∀ h ∈ v.handle, h.WellFormed

structure ReadDirPlusArgs where
  directory : FileHandle
  cookie : UInt64
  verifier : Sized UInt8 8
  directoryCount : UInt32
  maxCount : UInt32
  deriving DecidableEq, Inhabited

def ReadDirPlusArgs.codec : Codec ReadDirPlusArgs :=
  (FileHandle.codec.pair <| Codec.hyper.pair <| (Codec.fixedBytes 8).pair <|
    Codec.word.pair .word).iso
    (fun (a, b, c, d, e) => ⟨a, b, c, d, e⟩)
    (fun v => (v.directory, v.cookie, v.verifier, v.directoryCount, v.maxCount))

def ReadDirPlusArgs.WellFormed (v : ReadDirPlusArgs) : Prop := v.directory.WellFormed

abbrev ReadDirPlusReply := NfsReply (ReadDirOk ListedObject) (Option FileAttributes)

def ReadDirPlusReply.codec : Codec ReadDirPlusReply :=
  NfsReply.codec (ReadDirOk.codec ListedObject.codec) FileAttributes.codec.optional

end Nfs3
