import Nfs3.Exchange.WireType
import Nfs3.Proofs.Wire.Buffer
import Nfs3.Proofs.Wire.File
import Nfs3.Proofs.Wire.Message

/-!
All types that cross the wire are lawful, the named ones by the table and the others by how they are
spelled. So every well-formed value of every type comes back as it was sent.
-/
namespace Nfs3.Exchange
open Wire Rpc Codec

namespace WireType

def Lawful (t : WireType) : Prop := t.codec.Lawful t.wellFormed

theorem scalars_lawful : ∀ e ∈ scalars, e.2.Lawful := by
  simp only [scalars, List.forall_mem_cons]
  exact ⟨.void, .bool, .signedWord, .word, .signedHyper, .hyper, .binary32, .binary64, .bytes,
    .text, FileName.lawful, FileName.lawful, List.forall_mem_nil _⟩

theorem messages_lawful : ∀ e ∈ messages, e.2.Lawful := by
  simp only [messages, List.forall_mem_cons]
  exact ⟨AuthStat.lawful, AuthFlavor.lawful, UnixBody.lawful, AuthField.lawful,
    VersionRange.lawful, AcceptBody.lawful, RejectBody.lawful, AcceptedReply.lawful,
    ReplyBody.lawful, CallBody.lawful, MessageBody.lawful, Message.lawful, MountStatus.lawful,
    Mounted.lawful, MountReply.lawful, PortMapping.lawful, List.forall_mem_nil _⟩

theorem optional_always {α : Type} {c : Codec α} (h : c.Lawful Always) :
    c.optional.Lawful Always :=
  h.optional.congr fun _ => by simp [Always]

theorem fileParts_lawful : ∀ e ∈ fileParts, e.2.Lawful := by
  simp only [fileParts, List.forall_mem_cons]
  exact ⟨NfsStatus.lawful, FileKind.lawful, CreateMode.lawful, Stability.lawful,
    DeviceNumber.lawful, FileHandle.lawful, NfsTime.lawful, FileAttributes.lawful,
    ChangeMarks.lawful, optional_always ChangeMarks.lawful, optional_always FileAttributes.lawful,
    CacheData.lawful, FileHandle.lawful.optional, optional_always .word, optional_always .word,
    optional_always .word, optional_always .hyper, SetTime.lawful _, SetTime.lawful _,
    SetAttributes.lawful, optional_always NfsTime.lawful, DirectoryEntry.lawful,
    SymlinkTarget.lawful, CreateHow.lawful, DeviceData.lawful, NodeData.lawful, ListedName.lawful,
    ListedObject.lawful, Listing.lawful ListedName.lawful, Listing.lawful ListedObject.lawful,
    List.forall_mem_nil _⟩

theorem arguments_lawful : ∀ e ∈ arguments, e.2.Lawful := by
  simp only [arguments, List.forall_mem_cons]
  exact ⟨ObjectArgs.lawful, SetAttrArgs.lawful, LookupArgs.lawful, AccessArgs.lawful,
    ReadLinkArgs.lawful, RangeArgs.lawful, CreateArgs.lawful, MkDirArgs.lawful, SymlinkArgs.lawful,
    MkNodArgs.lawful, RemoveArgs.lawful, RemoveArgs.lawful, RenameArgs.lawful, LinkArgs.lawful,
    ReadDirArgs.lawful, ReadDirPlusArgs.lawful, ObjectArgs.lawful, ObjectArgs.lawful,
    ObjectArgs.lawful, RangeArgs.lawful, List.forall_mem_nil _⟩

theorem results_lawful : ∀ e ∈ results, e.2.Lawful := by
  simp only [results, List.forall_mem_cons]
  exact ⟨GetAttrOk.lawful, SetAttrOk.lawful, LookupOk.lawful, AccessOk.lawful, ReadLinkOk.lawful,
    ReadOk.lawful, WriteOk.lawful, MadeOk.lawful, MadeOk.lawful, MadeOk.lawful, MadeOk.lawful,
    RemoveOk.lawful, RemoveOk.lawful, RenameOk.lawful, LinkOk.lawful,
    ReadDirOk.lawful ListedName.lawful, ReadDirOk.lawful ListedObject.lawful, FsStatOk.lawful,
    FsInfoOk.lawful, PathConfOk.lawful, CommitOk.lawful, List.forall_mem_nil _⟩

theorem replies_lawful : ∀ e ∈ replies, e.2.Lawful := by
  have attributes := optional_always FileAttributes.lawful
  simp only [replies, List.forall_mem_cons]
  exact ⟨NfsReply.lawful GetAttrOk.lawful .void, NfsReply.lawful SetAttrOk.lawful CacheData.lawful,
    NfsReply.lawful LookupOk.lawful attributes, NfsReply.lawful AccessOk.lawful attributes,
    NfsReply.lawful ReadLinkOk.lawful attributes, NfsReply.lawful ReadOk.lawful attributes,
    NfsReply.lawful WriteOk.lawful CacheData.lawful, NfsReply.lawful MadeOk.lawful CacheData.lawful,
    NfsReply.lawful MadeOk.lawful CacheData.lawful, NfsReply.lawful MadeOk.lawful CacheData.lawful,
    NfsReply.lawful MadeOk.lawful CacheData.lawful,
    NfsReply.lawful RemoveOk.lawful CacheData.lawful,
    NfsReply.lawful RemoveOk.lawful CacheData.lawful,
    NfsReply.lawful RenameOk.lawful RenameOk.lawful, NfsReply.lawful LinkOk.lawful LinkOk.lawful,
    NfsReply.lawful (ReadDirOk.lawful ListedName.lawful) attributes,
    NfsReply.lawful (ReadDirOk.lawful ListedObject.lawful) attributes,
    NfsReply.lawful FsStatOk.lawful attributes, NfsReply.lawful FsInfoOk.lawful attributes,
    NfsReply.lawful PathConfOk.lawful attributes, NfsReply.lawful CommitOk.lawful CacheData.lawful,
    List.forall_mem_nil _⟩

theorem published_lawful : ∀ e ∈ published, e.2.Lawful := by
  simp only [published, List.forall_mem_append]
  exact ⟨⟨⟨⟨⟨scalars_lawful, messages_lawful⟩, fileParts_lawful⟩, arguments_lawful⟩,
    results_lawful⟩, replies_lawful⟩

end WireType

theorem TypeName.lawful {name : TypeName} {t : WireType} (h : name.type? = some t) : t.Lawful := by
  induction name generalizing t with
  | published name =>
    obtain ⟨before, after, hl, -⟩ := List.lookup_eq_some_iff.1 h
    exact WireType.published_lawful (name, t) (by simp [hl])
  | bytes n =>
    cases h
    exact Lawful.fixedBytes n
  | array item ih =>
    obtain ⟨u, hu, rfl⟩ := Option.map_eq_some_iff.1 h
    exact Lawful.array (ih hu)
  | vector item n ih =>
    obtain ⟨u, hu, rfl⟩ := Option.map_eq_some_iff.1 h
    exact Lawful.vector (ih hu) n
  | optional item ih =>
    obtain ⟨u, hu, rfl⟩ := Option.map_eq_some_iff.1 h
    exact Lawful.optional (ih hu)
  | chain item ih =>
    obtain ⟨u, hu, rfl⟩ := Option.map_eq_some_iff.1 h
    exact Lawful.chain (ih hu)

/-- A well-formed value of any type is written in whole words, and whatever follows, a reader and a
message buffer take exactly those words back for the same value. -/
theorem encode_round_trip {name : TypeName} {t : WireType} (ht : name.type? = some t)
    {v : t.Value} (hv : t.wellFormed v) (rest : Bytes) :
    (t.codec.write v).fault = none ∧ (t.codec.encode v).length % 4 = 0 ∧
    t.codec.decode (t.codec.encode v ++ rest) = .ok v rest ∧
    ∀ b : MessageBuffer, b.position ≤ b.bytes.length →
      b.bytes.drop b.position = t.codec.encode v ++ rest →
      (MessageBuffer.fetch t.codec).run b =
        .ok v { b with position := b.position + (t.codec.encode v).length } := by
  have h : t.codec.Lawful t.wellFormed := TypeName.lawful ht
  have hd : t.codec.decode (t.codec.encode v ++ rest) = .ok v rest :=
    h.read_iff.2 ⟨hv, Image.heads_bytes _ rest⟩
  refine ⟨h.complete hv, ?_, hd, fun b hp hb => MessageBuffer.fetch_eq_ok hp hb hd⟩
  rw [Codec.encode, Output.bytes, Image.length_bytes]
  exact h.aligned hv

def smallListing : ReadDirPlusReply :=
  .ok ⟨none, ⟨[0, 0, 0, 0, 0, 0, 0, 1], rfl⟩,
    ⟨[⟨7, ⟨[0x61, 0x62, 0x63]⟩, 1, none, some ⟨[1, 2, 3, 4, 5]⟩⟩, ⟨8, ⟨[]⟩, 2, none, none⟩], true⟩⟩

theorem smallListing_wellFormed :
    smallListing.WellFormed (ReadDirOk.WellFormed ListedObject.WellFormed) Always := by
  simp [smallListing, NfsReply.WellFormed, ReadDirOk.WellFormed, Listing.WellFormed,
    ListedObject.WellFormed, FileName.WellFormed, FileHandle.WellFormed, maxLength]

theorem encode_round_trip_smallListing :
    smallListing.WellFormed (ReadDirOk.WellFormed ListedObject.WellFormed) Always ∧
    (ReadDirPlusReply.codec.encode smallListing).length = 104 ∧
    ReadDirPlusReply.codec.decode (ReadDirPlusReply.codec.encode smallListing ++ [9]) =
      .ok smallListing [9] := by
  have h := @encode_round_trip (.published "READDIRPLUS3res")
    (.ofReply ReadDirPlusReply.codec (ReadDirOk.WellFormed ListedObject.WellFormed)) rfl
    smallListing smallListing_wellFormed [9]
  exact ⟨smallListing_wellFormed, by decide, h.2.2.1⟩

end Nfs3.Exchange
