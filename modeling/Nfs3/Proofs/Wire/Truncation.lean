import Nfs3.Proofs.Wire.Canonical
import Nfs3.Proofs.Wire.Steady

/-!
Bytes that stop too early. The reader of every type misses the rest of a value that was cut off,
wherever the cut is, and takes a value that is all there whatever follows.
-/
namespace Nfs3
open Wire Codec Reader

namespace Rpc

theorem AuthStat.steady : AuthStat.codec.Steady := .enumeration

theorem AuthFlavor.steady : AuthFlavor.codec.Steady := .enumeration

theorem UnixBody.steady : UnixBody.codec.Steady :=
  (Steady.word.pair <| .pair .bytes <| .pair .word <| .pair .word Steady.word.array).iso

theorem AuthField.steady : AuthField.codec.Steady := (AuthFlavor.steady.pair .bytes).iso

theorem VersionRange.steady : VersionRange.codec.Steady := (Steady.word.pair .word).iso

theorem AcceptBody.steady : AcceptBody.codec.Steady := by
  refine Steady.word.union rfl fun w => ?_
  split
  · exact .pure _
  · exact .pure _
  · exact VersionRange.steady.map _
  · exact .pure _
  · exact .pure _
  · exact .pure _
  · exact .throw _

theorem RejectBody.steady : RejectBody.codec.Steady := by
  refine Steady.word.union rfl fun w => ?_
  split
  · exact VersionRange.steady.map _
  · exact AuthStat.steady.map _
  · exact .throw _

theorem AcceptedReply.steady : AcceptedReply.codec.Steady :=
  (AuthField.steady.pair AcceptBody.steady).iso

theorem ReplyBody.steady : ReplyBody.codec.Steady := by
  refine Steady.word.union rfl fun w => ?_
  split
  · exact AcceptedReply.steady.map _
  · exact RejectBody.steady.map _
  · exact .throw _

theorem CallBody.steady : CallBody.codec.Steady :=
  (Steady.word.pair <| .pair .word <| .pair .word <| .pair .word <|
    AuthField.steady.pair AuthField.steady).iso

theorem MessageBody.steady : MessageBody.codec.Steady := by
  refine Steady.word.union rfl fun w => ?_
  split
  · exact CallBody.steady.map _
  · exact ReplyBody.steady.map _
  · exact .throw _

theorem Message.steady : Message.codec.Steady := (Steady.word.pair MessageBody.steady).iso

end Rpc

theorem MountStatus.steady : MountStatus.codec.Steady := .enumeration

theorem Mounted.steady : Mounted.codec.Steady := (Steady.bytes.pair Steady.word.array).iso

theorem MountReply.steady : MountReply.codec.Steady := by
  refine MountStatus.steady.union rfl fun s => ?_
  split
  · exact Mounted.steady.map _
  · exact .pure _

theorem PortMapping.steady : PortMapping.codec.Steady :=
  (Steady.word.pair <| .pair .word <| .pair .word .word).iso

theorem NfsStatus.steady : NfsStatus.codec.Steady := .enumeration

theorem NfsReply.steady {Ok Fail : Type} {c : Codec Ok} {d : Codec Fail} (hc : c.Steady)
    (hd : d.Steady) : (NfsReply.codec c d).Steady := by
  refine NfsStatus.steady.union rfl fun s => ?_
  split
  · exact hc.map _
  · exact hd.map _

theorem FileKind.steady : FileKind.codec.Steady := .enumeration

theorem CreateMode.steady : CreateMode.codec.Steady := .enumeration

theorem Stability.steady : Stability.codec.Steady := .enumeration

theorem FileName.steady : FileName.codec.Steady := Steady.bytes.iso

theorem FileHandle.steady : FileHandle.codec.Steady := Steady.bytes.iso

theorem DeviceNumber.steady : DeviceNumber.codec.Steady := (Steady.word.pair .word).iso

theorem NfsTime.steady : NfsTime.codec.Steady := (Steady.word.pair .word).iso

theorem FileAttributes.steady : FileAttributes.codec.Steady :=
  (FileKind.steady.pair <| .pair .word <| .pair .word <| .pair .word <| .pair .word <|
    .pair .hyper <| .pair .hyper <| DeviceNumber.steady.pair <| .pair .hyper <| .pair .hyper <|
    NfsTime.steady.pair <| NfsTime.steady.pair NfsTime.steady).iso

theorem SetTime.steady (union : UnionName) : (SetTime.codec union).Steady := by
  refine Steady.word.union rfl fun w => ?_
  split
  · exact .pure _
  · exact .pure _
  · exact NfsTime.steady.map _
  · exact .throw _

theorem ChangeMarks.steady : ChangeMarks.codec.Steady :=
  (Steady.hyper.pair <| NfsTime.steady.pair NfsTime.steady).iso

theorem CacheData.steady : CacheData.codec.Steady :=
  (ChangeMarks.steady.optional.pair FileAttributes.steady.optional).iso

theorem SetAttributes.steady : SetAttributes.codec.Steady :=
  (Steady.word.optional.pair <| Steady.word.optional.pair <| Steady.word.optional.pair <|
    Steady.hyper.optional.pair <| (SetTime.steady _).pair (SetTime.steady _)).iso

theorem DirectoryEntry.steady : DirectoryEntry.codec.Steady :=
  (FileHandle.steady.pair FileName.steady).iso

theorem ListedName.steady : ListedName.codec.Steady :=
  (Steady.hyper.pair <| FileName.steady.pair .hyper).iso

theorem ListedObject.steady : ListedObject.codec.Steady :=
  (Steady.hyper.pair <| FileName.steady.pair <| .pair .hyper <|
    FileAttributes.steady.optional.pair FileHandle.steady.optional).iso

theorem Listing.steady {Entry : Type} {entry : Codec Entry} (h : entry.Steady) :
    (Listing.codec entry).Steady :=
  (h.chain.pair .bool).iso

theorem CreateHow.steady : CreateHow.codec.Steady := by
  refine CreateMode.steady.union rfl fun m => ?_
  cases m with
  | unchecked => exact SetAttributes.steady.map _
  | guarded => exact SetAttributes.steady.map _
  | exclusive => exact (Steady.fixedBytes 8).map _

theorem SymlinkTarget.steady : SymlinkTarget.codec.Steady :=
  (SetAttributes.steady.pair FileName.steady).iso

theorem DeviceData.steady : DeviceData.codec.Steady :=
  (SetAttributes.steady.pair DeviceNumber.steady).iso

theorem NodeData.steady : NodeData.codec.Steady := by
  refine FileKind.steady.union rfl fun k => ?_
  split
  · exact DeviceData.steady.map _
  · exact DeviceData.steady.map _
  · exact SetAttributes.steady.map _
  · exact SetAttributes.steady.map _
  · exact .pure _

theorem ObjectArgs.steady : ObjectArgs.codec.Steady := FileHandle.steady.iso

theorem SetAttrArgs.steady : SetAttrArgs.codec.Steady :=
  (FileHandle.steady.pair <| SetAttributes.steady.pair NfsTime.steady.optional).iso

theorem LookupArgs.steady : LookupArgs.codec.Steady := DirectoryEntry.steady.iso

theorem AccessArgs.steady : AccessArgs.codec.Steady := (FileHandle.steady.pair .word).iso

theorem ReadLinkArgs.steady : ReadLinkArgs.codec.Steady := FileHandle.steady.iso

theorem RangeArgs.steady : RangeArgs.codec.Steady :=
  (FileHandle.steady.pair <| .pair .hyper .word).iso

theorem CreateArgs.steady : CreateArgs.codec.Steady :=
  (DirectoryEntry.steady.pair CreateHow.steady).iso

theorem MkDirArgs.steady : MkDirArgs.codec.Steady :=
  (DirectoryEntry.steady.pair SetAttributes.steady).iso

theorem SymlinkArgs.steady : SymlinkArgs.codec.Steady :=
  (DirectoryEntry.steady.pair SymlinkTarget.steady).iso

theorem MkNodArgs.steady : MkNodArgs.codec.Steady :=
  (DirectoryEntry.steady.pair NodeData.steady).iso

theorem RemoveArgs.steady : RemoveArgs.codec.Steady := DirectoryEntry.steady.iso

theorem RenameArgs.steady : RenameArgs.codec.Steady :=
  (DirectoryEntry.steady.pair DirectoryEntry.steady).iso

theorem LinkArgs.steady : LinkArgs.codec.Steady :=
  (FileHandle.steady.pair DirectoryEntry.steady).iso

theorem ReadDirArgs.steady : ReadDirArgs.codec.Steady :=
  (FileHandle.steady.pair <| .pair .hyper <| .pair (.fixedBytes 8) .word).iso

theorem ReadDirPlusArgs.steady : ReadDirPlusArgs.codec.Steady :=
  (FileHandle.steady.pair <| .pair .hyper <| .pair (.fixedBytes 8) <| .pair .word .word).iso

theorem GetAttrOk.steady : GetAttrOk.codec.Steady := FileAttributes.steady.iso

theorem SetAttrOk.steady : SetAttrOk.codec.Steady := CacheData.steady.iso

theorem LookupOk.steady : LookupOk.codec.Steady :=
  (FileHandle.steady.pair <|
    FileAttributes.steady.optional.pair FileAttributes.steady.optional).iso

theorem AccessOk.steady : AccessOk.codec.Steady := (FileAttributes.steady.optional.pair .word).iso

theorem ReadLinkOk.steady : ReadLinkOk.codec.Steady :=
  (FileAttributes.steady.optional.pair FileName.steady).iso

theorem ReadOk.steady : ReadOk.codec.Steady :=
  (FileAttributes.steady.optional.pair <| .pair .word <| .pair .bool .bytes).iso

theorem WriteOk.steady : WriteOk.codec.Steady :=
  (CacheData.steady.pair <| .pair .word <| Stability.steady.pair (.fixedBytes 8)).iso

theorem MadeOk.steady : MadeOk.codec.Steady :=
  (FileHandle.steady.optional.pair <| FileAttributes.steady.optional.pair CacheData.steady).iso

theorem RemoveOk.steady : RemoveOk.codec.Steady := CacheData.steady.iso

theorem RenameOk.steady : RenameOk.codec.Steady := (CacheData.steady.pair CacheData.steady).iso

theorem LinkOk.steady : LinkOk.codec.Steady :=
  (FileAttributes.steady.optional.pair CacheData.steady).iso

theorem ReadDirOk.steady {Entry : Type} {entry : Codec Entry} (h : entry.Steady) :
    (ReadDirOk.codec entry).Steady :=
  (FileAttributes.steady.optional.pair <| .pair (.fixedBytes 8) (Listing.steady h)).iso

theorem FsStatOk.steady : FsStatOk.codec.Steady :=
  (FileAttributes.steady.optional.pair <| .pair .hyper <| .pair .hyper <| .pair .hyper <|
    .pair .hyper <| .pair .hyper <| .pair .hyper .word).iso

theorem FsInfoOk.steady : FsInfoOk.codec.Steady :=
  (FileAttributes.steady.optional.pair <| .pair .word <| .pair .word <| .pair .word <|
    .pair .word <| .pair .word <| .pair .word <| .pair .word <| .pair .hyper <|
    NfsTime.steady.pair .word).iso

theorem PathConfOk.steady : PathConfOk.codec.Steady :=
  (FileAttributes.steady.optional.pair <| .pair .word <| .pair .word <| .pair .bool <|
    .pair .bool <| .pair .bool .bool).iso

theorem CommitOk.steady : CommitOk.codec.Steady := (CacheData.steady.pair (.fixedBytes 8)).iso

namespace Exchange
open Rpc

namespace WireType

def Steady (t : WireType) : Prop := t.codec.Steady

theorem scalars_steady : ∀ e ∈ scalars, e.2.Steady := by
  simp only [scalars, List.forall_mem_cons]
  exact ⟨.void, .bool, .signedWord, .word, .signedHyper, .hyper, .binary32, .binary64, .bytes,
    .text, FileName.steady, FileName.steady, List.forall_mem_nil _⟩

theorem messages_steady : ∀ e ∈ messages, e.2.Steady := by
  simp only [messages, List.forall_mem_cons]
  exact ⟨AuthStat.steady, AuthFlavor.steady, UnixBody.steady, AuthField.steady,
    VersionRange.steady, AcceptBody.steady, RejectBody.steady, AcceptedReply.steady,
    ReplyBody.steady, CallBody.steady, MessageBody.steady, Message.steady, MountStatus.steady,
    Mounted.steady, MountReply.steady, PortMapping.steady, List.forall_mem_nil _⟩

theorem fileParts_steady : ∀ e ∈ fileParts, e.2.Steady := by
  simp only [fileParts, List.forall_mem_cons]
  exact ⟨NfsStatus.steady, FileKind.steady, CreateMode.steady, Stability.steady,
    DeviceNumber.steady, FileHandle.steady, NfsTime.steady, FileAttributes.steady,
    ChangeMarks.steady, ChangeMarks.steady.optional, FileAttributes.steady.optional,
    CacheData.steady, FileHandle.steady.optional, Codec.Steady.word.optional,
    Codec.Steady.word.optional, Codec.Steady.word.optional, Codec.Steady.hyper.optional,
    SetTime.steady _, SetTime.steady _, SetAttributes.steady, NfsTime.steady.optional,
    DirectoryEntry.steady, SymlinkTarget.steady, CreateHow.steady, DeviceData.steady,
    NodeData.steady, ListedName.steady, ListedObject.steady, Listing.steady ListedName.steady,
    Listing.steady ListedObject.steady, List.forall_mem_nil _⟩

theorem arguments_steady : ∀ e ∈ arguments, e.2.Steady := by
  simp only [arguments, List.forall_mem_cons]
  exact ⟨ObjectArgs.steady, SetAttrArgs.steady, LookupArgs.steady, AccessArgs.steady,
    ReadLinkArgs.steady, RangeArgs.steady, CreateArgs.steady, MkDirArgs.steady, SymlinkArgs.steady,
    MkNodArgs.steady, RemoveArgs.steady, RemoveArgs.steady, RenameArgs.steady, LinkArgs.steady,
    ReadDirArgs.steady, ReadDirPlusArgs.steady, ObjectArgs.steady, ObjectArgs.steady,
    ObjectArgs.steady, RangeArgs.steady, List.forall_mem_nil _⟩

theorem results_steady : ∀ e ∈ results, e.2.Steady := by
  simp only [results, List.forall_mem_cons]
  exact ⟨GetAttrOk.steady, SetAttrOk.steady, LookupOk.steady, AccessOk.steady, ReadLinkOk.steady,
    ReadOk.steady, WriteOk.steady, MadeOk.steady, MadeOk.steady, MadeOk.steady, MadeOk.steady,
    RemoveOk.steady, RemoveOk.steady, RenameOk.steady, LinkOk.steady,
    ReadDirOk.steady ListedName.steady, ReadDirOk.steady ListedObject.steady, FsStatOk.steady,
    FsInfoOk.steady, PathConfOk.steady, CommitOk.steady, List.forall_mem_nil _⟩

theorem replies_steady : ∀ e ∈ replies, e.2.Steady := by
  have attributes := FileAttributes.steady.optional
  have made := NfsReply.steady MadeOk.steady CacheData.steady
  have removed := NfsReply.steady RemoveOk.steady CacheData.steady
  simp only [replies, List.forall_mem_cons]
  exact ⟨NfsReply.steady GetAttrOk.steady .void, NfsReply.steady SetAttrOk.steady CacheData.steady,
    NfsReply.steady LookupOk.steady attributes, NfsReply.steady AccessOk.steady attributes,
    NfsReply.steady ReadLinkOk.steady attributes, NfsReply.steady ReadOk.steady attributes,
    NfsReply.steady WriteOk.steady CacheData.steady, made, made, made, made, removed, removed,
    NfsReply.steady RenameOk.steady RenameOk.steady, NfsReply.steady LinkOk.steady LinkOk.steady,
    NfsReply.steady (ReadDirOk.steady ListedName.steady) attributes,
    NfsReply.steady (ReadDirOk.steady ListedObject.steady) attributes,
    NfsReply.steady FsStatOk.steady attributes, NfsReply.steady FsInfoOk.steady attributes,
    NfsReply.steady PathConfOk.steady attributes, NfsReply.steady CommitOk.steady CacheData.steady,
    List.forall_mem_nil _⟩

theorem published_steady : ∀ e ∈ published, e.2.Steady := by
  simp only [published, List.forall_mem_append]
  exact ⟨⟨⟨⟨⟨scalars_steady, messages_steady⟩, fileParts_steady⟩, arguments_steady⟩,
    results_steady⟩, replies_steady⟩

end WireType

theorem TypeName.steady {name : TypeName} {t : WireType} (h : name.type? = some t) : t.Steady := by
  induction name generalizing t with
  | published name =>
    obtain ⟨before, after, hl, -⟩ := List.lookup_eq_some_iff.1 h
    exact WireType.published_steady (name, t) (by simp [hl])
  | bytes n =>
    cases h
    exact Codec.Steady.fixedBytes n
  | array item ih =>
    obtain ⟨u, hu, rfl⟩ := Option.map_eq_some_iff.1 h
    exact Codec.Steady.array (ih hu)
  | vector item n ih =>
    obtain ⟨u, hu, rfl⟩ := Option.map_eq_some_iff.1 h
    exact Codec.Steady.vector (ih hu) n
  | optional item ih =>
    obtain ⟨u, hu, rfl⟩ := Option.map_eq_some_iff.1 h
    exact Codec.Steady.optional (ih hu)
  | chain item ih =>
    obtain ⟨u, hu, rfl⟩ := Option.map_eq_some_iff.1 h
    exact Codec.Steady.chain (ih hu)

/-- The types that are read: those that have a spelling, and the count in front of other data. -/
inductive WireType.Readable : WireType → Prop
  | spelled {name : TypeName} {t : WireType} (h : name.type? = some t) : Readable t
  | count : Readable (.of .lengthWord (· ≤ maxLength))

namespace WireType.Readable

theorem lawful {t : WireType} (h : t.Readable) : t.Lawful := by
  cases h with
  | spelled h => exact TypeName.lawful h
  | count => exact Codec.Lawful.lengthWord

theorem steady {t : WireType} (h : t.Readable) : t.Steady := by
  cases h with
  | spelled h => exact TypeName.steady h
  | count => exact Codec.Steady.lengthWord

end WireType.Readable

/-- A value of any type is taken from the bytes it stands in, whatever follows them. From any part
of them a reader and a message buffer miss the rest, and the cursor stays inside the bytes. -/
theorem decode_truncated {t : WireType} (ht : t.Readable) {bs rest : Bytes} {v : t.Value}
    (h : t.codec.decode bs = .ok v rest) :
    ∃ used, bs = used ++ rest ∧
      (∀ more, t.codec.decode (used ++ more) = .ok v more) ∧
      (∀ n < used.length, ∃ fault left, t.codec.decode (used.take n) = .error fault left ∧
        (IoFailure.ofRead fault).kind = .unexpectedEof) ∧
      ∀ b : MessageBuffer, b.position ≤ b.bytes.length →
        (∀ more, b.bytes.drop b.position = used ++ more →
          (MessageBuffer.fetch t.codec).run b =
            .ok v { b with position := b.position + used.length }) ∧
        ∀ n < used.length, b.bytes.drop b.position = used.take n →
          ∃ problem b', (MessageBuffer.fetch t.codec).run b =
            .error (.malformedMessage problem) b' ∧
            b'.position ≤ b'.bytes.length ∧ b' = { b with position := b'.position } := by
  have hl : t.codec.Lawful t.wellFormed := ht.lawful
  obtain ⟨hv, used, hm, rfl⟩ := hl.read_iff.1 h
  have hall (more : Bytes) : t.codec.decode (used ++ more) = .ok v more :=
    hl.read_iff.2 ⟨hv, used, hm, rfl⟩
  have hcut (n : Nat) (hn : n < used.length) : ∃ fault left,
      t.codec.decode (used.take n) = .error fault left ∧ fault.OutOfInput := by
    have hlost : used.drop n ≠ [] := by
      intro hd
      have hk := List.drop_eq_nil_iff.1 hd
      omega
    have hsplit : t.codec.decode (used.take n ++ (used.drop n ++ rest)) = .ok v rest := by
      rwa [← List.append_assoc, List.take_append_drop]
    exact ht.steady.decode_of_cut hlost hsplit
  refine ⟨used, rfl, hall, fun n hn => ?_, fun b hp => ⟨fun more hb => ?_, fun n hn hb => ?_⟩⟩
  · obtain ⟨fault, left, hd, hf⟩ := hcut n hn
    exact ⟨fault, left, hd, fault.outOfInput_iff.1 hf⟩
  · exact MessageBuffer.fetch_eq_ok hp hb (hall more)
  · obtain ⟨fault, left, hd, -⟩ := hcut n hn
    refine ⟨.unreadable fault, b.leave left, ?_, Nat.sub_le .., rfl⟩
    simp only [EStateM.run, MessageBuffer.fetch, hb, hd]

/-- An answer with a padded handle and a flavor, cut anywhere. -/
theorem decode_truncated_untidyMounted :
    MountReply.codec.decode (untidyMounted ++ [9]) = .ok tidiedMounted [9] ∧
    MountReply.codec.decode (untidyMounted ++ [7, 8]) = .ok tidiedMounted [7, 8] ∧
    ∀ n < 24, ∃ fault left, MountReply.codec.decode (untidyMounted.take n) = .error fault left ∧
      (IoFailure.ofRead fault).kind = .unexpectedEof := by
  have hd : MountReply.codec.decode (untidyMounted ++ [9]) = .ok tidiedMounted [9] := rfl
  have ht : WireType.Readable (.of MountReply.codec MountReply.WellFormed) :=
    .spelled (show (TypeName.published "mountres3").type? = _ from rfl)
  obtain ⟨used, hu, hall, hcut, -⟩ :=
    @decode_truncated _ ht (untidyMounted ++ [9]) [9] tidiedMounted hd
  obtain rfl := List.append_cancel_right hu
  exact ⟨hd, hall [7, 8], hcut⟩

end Exchange
end Nfs3
