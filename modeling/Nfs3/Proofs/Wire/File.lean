import Nfs3.File.Listing
import Nfs3.File.Data
import Nfs3.File.Naming
import Nfs3.File.Volume
import Nfs3.Proofs.Wire.Lawful

/-! The types of the file protocol are lawful, field by field and arm by arm. -/
namespace Nfs3
open Wire Codec Reader

theorem NfsStatus.lawful : NfsStatus.codec.Lawful Always :=
  .enumeration fun m => by cases m <;> rfl

theorem FileKind.lawful : FileKind.codec.Lawful Always :=
  .enumeration fun m => by cases m <;> rfl

theorem CreateMode.lawful : CreateMode.codec.Lawful Always :=
  .enumeration fun m => by cases m <;> rfl

theorem Stability.lawful : Stability.codec.Lawful Always :=
  .enumeration fun m => by cases m <;> rfl

def NfsReply.arm {Ok Fail : Type} (c : Codec Ok) (d : Codec Fail) : NfsReply Ok Fail → Output
  | .ok v => c.write v
  | .fail _ v => d.write v

theorem NfsReply.lawful {Ok Fail : Type} {c : Codec Ok} {d : Codec Fail} {ok : Ok → Prop}
    {ok' : Fail → Prop} (hc : c.Lawful ok) (hd : d.Lawful ok') :
    (NfsReply.codec c d).Lawful (NfsReply.WellFormed ok ok') := by
  refine NfsStatus.lawful.union status (arm c d) ?_ rfl (fun _ => trivial) ?_ ?_
  · intro v
    cases v <;> rfl
  · intro v hv
    cases v with
    | ok v => exact ⟨hc.complete hv, hc.aligned hv⟩
    | fail s v => exact ⟨hd.complete hv.2, hd.aligned hv.2⟩
  · intro s v bs rest
    split
    · cases v <;> grind [map_eq_ok, hc.read_iff, WellFormed, status, arm]
    · cases v <;> grind [map_eq_ok, hd.read_iff, WellFormed, status, arm]

theorem FileName.lawful : FileName.codec.Lawful FileName.WellFormed :=
  Lawful.bytes.iso (fun _ => rfl) (fun _ => rfl) fun _ => Iff.rfl

theorem FileHandle.lawful : FileHandle.codec.Lawful FileHandle.WellFormed :=
  Lawful.bytes.iso (fun _ => rfl) (fun _ => rfl) fun _ => Iff.rfl

theorem DeviceNumber.lawful : DeviceNumber.codec.Lawful Always :=
  (Lawful.pair .word .word).iso (fun _ => rfl) (fun _ => rfl) fun _ => by simp [Always]

theorem NfsTime.lawful : NfsTime.codec.Lawful Always :=
  (Lawful.pair .word .word).iso (fun _ => rfl) (fun _ => rfl) fun _ => by simp [Always]

theorem FileAttributes.lawful : FileAttributes.codec.Lawful Always :=
  (FileKind.lawful.pair <| .pair .word <| .pair .word <| .pair .word <| .pair .word <|
    .pair .hyper <| .pair .hyper <| DeviceNumber.lawful.pair <| .pair .hyper <| .pair .hyper <|
    NfsTime.lawful.pair <| NfsTime.lawful.pair NfsTime.lawful).iso
    (fun _ => rfl) (fun _ => rfl) fun _ => by simp [Always]

def SetTime.tag : SetTime → UInt32
  | .keep => 0
  | .serverTime => 1
  | .clientTime _ => 2

def SetTime.arm : SetTime → Output
  | .clientTime t => NfsTime.codec.write t
  | _ => .empty

theorem SetTime.lawful (union : UnionName) : (SetTime.codec union).Lawful Always := by
  refine Lawful.word.union tag arm ?_ rfl (fun _ => trivial) ?_ ?_
  · intro v
    cases v <;> rfl
  · intro v _
    cases v with
    | clientTime t => exact ⟨NfsTime.lawful.complete trivial, NfsTime.lawful.aligned trivial⟩
    | _ => exact ⟨rfl, rfl⟩
  · intro w v bs rest
    split
    · cases v <;> simp [tag, arm, pure_eq_ok, Output.empty, Image.heads_nil, Always]
    · cases v <;> simp [tag, arm, pure_eq_ok, Output.empty, Image.heads_nil, Always]
    · cases v <;> simp [tag, arm, map_eq_ok, NfsTime.lawful.read_iff, Always]
    · cases v <;> simp_all [tag, throw_ne_ok]

theorem ChangeMarks.lawful : ChangeMarks.codec.Lawful Always :=
  (Lawful.hyper.pair <| NfsTime.lawful.pair NfsTime.lawful).iso (fun _ => rfl) (fun _ => rfl)
    fun _ => by simp [Always]

theorem CacheData.lawful : CacheData.codec.Lawful Always :=
  (ChangeMarks.lawful.optional.pair FileAttributes.lawful.optional).iso (fun _ => rfl)
    (fun _ => rfl) fun _ => by simp [Always]

theorem SetAttributes.lawful : SetAttributes.codec.Lawful Always :=
  (Lawful.word.optional.pair <| Lawful.word.optional.pair <| Lawful.word.optional.pair <|
    Lawful.hyper.optional.pair <|
    (SetTime.lawful .accessTime).pair (SetTime.lawful .modifyTime)).iso
    (fun _ => rfl) (fun _ => rfl) fun _ => by simp [Always]

theorem DirectoryEntry.lawful : DirectoryEntry.codec.Lawful DirectoryEntry.WellFormed :=
  (FileHandle.lawful.pair FileName.lawful).iso (fun _ => rfl) (fun _ => rfl) fun _ => Iff.rfl

theorem ObjectArgs.lawful : ObjectArgs.codec.Lawful ObjectArgs.WellFormed :=
  FileHandle.lawful.iso (fun _ => rfl) (fun _ => rfl) fun _ => Iff.rfl

theorem GetAttrOk.lawful : GetAttrOk.codec.Lawful Always :=
  FileAttributes.lawful.iso (fun _ => rfl) (fun _ => rfl) fun _ => Iff.rfl

theorem SetAttrArgs.lawful : SetAttrArgs.codec.Lawful SetAttrArgs.WellFormed :=
  (FileHandle.lawful.pair <| SetAttributes.lawful.pair NfsTime.lawful.optional).iso (fun _ => rfl)
    (fun _ => rfl) fun _ => by simp [Always, SetAttrArgs.WellFormed]

theorem SetAttrOk.lawful : SetAttrOk.codec.Lawful Always :=
  CacheData.lawful.iso (fun _ => rfl) (fun _ => rfl) fun _ => Iff.rfl

theorem AccessArgs.lawful : AccessArgs.codec.Lawful AccessArgs.WellFormed :=
  (FileHandle.lawful.pair .word).iso (fun _ => rfl) (fun _ => rfl)
    fun _ => by simp [Always, AccessArgs.WellFormed]

theorem AccessOk.lawful : AccessOk.codec.Lawful Always :=
  (FileAttributes.lawful.optional.pair .word).iso (fun _ => rfl) (fun _ => rfl)
    fun _ => by simp [Always]

theorem ReadLinkArgs.lawful : ReadLinkArgs.codec.Lawful ReadLinkArgs.WellFormed :=
  FileHandle.lawful.iso (fun _ => rfl) (fun _ => rfl) fun _ => Iff.rfl

theorem ReadLinkOk.lawful : ReadLinkOk.codec.Lawful ReadLinkOk.WellFormed :=
  (FileAttributes.lawful.optional.pair FileName.lawful).iso (fun _ => rfl) (fun _ => rfl)
    fun _ => by simp [Always, ReadLinkOk.WellFormed]

theorem RangeArgs.lawful : RangeArgs.codec.Lawful RangeArgs.WellFormed :=
  (FileHandle.lawful.pair <| .pair .hyper .word).iso (fun _ => rfl) (fun _ => rfl)
    fun _ => by simp [Always, RangeArgs.WellFormed]

theorem ReadOk.lawful : ReadOk.codec.Lawful ReadOk.WellFormed :=
  (FileAttributes.lawful.optional.pair <| .pair .word <| .pair .bool .bytes).iso (fun _ => rfl)
    (fun _ => rfl) fun _ => by simp [Always, ReadOk.WellFormed]

theorem CommitOk.lawful : CommitOk.codec.Lawful Always :=
  (CacheData.lawful.pair (.fixedBytes 8)).iso (fun _ => rfl) (fun _ => rfl)
    fun _ => by simp [Always]

theorem WriteOk.lawful : WriteOk.codec.Lawful Always :=
  (CacheData.lawful.pair <| .pair .word <| Stability.lawful.pair (.fixedBytes 8)).iso
    (fun _ => rfl) (fun _ => rfl) fun _ => by simp [Always]

theorem ListedName.lawful : ListedName.codec.Lawful ListedName.WellFormed :=
  (Lawful.hyper.pair <| FileName.lawful.pair .hyper).iso (fun _ => rfl) (fun _ => rfl)
    fun _ => by simp [Always, ListedName.WellFormed]

theorem ReadDirArgs.lawful : ReadDirArgs.codec.Lawful ReadDirArgs.WellFormed :=
  (FileHandle.lawful.pair <| .pair .hyper <| .pair (.fixedBytes 8) .word).iso (fun _ => rfl)
    (fun _ => rfl) fun _ => by simp [Always, ReadDirArgs.WellFormed]

theorem Listing.lawful {Entry : Type} {entry : Codec Entry} {ok : Entry → Prop}
    (h : entry.Lawful ok) : (Listing.codec entry).Lawful (Listing.WellFormed ok) :=
  (h.chain.pair .bool).iso (fun _ => rfl) (fun _ => rfl)
    fun _ => by simp [Always, Listing.WellFormed]

theorem ReadDirOk.lawful {Entry : Type} {entry : Codec Entry} {ok : Entry → Prop}
    (h : entry.Lawful ok) : (ReadDirOk.codec entry).Lawful (ReadDirOk.WellFormed ok) :=
  (FileAttributes.lawful.optional.pair <| .pair (.fixedBytes 8) (Listing.lawful h)).iso
    (fun _ => rfl) (fun _ => rfl) fun _ => by simp [Always, ReadDirOk.WellFormed]

theorem ListedObject.lawful : ListedObject.codec.Lawful ListedObject.WellFormed :=
  (Lawful.hyper.pair <| FileName.lawful.pair <| .pair .hyper <|
    FileAttributes.lawful.optional.pair FileHandle.lawful.optional).iso (fun _ => rfl)
    (fun _ => rfl) fun _ => by simp [Always, ListedObject.WellFormed]

theorem ReadDirPlusArgs.lawful : ReadDirPlusArgs.codec.Lawful ReadDirPlusArgs.WellFormed :=
  (FileHandle.lawful.pair <| .pair .hyper <| .pair (.fixedBytes 8) <| .pair .word .word).iso
    (fun _ => rfl) (fun _ => rfl) fun _ => by simp [Always, ReadDirPlusArgs.WellFormed]

theorem LookupArgs.lawful : LookupArgs.codec.Lawful LookupArgs.WellFormed :=
  DirectoryEntry.lawful.iso (fun _ => rfl) (fun _ => rfl) fun _ => Iff.rfl

theorem LookupOk.lawful : LookupOk.codec.Lawful LookupOk.WellFormed :=
  (FileHandle.lawful.pair <| FileAttributes.lawful.optional.pair FileAttributes.lawful.optional).iso
    (fun _ => rfl) (fun _ => rfl) fun _ => by simp [Always, LookupOk.WellFormed]

def CreateHow.mode : CreateHow → CreateMode
  | .unchecked _ => .unchecked
  | .guarded _ => .guarded
  | .exclusive _ => .exclusive

def CreateHow.arm : CreateHow → Output
  | .unchecked a | .guarded a => SetAttributes.codec.write a
  | .exclusive v => (Codec.fixedBytes 8).write v

theorem CreateHow.lawful : CreateHow.codec.Lawful Always := by
  refine CreateMode.lawful.union mode arm ?_ rfl (fun _ => trivial) ?_ ?_
  · intro v
    cases v <;> rfl
  · intro v _
    cases v with
    | exclusive v =>
      exact ⟨(Lawful.fixedBytes 8).complete trivial, (Lawful.fixedBytes 8).aligned trivial⟩
    | _ a => exact ⟨SetAttributes.lawful.complete trivial, SetAttributes.lawful.aligned trivial⟩
  · intro m v bs rest
    cases m <;> cases v <;>
      simp [mode, arm, map_eq_ok, SetAttributes.lawful.read_iff,
        (Lawful.fixedBytes 8).read_iff, Always]

theorem CreateArgs.lawful : CreateArgs.codec.Lawful CreateArgs.WellFormed :=
  (DirectoryEntry.lawful.pair CreateHow.lawful).iso (fun _ => rfl) (fun _ => rfl)
    fun _ => by simp [Always, CreateArgs.WellFormed]

theorem MadeOk.lawful : MadeOk.codec.Lawful MadeOk.WellFormed :=
  (FileHandle.lawful.optional.pair <| FileAttributes.lawful.optional.pair CacheData.lawful).iso
    (fun _ => rfl) (fun _ => rfl) fun _ => by simp [Always, MadeOk.WellFormed]

theorem MkDirArgs.lawful : MkDirArgs.codec.Lawful MkDirArgs.WellFormed :=
  (DirectoryEntry.lawful.pair SetAttributes.lawful).iso (fun _ => rfl) (fun _ => rfl)
    fun _ => by simp [Always, MkDirArgs.WellFormed]

theorem SymlinkTarget.lawful : SymlinkTarget.codec.Lawful SymlinkTarget.WellFormed :=
  (SetAttributes.lawful.pair FileName.lawful).iso (fun _ => rfl) (fun _ => rfl)
    fun _ => by simp [Always, SymlinkTarget.WellFormed]

theorem SymlinkArgs.lawful : SymlinkArgs.codec.Lawful SymlinkArgs.WellFormed :=
  (DirectoryEntry.lawful.pair SymlinkTarget.lawful).iso (fun _ => rfl) (fun _ => rfl)
    fun _ => Iff.rfl

theorem DeviceData.lawful : DeviceData.codec.Lawful Always :=
  (SetAttributes.lawful.pair DeviceNumber.lawful).iso (fun _ => rfl) (fun _ => rfl)
    fun _ => by simp [Always]

def NodeData.kind : NodeData → FileKind
  | .characterDevice _ => .characterDevice
  | .blockDevice _ => .blockDevice
  | .socket _ => .socket
  | .fifo _ => .fifo
  | .other k => k

def NodeData.arm : NodeData → Output
  | .characterDevice d | .blockDevice d => DeviceData.codec.write d
  | .socket a | .fifo a => SetAttributes.codec.write a
  | .other _ => .empty

theorem NodeData.lawful : NodeData.codec.Lawful NodeData.WellFormed := by
  refine FileKind.lawful.union kind arm ?_ rfl (fun _ => trivial) ?_ ?_
  · intro v
    cases v with
    | other k => exact (Output.append_empty _).symm
    | _ => rfl
  · intro v _
    cases v with
    | characterDevice d | blockDevice d =>
      exact ⟨DeviceData.lawful.complete trivial, DeviceData.lawful.aligned trivial⟩
    | socket a | fifo a =>
      exact ⟨SetAttributes.lawful.complete trivial, SetAttributes.lawful.aligned trivial⟩
    | other k => exact ⟨rfl, rfl⟩
  · intro k v bs rest
    split
    · cases v <;> grind [kind, arm, map_eq_ok, DeviceData.lawful.read_iff, Always, WellFormed]
    · cases v <;> grind [kind, arm, map_eq_ok, DeviceData.lawful.read_iff, Always, WellFormed]
    · cases v <;> grind [kind, arm, map_eq_ok, SetAttributes.lawful.read_iff, Always, WellFormed]
    · cases v <;> grind [kind, arm, map_eq_ok, SetAttributes.lawful.read_iff, Always, WellFormed]
    · cases v <;> grind [kind, arm, pure_eq_ok, WellFormed, Output.empty, Image.heads_nil]

theorem MkNodArgs.lawful : MkNodArgs.codec.Lawful MkNodArgs.WellFormed :=
  (DirectoryEntry.lawful.pair NodeData.lawful).iso (fun _ => rfl) (fun _ => rfl) fun _ => Iff.rfl

theorem RemoveArgs.lawful : RemoveArgs.codec.Lawful RemoveArgs.WellFormed :=
  DirectoryEntry.lawful.iso (fun _ => rfl) (fun _ => rfl) fun _ => Iff.rfl

theorem RemoveOk.lawful : RemoveOk.codec.Lawful Always :=
  CacheData.lawful.iso (fun _ => rfl) (fun _ => rfl) fun _ => Iff.rfl

theorem RenameArgs.lawful : RenameArgs.codec.Lawful RenameArgs.WellFormed :=
  (DirectoryEntry.lawful.pair DirectoryEntry.lawful).iso (fun _ => rfl) (fun _ => rfl)
    fun _ => Iff.rfl

theorem RenameOk.lawful : RenameOk.codec.Lawful Always :=
  (CacheData.lawful.pair CacheData.lawful).iso (fun _ => rfl) (fun _ => rfl)
    fun _ => by simp [Always]

theorem LinkArgs.lawful : LinkArgs.codec.Lawful LinkArgs.WellFormed :=
  (FileHandle.lawful.pair DirectoryEntry.lawful).iso (fun _ => rfl) (fun _ => rfl) fun _ => Iff.rfl

theorem LinkOk.lawful : LinkOk.codec.Lawful Always :=
  (FileAttributes.lawful.optional.pair CacheData.lawful).iso (fun _ => rfl) (fun _ => rfl)
    fun _ => by simp [Always]

theorem FsInfoOk.lawful : FsInfoOk.codec.Lawful Always :=
  (FileAttributes.lawful.optional.pair <| .pair .word <| .pair .word <| .pair .word <|
    .pair .word <| .pair .word <| .pair .word <| .pair .word <| .pair .hyper <|
    NfsTime.lawful.pair .word).iso (fun _ => rfl) (fun _ => rfl) fun _ => by simp [Always]

theorem FsStatOk.lawful : FsStatOk.codec.Lawful Always :=
  (FileAttributes.lawful.optional.pair <| .pair .hyper <| .pair .hyper <| .pair .hyper <|
    .pair .hyper <| .pair .hyper <| .pair .hyper .word).iso (fun _ => rfl) (fun _ => rfl)
    fun _ => by simp [Always]

theorem PathConfOk.lawful : PathConfOk.codec.Lawful Always :=
  (FileAttributes.lawful.optional.pair <| .pair .word <| .pair .word <| .pair .bool <|
    .pair .bool <| .pair .bool .bool).iso (fun _ => rfl) (fun _ => rfl) fun _ => by simp [Always]

end Nfs3
