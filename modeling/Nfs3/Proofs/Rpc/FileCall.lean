import Nfs3.Procedures
import Nfs3.Proofs.Wire.Offset

/-!
The procedures on files: which file handles occur in the arguments of a call, and where the status
of its reply stands on the wire.
-/
namespace Nfs3
open Wire Reader Rpc

/-- The file handles that occur anywhere in a value. -/
class Handles (α : Type) where
  within : α → List FileHandle

namespace Handles

instance : Handles FileHandle := ⟨fun h => [h]⟩

instance : Handles FileName := ⟨fun _ => []⟩

instance : Handles UInt32 := ⟨fun _ => []⟩

instance : Handles UInt64 := ⟨fun _ => []⟩

instance : Handles Bytes := ⟨fun _ => []⟩

instance : Handles (Sized UInt8 8) := ⟨fun _ => []⟩

instance : Handles NfsTime := ⟨fun _ => []⟩

instance : Handles SetAttributes := ⟨fun _ => []⟩

instance : Handles DeviceNumber := ⟨fun _ => []⟩

instance : Handles FileKind := ⟨fun _ => []⟩

instance : Handles Stability := ⟨fun _ => []⟩

instance {α : Type} [Handles α] : Handles (Option α) := ⟨fun v => v.elim [] within⟩

instance : Handles DirectoryEntry := ⟨fun ⟨directory, name⟩ => within directory ++ within name⟩

instance : Handles ObjectArgs := ⟨fun ⟨object⟩ => within object⟩

instance : Handles SetAttrArgs :=
  ⟨fun ⟨object, attributes, guardTime⟩ => within object ++ within attributes ++ within guardTime⟩

instance : Handles LookupArgs := ⟨fun ⟨entry⟩ => within entry⟩

instance : Handles AccessArgs := ⟨fun ⟨object, access⟩ => within object ++ within access⟩

instance : Handles ReadLinkArgs := ⟨fun ⟨symlink⟩ => within symlink⟩

instance : Handles RangeArgs :=
  ⟨fun ⟨file, offset, count⟩ => within file ++ within offset ++ within count⟩

instance : Handles WriteArgs :=
  ⟨fun ⟨file, offset, count, stable, data⟩ =>
    within file ++ within offset ++ within count ++ within stable ++ within data⟩

instance : Handles CreateHow :=
  ⟨fun
    | .unchecked attributes | .guarded attributes => within attributes
    | .exclusive verifier => within verifier⟩

instance : Handles CreateArgs := ⟨fun ⟨entry, how⟩ => within entry ++ within how⟩

instance : Handles MkDirArgs := ⟨fun ⟨entry, attributes⟩ => within entry ++ within attributes⟩

instance : Handles SymlinkTarget := ⟨fun ⟨attributes, path⟩ => within attributes ++ within path⟩

instance : Handles SymlinkArgs := ⟨fun ⟨entry, target⟩ => within entry ++ within target⟩

instance : Handles DeviceData := ⟨fun ⟨attributes, device⟩ => within attributes ++ within device⟩

instance : Handles NodeData :=
  ⟨fun
    | .characterDevice device | .blockDevice device => within device
    | .socket attributes | .fifo attributes => within attributes
    | .other kind => within kind⟩

instance : Handles MkNodArgs := ⟨fun ⟨entry, node⟩ => within entry ++ within node⟩

instance : Handles RemoveArgs := ⟨fun ⟨entry⟩ => within entry⟩

instance : Handles RenameArgs := ⟨fun ⟨source, target⟩ => within source ++ within target⟩

instance : Handles LinkArgs := ⟨fun ⟨file, link⟩ => within file ++ within link⟩

instance : Handles ReadDirArgs :=
  ⟨fun ⟨directory, cookie, verifier, count⟩ =>
    within directory ++ within cookie ++ within verifier ++ within count⟩

instance : Handles ReadDirPlusArgs :=
  ⟨fun ⟨directory, cookie, verifier, directoryCount, maxCount⟩ =>
    within directory ++ within cookie ++ within verifier ++ within directoryCount ++
      within maxCount⟩

theorem within_setAttrArgs (a : SetAttrArgs) : within a = [a.object] := by
  obtain ⟨_, _, guardTime⟩ := a
  cases guardTime <;> rfl

theorem within_createArgs (a : CreateArgs) : within a = [a.entry.directory] := by
  obtain ⟨_, how⟩ := a
  cases how <;> rfl

theorem within_mkNodArgs (a : MkNodArgs) : within a = [a.entry.directory] := by
  obtain ⟨_, node⟩ := a
  cases node <;> rfl

end Handles

theorem Wire.Enumeration.code_of_ofCode? {α : Type} [Enumeration α] {w : UInt32} {v : α}
    (h : ofCode? w = some v) : code v = w := by
  simpa using List.find?_some h

/-- The body behind the status of a reply is the one that goes with it. -/
def NfsReply.HasBody {Ok Fail : Type} (okBody : Codec Ok) (failBody : Codec Fail)
    (body : Bytes) : NfsReply Ok Fail → Prop
  | .ok v => ∃ rest, okBody.decode body = .ok v rest
  | .fail s v => s ≠ .ok ∧ ∃ rest, failBody.decode body = .ok v rest

/-- A reply begins with the word of its status. -/
theorem NfsReply.decode_eq_ok {Ok Fail : Type} {okBody : Codec Ok} {failBody : Codec Fail}
    {bs rest : Bytes} {p : Nat} {reply : NfsReply Ok Fail}
    (h : (NfsReply.codec okBody failBody).decode (bs.drop p) = .ok reply rest) :
    wordAt bs p = some (Enumeration.code reply.status) ∧
      reply.HasBody okBody failBody (bs.drop (p + 4)) := by
  change (NfsReply.codec okBody failBody).read _ = _ at h
  simp only [NfsReply.codec, NfsStatus.codec, bind_eq_ok, read_enumeration_eq_ok] at h
  obtain ⟨s, _, ⟨w, hw, ho, rfl⟩, h⟩ := h
  obtain rfl := Enumeration.code_of_ofCode? ho
  by_cases hs : s = .ok
  · subst hs
    obtain ⟨v, hv, rfl⟩ := map_eq_ok.1 h
    exact ⟨hw, rest, hv⟩
  · have h : (NfsReply.fail s <$> failBody.read) (bs.drop (p + 4)) = .ok reply rest := by
      cases s <;> first | exact h | exact (hs rfl).elim
    obtain ⟨v, hv, rfl⟩ := map_eq_ok.1 h
    exact ⟨hw, hs, rest, hv⟩

namespace Rpc

structure FileCall where
  {Args : Type}
  {Ok : Type}
  {Fail : Type}
  procedure : FileProcedure Args Ok Fail
  okBody : Codec Ok
  failBody : Codec Fail
  [handles : Handles Args]

namespace FileCall

instance (c : FileCall) : Handles c.Args := c.handles

def all : List FileCall :=
  [⟨Procedures.getAttr, GetAttrOk.codec, .void⟩,
    ⟨Procedures.setAttr, SetAttrOk.codec, CacheData.codec⟩,
    ⟨Procedures.lookup, LookupOk.codec, FileAttributes.codec.optional⟩,
    ⟨Procedures.access, AccessOk.codec, FileAttributes.codec.optional⟩,
    ⟨Procedures.readLink, ReadLinkOk.codec, FileAttributes.codec.optional⟩,
    ⟨Procedures.read, ReadOk.codec, FileAttributes.codec.optional⟩,
    ⟨Procedures.write, WriteOk.codec, CacheData.codec⟩,
    ⟨Procedures.create, MadeOk.codec, CacheData.codec⟩,
    ⟨Procedures.mkDir, MadeOk.codec, CacheData.codec⟩,
    ⟨Procedures.symlink, MadeOk.codec, CacheData.codec⟩,
    ⟨Procedures.mkNod, MadeOk.codec, CacheData.codec⟩,
    ⟨Procedures.remove, RemoveOk.codec, CacheData.codec⟩,
    ⟨Procedures.rmDir, RemoveOk.codec, CacheData.codec⟩,
    ⟨Procedures.rename, RenameOk.codec, RenameOk.codec⟩,
    ⟨Procedures.link, LinkOk.codec, LinkOk.codec⟩,
    ⟨Procedures.readDir, ReadDirOk.codec ListedName.codec, FileAttributes.codec.optional⟩,
    ⟨Procedures.readDirPlus, ReadDirOk.codec ListedObject.codec, FileAttributes.codec.optional⟩,
    ⟨Procedures.fsStat, FsStatOk.codec, FileAttributes.codec.optional⟩,
    ⟨Procedures.fsInfo, FsInfoOk.codec, FileAttributes.codec.optional⟩,
    ⟨Procedures.pathConf, PathConfOk.codec, FileAttributes.codec.optional⟩,
    ⟨Procedures.commit, CommitOk.codec, CacheData.codec⟩]

example : all.map (·.procedure.number) =
    (Enumeration.members : List NfsNumber).tail.map Enumeration.code := rfl

/-- The procedure names every handle in its arguments, and reads its replies as the two bodies. -/
structure Faithful (c : FileCall) : Prop where
  handles (args : c.Args) : c.procedure.handles args = Handles.within args
  reply : c.procedure.reply = NfsReply.codec c.okBody c.failBody

theorem all_faithful : ∀ c ∈ all, c.Faithful := by
  simp only [all, List.forall_mem_cons]
  exact ⟨⟨fun _ => rfl, rfl⟩, ⟨fun a => (Handles.within_setAttrArgs a).symm, rfl⟩,
    ⟨fun _ => rfl, rfl⟩, ⟨fun _ => rfl, rfl⟩, ⟨fun _ => rfl, rfl⟩, ⟨fun _ => rfl, rfl⟩,
    ⟨fun _ => rfl, rfl⟩, ⟨fun a => (Handles.within_createArgs a).symm, rfl⟩,
    ⟨fun _ => rfl, rfl⟩, ⟨fun _ => rfl, rfl⟩, ⟨fun a => (Handles.within_mkNodArgs a).symm, rfl⟩,
    ⟨fun _ => rfl, rfl⟩, ⟨fun _ => rfl, rfl⟩, ⟨fun _ => rfl, rfl⟩, ⟨fun _ => rfl, rfl⟩,
    ⟨fun _ => rfl, rfl⟩, ⟨fun _ => rfl, rfl⟩, ⟨fun _ => rfl, rfl⟩, ⟨fun _ => rfl, rfl⟩,
    ⟨fun _ => rfl, rfl⟩, ⟨fun _ => rfl, rfl⟩, List.forall_mem_nil _⟩

end FileCall
end Rpc
end Nfs3
