import Nfs3.Procedures
import Nfs3.Proofs.Wire.File
import Nfs3.Proofs.Wire.Message
import Nfs3.Proofs.Wire.Writer

/-!
The procedures a client calls, each with the plain form of its arguments: one field after another
and all data in its place. Behind a message of whole words every procedure puts exactly that, also
the one whose data follows uncopied.
-/
namespace Nfs3
open Wire Codec

/-- The arguments of a write as the protocol describes them, the data as one field. -/
def WriteArgs.codec : Codec WriteArgs :=
  (FileHandle.codec.pair <| Codec.hyper.pair <| Codec.word.pair <| Stability.codec.pair .bytes).iso
    (fun (a, b, c, d, e) => ⟨a, b, c, d, e⟩)
    (fun v => (v.file, v.offset, v.count, v.stable, v.data))

def WriteArgs.WellFormed (v : WriteArgs) : Prop :=
  v.file.WellFormed ∧ v.data.length ≤ maxLength

theorem WriteArgs.lawful : WriteArgs.codec.Lawful WriteArgs.WellFormed :=
  (FileHandle.lawful.pair <| Lawful.hyper.pair <| Lawful.word.pair <|
    Stability.lawful.pair .bytes).iso (fun _ => rfl) (fun _ => rfl)
    fun _ => by simp [Always, WriteArgs.WellFormed]

theorem FileName.writable : FileName.codec.Writable FileName.WellFormed :=
  Writable.bytes.iso fun _ h => h

theorem FileHandle.writable : FileHandle.codec.Writable FileHandle.WellFormed :=
  Writable.bytes.iso fun _ h => h

theorem DirectoryEntry.writable : DirectoryEntry.codec.Writable DirectoryEntry.WellFormed :=
  (FileHandle.writable.pair FileName.writable).iso fun _ h => h

theorem ObjectArgs.writable : ObjectArgs.codec.Writable ObjectArgs.WellFormed :=
  FileHandle.writable.iso fun _ h => h

theorem SetAttrArgs.writable : SetAttrArgs.codec.Writable SetAttrArgs.WellFormed :=
  (FileHandle.writable.pair <| SetAttributes.lawful.writable.pair
    (NfsTime.lawful.optional.congr fun _ => by simp [Always]).writable).iso fun _ h => h.1

theorem LookupArgs.writable : LookupArgs.codec.Writable LookupArgs.WellFormed :=
  DirectoryEntry.writable.iso fun _ h => h

theorem AccessArgs.writable : AccessArgs.codec.Writable AccessArgs.WellFormed :=
  (FileHandle.writable.pair Lawful.word.writable).iso fun _ h => h.1

theorem ReadLinkArgs.writable : ReadLinkArgs.codec.Writable ReadLinkArgs.WellFormed :=
  FileHandle.writable.iso fun _ h => h

theorem RangeArgs.writable : RangeArgs.codec.Writable RangeArgs.WellFormed :=
  (FileHandle.writable.pair <| Lawful.hyper.writable.pair Lawful.word.writable).iso fun _ h => h.1

theorem CreateArgs.writable : CreateArgs.codec.Writable CreateArgs.WellFormed :=
  (DirectoryEntry.writable.pair CreateHow.lawful.writable).iso fun _ h => h.1

theorem MkDirArgs.writable : MkDirArgs.codec.Writable MkDirArgs.WellFormed :=
  (DirectoryEntry.writable.pair SetAttributes.lawful.writable).iso fun _ h => h.1

theorem SymlinkTarget.writable : SymlinkTarget.codec.Writable SymlinkTarget.WellFormed :=
  (SetAttributes.lawful.writable.pair FileName.writable).iso fun _ h => h.2

theorem SymlinkArgs.writable : SymlinkArgs.codec.Writable SymlinkArgs.WellFormed :=
  (DirectoryEntry.writable.pair SymlinkTarget.writable).iso fun _ h => h

/-- A kind that stands for another arm is written like any other. -/
theorem NodeData.writable : NodeData.codec.Writable Always where
  fits _ := trivial
  aligned {v} _ := by
    cases v with
    | other k => exact FileKind.lawful.aligned (v := k) trivial
    | _ => exact NodeData.lawful.aligned trivial

theorem MkNodArgs.writable : MkNodArgs.codec.Writable fun v => v.entry.WellFormed :=
  (DirectoryEntry.writable.pair NodeData.writable).iso fun _ h => h.1

theorem RemoveArgs.writable : RemoveArgs.codec.Writable RemoveArgs.WellFormed :=
  DirectoryEntry.writable.iso fun _ h => h

theorem RenameArgs.writable : RenameArgs.codec.Writable RenameArgs.WellFormed :=
  (DirectoryEntry.writable.pair DirectoryEntry.writable).iso fun _ h => h

theorem LinkArgs.writable : LinkArgs.codec.Writable LinkArgs.WellFormed :=
  (FileHandle.writable.pair DirectoryEntry.writable).iso fun _ h => h

theorem ReadDirArgs.writable : ReadDirArgs.codec.Writable ReadDirArgs.WellFormed :=
  (FileHandle.writable.pair <| Lawful.hyper.writable.pair <|
    (Lawful.fixedBytes 8).writable.pair Lawful.word.writable).iso fun _ h => h.1

theorem ReadDirPlusArgs.writable : ReadDirPlusArgs.codec.Writable ReadDirPlusArgs.WellFormed :=
  (FileHandle.writable.pair <| Lawful.hyper.writable.pair <| (Lawful.fixedBytes 8).writable.pair <|
    Lawful.word.writable.pair Lawful.word.writable).iso fun _ h => h.1

namespace Rpc
open MessageBuffer

structure PlainForm where
  {Args : Type}
  {Reply : Type}
  procedure : Procedure Args Reply
  arguments : Codec Args
  /-- Whether arguments can be told from their written form. -/
  readable : Args → Prop := Always

namespace PlainForm

/-- Every procedure a client calls. A kind of file that MKNOD makes cannot be told from the arm
that is its own. -/
def all : List PlainForm :=
  [⟨Procedures.null, .void, Always⟩,
    ⟨Procedures.getAttr.toProcedure, ObjectArgs.codec, Always⟩,
    ⟨Procedures.setAttr.toProcedure, SetAttrArgs.codec, Always⟩,
    ⟨Procedures.lookup.toProcedure, LookupArgs.codec, Always⟩,
    ⟨Procedures.access.toProcedure, AccessArgs.codec, Always⟩,
    ⟨Procedures.readLink.toProcedure, ReadLinkArgs.codec, Always⟩,
    ⟨Procedures.read.toProcedure, RangeArgs.codec, Always⟩,
    ⟨Procedures.write.toProcedure, WriteArgs.codec, Always⟩,
    ⟨Procedures.create.toProcedure, CreateArgs.codec, Always⟩,
    ⟨Procedures.mkDir.toProcedure, MkDirArgs.codec, Always⟩,
    ⟨Procedures.symlink.toProcedure, SymlinkArgs.codec, Always⟩,
    ⟨Procedures.mkNod.toProcedure, MkNodArgs.codec, fun a => a.node.WellFormed⟩,
    ⟨Procedures.remove.toProcedure, RemoveArgs.codec, Always⟩,
    ⟨Procedures.rmDir.toProcedure, RemoveArgs.codec, Always⟩,
    ⟨Procedures.rename.toProcedure, RenameArgs.codec, Always⟩,
    ⟨Procedures.link.toProcedure, LinkArgs.codec, Always⟩,
    ⟨Procedures.readDir.toProcedure, ReadDirArgs.codec, Always⟩,
    ⟨Procedures.readDirPlus.toProcedure, ReadDirPlusArgs.codec, Always⟩,
    ⟨Procedures.fsStat.toProcedure, ObjectArgs.codec, Always⟩,
    ⟨Procedures.fsInfo.toProcedure, ObjectArgs.codec, Always⟩,
    ⟨Procedures.pathConf.toProcedure, ObjectArgs.codec, Always⟩,
    ⟨Procedures.commit.toProcedure, RangeArgs.codec, Always⟩,
    ⟨Procedures.mountNull, .void, Always⟩,
    ⟨Procedures.mount, .text, Always⟩,
    ⟨Procedures.unmount, .text, Always⟩,
    ⟨Procedures.portmapNull, .void, Always⟩,
    ⟨Procedures.getPort, PortMapping.codec, Always⟩]

example : all.map (fun f => (f.procedure.service, f.procedure.number)) =
    (Enumeration.members : List NfsNumber).map (nfsService, ·.code) ++
      [MountNumber.null, .mount, .unmount].map (mountService, ·.code) ++
      [PortmapNumber.null, .getPort].map (portmapService, ·.code) := rfl

/-- Behind a message of whole words the procedure puts the plain form of its arguments, also of
whole words, if it puts anything at all. -/
structure Faithful (f : PlainForm) : Prop where
  segments {args : f.Args} {b₀ : MessageBuffer} {bs : Bytes} :
    (f.procedure.marshal args).run .empty = .ok () b₀ → bs.length % 4 = 0 →
    ∃ b, (f.procedure.marshal args).run (written bs) = .ok () b ∧
      b.finalized.segments.flatten = bs ++ f.arguments.encode args
  aligned {args : f.Args} {b₀ : MessageBuffer} :
    (f.procedure.marshal args).run .empty = .ok () b₀ → (f.arguments.encode args).length % 4 = 0
  decode_iff {args : f.Args} {b₀ : MessageBuffer} :
    (f.procedure.marshal args).run .empty = .ok () b₀ →
    (f.arguments.decode (f.arguments.encode args) = .ok args [] ↔ f.readable args)

namespace Faithful
variable {f : PlainForm}

theorem of_put {ok fits : f.Args → Prop} (hp : ∀ a, f.procedure.marshal a = put f.arguments a)
    (hl : f.arguments.Lawful ok) (hw : f.arguments.Writable fits)
    (hr : ∀ a, fits a → (ok a ↔ f.readable a)) : f.Faithful := by
  have hf {a : f.Args} {b₀ : MessageBuffer} (h : (f.procedure.marshal a).run .empty = .ok () b₀) :
      (f.arguments.write a).fault = none := by
    rw [hp] at h
    exact @fault_of_put _ _ _ [] _ h
  have ha {a : f.Args} {b₀ : MessageBuffer} (h : (f.procedure.marshal a).run .empty = .ok () b₀) :
      (f.arguments.encode a).length % 4 = 0 := by
    rw [Codec.encode, Output.bytes, Image.length_bytes]
    exact hw.aligned (hf h)
  refine ⟨fun {a} {_} {bs} h hb => ?_, ha, fun h => ?_⟩
  · rw [hp]
    refine ⟨_, run_put bs (hf h), flatten_finalized_written ?_⟩
    rw [List.length_append, Nat.add_mod, hb, ha h]
  · rw [hl.decode_encode]
    exact hr _ (hw.fits (hf h))

theorem of_bounded {Args Reply : Type} {p : Procedure Args Reply} {c : Codec Args}
    {ok : Args → Prop} (hp : ∀ a, p.marshal a = put c a) (hl : c.Lawful ok) (hw : c.Writable ok) :
    (⟨p, c, Always⟩ : PlainForm).Faithful :=
  of_put hp hl hw fun _ ha => iff_of_true ha trivial

/-- The fields of a write before its data, the last of them the length of the data. -/
def writeHead : Codec (FileHandle × UInt64 × UInt32 × Stability × UInt32) :=
  FileHandle.codec.pair <| Codec.hyper.pair <| Codec.word.pair <| Stability.codec.pair .word

def headOfWrite (a : WriteArgs) : Bytes :=
  writeHead.encode (a.file, a.offset, a.count, a.stable, UInt32.ofNat a.data.length)

theorem length_headOfWrite {a : WriteArgs} (h : a.file.WellFormed) :
    (headOfWrite a).length % 4 = 0 := by
  have hl : writeHead.Lawful fun v => v.1.WellFormed ∧ Always v.2.1 ∧ Always v.2.2.1 ∧
      Always v.2.2.2.1 ∧ Always v.2.2.2.2 :=
    FileHandle.lawful.pair <| Lawful.hyper.pair <| Lawful.word.pair <| Stability.lawful.pair .word
  unfold headOfWrite
  rw [Codec.encode, Output.bytes, Image.length_bytes]
  exact hl.aligned ⟨h, trivial, trivial, trivial, trivial⟩

theorem encode_write {a : WriteArgs} (h : a.WellFormed) : WriteArgs.codec.encode a =
    headOfWrite a ++ a.data ++ List.replicate (padLength a.data.length) 0 := by
  have hf := FileHandle.lawful.complete h.1
  have ho := Lawful.hyper.complete (v := a.offset) trivial
  have hc := Lawful.word.complete (v := a.count) trivial
  have hs := Stability.lawful.complete (v := a.stable) trivial
  change (FileHandle.codec.pair _).encode (a.file, a.offset, a.count, a.stable, a.data) = _
  unfold headOfWrite writeHead
  rw [encode_pair hf, encode_pair ho, encode_pair hc, encode_pair hs, encode_pair hf,
    encode_pair ho, encode_pair hc, encode_pair hs, encode_bytes h.2]
  simp only [List.append_assoc]

theorem run_marshalWrite {a : WriteArgs} (h : a.WellFormed)
    (hc : a.count = UInt32.ofNat a.data.length) (bs : Bytes) :
    (marshalWrite a).run (written bs) =
      .ok () { written (bs ++ headOfWrite a) with
        payloads := [a.data]
        payloadLength := a.data.length } := by
  have hf := FileHandle.lawful.complete h.1
  have ho := Lawful.hyper.complete (v := a.offset) trivial
  have hw := Lawful.word.complete (v := a.count) trivial
  have hs := Stability.lawful.complete (v := a.stable) trivial
  have hn := Lawful.word.complete (v := UInt32.ofNat a.data.length) trivial
  unfold marshalWrite
  rw [if_neg (Nat.not_lt.2 h.2), if_neg (not_not.2 hc)]
  simp only [EStateM.run_bind, run_put _ hf, run_put _ ho, run_put _ hw, run_put _ hs,
    run_put _ hn]
  unfold headOfWrite writeHead
  rw [encode_pair hf, encode_pair ho, encode_pair hw, encode_pair hs, run_appendPayload]
  simp [written]

theorem of_run_marshalWrite {a : WriteArgs} {bs : Bytes} {b : MessageBuffer}
    (h : (marshalWrite a).run (written bs) = .ok () b) :
    a.WellFormed ∧ a.count = UInt32.ofNat a.data.length := by
  unfold marshalWrite at h
  split at h
  · cases h
  rename_i hl
  split at h
  · cases h
  rename_i hc
  refine ⟨⟨?_, Nat.le_of_not_lt hl⟩, not_not.1 hc⟩
  rw [EStateM.run_bind] at h
  cases hf : (put FileHandle.codec a.file).run (written bs) with
  | ok _ c => exact FileHandle.writable.fits (fault_of_put hf)
  | error e c =>
    rw [hf] at h
    cases h

theorem write : (⟨Procedures.write.toProcedure, WriteArgs.codec, Always⟩ : PlainForm).Faithful := by
  have ha {a : WriteArgs} {b₀ : MessageBuffer} (h : (marshalWrite a).run .empty = .ok () b₀) :
      (WriteArgs.codec.encode a).length % 4 = 0 := by
    rw [Codec.encode, Output.bytes, Image.length_bytes]
    exact WriteArgs.lawful.aligned (@of_run_marshalWrite _ [] _ h).1
  refine ⟨fun {a} {_} {bs} h hb => ?_, ha, fun h => ?_⟩
  · obtain ⟨hw, hc⟩ := @of_run_marshalWrite _ [] _ h
    refine ⟨_, run_marshalWrite hw hc bs, ?_⟩
    have hl := length_headOfWrite hw.1
    have hp : padLength (bs.length + (headOfWrite a).length + a.data.length) =
        padLength a.data.length := by
      unfold padLength
      omega
    rw [flatten_finalized, encode_write hw]
    simp [totalLength, written, hp]
  · exact iff_of_true (WriteArgs.lawful.decode_encode.2 (@of_run_marshalWrite _ [] _ h).1) trivial

end Faithful

theorem all_faithful : ∀ f ∈ all, f.Faithful := by
  simp only [all, List.forall_mem_cons]
  exact ⟨.of_bounded (fun _ => rfl) .void Lawful.void.writable,
    .of_bounded (fun _ => rfl) ObjectArgs.lawful ObjectArgs.writable,
    .of_bounded (fun _ => rfl) SetAttrArgs.lawful SetAttrArgs.writable,
    .of_bounded (fun _ => rfl) LookupArgs.lawful LookupArgs.writable,
    .of_bounded (fun _ => rfl) AccessArgs.lawful AccessArgs.writable,
    .of_bounded (fun _ => rfl) ReadLinkArgs.lawful ReadLinkArgs.writable,
    .of_bounded (fun _ => rfl) RangeArgs.lawful RangeArgs.writable,
    .write,
    .of_bounded (fun _ => rfl) CreateArgs.lawful CreateArgs.writable,
    .of_bounded (fun _ => rfl) MkDirArgs.lawful MkDirArgs.writable,
    .of_bounded (fun _ => rfl) SymlinkArgs.lawful SymlinkArgs.writable,
    .of_put (fun _ => rfl) MkNodArgs.lawful MkNodArgs.writable fun _ h => and_iff_right h,
    .of_bounded (fun _ => rfl) RemoveArgs.lawful RemoveArgs.writable,
    .of_bounded (fun _ => rfl) RemoveArgs.lawful RemoveArgs.writable,
    .of_bounded (fun _ => rfl) RenameArgs.lawful RenameArgs.writable,
    .of_bounded (fun _ => rfl) LinkArgs.lawful LinkArgs.writable,
    .of_bounded (fun _ => rfl) ReadDirArgs.lawful ReadDirArgs.writable,
    .of_bounded (fun _ => rfl) ReadDirPlusArgs.lawful ReadDirPlusArgs.writable,
    .of_bounded (fun _ => rfl) ObjectArgs.lawful ObjectArgs.writable,
    .of_bounded (fun _ => rfl) ObjectArgs.lawful ObjectArgs.writable,
    .of_bounded (fun _ => rfl) ObjectArgs.lawful ObjectArgs.writable,
    .of_bounded (fun _ => rfl) RangeArgs.lawful RangeArgs.writable,
    .of_bounded (fun _ => rfl) .void Lawful.void.writable,
    .of_bounded (fun _ => rfl) .text .text,
    .of_bounded (fun _ => rfl) .text .text,
    .of_bounded (fun _ => rfl) .void Lawful.void.writable,
    .of_bounded (fun _ => rfl) PortMapping.lawful PortMapping.lawful.writable,
    List.forall_mem_nil _⟩

end PlainForm
end Rpc
end Nfs3
