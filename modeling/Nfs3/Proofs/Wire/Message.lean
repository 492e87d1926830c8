import Nfs3.Mount
import Nfs3.Rpc.Message
import Nfs3.Proofs.Wire.Lawful

/-! Messages, the mount protocol's answers and port mappings are lawful. -/
namespace Nfs3
open Wire Codec Reader

namespace Rpc

theorem AuthStat.lawful : AuthStat.codec.Lawful Always :=
  .enumeration fun m => by cases m <;> rfl

theorem AuthFlavor.lawful : AuthFlavor.codec.Lawful Always :=
  .enumeration fun m => by cases m <;> rfl

theorem UnixBody.lawful : UnixBody.codec.Lawful UnixBody.WellFormed :=
  (Lawful.word.pair <| .pair .bytes <| .pair .word <| .pair .word <| Lawful.word.array).iso
    (fun _ => rfl) (fun _ => rfl) fun _ => by simp [Always, UnixBody.WellFormed]

theorem AuthField.lawful : AuthField.codec.Lawful AuthField.WellFormed :=
  (AuthFlavor.lawful.pair .bytes).iso (fun _ => rfl) (fun _ => rfl)
    fun _ => by simp [Always, AuthField.WellFormed]

theorem VersionRange.lawful : VersionRange.codec.Lawful Always :=
  (Lawful.word.pair .word).iso (fun _ => rfl) (fun _ => rfl) fun _ => by simp [Always]

def AcceptBody.tag : AcceptBody → UInt32
  | .success => 0
  | .programUnavailable => 1
  | .programMismatch _ => 2
  | .procedureUnavailable => 3
  | .garbageArguments => 4
  | .systemError => 5

def AcceptBody.arm : AcceptBody → Output
  | .programMismatch v => VersionRange.codec.write v
  | _ => .empty

theorem AcceptBody.lawful : AcceptBody.codec.Lawful Always := by
  refine Lawful.word.union tag arm ?_ rfl (fun _ => trivial) ?_ ?_
  · intro v
    cases v <;> rfl
  · intro v _
    cases v with
    | programMismatch v =>
      exact ⟨VersionRange.lawful.complete trivial, VersionRange.lawful.aligned trivial⟩
    | _ => exact ⟨rfl, rfl⟩
  · intro w v bs rest
    split
    · cases v <;> simp [tag, arm, pure_eq_ok, Output.empty, Image.heads_nil, Always]
    · cases v <;> simp [tag, arm, pure_eq_ok, Output.empty, Image.heads_nil, Always]
    · cases v <;> simp [tag, arm, map_eq_ok, VersionRange.lawful.read_iff, Always]
    · cases v <;> simp [tag, arm, pure_eq_ok, Output.empty, Image.heads_nil, Always]
    · cases v <;> simp [tag, arm, pure_eq_ok, Output.empty, Image.heads_nil, Always]
    · cases v <;> simp [tag, arm, pure_eq_ok, Output.empty, Image.heads_nil, Always]
    · cases v <;> simp_all [tag, throw_ne_ok]

def RejectBody.tag : RejectBody → UInt32
  | .rpcMismatch _ => 0
  | .authError _ => 1

def RejectBody.arm : RejectBody → Output
  | .rpcMismatch v => VersionRange.codec.write v
  | .authError s => AuthStat.codec.write s

theorem RejectBody.lawful : RejectBody.codec.Lawful Always := by
  refine Lawful.word.union tag arm ?_ rfl (fun _ => trivial) ?_ ?_
  · intro v
    cases v <;> rfl
  · intro v _
    cases v with
    | rpcMismatch v =>
      exact ⟨VersionRange.lawful.complete trivial, VersionRange.lawful.aligned trivial⟩
    | authError s => exact ⟨AuthStat.lawful.complete trivial, AuthStat.lawful.aligned trivial⟩
  · intro w v bs rest
    split
    · cases v <;> simp [tag, arm, map_eq_ok, VersionRange.lawful.read_iff, Always]
    · cases v <;> simp [tag, arm, map_eq_ok, AuthStat.lawful.read_iff, Always]
    · cases v <;> simp_all [tag, throw_ne_ok]

theorem AcceptedReply.lawful : AcceptedReply.codec.Lawful AcceptedReply.WellFormed :=
  (AuthField.lawful.pair AcceptBody.lawful).iso (fun _ => rfl) (fun _ => rfl)
    fun _ => by simp [Always, AcceptedReply.WellFormed]

def ReplyBody.tag : ReplyBody → UInt32
  | .accepted _ => 0
  | .denied _ => 1

def ReplyBody.arm : ReplyBody → Output
  | .accepted v => AcceptedReply.codec.write v
  | .denied v => RejectBody.codec.write v

theorem ReplyBody.lawful : ReplyBody.codec.Lawful ReplyBody.WellFormed := by
  refine Lawful.word.union tag arm ?_ rfl (fun _ => trivial) ?_ ?_
  · intro v
    cases v <;> rfl
  · intro v hv
    cases v with
    | accepted v => exact ⟨AcceptedReply.lawful.complete hv, AcceptedReply.lawful.aligned hv⟩
    | denied v => exact ⟨RejectBody.lawful.complete trivial, RejectBody.lawful.aligned trivial⟩
  · intro w v bs rest
    split
    · cases v <;> simp [tag, arm, map_eq_ok, AcceptedReply.lawful.read_iff, WellFormed]
    · cases v <;> simp [tag, arm, map_eq_ok, RejectBody.lawful.read_iff, WellFormed, Always]
    · cases v <;> simp_all [tag, throw_ne_ok]

theorem CallBody.lawful : CallBody.codec.Lawful CallBody.WellFormed :=
  (Lawful.word.pair <| .pair .word <| .pair .word <| .pair .word <|
    AuthField.lawful.pair AuthField.lawful).iso (fun _ => rfl) (fun _ => rfl)
    fun _ => by simp [Always, CallBody.WellFormed]

def MessageBody.tag : MessageBody → UInt32
  | .call _ => 0
  | .reply _ => 1

def MessageBody.arm : MessageBody → Output
  | .call v => CallBody.codec.write v
  | .reply v => ReplyBody.codec.write v

theorem MessageBody.lawful : MessageBody.codec.Lawful MessageBody.WellFormed := by
  refine Lawful.word.union tag arm ?_ rfl (fun _ => trivial) ?_ ?_
  · intro v
    cases v <;> rfl
  · intro v hv
    cases v with
    | call v => exact ⟨CallBody.lawful.complete hv, CallBody.lawful.aligned hv⟩
    | reply v => exact ⟨ReplyBody.lawful.complete hv, ReplyBody.lawful.aligned hv⟩
  · intro w v bs rest
    split
    · cases v <;> simp [tag, arm, map_eq_ok, CallBody.lawful.read_iff, WellFormed]
    · cases v <;> simp [tag, arm, map_eq_ok, ReplyBody.lawful.read_iff, WellFormed]
    · cases v <;> simp_all [tag, throw_ne_ok]

theorem Message.lawful : Message.codec.Lawful Message.WellFormed :=
  (Lawful.word.pair MessageBody.lawful).iso (fun _ => rfl) (fun _ => rfl)
    fun _ => by simp [Always, Message.WellFormed]

end Rpc

theorem MountStatus.lawful : MountStatus.codec.Lawful Always :=
  .enumeration fun m => by cases m <;> rfl

theorem Mounted.lawful : Mounted.codec.Lawful Mounted.WellFormed :=
  (Lawful.bytes.pair Lawful.word.array).iso (fun _ => rfl) (fun _ => rfl)
    fun _ => by simp [Always, Mounted.WellFormed]

def MountReply.status : MountReply → MountStatus
  | .ok _ => .ok
  | .refused s => s

def MountReply.arm : MountReply → Output
  | .ok v => Mounted.codec.write v
  | .refused _ => .empty

theorem MountReply.lawful : MountReply.codec.Lawful MountReply.WellFormed := by
  refine MountStatus.lawful.union status arm ?_ rfl (fun _ => trivial) ?_ ?_
  · intro v
    cases v with
    | ok v => rfl
    | refused s => exact (Output.append_empty _).symm
  · intro v hv
    cases v with
    | ok v => exact ⟨Mounted.lawful.complete hv, Mounted.lawful.aligned hv⟩
    | refused s => exact ⟨rfl, rfl⟩
  · intro s v bs rest
    split
    · cases v <;> grind [map_eq_ok, Mounted.lawful.read_iff, WellFormed, status, arm]
    · cases v <;> grind [pure_eq_ok, WellFormed, Output.empty, Image.heads_nil, status, arm]

theorem PortMapping.lawful : PortMapping.codec.Lawful Always :=
  (Lawful.word.pair <| .pair .word <| .pair .word .word).iso (fun _ => rfl) (fun _ => rfl)
    fun _ => by simp [Always]

end Nfs3
