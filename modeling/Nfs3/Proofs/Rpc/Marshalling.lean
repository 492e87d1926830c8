import Nfs3.Proofs.Rpc.PlainForm
import Nfs3.Proofs.Wire.BufferRun
import Nfs3.Rpc.Call

/-!
Marshalling only adds to the end of a message, and fails for nothing but a failed write. So the
header of a call is found where it was put, whatever the arguments are.
-/
namespace Nfs3
open Wire Rpc MessageBuffer
variable {α : Type}

namespace MessageBuffer

/-- Adds bytes at the end, or fails to write them. -/
structure Marshals (t : Buffered Unit) : Prop where
  appends {b b' : MessageBuffer} : t.run b = .ok () b' → b.position = b.bytes.length →
    b.bytes <+: b'.bytes ∧ b'.position = b'.bytes.length
  faults {b b' : MessageBuffer} {e : ClientError} : t.run b = .error e b' → ∃ cause, e = .io cause

namespace Marshals

theorem bind {t : Buffered Unit} {u : Unit → Buffered Unit} (ht : Marshals t)
    (hu : Marshals (u ())) : Marshals (t >>= u) where
  appends {b b'} h hb := by
    rw [EStateM.run_bind] at h
    cases hr : t.run b with
    | error e c =>
      rw [hr] at h
      cases h
    | ok _ c =>
      rw [hr] at h
      obtain ⟨hp, hc⟩ := ht.appends hr hb
      obtain ⟨hp', hc'⟩ := hu.appends h hc
      exact ⟨hp.trans hp', hc'⟩
  faults {b b' e} h := by
    rw [EStateM.run_bind] at h
    cases hr : t.run b with
    | error e' c =>
      rw [hr] at h
      cases h
      exact ht.faults hr
    | ok _ c =>
      rw [hr] at h
      exact hu.faults h

theorem pure : Marshals (Pure.pure ()) where
  appends h hb := by
    cases h
    exact ⟨List.prefix_rfl, hb⟩
  faults h := by cases h

theorem fault (f : WriteFault) : Marshals (writeFault f) where
  appends h := by cases h
  faults h := by
    cases h
    exact ⟨_, rfl⟩

theorem writeBytes (bs : Bytes) : Marshals (writeBytes bs) where
  appends {b b'} h hb := by
    by_cases hn : bs = []
    · subst hn
      exact pure.appends h hb
    · cases hs : b.isSealed with
      | true =>
        rw [run_writeBytes_of_sealed hs hn] at h
        cases h
      | false =>
        rw [run_writeBytes_eq hn, EStateM.run_bind, run_write_of_open hs] at h
        cases h
        simp [overwrite, hb]
  faults {b b' e} h := by
    by_cases hn : bs = []
    · subst hn
      exact pure.faults h
    · cases hs : b.isSealed with
      | true =>
        rw [run_writeBytes_of_sealed hs hn] at h
        cases h
        exact ⟨_, rfl⟩
      | false =>
        rw [run_writeBytes_eq hn, EStateM.run_bind, run_write_of_open hs] at h
        cases h

theorem put (c : Codec α) (v : α) : Marshals (put c v) := by
  refine bind (writeBytes _) ?_
  cases (c.write v).fault with
  | none => exact pure
  | some f => exact fault f

theorem putOpaque (bs : Bytes) : Marshals (putOpaque bs) := by
  unfold MessageBuffer.putOpaque
  by_cases h : bs.length ≤ maxLength
  · simp only [h, if_true]
    refine bind (put _ _) (bind (writeBytes bs) ⟨fun {b _} h hb => ?_, fun {b _ _} h => ?_⟩)
    · exact (writeBytes _).appends (b := b) h hb
    · exact (writeBytes _).faults (b := b) h
  · simp only [h, if_false]
    exact fault _

theorem appendPayload (segments : List Bytes) : Marshals (appendPayload segments) where
  appends h hb := by
    rw [run_appendPayload] at h
    cases h
    exact ⟨List.prefix_rfl, hb⟩
  faults h := by cases h

end Marshals
end MessageBuffer

namespace Rpc

theorem Credential.marshals (c : Credential) (stamp : UInt32) : Marshals (c.marshal stamp) :=
  (Marshals.put _ _).bind <| (Marshals.putOpaque _).bind <| (Marshals.put _ _).bind <|
    Marshals.putOpaque _

theorem CallHeader.marshals (h : CallHeader) (c : Credential) (stamp : UInt32) :
    Marshals (h.marshal c stamp) :=
  (Marshals.put _ _).bind <| (Marshals.put _ _).bind <| (Marshals.put _ _).bind <|
    (Marshals.put _ _).bind <| (Marshals.put _ _).bind <| (Marshals.put _ _).bind <|
    c.marshals stamp

theorem marshalWrite_marshals (a : WriteArgs) : Marshals (marshalWrite a) := by
  unfold marshalWrite
  split
  · exact .fault _
  · split
    · exact .fault _
    · exact (Marshals.put _ _).bind <| (Marshals.put _ _).bind <| (Marshals.put _ _).bind <|
        (Marshals.put _ _).bind <| (Marshals.put _ _).bind <| Marshals.appendPayload _

/-- Whatever keeps its arguments from being written, it is no refusal by a server. -/
def Procedure.Candid {Args Reply : Type} (p : Procedure Args Reply) : Prop :=
  ∀ args b e b', (p.marshal args).run b = .error e b' → ∀ s n stat, e ≠ .authRejected s n stat

/-- Its arguments are marshalled as all of this library's are. -/
def Procedure.Regular {Args Reply : Type} (p : Procedure Args Reply) : Prop :=
  ∀ args, Marshals (p.marshal args)

theorem Procedure.Regular.candid {Args Reply : Type} {p : Procedure Args Reply} (h : p.Regular) :
    p.Candid := by
  intro args b e b' he s n stat
  obtain ⟨cause, rfl⟩ := (h args).faults he
  exact nofun

theorem PlainForm.all_regular : ∀ f ∈ PlainForm.all, f.procedure.Regular := by
  have plain {Args Reply : Type} {s : Service} {n : UInt32} {name : String} {c : Codec Args}
      {d : Codec Reply} : (Procedure.plain s n name c d).Regular := fun _ => .put _ _
  simp only [PlainForm.all, List.forall_mem_cons]
  exact ⟨plain, plain, plain, plain, plain, plain, plain, marshalWrite_marshals, plain, plain,
    plain, plain, plain, plain, plain, plain, plain, plain, plain, plain, plain, plain, plain,
    plain, plain, plain, plain, List.forall_mem_nil _⟩

end Rpc

end Nfs3
