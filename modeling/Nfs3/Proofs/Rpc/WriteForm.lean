import Nfs3.Proofs.Rpc.PlainForm
import Nfs3.Proofs.Wire.Overwrite

/-!
The arguments of a write, marshalled into any buffer: all of them or nothing. Whatever can be wrong
with them or with the buffer is found before the first byte is written.
-/
namespace Nfs3
open Wire Codec MessageBuffer Rpc
open PlainForm.Faithful (headOfWrite writeHead)

namespace FileHandle

theorem write_of_too_long {file : FileHandle} (h : maxLength < file.data.length) :
    FileHandle.codec.write file = ⟨[], some .lengthOverflow⟩ := by
  have hl : Codec.lengthWord.write file.data.length = ⟨[], some .lengthOverflow⟩ :=
    if_neg (Nat.not_le.2 h)
  change Output.append (Codec.lengthWord.write file.data.length) _ = _
  rw [hl]
  rfl

theorem run_put_of_too_long {file : FileHandle} (h : maxLength < file.data.length)
    (b : MessageBuffer) :
    (put FileHandle.codec file).run b = .error (.io (.ofWrite .lengthOverflow)) b := by
  unfold put
  rw [write_of_too_long h]
  rfl

theorem length_encode {file : FileHandle} (h : file.WellFormed) :
    (FileHandle.codec.encode file).length = 4 + (file.data.length + padLength file.data.length) :=
  length_encode_bytes h

end FileHandle

namespace WriteArgs

/-- Why arguments disagree with their data, if they do. -/
def countFault (a : WriteArgs) : Option WriteFault :=
  if maxLength < a.data.length then some (.dataOverflow a.data.length)
  else if a.count.toNat = a.data.length then none
  else some (.countMismatch a.count a.data.length)

/-- Why arguments are not written into a buffer: the first thing that is wrong. -/
def refusal (a : WriteArgs) (b : MessageBuffer) : Option WriteFault :=
  match a.countFault with
  | some fault => some fault
  | none =>
    if maxLength < a.file.data.length then some .lengthOverflow
    else if b.isSealed then some .sealedBuffer
    else none

theorem countFault_eq_none (a : WriteArgs) :
    a.countFault = none ↔ a.count.toNat = a.data.length ∧ a.data.length ≤ maxLength := by
  unfold countFault
  split
  · simp
    omega
  · split <;> simp_all

theorem refusal_eq_none (a : WriteArgs) (b : MessageBuffer) : a.refusal b = none ↔
    b.isSealed = false ∧ a.count.toNat = a.data.length ∧ a.data.length ≤ maxLength ∧
      a.file.data.length ≤ maxLength := by
  rw [refusal]
  cases hc : a.countFault with
  | some fault =>
    have hn := a.countFault_eq_none
    simp only [hc, reduceCtorEq, false_iff] at hn ⊢
    tauto
  | none =>
    have hn := a.countFault_eq_none.1 hc
    by_cases hf : maxLength < a.file.data.length
    · simp [hf]
    · cases b.isSealed <;> simp [hf, hn, Nat.le_of_not_lt hf]

theorem headOfWrite_eq {a : WriteArgs} (h : a.file.WellFormed) : headOfWrite a =
    FileHandle.codec.encode a.file ++ Codec.hyper.encode a.offset ++ Codec.word.encode a.count ++
      Stability.codec.encode a.stable ++ Codec.word.encode (UInt32.ofNat a.data.length) := by
  unfold headOfWrite writeHead
  rw [encode_pair (FileHandle.lawful.complete h), encode_pair rfl, encode_pair rfl,
    encode_pair (Stability.lawful.complete trivial)]
  simp only [List.append_assoc]

theorem length_headOfWrite_le {a : WriteArgs} (h : a.file.WellFormed) :
    (headOfWrite a).length ≤ writeRoom a := by
  have hp := padLength_lt a.file.data.length
  have ho : (Codec.hyper.encode a.offset).length = 8 := by
    simp [Codec.encode, Codec.hyper, Output.bytes, Image.length_ofBytes]
  have hs : (Stability.codec.encode a.stable).length = 4 := length_encode_word _
  rw [headOfWrite_eq h]
  simp only [List.length_append, FileHandle.length_encode h, ho, hs, length_encode_word, writeRoom]
  omega

def putHead (a : WriteArgs) : Buffered Unit := do
  put FileHandle.codec a.file
  put .hyper a.offset
  put .word a.count
  put Stability.codec a.stable
  put .word (UInt32.ofNat a.data.length)

theorem run_putHead {a : WriteArgs} (h : a.file.WellFormed) {b : MessageBuffer}
    (hb : b.isSealed = false) : a.putHead.run b = .ok () (b.overwrite (headOfWrite a)) := by
  have hput {α : Type} {c : Codec α} {v : α} (hf : (c.write v).fault = none) (vs : Bytes) :
      (put c v).run (b.overwrite vs) = .ok () (b.overwrite (vs ++ c.encode v)) := by
    have ho : (b.overwrite vs).isSealed = false := hb
    rw [run_put_of_open ho hf, overwrite_overwrite]
  unfold putHead
  rw [EStateM.run_bind, run_put_of_open hb (FileHandle.lawful.complete h)]
  simp only [EStateM.run_bind, hput (Lawful.hyper.complete trivial),
    hput (Lawful.word.complete trivial), hput (Stability.lawful.complete trivial),
    headOfWrite_eq h]

theorem run_putHead_of_error {a : WriteArgs} {b : MessageBuffer} {e : ClientError}
    (h : (put FileHandle.codec a.file).run b = .error e b) : a.putHead.run b = .error e b := by
  unfold putHead
  rw [EStateM.run_bind, h]

theorem marshalWrite_eq (a : WriteArgs) : marshalWrite a =
    match a.countFault with
    | some fault => writeFault fault
    | none => a.putHead >>= fun _ => appendPayload [a.data] := by
  unfold marshalWrite countFault
  by_cases hl : maxLength < a.data.length
  · simp [hl]
  have hlt : a.data.length < UInt32.size := by
    have hm : maxLength + 1 = UInt32.size := rfl
    omega
  have hc : a.count = UInt32.ofNat a.data.length ↔ a.count.toNat = a.data.length := by
    rw [← UInt32.toNat_inj, UInt32.toNat_ofNat_of_lt' hlt]
  by_cases hn : a.count.toNat = a.data.length
  · simp [hl, hn, hc, putHead]
  · simp [hl, hn, hc]

/-- Marshalled into any buffer the arguments are refused, and nothing is changed, or they are all
written: the fields at the cursor, the data as one more segment. -/
theorem run_marshalWrite_eq (a : WriteArgs) (b : MessageBuffer) :
    (marshalWrite a).run b =
      match a.refusal b with
      | some fault => .error (.io (.ofWrite fault)) b
      | none => .ok () { b.overwrite (headOfWrite a) with
          payloads := b.payloads ++ [a.data]
          payloadLength := b.payloadLength + a.data.length } := by
  rw [marshalWrite_eq, refusal]
  cases a.countFault with
  | some fault => rfl
  | none =>
    simp only [EStateM.run_bind]
    by_cases hf : maxLength < a.file.data.length
    · rw [run_putHead_of_error (FileHandle.run_put_of_too_long hf b)]
      simp only [hf, if_true]
    have hw : a.file.WellFormed := Nat.le_of_not_lt hf
    cases hb : b.isSealed with
    | true =>
      have he : FileHandle.codec.encode a.file ≠ [] := by
        intro he
        have hz := FileHandle.length_encode hw
        simp only [he, List.length_nil] at hz
        omega
      rw [run_putHead_of_error (run_put_of_sealed hb he)]
      simp only [hf, if_true, if_false]
    | false =>
      rw [run_putHead hw hb]
      simp only [hf, if_false, Bool.false_eq_true]
      rfl

theorem countFault_ofData (file : FileHandle) (offset : UInt64) (stable : Stability)
    (data : Bytes) : (ofData file offset stable data).countFault = none ↔
      data.length ≤ maxLength := by
  rw [countFault_eq_none]
  constructor
  · intro h
    exact h.2
  · intro h
    exact ⟨UInt32.toNat_ofNat_of_lt' (Nat.lt_of_le_sub_one (by decide) h), h⟩

/-- The arguments of a write are marshalled whole or not at all, into any buffer. They are exactly
if the buffer is open, the count is that of the data, and both data and handle fit a length word.
Then no more bytes are written than there was to be room for. -/
theorem marshal_whole_or_not_at_all (a : WriteArgs) (b : MessageBuffer) :
    ((Procedures.write.marshal a).run b =
      match a.refusal b with
      | some fault => .error (.io (.ofWrite fault)) b
      | none => .ok () { b.overwrite (headOfWrite a) with
          payloads := b.payloads ++ [a.data]
          payloadLength := b.payloadLength + a.data.length }) ∧
    (a.refusal b = none ↔ b.isSealed = false ∧ a.count.toNat = a.data.length ∧
      a.data.length ≤ maxLength ∧ a.file.data.length ≤ maxLength) ∧
    (a.refusal b = none → headOfWrite a =
      FileHandle.codec.encode a.file ++ Codec.hyper.encode a.offset ++
        Codec.word.encode a.count ++ Stability.codec.encode a.stable ++
        Codec.word.encode (UInt32.ofNat a.data.length) ∧
      (headOfWrite a).length ≤ Procedures.write.sizeHint a) ∧
    ∀ file offset stable data,
      (ofData file offset stable data).countFault = none ↔ data.length ≤ maxLength := by
  refine ⟨run_marshalWrite_eq a b, a.refusal_eq_none b, fun h => ?_, countFault_ofData⟩
  have hw : a.file.WellFormed := ((a.refusal_eq_none b).1 h).2.2.2
  exact ⟨headOfWrite_eq hw, length_headOfWrite_le hw⟩

/-- Written over the last word of two: a handle of one byte, and data that follows uncopied. -/
example :
    (Procedures.write.marshal (.ofData ⟨[5]⟩ 1 .fileSync [6, 7])).run
      { MessageBuffer.ofBytes [0, 0, 0, 9, 8, 8, 8, 8] with position := 4 } =
      .ok () ⟨[0, 0, 0, 9, 0, 0, 0, 1, 5, 0, 0, 0, 0, 0, 0, 0, 0, 0, 0, 1, 0, 0, 0, 2,
        0, 0, 0, 2, 0, 0, 0, 2], 32, [[6, 7]], 2, 0⟩ := rfl

end WriteArgs
end Nfs3
