import Nfs3.Proofs.Wire.BufferRun

/-!
Writing into an open buffer, wherever its cursor stands. Writes one after another are one write of
all their bytes, and what was written stands behind the place where it began.
-/
namespace Nfs3
open Wire MessageBuffer
variable {α : Type} {b : MessageBuffer}

namespace Wire.Codec

@[simp] theorem length_encode_word (w : UInt32) : (Codec.word.encode w).length = 4 := by
  simp [Codec.encode, Codec.word, Output.bytes, Image.length_ofBytes]

theorem length_encode_bytes {bs : Bytes} (h : bs.length ≤ maxLength) :
    (Codec.bytes.encode bs).length = 4 + (bs.length + padLength bs.length) := by
  rw [encode_bytes h]
  simp only [List.length_append, length_encode_word, List.length_replicate]
  omega

end Wire.Codec

namespace MessageBuffer

@[simp] theorem overwrite_nil (b : MessageBuffer) : b.overwrite [] = b := by
  simp [overwrite]

theorem overwrite_overwrite (b : MessageBuffer) (vs ws : Bytes) :
    (b.overwrite vs).overwrite ws = b.overwrite (vs ++ ws) := by
  simp only [overwrite, List.length_append, mk.injEq, and_true]
  refine ⟨?_, by omega⟩
  by_cases h : b.position ≤ b.bytes.length
  · have hl : (b.bytes.take b.position ++ vs).length = b.position + vs.length := by
      rw [List.length_append, List.length_take, Nat.min_eq_left h]
    rw [List.take_left' hl, ← List.drop_drop, List.drop_left' hl, List.drop_drop, Nat.add_assoc]
    simp only [List.append_assoc]
  · have hd (n : Nat) : b.bytes.drop (b.position + n) = [] := List.drop_eq_nil_of_le (by omega)
    have ht : b.bytes.take b.position = b.bytes := List.take_of_length_le (by omega)
    rw [hd, hd, ht, List.append_nil, List.append_nil, List.take_of_length_le,
      List.drop_eq_nil_of_le]
    · simp
    · simp only [List.length_append]
      omega
    · simp only [List.length_append]
      omega

theorem run_writeBytes_of_open (h : b.isSealed = false) (vs : Bytes) :
    (writeBytes vs).run b = .ok () (b.overwrite vs) := by
  by_cases hn : vs = []
  · rw [hn, overwrite_nil]
    rfl
  · rw [run_writeBytes_eq hn, EStateM.run_bind, run_write_of_open h]
    rfl

theorem run_put_of_open {c : Codec α} {v : α} (hb : b.isSealed = false)
    (hf : (c.write v).fault = none) : (put c v).run b = .ok () (b.overwrite (c.encode v)) := by
  unfold put
  simp only [EStateM.run_bind, run_writeBytes_of_open hb, hf]
  rfl

theorem pendingPadding_eq (hw : b.WellFormed) (h : b.isSealed = false) :
    b.pendingPadding = padLength b.position := by
  have hs : ¬ (b.payloads ≠ [] ∨ 0 < b.terminalPadding) := by
    rw [← isSealed_iff, h]
    exact Bool.false_ne_true
  simp only [not_or, not_not, Nat.not_lt, Nat.le_zero] at hs
  rw [pendingPadding, hw.payloadLength_eq, hs.1, hs.2]
  rfl

theorem drop_position_overwrite (hp : b.position ≤ b.bytes.length) (vs : Bytes) :
    (b.overwrite vs).bytes.drop b.position = vs ++ b.bytes.drop (b.position + vs.length) := by
  have ht : (b.bytes.take b.position).length = b.position := by
    rw [List.length_take, Nat.min_eq_left hp]
  simp only [overwrite, List.append_assoc]
  exact List.drop_left' ht

theorem run_setPosition {p : Nat} (h : p ≤ b.bytes.length) :
    (setPosition p).run b = .ok () { b with position := p } := by
  simp only [setPosition, EStateM.run_bind, EStateM.run_get, if_neg (Nat.not_lt.2 h),
    EStateM.run_set]

theorem length_overwrite_eq_max (hp : b.position ≤ b.bytes.length) (vs : Bytes) :
    (b.overwrite vs).bytes.length = max b.bytes.length (b.position + vs.length) := by
  simp only [overwrite, List.length_append, List.length_take, List.length_drop]
  omega

end MessageBuffer
end Nfs3
