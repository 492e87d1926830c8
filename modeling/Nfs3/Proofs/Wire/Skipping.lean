import Mathlib.Order.Bounds.Basic
import Nfs3.Proofs.Wire.Buffer

/-!
Where a skip ends. It should lead to the first boundary of a word behind the bytes skipped, or be
refused. The check against the range of a machine word comes before the sum is rounded up: of the
sums that pass it, the last three round up to a number that is no machine word, and the program
stops.
-/
namespace Nfs3.MessageBuffer

/-- A message goes on at `t` when `n` bytes and what fills up their last word are skipped. -/
def Boundary (b : MessageBuffer) (n : UInt64) (t : Nat) : Prop :=
  IsLeast {m | 4 ∣ m ∧ b.position + n.toNat ≤ m} t

/-- A skip that leads to that boundary inside the message, or is refused and moves nothing. -/
inductive Skipped (b : MessageBuffer) (n : UInt64) :
    EStateM.Result ClientError MessageBuffer Unit → Prop where
  | moved {t : Nat} (ends : b.Boundary n t) (inside : t ≤ b.bytes.length) :
    Skipped b n (.ok () { b with position := t })
  | refused (problem : MalformedMessage) : Skipped b n (.error (.malformedMessage problem) b)

variable {b : MessageBuffer} {n : UInt64} {t : Nat}

theorem isLeast_add_padLength (s : Nat) : IsLeast {m | 4 ∣ m ∧ s ≤ m} (s + padLength s) := by
  refine ⟨⟨Nat.dvd_of_mod_eq_zero (add_padLength_mod s), Nat.le_add_right ..⟩, ?_⟩
  intro m hm
  obtain ⟨hd, hle⟩ := hm
  unfold padLength
  omega

/-- Among the sums that are machine words only those behind the last boundary round up to a number
that is none, and that is the first of these. -/
theorem Boundary.eq_size (h : b.Boundary n t) (hs : b.position + n.toNat < UInt64.size)
    (ht : UInt64.size ≤ t) : t = UInt64.size :=
  Nat.le_antisymm (h.2 ⟨by decide, hs.le⟩) ht

theorem Boundary.run_skip (h : b.Boundary n t) :
    (skip n).run b =
      if UInt64.size ≤ b.position + n.toNat then .error (.malformedMessage (.skipOverflow n)) b
      else if UInt64.size ≤ t then .error .overflow b
      else if b.bytes.length < t then
        .error (.malformedMessage (.skipPastEnd t b.bytes.length)) b
      else .ok () { b with position := t } := by
  have ht : t = b.position + n.toNat + padLength (b.position + n.toNat) :=
    h.unique (isLeast_add_padLength _)
  rw [run_skip_eq, ← ht]

/-- Skipping does what it should unless rounding alone leaves the range of machine words. -/
theorem Boundary.skipped_iff (h : b.Boundary n t) :
    Skipped b n ((skip n).run b) ↔ UInt64.size ≤ b.position + n.toNat ∨ t < UInt64.size := by
  rw [h.run_skip]
  by_cases hs : UInt64.size ≤ b.position + n.toNat
  · rw [if_pos hs]
    exact ⟨fun _ => .inl hs, fun _ => .refused _⟩
  · rw [if_neg hs]
    by_cases hw : UInt64.size ≤ t
    · rw [if_pos hw]
      constructor
      · intro hk
        cases hk
      · omega
    · rw [if_neg hw]
      refine ⟨fun _ => .inr (by omega), fun _ => ?_⟩
      by_cases hl : b.bytes.length < t
      · rw [if_pos hl]
        exact .refused _
      · rw [if_neg hl]
        exact .moved h (by omega)

/-- A skip ends at the boundary behind the bytes skipped if that is a machine word inside the
message. It is refused if that lies outside, or if the bytes alone lead out of the range of machine
words. What is left are sums that only rounding takes out of that range, to the first number behind
it: there the program stops, and skipping does what it should just when it meets none of them. -/
theorem skip_ends_at_boundary (b : MessageBuffer) (n : UInt64) :
    ∃ t, b.Boundary n t ∧
      (skip n).run b =
        (if UInt64.size ≤ b.position + n.toNat then .error (.malformedMessage (.skipOverflow n)) b
        else if UInt64.size ≤ t then .error .overflow b
        else if b.bytes.length < t then
          .error (.malformedMessage (.skipPastEnd t b.bytes.length)) b
        else .ok () { b with position := t }) ∧
      (b.position + n.toNat < UInt64.size → UInt64.size ≤ t → t = UInt64.size) ∧
      (Skipped b n ((skip n).run b) ↔ UInt64.size ≤ b.position + n.toNat ∨ t < UInt64.size) := by
  have hb : b.Boundary n (b.position + n.toNat + padLength (b.position + n.toNat)) :=
    isLeast_add_padLength _
  exact ⟨_, hb, hb.run_skip, hb.eq_size, hb.skipped_iff⟩

/-- From the middle of a message of sixteen bytes, a skip up to the last byte that can be counted is
not refused: the program stops, and in machine words the boundary would be the start of the
message. -/
theorem skip_near_top_stops :
    let b : MessageBuffer := { bytes := List.replicate 16 0, position := 8 }
    let n : UInt64 := 18446744073709551607
    b.position + n.toNat = UInt64.size - 1 ∧
    (skip n).run b = .error .overflow b ∧ ¬ Skipped b n ((skip n).run b) ∧
    (b.position + n.toNat + padLength (b.position + n.toNat)) % UInt64.size = 0 := by
  intro b n
  have hs : ¬ UInt64.size ≤ b.position + n.toNat := by decide
  have ht : UInt64.size ≤ b.position + n.toNat + padLength (b.position + n.toNat) := by decide
  have hr : (skip n).run b = .error .overflow b := by
    rw [run_skip_eq]
    dsimp only
    rw [if_neg hs, if_pos ht]
  refine ⟨by decide, hr, fun h => ?_, by decide⟩
  rw [hr] at h
  cases h

end Nfs3.MessageBuffer
