import Nfs3.MessageBuffer
import Nfs3.Proofs.Wire.Offset

/-! Reading values at the cursor of a message buffer. -/
namespace Nfs3.MessageBuffer
open Wire
variable {α β : Type}

theorem fetch_eq_ok {c : Codec α} {b : MessageBuffer} {v : α} {used rest : Bytes}
    (hp : b.position ≤ b.bytes.length) (hb : b.bytes.drop b.position = used ++ rest)
    (h : c.decode (used ++ rest) = .ok v rest) :
    (fetch c).run b = .ok v { b with position := b.position + used.length } := by
  have hl := congrArg List.length hb
  rw [List.length_drop, List.length_append] at hl
  have hq : b.bytes.length - rest.length = b.position + used.length := by omega
  simp only [EStateM.run, fetch, hb, h, leave, hq]

/-- A buffer reads what its bytes from the cursor on hold, and moves the cursor behind it. -/
theorem fetch_eq_ok_iff {c : Codec α} {b b' : MessageBuffer} {v : α} :
    (fetch c).run b = .ok v b' ↔
      ∃ rest, c.decode (b.bytes.drop b.position) = .ok v rest ∧ b' = b.leave rest := by
  simp only [EStateM.run, fetch]
  cases c.decode (b.bytes.drop b.position) with
  | ok u rest => simp [eq_comm]
  | error fault rest => simp

def verdict : EStateM.Result ClientError MessageBuffer α → Except ClientError α × Nat
  | .ok v b => (.ok v, b.position)
  | .error e b => (.error e, b.position)

def fetchAt (c : Codec α) (bs : Bytes) (p : Nat) : Except ClientError α × Nat :=
  match c.decode (bs.drop p) with
  | .ok v rest => (.ok v, bs.length - rest.length)
  | .error fault rest => (.error (.malformedMessage (.unreadable fault)), bs.length - rest.length)

def withWord (bs : Bytes) (p : Nat) (next : UInt32 → Except ClientError α × Nat) :
    Except ClientError α × Nat :=
  match wordAt bs p with
  | some w => next w
  | none => (.error (.malformedMessage (.unreadable .endOfInput)), bs.length)

theorem run_fetch_word (b : MessageBuffer) :
    (fetch .word).run b = match wordAt b.bytes b.position with
      | some w => .ok w { b with position := b.position + 4 }
      | none => .error (.malformedMessage (.unreadable .endOfInput))
          { b with position := b.bytes.length } := by
  have hr := read_word b.bytes b.position
  cases hw : wordAt b.bytes b.position with
  | none =>
    rw [hw] at hr
    simp [EStateM.run, fetch, Codec.decode, hr, leave]
  | some w =>
    have hl := le_of_wordAt hw
    have hq : b.bytes.length - (b.bytes.length - (b.position + 4)) = b.position + 4 := by omega
    rw [hw] at hr
    simp [EStateM.run, fetch, Codec.decode, hr, leave, hq]

theorem verdict_fetch_bind {b : MessageBuffer} {f : UInt32 → Buffered β} :
    verdict ((fetch .word >>= f).run b) = withWord b.bytes b.position fun w =>
      verdict ((f w).run { b with position := b.position + 4 }) := by
  rw [EStateM.run_bind, run_fetch_word]
  unfold withWord
  cases wordAt b.bytes b.position <;> rfl

theorem verdict_fetch_map {c : Codec α} {b : MessageBuffer} {f : α → β} :
    verdict ((fetch c >>= fun v => pure (f v)).run b) =
      (fetchAt c b.bytes b.position).map (Except.map f) id := by
  rw [EStateM.run_bind]
  unfold fetchAt
  simp only [EStateM.run, fetch]
  cases c.decode (b.bytes.drop b.position) <;> rfl

/-- The sum is refused when it leaves the range of a machine word. Rounding it up is not checked. -/
theorem run_skip_eq (b : MessageBuffer) (n : UInt64) :
    (skip n).run b =
      let target := b.position + n.toNat + padLength (b.position + n.toNat)
      if UInt64.size ≤ b.position + n.toNat then .error (.malformedMessage (.skipOverflow n)) b
      else if UInt64.size ≤ target then .error .overflow b
      else if b.bytes.length < target then
        .error (.malformedMessage (.skipPastEnd target b.bytes.length)) b
      else .ok () { b with position := target } := by
  unfold skip
  rw [EStateM.run_bind, EStateM.run_get]
  dsimp only
  generalize b.position + n.toNat + padLength (b.position + n.toNat) = target
  by_cases hs : UInt64.size ≤ b.position + n.toNat
  · rw [if_pos hs, if_pos hs]
    rfl
  · rw [if_neg hs, if_neg hs]
    by_cases hr : UInt64.size ≤ target
    · rw [if_pos hr, if_pos hr]
      rfl
    · rw [if_neg hr, if_neg hr]
      by_cases ht : b.bytes.length < target
      · rw [if_pos ht, if_pos ht]
        rfl
      · rw [if_neg ht, if_neg ht]
        rfl

theorem run_skip_of_small {b : MessageBuffer} {n : UInt32}
    (hs : b.position + n.toNat + 4 ≤ UInt64.size) :
    (skip n.toUInt64).run b =
      if b.bytes.length < b.position + n.toNat + padLength (b.position + n.toNat) then
        .error (.malformedMessage (.skipPastEnd
          (b.position + n.toNat + padLength (b.position + n.toNat)) b.bytes.length)) b
      else
        .ok () { b with position := b.position + n.toNat + padLength (b.position + n.toNat) } := by
  have hk := padLength_lt (b.position + n.toNat)
  have hlt : ¬ UInt64.size ≤ b.position + n.toNat := by omega
  have hle : ¬ UInt64.size ≤ b.position + n.toNat + padLength (b.position + n.toNat) := by omega
  rw [run_skip_eq, UInt32.toNat_toUInt64]
  dsimp only
  rw [if_neg hlt, if_neg hle]

theorem run_skip {b : MessageBuffer} {n : UInt32} (hp : b.position % 4 = 0)
    (hs : b.position + n.toNat + 4 ≤ UInt64.size) :
    (skip n.toUInt64).run b =
      if b.bytes.length < fieldEnd b.position n then
        .error (.malformedMessage (.skipPastEnd (fieldEnd b.position n) b.bytes.length)) b
      else .ok () { b with position := fieldEnd b.position n } := by
  have hpad : padLength (b.position + n.toNat) = padLength n.toNat := by
    unfold padLength
    omega
  rw [run_skip_of_small hs, hpad, fieldEnd]

theorem verdict_skip_bind {b : MessageBuffer} {n : UInt32} {f : Unit → Buffered β}
    (hp : b.position % 4 = 0) (hs : b.position + n.toNat + 4 ≤ UInt64.size) :
    verdict ((skip n.toUInt64 >>= f).run b) =
      if b.bytes.length < fieldEnd b.position n then
        (.error (.malformedMessage (.skipPastEnd (fieldEnd b.position n) b.bytes.length)),
          b.position)
      else verdict ((f ()).run { b with position := fieldEnd b.position n }) := by
  rw [EStateM.run_bind, run_skip hp hs]
  by_cases h : b.bytes.length < fieldEnd b.position n
  · simp only [h, if_true]
    rfl
  · simp only [h, if_false]

theorem withWord_eq_ok {bs : Bytes} {p q : Nat} {next : UInt32 → Except ClientError α × Nat}
    {v : α} : withWord bs p next = (.ok v, q) ↔
      ∃ w, wordAt bs p = some w ∧ next w = (.ok v, q) := by
  unfold withWord
  cases wordAt bs p <;> simp

theorem withWord_eq_error {bs : Bytes} {p : Nat} {next : UInt32 → Except ClientError α × Nat}
    {e : ClientError} (h : (withWord bs p next).1 = .error e) :
    (∃ problem, e = .malformedMessage problem) ∨
      ∃ w, wordAt bs p = some w ∧ (next w).1 = .error e := by
  unfold withWord at h
  cases hw : wordAt bs p with
  | none =>
    rw [hw] at h
    exact .inl ⟨_, (Except.error.inj h).symm⟩
  | some w =>
    rw [hw] at h
    exact .inr ⟨w, rfl, h⟩

theorem fetchAt_map_eq_error {c : Codec α} {bs : Bytes} {p : Nat} {f : α → β} {e : ClientError}
    (h : ((fetchAt c bs p).map (Except.map f) id).1 = .error e) :
    ∃ problem, e = .malformedMessage problem := by
  unfold fetchAt at h
  cases hr : c.decode (bs.drop p) with
  | ok v rest =>
    rw [hr] at h
    cases h
  | error fault rest =>
    rw [hr] at h
    exact ⟨_, (Except.error.inj h).symm⟩

theorem withWord_congr {bs cs : Bytes} {p : Nat} {f g : UInt32 → Except ClientError α × Nat}
    (hl : cs.length = bs.length) (hw : wordAt cs p = wordAt bs p)
    (h : ∀ w, wordAt bs p = some w → g w = f w) : withWord cs p g = withWord bs p f := by
  unfold withWord
  rw [hw, hl]
  cases hb : wordAt bs p with
  | none => rfl
  | some w => exact h w hb

theorem withWord_const {bs cs : Bytes} {p : Nat} {f g : Except ClientError α × Nat}
    (hl : cs.length = bs.length) (h : g = f) :
    withWord cs p (fun _ => g) = withWord bs p fun _ => f := by
  unfold withWord wordAt
  rw [hl, h]
  by_cases hp : p + 4 ≤ bs.length
  · simp only [hp, if_true]
  · simp only [hp, if_false]

/-- When it succeeds, nothing but the cursor has moved. -/
def ReadOnly (t : Buffered α) : Prop :=
  ∀ b v b', t.run b = .ok v b' → b' = { b with position := b'.position }

namespace ReadOnly

theorem pure (v : α) : ReadOnly (Pure.pure v) := by
  intro b _ b' h
  cases h
  rfl

theorem throw (e : ClientError) : ReadOnly (throwThe ClientError e : Buffered α) := by
  intro b _ b' h
  cases h

theorem bind {t : Buffered α} {f : α → Buffered β} (ht : ReadOnly t) (hf : ∀ v, ReadOnly (f v)) :
    ReadOnly (t >>= f) := by
  intro b u b' h
  rw [EStateM.run_bind] at h
  cases hr : t.run b with
  | error e c =>
    rw [hr] at h
    cases h
  | ok v c =>
    rw [hr] at h
    have hc := ht b v c hr
    have hb := hf v c u b' h
    rw [hb, hc]

theorem reset : ReadOnly reset := by
  intro b _ b' h
  cases h
  rfl

theorem fetch (c : Codec α) : ReadOnly (fetch c) := by
  intro b v b' h
  simp only [EStateM.run, MessageBuffer.fetch] at h
  cases hr : c.decode (b.bytes.drop b.position) with
  | error fault rest =>
    rw [hr] at h
    cases h
  | ok u rest =>
    rw [hr] at h
    cases h
    rfl

theorem skip (n : UInt64) : ReadOnly (skip n) := by
  intro b v b' h
  rw [run_skip_eq] at h
  dsimp only at h
  split_ifs at h
  cases h
  rfl

end ReadOnly

section Overwrite
variable {b : MessageBuffer} {vs : Bytes} {q : Nat} (h : b.position + vs.length ≤ b.bytes.length)
include h

theorem length_overwrite : (b.overwrite vs).bytes.length = b.bytes.length := by
  simp only [overwrite, List.length_append, List.length_take, List.length_drop]
  omega

theorem drop_overwrite (hq : b.position + vs.length ≤ q) :
    (b.overwrite vs).bytes.drop q = b.bytes.drop q := by
  have hl : (b.bytes.take b.position ++ vs).length = b.position + vs.length := by
    rw [List.length_append, List.length_take]
    omega
  obtain ⟨k, rfl⟩ := Nat.exists_eq_add_of_le hq
  simp only [overwrite]
  rw [← List.drop_drop, List.drop_left' hl, List.drop_drop]

theorem take_overwrite (hq : q ≤ b.position) : (b.overwrite vs).bytes.take q = b.bytes.take q := by
  have hl : q ≤ (b.bytes.take b.position).length := by
    rw [List.length_take]
    omega
  simp only [overwrite]
  rw [List.append_assoc, List.take_append_of_le_length hl, List.take_take, Nat.min_eq_left hq]

theorem wordAt_overwrite (hq : q + 4 ≤ b.position ∨ b.position + vs.length ≤ q) :
    wordAt (b.overwrite vs).bytes q = wordAt b.bytes q := by
  unfold wordAt
  rw [length_overwrite h]
  obtain hq | hq := hq
  · rw [List.take_drop, List.take_drop, take_overwrite h hq]
  · rw [drop_overwrite h hq]

end Overwrite

end Nfs3.MessageBuffer
