import Nfs3.Proofs.Wire.Reader
import Nfs3.Wire.Field

/-! Reading at an offset of a byte string: what is found depends on the bytes from there on only. -/
namespace Nfs3.Wire
open Reader
variable {bs rest : Bytes} {p : Nat}

def wordAt (bs : Bytes) (p : Nat) : Option UInt32 :=
  if p + 4 ≤ bs.length then some (.ofNat (BigEndian.decode ((bs.drop p).take 4))) else none

def fieldEnd (p : Nat) (n : UInt32) : Nat := p + n.toNat + padLength n.toNat

theorem wordAt_eq_none : wordAt bs p = none ↔ bs.length < p + 4 := by
  unfold wordAt
  split <;> simp <;> omega

theorem le_of_wordAt {w : UInt32} (h : wordAt bs p = some w) : p + 4 ≤ bs.length := by
  by_contra hn
  rw [wordAt_eq_none.2 (by omega)] at h
  cases h

theorem read_word (bs : Bytes) (p : Nat) :
    Codec.word.read (bs.drop p) = match wordAt bs p with
      | some w => .ok w (bs.drop (p + 4))
      | none => .error .endOfInput [] := by
  have hl : ((bs.drop p).take 4).length = 4 ↔ p + 4 ≤ bs.length := by
    rw [List.length_take, List.length_drop]
    omega
  change EStateM.map _ (Reader.exactly 4) (bs.drop p) = _
  unfold EStateM.map Reader.exactly wordAt
  simp only [hl, List.drop_drop]
  by_cases h : p + 4 ≤ bs.length <;> simp [h]

theorem read_word_eq_ok {w : UInt32} :
    Codec.word.read (bs.drop p) = .ok w rest ↔ wordAt bs p = some w ∧ bs.drop (p + 4) = rest := by
  rw [read_word]
  cases wordAt bs p <;> simp

theorem read_enumeration_eq_ok {α : Type} [Enumeration α] {v : α} :
    (Codec.enumeration α).read (bs.drop p) = .ok v rest ↔ ∃ w, wordAt bs p = some w ∧
      Enumeration.ofCode? w = some v ∧ bs.drop (p + 4) = rest := by
  simp only [Codec.enumeration, Codec.refine, bind_eq_ok, read_word_eq_ok]
  constructor
  · intro h
    obtain ⟨w, _, ⟨hw, rfl⟩, h⟩ := h
    cases ho : (Enumeration.ofCode? w : Option α) with
    | none =>
      rw [ho] at h
      cases h
    | some m =>
      rw [ho] at h
      obtain ⟨rfl, hr⟩ := pure_eq_ok.1 h
      exact ⟨w, hw, ho, hr⟩
  · intro h
    obtain ⟨w, hw, ho, rfl⟩ := h
    refine ⟨w, _, ⟨hw, rfl⟩, ?_⟩
    rw [ho]
    rfl

theorem drop_eq_take_append (bs : Bytes) (p n : Nat) :
    bs.drop p = (bs.drop p).take n ++ bs.drop (p + n) := by
  rw [← List.drop_drop, List.take_append_drop]

theorem read_bytes_eq_ok {v : Bytes} :
    Codec.bytes.read (bs.drop p) = .ok v rest ↔ ∃ n, wordAt bs p = some n ∧
      fieldEnd (p + 4) n ≤ bs.length ∧ (bs.drop (p + 4)).take n.toNat = v ∧
      bs.drop (fieldEnd (p + 4) n) = rest := by
  simp only [Codec.bytes, Codec.lengthWord, bind_eq_ok, map_eq_ok, read_word_eq_ok,
    declared_eq_ok, skipPadding_eq_ok, pure_eq_ok, fieldEnd]
  constructor
  · intro h
    obtain ⟨_, _, ⟨n, ⟨hn, rfl⟩, rfl⟩, v, _, ⟨hv, hb⟩, _, _, ⟨ps, hp, rfl⟩, rfl, rfl⟩ := h
    have hl := congrArg List.length hb
    have hw := le_of_wordAt hn
    simp only [List.length_drop, List.length_append] at hl
    refine ⟨n, hn, by omega, ?_, ?_⟩
    · rw [hb, ← hv, List.take_left']
      rfl
    · rw [Nat.add_assoc, ← List.drop_drop, hb, ← List.append_assoc, List.drop_left']
      simp [hv, hp]
  · intro h
    obtain ⟨n, hn, hl, rfl, rfl⟩ := h
    refine ⟨_, _, ⟨n, ⟨hn, rfl⟩, rfl⟩, _, bs.drop (p + 4 + n.toNat), ⟨?_, ?_⟩, (), _,
      ⟨(bs.drop (p + 4 + n.toNat)).take (padLength n.toNat), ?_, ?_⟩, rfl, rfl⟩
    · rw [List.length_take, List.length_drop]
      omega
    · exact drop_eq_take_append bs (p + 4) n.toNat
    · rw [List.length_take, List.length_drop]
      omega
    · exact drop_eq_take_append bs (p + 4 + n.toNat) (padLength n.toNat)

end Nfs3.Wire
