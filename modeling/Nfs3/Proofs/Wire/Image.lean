import Mathlib.Data.List.Basic
import Nfs3.Wire.Image

/-! An image at the front of a byte string, and what becomes of it when images are joined. -/
namespace Nfs3.Wire

namespace Image
variable {bs rest : Bytes}

/-- The bytes begin with a form of the image, whatever its padding, and go on with `rest`. -/
def Heads (i : Image) (bs rest : Bytes) : Prop := ∃ used, i.Matches used ∧ bs = used ++ rest

theorem matches_nil : Matches [] bs ↔ bs = [] := by cases bs <;> simp [Matches]

theorem matches_append {i j : Image} :
    (i ++ j).Matches bs ↔ ∃ us vs, i.Matches us ∧ j.Matches vs ∧ bs = us ++ vs := by
  induction i generalizing bs with
  | nil => simp [matches_nil]
  | cons o i ih =>
    cases bs with
    | nil =>
      simp only [List.cons_append, Matches, false_iff]
      intro h
      obtain ⟨us, vs, hu, -, h⟩ := h
      obtain ⟨rfl, rfl⟩ := List.append_eq_nil_iff.1 h.symm
      exact hu
    | cons b bs =>
      simp only [List.cons_append, Matches, ih]
      constructor
      · intro h
        obtain ⟨ho, us, vs, hu, hv, rfl⟩ := h
        exact ⟨b :: us, vs, ⟨ho, hu⟩, hv, rfl⟩
      · intro h
        obtain ⟨us, vs, hu, hv, h⟩ := h
        cases us with
        | nil => exact hu.elim
        | cons u us =>
          obtain ⟨rfl, rfl⟩ := List.cons.inj h
          exact ⟨hu.1, us, vs, hu.2, hv, rfl⟩

theorem Matches.length_eq {i : Image} (h : i.Matches bs) : bs.length = i.length := by
  induction i generalizing bs with
  | nil =>
    cases bs with
    | nil => rfl
    | cons b bs => exact h.elim
  | cons o i ih =>
    cases bs with
    | nil => exact h.elim
    | cons b bs => exact congrArg (· + 1) (ih h.2)

theorem matches_bytes (i : Image) : i.Matches i.bytes := by
  induction i with
  | nil => trivial
  | cons o i ih => cases o <;> exact ⟨by trivial, ih⟩

theorem matches_ofBytes {ws : Bytes} : (ofBytes ws).Matches bs ↔ bs = ws := by
  induction ws generalizing bs with
  | nil => exact matches_nil
  | cons w ws ih =>
    cases bs with
    | nil => simp [ofBytes, Matches]
    | cons b bs =>
      have h : (ofBytes ws).Matches bs ↔ bs = ws := ih
      simp only [ofBytes, List.map_cons, Matches, Octet.Admits, List.cons.injEq] at h ⊢
      rw [h, eq_comm]

theorem matches_pad {n : Nat} : (pad n).Matches bs ↔ bs.length = padLength n := by
  unfold pad
  generalize padLength n = k
  induction k generalizing bs with
  | zero => simp [matches_nil]
  | succ k ih => cases bs <;> simp [List.replicate_succ, Matches, Octet.Admits, ih]

theorem heads_nil : Heads [] bs rest ↔ bs = rest := by simp [Heads, matches_nil]

theorem heads_append {i j : Image} :
    (i ++ j).Heads bs rest ↔ ∃ mid, i.Heads bs mid ∧ j.Heads mid rest := by
  simp only [Heads, matches_append]
  constructor
  · intro h
    obtain ⟨_, ⟨us, vs, hu, hv, rfl⟩, rfl⟩ := h
    exact ⟨vs ++ rest, ⟨us, hu, List.append_assoc ..⟩, vs, hv, rfl⟩
  · intro h
    obtain ⟨_, ⟨us, hu, rfl⟩, vs, hv, rfl⟩ := h
    exact ⟨us ++ vs, ⟨us, vs, hu, hv, rfl⟩, (List.append_assoc ..).symm⟩

theorem heads_ofBytes {ws : Bytes} : (ofBytes ws).Heads bs rest ↔ bs = ws ++ rest := by
  simp [Heads, matches_ofBytes]

theorem heads_pad {n : Nat} :
    (pad n).Heads bs rest ↔ ∃ ps : Bytes, ps.length = padLength n ∧ bs = ps ++ rest := by
  simp [Heads, matches_pad]

theorem heads_bytes (i : Image) (rest : Bytes) : i.Heads (i.bytes ++ rest) rest :=
  ⟨i.bytes, i.matches_bytes, rfl⟩

theorem Heads.length_le {i : Image} (h : i.Heads bs rest) : rest.length ≤ bs.length := by
  obtain ⟨used, -, rfl⟩ := h
  simp

theorem length_ofBytes (ws : Bytes) : (ofBytes ws).length = ws.length := List.length_map _

theorem length_pad (n : Nat) : (pad n).length = padLength n := List.length_replicate

end Image

namespace Output

theorem image_append {a b : Output} (h : a.fault = none) : (a ++ b).image = a.image ++ b.image := by
  change (a.append b).image = _
  simp [append, h]

theorem fault_append {a b : Output} (h : a.fault = none) : (a ++ b).fault = b.fault := by
  change (a.append b).fault = _
  simp [append, h]

theorem append_assoc (a b c : Output) : a ++ b ++ c = a ++ (b ++ c) := by
  change (a.append b).append c = a.append (b.append c)
  obtain ⟨i, f⟩ := a
  obtain ⟨j, g⟩ := b
  cases f <;> cases g <;> simp [append]

theorem append_empty (a : Output) : a ++ empty = a := by
  change a.append empty = a
  obtain ⟨image, fault⟩ := a
  cases fault <;> simp [append, empty]

end Output

end Nfs3.Wire
