import Mathlib.Data.List.Basic
import Nfs3.Wire.Reader

/-! When a reader succeeds, and what it takes off the front of its input. -/
namespace Nfs3.Wire.Reader
variable {α β : Type} {bs rest : Bytes}

theorem pure_eq_ok {a v : α} : (pure a : Reader α) bs = .ok v rest ↔ a = v ∧ bs = rest := by
  change EStateM.Result.ok a bs = _ ↔ _
  simp

theorem throw_ne_ok {fault : ReadFault} {v : α} :
    (throw fault : Reader α) bs ≠ .ok v rest := nofun

theorem bind_eq_ok {r : Reader α} {f : α → Reader β} {v : β} :
    (r >>= f) bs = .ok v rest ↔ ∃ a mid, r bs = .ok a mid ∧ f a mid = .ok v rest := by
  change EStateM.bind r f bs = _ ↔ _
  unfold EStateM.bind
  cases r bs <;> simp

theorem map_eq_ok {r : Reader α} {f : α → β} {v : β} :
    (f <$> r) bs = .ok v rest ↔ ∃ a, r bs = .ok a rest ∧ f a = v := by
  change EStateM.map f r bs = _ ↔ _
  unfold EStateM.map
  cases r bs <;> simp [and_comm]

theorem take_drop_iff {n : Nat} {v : Bytes} :
    (bs.take n).length = n ∧ bs.take n = v ∧ bs.drop n = rest ↔
      v.length = n ∧ bs = v ++ rest := by
  constructor
  · intro h
    obtain ⟨hn, rfl, rfl⟩ := h
    exact ⟨hn, (List.take_append_drop n bs).symm⟩
  · intro h
    obtain ⟨rfl, rfl⟩ := h
    simp

theorem exactly_eq_ok {n : Nat} {v : Bytes} :
    exactly n bs = .ok v rest ↔ v.length = n ∧ bs = v ++ rest := by
  rw [← take_drop_iff]
  unfold exactly
  split <;> simp_all

theorem declared_eq_ok {n : Nat} {v : Bytes} :
    declared n bs = .ok v rest ↔ v.length = n ∧ bs = v ++ rest := by
  rw [← take_drop_iff]
  unfold declared
  split <;> simp_all

theorem skipPadding_eq_ok {n : Nat} {v : Unit} :
    skipPadding n bs = .ok v rest ↔ ∃ ps : Bytes, ps.length = padLength n ∧ bs = ps ++ rest := by
  unfold skipPadding
  simp [map_eq_ok, exactly_eq_ok]

end Nfs3.Wire.Reader
