import Nfs3.FileTime

/-!
Local times in the range of the protocol. Seconds are clamped into it at both ends, nanoseconds only
at the lower one. So times keep their order unless both reach the last second of the range: there
and beyond they are told apart by their nanoseconds alone.
-/
namespace Nfs3

namespace NfsTime
variable {a b : NfsTime}

/-- Seconds are compared first, then nanoseconds. -/
instance : LE NfsTime where
  le a b := a.seconds < b.seconds ∨ a.seconds = b.seconds ∧ a.nanoseconds ≤ b.nanoseconds

instance (a b : NfsTime) : Decidable (a ≤ b) := inferInstanceAs (Decidable (_ ∨ _))

def lastSecond : Nat := UInt32.size - 1

theorem le_iff_toNat : a ≤ b ↔ a.seconds.toNat < b.seconds.toNat ∨
    a.seconds.toNat = b.seconds.toNat ∧ a.nanoseconds.toNat ≤ b.nanoseconds.toNat := by
  change _ < _ ∨ _ = _ ∧ _ ≤ _ ↔ _
  rw [UInt32.lt_iff_toNat_lt, UInt32.le_iff_toNat_le, UInt32.toNat_inj]

theorem eq_of_toNat (hs : a.seconds.toNat = b.seconds.toNat)
    (hn : a.nanoseconds.toNat = b.nanoseconds.toNat) : a = b := by
  obtain ⟨s, n⟩ := a
  obtain ⟨s', n'⟩ := b
  obtain rfl : s = s' := UInt32.toNat_inj.1 hs
  obtain rfl : n = n' := UInt32.toNat_inj.1 hn
  rfl

theorem seconds_le (t : NfsTime) : t.seconds.toNat ≤ lastSecond :=
  Nat.le_sub_one_of_lt t.seconds.toNat_lt

end NfsTime

namespace FileTime
open NfsTime
variable {a b : FileTime}

/-- Seconds are compared first, then nanoseconds. -/
instance : LE FileTime where
  le a b := a.seconds < b.seconds ∨ a.seconds = b.seconds ∧ a.nanoseconds ≤ b.nanoseconds

instance (a b : FileTime) : Decidable (a ≤ b) := inferInstanceAs (Decidable (_ ∨ _))

theorem le_iff_toNat : a ≤ b ↔ a.seconds < b.seconds ∨
    a.seconds = b.seconds ∧ a.nanoseconds.toNat ≤ b.nanoseconds.toNat := by
  change _ < _ ∨ _ = _ ∧ _ ≤ _ ↔ _
  rw [UInt32.le_iff_toNat_le]

theorem toNat_seconds_toNfsTime (t : FileTime) :
    t.toNfsTime.seconds.toNat = min t.seconds.toNat lastSecond :=
  UInt32.toNat_ofNat_of_lt' (Nat.lt_of_le_of_lt (Nat.min_le_right ..) (by decide))

theorem toNat_nanoseconds_toNfsTime (t : FileTime) :
    t.toNfsTime.nanoseconds.toNat = if t.seconds < 0 then 0 else t.nanoseconds.toNat := by
  unfold toNfsTime
  split <;> rfl

theorem toNfsTime_ofNfsTime (t : NfsTime) : (ofNfsTime t).toNfsTime = t := by
  have hs : (ofNfsTime t).seconds = t.seconds.toNat := rfl
  have hl := t.seconds_le
  apply NfsTime.eq_of_toNat
  · rw [toNat_seconds_toNfsTime, hs]
    omega
  · rw [toNat_nanoseconds_toNfsTime, if_neg (by omega)]
    rfl

theorem ofNfsTime_toNfsTime_iff (t : FileTime) :
    ofNfsTime t.toNfsTime = t ↔ 0 ≤ t.seconds ∧ t.seconds ≤ lastSecond := by
  have hs := toNat_seconds_toNfsTime t
  constructor
  · intro h
    have hi : (t.toNfsTime.seconds.toNat : Int) = t.seconds := congrArg seconds h
    omega
  · intro h
    obtain ⟨hz, hl⟩ := h
    have hi : (t.toNfsTime.seconds.toNat : Int) = t.seconds := by omega
    have hn : t.toNfsTime.nanoseconds = t.nanoseconds := if_neg (by omega)
    obtain ⟨s, n⟩ := t
    exact (FileTime.mk.injEq ..).mpr ⟨hi, hn⟩

/-- Every time of the protocol comes back unchanged from the local time it is, and local times come
back unchanged just when they lie in its range; seconds are clamped into that range. Two times come
out in the wrong order just when both reach its last second and the one that is later by its seconds
has fewer nanoseconds. -/
theorem toNfsTime_clamps_seconds (a b : FileTime) :
    (∀ t : NfsTime, (ofNfsTime t).toNfsTime = t) ∧
    (ofNfsTime a.toNfsTime = a ↔ 0 ≤ a.seconds ∧ a.seconds ≤ lastSecond) ∧
    (a.toNfsTime.seconds.toNat : Int) = max 0 (min a.seconds lastSecond) ∧
    (a ≤ b ∧ ¬ a.toNfsTime ≤ b.toNfsTime ↔
      lastSecond ≤ a.seconds ∧ a.seconds < b.seconds ∧ b.nanoseconds < a.nanoseconds) := by
  have hsa := toNat_seconds_toNfsTime a
  have hsb := toNat_seconds_toNfsTime b
  have hna := toNat_nanoseconds_toNfsTime a
  have hnb := toNat_nanoseconds_toNfsTime b
  refine ⟨toNfsTime_ofNfsTime, ofNfsTime_toNfsTime_iff a, by omega, ?_⟩
  rw [le_iff_toNat, NfsTime.le_iff_toNat, UInt32.lt_iff_toNat_lt]
  split at hna <;> split at hnb <;> omega

/-- The first time beyond the range comes out before the last one inside it, whose nanoseconds it
does not have. -/
theorem toNfsTime_reverses_at_end :
    let last : FileTime := ⟨4294967295, 999999999⟩
    let next : FileTime := ⟨4294967296, 0⟩
    last ≤ next ∧ ¬ last.toNfsTime ≤ next.toNfsTime ∧
    last.toNfsTime = ⟨4294967295, 999999999⟩ ∧ next.toNfsTime = ⟨4294967295, 0⟩ := by
  decide

end FileTime

end Nfs3
