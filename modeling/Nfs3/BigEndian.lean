/-! Big-endian words: a number as a fixed count of bytes, most significant first. -/
namespace Nfs3

abbrev Bytes := List UInt8

namespace BigEndian

def encode : Nat → Nat → Bytes
  | 0, _ => []
  | k + 1, n => encode k (n / 256) ++ [UInt8.ofNat n]

def decode (bs : Bytes) : Nat :=
  bs.foldl (fun n b => n * 256 + b.toNat) 0

@[simp] theorem length_encode (k n : Nat) : (encode k n).length = k := by
  induction k generalizing n with
  | zero => rfl
  | succ k ih => simp [encode, ih]

theorem decode_append_singleton (bs : Bytes) (b : UInt8) :
    decode (bs ++ [b]) = decode bs * 256 + b.toNat := by
  simp [decode]

end BigEndian

def segmentsLength (segments : List Bytes) : Nat := segments.foldl (fun n s => n + s.length) 0

theorem segmentsLength_eq (segments : List Bytes) :
    segmentsLength segments = segments.flatten.length := by
  suffices h : ∀ n, segments.foldl (fun n s => n + s.length) n = n + segments.flatten.length by
    simpa [segmentsLength] using h 0
  induction segments with
  | nil => simp
  | cons s segments ih =>
    intro n
    rw [List.foldl_cons, ih, List.flatten_cons, List.length_append, Nat.add_assoc]

/-- Zero bytes that move a length to the next multiple of four. -/
def padLength (n : Nat) : Nat := (4 - n % 4) % 4

theorem padLength_lt (n : Nat) : padLength n < 4 := Nat.mod_lt _ (by decide)

theorem add_padLength_mod (n : Nat) : (n + padLength n) % 4 = 0 := by
  unfold padLength; omega

end Nfs3
