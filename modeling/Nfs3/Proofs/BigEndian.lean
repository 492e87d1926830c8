import Mathlib.Algebra.Group.Nat.Defs
import Mathlib.Data.List.Induction
import Nfs3.BigEndian

/-! Words and their bytes determine each other: a word read back is the number written, cut to the
width of the word, and bytes written back are the bytes read. -/
namespace Nfs3.BigEndian

theorem decode_encode (k n : Nat) : decode (encode k n) = n % 256 ^ k := by
  induction k generalizing n with
  | zero => simp [encode, decode, Nat.mod_one]
  | succ k ih =>
    rw [encode, decode_append_singleton, ih, Nat.pow_succ, Nat.mul_comm (256 ^ k),
      Nat.mod_mul, Nat.mul_comm (n / 256 % 256 ^ k)]
    simp [Nat.add_comm]

theorem decode_encode_of_lt {k n : Nat} (h : n < 256 ^ k) : decode (encode k n) = n := by
  rw [decode_encode, Nat.mod_eq_of_lt h]

theorem decode_lt (bs : Bytes) : decode bs < 256 ^ bs.length := by
  induction bs using List.reverseRecOn with
  | nil => simp [decode]
  | append_singleton bs b ih =>
    have hb : b.toNat < 256 := b.toNat_lt
    rw [decode_append_singleton, List.length_append, List.length_singleton, Nat.pow_succ]
    omega

theorem encode_decode (bs : Bytes) : encode bs.length (decode bs) = bs := by
  induction bs using List.reverseRecOn with
  | nil => rfl
  | append_singleton bs b ih =>
    have hb : b.toNat < 256 := b.toNat_lt
    have hq : (decode bs * 256 + b.toNat) / 256 = decode bs := by omega
    have hr : UInt8.ofNat (decode bs * 256 + b.toNat) = b := by
      apply UInt8.toNat_inj.1
      rw [UInt8.toNat_ofNat']
      omega
    rw [decode_append_singleton, List.length_append, List.length_singleton, encode, hq, hr, ih]

end Nfs3.BigEndian
