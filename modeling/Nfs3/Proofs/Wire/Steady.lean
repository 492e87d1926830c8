import Nfs3.Failure
import Nfs3.Proofs.Wire.Reader
import Nfs3.Wire.Field

/-!
What a reader has decided stays as it is when its input goes on. Only a reader that ran out of input
may come to something else when there is more. Every way to build a codec from others keeps this.
-/
namespace Nfs3.Wire

/-- The faults of an input that ends too early. -/
def ReadFault.OutOfInput : ReadFault → Prop
  | .endOfInput | .shortOpaque => True
  | _ => False

theorem ReadFault.outOfInput_iff (fault : ReadFault) :
    fault.OutOfInput ↔ (IoFailure.ofRead fault).kind = .unexpectedEof := by
  cases fault <;> simp [OutOfInput, IoFailure.ofRead]

namespace Reader
variable {α β : Type} {r s : Reader α}

theorem bind_eq_error {f : α → Reader β} {fault : ReadFault} {bs left : Bytes} :
    (r >>= f) bs = .error fault left ↔
      r bs = .error fault left ∨ ∃ a mid, r bs = .ok a mid ∧ f a mid = .error fault left := by
  change EStateM.bind r f bs = _ ↔ _
  unfold EStateM.bind
  cases r bs <;> simp

/-- What `r` decides about an input, `s` decides about every longer one. -/
structure Persists (r s : Reader α) : Prop where
  ok {bs rest : Bytes} {v : α} :
    r bs = .ok v rest → ∀ more, s (bs ++ more) = .ok v (rest ++ more)
  fault {bs left : Bytes} {fault : ReadFault} :
    r bs = .error fault left → ¬ fault.OutOfInput →
      ∀ more, s (bs ++ more) = .error fault (left ++ more)

def Steady (r : Reader α) : Prop := Persists r r

theorem Persists.bind {f g : α → Reader β} (h : Persists r s) (hf : ∀ a, Persists (f a) (g a)) :
    Persists (r >>= f) (s >>= g) where
  ok hr more := by
    obtain ⟨a, mid, ha, hb⟩ := bind_eq_ok.1 hr
    exact bind_eq_ok.2 ⟨a, mid ++ more, h.ok ha more, (hf a).ok hb more⟩
  fault hr hn more := by
    apply bind_eq_error.2
    obtain ha | ⟨a, mid, ha, hb⟩ := bind_eq_error.1 hr
    · exact .inl (h.fault ha hn more)
    · exact .inr ⟨a, mid ++ more, h.ok ha more, (hf a).fault hb hn more⟩

/-- Who only runs out of input has decided nothing. -/
theorem Persists.of_outOfInput {fault : ReadFault} (h : fault.OutOfInput) :
    Persists (throw fault) s where
  ok hr := (throw_ne_ok hr).elim
  fault hr hn := by
    cases hr
    exact (hn h).elim

namespace Steady

theorem pure (v : α) : Steady (Pure.pure v) where
  ok hr more := by
    obtain ⟨rfl, rfl⟩ := pure_eq_ok.1 hr
    rfl
  fault hr := by cases hr

theorem throw (fault : ReadFault) : Steady (MonadExcept.throw fault : Reader α) where
  ok hr := (throw_ne_ok hr).elim
  fault hr _ more := by
    cases hr
    rfl

theorem bind {f : α → Reader β} (h : Steady r) (hf : ∀ a, Steady (f a)) : Steady (r >>= f) :=
  Persists.bind h hf

theorem map (f : α → β) (h : Steady r) : Steady (f <$> r) := by
  rw [map_eq_pure_bind]
  exact h.bind fun a => pure (f a)

theorem exactly (n : Nat) : Steady (Reader.exactly n) where
  ok hr more := by
    obtain ⟨hn, rfl⟩ := exactly_eq_ok.1 hr
    exact exactly_eq_ok.2 ⟨hn, by simp⟩
  fault {bs left fault} hr hn := by
    unfold Reader.exactly at hr
    split at hr
    · cases hr
    · cases hr
      exact (hn trivial).elim

theorem declared (n : Nat) : Steady (Reader.declared n) where
  ok hr more := by
    obtain ⟨hn, rfl⟩ := declared_eq_ok.1 hr
    exact declared_eq_ok.2 ⟨hn, by simp⟩
  fault {bs left fault} hr hn := by
    unfold Reader.declared at hr
    split at hr
    · cases hr
    · cases hr
      exact (hn trivial).elim

theorem skipPadding (n : Nat) : Steady (Reader.skipPadding n) :=
  (exactly _).bind fun _ => pure ()

theorem times (h : Steady r) (n : Nat) : Steady (Reader.times r n) := by
  induction n with
  | zero => exact pure []
  | succ n ih => exact h.bind fun x => ih.bind fun xs => pure (x :: xs)

end Steady

theorem Persists.chainWithin {more : Reader Bool} {item : Reader α} (hm : Steady more)
    (hi : Steady item) {n k : Nat} (h : n ≤ k) :
    Persists (chainWithin more item n) (chainWithin more item k) := by
  induction n generalizing k with
  | zero => exact of_outOfInput trivial
  | succ n ih =>
    obtain ⟨k, rfl⟩ : ∃ m, k = m + 1 := ⟨k - 1, by omega⟩
    refine bind hm fun announced => ?_
    cases announced with
    | false => exact Steady.pure []
    | true => exact bind hi fun x => (ih (by omega)).bind fun xs => Steady.pure (x :: xs)

theorem Steady.chain {more : Reader Bool} {item : Reader α} (hm : Steady more)
    (hi : Steady item) : Steady (Reader.chain more item) := by
  have h (bs extra : Bytes) : Persists (chainWithin more item (bs.length + 1))
      (chainWithin more item ((bs ++ extra).length + 1)) := by
    apply Persists.chainWithin hm hi
    simp
  exact ⟨fun hr extra => (h _ extra).ok hr extra, fun hr hn extra => (h _ extra).fault hr hn extra⟩

end Reader

namespace Codec
variable {α β τ : Type} {c : Codec α} {d : Codec β}

def Steady (c : Codec α) : Prop := c.read.Steady

namespace Steady
open Reader

theorem void : Codec.void.Steady := Reader.Steady.pure ()

theorem pair (hc : c.Steady) (hd : d.Steady) : (c.pair d).Steady :=
  hc.bind fun x => hd.bind fun y => .pure (x, y)

theorem iso (h : c.Steady) {make : α → β} {raw : β → α} : (c.iso make raw).Steady :=
  h.map make

theorem refine (h : c.Steady) {check : α → Except ReadFault β} {raw : β → α} :
    (c.refine check raw).Steady := by
  refine h.bind fun a => ?_
  cases check a with
  | ok v => exact .pure v
  | error fault => exact .throw fault

theorem union {t : Codec τ} (ht : t.Steady) {arm : τ → Reader α} (hr : c.read = t.read >>= arm)
    (harm : ∀ w, (arm w).Steady) : c.Steady := by
  unfold Codec.Steady
  rw [hr]
  exact ht.bind harm

theorem word : Codec.word.Steady := (Reader.Steady.exactly 4).map _

theorem hyper : Codec.hyper.Steady := (Reader.Steady.exactly 8).map _

theorem signedWord : Codec.signedWord.Steady := word.iso

theorem signedHyper : Codec.signedHyper.Steady := hyper.iso

theorem binary32 : Codec.binary32.Steady := word.iso

theorem binary64 : Codec.binary64.Steady := hyper.iso

theorem bool : Codec.bool.Steady := word.refine

theorem enumeration [Enumeration α] : (Codec.enumeration α).Steady := word.refine

theorem lengthWord : Codec.lengthWord.Steady := word.map _

theorem bytes : Codec.bytes.Steady :=
  lengthWord.bind fun n => (Reader.Steady.declared n).bind fun bs =>
    (Reader.Steady.skipPadding n).bind fun _ => .pure bs

theorem fixedBytes (n : Nat) : (Codec.fixedBytes n).Steady := by
  refine (Reader.Steady.exactly n).bind fun bs => (Reader.Steady.skipPadding n).bind fun _ => ?_
  by_cases h : bs.length = n
  · simpa [h] using Reader.Steady.pure _
  · simpa [h] using Reader.Steady.throw _

theorem text : Codec.text.Steady := bytes.refine

theorem array (h : c.Steady) : c.array.Steady :=
  lengthWord.bind fun n => Reader.Steady.times h n

theorem vector (h : c.Steady) (n : Nat) : (c.vector n).Steady := by
  refine (Reader.Steady.times h n).bind fun xs => ?_
  by_cases hn : xs.length = n
  · simpa [hn] using Reader.Steady.pure _
  · simpa [hn] using Reader.Steady.throw _

theorem optional (h : c.Steady) : c.optional.Steady := by
  refine bool.bind fun present => ?_
  cases present with
  | false => exact .pure none
  | true => exact h.bind fun v => .pure (some v)

theorem chain (h : c.Steady) : c.chain.Steady := Reader.Steady.chain bool h

/-- A value is taken from no part of the bytes it stands in, and a part that is cut off is missed
as such. -/
theorem decode_of_cut (h : c.Steady) {v : α} {cut lost rest : Bytes} (hl : lost ≠ [])
    (hv : c.decode (cut ++ (lost ++ rest)) = .ok v rest) :
    ∃ fault left, c.decode cut = .error fault left ∧ fault.OutOfInput := by
  cases hc : c.decode cut with
  | ok w left =>
    have hw : c.decode (cut ++ (lost ++ rest)) = .ok w (left ++ (lost ++ rest)) := h.ok hc _
    rw [hv] at hw
    have hn := congrArg List.length (EStateM.Result.ok.inj hw).2
    simp only [List.length_append] at hn
    exact (hl (List.length_eq_zero_iff.1 (by omega))).elim
  | error fault left =>
    refine ⟨fault, left, rfl, ?_⟩
    by_contra hn
    have hw : c.decode (cut ++ (lost ++ rest)) = .error fault (left ++ (lost ++ rest)) :=
      h.fault hc hn _
    rw [hv] at hw
    cases hw

end Steady
end Codec
end Nfs3.Wire
