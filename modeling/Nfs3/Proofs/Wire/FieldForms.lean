import Nfs3.Proofs.Wire.Offset
import Nfs3.Proofs.Wire.Overwrite

/-!
Fields of variable length have two forms: the buffer pads its own up to a multiple of four of the
whole message, a codec by the length of the field. At a cursor on a word they are the same.
-/
namespace Nfs3

namespace Wire
open Reader

theorem wordAt_of_drop {bs tail : Bytes} {p : Nat} {w : UInt32}
    (h : bs.drop p = Codec.word.encode w ++ tail) :
    wordAt bs p = some w ∧ bs.drop (p + 4) = tail := by
  apply read_word_eq_ok.1
  rw [h]
  exact Codec.Lawful.word.read_iff.2 ⟨trivial, Image.heads_bytes _ tail⟩

theorem Codec.read_text_eq_ok {bs rest : Bytes} {s : String} :
    Codec.text.read bs = .ok s rest ↔ Codec.bytes.read bs = .ok (Text.toUtf8 s) rest := by
  simp only [Codec.text, Codec.refine, bind_eq_ok]
  constructor
  · intro h
    obtain ⟨d, mid, hd, h⟩ := h
    cases hs : Text.ofUtf8? d with
    | none =>
      rw [hs] at h
      exact (throw_ne_ok h).elim
    | some u =>
      rw [hs] at h
      obtain ⟨rfl, rfl⟩ := pure_eq_ok.1 h
      rwa [Text.ofUtf8?_eq_some.1 hs]
  · intro h
    refine ⟨_, rest, h, ?_⟩
    rw [Text.ofUtf8?_eq_some.2 rfl]
    rfl

end Wire

namespace MessageBuffer
open Wire
variable {α : Type} {b b' : MessageBuffer} {d : Bytes}

/-- What the buffer writes at an offset: length, bytes, and padding up to a word of the message. -/
def fieldAt (p : Nat) (d : Bytes) : Bytes :=
  Codec.word.encode (UInt32.ofNat d.length) ++
    (d ++ List.replicate (padLength (p + 4 + d.length)) 0)

theorem length_fieldAt (p : Nat) (d : Bytes) :
    (fieldAt p d).length = 4 + (d.length + padLength (p + 4 + d.length)) := by
  simp [fieldAt]

theorem fieldAt_append (p : Nat) (d rest : Bytes) :
    fieldAt p d ++ rest = Codec.word.encode (UInt32.ofNat d.length) ++
      (d ++ (List.replicate (padLength (p + 4 + d.length)) 0 ++ rest)) := by
  simp only [fieldAt, List.append_assoc]

theorem fieldAt_of_aligned {p : Nat} (hp : p % 4 = 0) (hd : d.length ≤ maxLength) :
    fieldAt p d = Codec.bytes.encode d := by
  have hk : padLength (p + 4 + d.length) = padLength d.length := by
    unfold padLength
    omega
  rw [Codec.encode_bytes hd, fieldAt, hk, List.append_assoc]

theorem run_putOpaque (hwf : b.WellFormed) (hb : b.isSealed = false)
    (hd : d.length ≤ maxLength) :
    (putOpaque d).run b = .ok () (b.overwrite (fieldAt b.position d)) := by
  let word := Codec.word.encode (UInt32.ofNat d.length)
  have hw : (put .word (UInt32.ofNat d.length)).run b = .ok () (b.overwrite word) :=
    run_put_of_open hb rfl
  have hc : (b.overwrite word).isSealed = false := hb
  have he : ((b.overwrite word).overwrite d).isSealed = false := hb
  have hp : ((b.overwrite word).overwrite d).pendingPadding =
      padLength (b.position + 4 + d.length) := by
    have hwf' := ((Grows.overwrite hb word).trans (Grows.overwrite hc d)).wellFormed hwf
    rw [pendingPadding_eq hwf' he]
    simp only [overwrite, word, Codec.length_encode_word]
  unfold putOpaque align
  rw [if_pos hd, EStateM.run_bind, hw]
  simp only
  rw [EStateM.run_bind, run_writeBytes_of_open hc]
  simp only
  rw [EStateM.run_bind, EStateM.run_get]
  simp only
  rw [hp, run_writeBytes_of_open he, overwrite_overwrite, overwrite_overwrite, fieldAt]

theorem run_getOpaque_eq_ok (hm : b.bytes.length + 4 ≤ UInt64.size) :
    getOpaque.run b = .ok d b' ↔ ∃ n : UInt32, wordAt b.bytes b.position = some n ∧
      b.position + 4 + n.toNat + padLength (b.position + 4 + n.toNat) ≤ b.bytes.length ∧
      (b.bytes.drop (b.position + 4)).take n.toNat = d ∧
      b' = { b with
        position := b.position + 4 + n.toNat + padLength (b.position + 4 + n.toNat) } := by
  unfold getOpaque
  rw [EStateM.run_bind, run_fetch_word]
  cases hw : wordAt b.bytes b.position with
  | none => simp
  | some n =>
    have hl := le_of_wordAt hw
    simp only [EStateM.run_bind, EStateM.run_get, remaining, Option.some.injEq]
    by_cases hn : n.toNat > b.bytes.length - (b.position + 4)
    · simp only [hn, if_true, malformed, run_raise, reduceCtorEq, false_iff]
      intro h
      obtain ⟨_, rfl, he, -⟩ := h
      omega
    · have hs := run_skip_of_small (b := { b with position := b.position + 4 }) (n := n)
        (by simp only; omega)
      simp only [hn, if_false, EStateM.run_bind, hs]
      by_cases he : b.bytes.length <
          b.position + 4 + n.toNat + padLength (b.position + 4 + n.toNat)
      · have hle := Nat.not_le.2 he
        simp [he, hle]
      · have hle := Nat.not_lt.1 he
        simp [he, hle, EStateM.run_pure, eq_comm]

theorem run_fetch_bytes_eq_ok : (fetch .bytes).run b = .ok d b' ↔
    ∃ n : UInt32, wordAt b.bytes b.position = some n ∧
      fieldEnd (b.position + 4) n ≤ b.bytes.length ∧
      (b.bytes.drop (b.position + 4)).take n.toNat = d ∧
      b' = { b with position := fieldEnd (b.position + 4) n } := by
  rw [fetch_eq_ok_iff]
  simp only [Codec.decode, EStateM.run, read_bytes_eq_ok]
  constructor
  · intro h
    obtain ⟨_, ⟨n, hn, he, hd, rfl⟩, rfl⟩ := h
    refine ⟨n, hn, he, hd, ?_⟩
    simp only [leave, List.length_drop, mk.injEq, and_self, and_true, true_and]
    omega
  · intro h
    obtain ⟨n, hn, he, hd, rfl⟩ := h
    refine ⟨_, ⟨n, hn, he, hd, rfl⟩, ?_⟩
    simp only [leave, List.length_drop, mk.injEq, and_self, and_true, true_and]
    omega

theorem run_getString_eq_ok {s : String} :
    getString.run b = .ok s b' ↔ getOpaque.run b = .ok (Text.toUtf8 s) b' := by
  unfold getString
  rw [EStateM.run_bind]
  cases getOpaque.run b with
  | error e c => simp
  | ok d c =>
    simp only [EStateM.Result.ok.injEq, eq_comm (a := d), ← Text.ofUtf8?_eq_some]
    cases Text.ofUtf8? d with
    | none => simp [malformed]
    | some u => simp [EStateM.run_pure]

theorem run_fetch_text_eq_ok {s : String} :
    (fetch .text).run b = .ok s b' ↔ (fetch .bytes).run b = .ok (Text.toUtf8 s) b' := by
  rw [fetch_eq_ok_iff, fetch_eq_ok_iff]
  simp only [Codec.decode, EStateM.run, Codec.read_text_eq_ok]

theorem setPosition_then {β : Type} {t : Buffered α} {u : Buffered β} {v : α} {w : β} {p : Nat}
    (h : (do
      setPosition p
      t).run b = .ok v b')
    (hu : ∀ c, t.run c = .ok v b' → u.run c = .ok w b') :
    (do
      setPosition p
      u).run b = .ok w b' := by
  rw [EStateM.run_bind] at h ⊢
  cases hs : (setPosition p).run b with
  | error e c =>
    rw [hs] at h
    cases h
  | ok _ c =>
    rw [hs] at h
    exact hu c h

section Written
variable (hp : b.position ≤ b.bytes.length) (hm : b.bytes.length < 2 ^ 63)
  (hd : d.length ≤ maxLength)
include hp hm hd

/-- The buffer gets back what it put, at any offset, and stops where it stopped. -/
theorem run_getOpaque_putOpaque :
    getOpaque.run { b.overwrite (fieldAt b.position d) with position := b.position } =
      .ok d (b.overwrite (fieldAt b.position d)) := by
  have hl := length_overwrite_eq_max hp (fieldAt b.position d)
  have hf := length_fieldAt b.position d
  have hk := padLength_lt (b.position + 4 + d.length)
  have hn : (UInt32.ofNat d.length).toNat = d.length :=
    UInt32.toNat_ofNat_of_lt' (Nat.lt_of_le_sub_one (by decide) hd)
  have hs : maxLength = 2 ^ 32 - 1 := rfl
  have hz : UInt64.size = 2 ^ 64 := rfl
  obtain ⟨hw, ht⟩ := wordAt_of_drop <|
    (drop_position_overwrite hp (fieldAt b.position d)).trans (fieldAt_append _ d _)
  apply (run_getOpaque_eq_ok (by simp only; omega)).2
  refine ⟨_, hw, ?_, ?_, ?_⟩
  · simp only [hn]
    omega
  · simp only [ht, hn, List.take_left]
  · simp only [overwrite, hn, hf, mk.injEq, and_true, true_and]
    omega

end Written

/-- The two forms of a kind of field: what the buffer puts and gets, and the codec of the type. -/
structure FieldForms (α : Type) where
  put : α → Buffered Unit
  get : Buffered α
  codec : Codec α
  length : α → Nat

namespace FieldForms

def opaques : FieldForms Bytes := ⟨putOpaque, getOpaque, .bytes, List.length⟩

def strings : FieldForms String := ⟨putString, getString, .text, String.utf8ByteSize⟩

/-- How the two forms compare at a cursor, for fields whose length a word can hold. -/
structure Compared (f : FieldForms α) (b : MessageBuffer) : Prop where
  put_eq {v : α} : b.position % 4 = 0 → f.length v < 2 ^ 32 → ∃ b',
    (f.put v).run b = .ok () b' ∧ (MessageBuffer.put f.codec v).run b = .ok () b'
  get_iff {v : α} {b' : MessageBuffer} : b.position % 4 = 0 →
    (f.get.run b = .ok v b' ↔ (fetch f.codec).run b = .ok v b')
  get_put {v : α} : f.length v < 2 ^ 32 → ∃ b', (f.put v).run b = .ok () b' ∧
    (do
      setPosition b.position
      f.get).run b' = .ok v b'
  fetch_put {v : α} : f.length v < 2 ^ 32 → ∃ b',
    (MessageBuffer.put f.codec v).run b = .ok () b' ∧
    (do
      setPosition b.position
      fetch f.codec).run b' = .ok v b'
  put_ne {v : α} : b.position % 4 ≠ 0 → f.length v < 2 ^ 32 → ∃ b₁ b₂,
    (f.put v).run b = .ok () b₁ ∧ (MessageBuffer.put f.codec v).run b = .ok () b₂ ∧
    b₁.position ≠ b₂.position

theorem opaques_compared (hw : b.WellFormed) (hb : b.isSealed = false)
    (hm : b.bytes.length < 2 ^ 63) : opaques.Compared b := by
  have hp := hw.position_le
  have hmax {d : Bytes} (h : d.length < 2 ^ 32) : d.length ≤ maxLength := Nat.le_sub_one_of_lt h
  have hput {d : Bytes} (h : d.length < 2 ^ 32) :
      (MessageBuffer.put .bytes d).run b = .ok () (b.overwrite (Codec.bytes.encode d)) :=
    run_put_of_open hb (Codec.Lawful.bytes.complete (hmax h))
  have hback (vs : Bytes) : b.position ≤ (b.overwrite vs).bytes.length := by
    have hl := length_overwrite_eq_max hp vs
    omega
  refine ⟨fun {d} ha hd => ?_, fun {d b'} ha => ?_, fun {d} hd => ?_, fun {d} hd => ?_,
    fun {d} ha hd => ?_⟩
  · refine ⟨_, run_putOpaque hw hb (hmax hd), ?_⟩
    rw [fieldAt_of_aligned ha (hmax hd)]
    exact hput hd
  · have he (n : UInt32) : b.position + 4 + n.toNat + padLength (b.position + 4 + n.toNat) =
        fieldEnd (b.position + 4) n := by
      unfold fieldEnd padLength
      omega
    have hz : UInt64.size = 2 ^ 64 := rfl
    change getOpaque.run b = _ ↔ (fetch .bytes).run b = _
    rw [run_getOpaque_eq_ok (by omega), run_fetch_bytes_eq_ok]
    simp only [he]
  · refine ⟨_, run_putOpaque hw hb (hmax hd), ?_⟩
    rw [EStateM.run_bind, run_setPosition (hback _)]
    exact run_getOpaque_putOpaque hp hm (hmax hd)
  · refine ⟨_, hput hd, ?_⟩
    rw [EStateM.run_bind, run_setPosition (hback _)]
    exact fetch_eq_ok (hback _) (drop_position_overwrite hp _) <|
      Codec.Lawful.bytes.read_iff.2 ⟨hmax hd, Image.heads_bytes _ _⟩
  · refine ⟨_, _, run_putOpaque hw hb (hmax hd), hput hd, ?_⟩
    simp only [overwrite, length_fieldAt, Codec.length_encode_bytes (hmax hd)]
    unfold padLength
    omega

theorem Compared.strings (h : opaques.Compared b) : strings.Compared b where
  put_eq ha hs := h.put_eq ha hs
  get_iff ha := run_getString_eq_ok.trans <| (h.get_iff ha).trans run_fetch_text_eq_ok.symm
  get_put {s} hs := by
    obtain ⟨b', hw, hr⟩ := h.get_put (v := Text.toUtf8 s) hs
    exact ⟨b', hw, setPosition_then hr fun _ => run_getString_eq_ok.2⟩
  fetch_put {s} hs := by
    obtain ⟨b', hw, hr⟩ := h.fetch_put (v := Text.toUtf8 s) hs
    exact ⟨b', hw, setPosition_then hr fun _ => run_fetch_text_eq_ok.2⟩
  put_ne ha hs := h.put_ne ha hs

/-- In an open buffer the two forms of opaque data, and of text, put and get the same at a cursor on
a word. At any other they end apart, and at every cursor each form gets back what it put. A buffer
in memory is shorter than half the range of a machine word. -/
theorem opaques_and_strings_compared (hw : b.WellFormed) (hb : b.isSealed = false)
    (hm : b.bytes.length < 2 ^ 63) : opaques.Compared b ∧ strings.Compared b :=
  have h := opaques_compared hw hb hm
  ⟨h, h.strings⟩

def oddBuffer : MessageBuffer := { ofBytes [9] with position := 1 }

theorem opaques_and_strings_compared_oddBuffer :
    (opaques.Compared oddBuffer ∧ strings.Compared oddBuffer) ∧
    (putOpaque [7]).run oddBuffer = .ok () ⟨[9, 0, 0, 0, 1, 7, 0, 0], 8, [], 0, 0⟩ ∧
    (MessageBuffer.put .bytes [7]).run oddBuffer =
      .ok () ⟨[9, 0, 0, 0, 1, 7, 0, 0, 0], 9, [], 0, 0⟩ :=
  ⟨opaques_and_strings_compared ⟨by decide, rfl⟩ rfl (by decide), rfl, rfl⟩

end FieldForms
end MessageBuffer
end Nfs3
