import Nfs3.MessageBuffer
import Nfs3.Proofs.Wire.Lawful

/-! Writing behind the last byte of a message: what is written appears there, in whole words if the
message was one of whole words before. -/
namespace Nfs3
open Wire
variable {α β : Type}

namespace Wire.Codec

/-- A value that can be written at all fits its length words, and fills whole words. -/
structure Writable (c : Codec α) (fits : α → Prop) : Prop where
  fits {v : α} : (c.write v).fault = none → fits v
  aligned {v : α} : (c.write v).fault = none → (c.write v).image.length % 4 = 0

theorem Lawful.writable {c : Codec α} (h : c.Lawful Always) : c.Writable Always where
  fits _ := trivial
  aligned _ := h.aligned trivial

/-- What is written is read again as the same value exactly if the value is well-formed. -/
theorem Lawful.decode_encode {c : Codec α} {ok : α → Prop} (h : c.Lawful ok) {v : α} :
    c.decode (c.encode v) = .ok v [] ↔ ok v := by
  have hi := Image.heads_bytes (c.write v).image []
  rw [List.append_nil] at hi
  exact h.read_iff.trans (and_iff_left hi)

theorem encode_pair {c : Codec α} {d : Codec β} {v : α} {u : β} (h : (c.write v).fault = none) :
    (c.pair d).encode (v, u) = c.encode v ++ d.encode u := by
  have hi : ((c.pair d).write (v, u)).image = (c.write v).image ++ (d.write u).image :=
    Output.image_append h
  simp only [Codec.encode, Output.bytes, hi, Image.bytes_append]

theorem encode_bytes {bs : Bytes} (h : bs.length ≤ maxLength) : Codec.bytes.encode bs =
    Codec.word.encode (UInt32.ofNat bs.length) ++ bs ++
      List.replicate (padLength bs.length) 0 := by
  have hw : (Codec.lengthWord.write bs.length).fault = none := Lawful.lengthWord.complete h
  have hi : (Codec.bytes.write bs).image = (Codec.lengthWord.write bs.length).image ++
      (Image.ofBytes bs ++ Image.pad bs.length) := Output.image_append hw
  have hb : (Image.ofBytes bs).bytes = bs := List.map_map.trans (List.map_id bs)
  have hp : (Image.pad bs.length).bytes = List.replicate (padLength bs.length) 0 := by
    simp [Image.pad, Image.bytes, Octet.byte]
  simp only [Codec.encode, Output.bytes, hi, Image.bytes_append, hb, hp,
    Lawful.lengthWord_write h, List.append_assoc]

namespace Writable
variable {c : Codec α} {d : Codec β} {fits : α → Prop} {fits' : β → Prop}

theorem of_append_fault {a b : Output} (h : (a ++ b).fault = none) :
    a.fault = none ∧ b.fault = none := by
  cases ha : a.fault with
  | none => exact ⟨rfl, by rwa [Output.fault_append ha] at h⟩
  | some fault =>
    change (a.append b).fault = none at h
    simp [Output.append, ha] at h

theorem pair (hc : c.Writable fits) (hd : d.Writable fits') :
    (c.pair d).Writable fun v => fits v.1 ∧ fits' v.2 where
  fits h := ⟨hc.fits (of_append_fault h).1, hd.fits (of_append_fault h).2⟩
  aligned {v} h := by
    obtain ⟨h1, h2⟩ := of_append_fault h
    have hl : ((c.pair d).write v).image = (c.write v.1).image ++ (d.write v.2).image :=
      Output.image_append h1
    have ha := hc.aligned h1
    have hb := hd.aligned h2
    rw [hl, List.length_append]
    omega

theorem iso (h : c.Writable fits) {make : α → β} {raw : β → α}
    (he : ∀ v, fits (raw v) → fits' v) : (c.iso make raw).Writable fits' where
  fits hv := he _ (h.fits hv)
  aligned hv := h.aligned hv

theorem bytes : Codec.bytes.Writable fun bs => bs.length ≤ maxLength := by
  have hf {vs : Bytes} (h : (Codec.bytes.write vs).fault = none) : vs.length ≤ maxLength := by
    by_contra hn
    have hl := (of_append_fault h).1
    simp [Codec.lengthWord, hn] at hl
  exact ⟨hf, fun h => Lawful.bytes.aligned (hf h)⟩

theorem text : Codec.text.Writable fun s => s.utf8ByteSize ≤ maxLength where
  fits h := by
    rw [← Text.length_toUtf8]
    exact bytes.fits h
  aligned h := bytes.aligned h

end Writable
end Wire.Codec

namespace MessageBuffer

def written (bs : Bytes) : MessageBuffer := { bytes := bs, position := bs.length }

theorem run_writeBytes (bs vs : Bytes) :
    (writeBytes vs).run (written bs) = .ok () (written (bs ++ vs)) := by
  have ho : (written bs).overwrite vs = written (bs ++ vs) := by
    simp [overwrite, written]
  unfold writeBytes
  cases vs with
  | nil => simp [EStateM.run_pure]
  | cons v vs =>
    rw [← ho]
    rfl

theorem run_put {c : Codec α} {v : α} (bs : Bytes) (h : (c.write v).fault = none) :
    (put c v).run (written bs) = .ok () (written (bs ++ c.encode v)) := by
  unfold put
  rw [EStateM.run_bind, run_writeBytes, h]
  rfl

theorem fault_of_put {c : Codec α} {v : α} {bs : Bytes} {b : MessageBuffer}
    (h : (put c v).run (written bs) = .ok () b) : (c.write v).fault = none := by
  unfold put at h
  rw [EStateM.run_bind, run_writeBytes] at h
  cases hf : (c.write v).fault with
  | none => rfl
  | some fault =>
    simp only [hf] at h
    cases h

def KeepsWords (t : Buffered Unit) : Prop :=
  ∀ bs b, bs.length % 4 = 0 → t.run (written bs) = .ok () b →
    ∃ vs, b = written vs ∧ vs.length % 4 = 0

theorem KeepsWords.bind {t : Buffered Unit} {u : Unit → Buffered Unit} (ht : KeepsWords t)
    (hu : KeepsWords (u ())) : KeepsWords (t >>= u) := by
  intro bs b hl h
  rw [EStateM.run_bind] at h
  cases hr : t.run (written bs) with
  | error e c =>
    rw [hr] at h
    cases h
  | ok _ c =>
    rw [hr] at h
    obtain ⟨vs, rfl, hv⟩ := ht bs c hl hr
    exact hu vs b hv h

theorem KeepsWords.put {c : Codec α} {fits : α → Prop} (hc : c.Writable fits) (v : α) :
    KeepsWords (put c v) := by
  intro bs b hl h
  have hf := fault_of_put h
  rw [run_put bs hf] at h
  cases h
  refine ⟨_, rfl, ?_⟩
  have ha := hc.aligned hf
  rw [List.length_append, Codec.encode, Output.bytes, Image.length_bytes]
  omega

theorem KeepsWords.putOpaque (vs : Bytes) : KeepsWords (putOpaque vs) := by
  intro bs b hl h
  unfold MessageBuffer.putOpaque at h
  by_cases hn : vs.length ≤ maxLength
  · rw [if_pos hn, EStateM.run_bind, run_put bs (Codec.Lawful.word.complete trivial)] at h
    simp only at h
    rw [EStateM.run_bind, run_writeBytes] at h
    simp only at h
    unfold align at h
    rw [EStateM.run_bind, EStateM.run_get] at h
    simp only at h
    rw [run_writeBytes] at h
    cases h
    refine ⟨_, rfl, ?_⟩
    rw [List.length_append, List.length_replicate]
    exact add_padLength_mod _
  · rw [if_neg hn] at h
    cases h

theorem foldl_push (segments : List Bytes) (b : MessageBuffer) : segments.foldl push b =
    { b with
      payloads := b.payloads ++ segments
      payloadLength := b.payloadLength + segments.flatten.length } := by
  induction segments generalizing b with
  | nil => simp
  | cons segment segments ih =>
    rw [List.foldl_cons, ih]
    simp [push, Nat.add_assoc]

theorem run_appendPayload (segments : List Bytes) (b : MessageBuffer) :
    (appendPayload segments).run b = .ok () { b with
      payloads := b.payloads ++ segments
      payloadLength := b.payloadLength + segments.flatten.length } := by
  rw [← foldl_push]
  rfl

def finalized (b : MessageBuffer) : MessageBuffer :=
  { b with terminalPadding := b.terminalPadding + padLength b.totalLength }

theorem run_finalizePayloads (b : MessageBuffer) :
    finalizePayloads.run b = .ok (padLength b.totalLength) b.finalized := rfl

/-- Transmitted are the bytes, the payload and zeros. -/
theorem flatten_segments (b : MessageBuffer) : b.segments.flatten =
    b.bytes ++ b.payloads.flatten ++ List.replicate b.terminalPadding 0 := by
  unfold segments
  cases b.terminalPadding <;> simp

theorem length_flatten_segments {b : MessageBuffer}
    (h : b.payloadLength = b.payloads.flatten.length) :
    b.segments.flatten.length = b.totalLength := by
  have hl := congrArg List.length (flatten_segments b)
  simp only [List.length_append, List.length_replicate] at hl
  rw [hl, totalLength, h]

theorem flatten_finalized (b : MessageBuffer) : b.finalized.segments.flatten =
    b.bytes ++ b.payloads.flatten ++
      List.replicate (b.terminalPadding + padLength b.totalLength) 0 :=
  flatten_segments b.finalized

theorem flatten_finalized_written {bs : Bytes} (h : bs.length % 4 = 0) :
    (written bs).finalized.segments.flatten = bs := by
  have hp : padLength (written bs).totalLength = 0 := by
    change padLength (bs.length + 0 + 0) = 0
    unfold padLength
    omega
  rw [flatten_finalized, hp]
  simp [written]

end MessageBuffer
end Nfs3
