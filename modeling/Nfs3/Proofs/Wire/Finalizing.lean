import Nfs3.Proofs.Wire.BufferRun

/-!
What stands behind the bytes of a message. Each time a message is finalized it is padded for what
came since the time before, and no padding is taken back. So a message that is finalized before the
last of its payload may end with more zeros than its length asks for.
-/
namespace Nfs3.MessageBuffer

inductive Closing where
  | append (segments : List Bytes)
  | finalize

namespace Closing

def operation : Closing → Operation
  | append segments => .appendPayload segments
  | finalize => .finalizePayloads

/-- How much was added before each finalizing since the one before it, if `n` bytes stand there at
the beginning and one more finalizing follows at the end. -/
def stretches (n : Nat) : List Closing → List Nat
  | [] => [n]
  | append segments :: steps => stretches (n + segmentsLength segments) steps
  | finalize :: steps => n :: stretches 0 steps

/-- The padding that each of these stretches needs by itself. -/
def padding (n : Nat) (steps : List Closing) : Nat := ((stretches n steps).map padLength).sum

def payload (steps : List Closing) : List Bytes := appendedAll (steps.map operation)

end Closing

def close (steps : List Closing) (b : MessageBuffer) : MessageBuffer :=
  performAll (steps.map Closing.operation ++ [.finalizePayloads]) b

open Closing
variable {b : MessageBuffer}

theorem close_nil (b : MessageBuffer) : close [] b = b.finalized := rfl

theorem close_append (segments : List Bytes) (steps : List Closing) (b : MessageBuffer) :
    close (.append segments :: steps) b =
      close steps { b with
        payloads := b.payloads ++ segments
        payloadLength := b.payloadLength + segmentsLength segments } := by
  rw [segmentsLength_eq, ← foldl_push]
  rfl

theorem close_finalize (steps : List Closing) (b : MessageBuffer) :
    close (.finalize :: steps) b = close steps b.finalized := rfl

theorem padLength_add {m : Nat} (hm : m % 4 = 0) (n : Nat) : padLength (m + n) = padLength n := by
  unfold padLength
  omega

theorem totalLength_append (b : MessageBuffer) (segments : List Bytes) :
    ({ b with
      payloads := b.payloads ++ segments
      payloadLength := b.payloadLength + segmentsLength segments } : MessageBuffer).totalLength =
      b.totalLength + segmentsLength segments := by
  simp only [totalLength]
  omega

theorem terminalPadding_close (steps : List Closing) {m n : Nat} (hm : m % 4 = 0)
    (hb : b.totalLength = m + n) :
    (close steps b).terminalPadding = b.terminalPadding + padding n steps := by
  induction steps generalizing b m n with
  | nil =>
    have hp : padLength b.totalLength = padLength n := by rw [hb, padLength_add hm]
    simp [close_nil, finalized, padding, stretches, hp]
  | cons step steps ih =>
    cases step with
    | append segments =>
      have hl := totalLength_append b segments
      rw [hb, Nat.add_assoc] at hl
      rw [close_append, ih hm hl]
      rfl
    | finalize =>
      have hp : padLength b.totalLength = padLength n := by rw [hb, padLength_add hm]
      have hf : b.finalized.terminalPadding = b.terminalPadding + padLength n := by
        rw [finalized, hp]
      rw [close_finalize, ih (totalLength_finalized b) (Nat.add_zero _).symm, hf, Nat.add_assoc]
      rfl

theorem bytes_close (steps : List Closing) (b : MessageBuffer) :
    (close steps b).bytes = b.bytes := by
  induction steps generalizing b with
  | nil => rfl
  | cons step steps ih =>
    cases step with
    | append segments =>
      rw [close_append, ih]
    | finalize => exact ih _

theorem grows_close (steps : List Closing) (b : MessageBuffer) :
    ∃ n, Grows b (close steps b) (payload steps) n := by
  have hp : appendedAll (steps.map operation ++ [.finalizePayloads]) = payload steps := by
    simp [payload, appendedAll, Operation.appended]
  rw [← hp]
  exact ⟨_, performAll_grows _ b⟩

theorem totalLength_close (steps : List Closing) (b : MessageBuffer) :
    (close steps b).totalLength % 4 = 0 := by
  rw [close, performAll_append]
  exact totalLength_finalized _

/-- Behind the bytes of a message and its payload stand the zeros that each stretch needs by itself,
and with them its length is a multiple of four. They are the zeros that the length of bytes and
payload needs just when they are fewer than four. -/
theorem close_pads_stretches (bs : Bytes) (position : Nat) (steps : List Closing) :
    let b := close steps { bytes := bs, position }
    let zeros := padding bs.length steps
    b.segments.flatten = bs ++ (payload steps).flatten ++ List.replicate zeros 0 ∧
    b.segments.flatten.length % 4 = 0 ∧
    (zeros = padLength (bs.length + (payload steps).flatten.length) ↔ zeros < 4) := by
  intro b zeros
  have hbytes : b.bytes = bs := bytes_close steps _
  obtain ⟨_, hg⟩ := grows_close steps { bytes := bs, position }
  have hpayloads : b.payloads = payload steps := hg.payloads
  have hzeros : b.terminalPadding = zeros :=
    (terminalPadding_close steps rfl (Nat.zero_add _).symm).trans (Nat.zero_add _)
  have hsent : b.segments.flatten =
      bs ++ (payload steps).flatten ++ List.replicate zeros 0 := by
    rw [flatten_segments, hbytes, hpayloads, hzeros]
  have hwords : b.segments.flatten.length % 4 = 0 := by
    rw [length_flatten_segments (hg.payloadLength_eq rfl)]
    exact totalLength_close steps _
  refine ⟨hsent, hwords, ?_⟩
  rw [hsent, List.length_append, List.length_append, List.length_replicate] at hwords
  have hlt := padLength_lt (bs.length + (payload steps).flatten.length)
  constructor
  · intro h
    omega
  · intro h
    unfold padLength
    omega

/-- Four bytes of payload need no padding, and get four zeros when the message is finalized after
the first of them. -/
theorem close_between_overpads :
    let once := close [.append [[0x61]], .append [[0x62, 0x63, 0x64]]] empty
    let twice := close [.append [[0x61]], .finalize, .append [[0x62, 0x63, 0x64]]] empty
    twice.bytes = once.bytes ∧ twice.payloads = once.payloads ∧
    padLength (twice.bytes.length + twice.payloadLength) = 0 ∧
    once.segments = [[], [0x61], [0x62, 0x63, 0x64]] ∧
    twice.segments = [[], [0x61], [0x62, 0x63, 0x64], [0, 0, 0, 0]] := by
  decide

end Nfs3.MessageBuffer
