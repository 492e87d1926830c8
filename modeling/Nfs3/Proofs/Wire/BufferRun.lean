import Mathlib.Algebra.GroupWithZero.Nat
import Nfs3.Proofs.Wire.Buffer
import Nfs3.Proofs.Wire.Writer

/-!
Everything a buffer can be asked to do, in any order. Whatever the single operations come to, the
cursor stays inside the bytes, payload is only ever appended, and its first segment seals the bytes.
-/
namespace Nfs3.MessageBuffer
open Wire
variable {α β : Type}

/-- How a buffer comes about. -/
inductive Origin where
  | default
  | withCapacity (n : Nat)
  | received (bs : Bytes)

def Origin.buffer : Origin → MessageBuffer
  | .default | .withCapacity _ => empty
  | .received bs => ofBytes bs

/-- What can be asked of a buffer. Numbers and typed values are put and fetched by their codecs. -/
inductive Operation : Type 1 where
  | put {α : Type} (c : Codec α) (v : α)
  | putOpaque (bs : Bytes)
  | putString (s : String)
  | write (bs : Bytes)
  | writeBytes (bs : Bytes)
  | fetch {α : Type} (c : Codec α)
  | getOpaque
  | getString
  | read (n : Nat)
  | skip (n : UInt64)
  | setPosition (p : Nat)
  | reset
  | appendPayload (segments : List Bytes)
  | finalizePayloads

namespace Operation

def Answer : Operation → Type
  | @fetch α _ => α
  | getOpaque | read _ => Bytes
  | getString => String
  | write _ | finalizePayloads => Nat
  | _ => Unit

def perform : (op : Operation) → Buffered op.Answer
  | .put c v => MessageBuffer.put c v
  | .putOpaque bs => MessageBuffer.putOpaque bs
  | .putString s => MessageBuffer.putString s
  | .write bs => MessageBuffer.write bs
  | .writeBytes bs => MessageBuffer.writeBytes bs
  | .fetch c => MessageBuffer.fetch c
  | .getOpaque => MessageBuffer.getOpaque
  | .getString => MessageBuffer.getString
  | .read n => MessageBuffer.read n
  | .skip n => MessageBuffer.skip n
  | .setPosition p => MessageBuffer.setPosition p
  | .reset => MessageBuffer.reset
  | .appendPayload segments => MessageBuffer.appendPayload segments
  | .finalizePayloads => MessageBuffer.finalizePayloads

/-- Writes at least one byte, unless the buffer is sealed. -/
def Writes : Operation → Prop
  | put c v => c.encode v ≠ []
  | putOpaque bs => bs.length ≤ maxLength
  | putString s => s.utf8ByteSize ≤ maxLength
  | write bs | writeBytes bs => bs ≠ []
  | _ => False

def appended : Operation → List Bytes
  | appendPayload segments => segments
  | _ => []

end Operation

def left : EStateM.Result ClientError MessageBuffer α → MessageBuffer
  | .ok _ b | .error _ b => b

def Operation.after (op : Operation) (b : MessageBuffer) : MessageBuffer :=
  left (op.perform.run b)

/-- The padding an operation reports to have added. -/
def Operation.padded (b : MessageBuffer) : Operation → Nat
  | finalizePayloads =>
    match MessageBuffer.finalizePayloads.run b with
    | .ok n _ => n
    | .error .. => 0
  | _ => 0

/-- Operations one after another, whatever each comes to. -/
def performAll : List Operation → MessageBuffer → MessageBuffer
  | [], b => b
  | op :: ops, b => performAll ops (op.after b)

def paddedAll : List Operation → MessageBuffer → Nat
  | [], _ => 0
  | op :: ops, b => op.padded b + paddedAll ops (op.after b)

def appendedAll (ops : List Operation) : List Bytes := ops.flatMap Operation.appended

@[simp] theorem left_ok (v : α) (b : MessageBuffer) : left (.ok v b) = b := rfl

@[simp] theorem left_error (e : ClientError) (b : MessageBuffer) :
    left (.error e b : EStateM.Result _ _ α) = b := rfl

@[simp] theorem run_raise (e : ClientError) (b : MessageBuffer) :
    (throw e : Buffered α).run b = .error e b := rfl

@[simp] theorem run_change (f : MessageBuffer → MessageBuffer) (b : MessageBuffer) :
    (modify f : Buffered Unit).run b = .ok () (f b) := rfl

theorem performAll_append (ops ops' : List Operation) (b : MessageBuffer) :
    performAll (ops ++ ops') b = performAll ops' (performAll ops b) := by
  induction ops generalizing b with
  | nil => rfl
  | cons op ops ih => exact ih _

theorem isSealed_iff (b : MessageBuffer) :
    b.isSealed = true ↔ b.payloads ≠ [] ∨ 0 < b.terminalPadding := by
  simp [isSealed]

/-- What every operation keeps: the cursor is inside the bytes, the payload counted right. -/
structure WellFormed (b : MessageBuffer) : Prop where
  position_le : b.position ≤ b.bytes.length
  payloadLength_eq : b.payloadLength = b.payloads.flatten.length

/-- What may become of a buffer: payload and padding are added, the cursor stays inside the bytes,
and the bytes change only while nothing seals them. -/
structure Grows (b b' : MessageBuffer) (segments : List Bytes) (padding : Nat) : Prop where
  inside : b.position ≤ b.bytes.length → b'.position ≤ b'.bytes.length
  payloads : b'.payloads = b.payloads ++ segments
  payloadLength : b'.payloadLength = b.payloadLength + segments.flatten.length
  padding : b'.terminalPadding = b.terminalPadding + padding
  bytes : b.isSealed = true → b'.bytes = b.bytes

namespace Grows
variable {b c d : MessageBuffer} {ps qs : List Bytes} {m n : Nat}

theorem refl (b : MessageBuffer) : Grows b b [] 0 := ⟨id, by simp, rfl, rfl, fun _ => rfl⟩

theorem payloadLength_eq (h : Grows b c ps m)
    (hb : b.payloadLength = b.payloads.flatten.length) :
    c.payloadLength = c.payloads.flatten.length := by
  rw [h.payloadLength, h.payloads, hb, List.flatten_append, List.length_append]

theorem wellFormed (h : Grows b c ps m) (hb : b.WellFormed) : c.WellFormed :=
  ⟨h.inside hb.position_le, h.payloadLength_eq hb.payloadLength_eq⟩

theorem isSealed (h : Grows b c ps m) (hb : b.isSealed = true) : c.isSealed = true := by
  rw [isSealed_iff, h.payloads, h.padding]
  obtain hp | ht := (isSealed_iff b).1 hb
  · simp [hp]
  · omega

theorem trans (h : Grows b c ps m) (h' : Grows c d qs n) : Grows b d (ps ++ qs) (m + n) where
  inside hb := h'.inside (h.inside hb)
  payloads := by rw [h'.payloads, h.payloads, List.append_assoc]
  payloadLength := by
    rw [h'.payloadLength, h.payloadLength, List.flatten_append, List.length_append, Nat.add_assoc]
  padding := by rw [h'.padding, h.padding, Nat.add_assoc]
  bytes hb := by rw [h'.bytes (h.isSealed hb), h.bytes hb]

theorem cursor {p : Nat} (hp : b.position ≤ b.bytes.length → p ≤ b.bytes.length) :
    Grows b { b with position := p } [] 0 :=
  ⟨hp, by simp, rfl, rfl, fun _ => rfl⟩

theorem overwrite (hb : b.isSealed = false) (vs : Bytes) : Grows b (b.overwrite vs) [] 0 where
  inside h := by
    simp only [MessageBuffer.overwrite, List.length_append, List.length_take, List.length_drop]
    omega
  payloads := by simp [MessageBuffer.overwrite]
  payloadLength := rfl
  padding := rfl
  bytes h := by simp [hb] at h

theorem appendPayload (segments : List Bytes) (b : MessageBuffer) :
    Grows b (left ((appendPayload segments).run b)) segments 0 := by
  rw [run_appendPayload]
  exact ⟨id, rfl, rfl, rfl, fun _ => rfl⟩

end Grows

theorem run_write_of_sealed {b : MessageBuffer} (hb : b.isSealed = true) (bs : Bytes) :
    (write bs).run b = .error (.io (.ofWrite .sealedBuffer)) b := by
  simp [write, writeFault, EStateM.run_bind, EStateM.run_get, hb]

theorem run_write_of_open {b : MessageBuffer} (hb : b.isSealed = false) (bs : Bytes) :
    (write bs).run b = .ok bs.length (b.overwrite bs) := by
  simp only [write, EStateM.run_bind, EStateM.run_get, hb, run_change, EStateM.run_pure, if_false,
    Bool.false_eq_true]

theorem run_writeBytes_eq {bs : Bytes} (h : bs ≠ []) (b : MessageBuffer) :
    (writeBytes bs).run b = (write bs >>= fun _ => pure ()).run b := by
  rw [EStateM.run_bind]
  cases hb : b.isSealed with
  | true =>
    rw [run_write_of_sealed hb]
    simp [writeBytes, writeFault, EStateM.run_bind, EStateM.run_get, hb, h]
  | false =>
    rw [run_write_of_open hb]
    simp [writeBytes, EStateM.run_bind, EStateM.run_get, EStateM.run_pure, hb, h]

theorem run_read (n : Nat) (b : MessageBuffer) :
    (read n).run b = .ok (b.upTo n) { b with position := b.position + min n b.remaining } := rfl

/-- Only moves the cursor and writes while it may, from every buffer. -/
def Moving (t : Buffered α) : Prop := ∀ b, Grows b (left (t.run b)) [] 0

namespace Moving

theorem pure (v : α) : Moving (Pure.pure v) := Grows.refl

theorem throw (e : ClientError) : Moving (MonadExcept.throw e : Buffered α) := Grows.refl

theorem get : Moving (MonadState.get : Buffered MessageBuffer) := Grows.refl

theorem bind {t : Buffered α} {f : α → Buffered β} (ht : Moving t) (hf : ∀ v, Moving (f v)) :
    Moving (t >>= f) := by
  intro b
  have hb := ht b
  rw [EStateM.run_bind]
  cases hr : t.run b with
  | error e c =>
    rw [hr] at hb
    exact hb
  | ok v c =>
    rw [hr] at hb
    exact hb.trans (hf v c)

theorem ite {p : Prop} [Decidable p] {t u : Buffered α} (ht : Moving t) (hu : Moving u) :
    Moving (if p then t else u) := by
  by_cases h : p <;> simpa [h]

theorem write (bs : Bytes) : Moving (write bs) := by
  intro b
  cases hb : b.isSealed with
  | true => simpa [run_write_of_sealed hb] using Grows.refl b
  | false => simpa [run_write_of_open hb] using Grows.overwrite hb bs

theorem writeBytes (bs : Bytes) : Moving (writeBytes bs) := by
  intro b
  by_cases h : bs = []
  · subst h
    exact Grows.refl b
  · rw [run_writeBytes_eq h]
    exact bind (write bs) (fun _ => pure ()) b

theorem put (c : Codec α) (v : α) : Moving (put c v) := by
  refine bind (writeBytes _) fun _ => ?_
  cases (c.write v).fault with
  | none => exact pure ()
  | some fault => exact throw _

theorem align : Moving align := bind get fun _ => writeBytes _

theorem putOpaque (bs : Bytes) : Moving (putOpaque bs) :=
  ite (bind (put _ _) fun _ => bind (writeBytes _) fun _ => align) (throw _)

theorem fetch (c : Codec α) : Moving (fetch c) := by
  intro b
  have hl (rest : Bytes) : Grows b (b.leave rest) [] 0 := Grows.cursor fun _ => by omega
  simp only [EStateM.run, MessageBuffer.fetch]
  cases c.decode (b.bytes.drop b.position) with
  | ok v rest => exact hl rest
  | error fault rest => exact hl rest

theorem setPosition (p : Nat) : Moving (setPosition p) := by
  intro b
  by_cases h : p > b.bytes.length
  · simpa [MessageBuffer.setPosition, malformed, EStateM.run_bind, EStateM.run_get, h]
      using Grows.refl b
  · simpa [MessageBuffer.setPosition, EStateM.run_bind, EStateM.run_get, EStateM.run_set, h]
      using Grows.cursor fun _ => by omega

theorem reset : Moving reset := fun _ => Grows.cursor fun _ => Nat.zero_le _

theorem read (n : Nat) : Moving (read n) := by
  intro b
  rw [run_read]
  refine Grows.cursor fun h => ?_
  unfold remaining
  omega

theorem skip (n : UInt64) : Moving (skip n) := by
  intro b
  rw [run_skip_eq]
  dsimp only
  split_ifs with _ _ ht
  · exact Grows.refl b
  · exact Grows.refl b
  · exact Grows.refl b
  · exact Grows.cursor fun _ => Nat.le_of_not_lt ht

theorem getOpaque : Moving getOpaque := by
  refine bind (fetch _) fun n => bind get fun b => ?_
  exact ite (throw _) (bind (skip _) fun _ => pure _)

theorem getString : Moving getString := by
  refine bind getOpaque fun bs => ?_
  cases Text.ofUtf8? bs with
  | some s => exact pure s
  | none => exact throw _

end Moving

/-- One operation adds what it appends and reports. -/
theorem Operation.grows (op : Operation) (b : MessageBuffer) :
    Grows b (op.after b) op.appended (op.padded b) := by
  cases op with
  | put c v => exact Moving.put c v b
  | putOpaque bs => exact Moving.putOpaque bs b
  | putString s => exact Moving.putOpaque _ b
  | write bs => exact Moving.write bs b
  | writeBytes bs => exact Moving.writeBytes bs b
  | fetch c => exact Moving.fetch c b
  | getOpaque => exact Moving.getOpaque b
  | getString => exact Moving.getString b
  | read n => exact Moving.read n b
  | skip n => exact Moving.skip n b
  | setPosition p => exact Moving.setPosition p b
  | reset => exact Moving.reset b
  | appendPayload segments => exact Grows.appendPayload segments b
  | finalizePayloads => exact ⟨id, (List.append_nil _).symm, rfl, rfl, fun _ => rfl⟩

theorem run_writeBytes_of_sealed {b : MessageBuffer} (hb : b.isSealed = true) {bs : Bytes}
    (h : bs ≠ []) : (writeBytes bs).run b = .error (.io (.ofWrite .sealedBuffer)) b := by
  rw [run_writeBytes_eq h, EStateM.run_bind, run_write_of_sealed hb]

theorem run_put_of_sealed {b : MessageBuffer} (hb : b.isSealed = true) {c : Codec α} {v : α}
    (h : c.encode v ≠ []) : (put c v).run b = .error (.io (.ofWrite .sealedBuffer)) b := by
  have hr : (writeBytes (c.write v).bytes).run b = _ := run_writeBytes_of_sealed hb h
  unfold put
  rw [EStateM.run_bind, hr]

theorem run_putOpaque_of_sealed {b : MessageBuffer} (hb : b.isSealed = true) {bs : Bytes}
    (h : bs.length ≤ maxLength) :
    (putOpaque bs).run b = .error (.io (.ofWrite .sealedBuffer)) b := by
  have hw : Codec.word.encode (UInt32.ofNat bs.length) ≠ [] := by
    intro hn
    have hl := congrArg List.length hn
    simp only [Codec.encode, Codec.word, Output.bytes, Image.length_bytes, Image.length_ofBytes,
      BigEndian.length_encode, List.length_nil] at hl
    omega
  unfold putOpaque
  rw [if_pos h, EStateM.run_bind, run_put_of_sealed hb hw]

theorem Operation.run_of_sealed {op : Operation} (hw : op.Writes) {b : MessageBuffer}
    (hb : b.isSealed = true) : op.perform.run b = .error (.io (.ofWrite .sealedBuffer)) b := by
  cases op with
  | put c v => exact run_put_of_sealed hb hw
  | putOpaque bs => exact run_putOpaque_of_sealed hb hw
  | putString s =>
    have hl : (Text.toUtf8 s).length ≤ maxLength := by rwa [Text.length_toUtf8]
    exact run_putOpaque_of_sealed hb hl
  | write bs => exact run_write_of_sealed hb bs
  | writeBytes bs => exact run_writeBytes_of_sealed hb hw
  | _ => exact hw.elim

theorem performAll_grows (ops : List Operation) (b : MessageBuffer) :
    Grows b (performAll ops b) (appendedAll ops) (paddedAll ops b) := by
  induction ops generalizing b with
  | nil => exact Grows.refl b
  | cons op ops ih => exact (op.grows b).trans (ih _)

theorem length_upTo {b : MessageBuffer} (n : Nat) : (b.upTo n).length = min n b.remaining := by
  simp [upTo, remaining]

theorem totalLength_finalized (b : MessageBuffer) : b.finalized.totalLength % 4 = 0 := by
  have ht : (b.totalLength + padLength b.totalLength) % 4 = 0 := add_padLength_mod _
  simp only [totalLength, finalized] at ht ⊢
  omega

theorem run_finalizePayloads_finalized (b : MessageBuffer) :
    finalizePayloads.run b.finalized = .ok 0 b.finalized := by
  have hp : padLength b.finalized.totalLength = 0 := by
    have ht := totalLength_finalized b
    unfold padLength
    omega
  have hf : b.finalized.finalized = b.finalized := by
    conv_lhs => rw [finalized, hp]
    rfl
  rw [run_finalizePayloads, hp, hf]

theorem upTo_append_drop (b : MessageBuffer) (n : Nat) :
    b.upTo n ++ b.bytes.drop (b.position + min n b.remaining) = b.bytes.drop b.position := by
  rw [upTo, ← List.drop_drop, List.take_append_drop]

theorem of_run_getOpaque {b c : MessageBuffer} {vs : Bytes} (h : getOpaque.run b = .ok vs c) :
    ∃ n d, (fetch .word).run b = .ok n d ∧ n.toNat ≤ d.remaining ∧ vs = d.upTo n.toNat := by
  unfold getOpaque at h
  rw [EStateM.run_bind] at h
  cases hw : (fetch .word).run b with
  | error e d =>
    rw [hw] at h
    cases h
  | ok n d =>
    rw [hw] at h
    simp only [EStateM.run_bind, EStateM.run_get] at h
    by_cases hn : n.toNat > d.remaining
    · simp [hn, malformed] at h
    · have hle : n.toNat ≤ d.remaining := by omega
      refine ⟨n, d, rfl, hle, ?_⟩
      simp only [hn, if_false, EStateM.run_bind] at h
      cases hs : (skip n.toUInt64).run d with
      | error e b' =>
        rw [hs] at h
        cases h
      | ok _ b' =>
        rw [hs] at h
        cases h
        rw [upTo, Nat.min_eq_left hle]

/-- A buffer to which these segments and this much padding were added. -/
structure Sound (b : MessageBuffer) (segments : List Bytes) (padding : Nat) : Prop where
  position_le : b.position ≤ b.bytes.length
  remaining_eq : b.position + b.remaining = b.bytes.length
  /-- What `read` copies is there. -/
  read (n : Nat) : ∃ vs c, (read n).run b = .ok vs c ∧ vs.length = min n b.remaining ∧
    c.position = b.position + vs.length ∧ c.position ≤ c.bytes.length ∧
    b.bytes.drop b.position = vs ++ c.bytes.drop c.position
  /-- What `getOpaque` copies is there, once it has read a length no larger than what remains. -/
  opaque_le {n : UInt32} {c : MessageBuffer} : (fetch .word).run b = .ok n c →
    n.toNat ≤ c.remaining → c.position + n.toNat ≤ c.bytes.length
  getOpaque {vs : Bytes} {c : MessageBuffer} : getOpaque.run b = .ok vs c →
    ∃ n d, (fetch .word).run b = .ok n d ∧ n.toNat ≤ d.remaining ∧
      vs = (d.bytes.drop d.position).take n.toNat ∧ vs.length = n.toNat
  payloadLength_eq : b.payloadLength = (segments.map List.length).sum
  transmitted : b.segments.flatten = b.bytes ++ segments.flatten ++ List.replicate padding 0
  totalLength_eq : b.segments.flatten.length = b.totalLength
  /-- Once anything is added behind them, the bytes never change, and nothing is written. -/
  keeps : segments ≠ [] ∨ padding ≠ 0 → ∀ ops : List Operation,
    (performAll ops b).bytes = b.bytes ∧ ∀ op : Operation, op.Writes → ∃ cause,
      op.perform.run (performAll ops b) = .error (.io cause) (performAll ops b) ∧
      cause.kind = .invalidInput
  /-- Finalizing pads to a multiple of four, and a second time adds nothing. -/
  finalizes : ∃ n c, finalizePayloads.run b = .ok n c ∧ c.totalLength % 4 = 0 ∧
    finalizePayloads.run c = .ok 0 c

theorem Origin.buffer_fresh (o : Origin) :
    o.buffer.payloads = [] ∧ o.buffer.terminalPadding = 0 := by
  cases o <;> simp [buffer, empty, ofBytes]

theorem Origin.buffer_wellFormed (o : Origin) : o.buffer.WellFormed := by
  cases o <;> exact ⟨Nat.zero_le _, rfl⟩

theorem performAll_wellFormed (o : Origin) (ops : List Operation) :
    (performAll ops o.buffer).WellFormed :=
  (performAll_grows ops o.buffer).wellFormed o.buffer_wellFormed

/-- However a buffer came about and whatever was done with it. -/
theorem performAll_sound (o : Origin) (ops : List Operation) :
    Sound (performAll ops o.buffer) (appendedAll ops) (paddedAll ops o.buffer) := by
  obtain ⟨hs, ht⟩ := o.buffer_fresh
  have hg := performAll_grows ops o.buffer
  obtain ⟨hpos, hcount⟩ := performAll_wellFormed o ops
  have hpay := hg.payloads
  have hpad := hg.padding
  rw [hs, List.nil_append] at hpay
  rw [ht, Nat.zero_add] at hpad
  rw [← hpay, ← hpad]
  generalize performAll ops o.buffer = b at hpos hcount
  have hrem : b.position + b.remaining = b.bytes.length := by
    unfold remaining
    omega
  exact {
    position_le := hpos
    remaining_eq := hrem
    read n := by
      refine ⟨_, _, run_read n b, length_upTo n, ?_, ?_, ?_⟩
      · simp [length_upTo]
      · simp only
        omega
      · simp [upTo_append_drop]
    opaque_le {n c} hf hn := by
      have hc := Moving.fetch Codec.word b
      rw [hf] at hc
      have hin := hc.inside hpos
      simp only [left_ok, remaining] at hin hn
      omega
    getOpaque {vs c} h := by
      obtain ⟨n, d, hf, hn, rfl⟩ := of_run_getOpaque h
      exact ⟨n, d, hf, hn, by rw [upTo, Nat.min_eq_left hn],
        by rw [length_upTo, Nat.min_eq_left hn]⟩
    payloadLength_eq := hcount.trans List.length_flatten
    transmitted := flatten_segments b
    totalLength_eq := length_flatten_segments hcount
    keeps h more := by
      have hs : b.isSealed = true := (isSealed_iff b).2 (h.imp_right Nat.pos_of_ne_zero)
      have hg := performAll_grows more b
      refine ⟨hg.bytes hs, fun op hw => ⟨_, op.run_of_sealed hw (hg.isSealed hs), rfl⟩⟩
    finalizes := ⟨_, _, run_finalizePayloads b, totalLength_finalized b,
      run_finalizePayloads_finalized b⟩ }

/-- A word, one byte of payload, and padding for both; the last word is refused. -/
example :
    performAll [.put .word 1, .appendPayload [[0x78]], .finalizePayloads, .put .word 2] empty =
      ⟨[0, 0, 0, 1], 4, [[0x78]], 1, 3⟩ := by
  decide

end Nfs3.MessageBuffer
