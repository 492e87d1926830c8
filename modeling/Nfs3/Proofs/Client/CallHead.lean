import Nfs3.Client.Dispatcher
import Nfs3.Client.Playback
import Nfs3.Proofs.Rpc.FileCall
import Nfs3.Proofs.Rpc.Marshalling

/-!
The header of a call on the wire: six words before the credential, which nothing behind them
reaches. So a message names the program and the procedure it is a call of. Whether a call can be
written at all depends on the sizes of its credential and on its arguments only.
-/
namespace Nfs3
open Wire Rpc MessageBuffer

def Wire.wordsBytes (ws : List UInt32) : Bytes := ws.flatMap Codec.word.encode

theorem Wire.encode_word (w : UInt32) : Codec.word.encode w = BigEndian.encode 4 w.toNat := by
  simp [Codec.encode, Codec.word, Output.bytes, Image.ofBytes, Image.bytes, Function.comp_def,
    Octet.byte]

theorem Wire.word_of_wordsBytes {ws : List UInt32} {bs : Bytes} (h : wordsBytes ws <+: bs)
    {i : Nat} {w : UInt32} (hi : ws[i]? = some w) :
    UInt32.ofNat (BigEndian.decode ((bs.drop (4 * i)).take 4)) = w := by
  obtain ⟨rest, rfl⟩ := h
  induction ws generalizing i with
  | nil => cases hi
  | cons v ws ih =>
    have hl : (Codec.word.encode v).length = 4 := by rw [encode_word, BigEndian.length_encode]
    rw [wordsBytes, List.flatMap_cons, List.append_assoc]
    cases i with
    | zero =>
      obtain rfl : v = w := Option.some.inj hi
      rw [Nat.mul_zero, List.drop_zero, List.take_left' hl, encode_word,
        BigEndian.decode_encode_of_lt (UInt32.toNat_lt v), UInt32.ofNat_toNat]
    | succ i =>
      have hd : 4 * (i + 1) = (Codec.word.encode v).length + 4 * i := by omega
      rw [hd, List.drop_length_add_append]
      exact ih hi

namespace Rpc

def CallHeader.words (h : CallHeader) : List UInt32 :=
  [h.xid, 0, rpcVersion, h.program, h.version, h.procedure]

theorem CallHeader.run_marshal (h : CallHeader) (c : Credential) (stamp : UInt32) :
    (h.marshal c stamp).run .empty = (c.marshal stamp).run (written (wordsBytes h.words)) := by
  have hw (w : UInt32) : (Codec.word.write w).fault = none := rfl
  change (h.marshal c stamp).run (written []) = _
  unfold marshal
  simp only [EStateM.run_bind, run_put _ (hw _)]
  simp [wordsBytes, words]

theorem CallHeader.prefix_of_marshal {h : CallHeader} {c : Credential} {stamp : UInt32}
    {b : MessageBuffer} (hm : (h.marshal c stamp).run .empty = .ok () b) :
    wordsBytes h.words <+: b.bytes ∧ b.position = b.bytes.length := by
  rw [run_marshal] at hm
  exact (c.marshals stamp).appends hm rfl

theorem FileCall.all_regular :
    ∀ c ∈ all, c.procedure.toProcedure.Regular ∧ c.procedure.service = nfsService := by
  have plain {Args Reply : Type} {n : UInt32} {name : String} {c : Codec Args} {d : Codec Reply} :
      (Procedure.plain nfsService n name c d).Regular ∧
        (Procedure.plain nfsService n name c d).service = nfsService :=
    ⟨fun _ => .put _ _, rfl⟩
  simp only [all, List.forall_mem_cons]
  exact ⟨plain, plain, plain, plain, plain, plain, ⟨marshalWrite_marshals, rfl⟩, plain, plain,
    plain, plain, plain, plain, plain, plain, plain, plain, plain, plain, plain, plain,
    List.forall_mem_nil _⟩

end Rpc

namespace MessageBuffer

/-- Behind any message it succeeds exactly if `p` holds. -/
def SucceedsIff (t : Buffered Unit) (p : Prop) : Prop :=
  ∀ bs, (p → ∃ vs, t.run (written bs) = .ok () (written vs)) ∧
    ∀ b, t.run (written bs) = .ok () b → p

namespace SucceedsIff
variable {α : Type}

theorem bind {t : Buffered Unit} {u : Unit → Buffered Unit} {p q : Prop} (ht : SucceedsIff t p)
    (hu : SucceedsIff (u ()) q) : SucceedsIff (t >>= u) (p ∧ q) := by
  intro bs
  rw [EStateM.run_bind]
  constructor
  · intro h
    obtain ⟨vs, hv⟩ := (ht bs).1 h.1
    rw [hv]
    exact (hu vs).1 h.2
  · intro b h
    cases hr : t.run (written bs) with
    | error e c =>
      rw [hr] at h
      cases h
    | ok _ c =>
      have hp := (ht bs).2 c hr
      obtain ⟨vs, hv⟩ := (ht bs).1 hp
      rw [hv] at h
      exact ⟨hp, (hu vs).2 b h⟩

theorem congr {t : Buffered Unit} {p q : Prop} (h : SucceedsIff t p) (hpq : p ↔ q) :
    SucceedsIff t q := by
  rwa [← propext hpq]

theorem put (c : Codec α) (v : α) : SucceedsIff (put c v) ((c.write v).fault = none) :=
  fun bs => ⟨fun h => ⟨_, run_put bs h⟩, fun _ h => fault_of_put h⟩

theorem putOpaque (vs : Bytes) : SucceedsIff (putOpaque vs) (vs.length ≤ maxLength) := by
  intro bs
  unfold MessageBuffer.putOpaque
  constructor
  · intro h
    rw [if_pos h, EStateM.run_bind, run_put bs (Codec.Lawful.word.complete trivial)]
    simp only
    rw [EStateM.run_bind, run_writeBytes]
    simp only
    unfold align
    rw [EStateM.run_bind, EStateM.run_get]
    simp only
    rw [run_writeBytes]
    exact ⟨_, rfl⟩
  · intro b h
    by_contra hn
    rw [if_neg hn] at h
    cases h

end SucceedsIff
end MessageBuffer

namespace Rpc

theorem Credential.marshal_succeeds (c : Credential) (stamp : UInt32) :
    SucceedsIff (c.marshal stamp)
      ((c.body stamp).length ≤ maxLength ∧ c.verifier.length ≤ maxLength) := by
  have flavor (f : AuthFlavor) : SucceedsIff (MessageBuffer.put AuthFlavor.codec f) True :=
    (SucceedsIff.put _ f).congr (iff_true_intro (AuthFlavor.lawful.complete trivial))
  have h : SucceedsIff (c.marshal stamp) (True ∧ (c.body stamp).length ≤ maxLength ∧
      True ∧ c.verifier.length ≤ maxLength) :=
    (flavor _).bind <| (SucceedsIff.putOpaque _).bind <| (flavor _).bind (.putOpaque _)
  exact h.congr (by simp)

theorem Credential.length_body (c : Credential) (stamp stamp' : UInt32) :
    (c.body stamp).length = (c.body stamp').length := by
  cases c with
  | fixed f b vf v => rfl
  | unix u =>
    let rest := Codec.bytes.pair <| Codec.word.pair <| Codec.word.pair Codec.word.array
    have he (s : UInt32) : UnixBody.codec.encode (u.body s) = Codec.word.encode s ++
        rest.encode (Text.toUtf8 u.machineName, u.uid, u.gid, u.gids) :=
      Codec.encode_pair rfl
    have hl (s : UInt32) : (Codec.word.encode s).length = 4 := by
      rw [encode_word, BigEndian.length_encode]
    rw [body, body, he, he, List.length_append, List.length_append, hl, hl]

end Rpc

namespace Client
variable {Args Reply : Type} {p : Procedure Args Reply} {r : Request Args} {stamp : UInt32}

theorem Request.prefix_of_segments (hp : p.Regular) {segments : List Bytes}
    (h : r.segments p stamp = .ok segments) :
    ∃ first rest, segments = first :: rest ∧ wordsBytes (r.header p).words <+: first := by
  unfold Request.segments at h
  simp only [EStateM.run_bind] at h
  cases hh : ((r.header p).marshal r.credential stamp).run .empty with
  | error e b =>
    rw [hh] at h
    cases h
  | ok _ b =>
    rw [hh] at h
    simp only at h
    obtain ⟨hw, hb⟩ := CallHeader.prefix_of_marshal hh
    cases ha : (p.marshal r.args).run b with
    | error e c =>
      rw [ha] at h
      cases h
    | ok _ c =>
      rw [ha] at h
      cases h
      exact ⟨c.bytes, _, rfl, hw.trans ((hp r.args).appends ha hb).1⟩

theorem Request.names_of_segments (hp : p.Regular) {m : Transmission}
    (h : r.segments p stamp = .ok m.segments) :
    m.program = p.service.program ∧ m.procedure = p.number := by
  obtain ⟨first, rest, hs, hw⟩ := prefix_of_segments hp h
  have hh (i : Nat) : m.headerWord i =
      UInt32.ofNat (BigEndian.decode ((first.drop (4 * i)).take 4)) := by
    rw [Transmission.headerWord, hs]
    rfl
  constructor
  · rw [Transmission.program, hh]
    exact word_of_wordsBytes hw rfl
  · rw [Transmission.procedure, hh]
    exact word_of_wordsBytes hw rfl

theorem Request.segments_ok_iff {c : Codec Args} (hp : ∀ a, p.marshal a = put c a) :
    (∃ segments, r.segments p stamp = .ok segments) ↔
      ((r.credential.body stamp).length ≤ maxLength ∧
        r.credential.verifier.length ≤ maxLength) ∧ (c.write r.args).fault = none := by
  let head := written (wordsBytes (r.header p).words)
  have hh : ((r.header p).marshal r.credential stamp).run .empty =
      (r.credential.marshal stamp).run head := CallHeader.run_marshal ..
  obtain ⟨hok, hiff⟩ := ((r.credential.marshal_succeeds stamp).bind (u := fun _ => put c r.args)
    (SucceedsIff.put c r.args)) (wordsBytes (r.header p).words)
  rw [EStateM.run_bind] at hok hiff
  constructor
  · intro h
    obtain ⟨segments, h⟩ := h
    unfold Request.segments at h
    simp only [EStateM.run_bind, hh, hp] at h
    cases hc : (r.credential.marshal stamp).run head with
    | error e b =>
      rw [hc] at h
      cases h
    | ok _ b =>
      rw [hc] at h hiff
      simp only at h
      cases ha : (put c r.args).run b with
      | error e b' =>
        rw [ha] at h
        cases h
      | ok _ b' => exact hiff b' ha
  · intro h
    obtain ⟨vs, hv⟩ := hok h
    unfold Request.segments
    simp only [EStateM.run_bind, hh, hp]
    cases hc : (r.credential.marshal stamp).run head with
    | error e b =>
      rw [hc] at hv
      cases hv
    | ok _ b =>
      rw [hc] at hv
      simp only at hv
      simp only [hv]
      exact ⟨_, rfl⟩

end Client
end Nfs3
