import Nfs3.Proofs.Client.CallHead
import Nfs3.Proofs.Rpc.CallForm

/-!
One request written at different times. Nothing but the stamp of a unix credential changes, and
what a server reads in front of the arguments is the call the request was made for.
-/
namespace Nfs3
open Wire Rpc MessageBuffer
variable {Args Reply : Type} {p : Procedure Args Reply}

namespace Rpc

/-- What is put for the arguments does not depend on the call in front of them. -/
def Procedure.Uniform (p : Procedure Args Reply) : Prop :=
  ∀ args, ∃ vs payloads n, ∀ bs b, bs.length % 4 = 0 →
    (p.marshal args).run (written bs) = .ok () b →
    b = ⟨bs ++ vs, (bs ++ vs).length, payloads, n, 0⟩

theorem Procedure.Uniform.plain (service : Service) (number : UInt32) (name : String)
    (c : Codec Args) (reply : Codec Reply) :
    (Procedure.plain service number name c reply).Uniform := by
  refine fun args => ⟨c.encode args, [], 0, fun bs b _ h => ?_⟩
  have hr := run_put bs (fault_of_put h)
  exact (EStateM.Result.ok.inj (h.symm.trans hr)).2

theorem Procedure.Uniform.write : Procedures.write.toProcedure.Uniform := by
  refine fun args => ⟨PlainForm.Faithful.headOfWrite args, [args.data], args.data.length,
    fun bs b _ h => ?_⟩
  obtain ⟨hw, hc⟩ := PlainForm.Faithful.of_run_marshalWrite h
  have hr := PlainForm.Faithful.run_marshalWrite hw hc bs
  exact (EStateM.Result.ok.inj (h.symm.trans hr)).2

theorem FileCall.all_uniform : ∀ c ∈ all, c.procedure.toProcedure.Uniform := by
  have plain {Args Reply : Type} {n : UInt32} {name : String} {c : Codec Args}
      {d : Codec Reply} : (Procedure.plain nfsService n name c d).Uniform :=
    .plain nfsService n name c d
  simp only [all, List.forall_mem_cons]
  exact ⟨plain, plain, plain, plain, plain, plain, .write, plain, plain, plain, plain, plain, plain,
    plain, plain, plain, plain, plain, plain, plain, plain, List.forall_mem_nil _⟩

theorem CallHeader.encode_message_unix (h : CallHeader) (u : UnixCredential) : ∃ front back,
    front.length = 32 ∧ (front.drop 24).take 4 = AuthFlavor.codec.encode .unix ∧
    ∀ stamp, (Credential.body stamp (.unix u)).length ≤ maxLength →
      Message.codec.encode (h.message (.unix u) stamp) =
        front ++ (Codec.word.encode stamp ++ back) := by
  let size := (Credential.body 0 (.unix u)).length
  let flavor := AuthFlavor.codec.encode .unix
  have hwords : (wordsBytes h.words).length = 24 := by simp [wordsBytes, words]
  have hflavor : flavor.length = 4 := Codec.length_encode_word (Enumeration.code AuthFlavor.unix)
  refine ⟨wordsBytes h.words ++ (flavor ++ Codec.word.encode (UInt32.ofNat size)),
    (Codec.bytes.pair <| Codec.word.pair <| Codec.word.pair Codec.word.array).encode
      (Text.toUtf8 u.machineName, u.uid, u.gid, u.gids) ++ (List.replicate (padLength size) 0 ++
      (AuthFlavor.codec.encode .null ++ Codec.bytes.encode [])), ?_, ?_, fun stamp hb => ?_⟩
  · simp only [List.length_append, hwords, hflavor, Codec.length_encode_word]
  · rw [List.drop_left' hwords, List.take_left' hflavor]
  · have hl : (Credential.body stamp (.unix u)).length = size :=
      Credential.length_body (.unix u) stamp 0
    have hbody : Credential.body stamp (.unix u) = _ := u.encode_body stamp
    rw [encode_message hb, Codec.encode_bytes hb, hl, hbody]
    simp only [wordsBytes, words, List.flatMap_cons, List.flatMap_nil, List.append_nil,
      List.append_assoc]
    rfl

end Rpc

namespace Client

/-- The same bytes, but for the stamp of a unix credential. -/
inductive Restamped : List Bytes → List Bytes → Prop where
  | same (segments : List Bytes) : Restamped segments segments
  | stamp {front : Bytes} (stamp stamp' : UInt32) (back : Bytes) (rest : List Bytes) :
    front.length = 32 → (front.drop 24).take 4 = AuthFlavor.codec.encode .unix →
    Restamped ((front ++ (Codec.word.encode stamp ++ back)) :: rest)
      ((front ++ (Codec.word.encode stamp' ++ back)) :: rest)

/-- A reader finds a call with this credential in front of the arguments. -/
def Transmission.Carries (m : Transmission) (c : Credential) : Prop :=
  ∃ (h : CallHeader) (stamp : UInt32) (rest : Bytes),
    Message.codec.decode (m.segments.headD []) = .ok (h.message c stamp) rest

namespace Request
variable {r : Request Args} {stamp stamp' : UInt32} {segments segments' : List Bytes}

def call (r : Request Args) (p : Procedure Args Reply) (stamp : UInt32) : Message :=
  (r.header p).message r.credential stamp

theorem run_header (h : r.segments p stamp = .ok segments) :
    (r.call p stamp).WellFormed ∧ ((r.header p).marshal r.credential stamp).run .empty =
      .ok () (written (Message.codec.encode (r.call p stamp))) := by
  have hm : ∃ b, ((r.header p).marshal r.credential stamp).run .empty = .ok () b := by
    unfold Request.segments at h
    simp only [EStateM.run_bind] at h
    cases hh : ((r.header p).marshal r.credential stamp).run .empty with
    | error e b =>
      rw [hh] at h
      cases h
    | ok _ b => exact ⟨b, rfl⟩
  obtain ⟨b, hm⟩ := hm
  have hc : (r.credential.marshal stamp).run (written (wordsBytes (r.header p).words)) =
      .ok () b := by
    rw [← CallHeader.run_marshal, hm]
  obtain ⟨hb, hv⟩ := (r.credential.marshal_succeeds stamp _).2 b hc
  have he : MessageBuffer.empty.OnWord := ⟨⟨Nat.le_refl 0, rfl⟩, rfl, rfl⟩
  refine ⟨⟨hb, hv⟩, ?_⟩
  rw [(CallHeader.marshal_lays hb hv (r.header p)).run he]
  simp [overwrite, written, call, MessageBuffer.empty, ofBytes]

theorem length_call (h : (r.call p stamp).WellFormed) (stamp' : UInt32) :
    (r.call p stamp').WellFormed ∧ (Message.codec.encode (r.call p stamp')).length =
      (Message.codec.encode (r.call p stamp)).length := by
  have hl := r.credential.length_body stamp' stamp
  have hb : (r.credential.body stamp).length ≤ maxLength := h.1
  have hb' : (r.credential.body stamp').length ≤ maxLength := hl ▸ hb
  refine ⟨⟨hb', h.2⟩, ?_⟩
  rw [call, call, CallHeader.encode_message hb, CallHeader.encode_message hb']
  simp only [List.length_append, Codec.length_encode_bytes hb, Codec.length_encode_bytes hb', hl]

theorem segments_form (hp : p.Uniform) (r : Request Args) : ∃ vs tail, ∀ stamp segments,
    r.segments p stamp = .ok segments →
      (r.call p stamp).WellFormed ∧
      segments = (Message.codec.encode (r.call p stamp) ++ vs) :: tail := by
  obtain ⟨vs, payloads, n, hu⟩ := hp r.args
  let size := (Message.codec.encode (r.call p 0)).length + vs.length + n
  refine ⟨vs, payloads ++ (if padLength size > 0 then [List.replicate (padLength size) 0]
    else []), fun stamp segments h => ?_⟩
  obtain ⟨hw, hh⟩ := run_header h
  refine ⟨hw, ?_⟩
  have ha : (Message.codec.encode (r.call p stamp)).length % 4 = 0 := by
    rw [Codec.encode, Output.bytes, Image.length_bytes]
    exact Message.lawful.aligned hw
  unfold Request.segments at h
  simp only [EStateM.run_bind, hh] at h
  cases hm : (p.marshal r.args).run (written (Message.codec.encode (r.call p stamp))) with
  | error e b =>
    rw [hm] at h
    cases h
  | ok _ b =>
    obtain rfl := hu _ b ha hm
    rw [hm] at h
    simp only [run_finalizePayloads] at h
    obtain rfl := Except.ok.inj h
    have hs : totalLength ⟨Message.codec.encode (r.call p stamp) ++ vs,
        (Message.codec.encode (r.call p stamp) ++ vs).length, payloads, n, 0⟩ = size := by
      have hl := (length_call hw 0).2
      simp only [totalLength, List.length_append, size]
      omega
    simp only [finalized, hs, MessageBuffer.segments, Nat.zero_add, List.cons_append]

/-- Written at two times, a request differs in its stamp only. -/
theorem restamped (hp : p.Uniform) (h : r.segments p stamp = .ok segments)
    (h' : r.segments p stamp' = .ok segments') : Restamped segments segments' := by
  obtain ⟨vs, tail, hf⟩ := segments_form hp r
  obtain ⟨hw, rfl⟩ := hf stamp segments h
  obtain ⟨hw', rfl⟩ := hf stamp' segments' h'
  cases hc : r.credential with
  | fixed flavor body verifierFlavor verifier =>
    have he : r.call p stamp' = r.call p stamp := by
      rw [call, call, hc]
      rfl
    rw [he]
    exact .same _
  | unix u =>
    obtain ⟨front, back, hl, hflavor, he⟩ := (r.header p).encode_message_unix u
    have hcall (s : UInt32) (h : (r.call p s).WellFormed) :
        Message.codec.encode (r.call p s) = front ++ (Codec.word.encode s ++ back) := by
      have hb : (r.credential.body s).length ≤ maxLength := h.1
      rw [call, hc]
      exact he s (hc ▸ hb)
    rw [hcall stamp hw, hcall stamp' hw']
    simp only [List.append_assoc]
    exact .stamp stamp stamp' (back ++ vs) tail hl hflavor

theorem reads (hp : p.Uniform) {m : Transmission} (h : r.segments p stamp = .ok m.segments) :
    m.xid = r.xid ∧ m.program = p.service.program ∧ m.procedure = p.number ∧
      m.Carries r.credential := by
  obtain ⟨vs, tail, hf⟩ := segments_form hp r
  obtain ⟨hw, hs⟩ := hf stamp _ h
  have hb : (r.credential.body stamp).length ≤ maxLength := hw.1
  have hwords : wordsBytes (r.header p).words <+: Message.codec.encode (r.call p stamp) ++ vs := by
    rw [call, CallHeader.encode_message hb]
    simp [wordsBytes, CallHeader.words]
  have hh (i : Nat) : m.headerWord i = UInt32.ofNat
      (BigEndian.decode (((Message.codec.encode (r.call p stamp) ++ vs).drop (4 * i)).take 4)) := by
    rw [Transmission.headerWord, hs]
    rfl
  refine ⟨?_, ?_, ?_, r.header p, stamp, vs, ?_⟩
  · exact (hh 0).trans (word_of_wordsBytes hwords rfl)
  · exact (hh 3).trans (word_of_wordsBytes hwords rfl)
  · exact (hh 5).trans (word_of_wordsBytes hwords rfl)
  · rw [hs]
    exact Message.lawful.read_iff.2 ⟨hw, Image.heads_bytes _ vs⟩

end Request
end Client
end Nfs3
