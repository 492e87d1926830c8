import Nfs3.Proofs.Client.Retry
import Nfs3.Proofs.Rpc.PlainForm

/-! What goes out for one send of a call: its header, and behind it the plain form of its
arguments. -/
namespace Nfs3
open Wire Rpc MessageBuffer

theorem Rpc.Credential.marshal_keepsWords (c : Credential) (stamp : UInt32) :
    KeepsWords (c.marshal stamp) :=
  (KeepsWords.put AuthFlavor.lawful.writable _).bind <| (KeepsWords.putOpaque _).bind <|
    (KeepsWords.put AuthFlavor.lawful.writable _).bind (.putOpaque _)

theorem Rpc.CallHeader.marshal_keepsWords (h : CallHeader) (c : Credential) (stamp : UInt32) :
    KeepsWords (h.marshal c stamp) := by
  have word (w : UInt32) : KeepsWords (put .word w) := .put Codec.Lawful.word.writable w
  exact (word _).bind <| (word _).bind <| (word _).bind <| (word _).bind <| (word _).bind <|
    (word _).bind (c.marshal_keepsWords stamp)

namespace Client
variable {ε : Type} {env : Environment ε} {f : PlainForm} {r : Request f.Args} {stamp : UInt32}

theorem Request.segments_of_error {e : ClientError} {b : MessageBuffer}
    (h : ((r.header f.procedure).marshal r.credential stamp).run .empty = .error e b) :
    r.segments f.procedure stamp = .error e := by
  unfold segments
  simp only [EStateM.run_bind, h]

/-- The header is of whole words, so what follows it does not depend on it. -/
theorem Request.segments_of_header (hf : f.Faithful) {b₀ head : MessageBuffer}
    (hm : (f.procedure.marshal r.args).run .empty = .ok () b₀)
    (hh : ((r.header f.procedure).marshal r.credential stamp).run .empty = .ok () head) :
    head.bytes.length % 4 = 0 ∧ ∃ segments, r.segments f.procedure stamp = .ok segments ∧
      segments.flatten = head.bytes ++ f.arguments.encode r.args := by
  obtain ⟨bs, rfl, hl⟩ := CallHeader.marshal_keepsWords _ _ _ [] head rfl hh
  obtain ⟨b, hb, hs⟩ := hf.segments hm hl
  refine ⟨hl, b.finalized.segments, ?_, hs⟩
  unfold segments
  simp only [EStateM.run_bind, hh, hb, MessageBuffer.run_finalizePayloads]
  rfl

namespace Dispatcher
variable {Args Reply : Type} {p : Procedure Args Reply}

theorem callOnce_of_segments {q : Request Args} {w : World Dispatcher ε} {segments : List Bytes}
    (h : q.segments p (env.timestamp w.outside).1 = .ok segments) (host : String)
    (privileged : Bool) : ∃ answer,
      exchanges (Task.exec env (callOnce p q host privileged) w).2.log = exchanges w.log ++
        [⟨⟨host, w.client.port, privileged, segments, w.client.timeout⟩, answer⟩] := by
  refine ⟨(env.send ⟨host, w.client.port, privileged, segments, w.client.timeout⟩
    (env.timestamp w.outside).2).1, ?_⟩
  rw [callOnce_of_ok h host privileged]
  exact exchanges_append _ _

/-- One send carries the header of the call and then the arguments in their plain form, in whole
words, from which the arguments can be read again unless they name a kind of file by an arm that is
not its own. If the credential has no written form, nothing is sent. -/
theorem callOnce_sends (env : Environment ε) {f : PlainForm} (hf : f ∈ PlainForm.all)
    (r : Request f.Args) (host : String) (privileged : Bool) (w : World Dispatcher ε)
    (hm : ∃ b, (f.procedure.marshal r.args).run .empty = .ok () b) :
    let call := Task.exec env (callOnce f.procedure r host privileged) w
    match ((r.header f.procedure).marshal r.credential (env.timestamp w.outside).1).run .empty with
    | .error e _ => call.1 = .error e ∧ exchanges call.2.log = exchanges w.log
    | .ok _ head => ∃ segments answer,
        exchanges call.2.log = exchanges w.log ++
          [⟨⟨host, w.client.port, privileged, segments, w.client.timeout⟩, answer⟩] ∧
        segments.flatten = head.bytes ++ f.arguments.encode r.args ∧
        segments.flatten.length % 4 = 0 ∧
        (f.arguments.decode (segments.flatten.drop head.bytes.length) = .ok r.args [] ↔
          f.readable r.args) := by
  obtain ⟨b₀, hm⟩ := hm
  have hfaith := PlainForm.all_faithful f hf
  cases hh : ((r.header f.procedure).marshal r.credential (env.timestamp w.outside).1).run .empty
    with
  | error e b =>
    have hx := callOnce_of_error (Request.segments_of_error hh) host privileged
    exact ⟨congrArg Prod.fst hx, congrArg (fun x => exchanges x.2.log) hx⟩
  | ok _ head =>
    obtain ⟨hl, segments, hs, he⟩ := Request.segments_of_header hfaith hm hh
    obtain ⟨answer, hx⟩ := callOnce_of_segments hs host privileged
    refine ⟨segments, answer, hx, he, ?_, ?_⟩
    · rw [he, List.length_append, Nat.add_mod, hl, hfaith.aligned hm]
    · rw [he, List.drop_left]
      exact hfaith.decode_iff hm

def unanswered : World Dispatcher Playback where
  client := { server := "server", retry := default, timeout := default, port := 2049 }
  outside := { rules := [], script := [], names := .literal, ports := [] }

def smallWrite : Request WriteArgs :=
  ⟨7, .ofData ⟨[1, 2, 3]⟩ 512 .fileSync [0x68, 0x65, 0x6c, 0x6c, 0x6f], .none, 0⟩

theorem callOnce_sends_smallWrite :
    (⟨Procedures.write.toProcedure, WriteArgs.codec, Always⟩ : PlainForm) ∈ PlainForm.all ∧
    (∃ b, (Procedures.write.marshal smallWrite.args).run .empty = .ok () b) ∧
    ∃ segments answer,
      exchanges (Task.exec Playback.environment
        (callOnce Procedures.write.toProcedure smallWrite "server" false) unanswered).2.log =
          [⟨⟨"server", 2049, false, segments, default⟩, answer⟩] ∧
      segments.flatten.length = 76 ∧
      WriteArgs.codec.decode (segments.flatten.drop 40) = .ok smallWrite.args [] := by
  have hf : (⟨Procedures.write.toProcedure, WriteArgs.codec, Always⟩ : PlainForm) ∈
      PlainForm.all := by
    simp [PlainForm.all]
  have hm : ∃ b, (Procedures.write.marshal smallWrite.args).run .empty = .ok () b := ⟨_, rfl⟩
  refine ⟨hf, hm, ?_⟩
  have h := callOnce_sends Playback.environment hf smallWrite "server" false unanswered hm
  obtain ⟨head, hh, hl⟩ : ∃ head, ((smallWrite.header Procedures.write.toProcedure).marshal
      smallWrite.credential 0).run .empty = .ok () head ∧ head.bytes.length = 40 := ⟨_, rfl, rfl⟩
  have hs : (Playback.environment.timestamp unanswered.outside).1 = 0 := rfl
  simp only [hs, hh] at h
  obtain ⟨segments, answer, hx, he, -, hd⟩ := h
  rw [hl] at hd
  refine ⟨segments, answer, hx, ?_, hd.2 trivial⟩
  rw [he, List.length_append, hl]
  rfl

/-- A device named by the arm for kinds of file that carry no data. -/
def misnamed : Request MkNodArgs := ⟨7, ⟨⟨⟨[1]⟩, ⟨[0x61]⟩⟩, .other .characterDevice⟩, .none, 0⟩

theorem callOnce_misnamed_unreadable : ∃ head segments answer,
    ((misnamed.header Procedures.mkNod.toProcedure).marshal misnamed.credential 0).run .empty =
      .ok () head ∧
    exchanges (Task.exec Playback.environment
      (callOnce Procedures.mkNod.toProcedure misnamed "server" false) unanswered).2.log =
        [⟨⟨"server", 2049, false, segments, default⟩, answer⟩] ∧
    segments.flatten = head.bytes ++ MkNodArgs.codec.encode misnamed.args ∧
    MkNodArgs.codec.decode (segments.flatten.drop head.bytes.length) = .error .endOfInput [] :=
  ⟨_, _, _, rfl, rfl, rfl, rfl⟩

end Dispatcher
end Client
end Nfs3
