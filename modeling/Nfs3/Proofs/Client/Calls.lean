import Nfs3.Client.Portmapper
import Nfs3.Proofs.Client.Answer
import Nfs3.Proofs.Client.Trace

/-! Whoever gets a result out of a call finds the reply that holds it on record. -/
namespace Nfs3.Client
open Wire Rpc
variable {Args Reply : Type} {p : Procedure Args Reply} {r : Request Args} {es : List Event}

/-- On record is the request, and a reply to it that accepts it with the result `v`. -/
def Answered (es : List Event) (p : Procedure Args Reply) (r : Request Args) (v : Reply) : Prop :=
  ∃ message bytes stamp q rest, .sent message (.ok bytes) ∈ es ∧
    r.segments p stamp = .ok message.segments ∧ Says r.xid bytes (.accepted .success) q ∧
    p.reply.decode (bytes.drop q) = .ok v rest

theorem Answered.mono {es' : List Event} {v : Reply} (h : Answered es p r v)
    (hs : ∀ e ∈ es, e ∈ es') : Answered es' p r v := by
  obtain ⟨message, bytes, stamp, q, rest, hm, h⟩ := h
  exact ⟨message, bytes, stamp, q, rest, hs _ hm, h⟩

theorem Request.says_of_readReply {server : String} {bytes : Bytes} {v : Reply}
    (h : r.readReply p server bytes = .ok v) :
    ∃ q rest, Says r.xid bytes (.accepted .success) q ∧
      p.reply.decode (bytes.drop q) = .ok v rest := by
  have hs := settles_judge p r server (.ok bytes)
  rw [judge, h] at hs
  cases hs with
  | valid hv hd _ => exact ⟨_, _, hv, hd⟩

theorem Program.Trace.of_send {σ : Type} {m : Transmission} {answer : Except IoFailure Bytes}
    (h : Trace (send m : Program σ _) es answer) : es = [.sent m answer] := by
  cases h with
  | act h =>
    cases h
    rfl

theorem Program.Trace.of_fresh {σ : Type} {args : Args} {credential : Credential}
    (h : Trace (Request.fresh args credential : Program σ _) es r) : r.args = args := by
  obtain ⟨_, _, _, -, hd, -⟩ := Trace.of_bind h
  cases hd
  rfl

namespace Dispatcher

theorem callOnce_trace {host : String} {privileged : Bool} {v : Reply}
    (h : Task.Trace (callOnce p r host privileged) es (.ok v)) : Answered es p r v := by
  obtain ⟨es₁, stamp, es₂, -, h₁, rfl⟩ := h.of_bind_ok
  obtain ⟨es₃, segments, es₄, hs, h₂, rfl⟩ := h₁.of_bind_ok
  obtain ⟨es₅, d, es₆, -, h₃, rfl⟩ := h₂.of_bind_ok
  obtain ⟨es₇, answer, es₈, ha, h₄, rfl⟩ := h₃.of_bind_ok
  cases answer with
  | error cause => cases h₄.of_throw
  | ok bytes =>
    obtain ⟨q, rest, hv, hd⟩ := Request.says_of_readReply h₄.of_ofExcept.symm
    obtain ⟨_, hu, ha⟩ := ha.of_lift
    cases hu
    refine ⟨⟨host, d.port, privileged, segments, d.timeout⟩, bytes, stamp, q, rest, ?_,
      hs.of_ofExcept.symm, hv, hd⟩
    rw [ha.of_send]
    simp

theorem attempt_trace {v : Reply} (h : Task.Trace (attempt p r) es (.ok v)) :
    Answered es p r v := by
  obtain ⟨es₁, d, es₂, -, h₁, rfl⟩ := h.of_bind_ok
  obtain ⟨es₃, host, es₄, -, h₂, rfl⟩ := h₁.of_bind_ok
  obtain ⟨es₅, result, es₆, hc, h₃, rfl⟩ := h₂.of_bind_ok
  obtain ⟨_, hu, hc⟩ := hc.of_lift
  cases hu
  split at h₃
  · cases h₃.of_pure
    exact (callOnce_trace hc).mono fun _ he => by simp [he]
  · split at h₃
    · cases h₃.of_throw
    · obtain ⟨es₇, _, es₈, -, h₄, rfl⟩ := h₃.of_bind_ok
      obtain ⟨es₉, _, es₁₀, -, h₅, rfl⟩ := h₄.of_bind_ok
      obtain ⟨es₁₁, _, es₁₂, -, h₆, rfl⟩ := h₅.of_bind_ok
      exact (callOnce_trace h₆).mono fun _ he => by simp [he]
  · cases h₃.of_throw

variable {validate : Args → Reply → Except ClientError Unit} {left failures : Nat} {v : Reply}

theorem attempts_trace_step (h : Task.Trace (attempts p r validate left failures) es (.ok v)) :
    Answered es p r v ∨ ∃ k es₁ es₂, left = k + 1 ∧ es = es₁ ++ es₂ ∧
      Task.Trace (attempts p r validate k (failures + 1)) es₂ (.ok v) := by
  rw [attempts.eq_def] at h
  obtain ⟨es₁, result, es₂, ha, h₁, rfl⟩ := h.of_bind_ok
  obtain ⟨_, hu, ha⟩ := ha.of_lift
  cases hu
  cases result with
  | ok reply =>
    obtain ⟨es₃, _, es₄, -, h₂, rfl⟩ := h₁.of_bind_ok
    cases h₂.of_pure
    exact .inl ((attempt_trace ha).mono fun _ he => by simp [he])
  | error e =>
    simp only at h₁
    split at h₁
    · cases left with
      | zero => cases h₁.of_throw
      | succ k =>
        obtain ⟨es₃, _, es₄, -, h₂, rfl⟩ := h₁.of_bind_ok
        obtain ⟨es₅, _, es₆, -, h₃, rfl⟩ := h₂.of_bind_ok
        exact .inr ⟨k, es₁ ++ es₃ ++ es₅, es₆, rfl, by simp, h₃⟩
    · cases h₁.of_throw

theorem attempts_trace (h : Task.Trace (attempts p r validate left failures) es (.ok v)) :
    Answered es p r v := by
  induction left generalizing failures es with
  | zero =>
    obtain ha | ⟨k, _, _, hk, -⟩ := attempts_trace_step h
    · exact ha
    · cases hk
  | succ left ih =>
    obtain ha | ⟨k, es₁, es₂, hk, rfl, h⟩ := attempts_trace_step h
    · exact ha
    · cases hk
      exact (ih h).mono fun _ he => by simp [he]

theorem call_trace (h : Task.Trace (call p r validate) es (.ok v)) : Answered es p r v := by
  obtain ⟨es₁, d, es₂, -, h₁, rfl⟩ := h.of_bind_ok
  exact (attempts_trace h₁).mono fun _ he => by simp [he]

/-- A call changes nothing in its dispatcher but which procedures go from a privileged port, and has
no use for the lock. -/
def EscalatesOnly : Action Dispatcher → Prop
  | .update f => ∃ procedure, f = (·.escalate procedure)
  | .acquire | .release => False
  | _ => True

/-- All that a call of `procedure` asks for. -/
def OfCall (procedure : UInt32) : Action Dispatcher → Prop
  | .send _ | .sleep _ | .timestamp | .inspect => True
  | .update f => f = (·.escalate procedure)
  | _ => False

def OfAttempt (procedure : UInt32) : Action Dispatcher → Prop
  | .send _ | .timestamp | .inspect => True
  | .update f => f = (·.escalate procedure)
  | _ => False

theorem OfAttempt.ofCall {procedure : UInt32} {a : Action Dispatcher} (h : OfAttempt procedure a) :
    OfCall procedure a := by
  cases a with
  | sleep pause => trivial
  | _ => exact h

theorem only_callOnce {host : String} {privileged : Bool} :
    Task.Only (OfAttempt p.number) (callOnce p r host privileged) := by
  refine Task.only_bind (Task.only_lift (Program.only_ask trivial)) fun stamp => ?_
  refine Task.only_bind (Task.only_ofExcept _) fun segments => ?_
  refine Task.only_bind (Task.only_lift (Program.only_ask trivial)) fun d => ?_
  refine Task.only_bind (Task.only_lift (Program.only_ask trivial)) fun answer => ?_
  cases answer with
  | error cause => trivial
  | ok reply => exact Task.only_ofExcept _

theorem only_attempt : Task.Only (OfAttempt p.number) (attempt p r) := by
  refine Task.only_bind (Task.only_lift (Program.only_ask trivial)) fun d => ?_
  refine Task.only_bind (Task.only_ofExcept _) fun host => ?_
  refine Task.only_bind (Task.only_lift only_callOnce) fun result => ?_
  split
  · trivial
  · split
    · trivial
    · refine Task.only_bind (Task.only_lift (Program.only_ask rfl)) fun _ => ?_
      refine Task.only_bind (Task.only_lift (Program.only_ask trivial)) fun d => ?_
      exact Task.only_bind (Task.only_ofExcept _) fun host => only_callOnce
  · trivial

theorem only_attempts_step
    (h : ∀ k, left = k + 1 →
      Task.Only (OfCall p.number) (attempts p r validate k (failures + 1))) :
    Task.Only (OfCall p.number) (attempts p r validate left failures) := by
  rw [attempts.eq_def]
  have ha : Task.Only (OfCall p.number) (attempt p r) :=
    Program.only_mono only_attempt fun _ => OfAttempt.ofCall
  refine Task.only_bind (Task.only_lift ha) fun result => ?_
  cases result with
  | ok reply => exact Task.only_bind (Task.only_ofExcept _) fun _ => trivial
  | error e =>
    simp only
    split
    · cases left with
      | zero => trivial
      | succ k =>
        refine Task.only_bind (Task.only_lift (Program.only_ask trivial)) fun d => ?_
        exact Task.only_bind (Task.only_lift (Program.only_ask trivial)) fun _ => h k rfl
    · trivial

theorem only_attempts : Task.Only (OfCall p.number) (attempts p r validate left failures) := by
  induction left generalizing failures with
  | zero => exact only_attempts_step nofun
  | succ left ih =>
    refine only_attempts_step fun k hk => ?_
    cases hk
    exact ih

theorem only_ofCall : Task.Only (OfCall p.number) (call p r validate) :=
  Task.only_bind (Task.only_lift (Program.only_ask trivial)) fun _ => only_attempts

theorem only_call : Task.Only EscalatesOnly (call p r validate) :=
  Program.only_mono only_ofCall fun a h => by
    cases a with
    | update f => exact ⟨p.number, h⟩
    | _ => trivial

theorem lockFree_call : Task.Only Action.LockFree (call p r validate) :=
  Program.only_mono only_call fun a h => by cases a <;> trivial

theorem lockFree_setPort (port : UInt16) : (setPort port).Only Action.LockFree :=
  Program.only_bind (Program.only_ask trivial) fun _ =>
    Program.only_bind (Program.only_ask trivial) fun _ => Program.only_ask trivial

end Dispatcher

namespace Portmapper

theorem call_trace {server : String} {args : Args} {v : Reply}
    (h : Task.Trace (call server p args) es (.ok v)) :
    ∃ r : Request Args, r.args = args ∧ Answered es p r v := by
  obtain ⟨es₁, _, es₂, -, h₁, rfl⟩ := h.of_bind_ok
  obtain ⟨es₃, r, es₄, hr, h₂, rfl⟩ := h₁.of_bind_ok
  obtain ⟨_, hu, hr⟩ := hr.of_lift
  cases hu
  have ha : Answered es₄ p r v := Dispatcher.call_trace (Program.Trace.of_onPart h₂)
  exact ⟨r, hr.of_fresh, ha.mono fun _ he => by simp [he]⟩

theorem lockFree_resolve (server : String) (service : Service) :
    Task.Only Action.LockFree (resolve server service) := by
  refine Task.only_bind ?_ fun _ => Task.only_ofExcept _
  refine Task.only_bind (Task.only_lift ?_) fun _ => ?_
  · refine Program.only_bind (Program.only_ask trivial) fun m => ?_
    split
    · trivial
    · exact Program.only_bind (Program.only_ask trivial) fun _ => Program.only_ask trivial
  · refine Task.only_bind (Task.only_lift ?_) fun _ =>
      Program.lockFree_onPart Dispatcher.lockFree_call
    exact Program.only_bind (Program.only_ask trivial) fun _ => trivial

theorem resolve_trace {server : String} {service : Service} {port : UInt16}
    (h : Task.Trace (resolve server service) es (.ok port)) :
    ∃ (r : Request PortMapping) (number : UInt32),
      r.args = ⟨service.program, service.version, tcp, 0⟩ ∧
      Answered es Procedures.getPort r number ∧ readPort server service number = .ok port := by
  obtain ⟨es₁, number, es₂, hc, h₁, rfl⟩ := h.of_bind_ok
  obtain ⟨r, hr, ha⟩ := call_trace hc
  exact ⟨r, number, hr, ha.mono fun _ he => by simp [he], h₁.of_ofExcept.symm⟩

end Portmapper
end Nfs3.Client
