import Nfs3.Proofs.Client.Calls

/-!
The whole record of a call. All that is sent is one request, and the call comes to a result exactly
if a reply that holds it is on record.
-/
namespace Nfs3.Client
open Wire Rpc

variable {Args Reply : Type} {p : Procedure Args Reply} {r : Request Args} {es es' : List Event}
  {v : Except ClientError Reply}

theorem answered_append {u : Reply} :
    Answered (es ++ es') p r u ↔ Answered es p r u ∨ Answered es' p r u := by
  unfold Answered
  simp only [List.mem_append, or_and_right, exists_or]

theorem answered_sent {m : Transmission} {answer : Except IoFailure Bytes} {stamp : UInt32}
    (h : r.segments p stamp = .ok m.segments) (server : String) (u : Reply) :
    Answered [.sent m answer] p r u ↔ r.judge p server answer = .ok u := by
  constructor
  · intro ha
    obtain ⟨m', bytes, stamp', q, rest, hm, -, hs, hd⟩ := ha
    cases List.mem_singleton.1 hm
    change r.readReply p server bytes = _
    rw [Request.readReply_of_head hs]
    change Request.readResult p bytes q = _
    rw [Request.readResult, hd]
  · intro hj
    cases answer with
    | error cause => cases hj
    | ok bytes =>
      obtain ⟨q, rest, hs, hd⟩ := Request.says_of_readReply hj
      exact ⟨m, bytes, stamp, q, rest, List.mem_singleton_self _, h, hs, hd⟩

structure Recorded (p : Procedure Args Reply) (r : Request Args) (es : List Event)
    (v : Except ClientError Reply) : Prop where
  events : ∀ e ∈ es, (∃ d, e = .slept d) ∨
    ∃ m answer stamp, e = .sent m answer ∧ r.segments p stamp = .ok m.segments
  answered : ∀ u, Answered es p r u ↔ v = .ok u

namespace Recorded

theorem nil (e : ClientError) : Recorded p r [] (.error e) :=
  ⟨nofun, fun u => ⟨fun h => by simp [Answered] at h, nofun⟩⟩

theorem slept (d : Duration) (e : ClientError) : Recorded p r [.slept d] (.error e) where
  events _ he := .inl ⟨d, List.mem_singleton.1 he⟩
  answered u := ⟨fun h => by simp [Answered] at h, nofun⟩

theorem sent {m : Transmission} {stamp : UInt32} (h : r.segments p stamp = .ok m.segments)
    (server : String) (answer : Except IoFailure Bytes) :
    Recorded p r [.sent m answer] (r.judge p server answer) where
  events _ he := .inr ⟨m, answer, stamp, List.mem_singleton.1 he, h⟩
  answered := answered_sent h server

theorem append {e : ClientError} (h : Recorded p r es (.error e)) (h' : Recorded p r es' v) :
    Recorded p r (es ++ es') v where
  events := List.forall_mem_append.2 ⟨h.events, h'.events⟩
  answered u := by
    rw [answered_append, h.answered, h'.answered]
    simp

end Recorded

namespace Dispatcher

theorem callOnce_recorded {host : String} {privileged : Bool}
    (h : Task.Trace (callOnce p r host privileged) es v) : Recorded p r es v := by
  obtain ⟨stamp, es₁, h₁, rfl⟩ := Task.Trace.of_ask_bind (a := .timestamp) h
  obtain ⟨e, -, rfl, rfl⟩ | ⟨segments, hs, h₂⟩ := Task.Trace.of_ofExcept_bind h₁
  · exact .nil e
  obtain ⟨d, es₂, h₃, rfl⟩ := Task.Trace.of_ask_bind (a := .inspect) h₂
  obtain ⟨answer, es₃, h₄, rfl⟩ := Task.Trace.of_ask_bind (a := .send _) h₃
  have hsent := Recorded.sent (m := ⟨host, d.port, privileged, segments, d.timeout⟩) hs d.server
    answer
  cases answer with
  | error cause =>
    obtain ⟨rfl, rfl⟩ := Task.Trace.done_of_ofExcept (x := .error _) h₄
    exact hsent
  | ok bytes =>
    obtain ⟨rfl, rfl⟩ := h₄.done_of_ofExcept
    exact hsent

theorem attempt_recorded (h : Task.Trace (attempt p r) es v) : Recorded p r es v := by
  obtain ⟨d, es₁, h₁, rfl⟩ := Task.Trace.of_ask_bind (a := .inspect) h
  obtain ⟨e, -, rfl, rfl⟩ | ⟨host, -, h₂⟩ := Task.Trace.of_ofExcept_bind h₁
  · exact .nil e
  obtain ⟨es₂, result, es₃, hc, h₃, rfl⟩ := Task.Trace.of_lift_bind h₂
  have hfirst : Recorded p r es₂ result := callOnce_recorded hc
  split at h₃
  · obtain ⟨rfl, rfl⟩ := Task.Trace.done_of_ofExcept (x := .ok _) h₃
    simpa [Action.events] using hfirst
  · split at h₃
    · obtain ⟨rfl, rfl⟩ := Task.Trace.done_of_ofExcept (x := .error _) h₃
      simpa [Action.events] using hfirst
    · obtain ⟨_, es₄, h₄, rfl⟩ := Task.Trace.of_ask_bind (a := .update _) h₃
      obtain ⟨d', es₅, h₅, rfl⟩ := Task.Trace.of_ask_bind (a := .inspect) h₄
      refine hfirst.append ?_
      obtain ⟨e, -, rfl, rfl⟩ | ⟨host', -, h₆⟩ := Task.Trace.of_ofExcept_bind h₅
      · exact .nil e
      · exact callOnce_recorded h₆
  · obtain ⟨rfl, rfl⟩ := Task.Trace.done_of_ofExcept (x := .error _) h₃
    simpa [Action.events] using hfirst

theorem attempts_recorded_step {left failures : Nat}
    (hk : ∀ k, left = k + 1 → ∀ es, Task.Trace (attempts p r acceptAny k (failures + 1)) es v →
      Recorded p r es v)
    (h : Task.Trace (attempts p r acceptAny left failures) es v) : Recorded p r es v := by
  rw [attempts.eq_def] at h
  obtain ⟨es₁, result, es₂, ha, h₁, rfl⟩ := Task.Trace.of_lift_bind h
  have hfirst : Recorded p r es₁ result := attempt_recorded ha
  cases result with
  | ok reply =>
    obtain ⟨rfl, rfl⟩ := Task.Trace.done_of_ofExcept (x := .ok _) h₁
    simpa using hfirst
  | error e =>
    simp only at h₁
    split at h₁
    · cases left with
      | zero =>
        obtain ⟨rfl, rfl⟩ := Task.Trace.done_of_ofExcept (x := .error _) h₁
        simpa using hfirst
      | succ k =>
        obtain ⟨d, es₃, h₂, rfl⟩ := Task.Trace.of_ask_bind (a := .inspect) h₁
        obtain ⟨_, es₄, h₃, rfl⟩ := Task.Trace.of_ask_bind (a := .sleep _) h₂
        exact hfirst.append ((Recorded.slept _ e).append (hk k rfl es₄ h₃))
    · obtain ⟨rfl, rfl⟩ := Task.Trace.done_of_ofExcept (x := .error _) h₁
      simpa using hfirst

theorem attempts_recorded {left failures : Nat}
    (h : Task.Trace (attempts p r acceptAny left failures) es v) : Recorded p r es v := by
  induction left generalizing failures es with
  | zero => exact attempts_recorded_step (fun k hk => (Nat.succ_ne_zero k hk.symm).elim) h
  | succ left ih =>
    refine attempts_recorded_step (fun k hk es h => ?_) h
    cases hk
    exact ih h

theorem call_recorded (h : Task.Trace (call p r acceptAny) es v) : Recorded p r es v := by
  obtain ⟨d, es₁, h₁, rfl⟩ := Task.Trace.of_ask_bind (a := .inspect) h
  exact attempts_recorded h₁

end Dispatcher
end Nfs3.Client
