import Nfs3.Proofs.Client.Escalation

/-!
Where a call goes. The addresses and the name of the server decide, together with the routing key,
and all the sends of a call follow that; with neither addresses nor a name, nothing is sent.
-/
namespace Nfs3.Client.Dispatcher
open Wire Rpc Net
variable {ε Args Reply : Type} {env : Environment ε} {p : Procedure Args Reply} {r : Request Args}
  {w : World Dispatcher ε} {d : Dispatcher} {key : UInt64}

theorem host_of_chooseHost {host : String} (h : d.chooseHost key = .ok host) :
    (∃ a ∈ d.pool.addresses, host = a.text) ∨ d.pool.addresses = [] ∧ host = d.server := by
  unfold chooseHost at h
  split at h
  · rename_i a ha
    cases h
    exact .inl ⟨a, AddressPool.mem_of_pickBy ha, rfl⟩
  · rename_i hn
    split at h
    · cases h
    · cases h
      exact .inr ⟨AddressPool.pickBy_eq_none_iff.1 hn, rfl⟩

theorem chooseHost_of_not_hasRoute (h : ¬ d.HasRoute) (key : UInt64) :
    d.chooseHost key = .error (.noRouteAvailable d.server) := by
  simp only [HasRoute, not_or, not_not] at h
  obtain ⟨hp, hs⟩ := h
  simp [chooseHost, AddressPool.pickBy_eq_none_iff.2 hp, hs]

theorem attempt_hosts (env : Environment ε) (p : Procedure Args Reply) (r : Request Args)
    (w : World Dispatcher ε) :
    ∀ x ∈ Task.sendings env (attempt p r) w,
      x.seen.chooseHost r.routingKey = .ok x.message.host := by
  have once {host : String} (privileged : Bool) {w : World Dispatcher ε}
      (hh : w.client.chooseHost r.routingKey = .ok host) :
      ∀ x ∈ Task.sendings env (callOnce p r host privileged) w,
        x.seen.chooseHost r.routingKey = .ok x.message.host := by
    obtain ⟨_, -, ⟨_, _, -, -, hn⟩ | ⟨y, hs, rfl, -, -, hn⟩⟩ :=
      callOnce_cases env p r host privileged w
    · rw [hn]
      exact List.forall_mem_nil _
    · rw [hn]
      refine List.forall_mem_singleton.2 ?_
      rw [hs.seen, hh]
  obtain ⟨_, -, -, hs⟩ | ⟨host, v, w₁, hh, -, -, ⟨-, hs⟩ | ⟨-, -, hs⟩⟩ := attempt_cases env p r w
  · rw [hs]
    exact List.forall_mem_nil _
  · rw [hs]
    exact once _ hh
  · have hh' : (w.client.escalate p.number).chooseHost r.routingKey = .ok host := hh
    rw [hs]
    exact List.forall_mem_append.2 ⟨once _ hh, once true hh'⟩

variable (validate : Args → Reply → Except ClientError Unit)

theorem attempts_hosts (left failures : Nat) (w : World Dispatcher ε) :
    ∀ x ∈ Task.sendings env (attempts p r validate left failures) w,
      x.seen.chooseHost r.routingKey = .ok x.message.host := by
  induction left using Nat.strongRecOn generalizing failures w with
  | ind left ih =>
    obtain ⟨-, hs⟩ | ⟨e, k, w₂, -, -, rfl, -, -, hs⟩ :=
      attempts_cases env p r validate left failures w
    · rw [hs]
      exact attempt_hosts env p r w
    · rw [hs]
      exact List.forall_mem_append.2
        ⟨attempt_hosts env p r w, ih k (Nat.lt_succ_self k) (failures + 1) w₂⟩

theorem call_hosts (env : Environment ε) (p : Procedure Args Reply) (r : Request Args)
    (validate : Args → Reply → Except ClientError Unit) (w : World Dispatcher ε) :
    ∀ x ∈ Task.sendings env (call p r validate) w,
      x.seen.chooseHost r.routingKey = .ok x.message.host := by
  unfold call
  rw [Task.sendings_inspect_bind]
  exact attempts_hosts validate _ 0 w

theorem call_of_not_hasRoute (h : ¬ w.client.HasRoute) :
    Task.exec env (call p r validate) w = (.error (.noRouteAvailable w.client.server), w) ∧
      Task.sendings env (call p r validate) w = [] := by
  have hh := chooseHost_of_not_hasRoute h r.routingKey
  have hv : ∀ e, (.error (.noRouteAvailable w.client.server) : Except ClientError Reply) =
      .error e → e.isTransient = true → w.client.retry.attempts - 1 = 0 := by
    intro e he ht
    cases he
    cases ht
  have hx : Task.exec env (attempt p r) w = _ := attempt_of_error hh
  unfold call
  rw [Task.exec_lift_bind, Program.run_inspect, Task.sendings_inspect_bind]
  have hs : Task.sendings env (attempts p r validate _ 0) w = _ :=
    sendings_attempts_ends validate hx hv
  rw [sendings_attempt_of_error hh] at hs
  exact ⟨attempts_ends validate hx hv, hs⟩

theorem attempt_unsent (hr : w.client.HasRoute) (hn : Task.sendings env (attempt p r) w = []) :
    ∃ stamp e, r.segments p stamp = .error e ∧ (Task.exec env (attempt p r) w).1 = .error e := by
  have once {host : String} {privileged : Bool} {w : World Dispatcher ε}
      (hn : Task.sendings env (callOnce p r host privileged) w = []) : ∃ stamp e,
        r.segments p stamp = .error e ∧
        (Task.exec env (callOnce p r host privileged) w).1 = .error e := by
    obtain ⟨_, -, ⟨stamp, e, he, hx, -⟩ | ⟨_, -, -, -, -, hs⟩⟩ :=
      callOnce_cases env p r host privileged w
    · exact ⟨stamp, e, he, by rw [hx]⟩
    · rw [hn] at hs
      cases hs
  obtain ⟨e, he, -⟩ | ⟨host, v, w₁, -, hfirst, -, ⟨hx, hs⟩ | ⟨-, hx, hs⟩⟩ :=
    attempt_cases env p r w
  · obtain ⟨host, hh⟩ := chooseHost_of_hasRoute hr r.routingKey
    rw [he] at hh
    cases hh
  · rw [hs] at hn
    rw [hx, ← hfirst]
    exact once hn
  · rw [hs, List.append_eq_nil_iff] at hn
    rw [hx]
    exact once hn.2

theorem attempt_of_call_unsent (hn : Task.sendings env (call p r validate) w = []) :
    Task.sendings env (attempt p r) w = [] := by
  unfold call at hn
  rw [Task.sendings_inspect_bind] at hn
  obtain ⟨-, hs⟩ | ⟨_, _, _, -, -, -, -, -, hs⟩ :=
    attempts_cases env p r validate (w.client.retry.attempts - 1) 0 w
  · rwa [hs] at hn
  · rw [hs, List.append_eq_nil_iff] at hn
    exact hn.1

/-- A request with a written form is sent exactly if there is somebody to send it to. -/
theorem call_unsent_iff (hw : ∀ stamp, ∃ segments, r.segments p stamp = .ok segments) :
    Task.sendings env (call p r validate) w = [] ↔ ¬ w.client.HasRoute := by
  constructor
  · intro hn hr
    obtain ⟨stamp, e, he, -⟩ := attempt_unsent hr (attempt_of_call_unsent validate hn)
    obtain ⟨segments, hs⟩ := hw stamp
    rw [he] at hs
    cases hs
  · intro h
    exact (call_of_not_hasRoute validate h).2

theorem call_unsent (hp : p.Regular) (hr : w.client.HasRoute)
    (hn : Task.sendings env (call p r validate) w = []) :
    ∃ cause, (Task.exec env (call p r validate) w).1 = .error (.io cause) := by
  unfold call at hn ⊢
  rw [Task.sendings_inspect_bind] at hn
  rw [Task.exec_lift_bind, Program.run_inspect]
  have none (hn : Task.sendings env (attempt p r) w = []) :
      ∃ cause, (Task.exec env (attempt p r) w).1 = .error (.io cause) := by
    obtain ⟨stamp, e, he, hx⟩ := attempt_unsent hr hn
    obtain ⟨cause, rfl⟩ := Request.segments_faults hp he
    exact ⟨cause, hx⟩
  obtain ⟨hx, hs⟩ | ⟨e, k, w₂, he, ht, -, -, -, hs⟩ :=
    attempts_cases env p r validate (w.client.retry.attempts - 1) 0 w
  · obtain ⟨cause, he⟩ := none (hs ▸ hn)
    rw [hx, he]
    exact ⟨cause, rfl⟩
  · rw [hs, List.append_eq_nil_iff] at hn
    obtain ⟨cause, hc⟩ := none hn.1
    rw [he] at hc
    cases hc
    cases ht

end Nfs3.Client.Dispatcher
