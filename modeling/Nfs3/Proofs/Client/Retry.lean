import Nfs3.Client.Playback
import Nfs3.Procedures
import Nfs3.Proofs.Client.Answer
import Nfs3.Proofs.Client.Run
import Nfs3.Proofs.Net.AddressPool

/-! A call is sent again after transient failures and once more when its credential is refused. -/
namespace Nfs3.Client
open Wire Rpc Net

structure Exchange where
  message : Transmission
  answer : Except IoFailure Bytes

def exchanges (log : List Event) : List Exchange :=
  log.filterMap fun
    | .sent message answer => some ⟨message, answer⟩
    | _ => none

theorem exchanges_append (log news : List Event) :
    exchanges (log ++ news) = exchanges log ++ exchanges news :=
  List.filterMap_append

namespace Dispatcher
variable {ε Args Reply : Type} {env : Environment ε} {p : Procedure Args Reply} {r : Request Args}

/-- There is an address or a name to send to. -/
def HasRoute (d : Dispatcher) : Prop := d.pool.addresses ≠ [] ∨ d.server ≠ ""

theorem chooseHost_congr {d d' : Dispatcher} (hs : d.server = d'.server)
    (hh : d.hashing = d'.hashing) (hp : d.pool = d'.pool) (key : UInt64) :
    d.chooseHost key = d'.chooseHost key := by
  simp only [chooseHost, hs, hh, hp]

theorem chooseHost_of_hasRoute {d : Dispatcher} (h : d.HasRoute) (key : UInt64) :
    ∃ host, d.chooseHost key = .ok host := by
  unfold chooseHost
  split
  · exact ⟨_, rfl⟩
  · rename_i hn
    have hs : d.server ≠ "" := h.resolve_left (not_not.2 (AddressPool.pickBy_eq_none_iff.1 hn))
    exact ⟨d.server, if_neg (mt String.isEmpty_iff.1 hs)⟩

/-- How often the credential may still be refused. -/
def refusalsLeft (d : Dispatcher) (procedure : UInt32) : Nat :=
  if d.usesPrivilegedPort procedure then 0 else 1

theorem callOnce_of_error {w : World Dispatcher ε} {e : ClientError}
    (h : r.segments p (env.timestamp w.outside).1 = .error e) (host : String) (privileged : Bool) :
    Task.exec env (callOnce p r host privileged) w =
      (.error e, { w with outside := (env.timestamp w.outside).2 }) := by
  unfold callOnce
  rw [Task.exec_lift_bind, Program.run_timestamp, Task.exec_bind, h, Task.exec_ofExcept]

theorem callOnce_of_ok {w : World Dispatcher ε} {segments : List Bytes}
    (h : r.segments p (env.timestamp w.outside).1 = .ok segments) (host : String)
    (privileged : Bool) :
    let sent := World.answer env { w with outside := (env.timestamp w.outside).2 }
      (.send ⟨host, w.client.port, privileged, segments, w.client.timeout⟩)
    Task.exec env (callOnce p r host privileged) w =
      (r.judge p w.client.server sent.1, sent.2) := by
  intro sent
  unfold callOnce
  rw [Task.exec_lift_bind, Program.run_timestamp, Task.exec_bind, h, Task.exec_ofExcept]
  simp only [Task.exec_lift_bind, Program.run_inspect, Program.run_send]
  split
  · rename_i cause ha
    have ha : sent.1 = .error cause := ha
    rw [ha]
    rfl
  · rename_i reply ha
    have ha : sent.1 = .ok reply := ha
    rw [ha]
    exact Task.exec_ofExcept _

theorem callOnce_exec (env : Environment ε)
    (hm : ∀ stamp, ∃ segments, r.segments p stamp = .ok segments)
    (w : World Dispatcher ε) (host : String) (privileged : Bool) :
    ∃ last w', last.message.privileged = privileged ∧ w'.client = w.client ∧
      exchanges w'.log = exchanges w.log ++ [last] ∧
      Task.exec env (callOnce p r host privileged) w =
        (r.judge p w.client.server last.answer, w') := by
  obtain ⟨segments, hs⟩ := hm (env.timestamp w.outside).1
  let message : Transmission :=
    ⟨host, w.client.port, privileged, segments, w.client.timeout⟩
  let w₁ : World Dispatcher ε := { w with outside := (env.timestamp w.outside).2 }
  let sent := w₁.answer env (.send message)
  have hx := callOnce_of_ok hs host privileged
  exact ⟨⟨message, sent.1⟩, sent.2, rfl, rfl, exchanges_append _ _, hx⟩

structure Attempted (p : Procedure Args Reply) (r : Request Args) (w : World Dispatcher ε)
    (refused : List Exchange) (last : Exchange) (w' : World Dispatcher ε) : Prop where
  sent : exchanges w'.log = exchanges w.log ++ (refused ++ [last])
  client : ∃ escalated, w'.client = { w.client with escalated }
  refusals : ∀ e ∈ refused, e.message.privileged = false ∧ Refuses r.xid e.answer
  spent : refused.length + w'.client.refusalsLeft p.number ≤ w.client.refusalsLeft p.number
  final : Refuses r.xid last.answer → last.message.privileged = true

theorem usesPrivilegedPort_escalate (d : Dispatcher) (procedure : UInt32) :
    (d.escalate procedure).usesPrivilegedPort procedure = true := by
  simp [usesPrivilegedPort, escalate]

theorem attempt_of_error {w : World Dispatcher ε} {e : ClientError}
    (h : w.client.chooseHost r.routingKey = .error e) :
    Task.exec env (attempt p r) w = (.error e, w) := by
  unfold attempt
  rw [Task.exec_lift_bind, Program.run_inspect, h, Task.exec_bind, Task.exec_ofExcept]

section Attempt
variable {w w₁ : World Dispatcher ε} {host : String} {v : Except ClientError Reply}
  (hh : w.client.chooseHost r.routingKey = .ok host)
  (hx : Task.exec env (callOnce p r host (w.client.usesPrivilegedPort p.number)) w = (v, w₁))
include hh hx

/-- The first send ends an attempt, unless its credential is refused on an unprivileged port. -/
theorem attempt_ends
    (hv : (∃ s n stat, v = .error (.authRejected s n stat)) →
      w.client.usesPrivilegedPort p.number = true) :
    Task.exec env (attempt p r) w = (v, w₁) := by
  unfold Task.exec at hx
  unfold attempt
  rw [Task.exec_lift_bind, Program.run_inspect, hh, Task.exec_bind, Task.exec_ofExcept]
  simp only
  rw [Task.exec_lift_bind, hx]
  cases v with
  | ok reply => rfl
  | error e =>
    cases e with
    | authRejected s n stat =>
      simp only [hv ⟨s, n, stat, rfl⟩]
      rfl
    | _ => rfl

theorem attempt_escalates {s n : String} {stat : AuthStat} (hc : w₁.client = w.client)
    (hv : v = .error (.authRejected s n stat)) (hu : w.client.usesPrivilegedPort p.number = false) :
    Task.exec env (attempt p r) w = Task.exec env (callOnce p r host true)
      { w₁ with client := w.client.escalate p.number } := by
  have hh' : (w.client.escalate p.number).chooseHost r.routingKey = .ok host := hh
  unfold Task.exec at hx
  unfold attempt
  rw [Task.exec_lift_bind, Program.run_inspect, hh, Task.exec_bind, Task.exec_ofExcept]
  simp only
  rw [Task.exec_lift_bind, hx, hv]
  simp only [hu]
  rw [if_neg Bool.false_ne_true, Task.exec_lift_bind, Program.run_update, Task.exec_lift_bind,
    Program.run_inspect, Task.exec_bind, Task.exec_ofExcept, hc, hh']

end Attempt

theorem attempt_exec (env : Environment ε)
    (hm : ∀ stamp, ∃ segments, r.segments p stamp = .ok segments)
    (w : World Dispatcher ε) (hr : w.client.HasRoute) :
    ∃ refused last w', Attempted p r w refused last w' ∧
      Task.exec env (attempt p r) w = (r.judge p w.client.server last.answer, w') := by
  obtain ⟨host, hh⟩ := chooseHost_of_hasRoute hr r.routingKey
  obtain ⟨first, w₁, hp, hc, hs, hx⟩ :=
    callOnce_exec env hm w host (w.client.usesPrivilegedPort p.number)
  by_cases hf : Refuses r.xid first.answer ∧ w.client.usesPrivilegedPort p.number = false
  · obtain ⟨hf, hu⟩ := hf
    obtain ⟨s, n, stat, hj⟩ : ∃ s n stat, r.judge p w.client.server first.answer =
      .error (.authRejected s n stat) := Request.judge_refuses.1 hf
    let w₂ : World Dispatcher ε := { w₁ with client := w.client.escalate p.number }
    obtain ⟨last, w₃, hp₃, hc₃, hs₃, hx₃⟩ := callOnce_exec env hm w₂ host true
    refine ⟨[first], last, w₃, ⟨?_, ⟨_, hc₃⟩, ?_, ?_, fun _ => hp₃⟩, ?_⟩
    · rw [hs₃]
      change exchanges w₁.log ++ _ = _
      rw [hs, List.append_assoc]
    · intro e he
      obtain rfl := List.mem_singleton.1 he
      exact ⟨hp.trans hu, hf⟩
    · rw [hc₃]
      simp [refusalsLeft, hu, w₂, usesPrivilegedPort_escalate]
    · rw [attempt_escalates hh hx hc hj hu]
      exact hx₃
  · have hu (h : Refuses r.xid first.answer) : w.client.usesPrivilegedPort p.number = true :=
      eq_true_of_ne_false fun hu => hf ⟨h, hu⟩
    refine ⟨[], first, w₁, ⟨hs, ⟨_, hc⟩, nofun, ?_, fun h => hp.trans (hu h)⟩, ?_⟩
    · rw [hc]
      exact Nat.le_of_eq (Nat.zero_add _)
    · exact attempt_ends hh hx fun h => hu (Request.judge_refuses.2 h)

/-- The sends of a call in order. All but the last are transient failures, with the sends refused
for their credential in between. -/
structure Course (r : Request Args) (escalations failures : Nat)
    (before refused after : List Exchange) (last : Exchange) : Prop where
  transient : ∀ e ∈ before ++ after, Transient r.xid e.answer
  refusals : ∀ e ∈ refused, e.message.privileged = false ∧ Refuses r.xid e.answer
  refused_le : refused.length ≤ escalations
  failures_le : before.length + after.length ≤ failures
  exhausted : Transient r.xid last.answer → before.length + after.length = failures
  privileged : Refuses r.xid last.answer → last.message.privileged = true

section Attempts
variable {w w₁ : World Dispatcher ε} {v : Except ClientError Reply} {left failures : Nat}
  (validate : Args → Reply → Except ClientError Unit)
  (hx : Task.exec env (attempt p r) w = (v, w₁))
include hx

theorem attempts_ends (hv : ∀ e, v = .error e → e.isTransient = true → left = 0) :
    Task.exec env (attempts p r validate left failures) w =
      (v.bind fun u => (validate r.args u).map fun _ => u, w₁) := by
  unfold Task.exec at hx
  rw [attempts.eq_def, Task.exec_lift_bind, hx]
  cases v with
  | ok u =>
    simp only [Task.exec_bind, Task.exec_ofExcept]
    change _ = ((validate r.args u).map fun _ => u, w₁)
    cases validate r.args u <;> rfl
  | error e =>
    by_cases ht : e.isTransient = true
    · obtain rfl := hv e rfl ht
      simp only [ht, if_true]
      rfl
    · simp only [ht]
      rfl

theorem attempts_again {e : ClientError} (hv : v = .error e) (ht : e.isTransient = true) :
    Task.exec env (attempts p r validate (left + 1) failures) w =
      Task.exec env (attempts p r validate left (failures + 1))
        ((Program.sleep (w₁.client.retry.backoff (failures + 1))).run env w₁).2 := by
  unfold Task.exec at hx
  rw [attempts.eq_def, Task.exec_lift_bind, hx, hv]
  simp only [ht, if_true]
  rw [Task.exec_lift_bind, Program.run_inspect, Task.exec_lift_bind]

end Attempts

theorem refusalsLeft_le_one (d : Dispatcher) (procedure : UInt32) :
    d.refusalsLeft procedure ≤ 1 := by
  unfold refusalsLeft
  split <;> omega

section Course
variable {w w₁ : World Dispatcher ε} {refused₁ before refused after : List Exchange}
  {first last : Exchange} {left : Nat} (ha : Attempted p r w refused₁ first w₁)
include ha

theorem Attempted.course (h : Transient r.xid first.answer → left = 0) :
    Course r (w.client.refusalsLeft p.number) left [] refused₁ [] first where
  transient := nofun
  refusals := ha.refusals
  refused_le := Nat.le_of_add_right_le ha.spent
  failures_le := Nat.zero_le left
  exhausted ht := (h ht).symm
  privileged := ha.final

/-- A transient failure goes in front of the course that follows it. After a refusal all sends are
privileged, so that no other can follow. -/
theorem Attempted.before_course (ht : Transient r.xid first.answer)
    (hc : Course r (w₁.client.refusalsLeft p.number) left before refused after last) :
    ∃ before' refused' after',
      before' ++ refused' ++ after' = refused₁ ++ [first] ++ (before ++ refused ++ after) ∧
      Course r (w.client.refusalsLeft p.number) (left + 1) before' refused' after' last := by
  have hspent := ha.spent
  have hle := hc.refused_le
  have hf := hc.failures_le
  cases hr : refused₁ with
  | nil =>
    refine ⟨first :: before, refused, after, by simp, ?_⟩
    refine ⟨?_, hc.refusals, by omega, ?_, ?_, hc.privileged⟩
    · exact List.forall_mem_cons.2 ⟨ht, hc.transient⟩
    · rw [List.length_cons]
      omega
    · intro h
      have he := hc.exhausted h
      rw [List.length_cons]
      omega
  | cons e es =>
    have h1 := refusalsLeft_le_one w.client p.number
    rw [hr, List.length_cons] at hspent
    obtain rfl : refused = [] := List.length_eq_zero_iff.1 (by omega)
    refine ⟨[], e :: es, first :: (before ++ after), by simp, ?_⟩
    refine ⟨?_, by rw [← hr]; exact ha.refusals, by rw [List.length_cons]; omega, ?_, ?_,
      hc.privileged⟩
    · exact List.forall_mem_cons.2 ⟨ht, hc.transient⟩
    · simp only [List.length_nil, List.length_cons, List.length_append]
      omega
    · intro h
      have he := hc.exhausted h
      simp only [List.length_nil, List.length_cons, List.length_append]
      omega

end Course

theorem attempts_exec (env : Environment ε)
    (hm : ∀ stamp, ∃ segments, r.segments p stamp = .ok segments)
    (left failures : Nat) (w : World Dispatcher ε) (hr : w.client.HasRoute) :
    ∃ before refused after last w',
      exchanges w'.log = exchanges w.log ++ (before ++ refused ++ after ++ [last]) ∧
      Course r (w.client.refusalsLeft p.number) left before refused after last ∧
      ∀ validate, Task.exec env (attempts p r validate left failures) w =
        (r.settle p w.client.server validate last.answer, w') := by
  induction left generalizing failures w with
  | zero =>
    obtain ⟨refused, last, w₁, ha, hx⟩ := attempt_exec env hm w hr
    refine ⟨[], refused, [], last, w₁, by simpa using ha.sent, ha.course fun _ => rfl, ?_⟩
    exact fun validate => attempts_ends validate hx fun _ _ _ => rfl
  | succ left ih =>
    obtain ⟨refused₁, first, w₁, ha, hx⟩ := attempt_exec env hm w hr
    by_cases ht : Transient r.xid first.answer
    · obtain ⟨escalated, hc⟩ := ha.client
      let pause := w₁.client.retry.backoff (failures + 1)
      have hp := Program.run_sleep env pause w₁
      let w₂ := { w₁ with clock := w₁.clock + env.timer pause }.record (.slept pause)
      have hc₂ : w₂.client = w₁.client := rfl
      have hs₂ : exchanges w₂.log = exchanges w₁.log :=
        (exchanges_append w₁.log [.slept pause]).trans (List.append_nil _)
      have hs : w₂.client.server = w.client.server := by rw [hc₂, hc]
      have hr₂ : w₂.client.HasRoute := by
        rw [hc₂, hc]
        exact hr
      obtain ⟨before, refused, after, last, w', hsent, hcourse, hrest⟩ := ih (failures + 1) w₂ hr₂
      rw [hc₂] at hcourse
      obtain ⟨before', refused', after', he, hcourse'⟩ := ha.before_course ht hcourse
      refine ⟨before', refused', after', last, w', ?_, hcourse', ?_⟩
      · rw [hsent, he, hs₂, ha.sent]
        simp only [List.append_assoc]
      · intro validate
        obtain ⟨e, hj, he⟩ := Request.judge_transient.1 ht
        rw [attempts_again validate hx hj he, hp, hrest, hs]
    · refine ⟨[], refused₁, [], first, w₁, by simpa using ha.sent,
        ha.course fun h => (ht h).elim, ?_⟩
      intro validate
      exact attempts_ends validate hx fun e he h =>
        (ht (Request.judge_transient.2 ⟨e, he, h⟩)).elim

/-- A call ends after a bounded number of sends, whatever comes back and whatever `validate` makes
of it. The last answer alone fixes the result. -/
theorem call_settles (env : Environment ε) (p : Procedure Args Reply) (r : Request Args)
    (w : World Dispatcher ε) (hr : w.client.HasRoute)
    (hm : ∀ stamp, ∃ segments, r.segments p stamp = .ok segments) :
    ∃ before refused after last w',
      exchanges w'.log = exchanges w.log ++ (before ++ refused ++ after ++ [last]) ∧
      (before ++ refused ++ after ++ [last]).length ≤ max 1 w.client.retry.maxAttempts.toNat + 1 ∧
      Course r 1 (max 1 w.client.retry.maxAttempts.toNat - 1) before refused after last ∧
      ∀ validate, (Task.exec env (call p r validate) w).2 = w' ∧
        ∀ result, Settles p r w.client.server validate last.answer result ↔
          (Task.exec env (call p r validate) w).1 = result := by
  have hl : w.client.retry.attempts - 1 = max 1 w.client.retry.maxAttempts.toNat - 1 := by
    rw [RetryPolicy.attempts, Nat.max_comm]
  obtain ⟨before, refused, after, last, w', hs, hc, hx⟩ :=
    attempts_exec env hm (w.client.retry.attempts - 1) 0 w hr
  rw [hl] at hc
  have h1 := Nat.le_trans hc.refused_le (refusalsLeft_le_one w.client p.number)
  have hf := hc.failures_le
  refine ⟨before, refused, after, last, w', hs, ?_, { hc with refused_le := h1 }, ?_⟩
  · simp only [List.length_append, List.length_singleton]
    omega
  · intro validate
    rw [call, Task.exec_lift_bind, Program.run_inspect, hx]
    exact ⟨rfl, fun result => Request.settles_iff⟩

/-- A lost reply, a refused credential, a reply to another call and success. -/
def interrupted : World Dispatcher Playback where
  client := { server := "server", retry := default, timeout := default }
  outside :=
    { rules := [], names := .literal, ports := []
      script := [.failure ⟨.connectionReset, "reset"⟩,
        .reply 0 [0, 0, 0, 1, 0, 0, 0, 1, 0, 0, 0, 1, 0, 0, 0, 5],
        .reply 1 [0, 0, 0, 1, 0, 0, 0, 0, 0, 0, 0, 0, 0, 0, 0, 0, 0, 0, 0, 0],
        .reply 0 [0, 0, 0, 1, 0, 0, 0, 0, 0, 0, 0, 0, 0, 0, 0, 0, 0, 0, 0, 0]] }

def ping : Request Unit := ⟨7, (), .none, 0⟩

theorem ping_segments (stamp : UInt32) :
    ∃ segments, ping.segments Procedures.null stamp = .ok segments := by
  have hs : ping.segments Procedures.null stamp = ping.segments Procedures.null 0 := by
    have h : ping.credential.marshal stamp = ping.credential.marshal 0 := rfl
    unfold Request.segments CallHeader.marshal
    rw [h]
  have hk : (ping.segments Procedures.null 0).isOk = true := by decide +kernel
  rw [hs]
  cases h : ping.segments Procedures.null 0 with
  | ok segments => exact ⟨segments, rfl⟩
  | error e =>
    rw [h] at hk
    cases hk

theorem call_settles_interrupted : interrupted.client.HasRoute ∧
    (∀ stamp, ∃ segments, ping.segments Procedures.null stamp = .ok segments) ∧
    (∃ before refused after last w',
      exchanges w'.log = [] ++ (before ++ refused ++ after ++ [last]) ∧
      (before ++ refused ++ after ++ [last]).length ≤ 4 ∧
      Course ping 1 2 before refused after last ∧
      ∀ validate, (Task.exec Playback.environment (call Procedures.null ping validate)
          interrupted).2 = w' ∧
        ∀ result, Settles Procedures.null ping "server" validate last.answer result ↔
          (Task.exec Playback.environment (call Procedures.null ping validate)
            interrupted).1 = result) ∧
    let run := Task.exec Playback.environment (call Procedures.null ping acceptAny) interrupted
    run.1.isOk = true ∧ (exchanges run.2.log).length = 4 := by
  have hr : interrupted.client.HasRoute := .inr (by decide)
  refine ⟨hr, ping_segments, ?_, by decide +kernel⟩
  exact call_settles Playback.environment Procedures.null ping interrupted hr ping_segments

end Dispatcher
end Nfs3.Client
