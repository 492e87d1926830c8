import Nfs3.Proofs.Client.Sends
import Nfs3.Proofs.Rpc.Marshalling

/-!
Which procedures go from a privileged port, over the whole life of a dispatcher. A procedure is
escalated by the first refusal of its credential on an unprivileged port, and by nothing else.
-/
namespace Nfs3.Client
open Wire Rpc
variable {ε Args Reply : Type} {env : Environment ε} {p : Procedure Args Reply} {r : Request Args}

theorem Request.segments_error {P : ClientError → Prop} (hio : ∀ cause, P (.io cause))
    (hp : ∀ args b e b', (p.marshal args).run b = .error e b' → P e) {e : ClientError}
    (h : r.segments p stamp = .error e) : P e := by
  unfold segments at h
  simp only [EStateM.run_bind] at h
  cases hh : ((r.header p).marshal r.credential stamp).run .empty with
  | error e' c =>
    rw [hh] at h
    cases h
    obtain ⟨cause, rfl⟩ := (CallHeader.marshals _ _ _).faults hh
    exact hio cause
  | ok _ c =>
    rw [hh] at h
    simp only at h
    cases ha : (p.marshal r.args).run c with
    | error e' c' =>
      rw [ha] at h
      cases h
      exact hp _ _ _ _ ha
    | ok _ c' =>
      rw [ha] at h
      cases h

theorem Request.segments_candid (hp : p.Candid) {e : ClientError}
    (h : r.segments p stamp = .error e) (s n : String) (stat : AuthStat) :
    e ≠ .authRejected s n stat :=
  segments_error (P := fun e => e ≠ .authRejected s n stat) (fun _ => nofun)
    (fun _ _ _ _ ha => hp _ _ _ _ ha s n stat) h

theorem Request.segments_faults (hp : p.Regular) {e : ClientError}
    (h : r.segments p stamp = .error e) : ∃ cause, e = .io cause :=
  segments_error (P := fun e => ∃ cause, e = .io cause) (fun cause => ⟨cause, rfl⟩)
    (fun args _ _ _ ha => (hp args).faults ha) h

namespace Dispatcher

structure Sent (p : Procedure Args Reply) (r : Request Args) (d : Dispatcher)
    (x : Sending Dispatcher) : Prop where
  seen : x.seen = d
  port : x.message.port = d.port
  segments : ∃ stamp, r.segments p stamp = .ok x.message.segments

theorem callOnce_cases (env : Environment ε) (p : Procedure Args Reply) (r : Request Args)
    (host : String) (privileged : Bool) (w : World Dispatcher ε) : ∃ w', w'.client = w.client ∧
    ((∃ stamp e, r.segments p stamp = .error e ∧
      Task.exec env (callOnce p r host privileged) w = (.error e, w') ∧
      Task.sendings env (callOnce p r host privileged) w = []) ∨
    ∃ x, Sent p r w.client x ∧ x.message.host = host ∧ x.message.privileged = privileged ∧
      Task.exec env (callOnce p r host privileged) w =
        (r.judge p w.client.server x.answer, w') ∧
      Task.sendings env (callOnce p r host privileged) w = [x]) := by
  cases hs : r.segments p (env.timestamp w.outside).1 with
  | error e =>
    have hx := callOnce_of_error hs host privileged
    refine ⟨{ w with outside := (env.timestamp w.outside).2 }, rfl, .inl ⟨_, e, hs, hx, ?_⟩⟩
    unfold callOnce
    rw [Task.sendings_lift_bind, Program.run_timestamp, Task.sendings_bind, hs,
      Task.exec_ofExcept, Task.sendings_ofExcept]
    rfl
  | ok segments =>
    let message : Transmission :=
      ⟨host, w.client.port, privileged, segments, w.client.timeout⟩
    let w₁ : World Dispatcher ε := { w with outside := (env.timestamp w.outside).2 }
    let sent := w₁.answer env (.send message)
    have hx := callOnce_of_ok hs host privileged
    refine ⟨sent.2, rfl, .inr ⟨⟨w.client, message, sent.1⟩, ⟨rfl, rfl, _, hs⟩, rfl, rfl, hx, ?_⟩⟩
    unfold callOnce
    rw [Program.timestamp, Task.sendings_ask_bind (a := .timestamp) fun _ _ => rfl,
      Task.sendings_bind, Task.sendings_ofExcept]
    have hs : r.segments p (w.answer env .timestamp).1 = .ok segments := hs
    rw [hs, Task.exec_ofExcept, List.nil_append, Program.inspect]
    simp only
    rw [Task.sendings_ask_bind (a := .inspect) fun _ _ => rfl]
    refine Task.sendings_send_bind fun answer _ => ?_
    cases answer with
    | error cause => exact Task.sendings_throw _
    | ok reply => exact Task.sendings_ofExcept _

/-- The sends of a call, and the dispatcher before and after. Each goes from the port its procedure
uses at that moment. A refusal from an unprivileged port escalates the procedure, one from a
privileged port is the end. -/
inductive Tries (p : Procedure Args Reply) (r : Request Args) :
    Dispatcher → List (Sending Dispatcher) → Dispatcher → Prop where
  | stop (d : Dispatcher) : Tries p r d [] d
  | again {d d' : Dispatcher} {x : Sending Dispatcher} {xs : List (Sending Dispatcher)} :
    Sent p r d x → x.message.privileged = d.usesPrivilegedPort p.number →
    ¬ Refuses r.xid x.answer → Tries p r d xs d' → Tries p r d (x :: xs) d'
  | escalate {d d' : Dispatcher} {x : Sending Dispatcher} {xs : List (Sending Dispatcher)} :
    Sent p r d x → x.message.privileged = d.usesPrivilegedPort p.number →
    x.message.privileged = false → Refuses r.xid x.answer →
    Tries p r (d.escalate p.number) xs d' → Tries p r d (x :: xs) d'
  | refused {d : Dispatcher} {x : Sending Dispatcher} :
    Sent p r d x → x.message.privileged = d.usesPrivilegedPort p.number →
    x.message.privileged = true → Refuses r.xid x.answer → Tries p r d [x] d

theorem sendings_attempt_of_error {w : World Dispatcher ε} {e : ClientError}
    (h : w.client.chooseHost r.routingKey = .error e) :
    Task.sendings env (attempt p r) w = [] := by
  unfold attempt
  rw [Task.sendings_inspect_bind, h, Task.sendings_bind, Task.sendings_ofExcept,
    Task.exec_ofExcept]
  rfl

section Attempt
variable {w w₁ : World Dispatcher ε} {host : String} {v : Except ClientError Reply}
  (hh : w.client.chooseHost r.routingKey = .ok host)
  (hx : Task.exec env (callOnce p r host (w.client.usesPrivilegedPort p.number)) w = (v, w₁))
include hh hx

theorem sendings_attempt_ends
    (hv : (∃ s n stat, v = .error (.authRejected s n stat)) →
      w.client.usesPrivilegedPort p.number = true) :
    Task.sendings env (attempt p r) w =
      Task.sendings env (callOnce p r host (w.client.usesPrivilegedPort p.number)) w := by
  unfold Task.exec at hx
  unfold attempt
  rw [Task.sendings_inspect_bind, Task.sendings_bind, hh, Task.exec_ofExcept,
    Task.sendings_ofExcept, List.nil_append]
  simp only
  rw [Task.sendings_lift_bind, hx]
  refine List.append_right_eq_self.2 ?_
  cases v with
  | ok reply => exact Task.sendings_pure reply
  | error e =>
    cases e with
    | authRejected s n stat =>
      simp only [hv ⟨s, n, stat, rfl⟩]
      exact Task.sendings_throw _
    | _ => exact Task.sendings_throw _

theorem sendings_attempt_escalates {s n : String} {stat : AuthStat} (hc : w₁.client = w.client)
    (hv : v = .error (.authRejected s n stat)) (hu : w.client.usesPrivilegedPort p.number = false) :
    Task.sendings env (attempt p r) w = Task.sendings env (callOnce p r host false) w ++
      Task.sendings env (callOnce p r host true)
        { w₁ with client := w.client.escalate p.number } := by
  have hh' : (w.client.escalate p.number).chooseHost r.routingKey = .ok host := hh
  unfold Task.exec at hx
  unfold attempt
  rw [Task.sendings_inspect_bind, Task.sendings_bind, hh, Task.exec_ofExcept,
    Task.sendings_ofExcept, List.nil_append]
  simp only
  rw [Task.sendings_lift_bind, hx, hv]
  simp only [hu]
  refine (List.append_right_inj _).2 ?_
  rw [if_neg Bool.false_ne_true, Program.update,
    Task.sendings_ask_bind (a := .update _) fun _ _ => rfl, Task.sendings_inspect_bind,
    Task.sendings_bind]
  have hw : (w₁.answer env (.update (·.escalate p.number))).2 =
      { w₁ with client := w.client.escalate p.number } := by
    rw [← hc]
    rfl
  rw [hw, hh', Task.exec_ofExcept, Task.sendings_ofExcept, List.nil_append]

end Attempt

/-- An attempt has nobody to send to, or is a single call, or two if the first is refused without
privilege. -/
theorem attempt_cases (env : Environment ε) (p : Procedure Args Reply) (r : Request Args)
    (w : World Dispatcher ε) :
    (∃ e, w.client.chooseHost r.routingKey = .error e ∧
      Task.exec env (attempt p r) w = (.error e, w) ∧ Task.sendings env (attempt p r) w = []) ∨
    ∃ host v w₁, w.client.chooseHost r.routingKey = .ok host ∧
      let first := callOnce p r host (w.client.usesPrivilegedPort p.number)
      Task.exec env first w = (v, w₁) ∧ w₁.client = w.client ∧
      (Task.exec env (attempt p r) w = (v, w₁) ∧
          Task.sendings env (attempt p r) w = Task.sendings env first w ∨
        let w₂ : World Dispatcher ε := { w₁ with client := w.client.escalate p.number }
        (w.client.usesPrivilegedPort p.number = false ∧
            ∃ s n stat, v = .error (.authRejected s n stat)) ∧
          Task.exec env (attempt p r) w = Task.exec env (callOnce p r host true) w₂ ∧
          Task.sendings env (attempt p r) w = Task.sendings env first w ++
            Task.sendings env (callOnce p r host true) w₂) := by
  cases hh : w.client.chooseHost r.routingKey with
  | error e => exact .inl ⟨e, rfl, attempt_of_error hh, sendings_attempt_of_error hh⟩
  | ok host =>
    obtain ⟨v, w₁, hx, hc⟩ : ∃ v w₁, Task.exec env (callOnce p r host
        (w.client.usesPrivilegedPort p.number)) w = (v, w₁) ∧ w₁.client = w.client := by
      obtain ⟨w₁, hc, ⟨_, _, -, hx, -⟩ | ⟨_, -, -, -, hx, -⟩⟩ :=
        callOnce_cases env p r host (w.client.usesPrivilegedPort p.number) w
      · exact ⟨_, w₁, hx, hc⟩
      · exact ⟨_, w₁, hx, hc⟩
    refine .inr ⟨host, v, w₁, rfl, hx, hc, ?_⟩
    by_cases hv : (∃ s n stat, v = .error (.authRejected s n stat)) →
        w.client.usesPrivilegedPort p.number = true
    · exact .inl ⟨attempt_ends hh hx hv, sendings_attempt_ends hh hx hv⟩
    · rw [Classical.not_imp, Bool.not_eq_true] at hv
      obtain ⟨⟨s, n, stat, hv⟩, hu⟩ := hv
      refine .inr ⟨⟨hu, s, n, stat, hv⟩, attempt_escalates hh hx hc hv hu, ?_⟩
      rw [sendings_attempt_escalates hh hx hc hv hu, ← hu]

def Begins (p : Procedure Args Reply) (r : Request Args) (d : Dispatcher)
    (xs : List (Sending Dispatcher)) (d' : Dispatcher) (v : Except ClientError Reply) : Prop :=
  Tries p r d xs d' ∧ ∀ e, v = .error e → e.isTransient = true →
    ∀ ys d'', Tries p r d' ys d'' → Tries p r d (xs ++ ys) d''

theorem Begins.none {d : Dispatcher} {v : Except ClientError Reply} : Begins p r d [] d v :=
  ⟨.stop d, fun _ _ _ _ _ h => h⟩

theorem Begins.one {d : Dispatcher} {x : Sending Dispatcher} (hs : Sent p r d x)
    (hu : x.message.privileged = d.usesPrivilegedPort p.number)
    (hr : Refuses r.xid x.answer → x.message.privileged = true) :
    Begins p r d [x] d (r.judge p d.server x.answer) := by
  by_cases h : Refuses r.xid x.answer
  · obtain ⟨s, n, stat, hj⟩ := Request.judge_refuses.1 h
    refine ⟨.refused hs hu (hr h) h, fun e he ht => ?_⟩
    rw [hj] at he
    cases he
    cases ht
  · exact ⟨.again hs hu h (.stop d), fun _ _ _ _ _ hy => .again hs hu h hy⟩

theorem Begins.escalate {d d' : Dispatcher} {x : Sending Dispatcher}
    {xs : List (Sending Dispatcher)} {v : Except ClientError Reply} (hs : Sent p r d x)
    (hu : x.message.privileged = d.usesPrivilegedPort p.number)
    (hn : x.message.privileged = false) (h : Refuses r.xid x.answer)
    (hb : Begins p r (d.escalate p.number) xs d' v) : Begins p r d (x :: xs) d' v :=
  ⟨.escalate hs hu hn h hb.1, fun e he ht _ _ hy => .escalate hs hu hn h (hb.2 e he ht _ _ hy)⟩

theorem attempt_begins (env : Environment ε) (hp : p.Candid) (r : Request Args)
    (w : World Dispatcher ε) :
    Begins p r w.client (Task.sendings env (attempt p r) w)
      (Task.exec env (attempt p r) w).2.client (Task.exec env (attempt p r) w).1 := by
  cases hh : w.client.chooseHost r.routingKey with
  | error e =>
    rw [attempt_of_error hh, sendings_attempt_of_error hh]
    exact .none
  | ok host =>
    obtain ⟨w₁, hc, ⟨stamp, e, he, hx, hn⟩ | ⟨x, hs, -, hpriv, hx, hn⟩⟩ :=
      callOnce_cases env p r host (w.client.usesPrivilegedPort p.number) w
    · have hv : (∃ s n stat, (.error e : Except ClientError Reply) =
          .error (.authRejected s n stat)) → w.client.usesPrivilegedPort p.number = true := by
        intro h
        obtain ⟨s, n, stat, h⟩ := h
        exact (Request.segments_candid hp he s n stat (Except.error.inj h)).elim
      rw [attempt_ends hh hx hv, sendings_attempt_ends hh hx hv, hn, ← hc]
      exact .none
    · by_cases hr : Refuses r.xid x.answer → x.message.privileged = true
      · have hv : (∃ s n stat, r.judge p w.client.server x.answer =
            .error (.authRejected s n stat)) → w.client.usesPrivilegedPort p.number = true := by
          intro h
          rw [← hpriv]
          exact hr (Request.judge_refuses.2 h)
        rw [attempt_ends hh hx hv, sendings_attempt_ends hh hx hv, hn]
        simp only [hc]
        exact .one hs hpriv hr
      · rw [Classical.not_imp, Bool.not_eq_true] at hr
        obtain ⟨hr, hf⟩ := hr
        have hu : w.client.usesPrivilegedPort p.number = false := by rw [← hpriv, hf]
        obtain ⟨s, n, stat, hj⟩ := Request.judge_refuses.1 hr
        rw [attempt_escalates hh hx hc hj hu, sendings_attempt_escalates hh hx hc hj hu]
        rw [hu] at hn
        rw [hn, List.singleton_append]
        refine .escalate hs hpriv hf hr ?_
        obtain ⟨w₂, hc₂, ⟨stamp, e, -, hx₂, hn₂⟩ | ⟨y, hs₂, -, hpriv₂, hx₂, hn₂⟩⟩ :=
          callOnce_cases env p r host true { w₁ with client := w.client.escalate p.number }
        · rw [hx₂, hn₂]
          simp only [hc₂]
          exact .none
        · rw [hx₂, hn₂]
          simp only [hc₂]
          exact .one hs₂ (by rw [hpriv₂, usesPrivilegedPort_escalate]) fun _ => hpriv₂

variable {validate : Args → Reply → Except ClientError Unit}

section Attempts
variable {w w₁ : World Dispatcher ε} {v : Except ClientError Reply} {left failures : Nat}
  (validate : Args → Reply → Except ClientError Unit)
  (hx : Task.exec env (attempt p r) w = (v, w₁))
include hx

theorem sendings_attempts_ends (hv : ∀ e, v = .error e → e.isTransient = true → left = 0) :
    Task.sendings env (attempts p r validate left failures) w =
      Task.sendings env (attempt p r) w := by
  unfold Task.exec at hx
  rw [attempts.eq_def, Task.sendings_lift_bind, hx]
  refine List.append_right_eq_self.2 ?_
  cases v with
  | ok u =>
    simp only [Task.sendings_bind, Task.sendings_ofExcept, Task.exec_ofExcept]
    cases validate r.args u <;> rfl
  | error e =>
    by_cases ht : e.isTransient = true
    · obtain rfl := hv e rfl ht
      simp only [ht, if_true]
      exact Task.sendings_throw _
    · simp only [ht]
      exact Task.sendings_throw _

theorem sendings_attempts_again {e : ClientError} (hv : v = .error e)
    (ht : e.isTransient = true) :
    Task.sendings env (attempts p r validate (left + 1) failures) w =
      Task.sendings env (attempt p r) w ++
        Task.sendings env (attempts p r validate left (failures + 1))
          ((Program.sleep (w₁.client.retry.backoff (failures + 1))).run env w₁).2 := by
  unfold Task.exec at hx
  rw [attempts.eq_def, Task.sendings_lift_bind, hx, hv]
  simp only [ht, if_true]
  rw [Task.sendings_inspect_bind, Task.sendings_lift_bind]
  rfl

end Attempts

theorem attempts_cases (env : Environment ε) (p : Procedure Args Reply) (r : Request Args)
    (validate : Args → Reply → Except ClientError Unit) (left failures : Nat)
    (w : World Dispatcher ε) :
    let first := Task.exec env (attempt p r) w
    (Task.exec env (attempts p r validate left failures) w =
        (first.1.bind fun u => (validate r.args u).map fun _ => u, first.2) ∧
      Task.sendings env (attempts p r validate left failures) w =
        Task.sendings env (attempt p r) w) ∨
    ∃ e k w₂, first.1 = .error e ∧ e.isTransient = true ∧ left = k + 1 ∧
      w₂.client = first.2.client ∧
      Task.exec env (attempts p r validate left failures) w =
        Task.exec env (attempts p r validate k (failures + 1)) w₂ ∧
      Task.sendings env (attempts p r validate left failures) w =
        Task.sendings env (attempt p r) w ++
          Task.sendings env (attempts p r validate k (failures + 1)) w₂ := by
  intro first
  have hfirst : Task.exec env (attempt p r) w = first := rfl
  obtain ⟨v, w₁⟩ := first
  by_cases hv : ∀ e, v = .error e → e.isTransient = true → left = 0
  · exact .inl ⟨attempts_ends validate hfirst hv, sendings_attempts_ends validate hfirst hv⟩
  · simp only [not_forall] at hv
    obtain ⟨e, rfl, ht, hl⟩ := hv
    obtain ⟨k, rfl⟩ := Nat.exists_eq_succ_of_ne_zero hl
    let pause : Action Dispatcher := .sleep (w₁.client.retry.backoff (failures + 1))
    exact .inr ⟨e, k, (w₁.answer env pause).2, rfl, ht, rfl, rfl,
      attempts_again validate hfirst rfl ht, sendings_attempts_again validate hfirst rfl ht⟩

theorem attempts_tries (hp : p.Candid) (left failures : Nat) (w : World Dispatcher ε) :
    Tries p r w.client (Task.sendings env (attempts p r validate left failures) w)
      (Task.exec env (attempts p r validate left failures) w).2.client := by
  induction left using Nat.strongRecOn generalizing failures w with
  | ind left ih =>
    have hb := attempt_begins env hp r w
    obtain ⟨hx, hs⟩ | ⟨e, k, w₂, he, ht, rfl, hc, hx, hs⟩ :=
      attempts_cases env p r validate left failures w
    · rw [hx, hs]
      exact hb.1
    · rw [hx, hs]
      refine hb.2 e he ht _ _ ?_
      rw [← hc]
      exact ih k (Nat.lt_succ_self k) (failures + 1) w₂

theorem call_tries (env : Environment ε) (hp : p.Candid) (r : Request Args)
    (validate : Args → Reply → Except ClientError Unit) (w : World Dispatcher ε) :
    Tries p r w.client (Task.sendings env (call p r validate) w)
      (Task.exec env (call p r validate) w).2.client := by
  unfold call
  rw [Task.sendings_inspect_bind, Task.exec_lift_bind]
  exact attempts_tries hp _ 0 w

structure Attempt where
  procedure : UInt32
  xid : UInt32
  sending : Sending Dispatcher

namespace Attempt

/-- Sent from an unprivileged port, and answered with a refusal of the credential. -/
def Rejected (a : Attempt) : Prop :=
  a.sending.message.privileged = false ∧ Refuses a.xid a.sending.answer

def Follows (a : Attempt) (d : Dispatcher) : Prop :=
  a.sending.seen = d ∧ a.sending.message.privileged = d.usesPrivilegedPort a.procedure

end Attempt

/-- The life of a dispatcher: attempts, and whatever else leaves the escalated procedures alone. -/
inductive Lives : Dispatcher → List Attempt → Dispatcher → Prop where
  | stop (d : Dispatcher) : Lives d [] d
  | change {d e d' : Dispatcher} {as : List Attempt} :
    e.escalated = d.escalated → Lives e as d' → Lives d as d'
  | attempt {d d' : Dispatcher} {a : Attempt} {as : List Attempt} :
    a.Follows d → ¬ a.Rejected → Lives d as d' → Lives d (a :: as) d'
  | escalate {d d' : Dispatcher} {a : Attempt} {as : List Attempt} :
    a.Follows d → a.Rejected → Lives (d.escalate a.procedure) as d' → Lives d (a :: as) d'

theorem mem_escalate {d : Dispatcher} {m n : UInt32} :
    n ∈ (d.escalate m).escalated ↔ n = m ∨ n ∈ d.escalated := by
  simp [escalate]

namespace Lives
variable {d e d' : Dispatcher} {as bs : List Attempt} {a : Attempt} {n : UInt32}

theorem append (h : Lives d as e) (h' : Lives e bs d') : Lives d (as ++ bs) d' := by
  induction h with
  | stop d => exact h'
  | change he _ ih => exact .change he (ih h')
  | attempt hf hr _ ih => exact .attempt hf hr (ih h')
  | escalate hf hr _ ih => exact .escalate hf hr (ih h')

theorem of_tries {xs : List (Sending Dispatcher)} (h : Tries p r d xs d') :
    Lives d (xs.map (⟨p.number, r.xid, ·⟩)) d' := by
  induction h with
  | stop d => exact .stop d
  | again hs hu hr _ ih => exact .attempt ⟨hs.seen, hu⟩ (fun hn => hr hn.2) ih
  | escalate hs hu hn hr _ ih => exact .escalate ⟨hs.seen, hu⟩ ⟨hn, hr⟩ ih
  | refused hs hu hn _ =>
    refine .attempt ⟨hs.seen, hu⟩ (fun hr => ?_) (.stop _)
    rw [Attempt.Rejected, hn] at hr
    cases hr.1

theorem mem_iff (h : Lives d as d') : n ∈ d'.escalated ↔
    n ∈ d.escalated ∨ ∃ a ∈ as, a.procedure = n ∧ a.Rejected := by
  induction h with
  | stop d => simp
  | change he _ ih => rw [ih, he]
  | attempt _ hr _ ih =>
    rw [ih]
    simp only [List.mem_cons, exists_eq_or_imp]
    tauto
  | escalate _ hr _ ih =>
    rw [ih, mem_escalate]
    simp only [List.mem_cons, exists_eq_or_imp]
    grind

theorem split (h : Lives d (as ++ a :: bs) d') : ∃ e, Lives d as e ∧ a.Follows e := by
  generalize hl : as ++ a :: bs = cs at h
  induction h generalizing as with
  | stop d => simp at hl
  | change he _ ih =>
    obtain ⟨e', h', hf⟩ := ih hl
    exact ⟨e', .change he h', hf⟩
  | @attempt d _ _ _ hf hr _ ih =>
    cases as with
    | nil =>
      obtain ⟨rfl, -⟩ := List.cons.inj hl
      exact ⟨d, .stop d, hf⟩
    | cons b as =>
      obtain ⟨rfl, hl'⟩ := List.cons.inj hl
      obtain ⟨e', h', hf'⟩ := ih hl'
      exact ⟨e', .attempt hf hr h', hf'⟩
  | @escalate d _ _ _ hf hr _ ih =>
    cases as with
    | nil =>
      obtain ⟨rfl, -⟩ := List.cons.inj hl
      exact ⟨d, .stop d, hf⟩
    | cons b as =>
      obtain ⟨rfl, hl'⟩ := List.cons.inj hl
      obtain ⟨e', h', hf'⟩ := ih hl'
      exact ⟨e', .escalate hf hr h', hf'⟩

theorem not_rejected_before (h : Lives d (as ++ a :: bs) d') (ha : a.Rejected) {b : Attempt}
    (hb : b ∈ as) (hp : b.procedure = a.procedure) : ¬ b.Rejected := by
  intro hr
  obtain ⟨e, h', hf⟩ := h.split
  have hm : a.procedure ∈ e.escalated := h'.mem_iff.2 (.inr ⟨b, hb, hp, hr⟩)
  have hu := hf.2
  rw [ha.1] at hu
  simp [usesPrivilegedPort, hm] at hu

theorem rejected_once (h : Lives d (as ++ a :: bs) d') (ha : a.Rejected) {b : Attempt}
    (hb : b ∈ as ++ bs) (hp : b.procedure = a.procedure) : ¬ b.Rejected := by
  intro hr
  obtain hb | hb := List.mem_append.1 hb
  · exact h.not_rejected_before ha hb hp hr
  · obtain ⟨cs, ds, rfl⟩ := List.append_of_mem hb
    have h' : Lives d ((as ++ a :: cs) ++ b :: ds) d' := by simpa using h
    exact h'.not_rejected_before hr (by simp) hp.symm ha

end Lives

/-- Only a refusal from an unprivileged port is answered by another send. -/
theorem Tries.unprivileged {d d' : Dispatcher} {xs ys : List (Sending Dispatcher)}
    {x : Sending Dispatcher} (h : Tries p r d (xs ++ x :: ys) d') (hr : Refuses r.xid x.answer)
    (hy : ys ≠ []) : x.message.privileged = false := by
  generalize hl : xs ++ x :: ys = zs at h
  induction h generalizing xs with
  | stop d => simp at hl
  | again _ _ hn _ ih =>
    cases xs with
    | nil =>
      obtain ⟨rfl, -⟩ := List.cons.inj hl
      exact (hn hr).elim
    | cons z xs => exact ih (List.cons.inj hl).2
  | escalate _ _ hf _ _ ih =>
    cases xs with
    | nil =>
      obtain ⟨rfl, -⟩ := List.cons.inj hl
      exact hf
    | cons z xs => exact ih (List.cons.inj hl).2
  | refused _ _ _ _ =>
    cases xs with
    | nil => exact (hy (List.cons.inj hl).2).elim
    | cons z xs => simp at hl

namespace Tries
variable {d d' : Dispatcher} {xs : List (Sending Dispatcher)}

theorem sent (h : Tries p r d xs d') : ∀ x ∈ xs, Sent p r x.seen x := by
  have hs {d : Dispatcher} {x : Sending Dispatcher} (h : Sent p r d x) : Sent p r x.seen x := by
    rwa [h.seen]
  induction h with
  | stop d => exact List.forall_mem_nil _
  | again h _ _ _ ih => exact List.forall_mem_cons.2 ⟨hs h, ih⟩
  | escalate h _ _ _ _ ih => exact List.forall_mem_cons.2 ⟨hs h, ih⟩
  | refused h _ _ _ => exact List.forall_mem_singleton.2 (hs h)

theorem keeps {P : Dispatcher → Prop} (h : Tries p r d xs d')
    (hP : ∀ d, P d → P (d.escalate p.number)) (hd : P d) : P d' ∧ ∀ x ∈ xs, P x.seen := by
  induction h with
  | stop d => exact ⟨hd, List.forall_mem_nil _⟩
  | again hs _ _ _ ih =>
    exact ⟨(ih hd).1, List.forall_mem_cons.2 ⟨hs.seen ▸ hd, (ih hd).2⟩⟩
  | escalate hs _ _ _ _ ih =>
    obtain ⟨hd', hx⟩ := ih (hP _ hd)
    exact ⟨hd', List.forall_mem_cons.2 ⟨hs.seen ▸ hd, hx⟩⟩
  | refused hs _ _ _ => exact ⟨hd, List.forall_mem_singleton.2 (hs.seen ▸ hd)⟩

theorem privileged (h : Tries p r d xs d') :
    d'.privileged = d.privileged ∧ ∀ x ∈ xs, x.seen.privileged = d.privileged :=
  h.keeps (P := fun e => e.privileged = d.privileged) (fun _ hd => hd) rfl

end Tries

inductive Operation : Type 1 where
  | setPort (port : UInt16)
  | setPrivileged (value : Bool)
  | callOnce {Args Reply : Type} (p : Procedure Args Reply) (r : Request Args) (host : String)
    (privileged : Bool)
  | call {Args Reply : Type} (p : Procedure Args Reply) (r : Request Args)
    (validate : Args → Reply → Except ClientError Unit)

namespace Operation

def program : Operation → Program Dispatcher Unit
  | .setPort port => Dispatcher.setPort port
  | .setPrivileged value => Dispatcher.setPrivileged value
  | .callOnce p r host privileged =>
    (ExceptT.run (Dispatcher.callOnce p r host privileged)).bind fun _ => .done ()
  | .call p r validate => (ExceptT.run (Dispatcher.call p r validate)).bind fun _ => .done ()

def after (env : Environment ε) (op : Operation) (w : World Dispatcher ε) : World Dispatcher ε :=
  (op.program.run env w).2

def attempts (env : Environment ε) (op : Operation) (w : World Dispatcher ε) : List Attempt :=
  match op with
  | .call p r _ => (op.program.sendings env w).map (⟨p.number, r.xid, ·⟩)
  | _ => []

/-- Calls a procedure that reports no refusals of its own. -/
def Candid : Operation → Prop
  | .call p _ _ => p.Candid
  | _ => True

end Operation

def performAll (env : Environment ε) : List Operation → World Dispatcher ε → World Dispatcher ε
  | [], w => w
  | op :: ops, w => performAll env ops (op.after env w)

def attemptsAll (env : Environment ε) : List Operation → World Dispatcher ε → List Attempt
  | [], _ => []
  | op :: ops, w => op.attempts env w ++ attemptsAll env ops (op.after env w)

theorem performAll_append (env : Environment ε) (ops ops' : List Operation)
    (w : World Dispatcher ε) :
    performAll env (ops ++ ops') w = performAll env ops' (performAll env ops w) := by
  induction ops generalizing w with
  | nil => rfl
  | cons op ops ih => exact ih _

theorem Operation.tries (env : Environment ε) (hp : p.Candid) (r : Request Args)
    (validate : Args → Reply → Except ClientError Unit) (w : World Dispatcher ε) :
    Tries p r w.client ((Operation.call p r validate).program.sendings env w)
      ((Operation.call p r validate).after env w).client := by
  have ht := call_tries env hp r validate w
  unfold Operation.after Operation.program
  rw [Program.sendings_bind, Program.run_bind]
  simp only [Program.sendings, List.append_nil, Program.run]
  exact ht

theorem callOnce_client (env : Environment ε) (host : String) (privileged : Bool)
    (w : World Dispatcher ε) :
    ((Operation.callOnce p r host privileged).after env w).client = w.client := by
  obtain ⟨w', hc, ⟨_, _, _, hx, -⟩ | ⟨_, _, _, _, hx, -⟩⟩ :=
    callOnce_cases env p r host privileged w
  all_goals
    unfold Operation.after Operation.program
    unfold Task.exec at hx
    rw [Program.run_bind, hx]
    exact hc

theorem Operation.lives (env : Environment ε) {op : Operation} (hop : op.Candid)
    (w : World Dispatcher ε) : Lives w.client (op.attempts env w) (op.after env w).client := by
  cases op with
  | setPort port =>
    have he : ((Operation.setPort port).after env w).client.escalated = w.client.escalated := rfl
    exact .change he (.stop _)
  | setPrivileged value =>
    have he : ((Operation.setPrivileged value).after env w).client.escalated =
        w.client.escalated := rfl
    exact .change he (.stop _)
  | callOnce p r host privileged =>
    rw [callOnce_client]
    exact .stop _
  | call p r validate => exact .of_tries (Operation.tries env hop r validate w)

theorem performAll_lives (env : Environment ε) (ops : List Operation)
    (hops : ∀ op ∈ ops, op.Candid) (w : World Dispatcher ε) :
    Lives w.client (attemptsAll env ops w) (performAll env ops w).client := by
  induction ops generalizing w with
  | nil => exact .stop _
  | cons op ops ih =>
    obtain ⟨hop, hops⟩ := List.forall_mem_cons.1 hops
    exact (op.lives env hop w).append (ih hops _)

def lastFlag : List Operation → Bool → Bool
  | [], flag => flag
  | .setPrivileged value :: ops, _ => lastFlag ops value
  | _ :: ops, flag => lastFlag ops flag

theorem performAll_privileged (env : Environment ε) (ops : List Operation)
    (hops : ∀ op ∈ ops, op.Candid) (w : World Dispatcher ε) :
    (performAll env ops w).client.privileged = lastFlag ops w.client.privileged := by
  induction ops generalizing w with
  | nil => rfl
  | cons op ops ih =>
    obtain ⟨hop, hops⟩ := List.forall_mem_cons.1 hops
    rw [performAll, ih hops]
    cases op with
    | setPort port => rfl
    | setPrivileged value => rfl
    | callOnce p r host privileged =>
      rw [callOnce_client, lastFlag]
      nofun
    | call p r validate =>
      rw [(Operation.tries env hop r validate w).privileged.1, lastFlag]
      nofun

/-- From a dispatcher with no procedure escalated, whatever is done and answered: escalated are the
procedures with an attempt rejected on an unprivileged port, at the end and as every attempt sees
it. An attempt goes from a privileged port exactly if the flag was last set or its procedure is
escalated. So no two attempts of one procedure are rejected, no others are followed by another send
for a refused credential, and a call without retries changes nothing. -/
theorem performAll_escalates (env : Environment ε) (w : World Dispatcher ε)
    (hw : w.client.escalated = []) (ops : List Operation) (hops : ∀ op ∈ ops, op.Candid) :
    (∀ n, n ∈ (performAll env ops w).client.escalated ↔
      ∃ a ∈ attemptsAll env ops w, a.procedure = n ∧ a.Rejected) ∧
    (∀ before a after, attemptsAll env ops w = before ++ a :: after →
      a.sending.message.privileged = a.sending.seen.usesPrivilegedPort a.procedure ∧
      (a.sending.seen.usesPrivilegedPort a.procedure = true ↔
        a.sending.seen.privileged = true ∨ a.procedure ∈ a.sending.seen.escalated) ∧
      (∀ n, n ∈ a.sending.seen.escalated ↔ ∃ b ∈ before, b.procedure = n ∧ b.Rejected) ∧
      (a.Rejected → ∀ b ∈ before ++ after, b.procedure = a.procedure → ¬ b.Rejected)) ∧
    ∀ before op after, ops = before ++ op :: after → ∀ now, now = performAll env before w →
      (∀ n ∈ now.client.escalated, n ∈ (performAll env ops w).client.escalated) ∧
      (∀ a ∈ op.attempts env now, a.sending.seen.privileged =
        lastFlag before w.client.privileged) ∧
      (∀ earlier a later, op.attempts env now = earlier ++ a :: later →
        Refuses a.xid a.sending.answer → later ≠ [] → a.Rejected) ∧
      (∀ (Args Reply : Type) (p : Procedure Args Reply) r validate, op = .call p r validate →
        exchanges (op.after env now).log =
          exchanges now.log ++ (op.attempts env now).map (·.sending.exchange)) ∧
      ∀ (Args Reply : Type) (p : Procedure Args Reply) r host privileged,
        op = .callOnce p r host privileged → (op.after env now).client = now.client := by
  have hl := performAll_lives env ops hops w
  refine ⟨fun n => ?_, fun before a after ha => ?_, ?_⟩
  · rw [hl.mem_iff, hw]
    simp
  · rw [ha] at hl
    obtain ⟨e, he, rfl, hu⟩ := hl.split
    refine ⟨hu, by simp [usesPrivilegedPort], fun n => ?_, fun hr b hb hp =>
      hl.rejected_once hr hb hp⟩
    rw [he.mem_iff, hw]
    simp
  · intro before op after hsplit now hnow
    subst hsplit
    simp only [List.forall_mem_append, List.forall_mem_cons] at hops
    obtain ⟨hbefore, hop, hafter⟩ := hops
    have hflag := performAll_privileged env before hbefore w
    rw [← hnow] at hflag
    refine ⟨fun n hn => ?_, ?_, ?_, ?_, ?_⟩
    · rw [performAll_append, ← hnow]
      have hrest : ∀ o ∈ op :: after, o.Candid := List.forall_mem_cons.2 ⟨hop, hafter⟩
      exact (performAll_lives env _ hrest now).mem_iff.2 (.inl hn)
    · cases op with
      | call p r validate =>
        intro a ha
        obtain ⟨x, hx, rfl⟩ := List.mem_map.1 ha
        rw [← hflag]
        exact (Operation.tries env hop r validate now).privileged.2 x hx
      | _ => simp [Operation.attempts]
    · cases op with
      | call p r validate =>
        intro earlier a later ha hr hne
        obtain ⟨xs, zs, hx, rfl, hz⟩ := List.map_eq_append_iff.1 ha
        obtain ⟨x, ys, rfl, rfl, rfl⟩ := List.map_eq_cons_iff.1 hz
        have ht := Operation.tries env hop r validate now
        rw [hx] at ht
        exact ⟨ht.unprivileged hr (by simpa using hne), hr⟩
      | _ =>
        intro earlier a later ha
        simp [Operation.attempts] at ha
    · intro Args Reply p r validate hcall
      subst hcall
      unfold Operation.after Operation.attempts
      rw [Program.exchanges_run, List.map_map]
      rfl
    · intro Args Reply p r host privileged hcall
      subst hcall
      exact callOnce_client env host privileged now

/-- A call whose credential is refused once, while the flag is set and taken back later. -/
def pings : List Operation :=
  [.call Procedures.null ping acceptAny, .setPrivileged true, .setPrivileged false,
    .callOnce Procedures.null ping "server" false]

theorem null_candid : Procedures.null.Candid :=
  (PlainForm.all_regular ⟨Procedures.null, .void, Always⟩ (by simp [PlainForm.all])).candid

theorem performAll_escalates_pings :
    interrupted.client.escalated = [] ∧ (∀ op ∈ pings, op.Candid) ∧
    (performAll Playback.environment pings interrupted).client.escalated = [0] ∧
    (attemptsAll Playback.environment pings interrupted).map
      (·.sending.message.privileged) = [false, false, true, true] ∧
    ∃ a ∈ attemptsAll Playback.environment pings interrupted, a.procedure = 0 ∧ a.Rejected := by
  have hops : ∀ op ∈ pings, op.Candid := by
    simp only [pings, List.forall_mem_cons]
    exact ⟨null_candid, trivial, trivial, trivial, List.forall_mem_nil _⟩
  have he : (performAll Playback.environment pings interrupted).client.escalated = [0] := by
    decide +kernel
  have h := performAll_escalates Playback.environment interrupted rfl pings hops
  refine ⟨rfl, hops, he, by decide +kernel, (h.1 0).1 ?_⟩
  rw [he]
  simp

end Dispatcher
end Nfs3.Client
