import Nfs3.Client.Playback
import Nfs3.Proofs.Client.RequestOrder
import Nfs3.Proofs.Client.Restamping
import Nfs3.Proofs.Client.Resumption
import Nfs3.Proofs.Client.Stages

/-!
How a session notices that its server restarted. The verifier of a success is compared with the one
expected when everything has been done for its call, and nothing is done about a difference but to
report it.
-/
namespace Nfs3.Client
open Wire Rpc
variable {σ τ ε α β : Type} {env : Environment ε}

theorem Program.onPart_bind {part : Part σ τ} (p : Program τ α) (f : α → Program τ β) :
    (p.bind f).onPart part = (p.onPart part).bind fun v => (f v).onPart part := by
  induction p with
  | done v => rfl
  | act a next ih => cases a <;> simp only [bind, onPart, ih]

theorem Task.onPart_bind {part : Part σ τ} (t : Task τ α) (f : α → Task τ β) :
    (t >>= f).onPart part = t.onPart part >>= fun v => (f v).onPart part := by
  have h : ((ExceptT.run t).bind (ExceptT.bindCont f)).onPart part =
      ((ExceptT.run t).onPart part).bind (ExceptT.bindCont fun v => (f v).onPart part) := by
    rw [Program.onPart_bind]
    congr 1
    funext r
    cases r <;> rfl
  exact h

namespace Dispatcher
variable {Args Reply : Type} {p : Procedure Args Reply} {r : Request Args}
  (validate : Args → Reply → Except ClientError Unit)

theorem attempts_step_eq {left failures : Nat}
    (h : ∀ k, left = k + 1 → attempts p r validate k (failures + 1) =
      attempts p r acceptAny k (failures + 1) >>= fun v =>
        Task.ofExcept (validate r.args v) >>= fun _ => pure v) :
    attempts p r validate left failures = attempts p r acceptAny left failures >>= fun v =>
      Task.ofExcept (validate r.args v) >>= fun _ => pure v := by
  rw [attempts.eq_def, attempts.eq_def p r acceptAny, Task.bind_assoc]
  refine congrArg (Task.lift (ExceptT.run (attempt p r)) >>= ·) (funext fun result => ?_)
  cases result with
  | ok reply => rfl
  | error e =>
    simp only
    split
    · cases left with
      | zero => rfl
      | succ k =>
        simp only [h k rfl]
        rfl
    · rfl

theorem attempts_eq (left failures : Nat) :
    attempts p r validate left failures = attempts p r acceptAny left failures >>= fun v =>
      Task.ofExcept (validate r.args v) >>= fun _ => pure v := by
  induction left generalizing failures with
  | zero => exact attempts_step_eq validate nofun
  | succ left ih =>
    refine attempts_step_eq validate fun k hk => ?_
    cases hk
    exact ih (failures + 1)

theorem call_eq : call p r validate = call p r acceptAny >>= fun v =>
    Task.ofExcept (validate r.args v) >>= fun _ => pure v := by
  unfold call
  rw [Task.bind_assoc]
  simp only [attempts_eq validate]

end Dispatcher

def Task.Elsewhere (t : Task σ α) : Prop :=
  t.Resumes fun m _ _ => m.program ≠ nfsService.program

section Elsewhere
variable {Args Reply : Type} {p : Procedure Args Reply} {r : Request Args}

theorem Dispatcher.elsewhere_call (hp : p.Regular)
    (hs : p.service.program ≠ nfsService.program) : (call p r acceptAny).Elsewhere :=
  (resumes_call_program hp).mono fun _ _ _ h => ne_of_eq_of_ne h hs

theorem Portmapper.elsewhere_resolve (server : String) (service : Service) :
    (resolve server service).Elsewhere := by
  have hp : Procedures.getPort.Regular := fun _ => .put _ _
  refine Task.resumes_bind ?_ fun port => Task.resumes_ofExcept _
  refine Task.resumes_unsent_bind ?_ fun _ => ?_
  · refine Program.only_bind (Program.only_ask nofun) fun m => ?_
    split
    · trivial
    · exact Program.only_bind (Program.only_ask nofun) fun _ => Program.only_ask nofun
  · refine Task.resumes_unsent_bind ?_ fun r => ?_
    · exact Program.only_bind (Program.only_ask nofun) fun _ => trivial
    · exact Task.resumes_onPart (Dispatcher.elsewhere_call hp (by decide))

namespace Session

theorem unsent_fresh (args : Args) (credential : Credential) :
    (Request.fresh args credential : Program Session _).Only Action.Unsent :=
  Program.only_bind (Program.only_ask nofun) fun _ => trivial

theorem elsewhere_callMount (hp : p.Regular) (hs : p.service = mountService) :
    (callMount p r).Elsewhere := by
  have hn : p.service.program ≠ nfsService.program := by
    rw [hs]
    decide
  exact Task.resumes_onPart (Dispatcher.elsewhere_call hp hn)

theorem elsewhere_resolvePort (configured : Option UInt16) (service : Service) :
    (resolvePort configured service).Elsewhere := by
  cases configured with
  | some port => trivial
  | none =>
    refine Task.resumes_unsent_bind (Program.only_ask nofun) fun s => ?_
    split
    · exact Task.resumes_onPart (Portmapper.elsewhere_resolve _ _)
    · exact Program.resumes_of_only (Program.only_ask nofun)

theorem elsewhere_setPort_bind {part : Part Session Dispatcher} {port : UInt16}
    {f : Unit → Task Session α} (hf : ∀ v, (f v).Elsewhere) :
    (Task.lift ((Dispatcher.setPort port).onPart part) >>= f).Elsewhere := by
  refine Task.resumes_lift_bind (Program.resumes_onPart (Program.resumes_of_only ?_)) hf
  refine Program.only_bind (Program.only_ask nofun) fun d => ?_
  exact Program.only_bind (Program.only_ask nofun) fun _ => Program.only_ask nofun

theorem elsewhere_handshake : handshake.Elsewhere := by
  have hm : Procedures.mount.Regular := fun _ => .put _ _
  have hu : Procedures.unmount.Regular := fun _ => .put _ _
  refine Task.resumes_unsent_bind (Program.only_ask nofun) fun s => ?_
  refine Task.resumes_unsent_bind (Program.only_ask nofun) fun _ => ?_
  refine Task.resumes_bind (elsewhere_resolvePort _ _) fun port => ?_
  refine elsewhere_setPort_bind fun _ => ?_
  refine Task.resumes_unsent_bind (Program.only_ask nofun) fun _ => ?_
  refine Task.resumes_unsent_bind (Program.only_ask nofun) fun s => ?_
  refine Task.resumes_unsent_bind (unsent_fresh _ _) fun r => ?_
  refine Task.resumes_bind (elsewhere_callMount hm rfl) fun reply => ?_
  cases reply with
  | refused status => trivial
  | ok mounted =>
    refine Task.resumes_unsent_bind (unsent_fresh _ _) fun r => ?_
    refine Task.resumes_lift_bind (elsewhere_callMount hu rfl) fun _ => ?_
    refine Task.resumes_bind (elsewhere_resolvePort _ _) fun port => ?_
    refine elsewhere_setPort_bind fun _ => ?_
    exact Task.resumes_unsent_bind (Program.only_ask nofun) fun _ => trivial

theorem elsewhere_locked {t : Task Session α} (h : t.Elsewhere) :
    Task.Elsewhere (ExceptT.mk (ExceptT.run t).locked) := by
  let apart (m : Transmission) (_ : Except IoFailure Bytes)
      (_ : Program Session (Except ClientError α)) : Prop := m.program ≠ nfsService.program
  have hl : Program.Resumes apart (ExceptT.run t).locked := Program.resumes_locked h
  exact hl

theorem elsewhere_refresh (generation : UInt64) : (refresh generation).Elsewhere := by
  refine elsewhere_locked ?_
  refine Task.resumes_unsent_bind (Program.only_ask nofun) fun s => ?_
  split
  · split
    · trivial
    · exact elsewhere_handshake
  · exact elsewhere_handshake

theorem elsewhere_mount : mount.Elsewhere := by
  refine Task.resumes_unsent_bind (Program.only_ask nofun) fun s => ?_
  split
  · trivial
  · exact elsewhere_refresh _

theorem elsewhere_settle {Args Ok Fail : Type} (p : FileProcedure Args Ok Fail) (args : Args)
    (generation : UInt64) (reply : NfsReply Ok Fail) :
    (settle p args generation reply).Elsewhere := by
  refine Task.resumes_unsent_bind (Program.only_ask nofun) fun s => ?_
  split
  · split
    · exact Task.resumes_lift_bind (elsewhere_refresh _) fun _ => trivial
    · trivial
  · exact Task.resumes_ofExcept _

end Session
end Elsewhere

/-- In the answer to a call of `p` this reply can be read. -/
def Accepts {Args Reply : Type} (p : Procedure Args Reply) (m : Transmission)
    (answer : Except IoFailure Bytes) (reply : Reply) : Prop :=
  m.program = p.service.program ∧ m.procedure = p.number ∧ ∃ bytes q rest, answer = .ok bytes ∧
    Says m.xid bytes (.accepted .success) q ∧ p.reply.decode (bytes.drop q) = .ok reply rest

theorem Accepts.of_judge {Args Reply : Type} {p : Procedure Args Reply} {r : Request Args}
    {m : Transmission} {answer : Except IoFailure Bytes} {reply : Reply} {server : String}
    (hp : m.program = p.service.program) (hn : m.procedure = p.number) (hx : r.xid = m.xid)
    (h : r.judge p server answer = .ok reply) : Accepts p m answer reply := by
  cases answer with
  | error cause => cases h
  | ok bytes =>
    obtain ⟨q, rest, hs, hd⟩ := Request.says_of_readReply h
    rw [hx] at hs
    exact ⟨hp, hn, bytes, q, rest, rfl, hs, hd⟩

theorem Accepts.judge {Args Reply : Type} {p : Procedure Args Reply} {r : Request Args}
    {m : Transmission} {answer : Except IoFailure Bytes} {reply : Reply}
    (h : Accepts p m answer reply) (hx : m.xid = r.xid) (server : String) :
    r.judge p server answer = .ok reply := by
  obtain ⟨-, -, bytes, q, rest, rfl, hs, hd⟩ := h
  rw [hx] at hs
  rw [Request.judge, Request.readReply_of_head hs]
  simp only [ReplyOutcome.check, Request.readResult, hd, Except.bind]

namespace Session
variable {Args Ok Fail : Type} {p : FileProcedure Args Ok Fail} {w w₁ : World Session ε}
  {args : Args}

/-- A call for a session found as `s`, whose reply is validated before it is settled. -/
def validatedCall (s : Session) (p : FileProcedure Args Ok Fail)
    (validate : String → Args → NfsReply Ok Fail → Except ClientError Unit) (args : Args) :
    Task Session Ok :=
  sendAs s p (fun _ => Dispatcher.acceptAny) args >>= fun reply =>
    Task.ofExcept (validate s.config.server args reply) >>= fun _ =>
      settle p args s.mounting.generation reply

section Validate
variable (validate : String → Args → NfsReply Ok Fail → Except ClientError Unit)

theorem sendAs_bind_eq (s : Session) (f : NfsReply Ok Fail → Task Session α) :
    sendAs s p validate args >>= f = sendAs s p (fun _ => Dispatcher.acceptAny) args >>= fun v =>
      Task.ofExcept (validate s.config.server args v) >>= fun _ => f v := by
  have hv (v : NfsReply Ok Fail) : (Task.ofExcept (validate s.config.server args v) >>= fun _ =>
      pure v : Task Dispatcher _).onPart nfsCallsPart >>= f =
        Task.ofExcept (validate s.config.server args v) >>= fun _ => f v := by
    cases validate s.config.server args v <;> rfl
  let request (x : UInt32) : Request Args :=
    ⟨x, args, s.credential, routingKey s.config.hashing (p.handle args)⟩
  have hs : sendAs s p validate args = Task.lift .freshXid >>= fun x =>
      (Dispatcher.call p.toProcedure (request x) (validate s.config.server)).onPart
        nfsCallsPart := rfl
  have ha : sendAs s p (fun _ => Dispatcher.acceptAny) args = Task.lift .freshXid >>= fun x =>
      (Dispatcher.call p.toProcedure (request x) Dispatcher.acceptAny).onPart nfsCallsPart := rfl
  rw [hs, ha, Task.bind_assoc, Task.bind_assoc]
  refine congrArg (Task.lift .freshXid >>= ·) (funext fun x => ?_)
  rw [Dispatcher.call_eq, Task.onPart_bind, Task.bind_assoc]
  exact congrArg (_ >>= ·) (funext hv)

theorem callValidated_eq_validatedCall : callValidated p validate args = mount >>= fun _ =>
    Task.lift .inspect >>= fun s => validatedCall s p validate args := by
  rw [callValidated_eq]
  simp only [sendAs_bind_eq validate, validatedCall]

end Validate

/-- The first reply that can be read is validated and settled, and nothing else is done then. -/
theorem resumes_validatedCall (hp : p.toProcedure.Uniform) (hs : p.service = nfsService)
    (s : Session) (validate : String → Args → NfsReply Ok Fail → Except ClientError Unit)
    (args : Args) : (validatedCall s p validate args).Resumes fun m answer left =>
      ∀ reply, Accepts p.toProcedure m answer reply →
        left = Task.ofExcept (validate s.config.server args reply) >>= fun _ =>
          settle p args s.mounting.generation reply := by
  refine Task.resumes_bind ?_ fun reply => ?_
  · refine Task.resumes_unsent_bind (unsent_fresh _ _) fun r => Task.resumes_onPart ?_
    refine Dispatcher.resumes_call.mono fun m answer left h reply hr => ?_
    obtain ⟨⟨stamp, hm⟩, hl⟩ := h
    rw [hl reply (hr.judge (Request.reads hp hm).1)]
    rfl
  · refine Task.resumes_ofExcept_bind fun _ _ => ?_
    have he := elsewhere_settle p args s.mounting.generation reply
    refine he.mono fun m answer left h reply hr => ?_
    exact (h (hr.1.trans (congrArg Service.program hs))).elim

theorem config_mount (env : Environment ε) (w : World Session ε) :
    (Task.exec env mount w).2.client.config = w.client.config := by
  have hm : Accounted env (ExceptT.run mount) := .mount
  obtain ⟨hs, h⟩ := hm w
  exact h.config

theorem not_accepts (hs : p.service = nfsService) {t : Task Session α} (ht : t.Elsewhere)
    {x : Sending Session} (hx : x ∈ Task.sendings env t w) {reply : NfsReply Ok Fail} :
    ¬ Accepts p.toProcedure x.message x.answer reply := by
  intro h
  obtain ⟨left, w₁, -, hn⟩ := ht.exists_resumption hx
  exact hn (h.1.trans (congrArg Service.program hs))

section Run
variable {validate : String → Args → NfsReply Ok Fail → Except ClientError Unit}
  {x : Sending Session} {reply : NfsReply Ok Fail} (hs : p.service = nfsService)
  (h : Accepts p.toProcedure x.message x.answer reply)
include hs h

theorem config_of_accepts {s : Session}
    (hx : x ∈ Task.sendings env (validatedCall s p validate args) w) :
    x.seen.config = w.client.config := by
  unfold validatedCall at hx
  rw [Task.sendings_bind] at hx
  obtain hx | hx := List.mem_append.1 hx
  · exact (same_sendings (quiet_sendAs s) w x hx).config
  · split at hx
    · rename_i v w₁ _
      have he : (Task.ofExcept (validate s.config.server args v) >>= fun _ =>
          settle p args s.mounting.generation v).Elsewhere :=
        Task.resumes_ofExcept_bind fun _ _ => elsewhere_settle p args _ v
      exact (not_accepts hs he hx h).elim
    · exact (List.not_mem_nil hx).elim

/-- When a reply has come, its validation and settlement are left. -/
theorem callValidated_resumption (hp : p.toProcedure.Uniform)
    (hx : x ∈ Task.sendings env (callValidated p validate args) w) :
    x.seen.config = w.client.config ∧ ∃ generation w₁,
      Program.Resumption env (ExceptT.run (callValidated p validate args)) w x
        (ExceptT.run (Task.ofExcept (validate w.client.config.server args reply) >>= fun _ =>
          settle p args generation reply)) w₁ := by
  rw [callValidated_eq_validatedCall, Task.sendings_bind] at hx
  have hx := (List.mem_append.1 hx).resolve_left fun hm => not_accepts hs elsewhere_mount hm h
  have hc := config_mount env w
  rw [callValidated_eq_validatedCall]
  cases hm : Task.exec env mount w with
  | mk v w₀ =>
    rw [hm] at hx hc
    simp only at hc
    cases v with
    | error e => exact (List.not_mem_nil hx).elim
    | ok root =>
      have hx : x ∈ Task.sendings env (validatedCall w₀.client p validate args) w₀ := by
        simp only at hx
        rwa [Task.sendings_lift_bind] at hx
      obtain ⟨left, w₁, hr, hl⟩ :=
        (resumes_validatedCall hp hs w₀.client validate args).exists_resumption hx
      rw [← hc]
      refine ⟨config_of_accepts hs h hx, w₀.client.mounting.generation, w₁, ?_⟩
      rw [← hl reply h]
      exact .task_bind hm (.task_bind rfl hr)

end Run

theorem exec_settle (env : Environment ε) (p : FileProcedure Args Ok Fail) (args : Args)
    (generation : UInt64) (reply : NfsReply Ok Fail) (w : World Session ε) :
    (Task.exec env (settle p args generation reply) w).1 =
      outcome w.client.config.server p.name reply := by
  by_cases hs : isStale reply.status = true
  · rw [Performs.outcome_of_stale hs]
    unfold settle
    rw [Task.exec_lift_bind, Program.run_inspect, if_pos hs]
    split
    · rw [Task.exec_lift_bind]
      rfl
    · rfl
  · unfold Task.exec
    rw [(Performs.settle_of_fresh (eq_false_of_ne_true hs)).run_eq]

def verify (p : FileProcedure Args Ok Fail) (verifier : Ok → WriteVerifier)
    (expected : Option WriteVerifier) (server : String) (_ : Args) :
    NfsReply Ok Fail → Except ClientError Unit
  | .ok v => WriteVerifier.check server p.name expected (verifier v)
  | .fail .. => .ok ()

/-- The call of `p` that fails when a success shows another verifier than `expected`. -/
def checking (p : FileProcedure Args Ok Fail) (verifier : Ok → WriteVerifier)
    (expected : Option WriteVerifier) : Args → Task Session Ok :=
  callValidated p (verify p verifier expected)

theorem write_eq : write = checking Procedures.write WriteOk.verifier := by
  funext expected args
  unfold write checking
  congr 1
  funext server _ reply
  cases reply <;> rfl

theorem commit_eq : commit = checking Procedures.commit CommitOk.verifier := by
  funext expected args
  unfold commit checking
  congr 1
  funext server _ reply
  cases reply <;> rfl

theorem check_of_ne {server name : String} {expected actual : WriteVerifier}
    (h : expected ≠ actual) : WriteVerifier.check server name (some expected) actual =
      .error (.serverRestarted server name expected actual) :=
  if_neg h

section Checking
variable (env : Environment ε) (p : FileProcedure Args Ok Fail) (verifier : Ok → WriteVerifier)
  (expected : Option WriteVerifier) (args : Args)

def checked (server : String) (v : Ok) : Except ClientError Ok :=
  (WriteVerifier.check server p.name expected (verifier v)).map fun _ => v

theorem checked_cases (server : String) (v : Ok) :
    (expected = none ∨ expected = some (verifier v)) ∧
      checked p verifier expected server v = .ok v ∨
    ∃ x, expected = some x ∧ checked p verifier expected server v =
      .error (.serverRestarted server p.name x (verifier v)) := by
  unfold checked
  cases expected with
  | none => exact .inl ⟨.inl rfl, rfl⟩
  | some x =>
    by_cases hx : x = verifier v
    · rw [WriteVerifier.check, if_pos hx]
      exact .inl ⟨.inr (congrArg some hx), rfl⟩
    · rw [check_of_ne hx]
      exact .inr ⟨x, rfl, rfl⟩

theorem bind_checked_none (server : String) (result : Except ClientError Ok) :
    result.bind (checked p verifier none server) = result := by
  cases result <;> rfl

theorem exec_verify_settle (server : String) (generation : UInt64) (reply : NfsReply Ok Fail)
    (w : World Session ε) :
    let run := Task.exec env (settle p args generation reply) w
    Task.exec env (Task.ofExcept (verify p verifier expected server args reply) >>= fun _ =>
      settle p args generation reply) w =
        (run.1.bind (checked p verifier expected server), run.2) := by
  intro run
  rw [Task.exec_bind, Task.exec_ofExcept]
  cases reply with
  | ok v =>
    have hr : run = (.ok v, w) := by
      unfold run Task.exec
      exact (Performs.settle_of_fresh rfl).run_eq
    rw [hr]
    simp only [verify, Except.bind, checked]
    cases WriteVerifier.check server p.name expected (verifier v) with
    | error e => rfl
    | ok u => exact hr
  | fail status body =>
    have hr : run.1 = outcome w.client.config.server p.name (.fail status body) :=
      exec_settle env p args generation (.fail status body) w
    change run = _
    rw [hr]
    exact Prod.ext hr rfl

theorem exec_checking (w : World Session ε) :
    let run := Task.exec env (checking p verifier none args) w
    Task.exec env (checking p verifier expected args) w =
      (run.1.bind (checked p verifier expected w.client.config.server), run.2) := by
  intro run
  have hc := config_mount env w
  unfold run checking
  rw [callValidated_eq_validatedCall, callValidated_eq_validatedCall, Task.exec_bind,
    Task.exec_bind]
  cases hm : Task.exec env mount w with
  | mk v w₀ =>
    rw [hm] at hc
    cases v with
    | error e => rfl
    | ok root =>
      simp only
      rw [Task.exec_lift_bind, Task.exec_lift_bind, Program.run_inspect]
      simp only [validatedCall]
      rw [Task.exec_bind, Task.exec_bind]
      cases Task.exec env (sendAs w₀.client p (fun _ => Dispatcher.acceptAny) args) w₀ with
      | mk v w₁ =>
        cases v with
        | error e => rfl
        | ok reply =>
          simp only [exec_verify_settle, bind_checked_none, ← hc]

end Checking

/-- `call` compares the verifier of each success of `p` with the one it is given to expect, and does
nothing else with it. -/
structure ChecksVerifier (p : FileProcedure Args Ok Fail) (verifier : Ok → WriteVerifier)
    (call : Option WriteVerifier → Args → Task Session Ok) : Prop where
  /-- What is done does not depend on what is expected, and no result but a success does. -/
  agrees {ε : Type} (env : Environment ε) (w : World Session ε) (expected : Option WriteVerifier)
    (args : Args) : Task.exec env (call expected args) w =
      ((Task.exec env (call none args) w).1.bind
        (checked p verifier expected w.client.config.server),
        (Task.exec env (call none args) w).2)
  accepted {ε : Type} (env : Environment ε) (w : World Session ε)
    (expected : Option WriteVerifier) (args : Args) (v : Ok) :
    (Task.exec env (call expected args) w).1 = .ok v →
      expected = none ∨ expected = some (verifier v)
  /-- A difference is reported, and that is all. The reply ends the call, and the session is as it
  was when the request was sent. -/
  restarted {ε : Type} (env : Environment ε) (w : World Session ε) (expected : WriteVerifier)
    (args : Args) (x : Sending Session) (v : Ok) :
    x ∈ Task.sendings env (call (some expected) args) w →
    Accepts p.toProcedure x.message x.answer (.ok v) → expected ≠ verifier v →
    let run := Task.exec env (call (some expected) args) w
    run.1 = .error (.serverRestarted w.client.config.server p.name expected (verifier v)) ∧
      run.2.client = x.seen ∧ run.2.log.getLast? = some (.sent x.message x.answer) ∧
      (Task.sendings env (call (some expected) args) w).getLast? = some x
  /-- Nor is anything left to do when others use the session at the same time. -/
  ends (expected : WriteVerifier) (args : Args) : (call (some expected) args).Resumes
    fun m answer left => ∀ v, Accepts p.toProcedure m answer (.ok v) → expected ≠ verifier v →
      ∃ server, left = throw (.serverRestarted server p.name expected (verifier v))
  /-- A failure is settled as it is when nothing is expected. -/
  failed {ε : Type} (env : Environment ε) (w : World Session ε) (expected : Option WriteVerifier)
    (args : Args) (x : Sending Session) (status : NfsStatus) (body : Fail) :
    x ∈ Task.sendings env (call expected args) w →
    Accepts p.toProcedure x.message x.answer (.fail status body) →
    Task.exec env (call expected args) w = Task.exec env (call none args) w ∧
      (Task.exec env (call expected args) w).1 =
        .error (if isStale status then .staleHandle w.client.config.server p.name status
          else .nfs w.client.config.server p.name status)

theorem checksVerifier_checking (p : FileProcedure Args Ok Fail) (verifier : Ok → WriteVerifier)
    (hp : p.toProcedure.Uniform) (hs : p.service = nfsService) :
    ChecksVerifier p verifier (checking p verifier) where
  agrees env w expected args := exec_checking env p verifier expected args w
  accepted env w expected args v h := by
    rw [exec_checking] at h
    simp only at h
    cases hr : (Task.exec env (checking p verifier none args) w).1 with
    | error e =>
      rw [hr] at h
      cases h
    | ok u =>
      rw [hr] at h
      have h : checked p verifier expected w.client.config.server u = .ok v := h
      obtain ⟨he, hk⟩ | ⟨x, -, hk⟩ := checked_cases p verifier expected w.client.config.server u
      · rw [hk] at h
        cases h
        exact he
      · rw [hk] at h
        cases h
  restarted env w expected args x v hx ha hne := by
    intro run
    obtain ⟨-, generation, w₁, hr⟩ := callValidated_resumption hs ha hp hx
    simp only [verify, check_of_ne hne] at hr
    have hrun : run = (.error _, w₁) := hr.run
    obtain ⟨before, hsent⟩ := hr.sendings
    rw [hrun]
    refine ⟨rfl, hr.client, hr.last, ?_⟩
    have hlast : Task.sendings env (checking p verifier (some expected) args) w =
        before ++ [x] := hsent
    rw [hlast]
    exact List.getLast?_concat
  ends expected args := by
    unfold checking
    rw [callValidated_eq_validatedCall]
    refine Task.resumes_bind (elsewhere_mount.mono fun m answer left h v ha => ?_) fun _ => ?_
    · exact (h (ha.1.trans (congrArg Service.program hs))).elim
    · refine Task.resumes_unsent_bind (Program.only_ask nofun) fun s => ?_
      refine (resumes_validatedCall hp hs s _ args).mono fun m answer left h v ha hne => ?_
      refine ⟨s.config.server, (h _ ha).trans ?_⟩
      simp only [verify, check_of_ne hne]
      rfl
  failed env w expected args x status body hx ha := by
    obtain ⟨hc, generation, w₁, hr⟩ := callValidated_resumption hs ha hp hx
    have hrun : Task.exec env (checking p verifier expected args) w =
        Task.exec env (settle p args generation (.fail status body)) w₁ := hr.run
    have ho : (Task.exec env (checking p verifier expected args) w).1 =
        outcome w.client.config.server p.name (.fail status body) := by
      rw [hrun, exec_settle, hr.client, hc]
    refine ⟨?_, ho⟩
    rw [exec_checking] at ho ⊢
    cases hn : (Task.exec env (checking p verifier none args) w).1 with
    | error e => exact Prod.ext hn.symm rfl
    | ok u =>
      rw [hn] at ho
      have ho : checked p verifier expected w.client.config.server u = .error _ := ho
      obtain ⟨-, hk⟩ | ⟨x, -, hk⟩ := checked_cases p verifier expected w.client.config.server u
      · rw [hk] at ho
        cases ho
      · rw [hk] at ho
        split at ho <;> cases ho

/-- Writes and commits succeed only with the verifier expected. Any other makes them fail, without
another send, a remount or a change of the session after the reply. Other failures stay what they
are. -/
theorem write_and_commit_check_verifier :
    ChecksVerifier Procedures.write WriteOk.verifier write ∧
    ChecksVerifier Procedures.commit CommitOk.verifier commit := by
  have hc : Procedures.commit.toProcedure.Uniform := .plain _ _ _ _ _
  rw [write_eq, commit_eq]
  exact ⟨checksVerifier_checking _ _ .write rfl, checksVerifier_checking _ _ hc rfl⟩

/-- Mounted; the server restarted after it showed a verifier that ends with five. -/
def reborn : World Session Playback where
  client :=
    { ofConfig (.ofExport "server" "/export") .external with
      mounting := ⟨.mounted, some ⟨[1]⟩, [1], 3⟩ }
  outside :=
    { rules := [((nfsService.program, NfsNumber.write.code),
        .reply 0 [0, 0, 0, 1, 0, 0, 0, 0, 0, 0, 0, 0, 0, 0, 0, 0, 0, 0, 0, 0, 0, 0, 0, 0,
          0, 0, 0, 0, 0, 0, 0, 0, 0, 0, 0, 1, 0, 0, 0, 0, 0, 0, 0, 0, 0, 0, 0, 6])]
      script := [], names := .literal, ports := [] }

def five : WriteVerifier := ⟨[0, 0, 0, 0, 0, 0, 0, 5], rfl⟩

def six : WriteVerifier := ⟨[0, 0, 0, 0, 0, 0, 0, 6], rfl⟩

def oneByte : WriteArgs := .ofData ⟨[2]⟩ 0 .unstable [9]

theorem write_and_commit_check_verifier_reborn :
    let call := write (some five) oneByte
    let run := Task.exec Playback.environment call reborn
    ∃ x v, x ∈ Task.sendings Playback.environment call reborn ∧
      Accepts Procedures.write.toProcedure x.message x.answer (.ok v) ∧ v.verifier = six ∧
      run.1 = .error (.serverRestarted "server" "WRITE" five six) ∧ run.2.client = x.seen := by
  intro call run
  let request (x : Sending Session) : Request WriteArgs := ⟨x.message.xid, oneByte, .none, 0⟩
  let reading (x : Sending Session) : Except ClientError WriteReply :=
    (request x).judge Procedures.write.toProcedure "server" x.answer
  let v : WriteOk := ⟨⟨none, none⟩, 1, .unstable, six⟩
  have hk : (Task.sendings Playback.environment call reborn).map (fun x =>
      (x.message.program, x.message.procedure, (reading x).toOption)) =
      [(nfsService.program, NfsNumber.write.code, some (.ok v))] := by decide +kernel
  obtain ⟨x, hs, hr⟩ := List.map_eq_singleton_iff.1 hk
  simp only [Prod.mk.injEq] at hr
  obtain ⟨hp, hn, hr⟩ := hr
  have hj : reading x = .ok (.ok v) := by
    cases hj : reading x with
    | ok reply =>
      rw [hj] at hr
      exact congrArg Except.ok (Option.some.inj hr)
    | error e =>
      rw [hj] at hr
      cases hr
  have hx : x ∈ Task.sendings Playback.environment call reborn := by
    rw [hs]
    exact List.mem_singleton_self x
  have ha : Accepts Procedures.write.toProcedure x.message x.answer (.ok v) :=
    .of_judge hp hn rfl hj
  have hne : five ≠ v.verifier := by decide
  obtain ⟨hresult, hclient, -⟩ := write_and_commit_check_verifier.1.restarted Playback.environment
    reborn five oneByte x v hx ha hne
  exact ⟨x, v, hx, ha, rfl, hresult, hclient⟩

end Session

end Nfs3.Client
