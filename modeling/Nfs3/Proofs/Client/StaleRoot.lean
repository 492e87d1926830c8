import Nfs3.Client.Playback
import Nfs3.Proofs.Client.Mounting
import Nfs3.Proofs.Rpc.FileCall

/-!
What a mounted session makes of the reply to a call on files, and when such a reply makes it mount
anew.
-/
namespace Nfs3.Client.Session
open Wire Rpc
variable {ε : Type} {env : Environment ε} {w w₁ w' : World Session ε} {Args Ok Fail : Type}
  {p : FileProcedure Args Ok Fail} {args : Args} {root : FileHandle}
  {validate : String → Args → NfsReply Ok Fail → Except ClientError Unit}

def sendCall (p : FileProcedure Args Ok Fail)
    (validate : String → Args → NfsReply Ok Fail → Except ClientError Unit) (args : Args) :
    Task Session (NfsReply Ok Fail) := do
  let s ← Task.lift .inspect
  let request ← Task.lift (Request.fresh args s.credential)
  (Dispatcher.call p.toProcedure
    { request with routingKey := routingKey s.config.hashing (p.handle args) }
    (validate s.config.server)).onPart nfsCallsPart

/-- On record is a call with `args`, and its reply with this status and `body` behind the status. -/
def Replied (es : List Event) (p : FileProcedure Args Ok Fail) (args : Args) (status : NfsStatus)
    (body : Bytes) : Prop :=
  ∃ (r : Request Args) (message : Transmission) (bytes : Bytes) (stamp : UInt32) (q : Nat),
    r.args = args ∧ .sent message (.ok bytes) ∈ es ∧
    r.segments p.toProcedure stamp = .ok message.segments ∧
    Says r.xid bytes (.accepted .success) q ∧
    wordAt bytes q = some (Enumeration.code status) ∧ body = bytes.drop (q + 4)

/-- All that calls leave alone. -/
def apartFromEscalation (s : Session) : Session :=
  { s with nfsCalls := { s.nfsCalls with escalated := [] } }

theorem keeps_sendCall :
    Task.Only (Action.Keeps apartFromEscalation) (sendCall p validate args) := by
  refine Task.only_bind (Task.only_lift (Program.only_ask trivial)) fun s => ?_
  refine Task.only_bind (Task.only_lift (keeps_fresh _ _)) fun request => ?_
  refine Program.keeps_onPart Dispatcher.only_call fun f s hf => ?_
  obtain ⟨procedure, rfl⟩ := hf
  rfl

/-- What the caller gets of a reply whether or not the session mounts anew. -/
def outcome (server name : String) : NfsReply Ok Fail → Except ClientError Ok
  | .ok v => .ok v
  | .fail status _ =>
    .error (if isStale status then .staleHandle server name status else .nfs server name status)

namespace Performs
variable {reply : NfsReply Ok Fail} {generation : UInt64} {result : Except ClientError FileHandle}

theorem settle_of_fresh (h : isStale reply.status = false) :
    Performs env (ExceptT.run (settle p args generation reply)) w []
      (outcome w.client.config.server p.name reply) w := by
  refine .inspect_bind ?_
  rw [h]
  cases reply with
  | ok v => exact .done _ _
  | fail status body =>
    rw [outcome, show isStale status = false from h]
    exact .done _ _

theorem outcome_of_stale (h : isStale reply.status = true) (server name : String) :
    outcome server name reply = .error (.staleHandle server name reply.status) := by
  cases reply with
  | ok v => cases h
  | fail status body => rw [outcome, show isStale status = true from h, if_pos rfl]; rfl

theorem settle_of_other (h : isStale reply.status = true)
    (hr : (p.handles args).any (some · = w.client.mounting.root) = false) :
    Performs env (ExceptT.run (settle p args generation reply)) w []
      (outcome w.client.config.server p.name reply) w := by
  refine .inspect_bind ?_
  rw [h, hr, outcome_of_stale h]
  exact .done _ _

theorem settle_of_root (h : isStale reply.status = true)
    (hr : (p.handles args).any (some · = w.client.mounting.root) = true)
    (hg : w.client.mounting.generation = generation)
    (hx : Task.exec env Session.handshake w = (result, w')) :
    Performs env (ExceptT.run (settle p args generation reply)) w [⟨w, result, w'⟩]
      (outcome w.client.config.server p.name reply) w' := by
  refine .inspect_bind ?_
  rw [h, hr, outcome_of_stale h]
  exact (Performs.refresh (.inr hg) hx).lift.task_bind (.done _ _)

theorem callValidated {hs : List (Handshake ε)} {v : Except ClientError Ok}
    (hm : w.client.mounting.mountedRoot = some root)
    (hx : Task.exec env (sendCall p validate args) w = (.ok reply, w₁))
    (h : Performs env (ExceptT.run (settle p args w.client.mounting.generation reply)) w₁ hs v w') :
    Performs env (ExceptT.run (Session.callValidated p validate args)) w hs v w' := by
  have hmount : Performs env (ExceptT.run mount) w [] (.ok root) w := by
    refine .inspect_bind ?_
    rw [hm]
    exact .done _ _
  rw [sendCall, Task.exec_lift_bind, Program.run_inspect, Task.exec_lift_bind] at hx
  have hfresh := (quiet env (quiet_fresh args w.client.credential) w).lift
  have hcall := of_exec (quiet_nfsCalls Dispatcher.only_call) hx
  exact hmount.task_bind (.inspect_bind (hfresh.task_bind (hcall.task_bind h)))

end Performs

theorem replied_of_sendCall {okBody : Codec Ok} {failBody : Codec Fail} {reply : NfsReply Ok Fail}
    (hc : p.reply = NfsReply.codec okBody failBody)
    (hx : Task.exec env (sendCall p validate args) w = (.ok reply, w₁)) :
    ∃ es body, w₁.log = w.log ++ es ∧ Replied es p args reply.status body ∧
      reply.HasBody okBody failBody body := by
  unfold sendCall at hx
  rw [Task.exec_lift_bind, Program.run_inspect] at hx
  obtain ⟨r, w₀, es₁, -, hr, hl₁, hx⟩ := Task.exec_lift_cases hx
  obtain ⟨es₂, ht, hl₂⟩ := Task.exec_trace hx
  obtain ⟨message, bytes, stamp, q, rest, he, hs, hv, hd⟩ :=
    Dispatcher.call_trace (Program.Trace.of_onPart ht)
  rw [hc] at hd
  obtain ⟨hw, hb⟩ := NfsReply.decode_eq_ok hd
  refine ⟨es₁ ++ es₂, bytes.drop (q + 4), ?_, ?_, hb⟩
  · rw [hl₂, hl₁, List.append_assoc]
  · exact ⟨_, message, bytes, stamp, q, hr.of_fresh, List.mem_append_right _ he, hs, hv, hw, rfl⟩

/-- The status word of its reply decides what a call on a mounted session comes to: the result, a
stale handle, or another failure with that status. The session mounts anew, once and whatever that
comes to, when the status calls a handle stale and the root occurs in the arguments. Otherwise the
reply is the last there is to it. -/
theorem callValidated_of_reply (env : Environment ε) {c : FileCall} (hc : c ∈ FileCall.all)
    (validate : String → c.Args → NfsReply c.Ok c.Fail → Except ClientError Unit) (args : c.Args)
    {w w₁ : World Session ε} {root : FileHandle} {reply : NfsReply c.Ok c.Fail}
    (hm : w.client.mounting.mountedRoot = some root)
    (hx : Task.exec env (sendCall c.procedure validate args) w = (.ok reply, w₁)) :
    let call := Task.exec env (callValidated c.procedure validate args) w
    let again := Task.exec env handshake w₁
    let remounts := isStale reply.status = true ∧ root ∈ Handles.within args
    (∃ es body, w₁.log = w.log ++ es ∧ Replied es c.procedure args reply.status body ∧
      reply.HasBody c.okBody c.failBody body) ∧
    call.1 = outcome w.client.config.server c.procedure.name reply ∧
    call.2 = (if remounts then again.2 else w₁) ∧
    (∀ hs, Performs env (ExceptT.run (callValidated c.procedure validate args)) w hs call.1 call.2 ↔
      hs = if remounts then [⟨w₁, again.1, again.2⟩] else []) ∧
    apartFromEscalation w₁.client = apartFromEscalation w.client := by
  intro call again remounts
  obtain ⟨hh, hr⟩ := FileCall.all_faithful c hc
  have hk := Task.keeps_exec apartFromEscalation keeps_sendCall hx
  have hconfig : w₁.client.config = w.client.config := congrArg (·.config) hk
  have hmounting : w₁.client.mounting = w.client.mounting := congrArg (·.mounting) hk
  have hany : (c.procedure.handles args).any (some · = w₁.client.mounting.root) =
      decide (root ∈ Handles.within args) := by
    rw [hmounting, root_of_mountedRoot hm, hh, Bool.eq_iff_iff]
    simp
  have hp : Performs env (ExceptT.run (callValidated c.procedure validate args)) w
      (if remounts then [⟨w₁, again.1, again.2⟩] else [])
      (outcome w.client.config.server c.procedure.name reply)
      (if remounts then again.2 else w₁) := by
    refine .callValidated hm hx ?_
    rw [← hconfig, ← hmounting]
    by_cases hs : isStale reply.status = true
    · by_cases hroot : root ∈ Handles.within args
      · rw [if_pos ⟨hs, hroot⟩, if_pos ⟨hs, hroot⟩]
        exact .settle_of_root hs (hany.trans (decide_eq_true hroot)) rfl rfl
      · rw [if_neg fun h => hroot h.2, if_neg fun h => hroot h.2]
        exact .settle_of_other hs (hany.trans (decide_eq_false hroot))
    · rw [if_neg fun h => hs h.1, if_neg fun h => hs h.1]
      exact .settle_of_fresh (eq_false_of_ne_true hs)
  have he : call = _ := hp.run_eq
  rw [he]
  refine ⟨replied_of_sendCall hr hx, rfl, rfl, fun hs => ⟨fun h => h.unique hp, ?_⟩, hk⟩
  rintro rfl
  exact hp

/-- Mounted; the server no longer knows one of the directories of a move, nor is its mount service
to be found. -/
def forgotten : World Session Playback where
  client :=
    { ofConfig (.ofExport "server" "/export") .external with
      mounting := ⟨.mounted, some ⟨[1]⟩, [1], 3⟩ }
  outside :=
    { rules := [((nfsService.program, NfsNumber.rename.code),
        .reply 0 [0, 0, 0, 1, 0, 0, 0, 0, 0, 0, 0, 0, 0, 0, 0, 0, 0, 0, 0, 0, 0, 0, 39, 17,
          0, 0, 0, 0, 0, 0, 0, 0, 0, 0, 0, 0, 0, 0, 0, 0])]
      script := [], names := .literal, ports := [] }

def intoRoot : RenameArgs := ⟨⟨⟨[2]⟩, ⟨[0x61]⟩⟩, ⟨⟨[1]⟩, ⟨[0x62]⟩⟩⟩

theorem callValidated_of_reply_intoRoot :
    let call := Task.exec Playback.environment
      (callValidated Procedures.rename (fun _ => Dispatcher.acceptAny) intoRoot) forgotten
    forgotten.client.mounting.mountedRoot = some ⟨[1]⟩ ∧
    (∃ reply w₁, Task.exec Playback.environment
      (sendCall Procedures.rename (fun _ => Dispatcher.acceptAny) intoRoot) forgotten =
        (.ok reply, w₁)) ∧
    call.1 = .error (.staleHandle "server" "RENAME" .badHandle) ∧
    ∃ h : Handshake Playback, h.completed = false ∧ Performs Playback.environment
      (ExceptT.run (callValidated Procedures.rename (fun _ => Dispatcher.acceptAny) intoRoot))
      forgotten [h] call.1 call.2 := by
  intro call
  let send := Task.exec Playback.environment
    (sendCall Procedures.rename (fun _ => Dispatcher.acceptAny) intoRoot) forgotten
  have hk : send.1.toOption.map NfsReply.status = some .badHandle := by decide +kernel
  obtain ⟨reply, hr⟩ : ∃ reply, send.1 = .ok reply := by
    cases hr : send.1 with
    | ok reply => exact ⟨reply, rfl⟩
    | error e =>
      rw [hr] at hk
      cases hk
  have hx : send = (.ok reply, send.2) := by rw [← hr]
  have hs : reply.status = .badHandle := by
    rw [hr] at hk
    exact Option.some.inj hk
  have hc : (⟨Procedures.rename, RenameOk.codec, RenameOk.codec⟩ : FileCall) ∈ FileCall.all := by
    simp [FileCall.all]
  have hstale : isStale reply.status = true := by
    rw [hs]
    rfl
  have hremounts : isStale reply.status = true ∧ (⟨[1]⟩ : FileHandle) ∈ Handles.within intoRoot :=
    ⟨hstale, by decide⟩
  let again := Task.exec Playback.environment handshake send.2
  have hfails : again.1.isOk = false := by decide +kernel
  obtain ⟨-, ho, -, hp, -⟩ := callValidated_of_reply Playback.environment hc
    (fun _ => Dispatcher.acceptAny) intoRoot rfl hx
  refine ⟨rfl, ⟨reply, send.2, hx⟩, ?_, ⟨send.2, again.1, again.2⟩, hfails,
    (hp _).2 (if_pos hremounts).symm⟩
  rw [← hs]
  exact ho.trans (Performs.outcome_of_stale hstale _ _)

end Nfs3.Client.Session
