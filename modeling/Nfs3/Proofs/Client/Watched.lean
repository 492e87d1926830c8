import Nfs3.Proofs.Client.Interleaving
import Nfs3.Proofs.Client.Mounting

/-!
The operations of a session with the milestones of their refreshes marked. Without the marks they
are what a user asks for.
-/
namespace Nfs3.Client
open Wire Rpc

inductive Milestone where
  /-- The lock is obtained, in this state. -/
  | admitted (generation : UInt64) (seen : MountState)
  | started (generation : UInt64)
  | completed (generation : UInt64) (root : FileHandle)
  | failed (generation : UInt64)
  | returned (generation : UInt64) (result : Except ClientError FileHandle)

abbrev Watched (α : Type) := ExceptT ClientError (Marked Session Milestone) α

namespace Watched
variable {α β : Type}

def ofTask (t : Task Session α) : Watched α := ExceptT.mk (ExceptT.run t).unmarked

def erase (t : Watched α) : Task Session α := ExceptT.mk (Marked.erase (ExceptT.run t))

def inspect : Watched Session := ofTask (Task.lift .inspect)

def attempt (t : Watched α) : Watched (Except ClientError α) :=
  ExceptT.mk ((ExceptT.run t).bind fun r => .done (.ok r))

def ending (generation : UInt64) : Except ClientError FileHandle → List Milestone
  | .ok root => [.completed generation root]
  | .error _ => [.failed generation]

def handshake (generation : UInt64) : Marked Session Milestone (Except ClientError FileHandle) :=
  (ExceptT.run Session.handshake).bracketed [.started generation] (ending generation)

def choose (generation : UInt64) (seen : MountState) :
    Marked Session Milestone (Except ClientError FileHandle) :=
  match seen.mountedRoot with
  | some root => if seen.generation ≠ generation then .done (.ok root) else handshake generation
  | none => handshake generation

def leave (generation : UInt64) (result : Except ClientError FileHandle) :
    Marked Session Milestone (Except ClientError FileHandle) :=
  .act .release (fun _ _ => [.returned generation result]) fun _ => .done result

def refresh (generation : UInt64) : Watched FileHandle :=
  ExceptT.mk <| .act .acquire (fun s _ => [.admitted generation s.mounting]) fun _ =>
    .act .inspect noMarks fun s => (choose generation s.mounting).bind (leave generation)

def mount : Watched FileHandle := do
  let s ← inspect
  match s.mounting.mountedRoot with
  | some root => pure root
  | none => refresh s.mounting.generation

def rootHandle : Watched FileHandle := do
  let s ← inspect
  match s.mounting.mountedRoot with
  | some root => pure root
  | none => mount

def remount : Watched FileHandle := do
  let s ← inspect
  refresh s.mounting.generation

def null : Watched Unit := do
  let _ ← mount
  let s ← inspect
  let r ← ofTask (Task.lift (Request.fresh () s.credential))
  ofTask ((Dispatcher.call Procedures.null r Dispatcher.acceptAny).onPart Session.nfsCallsPart)

def mountNull : Watched Unit := do
  let _ ← mount
  let s ← inspect
  let r ← ofTask (Task.lift (Request.fresh () s.credential))
  ofTask (Session.callMount Procedures.mountNull r)

def settle {Args Ok Fail : Type} (p : FileProcedure Args Ok Fail) (args : Args)
    (generation : UInt64) (reply : NfsReply Ok Fail) : Watched Ok := do
  let s ← inspect
  if Session.isStale reply.status then
    if (p.handles args).any (some · = s.mounting.root) then
      let _ ← attempt (refresh generation)
    throw (.staleHandle s.config.server p.name reply.status)
  else
    ofTask (Task.ofExcept (reply.result s.config.server p.name))

def callValidated {Args Ok Fail : Type} (p : FileProcedure Args Ok Fail)
    (validate : String → Args → NfsReply Ok Fail → Except ClientError Unit) (args : Args) :
    Watched Ok := do
  let _ ← mount
  let s ← inspect
  let request ← ofTask (Task.lift (Request.fresh args s.credential))
  let reply ← ofTask <|
    (Dispatcher.call p.toProcedure
      { request with routingKey := Session.routingKey s.config.hashing (p.handle args) }
      (validate s.config.server)).onPart Session.nfsCallsPart
  settle p args s.mounting.generation reply

theorem erase_ofTask (t : Task Session α) : erase (ofTask t) = t := Program.erase_unmarked _

theorem erase_bind (t : Watched α) (f : α → Watched β) :
    erase (t >>= f) = erase t >>= fun v => erase (f v) := by
  have h : (Marked.bind (ExceptT.run t) (ExceptT.bindCont f)).erase =
      (Marked.erase (ExceptT.run t)).bind (ExceptT.bindCont fun v => erase (f v)) := by
    rw [Marked.erase_bind]
    congr 1
    funext r
    cases r <;> rfl
  exact h

theorem erase_handshake (generation : UInt64) :
    (handshake generation).erase = ExceptT.run Session.handshake :=
  Program.erase_bracketed _ _ _

theorem erase_choose (generation : UInt64) (seen : MountState) :
    (choose generation seen).erase = ExceptT.run (match seen.mountedRoot with
      | some root =>
        if seen.generation ≠ generation then (pure root : Task Session FileHandle)
        else Session.handshake
      | none => Session.handshake) := by
  unfold choose
  split
  · split
    · rfl
    · exact erase_handshake _
  · exact erase_handshake _

theorem erase_refresh (generation : UInt64) :
    erase (refresh generation) = Session.refresh generation := by
  have h (s : Session) : ((choose generation s.mounting).bind (leave generation)).erase =
      (ExceptT.run (match s.mounting.mountedRoot with
        | some root =>
          if s.mounting.generation ≠ generation then (pure root : Task Session FileHandle)
          else Session.handshake
        | none => Session.handshake)).bind fun result => .act .release fun _ => .done result := by
    rw [Marked.erase_bind, erase_choose]
    rfl
  exact congrArg (fun next => ExceptT.mk (Program.act .acquire fun _ => .act .inspect next))
    (funext h)

theorem erase_attempt (t : Watched α) : erase (attempt t) = Task.lift (ExceptT.run (erase t)) :=
  Marked.erase_bind _ _

theorem erase_inspect : erase inspect = Task.lift .inspect := erase_ofTask _

theorem erase_mount : erase mount = Session.mount := by
  rw [mount, erase_bind, erase_inspect]
  refine congrArg _ (funext fun s => ?_)
  cases s.mounting.mountedRoot with
  | some root => rfl
  | none => exact erase_refresh _

theorem erase_rootHandle : erase rootHandle = Session.rootHandle := by
  rw [rootHandle, erase_bind, erase_inspect]
  refine congrArg _ (funext fun s => ?_)
  cases s.mounting.mountedRoot with
  | some root => rfl
  | none => exact erase_mount

theorem erase_remount : erase remount = Session.remount := by
  simp only [remount, erase_bind, erase_inspect, erase_refresh]
  rfl

theorem erase_null : erase null = Session.null := by
  simp only [null, erase_bind, erase_mount, erase_inspect, erase_ofTask]
  rfl

theorem erase_mountNull : erase mountNull = Session.mountNull := by
  simp only [mountNull, erase_bind, erase_mount, erase_inspect, erase_ofTask]
  rfl

theorem erase_settle {Args Ok Fail : Type} (p : FileProcedure Args Ok Fail) (args : Args)
    (generation : UInt64) (reply : NfsReply Ok Fail) :
    erase (settle p args generation reply) = Session.settle p args generation reply := by
  rw [settle, erase_bind, erase_inspect]
  refine congrArg _ (funext fun s => ?_)
  cases Session.isStale reply.status with
  | false => exact erase_ofTask _
  | true =>
    cases (p.handles args).any (some · = s.mounting.root) with
    | false => rfl
    | true =>
      refine (erase_bind _ _).trans ?_
      rw [erase_attempt, erase_refresh]
      rfl

theorem erase_callValidated {Args Ok Fail : Type} (p : FileProcedure Args Ok Fail)
    (validate : String → Args → NfsReply Ok Fail → Except ClientError Unit) (args : Args) :
    erase (callValidated p validate args) = Session.callValidated p validate args := by
  simp only [callValidated, erase_bind, erase_mount, erase_inspect, erase_ofTask, erase_settle]
  rfl

def ignore (t : Watched α) : Marked Session Milestone Unit := (ExceptT.run t).bind fun _ => .done ()

theorem erase_ignore (t : Watched α) : (ignore t).erase = Session.ignore (erase t) :=
  Marked.erase_bind _ _

def operation : Session.Operation → Marked Session Milestone Unit
  | .mount => ignore mount
  | .remount => ignore remount
  | .rootHandle => ignore rootHandle
  | .null => ignore null
  | .mountNull => ignore mountNull
  | .setCredential credential => (Session.setCredential credential).unmarked
  | .call p validate args => ignore (callValidated p validate args)

theorem erase_operation (op : Session.Operation) : (operation op).erase = op.program := by
  cases op with
  | mount => exact (erase_ignore _).trans (congrArg _ erase_mount)
  | remount => exact (erase_ignore _).trans (congrArg _ erase_remount)
  | rootHandle => exact (erase_ignore _).trans (congrArg _ erase_rootHandle)
  | null => exact (erase_ignore _).trans (congrArg _ erase_null)
  | mountNull => exact (erase_ignore _).trans (congrArg _ erase_mountNull)
  | setCredential credential => exact Program.erase_unmarked _
  | call p validate args => exact (erase_ignore _).trans (congrArg _ (erase_callValidated _ _ _))

def performAll : List Session.Operation → Marked Session Milestone Unit
  | [] => .done ()
  | op :: ops => (operation op).bind fun _ => performAll ops

theorem erase_performAll (ops : List Session.Operation) :
    (performAll ops).erase = Session.performAll ops := by
  induction ops with
  | nil => rfl
  | cons op ops ih => rw [performAll, Marked.erase_bind, erase_operation, ih]; rfl

end Watched
end Nfs3.Client
