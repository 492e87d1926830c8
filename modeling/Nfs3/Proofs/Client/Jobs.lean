import Nfs3.Proofs.Client.LogicalCall
import Nfs3.Proofs.Client.Mounting

/-!
What users have sessions, portmappers and dispatchers do, any number of operations one after
another, and the lines this goes over. All of it keeps to its calls. What an external port source
sends for a session is the job of a caller of its own.
-/
namespace Nfs3.Client
open Rpc
variable {κ σ τ α β : Type} [DecidableEq κ]

def Program.Conducted (ok : LogicalCall κ → Prop) (part : Part (Clients κ) τ)
    (p : Program τ α) : Prop :=
  ∀ g, p.Conducts ok part (fun _ _ => True) g

def Task.Conducted (ok : LogicalCall κ → Prop) (part : Part (Clients κ) τ) (t : Task τ α) : Prop :=
  Program.Conducted ok part (ExceptT.run t)

theorem Program.Conducted.bind {ok : LogicalCall κ → Prop} {part : Part (Clients κ) τ}
    {p : Program τ α} {f : α → Program τ β} (hp : p.Conducted ok part)
    (hf : ∀ v, (f v).Conducted ok part) : (p.bind f).Conducted ok part :=
  fun g => (hp g).bind fun v g _ => hf v g

theorem Program.Conducted.locked {ok : LogicalCall κ → Prop} {part : Part (Clients κ) τ}
    {p : Program τ α} (h : p.Conducted ok part) : p.locked.Conducted ok part := by
  have hr : (p.bind fun v => (ask .release).bind fun _ => .done v).Conducted ok part :=
    h.bind fun _ _ _ => trivial
  exact fun g _ => hr g

namespace Task.Conducted
variable {ok : LogicalCall κ → Prop} {part : Part (Clients κ) τ}

theorem bind {t : Task τ α} {f : α → Task τ β} (ht : t.Conducted ok part)
    (hf : ∀ v, (f v).Conducted ok part) : (t >>= f).Conducted ok part :=
  fun g => Task.Conducts.bind (ht g) (fun v g _ => hf v g) fun _ _ _ => trivial

theorem pure (v : α) : (Pure.pure v : Task τ α).Conducted ok part := fun _ => trivial

theorem throw (e : ClientError) : (MonadExcept.throw e : Task τ α).Conducted ok part :=
  fun _ => trivial

theorem ofExcept (r : Except ClientError α) : (Task.ofExcept r : Task τ α).Conducted ok part :=
  fun _ => Task.Conducts.ofExcept trivial

theorem lift {p : Program τ α} (h : p.Conducted ok part) : (Task.lift p).Conducted ok part :=
  h.bind fun _ _ => trivial

theorem inspect_bind {f : τ → Task τ β} (h : ∀ s, (f s).Conducted ok part) :
    (Task.lift .inspect >>= f).Conducted ok part :=
  fun _ => Task.Conducts.inspect_bind fun s => h (part.get s) _

theorem onPart {inner : Part τ σ} {t : Task σ α} (h : t.Conducted ok (part.comp inner)) :
    (t.onPart inner).Conducted ok part :=
  fun g => Program.Conducts.onPart (h g)

end Task.Conducted

theorem Task.Conducts.fresh_bind {Args : Type} {args : Args} {credential : Credential}
    {ok : LogicalCall κ → Prop} {part : Part (Clients κ) τ}
    {post : Except ClientError β → Progress κ → Prop} {g : Progress κ}
    {f : Request Args → Task τ β}
    (h : ∀ x, ∃ c, ok c ∧ c.request.xid = x ∧ c.Admitted g ∧
      (f ⟨x, args, credential, x.toUInt64⟩).Conducts ok part post { call := some c }) :
    (Task.lift (Request.fresh args credential) >>= f).Conducts ok part post g := h

section Dispatcher
variable {ok : LogicalCall κ → Prop}

theorem Dispatcher.conducted_setPort (l : Line κ) (port : UInt16) :
    (Dispatcher.setPort port).Conducted ok l.part :=
  fun _ _ found => ⟨.listen l port found, trivial⟩

theorem Dispatcher.conducted_setPrivileged (l : Line κ) (value : Bool) :
    (Dispatcher.setPrivileged value).Conducted ok l.part :=
  fun _ => ⟨.privilege l value, trivial⟩

end Dispatcher

namespace Portmapper
variable {ok : LogicalCall κ → Prop} {d : Directory κ} {server : String} {Args Reply : Type}
  {p : Procedure Args Reply}

def Introduced (d : Directory κ) (server : String) (g : Progress κ) : Prop :=
  (∃ s ∈ g.seen, (Line.lookup d server).Ready s) ∨
    ∃ fresh : Portmapper → Dispatcher, (d.part.modify fun m => m.store server (fresh m)) ∈ g.made

theorem conducts_connect (g : Progress κ) :
    (connect server).Conducts ok d.part (fun _ => Introduced d server) g := by
  refine .inspect_bind fun s => ?_
  cases hk : (d.part.get s).known server with
  | some e =>
    have hr : (Line.lookup d server).Ready s := fun hn => Option.some_ne_none e (hk.symm.trans hn)
    exact Or.inl ⟨s, List.mem_cons_self, hr⟩
  | none =>
    intro found
    let fresh := (d.part.get s).fresh server
    exact ⟨.store d server fun _ => fresh.listen portmapPort found,
      Or.inr ⟨fun _ => fresh.listen portmapPort found, List.mem_cons_self⟩⟩

theorem conducted_call (hp : p.Uniform)
    (hok : ∀ r : Request Args, ok ⟨.lookup d server, p, hp, r⟩) (args : Args) :
    (call server p args).Conducted ok d.part := by
  intro g
  refine Task.Conducts.lift_bind (conducts_connect g) fun _ g hg => .fresh_bind fun x => ?_
  let c : LogicalCall κ := ⟨.lookup d server, p, hp, ⟨x, args, .none, x.toUInt64⟩⟩
  have hc : c.Admitted g := by
    refine ⟨fun d' server' hl => ?_, fun k hl => by cases hl⟩
    cases hl
    exact hg
  have hcall : (Dispatcher.call p c.request Dispatcher.acceptAny).Conducts ok c.line.part
      (Dispatcher.At c) { call := some c } := Dispatcher.conducts_call rfl
  exact ⟨c, hok _, rfl, hc, Task.Conducts.forget (Program.Conducts.onPart hcall)⟩

end Portmapper

namespace Session

/-- The lines of a session, and the programs called over them. -/
inductive Calls (k : κ) : Line κ → UInt32 → Prop where
  | mount : Calls k (.mount k) mountService.program
  | nfs : Calls k (.nfs k) nfsService.program
  | lookup (server : String) : Calls k (.lookup (.ofSession k) server) portmapService.program

omit [DecidableEq κ] in
theorem Calls.mount_iff {k : κ} {l : Line κ} {program : UInt32} (h : Calls k l program) :
    l = .mount k ↔ program = mountService.program := by
  cases h with
  | mount => exact iff_of_true rfl rfl
  | nfs => exact iff_of_false nofun (by decide)
  | lookup server => exact iff_of_false nofun (by decide)

def Owns (k : κ) (c : LogicalCall κ) : Prop := Calls k c.line c.procedure.service.program

variable {k : κ} {Args Reply : Type}

theorem change_remember (f : MountState → MountState) :
    Change ((Clients.session k).modify fun s => { s with mounting := f s.mounting }) :=
  .session k fun _ => ⟨rfl, rfl, rfl⟩

theorem conducted_resolvePort (configured : Option UInt16) (service : Service) :
    (resolvePort configured service).Conducted (Owns k) (Clients.session k) := by
  cases configured with
  | some port => exact .pure port
  | none =>
    refine .inspect_bind fun s => ?_
    cases s.portSource with
    | portmapper =>
      have hp : Procedures.getPort.Uniform := .plain _ _ _ _ _
      have hr : (Portmapper.resolve s.config.server service).Conducted (Owns k)
          (Directory.ofSession k).part :=
        (Portmapper.conducted_call hp (fun _ => .lookup _) _).bind fun _ => .ofExcept _
      exact Task.Conducted.onPart hr
    | external => exact fun _ _ => trivial

section Lines
variable {p : Procedure Args Reply} (hp : p.Uniform) {r : Request Args} {g : Progress κ}

theorem conducts_callMount (hg : g.call = some ⟨.mount k, p, hp, r⟩) :
    (callMount p r).Conducts (Owns k) (Clients.session k)
      (Dispatcher.At ⟨.mount k, p, hp, r⟩) g := by
  have h : (Dispatcher.call p r Dispatcher.acceptAny).Conducts (Owns k) (Line.mount k).part
      (Dispatcher.At ⟨.mount k, p, hp, r⟩) g := Dispatcher.conducts_call hg
  exact Program.Conducts.onPart h

theorem conducts_callNfs {validate : Args → Reply → Except ClientError Unit}
    (hg : g.call = some ⟨.nfs k, p, hp, r⟩) :
    ((Dispatcher.call p r validate).onPart nfsCallsPart).Conducts (Owns k) (Clients.session k)
      (Dispatcher.At ⟨.nfs k, p, hp, r⟩) g := by
  have h : (Dispatcher.call p r validate).Conducts (Owns k) (Line.nfs k).part
      (Dispatcher.At ⟨.nfs k, p, hp, r⟩) g := Dispatcher.conducts_call hg
  exact Program.Conducts.onPart h

end Lines

theorem conducted_handshake : Session.handshake.Conducted (Owns k) (Clients.session k) := by
  intro g
  have hport (l : Line κ) (port : UInt16) : (Dispatcher.setPort port).Conducted (Owns k) l.part :=
    Dispatcher.conducted_setPort l port
  refine Task.Conducts.inspect_bind fun s => .update_bind (change_remember _) ?_
  refine .bind (conducted_resolvePort _ _ _) (fun port g _ => ?_) fun _ _ _ => trivial
  refine .lift_bind (Program.Conducts.onPart (hport (.mount k) port g)) fun _ g _ => ?_
  refine .update_bind (change_remember _) (.inspect_bind fun s' => ?_)
  let request (x : UInt32) : Request String :=
    ⟨x, ((Clients.session k).get s).config.exportPath, ((Clients.session k).get s').credential,
      x.toUInt64⟩
  have hmount : Procedures.mount.Uniform := .plain _ _ _ _ _
  have hunmount : Procedures.unmount.Uniform := .plain _ _ _ _ _
  refine .fresh_bind fun x => ⟨⟨.mount k, Procedures.mount, hmount, request x⟩, .mount, rfl,
    .of_ne nofun fun _ _ => ?_, ?_⟩
  · show MountNumber.mount.code ≠ MountNumber.unmount.code
    decide
  refine .bind (conducts_callMount hmount rfl) (fun reply g hg => ?_) fun _ _ _ => trivial
  cases reply with
  | refused status => exact trivial
  | ok mounted =>
    refine .fresh_bind fun y => ⟨⟨.mount k, Procedures.unmount, hunmount, request y⟩, .mount, rfl,
      ⟨nofun, fun _ hk _ => ⟨_, hg, hk, rfl, rfl⟩⟩, ?_⟩
    refine .lift_bind (conducts_callMount hunmount rfl) fun _ g _ => ?_
    refine .bind (conducted_resolvePort _ _ _) (fun port g _ => ?_) fun _ _ _ => trivial
    refine .lift_bind (Program.Conducts.onPart (hport (.nfs k) port g)) fun _ g _ => ?_
    exact .update_bind (change_remember _) trivial

theorem conducted_refresh (generation : UInt64) :
    (refresh generation).Conducted (Owns k) (Clients.session k) := by
  refine Program.Conducted.locked (Task.Conducted.inspect_bind fun s => ?_)
  split
  · split
    · exact .pure _
    · exact conducted_handshake
  · exact conducted_handshake

theorem conducted_mount : Session.mount.Conducted (Owns k) (Clients.session k) := by
  refine .inspect_bind fun s => ?_
  split
  · exact .pure _
  · exact conducted_refresh _

theorem conducted_rootHandle : rootHandle.Conducted (Owns k) (Clients.session k) := by
  refine .inspect_bind fun s => ?_
  split
  · exact .pure _
  · exact conducted_mount

theorem conducted_request {Args : Type} {args : Args} {f : Session → Request Args → Task Session α}
    (h : ∀ s g x, ∃ c, Owns k c ∧ c.request.xid = x ∧ c.Admitted g ∧
      (f s ⟨x, args, s.credential, x.toUInt64⟩).Conducts (Owns k) (Clients.session k)
        (fun _ _ => True) { call := some c }) :
    (do
      let _ ← Session.mount
      let s ← Task.lift .inspect
      let r ← Task.lift (Request.fresh args s.credential)
      f s r).Conducted (Owns k) (Clients.session k) := by
  refine conducted_mount.bind fun _ => .inspect_bind fun s g => ?_
  exact Task.Conducts.fresh_bind fun x => h s g x

theorem conducted_null : Session.null.Conducted (Owns k) (Clients.session k) := by
  have hp : Procedures.null.Uniform := .plain _ _ _ _ _
  refine conducted_request fun s g x => ?_
  exact ⟨⟨.nfs k, Procedures.null, hp, ⟨x, (), s.credential, x.toUInt64⟩⟩, .nfs, rfl,
    .of_ne nofun nofun, .forget (conducts_callNfs hp rfl)⟩

theorem conducted_mountNull : Session.mountNull.Conducted (Owns k) (Clients.session k) := by
  have hp : Procedures.mountNull.Uniform := .plain _ _ _ _ _
  refine conducted_request fun s g x => ?_
  refine ⟨⟨.mount k, Procedures.mountNull, hp, ⟨x, (), s.credential, x.toUInt64⟩⟩, .mount, rfl,
    .of_ne nofun fun _ _ => ?_, .forget (conducts_callMount hp rfl)⟩
  show MountNumber.null.code ≠ MountNumber.unmount.code
  decide

variable {Ok Fail : Type} {p : FileProcedure Args Ok Fail}

theorem conducted_settle (args : Args) (generation : UInt64) (reply : NfsReply Ok Fail) :
    (settle p args generation reply).Conducted (Owns k) (Clients.session k) := by
  refine .inspect_bind fun s => ?_
  split
  · split
    · exact .bind (.lift (conducted_refresh _)) fun _ => .throw _
    · exact .throw _
  · exact .ofExcept _

theorem conducted_callValidated (hp : p.toProcedure.Uniform) (hs : p.service = nfsService)
    (validate : String → Args → NfsReply Ok Fail → Except ClientError Unit) (args : Args) :
    (callValidated p validate args).Conducted (Owns k) (Clients.session k) := by
  refine conducted_request fun s g x => ?_
  let c : LogicalCall κ :=
    ⟨.nfs k, p.toProcedure, hp,
      ⟨x, args, s.credential, routingKey s.config.hashing (p.handle args)⟩⟩
  have hc : Owns k c := by
    unfold Owns
    rw [show c.procedure.service = nfsService from hs]
    exact .nfs
  refine ⟨c, hc, rfl, .of_ne nofun nofun, ?_⟩
  exact .bind (conducts_callNfs hp rfl) (fun reply g _ => conducted_settle args _ reply g)
    fun _ _ _ => trivial

/-- Calls procedures of the NFS service only, their arguments put as all of this library's are. -/
def Operation.Regular : Operation → Prop
  | .call p _ _ => p.toProcedure.Uniform ∧ p.service = nfsService
  | _ => True

/-- Every procedure on files may be called, with any arguments. -/
theorem Operation.regular_call {c : Rpc.FileCall} (hc : c ∈ Rpc.FileCall.all)
    (validate : String → c.Args → NfsReply c.Ok c.Fail → Except ClientError Unit) (args : c.Args) :
    (Operation.call c.procedure validate args).Regular :=
  ⟨Rpc.FileCall.all_uniform c hc, (Rpc.FileCall.all_regular c hc).2⟩

theorem conducted_operation {op : Operation} (h : op.Regular) :
    op.program.Conducted (Owns k) (Clients.session k) := by
  have ignore {α : Type} {t : Task Session α} (ht : t.Conducted (Owns k) (Clients.session k)) :
      (Session.ignore t).Conducted (Owns k) (Clients.session k) :=
    Program.Conducted.bind ht fun _ _ => trivial
  cases op with
  | mount => exact ignore conducted_mount
  | remount => exact ignore (.inspect_bind fun _ => conducted_refresh _)
  | rootHandle => exact ignore conducted_rootHandle
  | null => exact ignore conducted_null
  | mountNull => exact ignore conducted_mountNull
  | setCredential credential => exact fun _ => ⟨.session k fun _ => ⟨rfl, rfl, rfl⟩, trivial⟩
  | call p validate args => exact ignore (conducted_callValidated h.1 h.2 validate args)

theorem conducted_performAll {ops : List Operation} (h : ∀ op ∈ ops, op.Regular) :
    (performAll ops).Conducted (Owns k) (Clients.session k) := by
  induction ops with
  | nil => exact fun _ => trivial
  | cons op ops ih =>
    obtain ⟨hop, hops⟩ := List.forall_mem_cons.1 h
    exact (conducted_operation hop).bind fun _ => ih hops

end Session

namespace Portmapper

inductive Operation where
  | null (server : String)
  | resolve (server : String) (service : Service)

def Operation.program : Operation → Program Portmapper Unit
  | .null server => (ExceptT.run (Portmapper.null server)).bind fun _ => .done ()
  | .resolve server service =>
    (ExceptT.run (Portmapper.resolve server service)).bind fun _ => .done ()

def performAll : List Operation → Program Portmapper Unit
  | [] => .done ()
  | op :: ops => op.program.bind fun _ => performAll ops

def Owns (k : κ) (c : LogicalCall κ) : Prop :=
  ∃ server, c.line = .lookup (.own k) server ∧ c.procedure.service.program = portmapService.program

theorem conducted_operation (k : κ) (op : Operation) :
    op.program.Conducted (Owns k) (Directory.own k).part := by
  cases op with
  | null server =>
    have hp : Procedures.portmapNull.Uniform := .plain _ _ _ _ _
    have hn : (Portmapper.null server).Conducted (Owns k) (Directory.own k).part :=
      conducted_call hp (fun _ => ⟨server, rfl, rfl⟩) _
    exact Program.Conducted.bind hn fun _ _ => trivial
  | resolve server service =>
    have hp : Procedures.getPort.Uniform := .plain _ _ _ _ _
    have hr : (resolve server service).Conducted (Owns k) (Directory.own k).part :=
      (conducted_call hp (fun _ => ⟨server, rfl, rfl⟩) _).bind fun _ => .ofExcept _
    exact Program.Conducted.bind hr fun _ _ => trivial

theorem conducted_performAll (k : κ) (ops : List Operation) :
    (performAll ops).Conducted (Owns k) (Directory.own k).part := by
  induction ops with
  | nil => exact fun _ => trivial
  | cons op ops ih => exact (conducted_operation k op).bind fun _ => ih

end Portmapper

namespace Dispatcher

inductive Use : Type 1 where
  | setPort (port : UInt16)
  | setPrivileged (value : Bool)
  | call {Args Reply : Type} (p : Procedure Args Reply) (uniform : p.Uniform) (args : Args)
    (credential : Credential) (routingKey : Option UInt64)
    (validates : List (Args → Reply → Except ClientError Unit))

def callAll {Args Reply : Type} (p : Procedure Args Reply) (r : Request Args) :
    List (Args → Reply → Except ClientError Unit) → Program Dispatcher Unit
  | [] => .done ()
  | validate :: more => (ExceptT.run (call p r validate)).bind fun _ => callAll p r more

def Use.program : Use → Program Dispatcher Unit
  | .setPort port => Dispatcher.setPort port
  | .setPrivileged value => Dispatcher.setPrivileged value
  | .call p _ args credential key validates => do
    let r ← Request.fresh args credential
    callAll p { r with routingKey := key.getD r.routingKey } validates

def useAll : List Use → Program Dispatcher Unit
  | [] => .done ()
  | use :: uses => use.program.bind fun _ => useAll uses

def Owns (k : κ) (c : LogicalCall κ) : Prop := c.line = .own k

theorem conducts_callAll {ok : LogicalCall κ → Prop} {c : LogicalCall κ} {g : Progress κ}
    (hg : g.call = some c) (validates : List (c.Args → c.Reply → Except ClientError Unit)) :
    (callAll c.procedure c.request validates).Conducts ok c.line.part (At c) g := by
  induction validates generalizing g with
  | nil => exact hg
  | cons validate more ih =>
    have hc : (call c.procedure c.request validate).Conducts ok c.line.part (At c) g :=
      conducts_call hg
    exact Program.Conducts.bind hc fun _ _ hg => ih hg

theorem conducted_use (k : κ) (use : Use) :
    use.program.Conducted (Owns k) (Line.own k).part := by
  cases use with
  | setPort port => exact conducted_setPort _ port
  | setPrivileged value => exact conducted_setPrivileged _ value
  | call p hp args credential key validates =>
    intro g x
    let c : LogicalCall κ := ⟨.own k, p, hp, ⟨x, args, credential, key.getD x.toUInt64⟩⟩
    have hc : (callAll p c.request validates).Conducts (Owns k) c.line.part (At c)
        { call := some c } := conducts_callAll (c := c) rfl validates
    exact ⟨c, rfl, rfl, .of_ne nofun nofun, hc.mono fun _ _ _ => trivial⟩

theorem conducted_useAll (k : κ) (uses : List Use) :
    (useAll uses).Conducted (Owns k) (Line.own k).part := by
  induction uses with
  | nil => exact fun _ => trivial
  | cons use uses ih => exact (conducted_use k use).bind fun _ => ih

end Dispatcher

inductive Job (κ : Type) : Type 1 where
  | session (k : κ) (ops : List Session.Operation) (regular : ∀ op ∈ ops, op.Regular)
  | portmapper (k : κ) (ops : List Portmapper.Operation)
  | dispatcher (k : κ) (uses : List Dispatcher.Use)

namespace Job

def program : Job κ → Program (Clients κ) Unit
  | session k ops _ => (Session.performAll ops).onPart (Clients.session k)
  | portmapper k ops => (Portmapper.performAll ops).onPart (Clients.portmapper k)
  | dispatcher k uses => (Dispatcher.useAll uses).onPart (Clients.dispatcher k)

def Uses : Job κ → Line κ → UInt32 → Prop
  | session k .., l, program => Session.Calls k l program
  | portmapper k _, l, program =>
    ∃ server, l = .lookup (.own k) server ∧ program = portmapService.program
  | dispatcher k _, l, _ => l = .own k

def Owns (j : Job κ) (c : LogicalCall κ) : Prop := j.Uses c.line c.procedure.service.program

theorem conducted (j : Job κ) : j.program.Conducted j.Owns Part.whole := by
  intro g
  cases j with
  | session k ops h => exact Program.Conducts.onPart (Session.conducted_performAll h g)
  | portmapper k ops => exact Program.Conducts.onPart (Portmapper.conducted_performAll k ops g)
  | dispatcher k uses => exact Program.Conducts.onPart (Dispatcher.conducted_useAll k uses g)

end Job
end Nfs3.Client
