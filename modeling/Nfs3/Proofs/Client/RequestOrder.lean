import Nfs3.Proofs.Client.Escalation
import Nfs3.Proofs.Client.Timeline

/-!
Everything a session sends, over any number of operations. Calls of the NFS service stand between
handshakes only, and only behind one that completed and supplied their port; everything asked of the
mount service stands in the order of a handshake.
-/
namespace Nfs3.Client
open Wire Rpc

namespace Session
variable {ε α β : Type} {env : Environment ε} {w w₁ w' : World Session ε}

theorem same_sendings {p : Program Session α} (h : p.Only Quiet) (w : World Session ε) :
    ∀ x ∈ p.sendings env w, Same w.client x.seen := by
  induction p generalizing w with
  | done v => exact List.forall_mem_nil _
  | act a next ih =>
    refine List.forall_mem_append.2 ⟨?_, fun x hx => ?_⟩
    · cases a with
      | send m => exact List.forall_mem_singleton.2 (.refl _)
      | _ => exact List.forall_mem_nil _
    · exact (same_answer h.1 w).trans (ih _ (h.2 _) _ x hx)

theorem sendings_call {part : Part Session Dispatcher} (hpart : part.Shows) {Args Reply : Type}
    {p : Procedure Args Reply} (hp : p.Regular) (r : Request Args)
    (validate : Args → Reply → Except ClientError Unit) (w : World Session ε) :
    ∀ x ∈ Task.sendings env ((Dispatcher.call p r validate).onPart part) w,
      x.message.program = p.service.program ∧ x.message.procedure = p.number ∧
        x.message.port = (part.get x.seen).port := by
  intro x hx
  have ht := Dispatcher.call_tries env hp.candid r validate (w.part part)
  rw [Task.sendings_onPart hpart] at ht
  have hs := ht.sent _ (List.mem_map_of_mem hx)
  obtain ⟨stamp, hm⟩ := hs.segments
  obtain ⟨hprogram, hprocedure⟩ := Request.names_of_segments hp (m := x.message) hm
  exact ⟨hprogram, hprocedure, hs.port⟩

theorem phase_of_mountedRoot {s : MountState} {root : FileHandle}
    (h : s.mountedRoot = some root) : s.phase = .mounted := by
  unfold MountState.mountedRoot at h
  split at h
  · assumption
  · cases h

theorem phase_of_mount {root : FileHandle} (h : Task.exec env mount w = (.ok root, w')) :
    w'.client.mounting.phase = .mounted := by
  unfold mount at h
  rw [Task.exec_lift_bind, Program.run_inspect] at h
  split at h
  · rename_i hr
    cases h
    exact phase_of_mountedRoot hr
  · obtain ⟨result, w₁, hx⟩ : ∃ result w₁, Task.exec env handshake w = (result, w₁) := ⟨_, _, rfl⟩
    have hp := (Performs.refresh (.inr rfl) hx).run_eq
    unfold Task.exec at h
    rw [hp] at h
    cases h
    obtain ⟨hc, -⟩ | ⟨-, mounted, port, hf, -⟩ := handshake_cases hx
    · cases hc
    · rw [hf.mounting]
      rfl

/-- While the session is mounted: a call to the port of the NFS service, or one that asks whether
the mount service is there. -/
structure Outside (x : Sending Session) : Prop where
  phase : x.seen.mounting.phase = .mounted
  call : (x.message.program = nfsService.program ∧ x.message.port = x.seen.nfsCalls.port) ∨
    (x.message.program = mountService.program ∧ x.message.procedure = MountNumber.null.code)

/-- From `w` the program sends nothing else outside handshakes. -/
def Orderly (env : Environment ε) (p : Program Session α) (w : World Session ε) : Prop :=
  ∃ es, Timeline env p w es (p.run env w).1 (p.run env w).2 ∧ ∀ x, .sent x ∈ es → Outside x

namespace Orderly

theorem quiet {p : Program Session α} (h : p.Only Quiet)
    (hs : ∀ x ∈ p.sendings env w, Outside x) : Orderly env p w := by
  refine ⟨_, .quiet env h w, fun x hx => ?_⟩
  obtain ⟨y, hy, he⟩ := List.mem_map.1 hx
  cases he
  exact hs _ hy

theorem bind {p : Program Session α} {f : α → Program Session β} (hp : Orderly env p w)
    (hf : Orderly env (f (p.run env w).1) (p.run env w).2) : Orderly env (p.bind f) w := by
  obtain ⟨es, ht, hs⟩ := hp
  obtain ⟨es', ht', hs'⟩ := hf
  rw [← Program.run_bind] at ht'
  refine ⟨es ++ es', ht.bind ht', fun x hx => ?_⟩
  obtain hx | hx := List.mem_append.1 hx
  · exact hs x hx
  · exact hs' x hx

theorem done (v : α) : Orderly env (.done v) w :=
  ⟨[], .done v w, fun _ hx => (List.not_mem_nil hx).elim⟩

theorem handshake : Orderly env (ExceptT.run Session.handshake) w :=
  ⟨_, .self rfl, fun _ hx => by simp at hx⟩

theorem task_bind {t : Task Session α} {f : α → Task Session β}
    (ht : Orderly env (ExceptT.run t) w)
    (hf : ∀ v w', Task.exec env t w = (.ok v, w') → Orderly env (ExceptT.run (f v)) w') :
    Orderly env (ExceptT.run (t >>= f)) w := by
  refine ht.bind ?_
  cases hx : (ExceptT.run t).run env w with
  | mk r w' =>
    cases r with
    | ok v => exact hf v w' hx
    | error e => exact done _

theorem lift {p : Program Session α} (h : Orderly env p w) :
    Orderly env (ExceptT.run (Task.lift p)) w :=
  h.bind (done _)

theorem ofExcept (r : Except ClientError α) : Orderly env (ExceptT.run (Task.ofExcept r)) w := by
  cases r <;> exact done _

theorem inspect_bind {f : Session → Task Session α}
    (h : Orderly env (ExceptT.run (f w.client)) w) :
    Orderly env (ExceptT.run (Task.lift .inspect >>= f)) w := by
  obtain ⟨es, ht, hs⟩ := h
  exact ⟨es, .act trivial ht, hs⟩

theorem locked {p : Program Session α} (h : Orderly env p w) : Orderly env p.locked w := by
  obtain ⟨es, ht, hs⟩ := h.bind (f := fun v => (Program.ask .release).bind fun _ => .done v)
    ⟨[], .act trivial (.done _ _), fun _ hx => (List.not_mem_nil hx).elim⟩
  exact ⟨es, .act trivial ht, hs⟩

theorem refresh (generation : UInt64) :
    Orderly env (ExceptT.run (Session.refresh generation)) w := by
  refine locked (inspect_bind ?_)
  split
  · split
    · exact done _
    · exact handshake
  · exact handshake

theorem mount : Orderly env (ExceptT.run Session.mount) w := by
  refine inspect_bind ?_
  split
  · exact done _
  · exact refresh _

theorem rootHandle : Orderly env (ExceptT.run Session.rootHandle) w := by
  refine inspect_bind ?_
  split
  · exact done _
  · exact mount

section Call
variable {Args Reply : Type} {p : Procedure Args Reply} (hm : w.client.mounting.phase = .mounted)
include hm

theorem nfsCall (hp : p.Regular) (hs : p.service = nfsService) (r : Request Args)
    (validate : Args → Reply → Except ClientError Unit) :
    Orderly env (ExceptT.run ((Dispatcher.call p r validate).onPart nfsCallsPart)) w := by
  have hq : Task.Only Quiet ((Dispatcher.call p r validate).onPart nfsCallsPart) :=
    quiet_nfsCalls Dispatcher.only_call
  refine quiet hq fun x hx => ⟨?_, .inl ?_⟩
  · rw [(same_sendings hq w x hx).mounting, hm]
  · obtain ⟨hprogram, -, hport⟩ := sendings_call nfsCallsPart_shows hp r validate w x hx
    exact ⟨hs ▸ hprogram, hport⟩

theorem mountNullCall (r : Request Unit) :
    Orderly env (ExceptT.run (callMount Procedures.mountNull r)) w := by
  have hq := quiet_callMount Procedures.mountNull r
  refine quiet hq fun x hx => ⟨?_, .inr ?_⟩
  · rw [(same_sendings hq w x hx).mounting, hm]
  · have hp : Procedures.mountNull.Regular := fun _ => .put _ _
    obtain ⟨hprogram, hprocedure, -⟩ :=
      sendings_call mountCallsPart_shows hp r Dispatcher.acceptAny w x hx
    exact ⟨hprogram, hprocedure⟩

end Call

theorem ignore {t : Task Session α} (h : Orderly env (ExceptT.run t) w) :
    Orderly env (Session.ignore t) w :=
  h.bind (done ())

theorem request_bind {Args : Type} {args : Args} {f : Session → Request Args → Task Session α}
    (h : ∀ r w', w'.client.mounting.phase = .mounted →
      Orderly env (ExceptT.run (f w'.client r)) w') :
    Orderly env (ExceptT.run (do
      let _ ← Session.mount
      let s ← Task.lift .inspect
      let r ← Task.lift (Request.fresh args s.credential)
      f s r)) w := by
  refine task_bind mount fun root w₁ hx => ?_
  have hm : w₁.client.mounting.phase = .mounted := phase_of_mount hx
  obtain ⟨es, ht, hs⟩ := h (nextRequest w₁ args w₁.client.credential)
    { w₁ with nextXid := w₁.nextXid + 1 } hm
  exact ⟨es, .act trivial (.act trivial ht), hs⟩

theorem null : Orderly env (ExceptT.run Session.null) w := by
  refine request_bind fun r w' hm => ?_
  have hp : Procedures.null.Regular := fun _ => .put _ _
  exact nfsCall hm hp rfl r Dispatcher.acceptAny

theorem mountNull : Orderly env (ExceptT.run Session.mountNull) w := by
  refine request_bind fun r w' hm => ?_
  exact mountNullCall hm r

variable {Args Ok Fail : Type} {p : FileProcedure Args Ok Fail}

theorem settle (args : Args) (generation : UInt64) (reply : NfsReply Ok Fail) :
    Orderly env (ExceptT.run (Session.settle p args generation reply)) w := by
  refine inspect_bind ?_
  split
  · split
    · exact task_bind (lift (refresh _)) fun _ _ _ => done _
    · exact done _
  · exact ofExcept _

theorem callValidated (hp : p.toProcedure.Regular) (hs : p.service = nfsService)
    (validate : String → Args → NfsReply Ok Fail → Except ClientError Unit) (args : Args) :
    Orderly env (ExceptT.run (Session.callValidated p validate args)) w := by
  refine request_bind fun r w' hm => ?_
  refine task_bind (nfsCall hm hp hs _ _) fun reply w'' _ => ?_
  exact settle args _ reply

end Orderly

/-- Calls procedures of the NFS service only, their arguments marshalled as all of this library's
are. -/
def Operation.OfFiles : Operation → Prop
  | .call p _ _ => p.toProcedure.Regular ∧ p.service = nfsService
  | _ => True

theorem Orderly.operation {op : Operation} (hop : op.OfFiles) : Orderly env op.program w := by
  cases op with
  | mount => exact ignore mount
  | remount => exact ignore (inspect_bind (refresh _))
  | rootHandle => exact ignore rootHandle
  | null => exact ignore null
  | mountNull => exact ignore mountNull
  | setCredential credential => exact ⟨[], .act (fun _ => ⟨rfl, rfl, rfl, rfl⟩) (.done _ _),
      fun _ hx => (List.not_mem_nil hx).elim⟩
  | call p validate args => exact ignore (callValidated hop.1 hop.2 validate args)

theorem Orderly.performAll (env : Environment ε) {ops : List Operation}
    (hops : ∀ op ∈ ops, op.OfFiles) (w : World Session ε) :
    Orderly env (Session.performAll ops) w := by
  induction ops generalizing w with
  | nil => exact done ()
  | cons op ops ih =>
    obtain ⟨hop, hops⟩ := List.forall_mem_cons.1 hops
    exact (operation hop).bind (ih hops _)

/-- Who is mounted was last mounted by a handshake that completed. -/
theorem Follows.mountedBy {config : ClientConfig} {source : PortSource} {hs : List (Handshake ε)}
    {s : Session} (h : Follows config source hs s) (hp : s.mounting.phase = .mounted) :
    ∃ last mounted, hs.getLast? = some last ∧ last.completed = true ∧
      (hs.filter Handshake.completed).getLast? = some last ∧
      last.Supplies config source mounted s.nfsCalls.port := by
  obtain ⟨last, hl, hc⟩ := h.phase.1 hp
  obtain ⟨earlier, rfl⟩ := List.getLast?_eq_some_iff.1 hl
  have hf : ((earlier ++ [last]).filter Handshake.completed).getLast? = some last := by
    simp [hc]
  obtain ⟨mounted, -, -, hs⟩ := h.latest last hf
  exact ⟨last, mounted, hl, hc, hf, hs⟩

end Session
end Nfs3.Client
