import Nfs3.Client.Playback
import Nfs3.Proofs.Client.Mounting

/-!
A handshake that fails. Each way to fail has its own error and leaves its own part of the work
behind, but never a session that looks mounted: who comes next mounts before anything else.
-/
namespace Nfs3.Client.Session
open Wire Rpc
variable {ε α β : Type} {env : Environment ε} {w w₁ w' : World Session ε} {view : Session → β}

def entering (phase : MountPhase) (w : World Session ε) : World Session ε :=
  { w with client := { w.client with mounting := w.client.mounting.enter phase } }

def askRoot (config : ClientConfig) (credential : Credential) : Task Session MountReply := do
  let request ← Task.lift (Request.fresh config.exportPath credential)
  callMount Procedures.mount request

def release (config : ClientConfig) (credential : Credential) :
    Program Session (Except ClientError Unit) := do
  let request ← Request.fresh config.exportPath credential
  (callMount Procedures.unmount request).run

def MountServiceFound (env : Environment ε) (w : World Session ε) (port : UInt16)
    (w₁ : World Session ε) : Prop :=
  ∃ w₀, Task.exec env (resolvePort w.client.config.mountPort mountService)
      (entering .unresolved w) = (.ok port, w₀) ∧
    w₁ = entering .portResolved (((Dispatcher.setPort port).onPart mountCallsPart).run env w₀).2

/-- The ways a handshake from `w` fails: with which error, in which world, and whether a port of
the mount service had been found. The release of the mount entry is in none of them. -/
inductive Fails (env : Environment ε) (w : World Session ε) :
    Option UInt16 → ClientError → World Session ε → Prop where
  | mountPort {e : ClientError} {w' : World Session ε} :
    Task.exec env (resolvePort w.client.config.mountPort mountService) (entering .unresolved w) =
      (.error e, w') →
    Fails env w none e w'
  | mountCall {port : UInt16} {e : ClientError} {w₁ w' : World Session ε} :
    MountServiceFound env w port w₁ →
    Task.exec env (askRoot w.client.config w₁.client.credential) w₁ = (.error e, w') →
    Fails env w (some port) e w'
  | refused {port : UInt16} {status : MountStatus} {r : Request String} {es : List Event}
      {w₁ w' : World Session ε} :
    MountServiceFound env w port w₁ →
    Task.exec env (askRoot w.client.config w₁.client.credential) w₁ =
      (.ok (.refused status), w') →
    w'.log = w₁.log ++ es → r.args = w.client.config.exportPath →
    Answered es Procedures.mount r (.refused status) →
    Fails env w (some port)
      (.mountFailed w.client.config.server w.client.config.exportPath status) w'
  | nfsPort {port : UInt16} {mounted : Mounted} {released : Except ClientError Unit}
      {e : ClientError} {w₁ w₂ w₃ w' : World Session ε} :
    MountServiceFound env w port w₁ →
    Task.exec env (askRoot w.client.config w₁.client.credential) w₁ = (.ok (.ok mounted), w₂) →
    (release w.client.config w₁.client.credential).run env w₂ = (released, w₃) →
    Task.exec env (resolvePort w.client.config.nfsPort nfsService) w₃ = (.error e, w') →
    Fails env w (some port) e w'

theorem exec_handshake_of_notFound {e : ClientError}
    (h : Task.exec env (resolvePort w.client.config.mountPort mountService)
      (entering .unresolved w) = (.error e, w')) :
    Task.exec env handshake w = (.error e, w') := by
  unfold entering at h
  rw [handshake_eq, Task.exec_lift_bind, Program.run_inspect, exec_remember_bind, Task.exec_bind, h]

theorem exec_handshake_of_found {port : UInt16} (h : MountServiceFound env w port w₁) :
    Task.exec env handshake w =
      Task.exec env (askRoot w.client.config w₁.client.credential >>= fun
        | .refused status =>
          throw (.mountFailed w.client.config.server w.client.config.exportPath status)
        | .ok mounted => conclude w.client.config w₁.client.credential mounted) w₁ := by
  obtain ⟨w₀, hp, rfl⟩ := h
  unfold entering at hp ⊢
  rw [handshake_eq, Task.exec_lift_bind, Program.run_inspect, exec_remember_bind, Task.exec_bind,
    hp, askRoot, Task.exec_bind _ (fun _ => _), Task.exec_lift_bind]
  simp only [Task.exec_lift_bind, exec_remember_bind, Program.run_inspect]
  exact Task.exec_bind _ _

theorem exec_conclude (config : ClientConfig) (credential : Credential) (mounted : Mounted)
    (w : World Session ε) :
    Task.exec env (conclude config credential mounted) w = Task.exec env (do
      let port ← resolvePort config.nfsPort nfsService
      Task.lift ((Dispatcher.setPort port).onPart nfsCallsPart)
      remember (.complete mounted)
      pure ⟨mounted.handle⟩) ((release config credential).run env w).2 := by
  have hr (w : World Session ε) : (release config credential).run env w =
      (callMount Procedures.unmount
        ((Request.fresh config.exportPath credential).run env w).1).run.run env
        ((Request.fresh config.exportPath credential).run env w).2 :=
    Program.run_bind ..
  rw [conclude, Task.exec_lift_bind, Task.exec_lift_bind, hr]

theorem exec_listen (env : Environment ε) (port : UInt16) (mounted : Mounted)
    (w : World Session ε) :
    (Task.exec env (do
      Task.lift ((Dispatcher.setPort port).onPart nfsCallsPart)
      remember (.complete mounted)
      pure (⟨mounted.handle⟩ : FileHandle)) w).1 = .ok ⟨mounted.handle⟩ := by
  rw [Task.exec_lift_bind, exec_remember_bind]
  rfl

/-- A handshake fails in these ways and no other. -/
theorem fails_of_exec {e : ClientError} (h : Task.exec env handshake w = (.error e, w')) :
    ∃ found, Fails env w found e w' := by
  cases hp : Task.exec env (resolvePort w.client.config.mountPort mountService)
    (entering .unresolved w) with
  | mk result w₀ =>
    cases result with
    | error e₀ =>
      rw [exec_handshake_of_notFound hp] at h
      cases h
      exact ⟨none, .mountPort hp⟩
    | ok port =>
      have hf : MountServiceFound env w port _ := ⟨w₀, hp, rfl⟩
      rw [exec_handshake_of_found hf] at h
      refine ⟨some port, ?_⟩
      obtain ⟨e, ha, he⟩ | ⟨reply, w₂, ha, h⟩ := Task.exec_bind_cases h
      · cases he
        exact .mountCall hf ha
      cases reply with
      | refused status =>
        cases h
        obtain ⟨r, w₃, es₁, hr, ht, hl, ha'⟩ := Task.exec_lift_cases ha
        obtain ⟨es₂, ht', hl'⟩ := Task.exec_trace ha'
        have hw : Answered es₂ Procedures.mount r (.refused status) :=
          Dispatcher.call_trace (Program.Trace.of_onPart ht')
        rw [hl, List.append_assoc] at hl'
        exact .refused hf ha hl' ht.of_fresh (hw.mono fun _ hm => by simp [hm])
      | ok mounted =>
        simp only [exec_conclude] at h
        obtain ⟨e, hn, he⟩ | ⟨port', w₄, -, h⟩ := Task.exec_bind_cases h
        · cases he
          exact .nfsPort hf ha rfl hn
        · have ho := exec_listen env port' mounted w₄
          rw [h] at ho
          cases ho

theorem Fails.exec {found : Option UInt16} {e : ClientError} (h : Fails env w found e w') :
    Task.exec env handshake w = (.error e, w') := by
  cases h with
  | mountPort hp => exact exec_handshake_of_notFound hp
  | mountCall hf ha => rw [exec_handshake_of_found hf, Task.exec_bind, ha]
  | refused hf ha _ _ _ =>
    rw [exec_handshake_of_found hf, Task.exec_bind, ha]
    rfl
  | nfsPort hf ha hr hp =>
    rw [exec_handshake_of_found hf, Task.exec_bind, ha]
    simp only [exec_conclude, hr]
    rw [Task.exec_bind, hp]

theorem MountServiceFound.known {port : UInt16} (h : MountServiceFound env w port w₁) :
    w₁.client.mounting = w.client.mounting.enter .portResolved ∧
      w₁.client.mountCalls.port = port ∧ w₁.client.nfsCalls = w.client.nfsCalls := by
  obtain ⟨w₀, hp, rfl⟩ := h
  have hk := Task.keeps_exec (fun s => (s.mounting, s.nfsCalls))
    (keeps_resolvePort (fun _ _ => rfl) _ _) hp
  simp only [Prod.mk.injEq] at hk
  refine ⟨?_, rfl, hk.2⟩
  change w₀.client.mounting.enter .portResolved = _
  rw [hk.1]
  rfl

def stoppedIn : Option UInt16 → MountPhase
  | none => .unresolved
  | some _ => .portResolved

structure Stopped (s s' : Session) (found : Option UInt16) : Prop where
  mounting : s'.mounting = s.mounting.enter (stoppedIn found)
  nfsCalls : s'.nfsCalls = s.nfsCalls
  mountCalls : match found with
    | none => s'.mountCalls = s.mountCalls
    | some port => s'.mountCalls.port = port

theorem Stopped.mountedRoot {s s' : Session} {found : Option UInt16} (h : Stopped s s' found) :
    s'.mounting.mountedRoot = none := by
  rw [h.mounting]
  cases found <;> rfl

theorem keeps_askRoot
    (h : ∀ procedure s, view (mountCallsPart.modify (·.escalate procedure) s) = view s)
    (config : ClientConfig) (credential : Credential) :
    Task.Only (Action.Keeps view) (askRoot config credential) :=
  Task.only_bind (Task.only_lift (keeps_fresh _ _)) fun _ => keeps_callMount h _ _

theorem keeps_release
    (h : ∀ procedure s, view (mountCallsPart.modify (·.escalate procedure) s) = view s)
    (config : ClientConfig) (credential : Credential) :
    Program.Only (Action.Keeps view) (release config credential) :=
  Program.only_bind (keeps_fresh _ _) fun _ => keeps_callMount h _ _

theorem Fails.stopped {found : Option UInt16} {e : ClientError} (h : Fails env w found e w') :
    Stopped w.client w'.client found := by
  let known (s : Session) : MountState × UInt16 × Dispatcher :=
    (s.mounting, s.mountCalls.port, s.nfsCalls)
  have later {port : UInt16} {w₁ : World Session ε} (hf : MountServiceFound env w port w₁)
      (hk : known w'.client = known w₁.client) : Stopped w.client w'.client (some port) := by
    obtain ⟨hm, hp, hn⟩ := hf.known
    simp only [known, Prod.mk.injEq] at hk
    exact ⟨hk.1.trans hm, hk.2.2.trans hn, hk.2.1.trans hp⟩
  have hr : ∀ f s, known (portmapperPart.modify f s) = known s := fun _ _ => rfl
  have hc : ∀ procedure s, known (mountCallsPart.modify (·.escalate procedure) s) = known s :=
    fun _ _ => rfl
  cases h with
  | mountPort hp =>
    have hk := Task.keeps_exec (fun s => (s.mounting, s.mountCalls, s.nfsCalls))
      (keeps_resolvePort (fun _ _ => rfl) _ _) hp
    simp only [Prod.mk.injEq] at hk
    exact ⟨hk.1, hk.2.2, hk.2.1⟩
  | mountCall hf ha => exact later hf (Task.keeps_exec known (keeps_askRoot hc _ _) ha)
  | refused hf ha _ _ _ => exact later hf (Task.keeps_exec known (keeps_askRoot hc _ _) ha)
  | nfsPort hf ha hx hp =>
    refine later hf ?_
    rw [Task.keeps_exec known (keeps_resolvePort hr _ _) hp,
      Program.keeps_run known (keeps_release hc _ _) hx,
      Task.keeps_exec known (keeps_askRoot hc _ _) ha]

/-- Whatever else the program does comes after a whole handshake. -/
def MountsFirst (env : Environment ε) (w : World Session ε) (p : Program Session α) : Prop :=
  ∃ result w₁ hs, Task.exec env handshake w = (result, w₁) ∧
    Performs env p w (⟨w, result, w₁⟩ :: hs) (p.run env w).1 (p.run env w).2

namespace MountsFirst

theorem refresh {generation : UInt64}
    (hg : w.client.mounting.mountedRoot = none ∨ w.client.mounting.generation = generation) :
    MountsFirst env w (ExceptT.run (Session.refresh generation)) := by
  obtain ⟨result, w₁, hx⟩ : ∃ result w₁, Task.exec env handshake w = (result, w₁) := ⟨_, _, rfl⟩
  have hp := Performs.refresh hg hx
  refine ⟨result, w₁, [], hx, ?_⟩
  rwa [hp.run_eq]

theorem inspect_bind {f : Session → Task Session α}
    (h : MountsFirst env w (ExceptT.run (f w.client))) :
    MountsFirst env w (ExceptT.run (Task.lift .inspect >>= f)) := by
  obtain ⟨result, w₁, hs, hx, hp⟩ := h
  exact ⟨result, w₁, hs, hx, hp.inspect_bind⟩

theorem bind {p : Program Session α} {f : α → Program Session β} (h : MountsFirst env w p)
    (hf : ∀ v, Accounted env (f v)) : MountsFirst env w (p.bind f) := by
  obtain ⟨result, w₁, hs, hx, hp⟩ := h
  obtain ⟨hs', hq⟩ := hf (p.run env w).1 (p.run env w).2
  refine ⟨result, w₁, hs ++ hs', hx, ?_⟩
  rw [Program.run_bind]
  exact hp.bind hq

theorem task_bind {t : Task Session α} {f : α → Task Session β}
    (h : MountsFirst env w (ExceptT.run t)) (hf : ∀ v, Accounted env (ExceptT.run (f v))) :
    MountsFirst env w (ExceptT.run (t >>= f)) := by
  refine h.bind fun r => ?_
  cases r with
  | ok v => exact hf v
  | error e => exact .quiet (p := .done _) trivial

theorem ignore {t : Task Session α} (h : MountsFirst env w (ExceptT.run t)) :
    MountsFirst env w (Session.ignore t) :=
  h.bind fun _ => .quiet (p := .done ()) trivial

variable (h : w.client.mounting.mountedRoot = none)
include h

theorem mount : MountsFirst env w (ExceptT.run Session.mount) := by
  refine inspect_bind ?_
  rw [h]
  exact refresh (.inl h)

theorem rootHandle : MountsFirst env w (ExceptT.run Session.rootHandle) := by
  refine inspect_bind ?_
  rw [h]
  exact mount h

theorem operation {op : Operation} (hop : ∀ credential, op ≠ .setCredential credential) :
    MountsFirst env w op.program := by
  cases op with
  | mount => exact ignore (mount h)
  | remount => exact ignore (inspect_bind (refresh (.inl h)))
  | rootHandle => exact ignore (rootHandle h)
  | null =>
    exact ignore <| (mount h).task_bind fun _ => .request_bind fun _ _ =>
      .quiet (quiet_nfsCalls Dispatcher.only_call)
  | mountNull =>
    exact ignore <| (mount h).task_bind fun _ => .request_bind fun _ _ =>
      .quiet (quiet_callMount _ _)
  | setCredential credential => exact (hop credential rfl).elim
  | call p validate args =>
    exact ignore <| (mount h).task_bind fun _ => .request_bind fun _ _ =>
      .task_bind (.quiet (quiet_nfsCalls Dispatcher.only_call)) fun _ => .settle _ _ _ _

end MountsFirst

/-- A handshake fails when one of its steps does, the release excepted, with the error of that step.
The session keeps its root, flavors, generation and NFS service, but is not mounted: asked for
anything then, it mounts first. -/
theorem handshake_fails (env : Environment ε) (w w' : World Session ε) (e : ClientError) :
    (Task.exec env handshake w = (.error e, w') ↔ ∃ found, Fails env w found e w') ∧
    ∀ found, Fails env w found e w' → Stopped w.client w'.client found ∧
      ∀ next : World Session ε, next.client.mounting = w'.client.mounting → ∀ op : Operation,
        (∀ credential, op ≠ .setCredential credential) → MountsFirst env next op.program := by
  refine ⟨⟨fails_of_exec, fun ⟨_, h⟩ => h.exec⟩, fun found h => ⟨h.stopped, ?_⟩⟩
  intro next hn op hop
  have hr := h.stopped.mountedRoot
  rw [← hn] at hr
  exact .operation hr hop

/-- Mounted three times already; the server now refuses the export. -/
def refusing : World Session Playback where
  client :=
    { ofConfig (.ofExport "server" "/export") .external with
      mounting := ⟨.mounted, some ⟨[1]⟩, [1], 3⟩ }
  outside :=
    { rules := [((mountService.program, MountNumber.mount.code),
        .reply 0 [0, 0, 0, 1, 0, 0, 0, 0, 0, 0, 0, 0, 0, 0, 0, 0, 0, 0, 0, 0, 0, 0, 0, 13])]
      script := [], names := .literal, ports := [(mountService, 635)] }

theorem handshake_fails_refusing :
    let run := Task.exec Playback.environment handshake refusing
    (∃ e found, run.1 = .error e ∧ e.message = "mount of server:/export failed: MNT3ERR_ACCES" ∧
      Fails Playback.environment refusing found e run.2 ∧
      Stopped refusing.client run.2.client found) ∧
    run.2.client.mounting = ⟨.portResolved, some ⟨[1]⟩, [1], 3⟩ ∧
    MountsFirst Playback.environment run.2 Operation.rootHandle.program := by
  intro run
  have hk : run.1.toOption = none := by decide +kernel
  have ht : (match run.1 with | .error e => e.message | .ok _ => "") =
      "mount of server:/export failed: MNT3ERR_ACCES" := by decide +kernel
  obtain ⟨e, he⟩ : ∃ e, run.1 = .error e := by
    cases hr : run.1 with
    | error e => exact ⟨e, rfl⟩
    | ok root =>
      rw [hr] at hk
      cases hk
  rw [he] at ht
  have h := handshake_fails Playback.environment refusing run.2 e
  obtain ⟨found, hf⟩ := h.1.1 (by rw [← he])
  obtain ⟨hs, hm⟩ := h.2 found hf
  exact ⟨⟨e, found, he, ht, hf, hs⟩, by decide +kernel, hm run.2 rfl .rootHandle nofun⟩

end Nfs3.Client.Session
