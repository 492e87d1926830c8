import Nfs3.Client.Session
import Nfs3.Proofs.Client.Calls

/-!
One handshake of a session. If it fails, the session is not mounted but keeps what it knew; if it
completes, all it knows comes from this handshake.
-/
namespace Nfs3.Client.Session
open Wire Rpc
variable {ε α β : Type} {env : Environment ε} {w w' : World Session ε} {view : Session → β}

/-- What only handshakes change. -/
structure Same (s s' : Session) : Prop where
  config : s'.config = s.config
  portSource : s'.portSource = s.portSource
  mounting : s'.mounting = s.mounting
  nfsPort : s'.nfsCalls.port = s.nfsCalls.port

theorem Same.refl (s : Session) : Same s s := ⟨rfl, rfl, rfl, rfl⟩

theorem Same.trans {s₁ s₂ s₃ : Session} (h : Same s₁ s₂) (h' : Same s₂ s₃) : Same s₁ s₃ where
  config := h'.config.trans h.config
  portSource := h'.portSource.trans h.portSource
  mounting := h'.mounting.trans h.mounting
  nfsPort := h'.nfsPort.trans h.nfsPort

def Quiet : Action Session → Prop
  | .update f => ∀ s, Same s (f s)
  | _ => True

theorem quiet_of_ne_update {a : Action Session} (h : ∀ f, a ≠ .update f) : Quiet a := by
  cases a with
  | update f => exact (h f rfl).elim
  | _ => trivial

theorem same_answer {a : Action Session} (h : Quiet a) (w : World Session ε) :
    Same w.client (w.answer env a).2.client := by
  cases a with
  | update f => exact h w.client
  | _ => exact .refl _

theorem same_run (env : Environment ε) {p : Program Session α} (h : p.Only Quiet)
    (w : World Session ε) :
    Same w.client (p.run env w).2.client := by
  induction p generalizing w with
  | done v => exact .refl _
  | act a next ih => exact (same_answer h.1 w).trans (ih _ (h.2 _) _)

theorem same_of_run {p : Program Session α} {v : α} (h : p.Only Quiet)
    (hx : p.run env w = (v, w')) : Same w.client w'.client := by
  have hs := same_run env h w
  rwa [hx] at hs

theorem same_exec {t : Task Session α} {r : Except ClientError α} (h : Task.Only Quiet t)
    (hx : Task.exec env t w = (r, w')) : Same w.client w'.client := by
  have hs := same_run env h w
  unfold Task.exec at hx
  rwa [hx] at hs

theorem quiet_mountCalls (p : Program Dispatcher α) : (p.onPart mountCallsPart).Only Quiet :=
  Program.only_onPart p.only_true (fun _ _ _ => ⟨rfl, rfl, rfl, rfl⟩) fun _ => quiet_of_ne_update

theorem quiet_portmapper (p : Program Portmapper α) : (p.onPart portmapperPart).Only Quiet :=
  Program.only_onPart p.only_true (fun _ _ _ => ⟨rfl, rfl, rfl, rfl⟩) fun _ => quiet_of_ne_update

theorem quiet_nfsCalls {p : Program Dispatcher α} (h : p.Only Dispatcher.EscalatesOnly) :
    (p.onPart nfsCallsPart).Only Quiet := by
  refine Program.only_onPart h ?_ fun _ => quiet_of_ne_update
  intro f hf s
  obtain ⟨procedure, rfl⟩ := hf
  exact ⟨rfl, rfl, rfl, rfl⟩

theorem quiet_fresh {Args : Type} (args : Args) (credential : Credential) :
    (Request.fresh args credential : Program Session _).Only Quiet :=
  Program.only_bind (Program.only_ask trivial) fun _ => trivial

theorem quiet_callMount {Args Reply : Type} (p : Procedure Args Reply) (r : Request Args) :
    Task.Only Quiet (callMount p r) :=
  quiet_mountCalls _

theorem quiet_resolvePort (configured : Option UInt16) (service : Service) :
    Task.Only Quiet (resolvePort configured service) := by
  cases configured with
  | some port => trivial
  | none =>
    refine Task.only_bind (Task.only_lift (Program.only_ask trivial)) fun s => ?_
    split
    · exact quiet_portmapper _
    · exact Program.only_ask trivial

theorem keeps_resolvePort (h : ∀ f s, view (portmapperPart.modify f s) = view s)
    (configured : Option UInt16) (service : Service) :
    Task.Only (Action.Keeps view) (resolvePort configured service) := by
  cases configured with
  | some port => trivial
  | none =>
    refine Task.only_bind (Task.only_lift (Program.only_ask trivial)) fun s => ?_
    split
    · exact Program.keeps_onPart (Program.only_true _) fun f s _ => h f s
    · exact Program.only_ask trivial

theorem keeps_callMount {Args Reply : Type}
    (h : ∀ procedure s, view (mountCallsPart.modify (·.escalate procedure) s) = view s)
    (p : Procedure Args Reply) (r : Request Args) :
    Task.Only (Action.Keeps view) (callMount p r) := by
  refine Program.keeps_onPart Dispatcher.only_call fun f s hf => ?_
  obtain ⟨procedure, rfl⟩ := hf
  exact h procedure s

theorem keeps_fresh {Args : Type} (args : Args) (credential : Credential) :
    (Request.fresh args credential : Program Session _).Only (Action.Keeps view) :=
  Program.only_bind (Program.only_ask trivial) fun _ => trivial

def PortFound (config : ClientConfig) (source : PortSource) (service : Service)
    (configured : Option UInt16) (es : List Event) (port : UInt16) : Prop :=
  match configured, source with
  | some p, _ => port = p
  | none, .external => .lookedUp config.server service (.ok port) ∈ es
  | none, .portmapper => ∃ (r : Request PortMapping) (number : UInt32),
    r.args = ⟨service.program, service.version, tcp, 0⟩ ∧
    Answered es Procedures.getPort r number ∧
    Portmapper.readPort config.server service number = .ok port

theorem PortFound.mono {config : ClientConfig} {source : PortSource} {service : Service}
    {configured : Option UInt16} {es es' : List Event} {port : UInt16}
    (h : PortFound config source service configured es port) (hs : ∀ e ∈ es, e ∈ es') :
    PortFound config source service configured es' port := by
  cases configured with
  | some p => exact h
  | none =>
    cases source with
    | external => exact hs _ h
    | portmapper =>
      obtain ⟨r, number, hr, ha, hp⟩ := h
      exact ⟨r, number, hr, ha.mono hs, hp⟩

theorem portFound_of_exec {configured : Option UInt16} {service : Service} {port : UInt16}
    (h : Task.exec env (resolvePort configured service) w = (.ok port, w')) :
    ∃ es, w'.log = w.log ++ es ∧
      PortFound w.client.config w.client.portSource service configured es port := by
  cases configured with
  | some p =>
    cases h
    exact ⟨[], (List.append_nil _).symm, rfl⟩
  | none =>
    unfold resolvePort at h
    rw [Task.exec_lift_bind, Program.run_inspect] at h
    cases hs : w.client.portSource with
    | portmapper =>
      rw [hs] at h
      obtain ⟨es, ht, hl⟩ := Task.exec_trace h
      exact ⟨es, hl, Portmapper.resolve_trace (Program.Trace.of_onPart ht)⟩
    | external =>
      rw [hs] at h
      obtain ⟨es, ht, hl⟩ := Task.exec_trace h
      cases ht with
      | act ht =>
        cases ht
        exact ⟨_, hl, List.mem_singleton.2 rfl⟩

/-- What only a complete handshake changes, and the session not mounted. -/
structure Unfinished (s s' : Session) : Prop where
  config : s'.config = s.config
  portSource : s'.portSource = s.portSource
  nfsPort : s'.nfsCalls.port = s.nfsCalls.port
  mounting : ∃ phase, phase ≠ .mounted ∧ s'.mounting = s.mounting.enter phase

theorem Unfinished.same {s₁ s₂ s₃ : Session} (h : Unfinished s₁ s₂) (h' : Same s₂ s₃) :
    Unfinished s₁ s₃ where
  config := h'.config.trans h.config
  portSource := h'.portSource.trans h.portSource
  nfsPort := h'.nfsPort.trans h.nfsPort
  mounting := by
    obtain ⟨phase, hp, hm⟩ := h.mounting
    exact ⟨phase, hp, h'.mounting.trans hm⟩

theorem Unfinished.enter {s s' : Session} (h : Unfinished s s') (phase : MountPhase)
    (hp : phase ≠ .mounted) :
    Unfinished s { s' with mounting := s'.mounting.enter phase } where
  config := h.config
  portSource := h.portSource
  nfsPort := h.nfsPort
  mounting := by
    obtain ⟨_, -, hm⟩ := h.mounting
    refine ⟨phase, hp, ?_⟩
    rw [hm]
    rfl

def conclude (config : ClientConfig) (credential : Credential) (mounted : Mounted) :
    Task Session FileHandle := do
  let release ← Task.lift (Request.fresh config.exportPath credential)
  let _ ← Task.lift (callMount Procedures.unmount release).run
  let port ← resolvePort config.nfsPort nfsService
  Task.lift ((Dispatcher.setPort port).onPart nfsCallsPart)
  remember (.complete mounted)
  pure ⟨mounted.handle⟩

theorem handshake_eq : handshake = (do
    let s ← Task.lift .inspect
    remember (.enter .unresolved)
    let port ← resolvePort s.config.mountPort mountService
    Task.lift ((Dispatcher.setPort port).onPart mountCallsPart)
    remember (.enter .portResolved)
    let s' ← Task.lift .inspect
    let request ← Task.lift (Request.fresh s.config.exportPath s'.credential)
    match ← callMount Procedures.mount request with
    | .refused status => throw (.mountFailed s.config.server s.config.exportPath status)
    | .ok mounted => conclude s.config s'.credential mounted) := rfl

theorem exec_remember_bind {change : MountState → MountState} {f : Unit → Task Session α} :
    Task.exec env (remember change >>= f) w = Task.exec env (f ())
      { w with client := { w.client with mounting := change w.client.mounting } } := by
  rw [remember, Task.exec_lift_bind, Program.run_update]

/-- Up to the answer of the mount service. -/
theorem handshake_exec {result : Except ClientError FileHandle}
    (h : Task.exec env handshake w = (result, w')) :
    (∃ e, result = .error e ∧ Unfinished w.client w'.client) ∨
    ∃ (r : Request String) (credential : Credential) (mounted : Mounted)
      (w₁ : World Session ε) (es : List Event),
      r.args = w.client.config.exportPath ∧ Answered es Procedures.mount r (.ok mounted) ∧
      w₁.log = w.log ++ es ∧ Unfinished w.client w₁.client ∧
      Task.exec env (conclude w.client.config credential mounted) w₁ = (result, w') := by
  have h0 : Unfinished w.client
      { w.client with mounting := w.client.mounting.enter .unresolved } :=
    ⟨rfl, rfl, rfl, .unresolved, nofun, rfl⟩
  rw [handshake_eq, Task.exec_lift_bind, Program.run_inspect, exec_remember_bind] at h
  obtain ⟨e, hp, rfl⟩ | ⟨port, w₁, hp, h⟩ := Task.exec_bind_cases h
  · exact .inl ⟨e, rfl, h0.same (same_exec (quiet_resolvePort _ _) hp)⟩
  have h1 := h0.same (same_exec (quiet_resolvePort _ _) hp)
  obtain ⟨es₁, -, hl₁⟩ := Task.exec_trace hp
  obtain ⟨_, w₂, es₂, hd, -, hl₂, h⟩ := Task.exec_lift_cases h
  have h2 := (h1.same (same_of_run (quiet_mountCalls _) hd)).enter .portResolved nofun
  rw [exec_remember_bind, Task.exec_lift_bind, Program.run_inspect] at h
  obtain ⟨r, w₃, es₃, hf, hr, hl₃, h⟩ := Task.exec_lift_cases h
  have h3 := h2.same (same_of_run (quiet_fresh _ _) hf)
  obtain ⟨e, hc, rfl⟩ | ⟨reply, w₄, hc, h⟩ := Task.exec_bind_cases h
  · exact .inl ⟨e, rfl, h3.same (same_exec (quiet_callMount _ _) hc)⟩
  have h4 := h3.same (same_exec (quiet_callMount _ _) hc)
  obtain ⟨es₄, ht, hl₄⟩ := Task.exec_trace hc
  cases reply with
  | refused status =>
    cases h
    exact .inl ⟨_, rfl, h4⟩
  | ok mounted =>
    have ha : Answered es₄ Procedures.mount r (.ok mounted) :=
      Dispatcher.call_trace (Program.Trace.of_onPart ht)
    refine .inr ⟨r, w₂.client.credential, mounted, w₄, es₁ ++ es₂ ++ es₃ ++ es₄, hr.of_fresh,
      ha.mono fun _ he => by simp [he], ?_, h4, h⟩
    rw [hl₄, hl₃, hl₂, hl₁]
    simp

theorem setPort_nfsCalls {port : UInt16} {w₁ : World Session ε}
    (h : ((Dispatcher.setPort port).onPart nfsCallsPart).run env w = ((), w₁)) :
    ∃ found, w₁.client = { w.client with nfsCalls := w.client.nfsCalls.listen port found } := by
  obtain rfl : _ = w₁ := congrArg Prod.snd h
  exact ⟨_, rfl⟩

/-- A handshake from `s` completed with `mounted` and left the session as `s'`. -/
structure Finished (s s' : Session) (mounted : Mounted) (port : UInt16) : Prop where
  config : s'.config = s.config
  portSource : s'.portSource = s.portSource
  nfsPort : s'.nfsCalls.port = port
  mounting : s'.mounting = s.mounting.complete mounted

theorem Unfinished.finished {s₁ s₂ s₃ : Session} {mounted : Mounted} {port : UInt16}
    (h : Unfinished s₁ s₂) (h' : Finished s₂ s₃ mounted port) : Finished s₁ s₃ mounted port where
  config := h'.config.trans h.config
  portSource := h'.portSource.trans h.portSource
  nfsPort := h'.nfsPort
  mounting := by
    obtain ⟨_, -, hm⟩ := h.mounting
    rw [h'.mounting, hm]
    rfl

theorem conclude_exec {credential : Credential} {mounted : Mounted}
    {result : Except ClientError FileHandle}
    (h : Task.exec env (conclude w.client.config credential mounted) w = (result, w')) :
    (∃ e, result = .error e ∧ Same w.client w'.client) ∨
    ∃ port es, result = .ok ⟨mounted.handle⟩ ∧ w'.log = w.log ++ es ∧
      PortFound w.client.config w.client.portSource nfsService w.client.config.nfsPort es port ∧
      Finished w.client w'.client mounted port := by
  obtain ⟨release, w₁, es₁, hf, -, hl₁, h⟩ := Task.exec_lift_cases h
  obtain ⟨_, w₂, es₂, hu, -, hl₂, h⟩ := Task.exec_lift_cases h
  have h2 := (same_of_run (quiet_fresh _ _) hf).trans (same_of_run (quiet_callMount _ _) hu)
  obtain ⟨e, hp, rfl⟩ | ⟨port, w₃, hp, h⟩ := Task.exec_bind_cases h
  · exact .inl ⟨e, rfl, h2.trans (same_exec (quiet_resolvePort _ _) hp)⟩
  have h3 := h2.trans (same_exec (quiet_resolvePort _ _) hp)
  obtain ⟨es₃, hl₃, hfound⟩ := portFound_of_exec hp
  obtain ⟨_, w₄, es₄, hd, -, hl₄, h⟩ := Task.exec_lift_cases h
  obtain ⟨found, hc⟩ := setPort_nfsCalls hd
  rw [exec_remember_bind, Task.exec_pure] at h
  cases h
  refine .inr ⟨port, es₁ ++ es₂ ++ es₃ ++ es₄, rfl, ?_, ?_, ?_⟩
  · simp only [hl₄, hl₃, hl₂, hl₁, List.append_assoc]
  · rw [h2.config, h2.portSource] at hfound
    exact hfound.mono fun _ he => by simp [he]
  · constructor
    · simp only [hc]
      exact h3.config
    · simp only [hc]
      exact h3.portSource
    · simp only [hc]
      rfl
    · simp only [hc, h3.mounting]

end Nfs3.Client.Session
