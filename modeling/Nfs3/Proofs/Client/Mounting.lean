import Nfs3.Proofs.Client.Handshake

/-!
A session over any number of operations. What it knows of its export comes from the latest handshake
that completed, and it is mounted as long as no later one was started.
-/
namespace Nfs3.Client.Session
open Wire Rpc
variable {ε α β : Type} {env : Environment ε} {w w' : World Session ε}

/-- The world a handshake starts in, what it comes to, and the world it leaves. -/
structure Handshake (ε : Type) where
  start : World Session ε
  result : Except ClientError FileHandle
  finish : World Session ε

namespace Handshake

def completed (h : Handshake ε) : Bool := h.result.isOk

def events (h : Handshake ε) : List Event := h.finish.log.drop h.start.log.length

/-- The root handle and the flavors are those of a reply to the mount call of this handshake, and
the port was configured or found in it. -/
structure Supplies (config : ClientConfig) (source : PortSource) (h : Handshake ε)
    (mounted : Mounted) (port : UInt16) : Prop where
  result : h.result = .ok ⟨mounted.handle⟩
  answered : ∃ r : Request String, r.args = config.exportPath ∧
    Answered h.events Procedures.mount r (.ok mounted)
  port : PortFound config source nfsService config.nfsPort h.events port

end Handshake

/-- A run, with the handshakes in it in order. What is not part of a handshake leaves the mounting
of the session alone, so that none can go unnoticed. -/
inductive Performs (env : Environment ε) :
    Program Session α → World Session ε → List (Handshake ε) → α → World Session ε → Prop where
  | done (v : α) (w : World Session ε) : Performs env (.done v) w [] v w
  | act {a : Action Session} {next : a.Answer → Program Session α} {w w' : World Session ε}
      {hs : List (Handshake ε)} {v : α} : Quiet a →
      Performs env (next (w.answer env a).1) (w.answer env a).2 hs v w' →
      Performs env (.act a next) w hs v w'
  | handshake {next : Except ClientError FileHandle → Program Session α}
      {w w₁ w' : World Session ε} {result : Except ClientError FileHandle}
      {hs : List (Handshake ε)} {v : α} : Task.exec env handshake w = (result, w₁) →
      Performs env (next result) w₁ hs v w' →
      Performs env ((ExceptT.run handshake).bind next) w (⟨w, result, w₁⟩ :: hs) v w'

namespace Performs

theorem run_eq {p : Program Session α} {hs : List (Handshake ε)} {v : α}
    (h : Performs env p w hs v w') : p.run env w = (v, w') := by
  induction h with
  | done v w => rfl
  | act _ _ ih => exact ih
  | handshake hx _ ih =>
    unfold Task.exec at hx
    rw [Program.run_bind, hx]
    exact ih

theorem bind {p : Program Session α} {f : α → Program Session β} {hs hs' : List (Handshake ε)}
    {v : α} {u : β} {w₁ : World Session ε} (h : Performs env p w hs v w₁)
    (h' : Performs env (f v) w₁ hs' u w') : Performs env (p.bind f) w (hs ++ hs') u w' := by
  induction h with
  | done v w => exact h'
  | act hq _ ih => exact .act hq (ih h')
  | handshake hx _ ih =>
    rw [Program.bind_assoc]
    exact .handshake hx (ih h')

theorem handshake_starts : ∃ (change : Session → Session)
    (next : Session → Unit → Program Session (Except ClientError FileHandle)),
    ExceptT.run Session.handshake =
      .act .inspect (fun s => .act (.update change) (next s)) ∧ ¬ Quiet (.update change) := by
  refine ⟨_, _, rfl, fun h => ?_⟩
  let s : Session :=
    { ofConfig (.ofExport "" "") .portmapper with mounting := { phase := .mounted } }
  have hp := congrArg MountState.phase (h s).mounting
  cases hp

theorem not_update {change : Session → Session} {next : Unit → Program Session α}
    {hs : List (Handshake ε)} {v : α} (hq : ¬ Quiet (.update change)) :
    ¬ Performs env (.act (.update change) next) w hs v w' := by
  intro h
  generalize hp : Program.act (.update change) next = p at h
  cases h with
  | done => cases hp
  | act hq' _ =>
    cases hp
    exact hq hq'
  | handshake _ _ =>
    obtain ⟨_, _, hh, -⟩ := handshake_starts
    rw [hh] at hp
    cases hp

theorem of_handshake {next : Except ClientError FileHandle → Program Session α}
    {hs : List (Handshake ε)} {v : α}
    (h : Performs env ((ExceptT.run Session.handshake).bind next) w hs v w') :
    ∃ result w₁ hs', Task.exec env Session.handshake w = (result, w₁) ∧
      hs = ⟨w, result, w₁⟩ :: hs' ∧ Performs env (next result) w₁ hs' v w' := by
  obtain ⟨change, rest, hh, hq⟩ := handshake_starts
  generalize hp : (ExceptT.run Session.handshake).bind next = p at h
  cases h with
  | done =>
    rw [hh] at hp
    cases hp
  | act _ h =>
    rw [hh] at hp
    cases hp
    exact (not_update hq h).elim
  | @handshake next' _ w₁ _ result hs _ hx h =>
    have hn := Program.eq_of_bind_eq env hp w
    unfold Task.exec at hx
    rw [hx] at hn
    rw [← hn] at h
    exact ⟨result, w₁, hs, hx, rfl, h⟩

/-- Which handshakes a run performs is a matter of fact. -/
theorem unique {p : Program Session α} {hs hs' : List (Handshake ε)} {v v' : α}
    {w'' : World Session ε} (h : Performs env p w hs v w') (h' : Performs env p w hs' v' w'') :
    hs = hs' := by
  induction h generalizing hs' v' w'' with
  | done v w =>
    generalize hp : Program.done v = p at h'
    cases h' with
    | done => rfl
    | act _ _ => cases hp
    | handshake _ _ =>
      obtain ⟨_, _, hh, -⟩ := handshake_starts
      rw [hh] at hp
      cases hp
  | @act a next w w' hs v hq h ih =>
    generalize hp : Program.act a next = p at h'
    cases h' with
    | done => cases hp
    | act _ h' =>
      cases hp
      exact ih h'
    | handshake _ _ =>
      obtain ⟨change, _, hh, hq'⟩ := handshake_starts
      rw [hh] at hp
      cases hp
      exact (not_update hq' h).elim
  | @handshake next w w₁ w' result hs v hx _ ih =>
    obtain ⟨result', w₁', hs', hx', rfl, h₁⟩ := h'.of_handshake
    rw [hx] at hx'
    cases hx'
    rw [ih h₁]

theorem quiet (env : Environment ε) {p : Program Session α} (h : p.Only Quiet)
    (w : World Session ε) :
    Performs env p w [] (p.run env w).1 (p.run env w).2 := by
  induction p generalizing w with
  | done v => exact .done v w
  | act a next ih => exact .act h.1 (ih _ (h.2 _) _)

theorem of_exec {t : Task Session α} {r : Except ClientError α} (h : Task.Only Quiet t)
    (hx : Task.exec env t w = (r, w')) : Performs env (ExceptT.run t) w [] r w' := by
  have hp := quiet env h w
  unfold Task.exec at hx
  rwa [hx] at hp

theorem task_bind {t : Task Session α} {f : α → Task Session β} {hs hs' : List (Handshake ε)}
    {a : α} {v : Except ClientError β} {w₁ : World Session ε}
    (h : Performs env (ExceptT.run t) w hs (.ok a) w₁)
    (h' : Performs env (ExceptT.run (f a)) w₁ hs' v w') :
    Performs env (ExceptT.run (t >>= f)) w (hs ++ hs') v w' :=
  h.bind h'

theorem lift {p : Program Session α} {hs : List (Handshake ε)} {v : α}
    (h : Performs env p w hs v w') :
    Performs env (ExceptT.run (Task.lift p)) w hs (.ok v) w' := by
  have hp : Performs env (ExceptT.run (Task.lift p)) w (hs ++ []) (.ok v) w' :=
    h.bind (.done _ _)
  rwa [List.append_nil] at hp

theorem self {result : Except ClientError FileHandle}
    (h : Task.exec env Session.handshake w = (result, w')) :
    Performs env (ExceptT.run Session.handshake) w [⟨w, result, w'⟩] result w' := by
  have hp : Performs env ((ExceptT.run Session.handshake).bind .done) w _ _ _ :=
    .handshake h (.done _ _)
  rwa [Program.bind_done] at hp

theorem inspect_bind {f : Session → Task Session α} {hs : List (Handshake ε)}
    {v : Except ClientError α} (h : Performs env (ExceptT.run (f w.client)) w hs v w') :
    Performs env (ExceptT.run (Task.lift .inspect >>= f)) w hs v w' :=
  .act trivial h

theorem locked {p : Program Session α} {hs : List (Handshake ε)} {v : α}
    (h : Performs env p w hs v w') : Performs env p.locked w hs v w' := by
  have hp : Performs env (p.bind fun v => (Program.ask .release).bind fun _ => .done v) w
      (hs ++ []) v w' := h.bind (.act trivial (.done _ _))
  rw [List.append_nil] at hp
  exact .act trivial hp

theorem refresh {generation : UInt64} {result : Except ClientError FileHandle}
    (hg : w.client.mounting.mountedRoot = none ∨ w.client.mounting.generation = generation)
    (h : Task.exec env Session.handshake w = (result, w')) :
    Performs env (ExceptT.run (Session.refresh generation)) w [⟨w, result, w'⟩] result w' := by
  refine locked (inspect_bind ?_)
  split
  · rename_i root hr
    rw [hr] at hg
    obtain hg | hg := hg
    · cases hg
    · rw [if_neg (not_not.2 hg)]
      exact self h
  · exact self h

end Performs

/-- Each run of the program shows which handshakes it performs. -/
def Accounted (env : Environment ε) (p : Program Session α) : Prop :=
  ∀ w, ∃ hs, Performs env p w hs (p.run env w).1 (p.run env w).2

namespace Accounted

theorem quiet {p : Program Session α} (h : p.Only Quiet) : Accounted env p :=
  fun w => ⟨[], .quiet env h w⟩

theorem bind {p : Program Session α} {f : α → Program Session β} (hp : Accounted env p)
    (hf : ∀ v, Accounted env (f v)) : Accounted env (p.bind f) := by
  intro w
  obtain ⟨hs, h⟩ := hp w
  obtain ⟨hs', h'⟩ := hf (p.run env w).1 (p.run env w).2
  rw [Program.run_bind]
  exact ⟨hs ++ hs', h.bind h'⟩

theorem handshake : Accounted env (ExceptT.run Session.handshake) :=
  fun _ => ⟨_, .self rfl⟩

theorem task_bind {t : Task Session α} {f : α → Task Session β}
    (ht : Accounted env (ExceptT.run t)) (hf : ∀ v, Accounted env (ExceptT.run (f v))) :
    Accounted env (ExceptT.run (t >>= f)) := by
  refine ht.bind fun r => ?_
  cases r with
  | ok v => exact hf v
  | error e => exact quiet (p := .done _) trivial

theorem lift {p : Program Session α} (h : Accounted env p) :
    Accounted env (ExceptT.run (Task.lift p)) :=
  h.bind fun _ => quiet (p := .done _) trivial

theorem inspect_bind {f : Session → Task Session α}
    (hf : ∀ s, Accounted env (ExceptT.run (f s))) :
    Accounted env (ExceptT.run (Task.lift .inspect >>= f)) :=
  task_bind (lift (quiet (Program.only_ask trivial))) hf

theorem locked {p : Program Session α} (h : Accounted env p) : Accounted env p.locked :=
  bind (quiet (Program.only_ask trivial)) fun _ => h.bind fun _ =>
    quiet (Program.only_bind (Program.only_ask trivial) fun _ => trivial)

theorem refresh (generation : UInt64) :
    Accounted env (ExceptT.run (Session.refresh generation)) := by
  refine locked (inspect_bind fun s => ?_)
  split
  · split
    · exact quiet trivial
    · exact handshake
  · exact handshake

theorem mount : Accounted env (ExceptT.run Session.mount) := by
  refine inspect_bind fun s => ?_
  split
  · exact quiet trivial
  · exact refresh _

theorem rootHandle : Accounted env (ExceptT.run Session.rootHandle) := by
  refine inspect_bind fun s => ?_
  split
  · exact quiet trivial
  · exact mount

theorem remount : Accounted env (ExceptT.run Session.remount) :=
  inspect_bind fun _ => refresh _

theorem request_bind {Args : Type} {args : Args} {f : Session → Request Args → Task Session α}
    (hf : ∀ s r, Accounted env (ExceptT.run (f s r))) :
    Accounted env (ExceptT.run (do
      let s ← Task.lift .inspect
      let r ← Task.lift (Request.fresh args s.credential)
      f s r)) :=
  inspect_bind fun _ => task_bind (lift (quiet (quiet_fresh _ _))) (hf _)

theorem null : Accounted env (ExceptT.run Session.null) :=
  task_bind mount fun _ => request_bind fun _ _ => quiet (quiet_nfsCalls Dispatcher.only_call)

theorem mountNull : Accounted env (ExceptT.run Session.mountNull) :=
  task_bind mount fun _ => request_bind fun _ _ => quiet (quiet_callMount _ _)

theorem settle {Args Ok Fail : Type} (p : FileProcedure Args Ok Fail) (args : Args)
    (generation : UInt64) (reply : NfsReply Ok Fail) :
    Accounted env (ExceptT.run (Session.settle p args generation reply)) := by
  refine inspect_bind fun s => ?_
  split
  · split
    · exact task_bind (lift (refresh _)) fun _ => quiet (p := .done _) trivial
    · exact quiet (p := .done _) trivial
  · exact quiet (Task.only_ofExcept _)

theorem callValidated {Args Ok Fail : Type} (p : FileProcedure Args Ok Fail)
    (validate : String → Args → NfsReply Ok Fail → Except ClientError Unit) (args : Args) :
    Accounted env (ExceptT.run (Session.callValidated p validate args)) :=
  task_bind mount fun _ => request_bind fun _ _ =>
    task_bind (quiet (quiet_nfsCalls Dispatcher.only_call)) fun _ => settle _ _ _ _

end Accounted

/-- What a user may ask of a session. A call is of any procedure on files, and has its reply looked
at by `validate`. -/
inductive Operation : Type 1 where
  | mount
  | remount
  | rootHandle
  | null
  | mountNull
  | setCredential (credential : Credential)
  | call {Args Ok Fail : Type} (p : FileProcedure Args Ok Fail)
    (validate : String → Args → NfsReply Ok Fail → Except ClientError Unit) (args : Args)

def ignore (t : Task Session α) : Program Session Unit := (ExceptT.run t).bind fun _ => .done ()

def Operation.program : Operation → Program Session Unit
  | .mount => ignore Session.mount
  | .remount => ignore Session.remount
  | .rootHandle => ignore Session.rootHandle
  | .null => ignore Session.null
  | .mountNull => ignore Session.mountNull
  | .setCredential credential => Session.setCredential credential
  | .call p validate args => ignore (callValidated p validate args)

def performAll : List Operation → Program Session Unit
  | [] => .done ()
  | op :: ops => op.program.bind fun _ => performAll ops

theorem Accounted.ignore {t : Task Session α} (h : Accounted env (ExceptT.run t)) :
    Accounted env (Session.ignore t) :=
  h.bind fun _ => quiet (p := .done ()) trivial

theorem Accounted.operation (op : Operation) : Accounted env op.program := by
  cases op with
  | mount => exact .ignore mount
  | remount => exact .ignore remount
  | rootHandle => exact .ignore rootHandle
  | null => exact .ignore null
  | mountNull => exact .ignore mountNull
  | setCredential credential => exact quiet (Program.only_ask fun _ => ⟨rfl, rfl, rfl, rfl⟩)
  | call p validate args => exact .ignore (callValidated p validate args)

theorem Accounted.performAll (env : Environment ε) (ops : List Operation) :
    Accounted env (Session.performAll ops) := by
  induction ops with
  | nil => exact quiet (p := .done ()) trivial
  | cons op ops ih => exact (operation op).bind fun _ => ih

/-- A handshake that fails leaves what was known; one that completes supplies all of it. -/
theorem handshake_cases {result : Except ClientError FileHandle}
    (h : Task.exec env handshake w = (result, w')) :
    (Handshake.completed ⟨w, result, w'⟩ = false ∧ Unfinished w.client w'.client) ∨
    (Handshake.completed ⟨w, result, w'⟩ = true ∧ ∃ mounted port,
      Finished w.client w'.client mounted port ∧
      Handshake.Supplies w.client.config w.client.portSource ⟨w, result, w'⟩ mounted port) := by
  obtain ⟨e, rfl, hu⟩ | ⟨r, credential, mounted, w₁, es₁, hr, ha, hl₁, hu, hc⟩ := handshake_exec h
  · exact .inl ⟨rfl, hu⟩
  rw [← hu.config] at hc
  obtain ⟨e, rfl, hs⟩ | ⟨port, es₂, rfl, hl₂, hp, hf⟩ := conclude_exec hc
  · exact .inl ⟨rfl, hu.same hs⟩
  have he : Handshake.events ⟨w, .ok ⟨mounted.handle⟩, w'⟩ = es₁ ++ es₂ := by
    unfold Handshake.events
    rw [hl₂, hl₁, List.append_assoc, List.drop_left]
  rw [hu.config, hu.portSource] at hp
  refine .inr ⟨rfl, mounted, port, hu.finished hf, ⟨rfl, ⟨r, hr, ?_⟩, ?_⟩⟩
  · rw [he]
    exact ha.mono fun _ hm => by simp [hm]
  · rw [he]
    exact hp.mono fun _ hm => by simp [hm]

theorem Performs.config {p : Program Session α} {hs : List (Handshake ε)} {v : α}
    {w w' : World Session ε} (h : Performs env p w hs v w') :
    w'.client.config = w.client.config := by
  induction h with
  | done v w => rfl
  | act hq _ ih => exact ih.trans (same_answer hq _).config
  | handshake hx _ ih =>
    obtain ⟨-, hu⟩ | ⟨-, _, _, hf, -⟩ := handshake_cases hx
    · exact ih.trans hu.config
    · exact ih.trans hf.config

/-- What a session knows after the handshakes `hs`. -/
structure Follows (config : ClientConfig) (source : PortSource) (hs : List (Handshake ε))
    (s : Session) : Prop where
  config_eq : s.config = config
  source_eq : s.portSource = source
  generation : s.mounting.generation = .ofNat (hs.filter Handshake.completed).length
  root : s.mounting.root = none ↔ hs.filter Handshake.completed = []
  latest : ∀ h, (hs.filter Handshake.completed).getLast? = some h → ∃ mounted : Mounted,
    s.mounting.root = some ⟨mounted.handle⟩ ∧ s.mounting.authFlavors = mounted.authFlavors ∧
    h.Supplies config source mounted s.nfsCalls.port
  phase : s.mounting.phase = .mounted ↔ ∃ h, hs.getLast? = some h ∧ h.completed = true

namespace Follows
variable {config : ClientConfig} {source : PortSource} {hs : List (Handshake ε)} {s s' : Session}

theorem ofConfig (config : ClientConfig) (source : PortSource) :
    Follows config source ([] : List (Handshake ε)) (Session.ofConfig config source) where
  config_eq := rfl
  source_eq := rfl
  generation := rfl
  root := iff_of_true rfl rfl
  latest _ h := by cases h
  phase := by simp [Session.ofConfig]

theorem same (h : Follows config source hs s) (h' : Same s s') : Follows config source hs s' := by
  obtain ⟨hc, hp, hm, hn⟩ := h'
  constructor
  · rw [hc, h.config_eq]
  · rw [hp, h.source_eq]
  · rw [hm, h.generation]
  · rw [hm, h.root]
  · rw [hm, hn]
    exact h.latest
  · rw [hm, h.phase]

theorem unfinished {last : Handshake ε} (h : Follows config source hs s) (h' : Unfinished s s')
    (hl : last.completed = false) : Follows config source (hs ++ [last]) s' := by
  obtain ⟨hc, hp, hn, phase, hne, hm⟩ := h'
  have hf : (hs ++ [last]).filter Handshake.completed = hs.filter Handshake.completed := by
    simp [hl]
  constructor
  · rw [hc, h.config_eq]
  · rw [hp, h.source_eq]
  · rw [hm, hf]
    exact h.generation
  · rw [hm, hf]
    exact h.root
  · rw [hm, hn, hf]
    exact h.latest
  · rw [hm, List.getLast?_concat]
    simp [MountState.enter, hne, hl]

theorem finished {last : Handshake ε} {mounted : Mounted} {port : UInt16}
    (h : Follows config source hs s) (h' : Finished s s' mounted port)
    (hl : last.completed = true) (hs' : last.Supplies config source mounted port) :
    Follows config source (hs ++ [last]) s' := by
  obtain ⟨hc, hp, hn, hm⟩ := h'
  have hf : (hs ++ [last]).filter Handshake.completed =
      hs.filter Handshake.completed ++ [last] := by
    simp [hl]
  constructor
  · rw [hc, h.config_eq]
  · rw [hp, h.source_eq]
  · rw [hm, hf, List.length_append, UInt64.ofNat_add, ← h.generation]
    rfl
  · rw [hm, hf]
    simp [MountState.complete]
  · rw [hm, hn, hf, List.getLast?_concat]
    intro _ he
    cases he
    exact ⟨mounted, rfl, rfl, hs'⟩
  · rw [hm, List.getLast?_concat]
    simp [MountState.complete, hl]

/-- Short of 2^64 completed handshakes, the generation is their number. -/
theorem counted (h : Follows config source hs s)
    (hl : (hs.filter Handshake.completed).length < UInt64.size) :
    s.mounting.generation.toNat = (hs.filter Handshake.completed).length ∧
      (s.mounting.root = none ↔ s.mounting.generation = 0) := by
  have hn : s.mounting.generation.toNat = (hs.filter Handshake.completed).length :=
    h.generation ▸ UInt64.toNat_ofNat_of_lt' hl
  refine ⟨hn, h.root.trans ?_⟩
  rw [← UInt64.toNat_inj, hn, UInt64.toNat_zero, List.length_eq_zero_iff]

end Follows

theorem Performs.follows {config : ClientConfig} {source : PortSource} {p : Program Session α}
    {hs₀ hs : List (Handshake ε)} {v : α} (h : Performs env p w hs v w')
    (h₀ : Follows config source hs₀ w.client) : Follows config source (hs₀ ++ hs) w'.client := by
  induction h generalizing hs₀ with
  | done v w =>
    rw [List.append_nil]
    exact h₀
  | act hq _ ih => exact ih (h₀.same (same_answer hq _))
  | handshake hx _ ih =>
    rw [List.append_cons]
    refine ih ?_
    obtain ⟨hl, hu⟩ | ⟨hl, mounted, port, hf, hs⟩ := handshake_cases hx
    · exact h₀.unfinished hu hl
    · rw [h₀.config_eq, h₀.source_eq] at hs
      exact h₀.finished hf hl hs

theorem root_of_mountedRoot {s : MountState} {root : FileHandle} (h : s.mountedRoot = some root) :
    s.root = some root := by
  unfold MountState.mountedRoot at h
  split at h
  · exact h
  · cases h

theorem mount_of_mountedRoot {root : FileHandle} (h : w.client.mounting.mountedRoot = some root) :
    Task.exec env mount w = (.ok root, w) := by
  unfold mount
  rw [Task.exec_lift_bind, Program.run_inspect, h]
  rfl

theorem rootHandle_of_mountedRoot {root : FileHandle}
    (h : w.client.mounting.mountedRoot = some root) :
    Task.exec env rootHandle w = (.ok root, w) := by
  unfold rootHandle
  rw [Task.exec_lift_bind, Program.run_inspect, h]
  rfl

theorem Follows.mountedRoot {config : ClientConfig} {source : PortSource}
    {hs : List (Handshake ε)} {s : Session} (h : Follows config source hs s)
    (hp : s.mounting.phase = .mounted) :
    ∃ root, s.mounting.root = some root ∧ s.mounting.mountedRoot = some root := by
  obtain ⟨last, hl, hc⟩ := h.phase.1 hp
  have hm : last ∈ hs.filter Handshake.completed :=
    List.mem_filter.2 ⟨List.mem_of_getLast? hl, hc⟩
  have hn : s.mounting.root ≠ none := by
    rw [Ne, h.root]
    exact List.ne_nil_of_mem hm
  obtain ⟨root, hr⟩ := Option.ne_none_iff_exists'.1 hn
  refine ⟨root, hr, ?_⟩
  unfold MountState.mountedRoot
  rw [hp, hr]

/-- Whatever the environment answers, after any operations in any order the session knows what the
latest completed handshake supplied, and is mounted if no handshake was started after it. Asked for
its root then, it gives it without a word to anyone. -/
theorem performAll_follows (env : Environment ε) (config : ClientConfig) (source : PortSource)
    (outside : ε) (clock : Nat) (xid : UInt32) (log : List Event) (ops : List Operation) :
    let start : World Session ε := ⟨ofConfig config source, outside, clock, xid, log⟩
    let w := ((performAll ops).run env start).2
    (∃! hs, Performs env (performAll ops) start hs () w) ∧
    (∀ hs, Performs env (performAll ops) start hs () w → Follows config source hs w.client ∧
      ((hs.filter Handshake.completed).length < UInt64.size →
        w.client.mounting.generation.toNat = (hs.filter Handshake.completed).length ∧
        (w.client.mounting.root = none ↔ w.client.mounting.generation = 0))) ∧
    (w.client.mounting.phase = .mounted → ∃ root, w.client.mounting.root = some root ∧
      Task.exec env mount w = (.ok root, w) ∧ Task.exec env rootHandle w = (.ok root, w)) := by
  intro start w
  have hf (hs : List (Handshake ε)) (h : Performs env (performAll ops) start hs () w) :
      Follows config source hs w.client :=
    h.follows (.ofConfig config source)
  obtain ⟨hs, h⟩ := Accounted.performAll env ops start
  refine ⟨⟨hs, h, fun _ h' => h'.unique h⟩, fun hs h => ⟨hf hs h, (hf hs h).counted⟩, fun hp => ?_⟩
  obtain ⟨root, hr, hm⟩ := (hf hs h).mountedRoot hp
  exact ⟨root, hr, mount_of_mountedRoot hm, rootHandle_of_mountedRoot hm⟩

end Nfs3.Client.Session
