import Nfs3.Proofs.Client.RequestOrder
import Nfs3.Proofs.Client.Stages

/-!
All calls on one handle go to one host until the session is mounted anew. What decides is the handle
and the addresses that the latest handshake found for the NFS service.
-/
namespace Nfs3.Client
open Wire Rpc Net

namespace Session
variable {ε : Type} {env : Environment ε} {w w₁ w' : World Session ε} {config : ClientConfig}
  {source : PortSource}

def Handshake.Finds (server : String) (h : Handshake ε) (found : Option (List IpAddress)) : Prop :=
  ∃ port, h.events.getLast? = some (.discovered server port found)

theorem Handshake.Finds.unique {server : String} {h : Handshake ε}
    {found found' : Option (List IpAddress)} (hf : h.Finds server found)
    (hf' : h.Finds server found') : found = found' := by
  obtain ⟨port, he⟩ := hf
  obtain ⟨port', he'⟩ := hf'
  rw [he] at he'
  cases he'
  rfl

theorem MountServiceFound.log_prefix {port : UInt16} (h : MountServiceFound env w port w₁) :
    w.log <+: w₁.log := by
  obtain ⟨w₀, hp, rfl⟩ := h
  obtain ⟨es, -, hl⟩ := Task.exec_trace hp
  obtain ⟨ds, -, hd⟩ := Program.run_trace env
    ((Dispatcher.setPort port).onPart mountCallsPart) w₀
  refine ⟨es ++ ds, ?_⟩
  rw [← List.append_assoc]
  exact (hd.trans (congrArg (· ++ ds) hl)).symm

theorem listen_finds {port : UInt16} {mounted : Mounted} {result : Except ClientError FileHandle}
    (h : Task.exec env (do
      Task.lift ((Dispatcher.setPort port).onPart nfsCallsPart)
      remember (.complete mounted)
      pure (⟨mounted.handle⟩ : FileHandle)) w = (result, w')) :
    ∃ found, w'.log = w.log ++ [.discovered w.client.nfsCalls.server port found] ∧
      w'.client.nfsCalls = w.client.nfsCalls.listen port found := by
  rw [Task.exec_lift_bind, exec_remember_bind, Task.exec_pure] at h
  cases h
  exact ⟨_, rfl, rfl⟩

theorem listens_of_handshake {root : FileHandle}
    (h : Task.exec env handshake w = (.ok root, w')) :
    ∃ port mounted w₁, w.log <+: w₁.log ∧ w₁.client.nfsCalls = w.client.nfsCalls ∧
      Task.exec env (do
        Task.lift ((Dispatcher.setPort port).onPart nfsCallsPart)
        remember (.complete mounted)
        pure (⟨mounted.handle⟩ : FileHandle)) w₁ = (.ok root, w') := by
  cases hp : Task.exec env (resolvePort w.client.config.mountPort mountService)
    (entering .unresolved w) with
  | mk result w₀ =>
    cases result with
    | error e =>
      rw [exec_handshake_of_notFound hp] at h
      cases h
    | ok port =>
      obtain ⟨w₁, hf⟩ : ∃ w₁, MountServiceFound env w port w₁ := ⟨_, w₀, hp, rfl⟩
      rw [exec_handshake_of_found hf] at h
      obtain ⟨_, -, he⟩ | ⟨reply, w₂, ha, h⟩ := Task.exec_bind_cases h
      · cases he
      cases reply with
      | refused status => cases h
      | ok mounted =>
        simp only [exec_conclude] at h
        cases hx : (release w.client.config w₁.client.credential).run env w₂ with
        | mk released w₃ =>
          rw [hx] at h
          obtain ⟨_, -, he⟩ | ⟨port', w₄, hn, h⟩ := Task.exec_bind_cases h
          · cases he
          refine ⟨port', mounted, w₄, ?_, ?_, h⟩
          · obtain ⟨a, -, hla⟩ := Task.exec_trace ha
            obtain ⟨b, -, hlb⟩ := Program.run_trace env
              (release w.client.config w₁.client.credential) w₂
            obtain ⟨c, -, hlc⟩ := Task.exec_trace hn
            rw [hx] at hlb
            refine hf.log_prefix.trans ⟨a ++ b ++ c, ?_⟩
            rw [hlc, hlb, hla]
            simp only [List.append_assoc]
          · rw [Task.keeps_exec (·.nfsCalls) (keeps_resolvePort (fun _ _ => rfl) _ _) hn,
              Program.keeps_run (·.nfsCalls) (keeps_release (fun _ _ => rfl) _ _) hx,
              Task.keeps_exec (·.nfsCalls) (keeps_askRoot (fun _ _ => rfl) _ _) ha,
              hf.known.2.2]

theorem Handshake.Ran.finds {h : Handshake ε} (hh : h.Ran env) {root : FileHandle}
    (hr : h.result = .ok root) : ∃ found, h.Finds h.start.client.nfsCalls.server found ∧
      h.finish.client.nfsCalls.server = h.start.client.nfsCalls.server ∧
      h.finish.client.nfsCalls.hashing = h.start.client.nfsCalls.hashing ∧
      h.finish.client.nfsCalls.pool = found.elim .empty .ofList := by
  unfold Handshake.Ran at hh
  rw [hr] at hh
  obtain ⟨port, mounted, w₁, ⟨es, hes⟩, hn, hx⟩ := listens_of_handshake hh
  obtain ⟨found, hl, hc⟩ := listen_finds hx
  rw [← hn]
  rw [hc]
  refine ⟨found, ⟨port, ?_⟩, rfl, rfl, rfl⟩
  rw [← hes, List.append_assoc] at hl
  rw [Handshake.events_of_log hl, List.getLast?_concat]

def lasting (s : Session) : Session :=
  { s with
    mountCalls := { s.mountCalls with escalated := [] }
    nfsCalls := { s.nfsCalls with escalated := [] }
    credential := .none }

theorem keeps_call {part : Part Session Dispatcher} (hp : part = mountCallsPart ∨
    part = nfsCallsPart) {Args Reply : Type} (p : Procedure Args Reply) (r : Request Args)
    (validate : Args → Reply → Except ClientError Unit) :
    Task.Only (Action.Keeps lasting) ((Dispatcher.call p r validate).onPart part) := by
  refine Program.keeps_onPart Dispatcher.only_call fun f s hf => ?_
  obtain ⟨procedure, rfl⟩ := hf
  obtain rfl | rfl := hp <;> rfl

theorem keeps_asking (op : Operation) : op.asking.Only (Action.Keeps lasting) := by
  have request {α Args : Type} {args : Args} {f : Session → Request Args → Task Session α}
      (hf : ∀ s r, Task.Only (Action.Keeps lasting) (f s r)) :
      (ignore (do
        let s ← Task.lift .inspect
        let r ← Task.lift (Request.fresh args s.credential)
        f s r)).Only (Action.Keeps lasting) :=
    Program.only_bind (Task.only_bind (Task.only_lift (Program.only_ask trivial)) fun s =>
      Task.only_bind (Task.only_lift (keeps_fresh _ _)) fun r => hf s r) fun _ => trivial
  cases op with
  | null => exact request fun _ _ => keeps_call (.inr rfl) _ _ _
  | mountNull => exact request fun _ _ => keeps_call (.inl rfl) _ _ _
  | call p validate args => exact request fun _ _ => keeps_call (.inr rfl) _ _ _
  | setCredential credential => exact Program.only_ask fun _ => rfl
  | _ => trivial

/-- What a session knows of the NFS service after the handshakes `hs`, its addresses included. -/
structure Routed (config : ClientConfig) (source : PortSource) (hs : List (Handshake ε))
    (s : Session) : Prop where
  follows : Follows config source hs s
  server : s.nfsCalls.server = config.server
  hashing : s.nfsCalls.hashing = config.hashing
  pool : ∀ last, (hs.filter Handshake.completed).getLast? = some last → ∃ found,
    last.Finds config.server found ∧ s.nfsCalls.pool = found.elim .empty .ofList

namespace Routed
variable {hs : List (Handshake ε)} {s s' : Session}

theorem ofConfig (config : ClientConfig) (source : PortSource) :
    Routed config source ([] : List (Handshake ε)) (Session.ofConfig config source) :=
  ⟨.ofConfig config source, rfl, rfl, fun _ h => by cases h⟩

theorem of_lasting (h : Routed config source hs s) (hk : s'.lasting = s.lasting) :
    Routed config source hs s' := by
  have hserver : s'.nfsCalls.server = s.nfsCalls.server := congrArg (·.nfsCalls.server) hk
  have hhashing : s'.nfsCalls.hashing = s.nfsCalls.hashing := congrArg (·.nfsCalls.hashing) hk
  have hpool : s'.nfsCalls.pool = s.nfsCalls.pool := congrArg (·.nfsCalls.pool) hk
  have hsame : Same s s' := ⟨congrArg (·.config) hk, congrArg (·.portSource) hk,
    congrArg (·.mounting) hk, congrArg (·.nfsCalls.port) hk⟩
  refine ⟨h.follows.same hsame, hserver.trans h.server, hhashing.trans h.hashing, ?_⟩
  rw [hpool]
  exact h.pool

theorem handshake {h : Handshake ε} (hr : Routed config source hs h.start.client)
    (hh : h.Ran env) : Routed config source (hs ++ [h]) h.finish.client := by
  have hf : Follows config source (hs ++ [h]) h.finish.client :=
    (Performs.self hh).follows hr.follows
  cases hres : h.result with
  | error e =>
    have hc : h.completed = false := by rw [Handshake.completed, hres]; rfl
    unfold Handshake.Ran at hh
    rw [hres] at hh
    obtain ⟨_, hfails⟩ := fails_of_exec hh
    refine ⟨hf, ?_, ?_, ?_⟩
    · rw [hfails.stopped.nfsCalls, hr.server]
    · rw [hfails.stopped.nfsCalls, hr.hashing]
    · rw [hfails.stopped.nfsCalls, List.filter_append, List.filter_singleton, hc,
        cond_false, List.append_nil]
      exact hr.pool
  | ok root =>
    have hc : h.completed = true := by rw [Handshake.completed, hres]; rfl
    obtain ⟨found, hfinds, hserver, hhashing, hpool⟩ := hh.finds hres
    rw [hr.server] at hfinds hserver
    refine ⟨hf, hserver, hhashing.trans hr.hashing, fun last hl => ?_⟩
    rw [List.filter_append, List.filter_singleton, hc, cond_true, List.getLast?_concat] at hl
    cases hl
    exact ⟨found, hfinds, hpool⟩

theorem after {h : Option (Handshake ε)} (hr : Routed config source hs w.client)
    (hh : ∀ g ∈ h, g.start = w ∧ g.Ran env) :
    Routed config source (hs ++ h.toList) (Session.after h w).client := by
  cases h with
  | none =>
    rw [Option.toList_none, List.append_nil]
    exact hr
  | some g =>
    obtain ⟨rfl, hg⟩ := hh g rfl
    exact hr.handshake hg

theorem mounted (h : Routed config source hs s) (hm : s.mounting.mountedRoot ≠ none) :
    ∃ last found, hs.getLast? = some last ∧ last.completed = true ∧
      last.Finds config.server found ∧ s.nfsCalls.pool = found.elim .empty .ofList := by
  obtain ⟨root, hm⟩ := Option.ne_none_iff_exists'.1 hm
  obtain ⟨last, _, hl, hc, hl', -⟩ := h.follows.mountedBy (phase_of_mountedRoot hm)
  obtain ⟨found, hf, hp⟩ := h.pool last hl'
  exact ⟨last, found, hl, hc, hf, hp⟩

end Routed

section Call
variable {Args Ok Fail : Type} {p : FileProcedure Args Ok Fail}
  {validate : String → Args → NfsReply Ok Fail → Except ClientError Unit} {args : Args}

theorem sendCall_part (env : Environment ε) (p : FileProcedure Args Ok Fail)
    (validate : String → Args → NfsReply Ok Fail → Except ClientError Unit) (args : Args)
    (w : World Session ε) : ∃ (r : Request Args) (validate' : Args → NfsReply Ok Fail → _)
      (w₁ : World Dispatcher ε),
      r.routingKey = routingKey w.client.config.hashing (p.handle args) ∧
      w₁.client = w.client.nfsCalls ∧
      (Task.exec env (sendCall p validate args) w).1 =
        (Task.exec env (Dispatcher.call p.toProcedure r validate') w₁).1 ∧
      (Task.sendings env (sendCall p validate args) w).map (Sending.part nfsCallsPart) =
        Task.sendings env (Dispatcher.call p.toProcedure r validate') w₁ := by
  let request : Request Args :=
    { nextRequest w args w.client.credential with
      routingKey := routingKey w.client.config.hashing (p.handle args) }
  let next : World Session ε := { w with nextXid := w.nextXid + 1 }
  let call := Dispatcher.call p.toProcedure request (validate w.client.config.server)
  have hx : Task.exec env (sendCall p validate args) w =
      Task.exec env (call.onPart nfsCallsPart) next := by
    unfold sendCall
    rw [Task.exec_lift_bind, Program.run_inspect, Task.exec_lift_bind]
    rfl
  have hs : Task.sendings env (sendCall p validate args) w =
      Task.sendings env (call.onPart nfsCallsPart) next := by
    unfold sendCall
    rw [Task.sendings_inspect_bind, Task.sendings_lift_bind]
    rfl
  refine ⟨request, validate w.client.config.server, next.part nfsCallsPart, rfl, rfl, ?_, ?_⟩
  · rw [hx, Task.exec_onPart nfsCallsPart_shows]
  · rw [hs, Task.sendings_onPart nfsCallsPart_shows]

theorem sendCall_hosts (env : Environment ε) (p : FileProcedure Args Ok Fail)
    (validate : String → Args → NfsReply Ok Fail → Except ClientError Unit) (args : Args)
    (w : World Session ε) : ∀ x ∈ Task.sendings env (sendCall p validate args) w,
      w.client.nfsCalls.chooseHost (routingKey w.client.config.hashing (p.handle args)) =
        .ok x.message.host := by
  intro x hx
  obtain ⟨r, validate', w₁, hr, -, -, hs⟩ := sendCall_part env p validate args w
  have hk := Program.keeps_sendings apartFromEscalation keeps_sendCall w x hx
  have hserver : x.seen.nfsCalls.server = w.client.nfsCalls.server :=
    congrArg (·.nfsCalls.server) hk
  have hhashing : x.seen.nfsCalls.hashing = w.client.nfsCalls.hashing :=
    congrArg (·.nfsCalls.hashing) hk
  have hpool : x.seen.nfsCalls.pool = w.client.nfsCalls.pool := congrArg (·.nfsCalls.pool) hk
  have hh := Dispatcher.call_hosts env p.toProcedure r validate' w₁
  rw [← hs, hr] at hh
  exact (Dispatcher.chooseHost_congr hserver hhashing hpool _).symm.trans
    (hh _ (List.mem_map_of_mem hx))

variable {root : FileHandle}

theorem callValidated_of_error (hm : Task.exec env mount w = (.ok root, w₁)) {e : ClientError}
    (he : (Task.exec env (sendCall p validate args) w₁).1 = .error e) :
    (Task.exec env (callValidated p validate args) w).1 = .error e := by
  have hs : Task.exec env (sendCall p validate args) w₁ =
      Task.exec env (sendAs w₁.client p validate args) w₁ := by
    unfold sendCall
    rw [Task.exec_lift_bind, Program.run_inspect]
    rfl
  rw [hs] at he
  rw [callValidated_eq, Task.exec_bind, hm]
  simp only
  rw [Task.exec_lift_bind, Program.run_inspect, Task.exec_bind]
  generalize Task.exec env (sendAs w₁.client p validate args) w₁ = x at he ⊢
  obtain ⟨v, w₂⟩ := x
  cases he
  rfl

/-- A call fails for want of a route, before anything is sent, if there is none and not
otherwise. -/
theorem noRoute_iff (hp : p.toProcedure.Regular)
    (validate : String → Args → NfsReply Ok Fail → Except ClientError Unit) (args : Args)
    (hm : Task.exec env mount w = (.ok root, w₁)) :
    ((Task.exec env (callValidated p validate args) w).1 =
        .error (.noRouteAvailable w₁.client.nfsCalls.server) ∧
      Task.sendings env (sendCall p validate args) w₁ = []) ↔ ¬ w₁.client.nfsCalls.HasRoute := by
  obtain ⟨r, validate', w₂, -, hc, hx, hs⟩ := sendCall_part env p validate args w₁
  rw [← hc]
  constructor
  · intro h hr
    obtain ⟨he, hn⟩ := h
    rw [hn] at hs
    obtain ⟨cause, hio⟩ := Dispatcher.call_unsent validate' hp hr hs.symm
    rw [callValidated_of_error hm (hx.trans hio)] at he
    cases he
  · intro hr
    obtain ⟨he, hn⟩ := Dispatcher.call_of_not_hasRoute (p := p.toProcedure) (r := r) validate' hr
    rw [hn, List.map_eq_nil_iff] at hs
    exact ⟨callValidated_of_error hm (hx.trans (congrArg Prod.fst he)), hs⟩

end Call

def Operation.handle : Operation → Option FileHandle
  | .call p _ args => some (p.handle args)
  | _ => none

/-- A run of operations one after another: all that is sent in it, and for which handle. -/
inductive Course (env : Environment ε) : List Operation → World Session ε →
    List (Option FileHandle × Entry ε) → World Session ε → Prop where
  | nil (w : World Session ε) : Course env [] w [] w
  | cons {op : Operation} {ops : List Operation} {w w₁ w' : World Session ε}
      {es : List (Entry ε)} {bs : List (Option FileHandle × Entry ε)} :
    Timeline env op.program w es () w₁ → Course env ops w₁ bs w' →
    Course env (op :: ops) w (es.map (op.handle, ·) ++ bs) w'

theorem map_snd_tag (handle : Option FileHandle) (es : List (Entry ε)) :
    (es.map (handle, ·)).map Prod.snd = es := by
  simp [Function.comp_def]

namespace Course
variable {op : Operation} {ops : List Operation} {bs cs : List (Option FileHandle × Entry ε)}

theorem timeline (h : Course env ops w bs w') :
    Timeline env (performAll ops) w (bs.map Prod.snd) () w' := by
  induction h with
  | nil w => exact .done () w
  | @cons op ops w w₁ w' es bs ht _ ih =>
    rw [List.map_append, map_snd_tag]
    exact ht.bind ih

theorem unique {w'' : World Session ε} (h : Course env ops w bs w')
    (h' : Course env ops w cs w'') : bs = cs := by
  induction h generalizing cs w'' with
  | nil w =>
    cases h'
    rfl
  | cons ht _ ih =>
    cases h' with
    | cons ht' hc' =>
      obtain rfl := ht.unique ht'
      have hw := ht.performs.run_eq.symm.trans ht'.performs.run_eq
      cases hw
      rw [ih hc']

end Course

theorem exists_course (env : Environment ε) (ops : List Operation) (w : World Session ε) :
    ∃ bs, Course env ops w bs ((performAll ops).run env w).2 := by
  induction ops generalizing w with
  | nil => exact ⟨[], .nil w⟩
  | cons op ops ih =>
    obtain ⟨first, p, second, hs⟩ := exists_stages env op w
    have ht := hs.account.timeline
    obtain ⟨bs, hc⟩ := ih (after second (p.run env (after first w)).2)
    have hw : ((performAll (op :: ops)).run env w).2 = _ :=
      congrArg Prod.snd (ht.performs.bind hc.timeline.performs).run_eq
    rw [hw]
    exact ⟨_, .cons ht hc⟩

/-- `P` of every send for a call on a handle, and of the handshakes before it and that handle. -/
def EachCall (P : List (Handshake ε) → FileHandle → Sending Session → Prop) :
    List (Handshake ε) → List (Option FileHandle × Entry ε) → Prop
  | _, [] => True
  | hs, (_, .handshake h) :: bs => EachCall P (hs ++ [h]) bs
  | hs, (handle, .sent x) :: bs => (∀ k ∈ handle, P hs k x) ∧ EachCall P hs bs

namespace EachCall
variable {P : List (Handshake ε) → FileHandle → Sending Session → Prop} {hs : List (Handshake ε)}
  {bs cs : List (Option FileHandle × Entry ε)} {handle : Option FileHandle}

theorem append (hb : EachCall P hs bs) (hc : EachCall P (hs ++ handshakesOf (bs.map Prod.snd)) cs) :
    EachCall P hs (bs ++ cs) := by
  induction bs generalizing hs with
  | nil =>
    rw [List.map_nil, handshakesOf, List.filterMap_nil, List.append_nil] at hc
    exact hc
  | cons b bs ih =>
    obtain ⟨handle, h | x⟩ := b
    · have hb : EachCall P (hs ++ [h]) bs := hb
      refine ih hb ?_
      rw [List.append_assoc]
      exact hc
    · exact ⟨hb.1, ih hb.2 hc⟩

theorem entryOf (h : Option (Handshake ε)) :
    EachCall P hs ((Session.entryOf h).map (handle, ·)) := by
  cases h <;> trivial

theorem sent {xs : List (Sending Session)} (h : ∀ x ∈ xs, ∀ k ∈ handle, P hs k x) :
    EachCall P hs ((xs.map (Entry.sent : _ → Entry ε)).map (handle, ·)) := by
  induction xs with
  | nil => trivial
  | cons x xs ih =>
    obtain ⟨hx, hxs⟩ := List.forall_mem_cons.1 h
    exact ⟨hx, ih hxs⟩

theorem get {k : FileHandle} {x : Sending Session}
    (h : EachCall P hs (bs ++ (some k, .sent x) :: cs)) :
    P (hs ++ handshakesOf (bs.map Prod.snd)) k x := by
  induction bs generalizing hs with
  | nil =>
    rw [List.map_nil, handshakesOf, List.filterMap_nil, List.append_nil]
    exact h.1 k rfl
  | cons b bs ih =>
    obtain ⟨handle, g | y⟩ := b
    · have h : EachCall P (hs ++ [g]) (bs ++ (some k, .sent x) :: cs) := h
      have hp := ih h
      rwa [List.append_assoc] at hp
    · exact ih h.2

end EachCall

/-- After the handshakes `hs` a send goes where the handle and the addresses that the last of them
found make it go. -/
def Reaches (config : ClientConfig) (hs : List (Handshake ε)) (handle : FileHandle)
    (x : Sending Session) : Prop :=
  ∃ (last : Handshake ε) (found : Option (List IpAddress)) (d : Dispatcher),
    hs.getLast? = some last ∧ last.completed = true ∧ last.Finds config.server found ∧
    d.server = config.server ∧ d.hashing = config.hashing ∧ d.pool = found.elim .empty .ofList ∧
    d.chooseHost (routingKey config.hashing handle) = .ok x.message.host

theorem Reaches.host {hs : List (Handshake ε)} {handle : FileHandle} {x : Sending Session}
    (h : Reaches config hs handle x) : ∃ last found, hs.getLast? = some last ∧
      last.completed = true ∧ last.Finds config.server found ∧
      ((∃ a ∈ found.getD [], x.message.host = a.text) ∨
        found.getD [] = [] ∧ x.message.host = config.server) := by
  obtain ⟨last, found, d, hl, hc, hf, hs, -, hp, hh⟩ := h
  refine ⟨last, found, hl, hc, hf, ?_⟩
  obtain ⟨a, ha, hx⟩ | ⟨hn, hx⟩ := Dispatcher.host_of_chooseHost hh
  · rw [hp] at ha
    exact .inl ⟨a, AddressPool.mem_found.1 ha, hx⟩
  · rw [hp] at hn
    exact .inr ⟨AddressPool.found_eq_nil.1 hn, hx.trans hs⟩

theorem Reaches.host_eq {hs new : List (Handshake ε)} {handle handle' : FileHandle}
    {x y : Sending Session} (h : Reaches config hs handle x)
    (h' : Reaches config (hs ++ new) handle' y) (hk : handle.data = handle'.data)
    (hn : ∀ g ∈ new, g.completed = false) : x.message.host = y.message.host := by
  obtain ⟨last, found, d, hl, -, hf, hs, hd, hp, hh⟩ := h
  obtain ⟨last', found', d', hl', hc', hf', hs', hd', hp', hh'⟩ := h'
  have hnew : new = [] := by
    by_contra hne
    rw [List.getLast?_append_of_ne_nil _ hne] at hl'
    rw [hn last' (List.mem_of_getLast? hl')] at hc'
    cases hc'
  rw [hnew, List.append_nil, hl] at hl'
  cases hl'
  obtain rfl := hf.unique hf'
  have hchoose := Dispatcher.chooseHost_congr (hs.trans hs'.symm) (hd.trans hd'.symm)
    (hp.trans hp'.symm) (routingKey config.hashing handle)
  rw [hh] at hchoose
  have hkey : routingKey config.hashing handle = routingKey config.hashing handle' :=
    congrArg config.hashing.bytes hk
  rw [hkey, hh'] at hchoose
  exact Except.ok.inj hchoose

theorem EachCall.host_eq {before between after : List (Option FileHandle × Entry ε)}
    {handle handle' : FileHandle} {x y : Sending Session}
    (he : EachCall (Reaches config) []
      (before ++ (some handle, .sent x) :: between ++ (some handle', .sent y) :: after))
    (hk : handle.data = handle'.data)
    (hn : ∀ h ∈ handshakesOf (between.map Prod.snd), h.completed = false) :
    x.message.host = y.message.host := by
  have hy : Reaches config (handshakesOf (before.map Prod.snd) ++
      handshakesOf (between.map Prod.snd)) handle' y := by
    have hr := he.get
    rw [List.map_append, handshakesOf_append] at hr
    exact hr
  rw [List.append_assoc] at he
  exact he.get.host_eq hy hk hn

namespace Routed
variable {hs : List (Handshake ε)} {op : Operation}

theorem asking {first : Option (Handshake ε)} {p : Program Session Unit}
    {second : Option (Handshake ε)} (hst : Stages env op w first p second)
    (hr : Routed config source hs (Session.after first w).client) :
    ∀ x ∈ p.sendings env (Session.after first w), ∀ k ∈ op.handle, Reaches config hs k x := by
  intro x hx k hk
  obtain ⟨rfl, hm⟩ | ⟨rfl, -⟩ := hst.asks
  · cases op with
    | call p validate args =>
      obtain rfl := Option.mem_some.1 hk
      have hroot : (Session.after first w).client.mounting.mountedRoot ≠ none := by
        intro hn
        obtain ⟨_, hc⟩ := hm hn
        cases hc
      obtain ⟨last, found, hl, hc, hf, hp⟩ := hr.mounted hroot
      have hx : x ∈ (ignore (sendCall p validate args)).sendings env _ := hx
      rw [sendings_ignore] at hx
      have hh := sendCall_hosts env p validate args _ x hx
      rw [hr.follows.config_eq] at hh
      exact ⟨last, found, _, hl, hc, hf, hr.server, hr.hashing, hp, hh⟩
    | _ => cases hk
  · cases hx

theorem operation {es : List (Entry ε)} (hr : Routed config source hs w.client)
    (ht : Timeline env op.program w es () w') :
    Routed config source (hs ++ handshakesOf es) w'.client ∧
      EachCall (Reaches config) hs (es.map (op.handle, ·)) := by
  obtain ⟨first, p, second, hst⟩ := exists_stages env op w
  have hst' := hst.account.timeline
  obtain rfl := ht.unique hst'
  have hw := ht.performs.run_eq.symm.trans hst'.performs.run_eq
  cases hw
  have hfirst := hr.after fun h hh => (hst.mounts h hh).imp_right And.left
  have hp : p.Only (Action.Keeps lasting) := by
    obtain ⟨rfl, -⟩ | ⟨rfl, -⟩ := hst.asks
    · exact keeps_asking op
    · trivial
  have hasked : Routed config source (hs ++ first.toList)
      (p.run env (Session.after first w)).2.client :=
    hfirst.of_lasting (Program.keeps_run lasting hp rfl)
  have hsecond := hasked.after fun h hh => (hst.remounts h hh).imp_right And.left
  rw [handshakesOf_append, handshakesOf_append, handshakesOf_sent, handshakesOf_entryOf,
    handshakesOf_entryOf, List.append_nil, ← List.append_assoc]
  refine ⟨hsecond, ?_⟩
  rw [List.map_append, List.map_append]
  refine .append (.append (.entryOf first) (.sent ?_)) (.entryOf second)
  rw [map_snd_tag, handshakesOf_entryOf]
  exact asking hst hfirst

theorem course {ops : List Operation} {bs : List (Option FileHandle × Entry ε)}
    (hr : Routed config source hs w.client) (hc : Course env ops w bs w') :
    Routed config source (hs ++ handshakesOf (bs.map Prod.snd)) w'.client ∧
      EachCall (Reaches config) hs bs := by
  induction hc generalizing hs with
  | nil w =>
    rw [List.map_nil, handshakesOf, List.filterMap_nil, List.append_nil]
    exact ⟨hr, trivial⟩
  | @cons op ops w w₁ w' es bs ht _ ih =>
    obtain ⟨hr₁, he⟩ := hr.operation ht
    obtain ⟨hr₂, hb⟩ := ih hr₁
    rw [List.map_append, map_snd_tag, handshakesOf_append, ← List.append_assoc]
    refine ⟨hr₂, he.append ?_⟩
    rw [map_snd_tag]
    exact hb

/-- Whether a call has a route depends on what the latest handshake found, which may have been made
for the call. -/
theorem route {hs' : List (Handshake ε)} {root : FileHandle} {Args Ok Fail : Type}
    {p : FileProcedure Args Ok Fail} (hr : Routed config source hs w.client)
    (hp : p.toProcedure.Regular)
    (validate : String → Args → NfsReply Ok Fail → Except ClientError Unit) (args : Args)
    (hm : Performs env (ExceptT.run mount) w hs' (.ok root) w₁) :
    ∃ last found, (hs ++ hs').getLast? = some last ∧ last.completed = true ∧
      last.Finds config.server found ∧
      ((Task.exec env (callValidated p validate args) w).1 =
            .error (.noRouteAvailable config.server) ∧
          Task.sendings env (sendCall p validate args) w₁ = [] ↔
        found.getD [] = [] ∧ config.server = "") := by
  obtain ⟨first, v, hmounts, ha, hv⟩ := mount_account env w
  have hfirst := hr.after fun h hh => (hmounts h hh).imp_right And.left
  have hrun := hm.run_eq
  rw [ha.timeline.performs.run_eq] at hrun
  obtain ⟨rfl, rfl⟩ := Prod.mk.inj hrun
  rw [← handshakesOf_entryOf, ← hm.unique ha.timeline.performs] at hfirst
  obtain ⟨last, found, hl, hcompleted, hf, hpool⟩ := hfirst.mounted (hv.2 ⟨root, rfl⟩)
  refine ⟨last, found, hl, hcompleted, hf, ?_⟩
  have hroute := noRoute_iff hp validate args hm.run_eq
  rw [hfirst.server] at hroute
  rw [hroute, Dispatcher.HasRoute, hpool, hfirst.server, not_or, not_not, not_not,
    AddressPool.found_eq_nil]

end Routed

/-- A pool has the distinct addresses it is made of in the order of first occurrence, and any hash
takes a key to one of them, if there are any. So whatever the environment answers and however the
configuration hashes, over any operations: all sends for a handle go to the same host while no
handshake completes, an address that the latest handshake found or the server by its name. There is
no route if there is neither. -/
theorem performAll_routes (env : Environment ε) (config : ClientConfig) (source : PortSource)
    (outside : ε) (clock : Nat) (xid : UInt32) (log : List Event) (ops : List Operation) :
    let start : World Session ε := ⟨ofConfig config source, outside, clock, xid, log⟩
    let w := ((performAll ops).run env start).2
    (∀ listed kept : List IpAddress, kept = (AddressPool.ofList listed).addresses ↔
      (∀ a, a ∈ kept ↔ a ∈ listed) ∧ kept.Pairwise fun a b => listed.idxOf a < listed.idxOf b) ∧
    (∀ (hash : UInt64 → UInt64) (pool : AddressPool) (key : UInt64),
      (pool.pickBy hash key = none ↔ pool.addresses = []) ∧
      ∀ a, pool.pickBy hash key = some a → a ∈ pool.addresses) ∧
    (∃! bs, Course env ops start bs w) ∧
    (∀ bs, Course env ops start bs w →
      exchanges w.log = exchanges log ++ bs.flatMap (·.2.exchanges) ∧
      (∀ before handle x after, bs = before ++ (some handle, .sent x) :: after →
        ∃ last found, (handshakesOf (before.map Prod.snd)).getLast? = some last ∧
          last.completed = true ∧ last.Finds config.server found ∧
          ((∃ a ∈ found.getD [], x.message.host = a.text) ∨
            found.getD [] = [] ∧ x.message.host = config.server)) ∧
      ∀ before handle x between handle' y after,
        bs = before ++ (some handle, .sent x) :: between ++ (some handle', .sent y) :: after →
        handle.data = handle'.data →
        (∀ h ∈ handshakesOf (between.map Prod.snd), h.completed = false) →
        x.message.host = y.message.host) ∧
    ∀ (before after : List Operation) {Args Ok Fail : Type} (p : FileProcedure Args Ok Fail)
      (validate : String → Args → NfsReply Ok Fail → Except ClientError Unit) (args : Args),
      ops = before ++ .call p validate args :: after → p.toProcedure.Regular →
      let now := ((performAll before).run env start).2
      ∀ hs hs' root w₁, Performs env (performAll before) start hs () now →
        Performs env (ExceptT.run mount) now hs' (.ok root) w₁ →
        ∃ last found, (hs ++ hs').getLast? = some last ∧ last.completed = true ∧
          last.Finds config.server found ∧
          ((Task.exec env (callValidated p validate args) now).1 =
                .error (.noRouteAvailable config.server) ∧
              Task.sendings env (sendCall p validate args) w₁ = [] ↔
            found.getD [] = [] ∧ config.server = "") := by
  intro start w
  have hstart : Routed config source ([] : List (Handshake ε)) start.client :=
    .ofConfig config source
  refine ⟨fun _ _ => AddressPool.eq_ofList_iff, fun _ _ _ => ⟨AddressPool.pickBy_eq_none_iff,
    fun _ => AddressPool.mem_of_pickBy⟩, ?_, ?_, ?_⟩
  · obtain ⟨bs, h⟩ := exists_course env ops start
    exact ⟨bs, h, fun _ h' => h'.unique h⟩
  · intro bs h
    have he : EachCall (Reaches config) [] bs := (hstart.course h).2
    refine ⟨?_, fun before handle x after hbs => ?_, ?_⟩
    · rw [h.timeline.exchanges_eq, List.flatMap_map]
    · rw [hbs] at he
      exact he.get.host
    · intro before handle x between handle' y after hbs
      rw [hbs] at he
      exact he.host_eq
  · intro before after Args Ok Fail p validate args hops hp now hs hs' root w₁ hbefore hmount
    obtain ⟨bs, hc⟩ := exists_course env before start
    have hnow : Routed config source (handshakesOf (bs.map Prod.snd)) now.client :=
      (hstart.course hc).1
    rw [← hbefore.unique hc.timeline.performs] at hnow
    exact hnow.route hp validate args hmount

end Session
end Nfs3.Client
