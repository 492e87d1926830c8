import Nfs3.Proofs.Client.CallBytes
import Nfs3.Proofs.Client.Jobs
import Nfs3.Proofs.Client.Portmap
import Nfs3.Proofs.Client.Routing
import Nfs3.Proofs.Rpc.CallForm

/-!
Lookups one after another with one portmapper. A server is discovered by the first that names it;
each asks for its program under no credential; and a refusal moves the lookups of that server, and
nobody else's, to a privileged port for good.
-/
namespace Nfs3
open Wire Rpc MessageBuffer

theorem Rpc.CallHeader.run_marshal_none (h : CallHeader) (stamp : UInt32) :
    ∃ b, (h.marshal .none stamp).run .empty = .ok () b ∧
      b.bytes = wordsBytes (h.words ++ [0, 0, 0, 0]) := by
  have hl : (Credential.none.body stamp).length ≤ maxLength := Nat.zero_le _
  have hn : Credential.none.flavor = .null ∧ Credential.none.body stamp = [] ∧
    Credential.none.verifierFlavor = .null ∧ Credential.none.verifier = [] := ⟨rfl, rfl, rfl, rfl⟩
  have hf : AuthFlavor.codec.encode .null = Codec.word.encode 0 := rfl
  have hb : Codec.bytes.encode [] = Codec.word.encode 0 := rfl
  have hw : OnWord .empty := ⟨⟨Nat.le_refl _, rfl⟩, rfl, rfl⟩
  refine ⟨_, (h.marshal_lays hl (Nat.zero_le _)).run hw, ?_⟩
  rw [h.encode_message hl, hn.1, hn.2.1, hn.2.2.1, hn.2.2.2, hf, hb]
  simp [overwrite, MessageBuffer.empty, ofBytes, wordsBytes, CallHeader.words]

namespace Client

theorem Request.flatten_of_none {f : PlainForm} (hf : f.Faithful) {r : Request f.Args}
    (hc : r.credential = .none) {b : MessageBuffer}
    (hm : (f.procedure.marshal r.args).run .empty = .ok () b) {stamp : UInt32}
    {segments : List Bytes} (h : r.segments f.procedure stamp = .ok segments) :
    segments.flatten = wordsBytes ((r.header f.procedure).words ++ [0, 0, 0, 0]) ++
      f.arguments.encode r.args := by
  obtain ⟨head, hh, hb⟩ := (r.header f.procedure).run_marshal_none stamp
  rw [← hc] at hh
  obtain ⟨-, segments', hs, hfl⟩ := Request.segments_of_header hf hm hh
  rw [hs] at h
  cases h
  rw [hfl, hb]

namespace Portmapper
variable {ε : Type} {env : Environment ε} {w : World Portmapper ε}

namespace Operation

def server : Operation → String
  | null server => server
  | resolve server _ => server

def number : Operation → UInt32
  | null _ => PortmapNumber.null.code
  | resolve .. => PortmapNumber.getPort.code

def words (xid : UInt32) : Operation → List UInt32
  | null _ => [xid, 0, 2, 100000, 2, 0, 0, 0, 0, 0]
  | resolve _ service =>
    [xid, 0, 2, 100000, 2, 3, 0, 0, 0, 0, service.program, service.version, 6, 0]

def after (env : Environment ε) (op : Operation) (w : World Portmapper ε) : World Portmapper ε :=
  (op.program.run env w).2

end Operation

structure Attempt where
  server : String
  procedure : UInt32
  xid : UInt32
  sending : Sending Portmapper

namespace Attempt

/-- Sent from an unprivileged port, and answered with a refusal of the credential. -/
def Rejected (a : Attempt) : Prop :=
  a.sending.message.privileged = false ∧ Refuses a.xid a.sending.answer

def part (a : Attempt) : Dispatcher.Attempt :=
  ⟨a.procedure, a.xid, a.sending.part (dispatcherOf a.server)⟩

end Attempt

namespace Operation

def attempts (env : Environment ε) (op : Operation) (w : World Portmapper ε) : List Attempt :=
  (op.program.sendings env w).map (⟨op.server, op.number, w.nextXid, ·⟩)

structure Asks {Args Reply : Type} (op : Operation) (p : Procedure Args Reply) (args : Args) :
    Prop where
  number : p.number = op.number
  candid : p.Candid
  segments {r : Request Args} {stamp : UInt32} {segments : List Bytes} : r.args = args →
    r.credential = .none → r.segments p stamp = .ok segments →
    segments.flatten = wordsBytes (op.words r.xid)
  written {r : Request Args} (stamp : UInt32) : r.args = args → r.credential = .none →
    ∃ segments, r.segments p stamp = .ok segments
  run {ε : Type} (env : Environment ε) (w : World Portmapper ε) :
    op.after env w = (Task.exec env (Portmapper.call op.server p args) w).2
  sendings {ε : Type} (env : Environment ε) (w : World Portmapper ε) :
    op.program.sendings env w = Task.sendings env (Portmapper.call op.server p args) w

theorem written_of_none {Args Reply : Type} {p : Procedure Args Reply} {c : Codec Args}
    (hp : ∀ a, p.marshal a = put c a) {r : Request Args} (hr : (c.write r.args).fault = none)
    (hc : r.credential = .none) (stamp : UInt32) :
    ∃ segments, r.segments p stamp = .ok segments := by
  refine (Request.segments_ok_iff hp).2 ⟨?_, hr⟩
  rw [hc]
  exact ⟨Nat.zero_le _, Nat.zero_le _⟩

theorem asks_null (server : String) : (null server).Asks Procedures.portmapNull () := by
  have hf : (⟨Procedures.portmapNull, .void, Always⟩ : PlainForm) ∈ PlainForm.all := by
    simp [PlainForm.all]
  refine ⟨rfl, (PlainForm.all_regular _ hf).candid, fun {r stamp segments} ha hc h => ?_,
    fun stamp _ hc => written_of_none (fun _ => rfl) rfl hc stamp, fun env w => ?_,
    fun env w => ?_⟩
  · have hm : (Procedures.portmapNull.marshal r.args).run .empty = .ok () _ := rfl
    exact Request.flatten_of_none (PlainForm.all_faithful _ hf) hc hm h
  · exact congrArg Prod.snd (Program.run_bind ..)
  · exact (Program.sendings_bind ..).trans (List.append_nil _)

theorem asks_resolve (server : String) (service : Service) : (resolve server service).Asks
    Procedures.getPort ⟨service.program, service.version, tcp, 0⟩ := by
  have hf : (⟨Procedures.getPort, PortMapping.codec, Always⟩ : PlainForm) ∈ PlainForm.all := by
    simp [PlainForm.all]
  refine ⟨rfl, (PlainForm.all_regular _ hf).candid, fun {r stamp segments} ha hc h => ?_,
    fun stamp _ hc => written_of_none (fun _ => rfl) (PortMapping.lawful.complete trivial) hc stamp,
    fun env w => ?_, fun env w => ?_⟩
  · have hm : (Procedures.getPort.marshal r.args).run .empty = .ok () _ := rfl
    have hs := Request.flatten_of_none (PlainForm.all_faithful _ hf) hc hm h
    rw [ha] at hs
    exact hs
  · have hx := exec_resolve env server service w
    exact (congrArg Prod.snd (Program.run_bind ..)).trans (congrArg Prod.snd hx)
  · refine ((Program.sendings_bind ..).trans (List.append_nil _)).trans ?_
    exact sendings_resolve env server service w

theorem exists_asks (op : Operation) :
    ∃ (Args Reply : Type) (p : Procedure Args Reply) (args : Args), op.Asks p args := by
  cases op with
  | null server => exact ⟨_, _, _, _, asks_null server⟩
  | resolve server service => exact ⟨_, _, _, _, asks_resolve server service⟩

variable {op : Operation}

/-- A lookup is sent exactly if its server has an address or a name. -/
theorem attempts_eq_nil_iff (env : Environment ε) (op : Operation) (w : World Portmapper ε) :
    op.attempts env w = [] ↔ ¬ (served env op.server w).client.HasRoute := by
  obtain ⟨Args, Reply, p, args, h⟩ := op.exists_asks
  have hs := (call_served env op.server p args w).2
  rw [attempts, List.map_eq_nil_iff, h.sendings, ← List.map_eq_nil_iff, ← hs]
  exact Dispatcher.call_unsent_iff _ fun stamp => h.written stamp rfl rfl

theorem lives (env : Environment ε) (op : Operation) (w : World Portmapper ε) :
    Dispatcher.Lives ((dispatcherOf op.server).get w.client) ((op.attempts env w).map Attempt.part)
      ((dispatcherOf op.server).get (op.after env w).client) := by
  obtain ⟨Args, Reply, p, args, h⟩ := op.exists_asks
  have ht := Dispatcher.Lives.of_tries (call_tries env h.candid op.server args w)
  rw [← h.run env w, ← h.sendings env w, List.map_map, h.number] at ht
  unfold attempts
  rw [List.map_map]
  exact .change (escalated_connected env op.server w) ht

theorem get_after_of_ne {server : String} (h : server ≠ op.server) :
    (dispatcherOf server).get (op.after env w).client = (dispatcherOf server).get w.client := by
  obtain ⟨Args, Reply, p, args, ha⟩ := op.exists_asks
  rw [ha.run]
  refine call_preserves (P := fun m => (dispatcherOf server).get m = _) (fun n m hm => ?_)
    (get_connected_of_ne h)
  rw [get_modify_of_ne h, hm]

theorem known_after_iff (env : Environment ε) (op : Operation) (w : World Portmapper ε)
    (server : String) : (op.after env w).client.known server ≠ none ↔
      w.client.known server ≠ none ∨ server = op.server := by
  obtain ⟨Args, Reply, p, args, h⟩ := op.exists_asks
  rw [h.run]
  refine call_preserves (P := fun m => m.known server ≠ none ↔ _) (fun n m hm => ?_)
    (known_connected_iff env w server)
  rw [known_modify, ← hm]
  simp

theorem attempts_keep (op : Operation) {P : String → Dispatcher → Prop}
    (hP : ∀ server d n, P server d → P server (d.escalate n)) (hw : w.client.Each P) :
    (op.after env w).client.Each P ∧ ∀ a ∈ op.attempts env w, P a.server a.part.sending.seen ∧
      a.sending.message.port = a.part.sending.seen.port ∧
      a.sending.message.segments.flatten = wordsBytes (op.words w.nextXid) := by
  obtain ⟨Args, Reply, p, args, h⟩ := op.exists_asks
  have ht := call_tries env h.candid op.server args w
  have hc : (connected env op.server w).client.Each P := hw.connected
  constructor
  · rw [h.run]
    exact call_preserves (fun n m hm => hm.modify fun d => hP _ d n) hc
  · intro a ha
    obtain ⟨x, hx, rfl⟩ := List.mem_map.1 ha
    rw [h.sendings] at hx
    have hs := List.mem_map_of_mem (f := Sending.part (dispatcherOf op.server)) hx
    obtain ⟨-, hport, stamp, hsegments⟩ := ht.sent _ hs
    have hseen := (ht.keeps (P := P op.server) (fun d => hP _ d _)
      (hc.get (known_connected env op.server w))).2 _ hs
    exact ⟨hseen, hport, h.segments rfl rfl hsegments⟩

end Operation

def attemptsAll (env : Environment ε) : List Operation → World Portmapper ε → List Attempt
  | [], _ => []
  | op :: ops, w => op.attempts env w ++ attemptsAll env ops (op.after env w)

def afterAll (env : Environment ε) (ops : List Operation) (w : World Portmapper ε) :
    World Portmapper ε :=
  ((performAll ops).run env w).2

theorem afterAll_cons (env : Environment ε) (op : Operation) (ops : List Operation)
    (w : World Portmapper ε) :
    afterAll env (op :: ops) w = afterAll env ops (op.after env w) :=
  congrArg Prod.snd (Program.run_bind ..)

theorem lives_all (env : Environment ε) (server : String) (ops : List Operation)
    (w : World Portmapper ε) : Dispatcher.Lives ((dispatcherOf server).get w.client)
      (((attemptsAll env ops w).filter (·.server = server)).map Attempt.part)
      ((dispatcherOf server).get (afterAll env ops w).client) := by
  induction ops generalizing w with
  | nil => exact .stop _
  | cons op ops ih =>
    have hs : ∀ a ∈ op.attempts env w, a.server = op.server := by
      intro a ha
      obtain ⟨x, -, rfl⟩ := List.mem_map.1 ha
      rfl
    rw [afterAll_cons, attemptsAll, List.filter_append, List.map_append]
    refine .append ?_ (ih (op.after env w))
    by_cases h : server = op.server
    · subst h
      rw [List.filter_eq_self.2 fun a ha => decide_eq_true (hs a ha)]
      exact op.lives env w
    · have hn : (op.attempts env w).filter (·.server = server) = [] := by
        refine List.filter_eq_nil_iff.2 fun a ha he => h ?_
        rw [← hs a ha]
        exact (of_decide_eq_true he).symm
      rw [hn, Operation.get_after_of_ne h]
      exact .stop _

theorem attemptsAll_keep {P : String → Dispatcher → Prop}
    (hP : ∀ server d n, P server d → P server (d.escalate n)) (ops : List Operation)
    (hw : w.client.Each P) :
    (afterAll env ops w).client.Each P ∧
      ∀ a ∈ attemptsAll env ops w, P a.server a.part.sending.seen := by
  induction ops generalizing w with
  | nil => exact ⟨hw, List.forall_mem_nil _⟩
  | cons op ops ih =>
    have hkeep : (op.after env w).client.Each P ∧ _ := op.attempts_keep hP hw
    obtain ⟨he, ha⟩ := hkeep
    rw [afterAll_cons]
    exact ⟨(ih he).1, List.forall_mem_append.2 ⟨fun a h => (ha a h).1, (ih he).2⟩⟩

theorem known_afterAll_iff (env : Environment ε) (ops : List Operation) (w : World Portmapper ε)
    (server : String) : (afterAll env ops w).client.known server ≠ none ↔
      w.client.known server ≠ none ∨ server ∈ ops.map Operation.server := by
  induction ops generalizing w with
  | nil => simp [afterAll, performAll, Program.run]
  | cons op ops ih =>
    rw [afterAll_cons, ih, Operation.known_after_iff, List.map_cons, List.mem_cons, or_assoc]

theorem exchanges_afterAll (env : Environment ε) (ops : List Operation) (w : World Portmapper ε) :
    exchanges (afterAll env ops w).log =
      exchanges w.log ++ (attemptsAll env ops w).map (·.sending.exchange) := by
  induction ops generalizing w with
  | nil => exact (List.append_nil _).symm
  | cons op ops ih =>
    have hx : exchanges (op.after env w).log = _ := Program.exchanges_run op.program w
    rw [afterAll_cons, ih, hx, attemptsAll, List.map_append, Operation.attempts, List.map_map,
      List.append_assoc]
    rfl

namespace Operation
variable {op : Operation}

theorem Asks.record {Args Reply : Type} {p : Procedure Args Reply} {args : Args}
    (h : op.Asks p args) (env : Environment ε) (w : World Portmapper ε) :
    ∃ news found rest, (op.after env w).log = w.log ++ news ∧
      news = (if w.client.known op.server = none then
        [.discovered op.server portmapPort found] else []) ++ rest ∧
      (∀ e ∈ rest, (∃ d, e = .slept d) ∨ ∃ m answer, e = .sent m answer) ∧
      ∀ v, (Task.exec env (Portmapper.call op.server p args) w).1 = .ok v ↔
        Answered news p (request w args) v := by
  obtain ⟨found, hc⟩ := log_connected env op.server w
  obtain ⟨rest, hl, hr⟩ := call_recorded env op.server p args w
  refine ⟨_, found, rest, ?_, rfl, fun e he => ?_, fun v => ?_⟩
  · rw [h.run, hl, hc, List.append_assoc]
  · obtain hd | ⟨m, answer, -, he, -⟩ := hr.events e he
    · exact .inl hd
    · exact .inr ⟨m, answer, he⟩
  · rw [answered_append, hr.answered]
    refine (or_iff_right fun ⟨_, _, _, _, _, hm, _⟩ => ?_).symm
    split at hm <;> simp at hm

theorem exists_record (env : Environment ε) (op : Operation) (w : World Portmapper ε) :
    ∃ news found rest, (op.after env w).log = w.log ++ news ∧
      news = (if w.client.known op.server = none then
        [.discovered op.server portmapPort found] else []) ++ rest ∧
      (∀ e ∈ rest, (∃ d, e = .slept d) ∨ ∃ m answer, e = .sent m answer) ∧
      ∀ server service, op = .resolve server service → ∀ number,
        (Task.exec env (Portmapper.call server Procedures.getPort
          ⟨service.program, service.version, tcp, 0⟩) w).1 = .ok number ↔
        Answered news Procedures.getPort
          (request w ⟨service.program, service.version, tcp, 0⟩) number := by
  cases op with
  | null server =>
    obtain ⟨news, found, rest, hl, hn, hr, -⟩ := (asks_null server).record env w
    exact ⟨news, found, rest, hl, hn, hr, nofun⟩
  | resolve server service =>
    obtain ⟨news, found, rest, hl, hn, hr, ha⟩ := (asks_resolve server service).record env w
    refine ⟨news, found, rest, hl, hn, hr, fun _ _ h => ?_⟩
    cases h
    exact ha

end Operation

section ReadPort
variable {server : String} {service : Service} {number : UInt32}

theorem readPort_eq_ok_iff {port : UInt16} : readPort server service number = .ok port ↔
    port.toNat = number.toNat ∧ 1 ≤ number.toNat ∧ number.toNat ≤ 65535 := by
  unfold readPort
  split
  · rename_i h
    subst h
    exact iff_of_false nofun fun h => absurd h.2.1 (by decide)
  · rename_i h
    have hpos : 1 ≤ number.toNat := Nat.pos_of_ne_zero fun hz => h (UInt32.toNat_inj.1 hz)
    split
    · rename_i hlt
      have hsize : UInt16.size = 65536 := rfl
      have hn : number.toUInt16.toNat = number.toNat := by
        rw [UInt32.toNat_toUInt16]
        omega
      rw [Except.ok.injEq, ← UInt16.toNat_inj, hn]
      omega
    · rename_i hlt
      have hsize : UInt16.size = 65536 := rfl
      exact iff_of_false nofun fun h => by omega

theorem readPort_unavailable_iff : readPort server service number =
    .error (.portUnavailable server service.program service.version) ↔ number = 0 := by
  unfold readPort
  split
  · simp_all
  · split <;> simp_all

theorem readPort_malformed_iff : (∃ detail, readPort server service number =
    .error (.malformedMessage detail)) ↔ 65535 < number.toNat := by
  unfold readPort
  have hsize : UInt16.size = 65536 := rfl
  split
  · rename_i h
    subst h
    exact iff_of_false nofun (by decide)
  · split
    · exact iff_of_false nofun (by omega)
    · exact iff_of_true ⟨_, rfl⟩ (by omega)

end ReadPort

/-- A lookup of a port fails with its call, and else comes to what the number in the reply stands
for. -/
theorem resolve_by_call (env : Environment ε) (server : String) (service : Service)
    (w : World Portmapper ε) :
    let asked : PortMapping := ⟨service.program, service.version, 6, 0⟩
    let call := (Task.exec env (call server Procedures.getPort asked) w).1
    let result := (Task.exec env (resolve server service) w).1
    (∀ e, call = .error e → result = .error e) ∧
    ∀ number, call = .ok number →
      (∀ port, result = .ok port ↔
        port.toNat = number.toNat ∧ 1 ≤ number.toNat ∧ number.toNat ≤ 65535) ∧
      (result = .error (.portUnavailable server service.program service.version) ↔ number = 0) ∧
      ((∃ detail, result = .error (.malformedMessage detail)) ↔ 65535 < number.toNat) := by
  intro asked call result
  have hresult : result = call.bind (readPort server service) :=
    congrArg Prod.fst (exec_resolve env server service w)
  refine ⟨fun e he => ?_, fun number hc => ?_⟩
  · rw [hresult, he]
    rfl
  · have hread : result = readPort server service number := by
      rw [hresult, hc]
      rfl
    rw [hread]
    exact ⟨fun port => readPort_eq_ok_iff, readPort_unavailable_iff, readPort_malformed_iff⟩

/-- As all dispatchers of a portmapper with this flag are. -/
def Listens (privileged : Bool) (_ : String) (d : Dispatcher) : Prop :=
  d.port = portmapPort ∧ d.privileged = privileged

/-- From servers with nothing escalated: what a send sees was escalated by those before it. -/
theorem privileged_iff {privileged : Bool} {ops : List Operation} {before after : List Attempt}
    {a : Attempt} (hw : w.client.Each (Listens privileged))
    (hn : ∀ server, ((dispatcherOf server).get w.client).escalated = [])
    (ha : attemptsAll env ops w = before ++ a :: after) :
    a.sending.message.privileged = true ↔ privileged = true ∨
      ∃ b ∈ before, b.server = a.server ∧ b.procedure = a.procedure ∧ b.Rejected := by
  have hl := lives_all env a.server ops w
  have hmem : a ∈ attemptsAll env ops w := by simp [ha]
  have hseen := (attemptsAll_keep (fun _ _ _ => id) ops hw).2 a hmem
  rw [ha, List.filter_append, List.filter_cons_of_pos (by simp), List.map_append,
    List.map_cons] at hl
  obtain ⟨d, hd, rfl, hu⟩ := hl.split
  have hu : a.sending.message.privileged =
    (a.part.sending.seen.privileged || a.part.sending.seen.escalated.contains a.procedure) := hu
  rw [hu, hseen.2, Bool.or_eq_true, List.contains_iff_mem, hd.mem_iff, hn]
  refine or_congr_right ⟨fun h => ?_, fun ⟨b, hb, hs, hp, hr⟩ => .inr ⟨b.part, ?_, hp, hr⟩⟩
  · obtain h | ⟨_, hb, hp, hr⟩ := h
    · exact (List.not_mem_nil h).elim
    · obtain ⟨b, hmem, rfl⟩ := List.mem_map.1 hb
      obtain ⟨hmem, hs⟩ := List.mem_filter.1 hmem
      exact ⟨b, hmem, of_decide_eq_true hs, hp, hr⟩
  · exact List.mem_map_of_mem (List.mem_filter.2 ⟨hb, decide_eq_true hs⟩)

/-- Whatever the lookups and whatever they are answered. A send goes from a privileged port exactly
if all do, or an earlier one of the same procedure to the same server was refused its credential on
an unprivileged port. A server is discovered by the first lookup that names it. A lookup sends
something unless its server has neither an address nor a name, and all of it is the same request
without a credential, to the same port. A lookup of a port is a call of the server's dispatcher; and
if it is answered, it comes to what the number in the reply stands for. -/
theorem performAll_resolves (env : Environment ε) (retry : RetryPolicy) (timeout : Duration)
    (privileged : Bool) (hashing : Net.Hashing) (outside : ε) (clock : Nat) (xid : UInt32)
    (log : List Event) (ops : List Operation) :
    let start : World Portmapper ε :=
      ⟨{ retry, timeout, privileged, hashing }, outside, clock, xid, log⟩
    exchanges (afterAll env ops start).log =
      exchanges log ++ (attemptsAll env ops start).map (·.sending.exchange) ∧
    (∀ before a after, attemptsAll env ops start = before ++ a :: after →
      (a.sending.message.privileged = true ↔ privileged = true ∨
        ∃ b ∈ before, b.server = a.server ∧ b.procedure = a.procedure ∧ b.Rejected)) ∧
    ∀ before op after, ops = before ++ op :: after → ∀ now, now = afterAll env before start →
      ∃ news found rest, (op.after env now).log = now.log ++ news ∧
        exchanges news = (op.attempts env now).map (·.sending.exchange) ∧
        news = (if op.server ∈ before.map Operation.server then []
          else [.discovered op.server 111 found]) ++ rest ∧
        (∀ e ∈ rest, (∃ d, e = .slept d) ∨ ∃ m answer, e = .sent m answer) ∧
        (op.attempts env now = [] ↔ ¬ (served env op.server now).client.HasRoute) ∧
        (∀ a ∈ op.attempts env now, a.sending.message.port = 111 ∧
          a.sending.message.segments.flatten = wordsBytes (op.words now.nextXid)) ∧
        ∀ server service, op = .resolve server service →
          let request := request now ⟨service.program, service.version, 6, 0⟩
          let call := (Task.exec env (call server Procedures.getPort request.args) now).1
          let result := (Task.exec env (resolve server service) now).1
          let own := Dispatcher.call Procedures.getPort request Dispatcher.acceptAny
          call = (Task.exec env own (served env server now)).1 ∧
          (op.attempts env now).map (·.part.sending) =
            Task.sendings env own (served env server now) ∧
          (∀ number, call = .ok number ↔ Answered news Procedures.getPort request number) ∧
          (∀ e, call = .error e → result = .error e) ∧
          ∀ number, call = .ok number →
            (∀ port, result = .ok port ↔
              port.toNat = number.toNat ∧ 1 ≤ number.toNat ∧ number.toNat ≤ 65535) ∧
            (result = .error (.portUnavailable server service.program service.version) ↔
              number = 0) ∧
            ((∃ detail, result = .error (.malformedMessage detail)) ↔ 65535 < number.toNat) := by
  intro start
  have hstart : start.client.Each (Listens privileged) := ⟨fun _ _ => ⟨rfl, rfl⟩, nofun⟩
  refine ⟨exchanges_afterAll env ops start, fun before a after ha => ?_, ?_⟩
  · exact privileged_iff hstart (fun _ => rfl) ha
  · intro before op after hsplit now hnow
    obtain ⟨news, found, rest, hl, hn, hr, ha⟩ := op.exists_record env now
    have hnew : now.client.known op.server = none ↔ op.server ∉ before.map Operation.server := by
      rw [hnow, ← not_iff_not, not_not, ← ne_eq, known_afterAll_iff]
      exact or_iff_right fun h => h rfl
    have heach : now.client.Each (Listens privileged) := by
      rw [hnow]
      exact (attemptsAll_keep (fun _ _ _ => id) before hstart).1
    have hx : exchanges (op.after env now).log = _ := Program.exchanges_run op.program now
    rw [hl, exchanges_append, List.append_cancel_left_eq] at hx
    refine ⟨news, found, rest, hl, ?_, ?_, hr, op.attempts_eq_nil_iff env now, fun a hmem => ?_,
      ?_⟩
    · rw [hx, Operation.attempts, List.map_map]
      rfl
    · rw [hn]
      by_cases hused : op.server ∈ before.map Operation.server
      · rw [if_pos hused, if_neg (mt hnew.1 (not_not.2 hused))]
      · rw [if_neg hused, if_pos (hnew.2 hused)]
        rfl
    · obtain ⟨hs, hport, hbytes⟩ := (op.attempts_keep (fun _ _ _ => id) heach).2 a hmem
      exact ⟨hport.trans hs.1, hbytes⟩
    · intro server service hop request call result own
      obtain ⟨hown, hsent⟩ := call_served env server Procedures.getPort request.args now
      refine ⟨(congrArg Prod.fst hown).symm, ?_, ha server service hop,
        resolve_by_call env server service now⟩
      rw [hop, Operation.attempts, List.map_map, (Operation.asks_resolve server service).sendings]
      exact hsent.symm

end Portmapper
end Client
end Nfs3
