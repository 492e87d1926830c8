import Nfs3.Proofs.Client.CallRecord
import Nfs3.Proofs.Client.Clients
import Nfs3.Proofs.Client.Escalation

/-!
A call of the portmapper of a server: the directory has a dispatcher for the server by then, and the
call is one of that dispatcher.
-/
namespace Nfs3.Client.Portmapper
open Wire Rpc Net
variable {ε : Type} {env : Environment ε} {w : World Portmapper ε} {server : String}

theorem dispatcherOf_shows (server : String) :
    (dispatcherOf server).ShowsWhile fun m => m.known server ≠ none := by
  intro f m hm
  obtain ⟨hk, hg⟩ := dispatcherOf_modify hm server f
  rw [if_pos rfl] at hg
  exact ⟨hk, hg⟩

def connected (env : Environment ε) (server : String) (w : World Portmapper ε) :
    World Portmapper ε :=
  ((connect server).run env w).2

def newcomer (m : Portmapper) (server : String) (found : Option (List IpAddress)) : Dispatcher :=
  (m.fresh server).listen portmapPort found

theorem connected_of_known (h : w.client.known server ≠ none) : connected env server w = w := by
  obtain ⟨d, hd⟩ := Option.ne_none_iff_exists'.1 h
  unfold connected connect
  refine (congrArg Prod.snd (Program.run_bind ..)).trans ?_
  rw [Program.run_inspect]
  simp only [hd]
  rfl

theorem connected_of_unknown (h : w.client.known server = none) : connected env server w =
    { (w.answer env (.discover server portmapPort)).2 with
      client := w.client.store server
        (w.client.newcomer server (w.answer env (.discover server portmapPort)).1) } := by
  unfold connected connect
  refine (congrArg Prod.snd (Program.run_bind ..)).trans ?_
  rw [Program.run_inspect]
  simp only [h]
  rfl

theorem free_connect (server : String) : (connect server).Only Action.Free := by
  refine Program.only_bind (Program.only_ask ⟨fun _ => rfl, fun _ _ => rfl⟩) fun m => ?_
  split
  · trivial
  · exact Program.only_bind (Program.only_ask ⟨fun _ => rfl, fun _ _ => rfl⟩) fun _ =>
      Program.only_ask ⟨fun _ => rfl, fun _ _ => rfl⟩

theorem store_of_known {m : Portmapper} (h : m.known server ≠ none) (d : Dispatcher) :
    m.store server d = m :=
  if_pos (Option.isSome_iff_ne_none.2 h)

theorem client_connected (env : Environment ε) (server : String) (w : World Portmapper ε) :
    ∃ found, (connected env server w).client =
      w.client.store server (w.client.newcomer server found) := by
  by_cases h : w.client.known server = none
  · rw [connected_of_unknown h]
    exact ⟨_, rfl⟩
  · rw [connected_of_known h]
    exact ⟨none, (store_of_known h _).symm⟩

theorem known_connected (env : Environment ε) (server : String) (w : World Portmapper ε) :
    (connected env server w).client.known server ≠ none := by
  obtain ⟨found, h⟩ := client_connected env server w
  rw [h]
  exact known_store_self _ _ _

theorem known_connected_iff (env : Environment ε) (w : World Portmapper ε) (server' : String) :
    (connected env server w).client.known server' ≠ none ↔
      w.client.known server' ≠ none ∨ server' = server := by
  obtain ⟨found, h⟩ := client_connected env server w
  rw [h, known_store_eq]
  split <;> cases w.client.known server' <;> simp_all

theorem nextXid_connected (env : Environment ε) (server : String) (w : World Portmapper ε) :
    (connected env server w).nextXid = w.nextXid := by
  by_cases h : w.client.known server = none
  · rw [connected_of_unknown h]
    rfl
  · rw [connected_of_known h]

theorem log_connected (env : Environment ε) (server : String) (w : World Portmapper ε) :
    ∃ found, (connected env server w).log = w.log ++
      if w.client.known server = none then [.discovered server portmapPort found] else [] := by
  by_cases h : w.client.known server = none
  · refine ⟨(w.answer env (.discover server portmapPort)).1, ?_⟩
    rw [connected_of_unknown h, if_pos h]
    rfl
  · refine ⟨none, ?_⟩
    rw [connected_of_known h, if_neg h, List.append_nil]

theorem get_modify_of_ne {server' : String} (h : server' ≠ server) (f : Dispatcher → Dispatcher)
    (m : Portmapper) :
    (dispatcherOf server').get ((dispatcherOf server).modify f m) =
      (dispatcherOf server').get m := by
  have hk : ((dispatcherOf server).modify f m).known server' = m.known server' := by
    rw [known_modify]
    simp [h]
  change (Portmapper.known _ server').getD _ = _
  rw [hk]
  rfl

theorem get_store (m : Portmapper) (server server' : String) (d : Dispatcher) :
    (dispatcherOf server').get (m.store server d) =
      ((m.known server').or (if server' = server then some d else none)).getD
        (m.fresh server') := by
  have hf : (m.store server d).fresh server' = m.fresh server' := by
    unfold store
    split <;> rfl
  change (Portmapper.known _ server').getD _ = _
  rw [known_store_eq, hf]

theorem get_connected_of_ne {server' : String} (h : server' ≠ server) :
    (dispatcherOf server').get (connected env server w).client =
      (dispatcherOf server').get w.client := by
  obtain ⟨found, hc⟩ := client_connected env server w
  rw [hc, get_store, if_neg h, Option.or_none]
  rfl

/-- A dispatcher made for a new server has nothing escalated, like the one it takes the place of. -/
theorem escalated_connected (env : Environment ε) (server : String) (w : World Portmapper ε) :
    ((dispatcherOf server).get (connected env server w).client).escalated =
      ((dispatcherOf server).get w.client).escalated := by
  obtain ⟨found, hc⟩ := client_connected env server w
  rw [hc, get_store, if_pos rfl]
  change _ = ((w.client.known server).getD (w.client.fresh server)).escalated
  cases w.client.known server <;> rfl

theorem newcomer_store (m : Portmapper) (server : String) (d : Dispatcher) :
    (m.store server d).newcomer = m.newcomer := by
  unfold store
  split <;> rfl

structure Each (P : String → Dispatcher → Prop) (m : Portmapper) : Prop where
  newcomer : ∀ server found, P server (m.newcomer server found)
  known : ∀ server d, m.known server = some d → P server d

namespace Each
variable {P : String → Dispatcher → Prop} {m : Portmapper}

theorem get (h : m.Each P) (hk : m.known server ≠ none) :
    P server ((dispatcherOf server).get m) := by
  obtain ⟨d, hd⟩ := Option.ne_none_iff_exists'.1 hk
  change P server ((m.known server).getD _)
  rw [hd]
  exact h.known server d hd

theorem modify (h : m.Each P) {f : Dispatcher → Dispatcher}
    (hf : ∀ d, P server d → P server (f d)) : ((dispatcherOf server).modify f m).Each P where
  newcomer := h.newcomer
  known server' d hd := by
    rw [known_modify] at hd
    obtain ⟨e, he, rfl⟩ := Option.map_eq_some_iff.1 hd
    split
    · rename_i hs
      subst hs
      exact hf e (h.known _ e he)
    · exact h.known server' e he

theorem store (h : m.Each P) (server : String) (found : Option (List IpAddress)) :
    (m.store server (m.newcomer server found)).Each P where
  newcomer := by
    rw [newcomer_store]
    exact h.newcomer
  known server' e he := by
    rw [known_store_eq, Option.or_eq_some_iff] at he
    obtain he | ⟨-, he⟩ := he
    · exact h.known server' e he
    · split at he
      · rename_i hs
        cases he
        subst hs
        exact h.newcomer server' found
      · cases he

theorem connected (h : w.client.Each P) : (connected env server w).client.Each P := by
  obtain ⟨found, hc⟩ := client_connected env server w
  rw [hc]
  exact h.store server found

end Each

section Call
variable {Args Reply : Type} {p : Procedure Args Reply} {args : Args}

def request (w : World Portmapper ε) (args : Args) : Request Args :=
  ⟨w.nextXid, args, .none, w.nextXid.toUInt64⟩

def ready (env : Environment ε) (server : String) (w : World Portmapper ε) : World Portmapper ε :=
  { connected env server w with nextXid := w.nextXid + 1 }

theorem run_fresh (env : Environment ε) (server : String) (w : World Portmapper ε) (args : Args) :
    (Request.fresh args .none).run env (connected env server w) =
      (request w args, ready env server w) := by
  have hr : (Request.fresh args .none).run env (connected env server w) =
    (request (connected env server w) args,
      { connected env server w with nextXid := (connected env server w).nextXid + 1 }) := rfl
  rw [hr, request, nextXid_connected]
  rfl

theorem exec_call : Task.exec env (call server p args) w =
    Task.exec env ((Dispatcher.call p (request w args) Dispatcher.acceptAny).onPart
      (dispatcherOf server)) (ready env server w) := by
  have hf := run_fresh env server w args
  unfold connected at hf
  unfold call
  rw [Task.exec_lift_bind, Task.exec_lift_bind, hf]

theorem sendings_call : Task.sendings env (call server p args) w =
    Task.sendings env ((Dispatcher.call p (request w args) Dispatcher.acceptAny).onPart
      (dispatcherOf server)) (ready env server w) := by
  have hf := run_fresh env server w args
  have hn : (Request.fresh args .none).sendings env (connected env server w) = [] := rfl
  unfold connected at hf hn
  unfold call
  rw [Task.sendings_lift_bind, Task.sendings_lift_bind, hf, hn,
    Program.sendings_of_free (free_connect server)]
  rfl

/-- The world of a lookup as the dispatcher kept for the server sees it. -/
def served (env : Environment ε) (server : String) (w : World Portmapper ε) : World Dispatcher ε :=
  (ready env server w).part (dispatcherOf server)

theorem call_served (env : Environment ε) (server : String) (p : Procedure Args Reply)
    (args : Args) (w : World Portmapper ε) :
    let own := Dispatcher.call p (request w args) Dispatcher.acceptAny
    Task.exec env own (served env server w) =
      ((Task.exec env (call server p args) w).1,
        (Task.exec env (call server p args) w).2.part (dispatcherOf server)) ∧
    Task.sendings env own (served env server w) =
      (Task.sendings env (call server p args) w).map (Sending.part (dispatcherOf server)) := by
  intro own
  have hk : (ready env server w).client.known server ≠ none := known_connected env server w
  rw [exec_call, sendings_call]
  exact ⟨(Program.run_onPart_while (dispatcherOf_shows server) _ hk).2,
    Program.sendings_onPart_while (dispatcherOf_shows server) _ hk⟩

theorem call_tries (env : Environment ε) (hp : p.Candid) (server : String) (args : Args)
    (w : World Portmapper ε) :
    Dispatcher.Tries p (request w args)
      ((dispatcherOf server).get (connected env server w).client)
      ((Task.sendings env (call server p args) w).map (Sending.part (dispatcherOf server)))
      ((dispatcherOf server).get (Task.exec env (call server p args) w).2.client) := by
  obtain ⟨hx, hs⟩ := call_served env server p args w
  have ht := Dispatcher.call_tries env hp (request w args) Dispatcher.acceptAny
    (served env server w)
  rwa [hs, hx] at ht

theorem call_recorded (env : Environment ε) (server : String) (p : Procedure Args Reply)
    (args : Args) (w : World Portmapper ε) :
    ∃ es, (Task.exec env (call server p args) w).2.log = (connected env server w).log ++ es ∧
      Recorded p (request w args) es (Task.exec env (call server p args) w).1 := by
  rw [exec_call]
  obtain ⟨es, ht, hl⟩ := Program.run_trace env (ExceptT.run
    ((Dispatcher.call p (request w args) Dispatcher.acceptAny).onPart (dispatcherOf server)))
    (ready env server w)
  exact ⟨es, hl, Dispatcher.call_recorded (Program.Trace.of_onPart ht)⟩

theorem call_preserves {P : Portmapper → Prop}
    (h : ∀ n m, P m → P ((dispatcherOf server).modify (·.escalate n) m))
    (hw : P (connected env server w).client) :
    P (Task.exec env (call server p args) w).2.client := by
  rw [exec_call]
  refine Program.preserves_run (Program.only_onPart Dispatcher.only_call ?_ ?_) hw
  · rintro _ ⟨n, rfl⟩ m
    exact h n m
  · exact fun _ => Action.preserves_of_ne_update

end Call

theorem exec_resolve (env : Environment ε) (server : String) (service : Service)
    (w : World Portmapper ε) :
    let call := Task.exec env
      (call server Procedures.getPort ⟨service.program, service.version, tcp, 0⟩) w
    Task.exec env (resolve server service) w = (call.1.bind (readPort server service), call.2) := by
  intro call
  unfold resolve
  rw [Task.exec_bind]
  generalize hc : Task.exec env
    (Portmapper.call server Procedures.getPort ⟨service.program, service.version, tcp, 0⟩) w = x
  have hx : call = x := hc
  rw [hx]
  obtain ⟨v, w'⟩ := x
  cases v with
  | ok number => exact Task.exec_ofExcept _
  | error e => rfl

theorem sendings_resolve (env : Environment ε) (server : String) (service : Service)
    (w : World Portmapper ε) : Task.sendings env (resolve server service) w = Task.sendings env
      (call server Procedures.getPort ⟨service.program, service.version, tcp, 0⟩) w := by
  unfold resolve
  rw [Task.sendings_bind]
  refine List.append_right_eq_self.2 ?_
  split
  · exact Task.sendings_ofExcept _
  · rfl

end Nfs3.Client.Portmapper
