import Mathlib.Logic.Function.Basic
import Nfs3.Client.Session

/-!
Sessions, portmappers and dispatchers side by side. Calls go over lines: the dispatchers that are
kept somewhere among them. What changes one line leaves all others as they are.
-/
namespace Nfs3.Client
open Rpc Net
variable {κ σ τ υ α : Type}

namespace Part

def comp (p : Part σ τ) (q : Part τ υ) : Part σ υ where
  get s := q.get (p.get s)
  modify f := p.modify (q.modify f)

def whole : Part σ σ := ⟨id, id⟩

end Part

/-- Everything that draws transaction ids from one source. -/
structure Clients (κ : Type) where
  sessions : κ → Session
  portmappers : κ → Portmapper
  dispatchers : κ → Dispatcher

/-- A portmapper: that of a session, or one by itself. -/
inductive Directory (κ : Type) where
  | ofSession (k : κ)
  | own (k : κ)
  deriving DecidableEq

/-- A dispatcher: one of the two of a session, the one a directory has for a server, or one by
itself. -/
inductive Line (κ : Type) where
  | mount (k : κ)
  | nfs (k : κ)
  | lookup (d : Directory κ) (server : String)
  | own (k : κ)
  deriving DecidableEq

variable [DecidableEq κ]

namespace Clients

def session (k : κ) : Part (Clients κ) Session where
  get c := c.sessions k
  modify f c := { c with sessions := Function.update c.sessions k (f (c.sessions k)) }

def portmapper (k : κ) : Part (Clients κ) Portmapper where
  get c := c.portmappers k
  modify f c := { c with portmappers := Function.update c.portmappers k (f (c.portmappers k)) }

def dispatcher (k : κ) : Part (Clients κ) Dispatcher where
  get c := c.dispatchers k
  modify f c := { c with dispatchers := Function.update c.dispatchers k (f (c.dispatchers k)) }

section Parts
variable (k k' : κ) (c : Clients κ) (f : Session → Session) (g : Portmapper → Portmapper)
  (h : Dispatcher → Dispatcher)

@[simp] theorem session_get_session : (session k).get ((session k').modify f c) =
    if k = k' then f ((session k).get c) else (session k).get c := by
  simp only [session, Function.update_apply]
  split <;> simp_all

@[simp] theorem portmapper_get_portmapper : (portmapper k).get ((portmapper k').modify g c) =
    if k = k' then g ((portmapper k).get c) else (portmapper k).get c := by
  simp only [portmapper, Function.update_apply]
  split <;> simp_all

@[simp] theorem dispatcher_get_dispatcher : (dispatcher k).get ((dispatcher k').modify h c) =
    if k = k' then h ((dispatcher k).get c) else (dispatcher k).get c := by
  simp only [dispatcher, Function.update_apply]
  split <;> simp_all

@[simp] theorem session_get_portmapper :
    (session k).get ((portmapper k').modify g c) = (session k).get c := rfl

@[simp] theorem session_get_dispatcher :
    (session k).get ((dispatcher k').modify h c) = (session k).get c := rfl

@[simp] theorem portmapper_get_session :
    (portmapper k).get ((session k').modify f c) = (portmapper k).get c := rfl

@[simp] theorem portmapper_get_dispatcher :
    (portmapper k).get ((dispatcher k').modify h c) = (portmapper k).get c := rfl

@[simp] theorem dispatcher_get_session :
    (dispatcher k).get ((session k').modify f c) = (dispatcher k).get c := rfl

@[simp] theorem dispatcher_get_portmapper :
    (dispatcher k).get ((portmapper k').modify g c) = (dispatcher k).get c := rfl

end Parts
end Clients

def Directory.part : Directory κ → Part (Clients κ) Portmapper
  | ofSession k => (Clients.session k).comp Session.portmapperPart
  | own k => Clients.portmapper k

namespace Line

def part : Line κ → Part (Clients κ) Dispatcher
  | mount k => (Clients.session k).comp Session.mountCallsPart
  | nfs k => (Clients.session k).comp Session.nfsCallsPart
  | lookup d server => d.part.comp (Portmapper.dispatcherOf server)
  | own k => Clients.dispatcher k

/-- A directory knows a server once it has a dispatcher for it. -/
def Ready (s : Clients κ) : Line κ → Prop
  | lookup d server => (d.part.get s).known server ≠ none
  | _ => True

end Line

namespace Portmapper
variable {m : Portmapper} {server : String}

theorem known_modify (m : Portmapper) (server server' : String) (f : Dispatcher → Dispatcher) :
    ((dispatcherOf server').modify f m).known server =
      (m.known server).map fun d => if server = server' then f d else d := by
  simp only [known, dispatcherOf]
  induction m.dispatchers with
  | nil => rfl
  | cons e es ih =>
    obtain ⟨name, d⟩ := e
    have he : (if name = server' then (name, f d) else (name, d)) =
        (name, if name = server' then f d else d) := by
      split <;> rfl
    rw [List.map_cons]
    simp only [he, List.lookup_cons, ih]
    by_cases hn : server = name
    · rw [hn, beq_self_eq_true]
      rfl
    · rw [beq_false_of_ne hn]

theorem dispatcherOf_modify (h : m.known server ≠ none) (server' : String)
    (f : Dispatcher → Dispatcher) :
    ((dispatcherOf server').modify f m).known server ≠ none ∧
      (dispatcherOf server).get ((dispatcherOf server').modify f m) =
        if server = server' then f ((dispatcherOf server).get m)
        else (dispatcherOf server).get m := by
  obtain ⟨d, hd⟩ := Option.ne_none_iff_exists'.1 h
  have hk := known_modify m server server' f
  rw [hd, Option.map_some] at hk
  have hg (m' : Portmapper) : (dispatcherOf server).get m' =
      (m'.known server).getD (m'.fresh server) := rfl
  refine ⟨hk ▸ Option.some_ne_none _, ?_⟩
  rw [hg, hg, hk, hd]
  rfl

theorem known_store_eq (m : Portmapper) (server server' : String) (d : Dispatcher) :
    (m.store server' d).known server =
      (m.known server).or (if server = server' then some d else none) := by
  unfold store
  split
  · rename_i h
    by_cases hn : server = server'
    · subst hn
      obtain ⟨e, he⟩ := Option.isSome_iff_exists.1 h
      rw [he, Option.some_or]
    · rw [if_neg hn, Option.or_none]
  · simp only [known, List.lookup_append, List.lookup_cons, List.lookup_nil]
    by_cases hn : server = server'
    · rw [if_pos hn, hn, beq_self_eq_true]
    · rw [if_neg hn, beq_false_of_ne hn]

theorem known_store (h : m.known server ≠ none) (server' : String) (d : Dispatcher) :
    (m.store server' d).known server = m.known server := by
  obtain ⟨e, he⟩ := Option.ne_none_iff_exists'.1 h
  rw [known_store_eq, he, Option.some_or]

theorem dispatcherOf_store (h : m.known server ≠ none) (server' : String) (d : Dispatcher) :
    (dispatcherOf server).get (m.store server' d) = (dispatcherOf server).get m := by
  obtain ⟨e, he⟩ := Option.ne_none_iff_exists'.1 h
  have hk := known_store h server' d
  simp only [dispatcherOf, hk, he, Option.getD_some]

theorem known_store_self (m : Portmapper) (server : String) (d : Dispatcher) :
    (m.store server d).known server ≠ none := by
  rw [known_store_eq, if_pos rfl]
  cases m.known server <;> nofun

end Portmapper

namespace Directory

theorem get_modify (d d' : Directory κ) (f : Portmapper → Portmapper) (s : Clients κ) :
    d.part.get (d'.part.modify f s) = if d = d' then f (d.part.get s) else d.part.get s := by
  cases d <;> cases d' <;> simp [part, Part.comp, Session.portmapperPart]
  split <;> rfl

end Directory

namespace Line
variable {s : Clients κ}

def Direct : Line κ → Prop
  | lookup .. => False
  | _ => True

theorem directory_get_modify {l : Line κ} (hl : l.Direct) (d : Directory κ)
    (f : Dispatcher → Dispatcher) : d.part.get (l.part.modify f s) = d.part.get s := by
  cases l with
  | lookup => exact hl.elim
  | _ =>
    cases d <;> simp [part, Directory.part, Part.comp, Session.portmapperPart,
      Session.mountCallsPart, Session.nfsCallsPart] <;> split <;> rfl

theorem get_modify_directory {l : Line κ} (hl : l.Direct) (d : Directory κ)
    (f : Portmapper → Portmapper) : l.part.get (d.part.modify f s) = l.part.get s := by
  cases l with
  | lookup => exact hl.elim
  | _ =>
    cases d <;> simp [part, Directory.part, Part.comp, Session.portmapperPart,
      Session.mountCallsPart, Session.nfsCallsPart] <;> split <;> rfl

theorem get_modify_direct {l l' : Line κ} (hl : l.Direct) (hl' : l'.Direct)
    (f : Dispatcher → Dispatcher) :
    l.part.get (l'.part.modify f s) = if l = l' then f (l.part.get s) else l.part.get s := by
  cases l <;> cases l' <;> first
    | exact hl.elim
    | exact hl'.elim
    | simp [part, Part.comp, Session.mountCallsPart, Session.nfsCallsPart] <;> split <;> rfl

omit [DecidableEq κ] in
theorem direct_or_lookup (l : Line κ) : l.Direct ∨ ∃ d server, l = lookup d server := by
  cases l with
  | lookup d server => exact .inr ⟨d, server, rfl⟩
  | _ => exact .inl trivial

theorem Direct.ready {l : Line κ} (hl : l.Direct) (s : Clients κ) : l.Ready s := by
  cases l with
  | lookup => exact hl.elim
  | _ => trivial

theorem lookup_congr {d : Directory κ} {server : String} {s s' : Clients κ}
    (h : d.part.get s' = d.part.get s) (hr : (lookup d server).Ready s) :
    (lookup d server).Ready s' ∧ (lookup d server).part.get s' = (lookup d server).part.get s := by
  simp only [Ready, part, Part.comp, h] at hr ⊢
  exact ⟨hr, trivial⟩

theorem get_modify {l : Line κ} (h : l.Ready s) (l' : Line κ) (f : Dispatcher → Dispatcher) :
    l.Ready (l'.part.modify f s) ∧
      l.part.get (l'.part.modify f s) = if l = l' then f (l.part.get s) else l.part.get s := by
  obtain hl | ⟨d, server, rfl⟩ := l.direct_or_lookup <;>
    obtain hl' | ⟨d', server', rfl⟩ := l'.direct_or_lookup
  · exact ⟨hl.ready _, get_modify_direct hl hl' f⟩
  · have hn : l ≠ lookup d' server' := by
      rintro rfl
      exact hl
    rw [if_neg hn]
    exact ⟨hl.ready _, get_modify_directory hl d' _⟩
  · have hn : lookup d server ≠ l' := by
      rintro rfl
      exact hl'
    rw [if_neg hn]
    exact lookup_congr (directory_get_modify hl' d f) h
  · have hd := d.get_modify d' ((Portmapper.dispatcherOf server').modify f) s
    by_cases hn : d = d'
    · subst hn
      rw [if_pos rfl] at hd
      obtain ⟨hk, hg⟩ := Portmapper.dispatcherOf_modify h server' f
      simp only [Ready, part, Part.comp, hd, lookup.injEq, true_and]
      exact ⟨hk, hg⟩
    · rw [if_neg hn] at hd
      have hne : lookup d server ≠ lookup d' server' := fun he => hn (lookup.inj he).1
      rw [if_neg hne]
      exact lookup_congr hd h

theorem get_store {l : Line κ} (h : l.Ready s) (d : Directory κ) (server : String)
    (fresh : Portmapper → Dispatcher) :
    l.Ready (d.part.modify (fun m => m.store server (fresh m)) s) ∧
      l.part.get (d.part.modify (fun m => m.store server (fresh m)) s) = l.part.get s := by
  obtain hl | ⟨d', server', rfl⟩ := l.direct_or_lookup
  · exact ⟨hl.ready _, get_modify_directory hl d _⟩
  · have hd := d'.get_modify d (fun m => m.store server (fresh m)) s
    by_cases hn : d' = d
    · subst hn
      rw [if_pos rfl] at hd
      have hk := Portmapper.known_store h server (fresh (d'.part.get s))
      simp only [Ready, part, Part.comp, hd, hk]
      exact ⟨h, Portmapper.dispatcherOf_store h server _⟩
    · rw [if_neg hn] at hd
      exact lookup_congr hd h

theorem get_session {l : Line κ} (h : l.Ready s) (k : κ) {f : Session → Session}
    (hf : ∀ s, (f s).mountCalls = s.mountCalls ∧ (f s).nfsCalls = s.nfsCalls ∧
      (f s).portmapper = s.portmapper) :
    l.Ready ((Clients.session k).modify f s) ∧
      l.part.get ((Clients.session k).modify f s) = l.part.get s := by
  have hs (k' : κ) :
      ((Clients.session k').get ((Clients.session k).modify f s)).mountCalls =
        ((Clients.session k').get s).mountCalls ∧
      ((Clients.session k').get ((Clients.session k).modify f s)).nfsCalls =
        ((Clients.session k').get s).nfsCalls ∧
      ((Clients.session k').get ((Clients.session k).modify f s)).portmapper =
        ((Clients.session k').get s).portmapper := by
    rw [Clients.session_get_session]
    split
    · exact hf _
    · exact ⟨rfl, rfl, rfl⟩
  have hd (d : Directory κ) : d.part.get ((Clients.session k).modify f s) = d.part.get s := by
    cases d with
    | ofSession k' => exact (hs k').2.2
    | own k' => rfl
  cases l with
  | mount k' => exact ⟨trivial, (hs k').1⟩
  | nfs k' => exact ⟨trivial, (hs k').2.1⟩
  | lookup d server => exact lookup_congr (hd d) h
  | own k' => exact ⟨trivial, rfl⟩

end Line

/-- What is ever done to clients: their lines are set, and escalate procedures, directories come to
know servers, and sessions mount and change their credential. -/
inductive Change : (Clients κ → Clients κ) → Prop where
  | listen (l : Line κ) (port : UInt16) (found : Option (List IpAddress)) :
    Change (l.part.modify (·.listen port found))
  | privilege (l : Line κ) (value : Bool) :
    Change (l.part.modify ({ · with privileged := value }))
  | escalate (l : Line κ) (procedure : UInt32) : Change (l.part.modify (·.escalate procedure))
  | store (d : Directory κ) (server : String) (fresh : Portmapper → Dispatcher) :
    Change (d.part.modify fun m => m.store server (fresh m))
  | session (k : κ) {f : Session → Session} :
    (∀ s, (f s).mountCalls = s.mountCalls ∧ (f s).nfsCalls = s.nfsCalls ∧
      (f s).portmapper = s.portmapper) → Change ((Clients.session k).modify f)

namespace Line

def SetsPort (l : Line κ) (f : Clients κ → Clients κ) : Prop :=
  ∃ port found, f = l.part.modify (·.listen port found)

def SetsPrivileged (l : Line κ) (f : Clients κ → Clients κ) : Prop :=
  ∃ value, f = l.part.modify ({ · with privileged := value })

/-- What a change leaves of a line. -/
structure Survives (l : Line κ) (f : Clients κ → Clients κ) (d d' : Dispatcher) : Prop where
  server : d'.server = d.server
  hashing : d'.hashing = d.hashing
  timeout : d'.timeout = d.timeout
  escalated : d.escalated ⊆ d'.escalated
  address : ¬ l.SetsPort f → d'.pool = d.pool ∧ d'.port = d.port
  privileged : ¬ l.SetsPrivileged f → d'.privileged = d.privileged

theorem Survives.refl (l : Line κ) (f : Clients κ → Clients κ) (d : Dispatcher) :
    l.Survives f d d :=
  ⟨rfl, rfl, rfl, List.Subset.refl _, fun _ => ⟨rfl, rfl⟩, fun _ => rfl⟩

theorem survives_modify {l l' : Line κ} {s : Clients κ} (h : l.Ready s)
    {f : Dispatcher → Dispatcher}
    (hf : l = l' → l.Survives (l'.part.modify f) (l.part.get s) (f (l.part.get s))) :
    l.Ready (l'.part.modify f s) ∧
      l.Survives (l'.part.modify f) (l.part.get s) (l.part.get (l'.part.modify f s)) := by
  obtain ⟨hr, hg⟩ := get_modify h l' f
  refine ⟨hr, ?_⟩
  rw [hg]
  split
  · rename_i hl
    exact hf hl
  · exact .refl _ _ _

theorem survives {l : Line κ} {s : Clients κ} {f : Clients κ → Clients κ} (hf : Change f)
    (h : l.Ready s) : l.Ready (f s) ∧ l.Survives f (l.part.get s) (l.part.get (f s)) := by
  cases hf with
  | listen l' port found =>
    refine survives_modify h fun hl =>
      ⟨rfl, rfl, rfl, List.Subset.refl _, fun hn => ?_, fun _ => rfl⟩
    exact (hn ⟨port, found, hl ▸ rfl⟩).elim
  | privilege l' value =>
    refine survives_modify h fun hl =>
      ⟨rfl, rfl, rfl, List.Subset.refl _, fun _ => ⟨rfl, rfl⟩, ?_⟩
    exact fun hn => (hn ⟨value, hl ▸ rfl⟩).elim
  | escalate l' procedure =>
    exact survives_modify h fun _ =>
      ⟨rfl, rfl, rfl, fun _ hm => List.mem_insert_of_mem hm, fun _ => ⟨rfl, rfl⟩, fun _ => rfl⟩
  | store d server fresh =>
    obtain ⟨hr, hg⟩ := get_store h d server fresh
    exact ⟨hr, hg ▸ .refl _ _ _⟩
  | session k hf =>
    obtain ⟨hr, hg⟩ := get_session h k hf
    exact ⟨hr, hg ▸ .refl _ _ _⟩

end Line
end Nfs3.Client
