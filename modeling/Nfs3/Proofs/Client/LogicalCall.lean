import Nfs3.Proofs.Client.Clients
import Nfs3.Proofs.Client.Restamping

/-!
What a program keeps to while it calls. Each id it draws is for one request over one line. What it
sends before it draws again are attempts of this request, addressed by what the line showed since
the attempt before.
-/
namespace Nfs3.Client
open Rpc
variable {κ σ τ α β : Type}

structure LogicalCall (κ : Type) : Type 1 where
  line : Line κ
  {Args : Type}
  {Reply : Type}
  procedure : Procedure Args Reply
  uniform : procedure.Uniform
  request : Request Args

/-- The call a program is at, and what it has seen and changed since the latest attempt. -/
structure Progress (κ : Type) : Type 1 where
  call : Option (LogicalCall κ) := none
  seen : List (Clients κ) := []
  made : List (Clients κ → Clients κ) := []

variable [DecidableEq κ]

namespace LogicalCall

def dispatcher (c : LogicalCall κ) (s : Clients κ) : Dispatcher := c.line.part.get s

def escalation (c : LogicalCall κ) : Clients κ → Clients κ :=
  c.line.part.modify (·.escalate c.procedure.number)

/-- `m` is an attempt of the call, each part of it taken from the line at some moment. -/
structure Attempted (c : LogicalCall κ) (g : Progress κ) (m : Transmission) : Prop where
  form : ∃ stamp, c.request.segments c.procedure stamp = .ok m.segments
  host : ∃ s ∈ g.seen, (c.dispatcher s).chooseHost c.request.routingKey = .ok m.host
  port : ∃ s ∈ g.seen, m.port = (c.dispatcher s).port ∧ m.timeout = (c.dispatcher s).timeout
  privileged : (∃ s ∈ g.seen,
      m.privileged = (c.dispatcher s).usesPrivilegedPort c.procedure.number) ∨
    m.privileged = true ∧ c.escalation ∈ g.made

/-- The call may be begun: its directory knows the server, and what is to be released was mounted
by the call before, with the same credential. -/
structure Admitted (c : LogicalCall κ) (g : Progress κ) : Prop where
  ready : ∀ d server, c.line = .lookup d server → (∃ s ∈ g.seen, c.line.Ready s) ∨
    ∃ fresh : Portmapper → Dispatcher, (d.part.modify fun m => m.store server (fresh m)) ∈ g.made
  release : ∀ k, c.line = .mount k → c.procedure.number = MountNumber.unmount.code →
    ∃ c₀, g.call = some c₀ ∧ c₀.line = .mount k ∧
      c₀.procedure.number = MountNumber.mount.code ∧ c₀.request.credential = c.request.credential

theorem Admitted.of_ne {c : LogicalCall κ} {g : Progress κ}
    (hl : ∀ d server, c.line ≠ .lookup d server)
    (hm : ∀ k, c.line = .mount k → c.procedure.number ≠ MountNumber.unmount.code) :
    c.Admitted g :=
  ⟨fun d server h => (hl d server h).elim, fun k h hn => (hm k h hn).elim⟩

end LogicalCall

/-- Whatever it is answered, the program draws ids for calls that are `ok` and begins these as it
may, sends attempts of the call it is at, and changes clients as calls do. -/
def Program.Conducts (ok : LogicalCall κ → Prop) (part : Part (Clients κ) τ)
    (post : α → Progress κ → Prop) : Program τ α → Progress κ → Prop
  | .done v, g => post v g
  | .act (.send m) next, g => (∃ c, g.call = some c ∧ c.Attempted g m) ∧
      ∀ r, (next r).Conducts ok part post { call := g.call }
  | .act .freshXid next, g => ∀ x, ∃ c, ok c ∧ c.request.xid = x ∧ c.Admitted g ∧
      (next x).Conducts ok part post { call := some c }
  | .act .inspect next, g =>
      ∀ s, (next (part.get s)).Conducts ok part post { g with seen := s :: g.seen }
  | .act (.update f) next, g => Change (part.modify f) ∧
      (next ()).Conducts ok part post { g with made := part.modify f :: g.made }
  | .act (.discover ..) next, g => ∀ r, (next r).Conducts ok part post g
  | .act (.lookup ..) next, g => ∀ r, (next r).Conducts ok part post g
  | .act (.sleep _) next, g => ∀ r, (next r).Conducts ok part post g
  | .act .timestamp next, g => ∀ r, (next r).Conducts ok part post g
  | .act .acquire next, g => ∀ r, (next r).Conducts ok part post g
  | .act .release next, g => ∀ r, (next r).Conducts ok part post g

namespace Program.Conducts
variable {ok : LogicalCall κ → Prop} {part : Part (Clients κ) τ} {g : Progress κ}

theorem bind {mid : α → Progress κ → Prop} {post : β → Progress κ → Prop} {p : Program τ α}
    {f : α → Program τ β} (h : p.Conducts ok part mid g)
    (hf : ∀ v g, mid v g → (f v).Conducts ok part post g) :
    (p.bind f).Conducts ok part post g := by
  induction p generalizing g with
  | done v => exact hf v g h
  | act a next ih =>
    cases a with
    | send m => exact ⟨h.1, fun r => ih r (h.2 r)⟩
    | freshXid =>
      intro x
      obtain ⟨c, hok, hx, hc, h⟩ := h x
      exact ⟨c, hok, hx, hc, ih x h⟩
    | inspect => exact fun s => ih _ (h s)
    | update f => exact ⟨h.1, ih () h.2⟩
    | _ => exact fun r => ih r (h r)

theorem mono {post post' : α → Progress κ → Prop} {p : Program τ α}
    (h : p.Conducts ok part post g) (hp : ∀ v g, post v g → post' v g) :
    p.Conducts ok part post' g := by
  have hb : (p.bind .done).Conducts ok part post' g := h.bind hp
  rwa [Program.bind_done] at hb

theorem onPart {post : α → Progress κ → Prop} {inner : Part τ σ} {p : Program σ α}
    (h : p.Conducts ok (part.comp inner) post g) : (p.onPart inner).Conducts ok part post g := by
  induction p generalizing g with
  | done v => exact h
  | act a next ih =>
    cases a with
    | send m => exact ⟨h.1, fun r => ih r (h.2 r)⟩
    | freshXid =>
      intro x
      obtain ⟨c, hok, hx, hc, h⟩ := h x
      exact ⟨c, hok, hx, hc, ih x h⟩
    | inspect => exact fun s => ih _ (h s)
    | update f => exact ⟨h.1, ih () h.2⟩
    | _ => exact fun r => ih r (h r)

theorem inspect_bind {post : β → Progress κ → Prop} {f : τ → Program τ β}
    (h : ∀ s, (f (part.get s)).Conducts ok part post { g with seen := s :: g.seen }) :
    (Program.inspect >>= f).Conducts ok part post g := h

end Program.Conducts

namespace Task

def Conducts (ok : LogicalCall κ → Prop) (part : Part (Clients κ) τ)
    (post : Except ClientError α → Progress κ → Prop) (t : Task τ α) (g : Progress κ) : Prop :=
  Program.Conducts ok part post (ExceptT.run t) g

namespace Conducts
variable {ok : LogicalCall κ → Prop} {part : Part (Clients κ) τ} {g : Progress κ}
  {post : Except ClientError β → Progress κ → Prop}

theorem bind {mid : Except ClientError α → Progress κ → Prop} {t : Task τ α} {f : α → Task τ β}
    (h : t.Conducts ok part mid g) (hf : ∀ v g, mid (.ok v) g → (f v).Conducts ok part post g)
    (he : ∀ e g, mid (.error e) g → post (.error e) g) :
    (t >>= f).Conducts ok part post g := by
  refine Program.Conducts.bind h fun r g hm => ?_
  cases r with
  | ok v => exact hf v g hm
  | error e => exact he e g hm

theorem forget {t : Task τ β} (h : t.Conducts ok part post g) :
    t.Conducts ok part (fun _ _ => True) g :=
  Program.Conducts.mono h fun _ _ _ => trivial

theorem lift_bind {mid : α → Progress κ → Prop} {p : Program τ α} {f : α → Task τ β}
    (h : p.Conducts ok part mid g) (hf : ∀ v g, mid v g → (f v).Conducts ok part post g) :
    (Task.lift p >>= f).Conducts ok part post g := by
  have hl : (Task.lift p).Conducts ok part (fun r g => ∃ v, r = .ok v ∧ mid v g) g :=
    Program.Conducts.bind h fun v g hm => ⟨v, rfl, hm⟩
  refine hl.bind (fun v g hm => ?_) fun e g hm => ?_
  · obtain ⟨u, hu, hm⟩ := hm
    cases hu
    exact hf v g hm
  · obtain ⟨u, hu, -⟩ := hm
    cases hu

theorem inspect_bind {f : τ → Task τ β}
    (h : ∀ s, (f (part.get s)).Conducts ok part post { g with seen := s :: g.seen }) :
    (Task.lift .inspect >>= f).Conducts ok part post g := h

theorem timestamp_bind {f : UInt32 → Task τ β} (h : ∀ t, (f t).Conducts ok part post g) :
    (Task.lift .timestamp >>= f).Conducts ok part post g := h

theorem sleep_bind {pause : Duration} {f : Unit → Task τ β}
    (h : (f ()).Conducts ok part post g) :
    (Task.lift (.sleep pause) >>= f).Conducts ok part post g := fun _ => h

theorem update_bind {change : τ → τ} {f : Unit → Task τ β} (hc : Change (part.modify change))
    (h : (f ()).Conducts ok part post { g with made := part.modify change :: g.made }) :
    (Task.lift (.update change) >>= f).Conducts ok part post g := ⟨hc, h⟩

theorem ofExcept_bind {r : Except ClientError α} {f : α → Task τ β}
    (hf : ∀ v, r = .ok v → (f v).Conducts ok part post g)
    (he : ∀ e, r = .error e → post (.error e) g) :
    (Task.ofExcept r >>= f).Conducts ok part post g := by
  cases r with
  | ok v => exact hf v rfl
  | error e => exact he e rfl

theorem ofExcept {r : Except ClientError β} (h : post r g) :
    (Task.ofExcept r).Conducts ok part post g := by
  cases r <;> exact h

end Conducts
end Task

namespace Dispatcher
variable {ok : LogicalCall κ → Prop} {c : LogicalCall κ} {g : Progress κ} {host : String}
  {privileged : Bool}

def At (c : LogicalCall κ) (_ : α) (g : Progress κ) : Prop := g.call = some c

theorem conducts_callOnce (hg : g.call = some c)
    (hh : ∃ s ∈ g.seen, (c.dispatcher s).chooseHost c.request.routingKey = .ok host)
    (hp : (∃ s ∈ g.seen, privileged = (c.dispatcher s).usesPrivilegedPort c.procedure.number) ∨
      privileged = true ∧ c.escalation ∈ g.made) :
    (callOnce c.procedure c.request host privileged).Conducts ok c.line.part (At c) g := by
  refine .timestamp_bind fun stamp => .ofExcept_bind (fun segments hs => ?_) fun e _ => hg
  refine .inspect_bind fun s => ?_
  refine ⟨⟨c, hg, ⟨stamp, hs⟩, ?_, ⟨s, List.mem_cons_self, rfl, rfl⟩, ?_⟩, fun r => ?_⟩
  · obtain ⟨s, hm, hs⟩ := hh
    exact ⟨s, List.mem_cons_of_mem _ hm, hs⟩
  · obtain ⟨s, hm, hs⟩ | hm := hp
    · exact .inl ⟨s, List.mem_cons_of_mem _ hm, hs⟩
    · exact .inr hm
  · cases r with
    | error cause => exact hg
    | ok reply => exact Task.Conducts.ofExcept hg

theorem conducts_attempt (hg : g.call = some c) :
    (attempt c.procedure c.request).Conducts ok c.line.part (At c) g := by
  refine .inspect_bind fun s => .ofExcept_bind (fun host hh => ?_) fun e _ => hg
  refine .lift_bind (conducts_callOnce hg ⟨s, List.mem_cons_self, hh⟩
    (.inl ⟨s, List.mem_cons_self, rfl⟩)) fun r g hg => ?_
  split
  · exact hg
  · split
    · exact hg
    · refine .update_bind (.escalate c.line _) (.inspect_bind fun s => ?_)
      refine .ofExcept_bind (fun host hh => ?_) fun e _ => hg
      exact conducts_callOnce hg ⟨s, List.mem_cons_self, hh⟩ (.inr ⟨rfl, List.mem_cons_self⟩)
  · exact hg

variable {validate : c.Args → c.Reply → Except ClientError Unit}

theorem conducts_attempts_step {left failures : Nat} (hg : g.call = some c)
    (hk : ∀ k g, left = k + 1 → g.call = some c →
      (attempts c.procedure c.request validate k (failures + 1)).Conducts ok c.line.part (At c) g) :
    (attempts c.procedure c.request validate left failures).Conducts ok c.line.part (At c) g := by
  rw [attempts.eq_def]
  refine .lift_bind (conducts_attempt hg) fun r g hg => ?_
  cases r with
  | ok reply => exact .ofExcept_bind (fun _ _ => hg) fun _ _ => hg
  | error e =>
    simp only
    split
    · cases left with
      | zero => exact hg
      | succ k => exact .inspect_bind fun s => .sleep_bind (hk k _ rfl hg)
    · exact hg

theorem conducts_attempts (left failures : Nat) (hg : g.call = some c) :
    (attempts c.procedure c.request validate left failures).Conducts ok c.line.part (At c) g := by
  induction left generalizing failures g with
  | zero => exact conducts_attempts_step hg nofun
  | succ left ih =>
    refine conducts_attempts_step hg fun k g hk hg => ?_
    cases hk
    exact ih (failures + 1) hg

theorem conducts_call (hg : g.call = some c) :
    (call c.procedure c.request validate).Conducts ok c.line.part (At c) g :=
  .inspect_bind fun _ => conducts_attempts _ 0 hg

end Dispatcher
end Nfs3.Client
