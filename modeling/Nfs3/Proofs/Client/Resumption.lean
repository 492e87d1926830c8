import Nfs3.Proofs.Client.CallHead
import Nfs3.Proofs.Client.Calls
import Nfs3.Proofs.Client.Sends

/-!
How programs go on after what they send. What is left of a program once an answer has come says all
it can still do, whoever else changes the state it shares meanwhile.
-/
namespace Nfs3.Client
open Wire Rpc
variable {σ τ ε α β : Type} {env : Environment ε} {w w₁ : World σ ε}

def Action.Unsent (a : Action σ) : Prop := ∀ m, a ≠ .send m

theorem Action.Unsent.events {a : Action σ} (h : a.Unsent) (answer : a.Answer) (m : Transmission)
    (r : Except IoFailure Bytes) : .sent m r ∉ a.events answer := by
  cases a with
  | send m => exact (h m rfl).elim
  | _ => simp [Action.events]

namespace Program

/-- Whatever the program was answered before, `holds` of each message it sends, of what comes back,
and of the program that is left then. -/
def Resumes (holds : Transmission → Except IoFailure Bytes → Program σ α → Prop) :
    Program σ α → Prop
  | .done _ => True
  | .act a next => ∀ answer,
      (∀ m r, .sent m r ∈ a.events answer → holds m r (next answer)) ∧ (next answer).Resumes holds

section Resumes
variable {holds : Transmission → Except IoFailure Bytes → Program σ α → Prop} {p : Program σ α}

theorem Resumes.mono {holds' : Transmission → Except IoFailure Bytes → Program σ α → Prop}
    (h : p.Resumes holds) (hh : ∀ m r left, holds m r left → holds' m r left) :
    p.Resumes holds' := by
  induction p with
  | done v => trivial
  | act a next ih =>
    exact fun answer => ⟨fun m r hm => hh m r _ ((h answer).1 m r hm), ih answer (h answer).2⟩

theorem resumes_of_only (h : p.Only Action.Unsent) : p.Resumes holds := by
  induction p with
  | done v => trivial
  | act a next ih =>
    exact fun answer => ⟨fun m r hm => (h.1.events answer m r hm).elim, ih answer (h.2 answer)⟩

theorem resumes_bind {f : α → Program σ β}
    {holds : Transmission → Except IoFailure Bytes → Program σ β → Prop}
    (hp : p.Resumes fun m r left => holds m r (left.bind f)) (hf : ∀ v, (f v).Resumes holds) :
    (p.bind f).Resumes holds := by
  induction p with
  | done v => exact hf v
  | act a next ih => exact fun answer => ⟨(hp answer).1, ih answer (hp answer).2⟩

theorem resumes_onPart {part : Part σ τ} {p : Program τ α}
    (h : p.Resumes fun m r left => holds m r (left.onPart part)) :
    (p.onPart part).Resumes holds := by
  induction p with
  | done v => trivial
  | act a next ih =>
    cases a with
    | inspect => exact fun s => ⟨(h (part.get s)).1, ih _ (h (part.get s)).2⟩
    | _ => exact fun answer => ⟨(h answer).1, ih answer (h answer).2⟩

theorem resumes_locked
    (h : p.Resumes fun m r left =>
      holds m r (left.bind fun v => (ask .release).bind fun _ => done v)) :
    p.locked.Resumes holds := by
  refine resumes_bind (resumes_of_only (only_ask nofun)) fun _ => resumes_bind h fun v => ?_
  exact resumes_bind (resumes_of_only (only_ask nofun)) fun _ => trivial

end Resumes

/-- In a run of `p` from `w` the send `x` leads to the world `w₁`, and there `left` is left to
do. -/
structure Resumption (env : Environment ε) (p : Program σ α) (w : World σ ε) (x : Sending σ)
    (left : Program σ α) (w₁ : World σ ε) : Prop where
  client : w₁.client = x.seen
  last : w₁.log.getLast? = some (.sent x.message x.answer)
  run : p.run env w = left.run env w₁
  sendings : ∃ before, p.sendings env w = before ++ x :: left.sendings env w₁

theorem Resumption.bind_right {p : Program σ α} {f : α → Program σ β} {x : Sending σ}
    {left : Program σ β}
    (h : Resumption env (f (p.run env w).1) (p.run env w).2 x left w₁) :
    Resumption env (p.bind f) w x left w₁ where
  client := h.client
  last := h.last
  run := by rw [run_bind, h.run]
  sendings := by
    obtain ⟨before, hs⟩ := h.sendings
    exact ⟨p.sendings env w ++ before, by rw [sendings_bind, hs, List.append_assoc]⟩

theorem Resumption.task_bind {t : Task σ α} {f : α → Task σ β} {v : α} {w' : World σ ε}
    {x : Sending σ} {left : Program σ (Except ClientError β)}
    (ht : Task.exec env t w = (.ok v, w')) (h : Resumption env (ExceptT.run (f v)) w' x left w₁) :
    Resumption env (ExceptT.run (t >>= f)) w x left w₁ := by
  unfold Task.exec at ht
  have hb : Resumption env ((ExceptT.run t).bind (ExceptT.bindCont f)) w x left w₁ := by
    refine Resumption.bind_right ?_
    rw [ht]
    exact h
  exact hb

/-- What is so after every send whatever was answered is so after each send of a run. -/
theorem Resumes.exists_resumption
    {holds : Transmission → Except IoFailure Bytes → Program σ α → Prop} {p : Program σ α}
    (h : p.Resumes holds) {x : Sending σ} (hx : x ∈ p.sendings env w) :
    ∃ left w₁, Resumption env p w x left w₁ ∧ holds x.message x.answer left := by
  induction p generalizing w with
  | done v => exact (List.not_mem_nil hx).elim
  | act a next ih =>
    obtain hx | hx := List.mem_append.1 hx
    · cases a with
      | send m =>
        obtain rfl := List.mem_singleton.1 hx
        refine ⟨_, (w.answer env (.send m)).2, ⟨rfl, ?_, rfl, [], rfl⟩, ?_⟩
        · rw [World.answer_log]
          exact List.getLast?_concat
        · exact (h (w.answer env (.send m)).1).1 m _ List.mem_cons_self
      | _ => exact (List.not_mem_nil hx).elim
    · obtain ⟨left, w₁, hr, hh⟩ := ih _ (h _).2 hx
      obtain ⟨before, hs⟩ := hr.sendings
      let first := a.sendings w.client (w.answer env a).1
      refine ⟨left, w₁, ⟨hr.client, hr.last, hr.run, first ++ before, ?_⟩, hh⟩
      rw [sendings, hs, List.append_assoc]

end Program

namespace Task

def Resumes (holds : Transmission → Except IoFailure Bytes → Task σ α → Prop) (t : Task σ α) :
    Prop :=
  Program.Resumes holds (ExceptT.run t)

variable {holds : Transmission → Except IoFailure Bytes → Task σ β → Prop}

theorem resumes_bind {t : Task σ α} {f : α → Task σ β}
    (ht : t.Resumes fun m r left => holds m r (left >>= f)) (hf : ∀ v, (f v).Resumes holds) :
    (t >>= f).Resumes holds := by
  refine Program.resumes_bind ht fun r => ?_
  cases r with
  | ok v => exact hf v
  | error e => trivial

theorem resumes_lift_bind {p : Program σ α} {f : α → Task σ β}
    (hp : p.Resumes fun m r left => holds m r (lift left >>= f))
    (hf : ∀ v, (f v).Resumes holds) : (lift p >>= f).Resumes holds := by
  refine resumes_bind (Program.resumes_bind hp fun v => ?_) hf
  trivial

theorem resumes_unsent_bind {p : Program σ α} {f : α → Task σ β} (hp : p.Only Action.Unsent)
    (hf : ∀ v, (f v).Resumes holds) : (lift p >>= f).Resumes holds :=
  resumes_lift_bind (Program.resumes_of_only hp) hf

theorem resumes_send_bind {m : Transmission} {f : Except IoFailure Bytes → Task σ β}
    (hm : ∀ r, holds m r (f r)) (hf : ∀ r, (f r).Resumes holds) :
    (lift (.send m) >>= f).Resumes holds := by
  refine resumes_lift_bind (fun r => ⟨fun m' r' h => ?_, trivial⟩) hf
  obtain ⟨rfl, rfl⟩ := Event.sent.inj (List.mem_singleton.1 h)
  exact hm r'

theorem resumes_ofExcept (x : Except ClientError β) : (ofExcept x : Task σ β).Resumes holds := by
  cases x <;> trivial

theorem resumes_ofExcept_bind {x : Except ClientError α} {f : α → Task σ β}
    (hf : ∀ v, x = .ok v → (f v).Resumes holds) : (ofExcept x >>= f).Resumes holds := by
  cases x with
  | ok v => exact hf v rfl
  | error e => trivial

theorem resumes_onPart {part : Part σ τ} {t : Task τ β}
    (h : t.Resumes fun m r left => holds m r (left.onPart part)) : (t.onPart part).Resumes holds :=
  Program.resumes_onPart h

end Task

namespace Dispatcher
variable {Args Reply : Type} {p : Procedure Args Reply} {r : Request Args} {host : String}
  {privileged : Bool}

/-- Sent is the request, and if a reply can be read in what comes back, nothing is left to do but to
hand it on. -/
def Concludes (p : Procedure Args Reply) (r : Request Args) (m : Transmission)
    (answer : Except IoFailure Bytes) (left : Task σ Reply) : Prop :=
  (∃ stamp, r.segments p stamp = .ok m.segments) ∧
    ∀ reply, (∀ server, r.judge p server answer = .ok reply) → left = pure reply

theorem Concludes.lift_bind {m : Transmission} {answer : Except IoFailure Bytes}
    {left : Task σ Reply} {f : Except ClientError Reply → Task σ Reply}
    (h : Concludes p r m answer left) (hf : ∀ reply, f (.ok reply) = pure reply) :
    Concludes p r m answer (Task.lift (ExceptT.run left) >>= f) := by
  refine ⟨h.1, fun reply hr => ?_⟩
  rw [h.2 reply hr]
  exact hf reply

theorem resumes_callOnce : (callOnce p r host privileged).Resumes (Concludes p r) := by
  refine Task.resumes_unsent_bind (Program.only_ask nofun) fun stamp => ?_
  refine Task.resumes_ofExcept_bind fun segments hs => ?_
  refine Task.resumes_unsent_bind (Program.only_ask nofun) fun d => ?_
  refine Task.resumes_send_bind (fun answer => ⟨⟨stamp, hs⟩, fun reply hr => ?_⟩) fun answer => ?_
  · cases answer with
    | error cause => cases hr d.server
    | ok bytes =>
      have hj : r.readReply p d.server bytes = .ok reply := hr d.server
      simp only [hj]
      rfl
  · cases answer with
    | error cause => trivial
    | ok bytes => exact Task.resumes_ofExcept _

theorem resumes_attempt : (attempt p r).Resumes (Concludes p r) := by
  refine Task.resumes_unsent_bind (Program.only_ask nofun) fun d => ?_
  refine Task.resumes_ofExcept_bind fun host _ => ?_
  refine Task.resumes_lift_bind (resumes_callOnce.mono fun _ _ _ h => ?_) fun result => ?_
  · exact h.lift_bind fun _ => rfl
  · split
    · trivial
    · split
      · trivial
      · refine Task.resumes_unsent_bind (Program.only_ask nofun) fun _ => ?_
        refine Task.resumes_unsent_bind (Program.only_ask nofun) fun d => ?_
        exact Task.resumes_ofExcept_bind fun host _ => resumes_callOnce
    · trivial

theorem resumes_attempts_step {left failures : Nat}
    (h : ∀ k, left = k + 1 →
      (attempts p r acceptAny k (failures + 1)).Resumes (Concludes p r)) :
    (attempts p r acceptAny left failures).Resumes (Concludes p r) := by
  rw [attempts.eq_def]
  refine Task.resumes_lift_bind (resumes_attempt.mono fun _ _ _ h => ?_) fun result => ?_
  · exact h.lift_bind fun _ => rfl
  · cases result with
    | ok reply => trivial
    | error e =>
      simp only
      split
      · cases left with
        | zero => trivial
        | succ k =>
          refine Task.resumes_unsent_bind (Program.only_ask nofun) fun d => ?_
          exact Task.resumes_unsent_bind (Program.only_ask nofun) fun _ => h k rfl
      · trivial

theorem resumes_attempts (left failures : Nat) :
    (attempts p r acceptAny left failures).Resumes (Concludes p r) := by
  induction left generalizing failures with
  | zero => exact resumes_attempts_step nofun
  | succ left ih =>
    refine resumes_attempts_step fun k hk => ?_
    cases hk
    exact ih (failures + 1)

theorem resumes_call : (call p r acceptAny).Resumes (Concludes p r) :=
  Task.resumes_unsent_bind (Program.only_ask nofun) fun _ => resumes_attempts _ 0

theorem resumes_call_program (hp : p.Regular) : (call p r acceptAny).Resumes
    fun m _ _ => m.program = p.service.program :=
  resumes_call.mono fun _ _ _ h =>
    let ⟨_, hs⟩ := h.1
    (Request.names_of_segments hp hs).1

end Dispatcher
end Nfs3.Client
