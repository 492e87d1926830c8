import Nfs3.Proofs.Client.Run

/-!
What a program may do whatever it is answered: the actions it asks for, and the events it leaves
behind on the way to a result.
-/
namespace Nfs3.Client
variable {σ τ ε α β : Type} {env : Environment ε} {w w' : World σ ε} {view : σ → β}

def Action.events : (a : Action σ) → a.Answer → List Event
  | .send m, answer => [.sent m answer]
  | .discover server port, answer => [.discovered server port answer]
  | .lookup server service, answer => [.lookedUp server service answer]
  | .sleep d, _ => [.slept d]
  | _, _ => []

theorem World.answer_log (w : World σ ε) (a : Action σ) :
    (w.answer env a).2.log = w.log ++ a.events (w.answer env a).1 := by
  cases a <;> simp [World.answer, World.record, Action.events]

def Action.Keeps (view : σ → β) : Action σ → Prop
  | .update f => ∀ s, view (f s) = view s
  | _ => True

theorem Action.keeps_of_ne_update {a : Action σ} (h : ∀ f, a ≠ .update f) : a.Keeps view := by
  cases a with
  | update f => exact (h f rfl).elim
  | _ => trivial

def Action.Preserves (inv : σ → Prop) : Action σ → Prop
  | .update f => ∀ s, inv s → inv (f s)
  | _ => True

theorem Action.preserves_of_ne_update {inv : σ → Prop} {a : Action σ} (h : ∀ f, a ≠ .update f) :
    a.Preserves inv := by
  cases a with
  | update f => exact (h f rfl).elim
  | _ => trivial

theorem World.keeps_answer (env : Environment ε) {a : Action σ} (h : a.Keeps view)
    (w : World σ ε) : view (w.answer env a).2.client = view w.client := by
  cases a with
  | update f => exact h w.client
  | _ => rfl

def Action.LockFree : Action σ → Prop
  | .acquire | .release => False
  | _ => True

namespace Program

/-- The program may come to a value with these events. -/
inductive Trace : Program σ α → List Event → α → Prop where
  | done (v : α) : Trace (.done v) [] v
  | act {a : Action σ} {next : a.Answer → Program σ α} {answer : a.Answer} {es : List Event}
      {v : α} : Trace (next answer) es v → Trace (.act a next) (a.events answer ++ es) v

theorem run_trace (env : Environment ε) (p : Program σ α) (w : World σ ε) :
    ∃ es, Trace p es (p.run env w).1 ∧ (p.run env w).2.log = w.log ++ es := by
  induction p generalizing w with
  | done v => exact ⟨[], .done v, (List.append_nil _).symm⟩
  | act a next ih =>
    obtain ⟨es, ht, hl⟩ := ih (w.answer env a).1 (w.answer env a).2
    refine ⟨_, .act ht, ?_⟩
    rw [run, hl, World.answer_log, List.append_assoc]

theorem Trace.of_bind {p : Program σ α} {f : α → Program σ β} {es : List Event} {v : β}
    (h : Trace (p.bind f) es v) :
    ∃ es₁ u es₂, Trace p es₁ u ∧ Trace (f u) es₂ v ∧ es = es₁ ++ es₂ := by
  induction p generalizing es with
  | done u => exact ⟨[], u, es, .done u, h, rfl⟩
  | act a next ih =>
    cases h with
    | act h =>
      obtain ⟨es₁, u, es₂, hp, hf, rfl⟩ := ih _ h
      exact ⟨_, u, es₂, .act hp, hf, (List.append_assoc ..).symm⟩

theorem Trace.of_onPart {part : Part σ τ} {p : Program τ α} {es : List Event} {v : α}
    (h : Trace (p.onPart part) es v) : Trace p es v := by
  induction p generalizing es with
  | done u =>
    cases h
    exact .done _
  | act a next ih =>
    cases a with
    | inspect =>
      cases h with
      | act h => exact .act (a := .inspect) (ih _ h)
    | update f =>
      cases h with
      | act h => exact .act (a := .update f) (ih _ h)
    | _ =>
      cases h with
      | act h => exact .act (ih _ h)

/-- Whatever the program is answered, it asks for nothing but what is `ok`. -/
def Only (ok : Action σ → Prop) : Program σ α → Prop
  | .done _ => True
  | .act a next => ok a ∧ ∀ answer, (next answer).Only ok

variable {ok : Action σ → Prop}

theorem only_bind {p : Program σ α} {f : α → Program σ β} (hp : p.Only ok)
    (hf : ∀ v, (f v).Only ok) : (p.bind f).Only ok := by
  induction p with
  | done v => exact hf v
  | act a next ih => exact ⟨hp.1, fun answer => ih answer (hp.2 answer)⟩

theorem only_ask {a : Action σ} (h : ok a) : (ask a).Only ok := ⟨h, fun _ => trivial⟩

theorem only_true (p : Program σ α) : p.Only fun _ => True := by
  induction p with
  | done v => trivial
  | act a next ih => exact ⟨trivial, ih⟩

theorem only_mono {ok' : Action σ → Prop} {p : Program σ α} (h : p.Only ok)
    (hok : ∀ a, ok a → ok' a) : p.Only ok' := by
  induction p with
  | done v => trivial
  | act a next ih => exact ⟨hok a h.1, fun answer => ih answer (h.2 answer)⟩

theorem only_and {ok' : Action σ → Prop} {p : Program σ α} (h : p.Only ok) (h' : p.Only ok') :
    p.Only fun a => ok a ∧ ok' a := by
  induction p with
  | done v => trivial
  | act a next ih => exact ⟨⟨h.1, h'.1⟩, fun answer => ih answer (h.2 answer) (h'.2 answer)⟩

theorem lockFree_onPart {part : Part σ τ} {p : Program τ α} (hp : p.Only Action.LockFree) :
    (p.onPart part).Only Action.LockFree := by
  induction p with
  | done v => trivial
  | act a next ih =>
    cases a with
    | acquire => exact hp.1.elim
    | release => exact hp.1.elim
    | inspect => exact ⟨trivial, fun _ => ih _ (hp.2 _)⟩
    | _ => exact ⟨trivial, fun answer => ih answer (hp.2 answer)⟩

theorem only_onPart {part : Part σ τ} {ok' : Action τ → Prop} {p : Program τ α} (hp : p.Only ok')
    (hu : ∀ f, ok' (.update f) → ok (.update (part.modify f)))
    (ho : ∀ a, (∀ f, a ≠ .update f) → ok a) : (p.onPart part).Only ok := by
  induction p with
  | done v => trivial
  | act a next ih =>
    cases a with
    | update f => exact ⟨hu f hp.1, fun answer => ih answer (hp.2 answer)⟩
    | inspect => exact ⟨ho _ nofun, fun answer => ih _ (hp.2 _)⟩
    | _ => exact ⟨ho _ nofun, fun answer => ih answer (hp.2 answer)⟩

theorem keeps_run (view : σ → β) {p : Program σ α} {v : α} (h : p.Only (Action.Keeps view))
    (hx : p.run env w = (v, w')) : view w'.client = view w.client := by
  induction p generalizing w with
  | done u =>
    cases hx
    rfl
  | act a next ih => exact (ih _ (h.2 _) hx).trans (World.keeps_answer env h.1 w)

theorem preserves_run {inv : σ → Prop} {p : Program σ α} (h : p.Only (Action.Preserves inv))
    (hw : inv w.client) : inv (p.run env w).2.client := by
  induction p generalizing w with
  | done v => exact hw
  | act a next ih =>
    refine ih _ (h.2 _) ?_
    cases a with
    | update f => exact h.1 _ hw
    | _ => exact hw

theorem keeps_onPart {part : Part σ τ} {ok : Action τ → Prop} {p : Program τ α}
    (hp : p.Only ok) (h : ∀ f s, ok (.update f) → view (part.modify f s) = view s) :
    (p.onPart part).Only (Action.Keeps view) :=
  only_onPart hp (fun f hf s => h f s hf) fun _ => Action.keeps_of_ne_update

end Program

namespace Task
variable {t : Task σ α} {f : α → Task σ β} {es : List Event}

/-- The task may come to a result with these events. -/
def Trace (t : Task σ α) (es : List Event) (r : Except ClientError α) : Prop :=
  Program.Trace (ExceptT.run t) es r

def Only (ok : Action σ → Prop) (t : Task σ α) : Prop := Program.Only ok (ExceptT.run t)

theorem exec_trace {r : Except ClientError α} (h : exec env t w = (r, w')) :
    ∃ es, Trace t es r ∧ w'.log = w.log ++ es := by
  obtain ⟨es, ht, hl⟩ := Program.run_trace env (ExceptT.run t) w
  unfold exec at h
  rw [h] at ht hl
  exact ⟨es, ht, hl⟩

theorem exec_lift_cases {p : Program σ α} {g : α → Task σ β} {r : Except ClientError β}
    (h : exec env (lift p >>= g) w = (r, w')) :
    ∃ v w₁ es, p.run env w = (v, w₁) ∧ Program.Trace p es v ∧ w₁.log = w.log ++ es ∧
      exec env (g v) w₁ = (r, w') := by
  obtain ⟨es, ht, hl⟩ := Program.run_trace env p w
  rw [exec_lift_bind] at h
  exact ⟨_, _, es, rfl, ht, hl, h⟩

theorem Trace.of_pure {u : α} {r : Except ClientError α} (h : Trace (pure u : Task σ α) es r) :
    r = .ok u := by
  cases h
  rfl

theorem Trace.of_throw {e : ClientError} {r : Except ClientError α}
    (h : Trace (throw e : Task σ α) es r) : r = .error e := by
  cases h
  rfl

theorem Trace.of_ofExcept {x r : Except ClientError α} (h : Trace (ofExcept x : Task σ α) es r) :
    r = x := by
  cases x with
  | ok u => exact h.of_pure
  | error e => exact h.of_throw

theorem Trace.of_lift {p : Program σ α} {r : Except ClientError α} (h : Trace (lift p) es r) :
    ∃ u, r = .ok u ∧ Program.Trace p es u := by
  obtain ⟨es₁, u, es₂, hp, hd, rfl⟩ := Program.Trace.of_bind h
  cases hd
  exact ⟨u, rfl, by simpa using hp⟩

theorem Trace.of_bind_ok {v : β} (h : Trace (t >>= f) es (.ok v)) :
    ∃ es₁ u es₂, Trace t es₁ (.ok u) ∧ Trace (f u) es₂ (.ok v) ∧ es = es₁ ++ es₂ := by
  obtain ⟨es₁, r, es₂, ht, hf, rfl⟩ := Program.Trace.of_bind h
  cases r with
  | ok u => exact ⟨es₁, u, es₂, ht, hf, rfl⟩
  | error e => cases hf

theorem Trace.of_bind {r : Except ClientError β} (h : Trace (t >>= f) es r) :
    (∃ e, Trace t es (.error e) ∧ r = .error e) ∨
      ∃ es₁ u es₂, Trace t es₁ (.ok u) ∧ Trace (f u) es₂ r ∧ es = es₁ ++ es₂ := by
  obtain ⟨es₁, v, es₂, ht, hf, rfl⟩ := Program.Trace.of_bind h
  cases v with
  | ok u => exact .inr ⟨es₁, u, es₂, ht, hf, rfl⟩
  | error e =>
    cases hf
    exact .inl ⟨e, by rwa [List.append_nil], rfl⟩

theorem Trace.of_ask_bind {a : Action σ} {f : a.Answer → Task σ β} {r : Except ClientError β}
    (h : Trace (lift (.ask a) >>= f) es r) :
    ∃ answer es₁, Trace (f answer) es₁ r ∧ es = a.events answer ++ es₁ := by
  cases h with
  | act h => exact ⟨_, _, h, rfl⟩

theorem Trace.done_of_ofExcept {x r : Except ClientError α}
    (h : Trace (ofExcept x : Task σ α) es r) : es = [] ∧ r = x := by
  cases x <;> (cases h; exact ⟨rfl, rfl⟩)

theorem Trace.of_ofExcept_bind {x : Except ClientError α} {r : Except ClientError β}
    (h : Trace (ofExcept x >>= f) es r) :
    (∃ e, x = .error e ∧ es = [] ∧ r = .error e) ∨ ∃ u, x = .ok u ∧ Trace (f u) es r := by
  cases x with
  | ok u => exact .inr ⟨u, rfl, h⟩
  | error e =>
    cases h
    exact .inl ⟨e, rfl, rfl, rfl⟩

theorem Trace.of_lift_bind {p : Program σ α} {r : Except ClientError β}
    (h : Trace (lift p >>= f) es r) :
    ∃ es₁ u es₂, Program.Trace p es₁ u ∧ Trace (f u) es₂ r ∧ es = es₁ ++ es₂ := by
  obtain ⟨e, hp, -⟩ | ⟨es₁, u, es₂, hp, hf, rfl⟩ := Trace.of_bind h
  · obtain ⟨_, he, -⟩ := hp.of_lift
    cases he
  · obtain ⟨_, he, hp⟩ := hp.of_lift
    cases he
    exact ⟨es₁, _, es₂, hp, hf, rfl⟩

variable {ok : Action σ → Prop}

theorem only_bind (ht : Only ok t) (hf : ∀ v, Only ok (f v)) : Only ok (t >>= f) := by
  refine Program.only_bind ht fun r => ?_
  cases r with
  | ok v => exact hf v
  | error e => trivial

theorem only_lift {p : Program σ α} (h : p.Only ok) : Only ok (lift p) :=
  Program.only_bind h fun _ => trivial

theorem only_ofExcept (x : Except ClientError α) : Only ok (ofExcept x : Task σ α) := by
  cases x <;> trivial

theorem keeps_exec (view : σ → β) {t : Task σ α} {r : Except ClientError α}
    (h : Only (Action.Keeps view) t) (hx : exec env t w = (r, w')) :
    view w'.client = view w.client :=
  Program.keeps_run view h hx

end Task
end Nfs3.Client
