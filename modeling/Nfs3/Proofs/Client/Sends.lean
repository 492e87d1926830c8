import Nfs3.Proofs.Client.Retry
import Nfs3.Proofs.Client.Trace

/-!
What a program sends, with the state it shares with others as it was at each send, and the
transaction ids it draws. A record of events alone does not tell what a sender knew.
-/
namespace Nfs3.Client
variable {σ τ ε α β : Type} {env : Environment ε} {w w' : World σ ε}

structure Sending (σ : Type) where
  seen : σ
  message : Transmission
  answer : Except IoFailure Bytes

def Sending.exchange (x : Sending σ) : Exchange := ⟨x.message, x.answer⟩

def Action.sendings (seen : σ) : (a : Action σ) → a.Answer → List (Sending σ)
  | .send m, answer => [⟨seen, m, answer⟩]
  | _, _ => []

/-- The sends of a run from `w`, oldest first. -/
def Program.sendings (env : Environment ε) : Program σ α → World σ ε → List (Sending σ)
  | .done _, _ => []
  | .act a next, w => a.sendings w.client (w.answer env a).1 ++
      (next (w.answer env a).1).sendings env (w.answer env a).2

def Action.ids : (a : Action σ) → a.Answer → List UInt32
  | .freshXid, x => [x]
  | _, _ => []

structure Action.Free (a : Action σ) : Prop where
  ids : ∀ answer, a.ids answer = []
  sendings : ∀ seen answer, a.sendings seen answer = []

/-- The ids drawn in a run from `w`, one for each logical call. -/
def Program.ids (env : Environment ε) : Program σ α → World σ ε → List UInt32
  | .done _, _ => []
  | .act a next, w => a.ids (w.answer env a).1 ++
      (next (w.answer env a).1).ids env (w.answer env a).2

namespace Program

theorem ids_bind (p : Program σ α) (f : α → Program σ β) (w : World σ ε) :
    (p.bind f).ids env w = p.ids env w ++ (f (p.run env w).1).ids env (p.run env w).2 := by
  induction p generalizing w with
  | done v => rfl
  | act a next ih => simp only [bind, ids, run, ih, List.append_assoc]

theorem sendings_bind (p : Program σ α) (f : α → Program σ β) (w : World σ ε) :
    (p.bind f).sendings env w = p.sendings env w ++
      (f (p.run env w).1).sendings env (p.run env w).2 := by
  induction p generalizing w with
  | done v => simp [bind, sendings, run]
  | act a next ih => simp only [bind, sendings, run, ih, List.append_assoc]

theorem ids_of_only {p : Program σ α} (h : p.Only fun a => ∀ answer, a.ids answer = [])
    (w : World σ ε) : p.ids env w = [] := by
  induction p generalizing w with
  | done v => rfl
  | act a next ih => rw [ids, h.1, ih _ (h.2 _), List.append_nil]

theorem sendings_of_only {p : Program σ α}
    (h : p.Only fun a => ∀ seen answer, a.sendings seen answer = []) (w : World σ ε) :
    p.sendings env w = [] := by
  induction p generalizing w with
  | done v => rfl
  | act a next ih => rw [sendings, h.1, ih _ (h.2 _), List.append_nil]

theorem ids_of_free {p : Program σ α} (h : p.Only Action.Free) (w : World σ ε) :
    p.ids env w = [] :=
  ids_of_only (only_mono h fun _ => Action.Free.ids) w

theorem sendings_of_free {p : Program σ α} (h : p.Only Action.Free) (w : World σ ε) :
    p.sendings env w = [] :=
  sendings_of_only (only_mono h fun _ => Action.Free.sendings) w

theorem keeps_sendings (view : σ → β) {p : Program σ α} (h : p.Only (Action.Keeps view))
    (w : World σ ε) : ∀ x ∈ p.sendings env w, view x.seen = view w.client := by
  induction p generalizing w with
  | done v => exact List.forall_mem_nil _
  | act a next ih =>
    refine List.forall_mem_append.2 ⟨?_, fun x hx => ?_⟩
    · cases a with
      | send m => exact List.forall_mem_singleton.2 rfl
      | _ => exact List.forall_mem_nil _
    · exact (ih _ (h.2 _) _ x hx).trans (World.keeps_answer env h.1 w)

theorem run_ask (a : Action σ) (w : World σ ε) : (ask a).run env w = w.answer env a := rfl

theorem exchanges_events (seen : σ) (a : Action σ) (answer : a.Answer) :
    exchanges (a.events answer) = (a.sendings seen answer).map Sending.exchange := by
  cases a <;> rfl

theorem exchanges_run (p : Program σ α) (w : World σ ε) : exchanges (p.run env w).2.log =
    exchanges w.log ++ (p.sendings env w).map Sending.exchange := by
  induction p generalizing w with
  | done v => simp [sendings, run]
  | act a next ih =>
    rw [run, ih, World.answer_log, exchanges_append, exchanges_events w.client]
    simp [sendings]

end Program

namespace Task

def sendings (env : Environment ε) (t : Task σ α) (w : World σ ε) : List (Sending σ) :=
  (ExceptT.run t).sendings env w

theorem sendings_pure (v : α) : sendings env (pure v : Task σ α) w = [] := rfl

theorem sendings_throw (e : ClientError) : sendings env (throw e : Task σ α) w = [] := rfl

theorem sendings_ofExcept (r : Except ClientError α) :
    sendings env (ofExcept r : Task σ α) w = [] := by
  cases r <;> rfl

theorem sendings_bind (t : Task σ α) (f : α → Task σ β) :
    sendings env (t >>= f) w = sendings env t w ++ match exec env t w with
      | (.ok v, w') => sendings env (f v) w'
      | (.error _, _) => [] := by
  change (Program.bind (ExceptT.run t) (ExceptT.bindCont f)).sendings env w = _
  rw [Program.sendings_bind]
  unfold exec sendings
  obtain ⟨r, w'⟩ := (ExceptT.run t).run env w
  cases r <;> rfl

theorem sendings_map (t : Task σ α) (f : α → β) :
    sendings env (t >>= fun v => pure (f v)) w = sendings env t w := by
  rw [sendings_bind]
  obtain ⟨r, w'⟩ := exec env t w
  cases r <;> exact List.append_nil _

theorem sendings_lift (p : Program σ α) : sendings env (lift p) w = p.sendings env w := by
  change (p.bind fun v => .done (Except.ok v)).sendings env w = _
  rw [Program.sendings_bind]
  exact List.append_nil _

theorem sendings_lift_bind (p : Program σ α) (f : α → Task σ β) :
    sendings env (lift p >>= f) w =
      p.sendings env w ++ sendings env (f (p.run env w).1) (p.run env w).2 := by
  rw [sendings_bind, exec_lift, sendings_lift]

theorem sendings_ask_bind {a : Action σ} {f : a.Answer → Task σ α}
    (h : ∀ seen answer, a.sendings seen answer = []) :
    sendings env (lift (.ask a) >>= f) w =
      sendings env (f (w.answer env a).1) (w.answer env a).2 := by
  rw [sendings_lift_bind, Program.ask, Program.sendings, h]
  rfl

theorem sendings_inspect_bind {f : σ → Task σ α} :
    sendings env (lift .inspect >>= f) w = sendings env (f w.client) w :=
  sendings_ask_bind (a := .inspect) fun _ _ => rfl

theorem sendings_send_bind {m : Transmission} {f : Except IoFailure Bytes → Task σ α}
    (hf : ∀ answer w, sendings env (f answer) w = []) :
    sendings env (lift (.send m) >>= f) w = [⟨w.client, m, (w.answer env (.send m)).1⟩] := by
  rw [sendings_lift_bind, hf]
  rfl

theorem exists_sending {t : Task σ α} {r : Except ClientError α} {es : List Event}
    (hx : exec env t w = (r, w')) (hl : w'.log = w.log ++ es) {m : Transmission}
    {answer : Except IoFailure Bytes} (h : .sent m answer ∈ es) :
    ∃ x ∈ sendings env t w, x.message = m ∧ x.answer = answer := by
  have he : exchanges (exec env t w).2.log = exchanges w.log ++ _ :=
    Program.exchanges_run (ExceptT.run t) w
  rw [hx, hl, exchanges_append, List.append_right_inj] at he
  have hm : (⟨m, answer⟩ : Exchange) ∈ exchanges es := List.mem_filterMap.2 ⟨_, h, rfl⟩
  rw [he] at hm
  obtain ⟨x, hs, hxe⟩ := List.mem_map.1 hm
  cases hxe
  exact ⟨x, hs, rfl, rfl⟩

end Task

/-- A part shows its own changes. -/
def Part.Shows (part : Part σ τ) : Prop := ∀ f s, part.get (part.modify f s) = f (part.get s)

def Part.ShowsWhile (part : Part σ τ) (inv : σ → Prop) : Prop :=
  ∀ f s, inv s → inv (part.modify f s) ∧ part.get (part.modify f s) = f (part.get s)

theorem Part.Shows.always {part : Part σ τ} (h : part.Shows) : part.ShowsWhile fun _ => True :=
  fun f s _ => ⟨trivial, h f s⟩

def World.part (part : Part σ τ) (w : World σ ε) : World τ ε :=
  ⟨part.get w.client, w.outside, w.clock, w.nextXid, w.log⟩

def Sending.part (part : Part σ τ) (x : Sending σ) : Sending τ :=
  ⟨part.get x.seen, x.message, x.answer⟩

namespace Program
variable {part : Part σ τ} {inv : σ → Prop}

theorem step_onPart (env : Environment ε) (h : part.ShowsWhile inv) (a : Action τ)
    (next : a.Answer → Program τ α) {w : World σ ε} (hi : inv w.client) :
    let answer := ((w.part part).answer env a).1
    ∃ w₁ xs, inv w₁.client ∧ ((w.part part).answer env a).2 = w₁.part part ∧
      ((act a next).onPart part).run env w = ((next answer).onPart part).run env w₁ ∧
      a.sendings (part.get w.client) answer = xs.map (Sending.part part) ∧
      ((act a next).onPart part).sendings env w =
        xs ++ ((next answer).onPart part).sendings env w₁ ∧
      ((act a next).onPart part).ids env w =
        a.ids answer ++ ((next answer).onPart part).ids env w₁ := by
  cases a with
  | send m => exact ⟨(w.answer env (.send m)).2, [⟨w.client, m, (w.answer env (.send m)).1⟩], hi,
      rfl, rfl, rfl, rfl, rfl⟩
  | update f =>
    obtain ⟨hi', hs⟩ := h f w.client hi
    refine ⟨(w.answer env (.update (part.modify f))).2, [], hi', ?_, rfl, rfl, rfl, rfl⟩
    simp [World.answer, World.part, hs]
  | sleep d => exact ⟨(w.answer env (.sleep d)).2, [], hi, rfl, rfl, rfl, rfl, rfl⟩
  | discover s p => exact ⟨(w.answer env (.discover s p)).2, [], hi, rfl, rfl, rfl, rfl, rfl⟩
  | lookup s v => exact ⟨(w.answer env (.lookup s v)).2, [], hi, rfl, rfl, rfl, rfl, rfl⟩
  | freshXid => exact ⟨(w.answer env .freshXid).2, [], hi, rfl, rfl, rfl, rfl, rfl⟩
  | timestamp => exact ⟨(w.answer env .timestamp).2, [], hi, rfl, rfl, rfl, rfl, rfl⟩
  | _ => exact ⟨w, [], hi, rfl, rfl, rfl, rfl, rfl⟩

theorem run_onPart_while (h : part.ShowsWhile inv) (p : Program τ α) {w : World σ ε}
    (hi : inv w.client) : inv ((p.onPart part).run env w).2.client ∧
      p.run env (w.part part) = (((p.onPart part).run env w).1,
        ((p.onPart part).run env w).2.part part) := by
  induction p generalizing w with
  | done v => exact ⟨hi, rfl⟩
  | act a next ih =>
    obtain ⟨w₁, xs, hi', hw, hr, -⟩ := step_onPart env h a next hi
    rw [hr, run, hw]
    exact ih _ hi'

theorem sendings_onPart_while (h : part.ShowsWhile inv) (p : Program τ α) {w : World σ ε}
    (hi : inv w.client) :
    p.sendings env (w.part part) = ((p.onPart part).sendings env w).map (Sending.part part) := by
  induction p generalizing w with
  | done v => rfl
  | act a next ih =>
    obtain ⟨w₁, xs, hi', hw, -, ha, hs, -⟩ := step_onPart env h a next hi
    have hc : (w.part part).client = part.get w.client := rfl
    rw [hs, sendings, hw, ih _ hi', hc, ha, List.map_append]

theorem ids_onPart_while (h : part.ShowsWhile inv) (p : Program τ α) {w : World σ ε}
    (hi : inv w.client) : (p.onPart part).ids env w = p.ids env (w.part part) := by
  induction p generalizing w with
  | done v => rfl
  | act a next ih =>
    obtain ⟨w₁, xs, hi', hw, -, -, -, hx⟩ := step_onPart env h a next hi
    rw [hx, ids, hw, ih _ hi']

end Program

namespace Task
variable {part : Part σ τ}

theorem exec_onPart (h : part.Shows) (t : Task τ α) (w : World σ ε) :
    exec env t (w.part part) =
      ((exec env (t.onPart part) w).1, (exec env (t.onPart part) w).2.part part) :=
  (Program.run_onPart_while h.always (ExceptT.run t) trivial).2

theorem sendings_onPart (h : part.Shows) (t : Task τ α) (w : World σ ε) :
    sendings env t (w.part part) = (sendings env (t.onPart part) w).map (Sending.part part) :=
  Program.sendings_onPart_while h.always (ExceptT.run t) trivial

end Task
end Nfs3.Client
