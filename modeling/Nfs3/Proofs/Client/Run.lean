import Nfs3.Client.World

/-! Programs and tasks run part by part: what comes later sees the world as it was left before. -/
namespace Nfs3.Client
variable {σ τ ε α β : Type} {env : Environment ε} {w w' : World σ ε}

theorem Program.run_bind (p : Program σ α) (f : α → Program σ β) (w : World σ ε) :
    (p.bind f).run env w = (f (p.run env w).1).run env (p.run env w).2 := by
  induction p generalizing w with
  | done v => rfl
  | act a next ih => exact ih _ _

namespace Program

theorem eq_of_bind_eq (env : Environment ε) {p : Program σ α} {f g : α → Program σ β}
    (h : p.bind f = p.bind g) (w : World σ ε) : f (p.run env w).1 = g (p.run env w).1 := by
  induction p generalizing w with
  | done v => exact h
  | act a next ih =>
    simp only [bind, act.injEq, heq_eq_eq, true_and] at h
    exact ih _ (congrFun h _) _

theorem run_send (m : Transmission) : (send m : Program σ _).run env w = w.answer env (.send m) :=
  rfl

theorem run_inspect : (inspect : Program σ σ).run env w = (w.client, w) := rfl

theorem run_update (f : σ → σ) :
    (update f).run env w = ((), { w with client := f w.client }) := rfl

theorem run_sleep (env : Environment ε) (d : Duration) (w : World σ ε) :
    (sleep d : Program σ Unit).run env w =
      ((), { w with clock := w.clock + env.timer d }.record (.slept d)) :=
  rfl

theorem run_timestamp : (timestamp : Program σ UInt32).run env w =
    ((env.timestamp w.outside).1, { w with outside := (env.timestamp w.outside).2 }) := rfl

end Program

namespace Task

def exec (env : Environment ε) (t : Task σ α) (w : World σ ε) :
    Except ClientError α × World σ ε :=
  (ExceptT.run t).run env w

theorem exec_pure (v : α) : exec env (pure v) w = (.ok v, w) := rfl

theorem exec_ofExcept (r : Except ClientError α) : exec env (ofExcept r) w = (r, w) := by
  cases r <;> rfl

theorem exec_bind (t : Task σ α) (f : α → Task σ β) :
    exec env (t >>= f) w = match exec env t w with
      | (.ok v, w') => exec env (f v) w'
      | (.error e, w') => (.error e, w') := by
  change (Program.bind (ExceptT.run t) (ExceptT.bindCont f)).run env w = _
  rw [Program.run_bind]
  unfold exec
  obtain ⟨r, w'⟩ := (ExceptT.run t).run env w
  cases r <;> rfl

theorem exec_map (t : Task σ α) (f : α → β) :
    exec env (t >>= fun v => pure (f v)) w = ((exec env t w).1.map f, (exec env t w).2) := by
  rw [exec_bind]
  obtain ⟨r, w'⟩ := exec env t w
  cases r <;> rfl

theorem exec_lift (p : Program σ α) :
    exec env (lift p) w = (.ok (p.run env w).1, (p.run env w).2) := by
  change (p.bind fun v => .done (Except.ok v)).run env w = _
  rw [Program.run_bind]
  rfl

theorem exec_lift_bind (p : Program σ α) (f : α → Task σ β) :
    exec env (lift p >>= f) w = exec env (f (p.run env w).1) (p.run env w).2 := by
  rw [exec_bind, exec_lift]

theorem exec_bind_cases {t : Task σ α} {f : α → Task σ β} {r : Except ClientError β}
    (h : exec env (t >>= f) w = (r, w')) :
    (∃ e, exec env t w = (.error e, w') ∧ r = .error e) ∨
      ∃ a w₁, exec env t w = (.ok a, w₁) ∧ exec env (f a) w₁ = (r, w') := by
  rw [exec_bind] at h
  generalize exec env t w = x at h ⊢
  obtain ⟨v, w₁⟩ := x
  cases v with
  | error e =>
    cases h
    exact .inl ⟨e, rfl, rfl⟩
  | ok a => exact .inr ⟨a, w₁, rfl, h⟩

end Task
end Nfs3.Client
