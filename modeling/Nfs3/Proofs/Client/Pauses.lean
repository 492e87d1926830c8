import Mathlib.Algebra.BigOperators.Intervals
import Mathlib.Algebra.BigOperators.Ring.Finset
import Nfs3.Proofs.Client.Calls
import Nfs3.Proofs.Client.Escalation

/-!
How long a call pauses. A pause stands behind each attempt that is not the last, and nowhere else,
so all of them together depend on nothing but how many attempts failed.
-/
namespace Nfs3

theorem RetryPolicy.nanoseconds_backoff (policy : RetryPolicy) (attempt : Nat) :
    (policy.backoff attempt).nanoseconds =
      min (attempt * policy.baseBackoff.nanoseconds) Duration.limit := by
  rw [Nat.mul_comm]
  rfl

namespace Client
open Wire Rpc
variable {σ ε α : Type} {env : Environment ε} {w w' : World σ ε}

/-- A timer that runs for just as long as the pause is. -/
def Environment.Exact (env : Environment ε) (pause : Duration) : Prop :=
  env.timer pause * 1000000 = pause.nanoseconds

def Sending.event (x : Sending σ) : Event := .sent x.message x.answer

def pauses (log : List Event) : List Duration :=
  log.filterMap fun
    | .slept pause => some pause
    | _ => none

def pausedNanoseconds (log : List Event) : Nat := ((pauses log).map Duration.nanoseconds).sum

theorem pausedNanoseconds_append (log news : List Event) :
    pausedNanoseconds (log ++ news) = pausedNanoseconds log + pausedNanoseconds news := by
  simp [pausedNanoseconds, pauses, List.filterMap_append]

theorem pausedNanoseconds_sends (xs : List (Sending σ)) :
    pausedNanoseconds (xs.map Sending.event) = 0 := by
  simp [pausedNanoseconds, pauses, List.filterMap_map, Function.comp_def, Sending.event]

theorem transient_ok_iff {xid : UInt32} {bs : Bytes} : Transient xid (.ok bs) ↔
    wordAt bs 4 = some 1 ∧ (wordAt bs 0).any (· != xid) = true := by
  constructor
  · intro h
    obtain ⟨_, h⟩ | ⟨_, y, h, h0, h4, hn⟩ := h
    · cases h
    · cases h
      rw [h0]
      exact ⟨h4, bne_iff_ne.2 hn⟩
  · intro h
    obtain ⟨h4, h0⟩ := h
    cases hw : wordAt bs 0 with
    | none =>
      rw [hw] at h0
      cases h0
    | some y =>
      rw [hw] at h0
      exact .inr ⟨bs, y, rfl, hw, h4, bne_iff_ne.1 h0⟩

instance (xid : UInt32) (answer : Except IoFailure Bytes) : Decidable (Transient xid answer) :=
  match answer with
  | .error cause => .isTrue (.inl ⟨cause, rfl⟩)
  | .ok _ => decidable_of_iff _ transient_ok_iff.symm

namespace World

/-- The same as far as a program can tell: none asks for the time or for what is on record. -/
structure Alike (w w' : World σ ε) : Prop where
  client : w.client = w'.client
  outside : w.outside = w'.outside
  nextXid : w.nextXid = w'.nextXid

theorem alike_record (w : World σ ε) (n : Nat) (e : Event) :
    ({ w with clock := n }.record e).Alike w := ⟨rfl, rfl, rfl⟩

theorem clock_record (w : World σ ε) (n : Nat) (e : Event) :
    ({ w with clock := n }.record e).clock = n := rfl

theorem alike_answer_sleep (env : Environment ε) (w : World σ ε) (pause : Duration) :
    (w.answer env (.sleep pause)).2.Alike w := w.alike_record _ _

theorem clock_answer_sleep (w : World σ ε) (pause : Duration) :
    (w.answer env (.sleep pause)).2.clock = w.clock + env.timer pause :=
  w.clock_record _ _

theorem Alike.answer (env : Environment ε) (h : w.Alike w') (a : Action σ) :
    (w.answer env a).1 = (w'.answer env a).1 ∧
      (w.answer env a).2.Alike (w'.answer env a).2 := by
  obtain ⟨client, outside, clock, nextXid, log⟩ := w
  obtain ⟨client', outside', clock', nextXid', log'⟩ := w'
  obtain ⟨rfl, rfl, rfl⟩ := h
  cases a with
  | sleep pause =>
    have h := alike_answer_sleep env ⟨client, outside, clock, nextXid, log⟩ pause
    have h' := alike_answer_sleep env ⟨client, outside, clock', nextXid, log'⟩ pause
    exact ⟨rfl, h.client.trans h'.client.symm, h.outside.trans h'.outside.symm,
      h.nextXid.trans h'.nextXid.symm⟩
  | _ => exact ⟨rfl, rfl, rfl, rfl⟩

end World

/-- Takes no time and puts nothing on record but what is sent. -/
def Action.Prompt : Action σ → Prop
  | .sleep _ | .discover .. | .lookup .. => False
  | _ => True

theorem World.answer_prompt (env : Environment ε) {a : Action σ} (h : a.Prompt) (w : World σ ε) :
    (w.answer env a).2.log =
        w.log ++ (a.sendings w.client (w.answer env a).1).map Sending.event ∧
      (w.answer env a).2.clock = w.clock := by
  rw [World.answer_log]
  cases a with
  | sleep pause => exact h.elim
  | discover server port => exact h.elim
  | lookup server service => exact h.elim
  | _ => exact ⟨rfl, rfl⟩

namespace Program

theorem run_alike (env : Environment ε) (p : Program σ α) (h : w.Alike w') :
    (p.run env w).1 = (p.run env w').1 ∧ (p.run env w).2.Alike (p.run env w').2 ∧
      p.sendings env w = p.sendings env w' := by
  induction p generalizing w w' with
  | done v => exact ⟨rfl, h, rfl⟩
  | act a next ih =>
    obtain ⟨ha, hw⟩ := h.answer env a
    obtain ⟨hr, hw', hs⟩ := ih (w.answer env a).1 hw
    rw [run, run, sendings, sendings, ← ha, h.client, hs]
    exact ⟨hr, hw', rfl⟩

theorem run_prompt (env : Environment ε) {p : Program σ α} (h : p.Only Action.Prompt)
    (w : World σ ε) : (p.run env w).2.log = w.log ++ (p.sendings env w).map Sending.event ∧
      (p.run env w).2.clock = w.clock := by
  induction p generalizing w with
  | done v => exact ⟨(List.append_nil _).symm, rfl⟩
  | act a next ih =>
    obtain ⟨hl, hc⟩ := w.answer_prompt env h.1
    obtain ⟨hl', hc'⟩ := ih _ (h.2 _) (w.answer env a).2
    rw [run, sendings, hl', hl, hc', hc, List.map_append, List.append_assoc]
    exact ⟨rfl, rfl⟩

end Program

def endsTransiently : Except ClientError α → Bool
  | .ok _ => false
  | .error e => e.isTransient

theorem endsTransiently_iff {v : Except ClientError α} :
    endsTransiently v = true ↔ ∃ e, v = .error e ∧ e.isTransient = true := by
  cases v <;> simp [endsTransiently]

/-- Everything before the last part is followed by a pause. -/
def paced (part : Nat → List Event) (pause : Nat → Duration) (k : Nat) : List Event :=
  ((List.range k).flatMap fun n => part n ++ [.slept (pause n)]) ++ part k

theorem paced_succ (part : Nat → List Event) (pause : Nat → Duration) (k : Nat) :
    paced part pause (k + 1) = part 0 ++ .slept (pause 0) ::
      paced (fun n => part (n + 1)) (fun n => pause (n + 1)) k := by
  simp [paced, List.range_succ_eq_map, List.flatMap_map]

theorem pausedNanoseconds_paced {part : Nat → List Event}
    (h : ∀ n, pausedNanoseconds (part n) = 0) (pause : Nat → Duration) (k : Nat) :
    pausedNanoseconds (paced part pause k) = ∑ n ∈ Finset.range k, (pause n).nanoseconds := by
  induction k generalizing part pause with
  | zero => exact h 0
  | succ k ih =>
    have hs (log : List Event) : pausedNanoseconds (.slept (pause 0) :: log) =
        (pause 0).nanoseconds + pausedNanoseconds log := rfl
    rw [paced_succ, pausedNanoseconds_append, h, hs, ih fun n => h (n + 1),
      Finset.sum_range_succ', Nat.zero_add, Nat.add_comm]

theorem sum_Icc_one (f : Nat → Nat) (k : Nat) :
    ∑ i ∈ Finset.Icc 1 k, f i = ∑ n ∈ Finset.range k, f (n + 1) := by
  rw [Finset.range_eq_Ico, Finset.sum_Ico_add' f 0 k 1]
  rfl

namespace Dispatcher
variable {Args Reply : Type} {env : Environment ε} {p : Procedure Args Reply} {r : Request Args}
  {w w' : World Dispatcher ε}

section Trials
variable (env : Environment ε) (p : Procedure Args Reply) (r : Request Args)

/-- The world after `n` attempts made one right after the other. -/
def unpaused : World Dispatcher ε → Nat → World Dispatcher ε
  | w, 0 => w
  | w, n + 1 => unpaused (Task.exec env (attempt p r) w).2 n

/-- What the next attempt comes to after `n` of them. -/
def trial (w : World Dispatcher ε) (n : Nat) : Except ClientError Reply :=
  (Task.exec env (attempt p r) (unpaused env p r w n)).1

def trialSends (w : World Dispatcher ε) (n : Nat) : List (Sending Dispatcher) :=
  Task.sendings env (attempt p r) (unpaused env p r w n)

theorem unpaused_alike (h : w.Alike w') (n : Nat) :
    (unpaused env p r w n).Alike (unpaused env p r w' n) := by
  induction n generalizing w w' with
  | zero => exact h
  | succ n ih => exact ih (Program.run_alike env _ h).2.1

theorem trial_alike (h : w.Alike w') :
    trial env p r w = trial env p r w' ∧ trialSends env p r w = trialSends env p r w' := by
  have ha (n : Nat) := Program.run_alike env (ExceptT.run (attempt p r))
    (unpaused_alike env p r h n)
  exact ⟨funext fun n => (ha n).1, funext fun n => (ha n).2.2⟩

end Trials

theorem attempt_prompt (env : Environment ε) (p : Procedure Args Reply) (r : Request Args)
    (w : World Dispatcher ε) :
    let run := Task.exec env (attempt p r) w
    run.2.log = w.log ++ (Task.sendings env (attempt p r) w).map Sending.event ∧
      run.2.clock = w.clock ∧ run.2.client.retry = w.client.retry := by
  have ho : Task.Only (OfAttempt p.number) (attempt p r) := only_attempt
  obtain ⟨hl, hc⟩ := Program.run_prompt env (Program.only_mono ho fun a h => by
    cases a <;> trivial) w
  have hk : Task.Only (Action.Keeps Dispatcher.retry) (attempt p r) :=
    Program.only_mono ho fun a h => by
      cases a with
      | update f =>
        obtain rfl := h
        exact fun _ => rfl
      | _ => trivial
  exact ⟨hl, hc, Task.keeps_exec Dispatcher.retry hk rfl⟩

/-- The first `k` attempts fail in a way that may pass and are followed by a pause each. The next
one is the last. -/
structure Paced (env : Environment ε) (p : Procedure Args Reply) (r : Request Args)
    (left failures k : Nat) (w w' : World Dispatcher ε) : Prop where
  le : k ≤ left
  failed : ∀ n < k, endsTransiently (trial env p r w n) = true
  exhausted : endsTransiently (trial env p r w k) = true → k = left
  log : w'.log = w.log ++ paced (fun n => (trialSends env p r w n).map Sending.event)
    (fun n => w.client.retry.backoff (failures + n + 1)) k
  clock : w'.clock = w.clock + ∑ n ∈ Finset.range k,
    env.timer (w.client.retry.backoff (failures + n + 1))

variable {left failures : Nat} {w₁ : World Dispatcher ε} {v : Except ClientError Reply}

theorem Paced.ends (hx : Task.exec env (attempt p r) w = (v, w₁))
    (h : endsTransiently v = true → left = 0) : Paced env p r left failures 0 w w₁ := by
  obtain ⟨hl, hc, -⟩ := attempt_prompt env p r w
  rw [hx] at hl hc
  refine ⟨Nat.zero_le _, nofun, fun ht => (h ?_).symm, hl, hc⟩
  have hv : trial env p r w 0 = v := congrArg Prod.fst hx
  rwa [hv] at ht

theorem trial_succ {w₂ : World Dispatcher ε} (hx : Task.exec env (attempt p r) w = (v, w₁))
    (ha : w₂.Alike w₁) : (trial env p r w₂ = fun n => trial env p r w (n + 1)) ∧
      trialSends env p r w₂ = fun n => trialSends env p r w (n + 1) := by
  obtain ⟨hv, hs⟩ := trial_alike env p r ha
  constructor
  · funext n
    rw [hv, trial, trial, unpaused, hx]
  · funext n
    rw [hs, trialSends, trialSends, unpaused, hx]

theorem Paced.again {e : ClientError} {k : Nat} {w₂ : World Dispatcher ε}
    (hx : Task.exec env (attempt p r) w = (.error e, w₁)) (ht : e.isTransient = true)
    (hw : (w₁.answer env (.sleep (w.client.retry.backoff (failures + 1)))).2 = w₂)
    (h : Paced env p r left (failures + 1) k w₂ w') :
    Paced env p r (left + 1) failures (k + 1) w w' := by
  obtain ⟨hl, hc, hr⟩ := attempt_prompt env p r w
  rw [hx] at hl hc hr
  have ha : w₂.Alike w₁ := hw ▸ World.alike_answer_sleep env w₁ _
  have hl₂ : w₂.log = w₁.log ++ [.slept (w.client.retry.backoff (failures + 1))] := by
    rw [← hw, World.answer_log]
    rfl
  have hc₂ : w₂.clock = w₁.clock + env.timer (w.client.retry.backoff (failures + 1)) := by
    rw [← hw, World.clock_answer_sleep]
  obtain ⟨hv, hs⟩ := trial_succ hx ha
  have hretry : w₂.client.retry = w.client.retry := by rw [ha.client, hr]
  have hn (n : Nat) : failures + 1 + n + 1 = failures + (n + 1) + 1 := by omega
  obtain ⟨hle, hf, he, hlog, hclock⟩ := h
  rw [hv] at hf he
  rw [hs, hretry, hl₂, hl] at hlog
  rw [hretry, hc₂, hc] at hclock
  simp only [hn] at hlog hclock
  refine ⟨Nat.succ_le_succ hle, fun n hn => ?_, fun h => congrArg _ (he h), ?_, ?_⟩
  · cases n with
    | zero => rw [trial, unpaused, hx, endsTransiently, ht]
    | succ n => exact hf n (Nat.lt_of_succ_lt_succ hn)
  · rw [hlog, paced_succ]
    simp [trialSends, unpaused]
  · rw [hclock, Finset.sum_range_succ', Nat.add_assoc, Nat.add_zero, Nat.add_comm (Finset.sum ..)]

variable (validate : Args → Reply → Except ClientError Unit)

theorem attempts_paced (env : Environment ε) (p : Procedure Args Reply) (r : Request Args)
    (left failures : Nat) (w : World Dispatcher ε) :
    let run := Task.exec env (attempts p r validate left failures) w
    ∃ k, Paced env p r left failures k w run.2 ∧
      run.1 = (trial env p r w k).bind (fun u => (validate r.args u).map fun _ => u) ∧
      Task.sendings env (attempts p r validate left failures) w =
        (List.range (k + 1)).flatMap (trialSends env p r w) := by
  induction left using Nat.strongRecOn generalizing failures w with
  | ind left ih =>
    cases hx : Task.exec env (attempt p r) w with
    | mk v w₁ =>
      by_cases h : endsTransiently v = true → left = 0
      · have hv (e : ClientError) (he : v = .error e) (ht : e.isTransient = true) : left = 0 :=
          h (endsTransiently_iff.2 ⟨e, he, ht⟩)
        have ht : trial env p r w 0 = v := congrArg Prod.fst hx
        refine ⟨0, ?_, ?_, ?_⟩
        · rw [attempts_ends validate hx hv]
          exact .ends hx h
        · rw [attempts_ends validate hx hv, ht]
        · rw [sendings_attempts_ends validate hx hv]
          simp [trialSends, unpaused]
      · obtain ⟨ht, hl⟩ := Classical.not_imp.1 h
        obtain ⟨e, rfl, ht⟩ := endsTransiently_iff.1 ht
        obtain ⟨left, rfl⟩ := Nat.exists_eq_succ_of_ne_zero hl
        obtain ⟨-, -, hr⟩ := attempt_prompt env p r w
        rw [hx] at hr
        rw [attempts_again validate hx rfl ht, sendings_attempts_again validate hx rfl ht, hr,
          Program.sleep, Program.run_ask]
        generalize hw : (w₁.answer env (.sleep (w.client.retry.backoff (failures + 1)))).2 = w₂
        have ha : w₂.Alike w₁ := hw ▸ World.alike_answer_sleep env w₁ _
        obtain ⟨hv, hs⟩ := trial_succ hx ha
        obtain ⟨k, hk, hresult, hsent⟩ := ih left (Nat.lt_succ_self left) (failures + 1) w₂
        refine ⟨k + 1, hk.again hx ht hw, ?_, ?_⟩
        · rw [hresult, hv]
        · rw [hsent, hs, List.range_succ_eq_map (n := k + 1), List.flatMap_cons, List.flatMap_map]
          rfl

theorem endsTransiently_judge (server : String) (answer : Except IoFailure Bytes) :
    endsTransiently (r.judge p server answer) = decide (Transient r.xid answer) := by
  rw [Bool.eq_iff_iff, endsTransiently_iff, decide_eq_true_iff, Request.judge_transient]

/-- How many answers are no reply, or a reply to another call. -/
def transients (xid : UInt32) (xs : List (Sending Dispatcher)) : Nat :=
  xs.countP fun x => Transient xid x.answer

theorem transients_append (xid : UInt32) (xs ys : List (Sending Dispatcher)) :
    transients xid (xs ++ ys) = transients xid xs + transients xid ys :=
  List.countP_append

theorem callOnce_transients (env : Environment ε) (hp : p.Regular) (host : String)
    (privileged : Bool) (w : World Dispatcher ε) :
    transients r.xid (Task.sendings env (callOnce p r host privileged) w) =
      (endsTransiently (Task.exec env (callOnce p r host privileged) w).1).toNat := by
  obtain ⟨w', -, ⟨stamp, e, he, hx, hn⟩ | ⟨x, -, -, -, hx, hn⟩⟩ :=
    callOnce_cases env p r host privileged w
  · obtain ⟨cause, rfl⟩ := Request.segments_faults hp he
    rw [hx, hn]
    rfl
  · rw [hx, hn, endsTransiently_judge]
    by_cases h : Transient r.xid x.answer <;> simp [transients, h]

theorem attempt_transients (env : Environment ε) (hp : p.Regular) (w : World Dispatcher ε) :
    transients r.xid (Task.sendings env (attempt p r) w) =
      (endsTransiently (Task.exec env (attempt p r) w).1).toNat := by
  obtain ⟨e, he, hx, hs⟩ | ⟨host, v, w₁, -, hfirst, -, ⟨hx, hs⟩ | ⟨⟨-, s, n, stat, rfl⟩, hx, hs⟩⟩ :=
    attempt_cases env p r w
  · obtain rfl : e = .noRouteAvailable w.client.server := by
      unfold chooseHost at he
      split at he
      · cases he
      · split at he
        · cases he
          rfl
        · cases he
    rw [hx, hs]
    rfl
  · rw [hx, hs, callOnce_transients env hp, hfirst]
  · have hrefused := callOnce_transients (r := r) env hp host
      (w.client.usesPrivilegedPort p.number) w
    rw [hfirst] at hrefused
    rw [hx, hs, transients_append, hrefused, callOnce_transients env hp]
    exact Nat.zero_add _

/-- An attempt that fails in a way that may pass is known by one of its answers. -/
theorem transients_trials (env : Environment ε) (hp : p.Regular) (w : World Dispatcher ε) {k : Nat}
    (h : ∀ n < k, endsTransiently (trial env p r w n) = true) :
    transients r.xid ((List.range (k + 1)).flatMap (trialSends env p r w)) =
      k + (endsTransiently (trial env p r w k)).toNat := by
  have hn (n : Nat) : transients r.xid (trialSends env p r w n) =
      (endsTransiently (trial env p r w n)).toNat := attempt_transients env hp _
  induction k with
  | zero =>
    rw [Nat.zero_add, ← hn]
    simp
  | succ k ih =>
    rw [List.range_succ, List.flatMap_append, transients_append,
      ih fun n hk => h n (Nat.lt_succ_of_lt hk), h k (Nat.lt_succ_self k), List.flatMap_singleton,
      hn]
    rfl

/-- A call pauses behind each transient failure after which it goes on, every time longer by the
first pause, and nowhere else. All pauses together depend on the number of transient failures, and
not on where among them a credential is refused. The clock agrees if the timer is exact for them. -/
theorem call_pauses (env : Environment ε) (p : Procedure Args Reply) (r : Request Args)
    (w : World Dispatcher ε) :
    let run := Task.exec env (call p r validate) w
    let policy := w.client.retry
    let most := max 1 policy.maxAttempts.toNat - 1
    let news := paced (fun n => (trialSends env p r w n).map Sending.event)
      fun n => policy.backoff (n + 1)
    ∃ k ≤ most,
      (∀ n < k, endsTransiently (trial env p r w n) = true) ∧
      (endsTransiently (trial env p r w k) = true → k = most) ∧
      run.1 = (trial env p r w k).bind (fun u => (validate r.args u).map fun _ => u) ∧
      run.2.log = w.log ++ news k ∧
      pausedNanoseconds (news k) =
        ∑ i ∈ Finset.Icc 1 k, min (i * policy.baseBackoff.nanoseconds) Duration.limit ∧
      run.2.clock = w.clock + ∑ i ∈ Finset.Icc 1 k, env.timer (policy.backoff i) ∧
      ((∀ i ∈ Finset.Icc 1 k, env.Exact (policy.backoff i)) →
        (run.2.clock - w.clock) * 1000000 = pausedNanoseconds (news k)) ∧
      (p.Regular → k = min (transients r.xid (Task.sendings env (call p r validate) w)) most) := by
  intro run policy most news
  have hl : policy.attempts - 1 = most := by
    rw [RetryPolicy.attempts, Nat.max_comm]
  obtain ⟨k, hk, hresult, hsent⟩ := attempts_paced validate env p r most 0 w
  have hcall : call p r validate = Task.lift .inspect >>= fun d =>
      attempts p r validate (d.retry.attempts - 1) 0 := rfl
  have hrun : run = Task.exec env (attempts p r validate most 0) w := by
    unfold run
    rw [hcall, Task.exec_lift_bind, Program.run_inspect, hl]
  have hsends : Task.sendings env (call p r validate) w =
      Task.sendings env (attempts p r validate most 0) w := by
    rw [hcall, Task.sendings_inspect_bind, hl]
  rw [← hrun] at hk hresult
  obtain ⟨hle, hf, he, hlog, hclock⟩ := hk
  simp only [Nat.zero_add] at hlog hclock
  have hpaused : pausedNanoseconds (news k) =
      ∑ i ∈ Finset.Icc 1 k, (policy.backoff i).nanoseconds := by
    rw [pausedNanoseconds_paced fun n => pausedNanoseconds_sends _, sum_Icc_one]
  rw [← sum_Icc_one fun i => env.timer (policy.backoff i)] at hclock
  refine ⟨k, hle, hf, he, hresult, hlog, ?_, hclock, fun ht => ?_, fun hp => ?_⟩
  · rw [hpaused]
    exact Finset.sum_congr rfl fun i _ => policy.nanoseconds_backoff i
  · rw [hclock, Nat.add_sub_cancel_left, hpaused, Finset.sum_mul]
    exact Finset.sum_congr rfl ht
  · have hcount := transients_trials env hp w hf
    rw [hsends, hsent, hcount]
    cases ht : endsTransiently (trial env p r w k) with
    | true =>
      rw [he ht]
      exact (Nat.min_eq_right (Nat.le_succ most)).symm
    | false => exact (Nat.min_eq_left hle).symm

/-- Lost, refused, answered with a reply to another call, and accepted. -/
example :
    let run := Task.exec Playback.environment (call Procedures.null ping acceptAny) interrupted
    pausedNanoseconds run.2.log = 3000000000 ∧ run.2.clock = 3000 := by
  decide +kernel

end Dispatcher
end Client
end Nfs3
