import Nfs3.Proofs.Client.Restart

/-!
Writes and commits that expect what a tracker remembers. The first success since the last reset says
what all later ones have to show, and nothing but a reset makes the tracker forget it.
-/
namespace Nfs3

inductive TrackerUse where
  | observe (procedure : String) (v : WriteVerifier)
  | reset

namespace VerifierTracker
variable {t : VerifierTracker} {procedure : String} {v : WriteVerifier}

def apply (t : VerifierTracker) : TrackerUse → VerifierTracker
  | .observe procedure v => (t.observe procedure v).2
  | .reset => t.reset

def applyAll (t : VerifierTracker) (uses : List TrackerUse) : VerifierTracker :=
  uses.foldl apply t

/-- What has been observed since the last reset, oldest first, when it was `seen` before. -/
def observedAfter (seen : List WriteVerifier) : TrackerUse → List WriteVerifier
  | .observe _ v => seen ++ [v]
  | .reset => []

def observed (uses : List TrackerUse) : List WriteVerifier := uses.foldl observedAfter []

theorem observed_concat (uses : List TrackerUse) (use : TrackerUse) :
    observed (uses ++ [use]) = observedAfter (observed uses) use := by
  simp [observed]

theorem applyAll_concat (t : VerifierTracker) (uses : List TrackerUse) (use : TrackerUse) :
    t.applyAll (uses ++ [use]) = (t.applyAll uses).apply use := by
  simp [applyAll]

theorem first_apply {seen : List WriteVerifier} (h : t.first = seen.head?) (use : TrackerUse) :
    (t.apply use).first = (observedAfter seen use).head? := by
  cases use with
  | observe procedure v =>
    rw [observedAfter, List.head?_append, ← h]
    cases hf : t.first <;> simp [apply, observe, hf]
  | reset => rfl

theorem first_applyAll (server : String) (uses : List TrackerUse) :
    (applyAll { server } uses).first = (observed uses).head? := by
  induction uses using List.reverseRecOn with
  | nil => rfl
  | append_singleton uses use ih =>
    rw [applyAll_concat, observed_concat]
    exact first_apply ih use

theorem observe_ok_iff (t : VerifierTracker) (procedure : String) (v : WriteVerifier) :
    (t.observe procedure v).1 = .ok () ↔ t.first = none ∨ t.first = some v := by
  unfold observe WriteVerifier.check
  cases t.first with
  | none => simp
  | some u => by_cases h : u = v <;> simp [h]

/-- A mismatch does not make the tracker expect the new verifier. -/
theorem observe_of_not_ok (h : (t.observe procedure v).1 ≠ .ok ()) :
    (t.observe procedure v).2 = t := by
  obtain ⟨server, first⟩ := t
  cases first with
  | none => exact (h rfl).elim
  | some u => rfl

end VerifierTracker

namespace Client
open Wire Rpc
variable {ε α : Type} {env : Environment ε}

namespace Session
variable {Args Ok Fail : Type} {p : FileProcedure Args Ok Fail} {args : Args} {w : World Session ε}
  {verifier : Ok → WriteVerifier} {expected : Option WriteVerifier} {v : Ok}

theorem settle_trace {generation : UInt64} {reply : NfsReply Ok Fail} {es : List Event}
    (h : Task.Trace (settle p args generation reply) es (.ok v)) : reply = .ok v := by
  obtain ⟨s, es₁, h₁, -⟩ := h.of_ask_bind (a := .inspect)
  split at h₁
  · split at h₁
    · obtain ⟨_, _, _, -, h₂, -⟩ := h₁.of_bind_ok
      cases h₂.of_throw
    · cases h₁.of_throw
  · have hr := h₁.of_ofExcept
    cases reply with
    | ok u => exact congrArg NfsReply.ok (Except.ok.inj hr).symm
    | fail status body => cases hr

theorem config_callValidated
    (validate : String → Args → NfsReply Ok Fail → Except ClientError Unit) :
    (Task.exec env (callValidated p validate args) w).2.client.config = w.client.config := by
  obtain ⟨hs, h⟩ := Accounted.callValidated p validate args w
  exact h.config

theorem exists_accepts {validate : String → Args → NfsReply Ok Fail → Except ClientError Unit}
    (hp : p.toProcedure.Uniform)
    (h : (Task.exec env (callValidated p validate args) w).1 = .ok v) :
    ∃ x ∈ Task.sendings env (callValidated p validate args) w,
      Accepts p.toProcedure x.message x.answer (.ok v) := by
  obtain ⟨w', hx⟩ : ∃ w', Task.exec env (callValidated p validate args) w = (.ok v, w') :=
    ⟨_, Prod.ext h rfl⟩
  obtain ⟨es, ht, hl⟩ := Task.exec_trace hx
  obtain ⟨es₁, _, es₂, -, h₁, rfl⟩ := ht.of_bind_ok
  obtain ⟨s, es₃, h₂, rfl⟩ := h₁.of_ask_bind (a := .inspect)
  obtain ⟨es₄, r, es₅, -, h₃, rfl⟩ := h₂.of_lift_bind
  obtain ⟨es₆, reply, es₇, h₄, h₅, rfl⟩ := h₃.of_bind_ok
  obtain rfl := settle_trace h₅
  obtain ⟨m, bytes, stamp, q, rest, hm, hs, hsays, hd⟩ :=
    Dispatcher.call_trace (Program.Trace.of_onPart h₄)
  have hm : .sent m (.ok bytes) ∈ es₁ ++ (es₄ ++ (es₆ ++ es₇)) := by simp [hm]
  obtain ⟨x, hx, rfl, ha⟩ := Task.exists_sending hx hl hm
  obtain ⟨hxid, hprogram, hprocedure, -⟩ := Request.reads hp hs
  refine ⟨x, hx, hprogram, hprocedure, bytes, q, rest, ha, ?_, hd⟩
  rwa [hxid]

theorem exec_checking_of_accepts (hp : p.toProcedure.Uniform) (hs : p.service = nfsService)
    {x : Sending Session} (hx : x ∈ Task.sendings env (checking p verifier expected args) w)
    (h : Accepts p.toProcedure x.message x.answer (.ok v)) :
    (Task.exec env (checking p verifier expected args) w).1 =
      checked p verifier expected w.client.config.server v := by
  obtain ⟨-, generation, w₁, hr⟩ := callValidated_resumption hs h hp hx
  have hrun : Task.exec env (checking p verifier expected args) w =
      Task.exec env (Task.ofExcept (verify p verifier expected w.client.config.server args (.ok v))
        >>= fun _ => settle p args generation (.ok v)) w₁ := hr.run
  have hv : (Task.exec env (settle p args generation (.ok v)) w₁).1 = .ok v := exec_settle ..
  rw [hrun, exec_verify_settle, hv]
  rfl

def Shows (p : FileProcedure Args Ok Fail) (verifier : Ok → WriteVerifier) (x : Sending Session)
    (v : WriteVerifier) : Prop :=
  ∃ ok : Ok, verifier ok = v ∧ Accepts p.toProcedure x.message x.answer (.ok ok)

/-- A call that comes to the verifier it was shown, unless another is expected. -/
structure Verified (name : String) (expected : Option WriteVerifier)
    (shows : Sending Session → WriteVerifier → Prop) (t : Task Session WriteVerifier) : Prop where
  compared {ε : Type} (env : Environment ε) (w : World Session ε) (x : Sending Session)
    (v : WriteVerifier) : x ∈ Task.sendings env t w → shows x v → (Task.exec env t w).1 =
      (WriteVerifier.check w.client.config.server name expected v).map fun _ => v
  accepted {ε : Type} (env : Environment ε) (w : World Session ε) (v : WriteVerifier) :
    (Task.exec env t w).1 = .ok v →
      (expected = none ∨ expected = some v) ∧ ∃ x ∈ Task.sendings env t w, shows x v
  config {ε : Type} (env : Environment ε) (w : World Session ε) :
    (Task.exec env t w).2.client.config = w.client.config

theorem verified_checking (p : FileProcedure Args Ok Fail) (verifier : Ok → WriteVerifier)
    (hp : p.toProcedure.Uniform) (hs : p.service = nfsService) (expected : Option WriteVerifier)
    (args : Args) : Verified p.name expected (Shows p verifier)
      (checking p verifier expected args >>= fun v => pure (verifier v)) where
  compared env w x v hx h := by
    obtain ⟨ok, rfl, h⟩ := h
    rw [Task.sendings_map] at hx
    rw [Task.exec_map, exec_checking_of_accepts hp hs hx h, checked]
    cases WriteVerifier.check w.client.config.server p.name expected (verifier ok) <;> rfl
  accepted env w v h := by
    rw [Task.exec_map] at h
    rw [Task.sendings_map]
    cases hr : (Task.exec env (checking p verifier expected args) w).1 with
    | error e =>
      rw [hr] at h
      cases h
    | ok ok =>
      rw [hr] at h
      cases h
      obtain ⟨x, hx, ha⟩ := exists_accepts hp hr
      exact ⟨(checksVerifier_checking p verifier hp hs).accepted env w expected args ok hr,
        x, hx, ok, rfl, ha⟩
  config env w := by
    rw [Task.exec_map]
    exact config_callValidated _

inductive StableCall where
  | write (args : WriteArgs)
  | commit (args : RangeArgs)

namespace StableCall

def name : StableCall → String
  | .write _ => Procedures.write.name
  | .commit _ => Procedures.commit.name

def perform (expected : Option WriteVerifier) : StableCall → Task Session WriteVerifier
  | .write args => Session.write expected args >>= fun v => pure v.verifier
  | .commit args => Session.commit expected args >>= fun v => pure v.verifier

def Shows : StableCall → Sending Session → WriteVerifier → Prop
  | .write _ => Session.Shows Procedures.write WriteOk.verifier
  | .commit _ => Session.Shows Procedures.commit CommitOk.verifier

theorem verified (c : StableCall) (expected : Option WriteVerifier) :
    Verified c.name expected c.Shows (c.perform expected) := by
  cases c with
  | write args =>
    rw [perform, write_eq]
    exact verified_checking _ _ .write rfl _ _
  | commit args =>
    rw [perform, commit_eq]
    exact verified_checking _ _ (.plain _ _ _ _ _) rfl _ _

end StableCall

inductive TrackedStep where
  | call (c : StableCall)
  | reset

/-- A session, the tracker that is used with it, and how it was used. -/
structure Tracked (ε : Type) where
  world : World Session ε
  tracker : VerifierTracker
  uses : List TrackerUse

namespace Tracked

def use (s : Tracked ε) (use : TrackerUse) : Tracked ε :=
  { s with tracker := s.tracker.apply use, uses := s.uses ++ [use] }

/-- A call expects what the tracker does, and the tracker observes its success. -/
def step (env : Environment ε) (s : Tracked ε) : TrackedStep → Tracked ε
  | .reset => s.use .reset
  | .call c =>
    let (result, world) := Task.exec env (c.perform s.tracker.first) s.world
    match result with
    | .ok v => { s with world }.use (.observe c.name v)
    | .error _ => { s with world }

def run (env : Environment ε) (s : Tracked ε) (steps : List TrackedStep) : Tracked ε :=
  steps.foldl (step env) s

/-- Expected is the first verifier observed since the last reset, and all others agree with it. -/
structure Consistent (config : ClientConfig) (s : Tracked ε) : Prop where
  expects : s.tracker.first = (VerifierTracker.observed s.uses).head?
  agree : ∀ v ∈ VerifierTracker.observed s.uses, (VerifierTracker.observed s.uses).head? = some v
  config : s.world.client.config = config

variable {config : ClientConfig} {s : Tracked ε} {c : StableCall}

theorem Consistent.use_observe (h : s.Consistent config) (name : String) {v : WriteVerifier}
    (hv : s.tracker.first = none ∨ s.tracker.first = some v) :
    (s.use (.observe name v)).Consistent config where
  expects := by
    rw [use, VerifierTracker.observed_concat]
    exact VerifierTracker.first_apply h.expects _
  agree u hu := by
    rw [h.expects] at hv
    rw [use, VerifierTracker.observed_concat, VerifierTracker.observedAfter] at hu ⊢
    rw [List.head?_append]
    obtain hu | hu := List.mem_append.1 hu
    · rw [h.agree u hu, Option.some_or]
    · obtain rfl := List.mem_singleton.1 hu
      obtain hv | hv := hv <;> rw [hv] <;> rfl
  config := h.config

theorem Consistent.step (env : Environment ε) (h : s.Consistent config) (next : TrackedStep) :
    (s.step env next).Consistent config := by
  cases next with
  | reset =>
    have ho : VerifierTracker.observed (s.step env .reset).uses = [] :=
      VerifierTracker.observed_concat s.uses .reset
    refine ⟨?_, ?_, h.config⟩
    · rw [ho]
      rfl
    · rw [ho]
      exact List.forall_mem_nil _
  | call c =>
    have hc := (c.verified s.tracker.first).config env s.world
    rw [h.config] at hc
    cases hx : Task.exec env (c.perform s.tracker.first) s.world with
    | mk result w' =>
      have hl : ({ s with world := w' } : Tracked ε).Consistent config := by
        rw [hx] at hc
        exact ⟨h.expects, h.agree, hc⟩
      simp only [Tracked.step, hx]
      cases result with
      | error e => exact hl
      | ok v =>
        have hr : (Task.exec env (c.perform s.tracker.first) s.world).1 = .ok v := by rw [hx]
        exact hl.use_observe c.name ((c.verified s.tracker.first).accepted env s.world v hr).1

theorem consistent_run (env : Environment ε) (h : s.Consistent config)
    (steps : List TrackedStep) : (s.run env steps).Consistent config := by
  induction steps generalizing s with
  | nil => exact h
  | cons next steps ih => exact ih (h.step env next)

theorem Consistent.compared (h : s.Consistent config) {x : Sending Session} {v : WriteVerifier}
    (hx : x ∈ Task.sendings env (c.perform s.tracker.first) s.world) (hv : c.Shows x v) :
    let shown := VerifierTracker.observed s.uses
    let result := (Task.exec env (c.perform s.tracker.first) s.world).1
    (∀ u ∈ shown, u = v) ∧ result = .ok v ∨ ∃ u, shown.head? = some u ∧ u ≠ v ∧
      result = .error (.serverRestarted config.server c.name u v) := by
  intro shown result
  let check := WriteVerifier.check config.server c.name
  have hc : result = (check s.tracker.first v).map fun _ => v := by
    unfold check
    rw [← h.config]
    exact (c.verified s.tracker.first).compared env s.world x v hx hv
  have hf : s.tracker.first = shown.head? := h.expects
  cases hh : shown.head? with
  | none =>
    have hk : check s.tracker.first v = .ok () := by
      rw [hf, hh]
      rfl
    have hn : shown = [] := List.head?_eq_none_iff.1 hh
    rw [hk] at hc
    refine .inl ⟨?_, hc⟩
    rw [hn]
    exact List.forall_mem_nil _
  | some u =>
    by_cases hu : u = v
    · have hk : check s.tracker.first v = .ok () := by
        rw [hf, hh]
        exact if_pos hu
      rw [hk] at hc
      refine .inl ⟨fun y hy => ?_, hc⟩
      exact (Option.some.inj ((h.agree y hy).symm.trans hh)).trans hu
    · have hk : check s.tracker.first v =
          .error (.serverRestarted config.server c.name u v) := by
        rw [hf, hh]
        exact check_of_ne hu
      rw [hk] at hc
      exact .inr ⟨u, rfl, hu, hc⟩

theorem tracker_of_error {e : ClientError}
    (h : (Task.exec env (c.perform s.tracker.first) s.world).1 = .error e) :
    (s.step env (.call c)).tracker = s.tracker := by
  simp only [step, h]

/-- From one reset to the next all successes show one verifier. Any other that a reply shows makes
its call fail, and no failure makes the tracker expect anything else. -/
theorem run_expects_first (env : Environment ε) (w : World Session ε) (server : String)
    (steps : List TrackedStep) :
    let s := run env ⟨w, { server }, []⟩ steps
    let shown := VerifierTracker.observed s.uses
    s.tracker.first = shown.head? ∧ (∀ u ∈ shown, ∀ v ∈ shown, u = v) ∧
    (∀ c : StableCall,
      let call := c.perform s.tracker.first
      let result := (Task.exec env call s.world).1
      (∀ x ∈ Task.sendings env call s.world, ∀ v, c.Shows x v →
        (∀ u ∈ shown, u = v) ∧ result = .ok v ∨
        ∃ u, shown.head? = some u ∧ u ≠ v ∧
          result = .error (.serverRestarted w.client.config.server c.name u v)) ∧
      (∀ v, result = .ok v → (s.tracker.observe c.name v).1 = .ok () ∧
        ∃ x ∈ Task.sendings env call s.world, c.Shows x v) ∧
      ∀ e, result = .error e → (s.step env (.call c)).tracker = s.tracker) ∧
    ∀ uses procedure v, let t := VerifierTracker.applyAll { server } uses
      ((t.observe procedure v).1 = .ok () ↔ VerifierTracker.observed uses = [] ∨
        (VerifierTracker.observed uses).head? = some v) ∧
      ((t.observe procedure v).1 ≠ .ok () → (t.observe procedure v).2 = t) := by
  intro s shown
  have hstart : Consistent w.client.config ⟨w, { server }, []⟩ :=
    ⟨rfl, List.forall_mem_nil _, rfl⟩
  have hs : s.Consistent w.client.config := consistent_run env hstart steps
  refine ⟨hs.expects, fun u hu v hv => ?_, fun c => ⟨fun x hx v hv => ?_, fun v hv => ?_,
    fun e he => ?_⟩, fun uses procedure v => ⟨?_, fun h => VerifierTracker.observe_of_not_ok h⟩⟩
  · exact Option.some.inj ((hs.agree u hu).symm.trans (hs.agree v hv))
  · exact hs.compared hx hv
  · obtain ⟨hf, hx⟩ := (c.verified s.tracker.first).accepted env s.world v hv
    exact ⟨(VerifierTracker.observe_ok_iff _ _ _).2 hf, hx⟩
  · exact tracker_of_error he
  · rw [VerifierTracker.observe_ok_iff, VerifierTracker.first_applyAll, List.head?_eq_none_iff]

/-- The server restarts after it showed a verifier that ends with five. -/
def restarting : World Session Playback :=
  let written (n : UInt8) : RecordedAnswer :=
    .reply 0 [0, 0, 0, 1, 0, 0, 0, 0, 0, 0, 0, 0, 0, 0, 0, 0, 0, 0, 0, 0, 0, 0, 0, 0,
      0, 0, 0, 0, 0, 0, 0, 0, 0, 0, 0, 1, 0, 0, 0, 0, 0, 0, 0, 0, 0, 0, 0, n]
  { reborn with
    outside := { reborn.outside with rules := [], script := [written 5, written 6, written 6] } }

/-- The verifier of the restarted server is adopted after the reset, not before. -/
example :
    let after (steps : List TrackedStep) :=
      (run Playback.environment ⟨restarting, { server := "server" }, []⟩ steps).tracker.first
    let write := TrackedStep.call (.write oneByte)
    after [write, write] = some five ∧ after [write, write, .reset, write] = some six := by
  decide +kernel

end Tracked

end Session
end Client
end Nfs3
