import Nfs3.Proofs.Client.StaleRoot
import Nfs3.Proofs.Client.Timeline

/-!
What an operation of a session does, stage by stage: a handshake if the session is not mounted, one
procedure call, and another handshake if the call found the root stale.
-/
namespace Nfs3.Client
open Wire Rpc
variable {σ ε α β : Type} {env : Environment ε}

theorem Task.bind_assoc {γ : Type} (t : Task σ α) (f : α → Task σ β) (g : β → Task σ γ) :
    t >>= f >>= g = t >>= fun v => f v >>= g := by
  have h : ((ExceptT.run t).bind (ExceptT.bindCont f)).bind (ExceptT.bindCont g) =
      (ExceptT.run t).bind (ExceptT.bindCont fun v => f v >>= g) := by
    rw [Program.bind_assoc]
    congr 1
    funext r
    cases r <;> rfl
  exact h

namespace Session
variable {w w₁ w' : World Session ε}

/-- The handshake was made in its first world, and came to its result in its last. -/
def Handshake.Ran (env : Environment ε) (h : Handshake ε) : Prop :=
  Task.exec env handshake h.start = (h.result, h.finish)

def Handshake.ids (env : Environment ε) (h : Handshake ε) : List UInt32 :=
  (ExceptT.run handshake).ids env h.start

/-- A run with all that is sent and all ids that are drawn in it. -/
structure Account (env : Environment ε) (p : Program Session α) (w : World Session ε)
    (es : List (Entry ε)) (ids : List UInt32) (v : α) (w' : World Session ε) : Prop where
  timeline : Timeline env p w es v w'
  ids : p.ids env w = ids

namespace Account
variable {es es' : List (Entry ε)} {xs ys : List UInt32} {v : α} {u : β}

theorem bind {p : Program Session α} {f : α → Program Session β} (h : Account env p w es xs v w₁)
    (h' : Account env (f v) w₁ es' ys u w') :
    Account env (p.bind f) w (es ++ es') (xs ++ ys) u w' where
  timeline := h.timeline.bind h'.timeline
  ids := by rw [Program.ids_bind, h.timeline.performs.run_eq, h.ids, h'.ids]

theorem done (v : α) : Account env (.done v) w [] [] v w := ⟨.done v w, rfl⟩

theorem quiet (env : Environment ε) {p : Program Session α} (h : p.Only Quiet)
    (w : World Session ε) : Account env p w ((p.sendings env w).map .sent) (p.ids env w)
      (p.run env w).1 (p.run env w).2 :=
  ⟨.quiet env h w, rfl⟩

theorem map {p : Program Session α} (h : Account env p w es xs v w') (f : α → β) :
    Account env (p.bind fun v => .done (f v)) w es xs (f v) w' := by
  have hb := h.bind (f := fun v => .done (f v)) (.done (f v))
  rwa [List.append_nil, List.append_nil] at hb

theorem task_bind {t : Task Session α} {f : α → Task Session β} {r : Except ClientError β}
    (h : Account env (ExceptT.run t) w es xs (.ok v) w₁)
    (h' : Account env (ExceptT.run (f v)) w₁ es' ys r w') :
    Account env (ExceptT.run (t >>= f)) w (es ++ es') (xs ++ ys) r w' :=
  bind h h'

theorem task_error {t : Task Session α} {f : α → Task Session β} {e : ClientError}
    (h : Account env (ExceptT.run t) w es xs (.error e) w') :
    Account env (ExceptT.run (t >>= f)) w es xs (.error e) w' := by
  have hb := h.bind (f := ExceptT.bindCont f) (.done (Except.error e))
  rwa [List.append_nil, List.append_nil] at hb

theorem inspect_bind {f : Session → Task Session α} {r : Except ClientError α}
    (h : Account env (ExceptT.run (f w.client)) w es xs r w') :
    Account env (ExceptT.run (Task.lift .inspect >>= f)) w es xs r w' :=
  ⟨.act trivial h.timeline, h.ids⟩

theorem locked {p : Program Session α} (h : Account env p w es xs v w') :
    Account env p.locked w es xs v w' := by
  have hr : Account env ((Program.ask .release).bind fun _ => .done v) w' [] [] v w' :=
    ⟨.act trivial (.done _ _), rfl⟩
  have hb := h.bind (f := fun v => (Program.ask .release).bind fun _ => .done v) hr
  rw [List.append_nil, List.append_nil] at hb
  exact ⟨.act trivial hb.timeline, hb.ids⟩

theorem handshake {h : Handshake ε} (hh : h.Ran env) :
    Account env (ExceptT.run Session.handshake) h.start [.handshake h] (h.ids env) h.result
      h.finish :=
  ⟨.self hh, rfl⟩

theorem refresh {h : Handshake ε} (hh : h.Ran env) {generation : UInt64}
    (hg : h.start.client.mounting.mountedRoot = none ∨
      h.start.client.mounting.generation = generation) :
    Account env (ExceptT.run (Session.refresh generation)) h.start [.handshake h] (h.ids env)
      h.result h.finish := by
  refine locked (inspect_bind ?_)
  split
  · rename_i root hr
    rw [hr] at hg
    obtain hg | hg := hg
    · cases hg
    · rw [if_neg (not_not.2 hg)]
      exact handshake hh
  · exact handshake hh

end Account

def after (h : Option (Handshake ε)) (w : World Session ε) : World Session ε :=
  h.elim w Handshake.finish

def entryOf (h : Option (Handshake ε)) : List (Entry ε) := h.toList.map .handshake

def idsOf (env : Environment ε) (h : Option (Handshake ε)) : List UInt32 := h.elim [] (·.ids env)

@[simp] theorem after_none (w : World Session ε) : after none w = w := rfl

@[simp] theorem entryOf_none : entryOf (none : Option (Handshake ε)) = [] := rfl

@[simp] theorem idsOf_none : idsOf env none = [] := rfl

theorem handshakesOf_entryOf (h : Option (Handshake ε)) : handshakesOf (entryOf h) = h.toList := by
  cases h <;> rfl

theorem exists_handshake (env : Environment ε) (w : World Session ε) :
    ∃ h : Handshake ε, h.start = w ∧ h.Ran env := by
  obtain ⟨result, w', hx⟩ : ∃ result w', Task.exec env handshake w = (result, w') := ⟨_, _, rfl⟩
  exact ⟨⟨w, result, w'⟩, rfl, hx⟩

theorem Account.refresh_some {h : Handshake ε} (hh : h.Ran env) {generation : UInt64}
    (hg : h.start.client.mounting.mountedRoot = none ∨
      h.start.client.mounting.generation = generation) :
    Account env (ExceptT.run (Session.refresh generation)) h.start (entryOf (some h))
      (idsOf env (some h)) h.result (after (some h) h.start) :=
  .refresh hh hg

theorem Handshake.Ran.mounted_iff {h : Handshake ε} (hh : h.Ran env) :
    h.finish.client.mounting.mountedRoot ≠ none ↔ ∃ root, h.result = .ok root := by
  obtain ⟨hc, hu⟩ | ⟨-, mounted, port, hf, hs⟩ := handshake_cases hh
  · obtain ⟨phase, hp, hm⟩ := hu.mounting
    rw [hm]
    cases hr : h.result with
    | ok root =>
      rw [Handshake.completed, hr] at hc
      cases hc
    | error e => cases phase <;> first | exact (hp rfl).elim | simp [MountState.mountedRoot,
        MountState.enter]
  · rw [hf.mounting]
    exact iff_of_true (Option.some_ne_none _) ⟨_, hs.result⟩

theorem mount_account (env : Environment ε) (w : World Session ε) :
    ∃ (first : Option (Handshake ε)) (v : Except ClientError FileHandle),
      (∀ h ∈ first, h.start = w ∧ h.Ran env ∧ w.client.mounting.mountedRoot = none) ∧
      Account env (ExceptT.run mount) w (entryOf first) (idsOf env first) v (after first w) ∧
      ((after first w).client.mounting.mountedRoot ≠ none ↔ ∃ root, v = .ok root) := by
  cases hr : w.client.mounting.mountedRoot with
  | some root =>
    refine ⟨none, .ok root, fun _ h => (Option.not_mem_none _ h).elim, .inspect_bind ?_, ?_⟩
    · rw [hr]
      exact .done _
    · exact iff_of_true (ne_of_eq_of_ne hr nofun) ⟨root, rfl⟩
  | none =>
    obtain ⟨h, rfl, hh⟩ := exists_handshake env w
    refine ⟨some h, h.result, fun g hg => ?_, .inspect_bind ?_, hh.mounted_iff⟩
    · obtain rfl := Option.mem_some.1 hg
      exact ⟨rfl, hh, rfl⟩
    · rw [hr]
      exact .refresh_some hh (.inl hr)

/-- The call of an operation, on a session that is mounted. Setting the credential does not need
one. -/
def Operation.asking : Operation → Program Session Unit
  | .null => ignore do
    let s ← Task.lift .inspect
    let r ← Task.lift (Request.fresh () s.credential)
    (Dispatcher.call Procedures.null r Dispatcher.acceptAny).onPart nfsCallsPart
  | .mountNull => ignore do
    let s ← Task.lift .inspect
    let r ← Task.lift (Request.fresh () s.credential)
    callMount Procedures.mountNull r
  | .call p validate args => ignore (sendCall p validate args)
  | .setCredential credential => Session.setCredential credential
  | _ => .done ()

/-- The call comes to a reply by which the root, one of its arguments, is stale. -/
def Operation.FindsRootStale (env : Environment ε) (w : World Session ε) : Operation → Prop
  | .call p validate args => ∃ reply w', Task.exec env (sendCall p validate args) w =
      (.ok reply, w') ∧ isStale reply.status = true ∧
      (p.handles args).any (some · = w.client.mounting.root) = true
  | _ => False

/-- An operation from `w`: a handshake, the program `p`, which is the call if the session is mounted
by then, and another handshake. -/
structure Stages (env : Environment ε) (op : Operation) (w : World Session ε)
    (first : Option (Handshake ε)) (p : Program Session Unit) (second : Option (Handshake ε)) :
    Prop where
  mounts : ∀ h ∈ first, h.start = w ∧ h.Ran env ∧
    (w.client.mounting.mountedRoot = none ∨ op = .remount)
  asks : p = op.asking ∧ ((after first w).client.mounting.mountedRoot = none →
      ∃ credential, op = .setCredential credential) ∨
    p = .done () ∧ (after first w).client.mounting.mountedRoot = none
  remounts : ∀ h ∈ second, h.start = (p.run env (after first w)).2 ∧ h.Ran env ∧
    op.FindsRootStale env (after first w)
  account : Account env op.program w
    (entryOf first ++ (p.sendings env (after first w)).map .sent ++ entryOf second)
    (idsOf env first ++ p.ids env (after first w) ++ idsOf env second) ()
    (after second (p.run env (after first w)).2)

section Ignore
variable (t : Task Session α)

theorem run_ignore : (ignore t).run env w = ((), (Task.exec env t w).2) := Program.run_bind ..

theorem sendings_ignore : (ignore t).sendings env w = Task.sendings env t w := by
  unfold ignore
  rw [Program.sendings_bind]
  exact List.append_nil _

theorem ids_ignore : (ignore t).ids env w = (ExceptT.run t).ids env w := by
  unfold ignore
  rw [Program.ids_bind]
  exact List.append_nil _

end Ignore

namespace Stages
variable {op : Operation} {first : Option (Handshake ε)}

theorem of_mounts {v : Unit}
    (hm : ∀ h ∈ first, h.start = w ∧ h.Ran env ∧
      (w.client.mounting.mountedRoot = none ∨ op = .remount))
    (ha : .done () = op.asking ∨ (after first w).client.mounting.mountedRoot = none)
    (h : Account env op.program w (entryOf first) (idsOf env first) v (after first w)) :
    Stages env op w first (.done ()) none where
  mounts := hm
  asks := by
    by_cases hn : (after first w).client.mounting.mountedRoot = none
    · exact .inr ⟨rfl, hn⟩
    · exact .inl ⟨ha.resolve_right hn, fun h => (hn h).elim⟩
  remounts _ h := (Option.not_mem_none _ h).elim
  account := by
    simp only [Program.sendings, Program.ids, List.map_nil, entryOf_none, idsOf_none,
      List.append_nil]
    exact h

theorem exists_of_call {t : Task Session α} {u : Task Session β}
    (hp : op.program = ignore (mount >>= fun _ => u)) (ha : op.asking = ignore t)
    (hu : ∀ w₁ : World Session ε, ∃ (second : Option (Handshake ε)) (r : Except ClientError β),
      (∀ h ∈ second, h.start = (Task.exec env t w₁).2 ∧ h.Ran env ∧ op.FindsRootStale env w₁) ∧
      Account env (ExceptT.run u) w₁ ((Task.sendings env t w₁).map .sent ++ entryOf second)
        ((ExceptT.run t).ids env w₁ ++ idsOf env second) r
        (after second (Task.exec env t w₁).2))
    (w : World Session ε) : ∃ first p second, Stages env op w first p second := by
  obtain ⟨first, v, hm, hmount, hv⟩ := mount_account env w
  have hm' : ∀ h ∈ first, h.start = w ∧ h.Ran env ∧
      (w.client.mounting.mountedRoot = none ∨ op = .remount) := fun h hh =>
    (hm h hh).imp_right (And.imp_right .inl)
  cases v with
  | error e =>
    have hn : (after first w).client.mounting.mountedRoot = none := by
      by_contra h
      obtain ⟨root, hr⟩ := hv.1 h
      cases hr
    refine ⟨first, _, none, of_mounts hm' (.inr hn) (v := ()) ?_⟩
    rw [hp]
    exact (Account.task_error hmount).map fun _ => ()
  | ok root =>
    obtain ⟨second, r, hs, hcall⟩ := hu (after first w)
    have h := (Account.task_bind (f := fun _ => u) hmount hcall).map fun _ => ()
    rw [← List.append_assoc, ← List.append_assoc] at h
    have hroot : (after first w).client.mounting.mountedRoot ≠ none := hv.2 ⟨root, rfl⟩
    refine ⟨first, op.asking, second, hm', .inl ⟨rfl, fun hn => (hroot hn).elim⟩, ?_, ?_⟩
    · rw [ha, run_ignore]
      exact hs
    · rw [ha, run_ignore, sendings_ignore, ids_ignore, hp]
      exact h

end Stages

def sendAs (s : Session) {Args Ok Fail : Type} (p : FileProcedure Args Ok Fail)
    (validate : String → Args → NfsReply Ok Fail → Except ClientError Unit) (args : Args) :
    Task Session (NfsReply Ok Fail) := do
  let request ← Task.lift (Request.fresh args s.credential)
  (Dispatcher.call p.toProcedure
    { request with routingKey := routingKey s.config.hashing (p.handle args) }
    (validate s.config.server)).onPart nfsCallsPart

section Call
variable {Args Ok Fail : Type} {p : FileProcedure Args Ok Fail}
  {validate : String → Args → NfsReply Ok Fail → Except ClientError Unit} {args : Args}

theorem quiet_sendAs (s : Session) : Task.Only Quiet (sendAs s p validate args) :=
  Task.only_bind (Task.only_lift (quiet_fresh _ _)) fun _ => quiet_nfsCalls Dispatcher.only_call

theorem callValidated_eq : callValidated p validate args = mount >>= fun _ =>
    Task.lift .inspect >>= fun s =>
      sendAs s p validate args >>= settle p args s.mounting.generation := by
  unfold callValidated sendAs
  simp only [Task.bind_assoc]

theorem settle_account (p : FileProcedure Args Ok Fail) (args : Args) {generation : UInt64}
    (hg : w.client.mounting.generation = generation)
    (reply : NfsReply Ok Fail) : ∃ second : Option (Handshake ε),
      (∀ h ∈ second, h.start = w ∧ h.Ran env ∧ isStale reply.status = true ∧
        (p.handles args).any (some · = w.client.mounting.root) = true) ∧
      Account env (ExceptT.run (settle p args generation reply)) w (entryOf second)
        (idsOf env second) (outcome w.client.config.server p.name reply) (after second w) := by
  by_cases hs : isStale reply.status = true
  · by_cases hr : (p.handles args).any (some · = w.client.mounting.root) = true
    · obtain ⟨h, rfl, hh⟩ := exists_handshake env w
      refine ⟨some h, fun g hg => ?_, .inspect_bind ?_⟩
      · obtain rfl := Option.mem_some.1 hg
        exact ⟨rfl, hh, hs, hr⟩
      · rw [hs, hr, if_pos rfl, if_pos rfl, Performs.outcome_of_stale hs]
        let e : ClientError := .staleHandle h.start.client.config.server p.name reply.status
        have hm : Account env (ExceptT.run (Task.lift (refresh generation).run)) _ _ _
          (.ok h.result) _ := (Account.refresh_some hh (.inr hg)).map Except.ok
        have he := hm.task_bind (f := fun _ => (throw e : Task Session Ok))
          (.done (Except.error e))
        rwa [List.append_nil, List.append_nil] at he
    · refine ⟨none, fun _ h => (Option.not_mem_none _ h).elim, .inspect_bind ?_⟩
      rw [hs, if_pos rfl, if_neg hr, Performs.outcome_of_stale hs]
      exact .done _
  · refine ⟨none, fun _ h => (Option.not_mem_none _ h).elim, .inspect_bind ?_⟩
    rw [if_neg hs]
    cases reply with
    | ok v => exact .done _
    | fail status body =>
      have hf : isStale status = false := eq_false_of_ne_true hs
      rw [outcome, hf]
      exact .done _

end Call

theorem quiet_request {Args : Type} (args : Args) {f : Request Args → Task Session α}
    (hf : ∀ r, Task.Only Quiet (f r)) : Task.Only Quiet (do
      let s ← Task.lift .inspect
      let r ← Task.lift (Request.fresh args s.credential)
      f r) :=
  Task.only_bind (Task.only_lift (Program.only_ask trivial)) fun _ =>
    Task.only_bind (Task.only_lift (quiet_fresh _ _)) hf

namespace Stages
variable {op : Operation}

theorem exists_of_quiet {t : Task Session Unit} (hp : op.program = ignore (mount >>= fun _ => t))
    (ha : op.asking = ignore t) (hq : Task.Only Quiet t) (w : World Session ε) :
    ∃ first p second, Stages env op w first p second := by
  refine exists_of_call hp ha (fun w₁ => ⟨none, (Task.exec env t w₁).1, ?_, ?_⟩) w
  · exact fun _ h => (Option.not_mem_none _ h).elim
  · have h := Account.quiet env hq w₁
    rw [entryOf_none, idsOf_none, List.append_nil, List.append_nil, after_none]
    exact h

theorem exists_of_callValidated {Args Ok Fail : Type} (p : FileProcedure Args Ok Fail)
    (validate : String → Args → NfsReply Ok Fail → Except ClientError Unit) (args : Args)
    (w : World Session ε) :
    ∃ first q second, Stages env (.call p validate args) w first q second := by
  have hp : (Operation.call p validate args).program = ignore (mount >>= fun _ =>
      Task.lift .inspect >>= fun s =>
        sendAs s p validate args >>= settle p args s.mounting.generation) :=
    congrArg ignore callValidated_eq
  refine exists_of_call (t := sendCall p validate args) hp rfl (fun w₁ => ?_) w
  have h : Account env (ExceptT.run (sendAs w₁.client p validate args)) w₁
      ((Task.sendings env (sendCall p validate args) w₁).map .sent)
      ((ExceptT.run (sendCall p validate args)).ids env w₁)
      (Task.exec env (sendCall p validate args) w₁).1
      (Task.exec env (sendCall p validate args) w₁).2 := .quiet env (quiet_sendAs w₁.client) w₁
  cases hx : Task.exec env (sendCall p validate args) w₁ with
  | mk result w₂ =>
    rw [hx] at h
    cases result with
    | error e =>
      refine ⟨none, .error e, fun _ h => (Option.not_mem_none _ h).elim, ?_⟩
      have he := Account.inspect_bind (f := fun s =>
        sendAs s p validate args >>= settle p args s.mounting.generation) h.task_error
      rw [entryOf_none, idsOf_none, List.append_nil, List.append_nil, after_none]
      exact he
    | ok reply =>
      have hk : w₂.client.mounting = w₁.client.mounting :=
        congrArg (·.mounting) (Task.keeps_exec apartFromEscalation keeps_sendCall hx)
      obtain ⟨second, hs, ha⟩ := settle_account p args (congrArg MountState.generation hk) reply
      refine ⟨second, _, fun h hh => ?_, .inspect_bind (h.task_bind ha)⟩
      obtain ⟨hstart, hran, hstale, hroot⟩ := hs h hh
      rw [hk] at hroot
      exact ⟨hstart, hran, reply, w₂, hx, hstale, hroot⟩

end Stages

/-- Every operation goes through these stages, whatever it is answered. -/
theorem exists_stages (env : Environment ε) (op : Operation) (w : World Session ε) :
    ∃ first p second, Stages env op w first p second := by
  cases op with
  | mount =>
    obtain ⟨first, v, hm, h, -⟩ := mount_account env w
    exact ⟨first, _, none, .of_mounts (v := ()) (fun h hh => (hm h hh).imp_right
      (And.imp_right .inl)) (.inl rfl) (h.map fun _ => ())⟩
  | remount =>
    obtain ⟨h, rfl, hh⟩ := exists_handshake env w
    refine ⟨some h, _, none, .of_mounts (v := ()) (fun g hg => ?_) (.inl rfl) ?_⟩
    · obtain rfl := Option.mem_some.1 hg
      exact ⟨rfl, hh, .inr rfl⟩
    · exact (Account.inspect_bind (.refresh_some hh (.inr rfl))).map fun _ => ()
  | rootHandle =>
    obtain ⟨first, v, hm, h, -⟩ := mount_account env w
    have hr : ∃ v, Account env (ExceptT.run rootHandle) w (entryOf first) (idsOf env first) v
        (after first w) := by
      cases hr : w.client.mounting.mountedRoot with
      | none =>
        refine ⟨v, .inspect_bind ?_⟩
        rw [hr]
        exact h
      | some root =>
        obtain rfl : first = none := Option.eq_none_iff_forall_not_mem.2 fun h hh => by
          obtain ⟨-, -, hn⟩ := hm h hh
          rw [hr] at hn
          cases hn
        refine ⟨.ok root, .inspect_bind ?_⟩
        rw [hr]
        exact .done _
    obtain ⟨v, h⟩ := hr
    exact ⟨first, _, none, .of_mounts (v := ()) (fun h hh => (hm h hh).imp_right
      (And.imp_right .inl)) (.inl rfl) (h.map fun _ => ())⟩
  | null =>
    have hq (r : Request Unit) : Task.Only Quiet
        ((Dispatcher.call Procedures.null r Dispatcher.acceptAny).onPart nfsCallsPart) :=
      quiet_nfsCalls Dispatcher.only_call
    exact Stages.exists_of_quiet rfl rfl (quiet_request () hq) w
  | mountNull =>
    exact Stages.exists_of_quiet rfl rfl (quiet_request () (quiet_callMount Procedures.mountNull)) w
  | setCredential credential =>
    have hq : (Operation.setCredential credential).asking.Only Quiet :=
      Program.only_ask fun _ => ⟨rfl, rfl, rfl, rfl⟩
    have h := Account.quiet env hq w
    refine ⟨none, _, none, fun _ h => (Option.not_mem_none _ h).elim, .inl ⟨rfl, fun _ => ⟨_, rfl⟩⟩,
      fun _ h => (Option.not_mem_none _ h).elim, ?_⟩
    simp only [entryOf_none, idsOf_none, after_none, List.append_nil, List.nil_append]
    exact h
  | call p validate args => exact Stages.exists_of_callValidated p validate args w

end Session
end Nfs3.Client
