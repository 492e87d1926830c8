import Nfs3.Proofs.Client.RefreshProtocol

/-!
Any number of callers on one session. Whatever the order of their steps, they follow the protocol of
refreshes, and so share handshakes.
-/
namespace Nfs3.Client
open Wire Rpc
variable {ι α β : Type}

/-- What happens outside of refreshes: the lock and what is known of the export are left alone. -/
def Action.Apart (a : Action Session) : Prop := a.LockFree ∧ a.Keeps (·.mounting)

/-- What happens within a handshake, until it completes. -/
def Action.Steady (a : Action Session) : Prop :=
  a.LockFree ∧ a.Keeps fun s => (s.mounting.generation, s.mounting.root)

theorem Action.Apart.steady {a : Action Session} (h : a.Apart) : a.Steady := by
  refine ⟨h.1, ?_⟩
  cases a with
  | update f =>
    intro s
    have hs : (f s).mounting = s.mounting := h.2 s
    simp only [hs]
  | _ => trivial

namespace Session

theorem apart_inspect : Task.Only Action.Apart (Task.lift .inspect) :=
  Task.only_lift (Program.only_ask ⟨trivial, trivial⟩)

theorem apart_fresh {Args : Type} (args : Args) (credential : Credential) :
    (Request.fresh args credential : Program Session _).Only Action.Apart :=
  Program.only_bind (Program.only_ask ⟨trivial, trivial⟩) fun _ => trivial

theorem apart_callMount {Args Reply : Type} (p : Procedure Args Reply) (r : Request Args) :
    Task.Only Action.Apart (callMount p r) :=
  Program.only_and (Program.lockFree_onPart Dispatcher.lockFree_call)
    (keeps_callMount (fun _ _ => rfl) p r)

theorem apart_callNfs {Args Reply : Type} (p : Procedure Args Reply) (r : Request Args)
    (validate : Args → Reply → Except ClientError Unit) :
    Task.Only Action.Apart ((Dispatcher.call p r validate).onPart nfsCallsPart) :=
  Program.only_and (Program.lockFree_onPart Dispatcher.lockFree_call)
    (Program.keeps_onPart (Program.only_true _) fun _ _ _ => rfl)

theorem apart_resolvePort (configured : Option UInt16) (service : Service) :
    Task.Only Action.Apart (resolvePort configured service) := by
  cases configured with
  | some port => trivial
  | none =>
    refine Task.only_bind apart_inspect fun s => ?_
    split
    · exact Program.only_and (Program.lockFree_onPart (Portmapper.lockFree_resolve _ _))
        (Program.keeps_onPart (Program.only_true _) fun _ _ _ => rfl)
    · exact Program.only_ask ⟨trivial, trivial⟩

theorem apart_setPort {part : Part Session Dispatcher}
    (h : ∀ f s, (part.modify f s).mounting = s.mounting) (port : UInt16) :
    ((Dispatcher.setPort port).onPart part).Only Action.Apart :=
  Program.only_and (Program.lockFree_onPart (Dispatcher.lockFree_setPort port))
    (Program.keeps_onPart (Program.only_true _) fun f s _ => h f s)

end Session

/-- The rest of a handshake: steady steps on the way to an error, or to the last step that completes
it. -/
inductive Shaking : Program Session (Except ClientError FileHandle) → Prop where
  | fails (e : ClientError) : Shaking (.done (.error e))
  | completes (mounted : Mounted) :
    Shaking (.act (.update fun s => { s with mounting := s.mounting.complete mounted })
      fun _ => .done (.ok ⟨mounted.handle⟩))
  | step {a : Action Session} {next : a.Answer → Program Session (Except ClientError FileHandle)} :
    a.Steady → (∀ r, Shaking (next r)) → Shaking (.act a next)

namespace Shaking

theorem task_bind {t : Task Session α} {f : α → Task Session FileHandle}
    (ht : Task.Only Action.Steady t) (hf : ∀ v, Shaking (ExceptT.run (f v))) :
    Shaking (ExceptT.run (t >>= f)) := by
  have h (p : Program Session (Except ClientError α)) (hp : p.Only Action.Steady) :
      Shaking (p.bind (ExceptT.bindCont f)) := by
    induction p with
    | done r =>
      cases r with
      | ok v => exact hf v
      | error e => exact .fails e
    | act a next ih => exact .step hp.1 fun r => ih r (hp.2 r)
  exact h _ ht

theorem apart_bind {t : Task Session α} {f : α → Task Session FileHandle}
    (ht : Task.Only Action.Apart t) (hf : ∀ v, Shaking (ExceptT.run (f v))) :
    Shaking (ExceptT.run (t >>= f)) :=
  task_bind (Program.only_mono ht fun _ h => h.steady) hf

theorem enter_bind (phase : MountPhase) {f : Unit → Task Session FileHandle}
    (hf : ∀ v, Shaking (ExceptT.run (f v))) :
    Shaking (ExceptT.run (Session.remember (.enter phase) >>= f)) :=
  task_bind (Task.only_lift (Program.only_ask ⟨trivial, fun _ => rfl⟩)) hf

theorem conclude (config : ClientConfig) (credential : Credential) (mounted : Mounted) :
    Shaking (ExceptT.run (Session.conclude config credential mounted)) := by
  refine apart_bind (Task.only_lift (Session.apart_fresh _ _)) fun release => ?_
  refine apart_bind (Task.only_lift (Session.apart_callMount _ _)) fun _ => ?_
  refine apart_bind (Session.apart_resolvePort _ _) fun port => ?_
  refine apart_bind (Task.only_lift (Session.apart_setPort (fun _ _ => rfl) port)) fun _ => ?_
  exact .completes mounted

theorem handshake : Shaking (ExceptT.run Session.handshake) := by
  rw [Session.handshake_eq]
  refine apart_bind Session.apart_inspect fun s => enter_bind _ fun _ => ?_
  refine apart_bind (Session.apart_resolvePort _ _) fun port => ?_
  refine apart_bind (Task.only_lift (Session.apart_setPort (fun _ _ => rfl) port)) fun _ => ?_
  refine enter_bind _ fun _ => apart_bind Session.apart_inspect fun s' => ?_
  refine apart_bind (Task.only_lift (Session.apart_fresh _ _)) fun request => ?_
  refine apart_bind (Session.apart_callMount _ _) fun reply => ?_
  cases reply with
  | ok mounted => exact conclude _ _ mounted
  | refused status => exact .fails _

end Shaking

def look (g : UInt64) (next : Except ClientError FileHandle → Marked Session Milestone α) :
    Marked Session Milestone α :=
  .act .inspect noMarks fun s =>
    ((Watched.choose g s.mounting).bind (Watched.leave g)).bind next

/-- A program outside of refreshes that has seen the generations after `first` up to `n` completed
handshakes at most, and refreshes for those it sees only. -/
inductive Outside (first : Nat) : Nat → Marked Session Milestone α → Prop where
  | done {n : Nat} {v : α} : Outside first n (.done v)
  | step {n : Nat} {a : Action Session} {next : a.Answer → Marked Session Milestone α} :
    a.Apart → (∀ r, Outside first n (next r)) → Outside first n (.act a noMarks next)
  | inspect {n : Nat} {next : Session → Marked Session Milestone α} :
    (∀ s k, s.mounting.generation = .ofNat k → first ≤ k → n ≤ k → Outside first k (next s)) →
    Outside first n (.act .inspect noMarks next)
  | refresh {n k : Nat} {next : Except ClientError FileHandle → Marked Session Milestone α} :
    first ≤ k → k ≤ n → (∀ result, Outside first n (next result)) →
    Outside first n (.act .acquire (fun s _ => [.admitted (.ofNat k) s.mounting]) fun _ =>
      look (.ofNat k) next)

namespace Outside
variable {first n n' : Nat}

theorem mono {m : Marked Session Milestone α} (h : Outside first n m) (hn : n ≤ n') :
    Outside first n' m := by
  induction h generalizing n' with
  | done => exact .done
  | step ha _ ih => exact .step ha fun r => ih r hn
  | inspect h _ => exact .inspect fun s k hk hf hs => h s k hk hf (Nat.le_trans hn hs)
  | refresh hf hk _ ih => exact .refresh hf (Nat.le_trans hk hn) fun r => ih r hn

theorem bind {m : Marked Session Milestone α} {f : α → Marked Session Milestone β}
    (h : Outside first n m) (hf : ∀ n' v, n ≤ n' → Outside first n' (f v)) :
    Outside first n (m.bind f) := by
  induction h with
  | done => exact hf _ _ (Nat.le_refl _)
  | step ha _ ih => exact .step ha fun r => ih r hf
  | inspect _ ih =>
    exact .inspect fun s k hk hge hs => ih s k hk hge hs fun n' v hn => hf n' v (Nat.le_trans hs hn)
  | @refresh n k next hge hk _ ih =>
    have h : (look (.ofNat k) next).bind f = look (.ofNat k) fun r => (next r).bind f := by
      simp only [look, Marked.bind, Marked.bind_assoc]
    have ho : Outside first n (.act .acquire (fun s _ => [.admitted (.ofNat k) s.mounting]) fun _ =>
        (look (.ofNat k) next).bind f) := by
      rw [h]
      exact .refresh hge hk fun r => ih r hf
    exact ho

theorem unmarked {p : Program Session α} (h : p.Only Action.Apart) :
    Outside first n p.unmarked := by
  induction p with
  | done v => exact .done
  | act a next ih => exact .step h.1 fun r => ih r (h.2 r)

theorem task_bind {t : Watched α} {f : α → Watched β} (h : Outside first n (ExceptT.run t))
    (hf : ∀ n' v, n ≤ n' → Outside first n' (ExceptT.run (f v))) :
    Outside first n (ExceptT.run (t >>= f)) := by
  refine h.bind fun n' r hn => ?_
  cases r with
  | ok v => exact hf n' v hn
  | error e => exact .done

theorem inspect_bind {f : Session → Watched α} (hf : ∀ s k, s.mounting.generation = .ofNat k →
    first ≤ k → n ≤ k → Outside first k (ExceptT.run (f s))) :
    Outside first n (ExceptT.run (Watched.inspect >>= f)) :=
  .inspect hf

theorem refresh_run {g : UInt64} {k : Nat} (hg : g = .ofNat k) (hf : first ≤ k) (hk : k ≤ n) :
    Outside first n (ExceptT.run (Watched.refresh g)) := by
  subst hg
  have ho : Outside first n (.act .acquire (fun s _ => [.admitted (.ofNat k) s.mounting]) fun _ =>
      look (.ofNat k) .done) :=
    .refresh hf hk fun _ => .done
  simp only [look, Marked.bind_done] at ho
  exact ho

theorem mount : Outside first n (ExceptT.run Watched.mount) := by
  refine inspect_bind fun s k hg hf _ => ?_
  split
  · exact .done
  · exact refresh_run hg hf (Nat.le_refl _)

theorem rootHandle : Outside first n (ExceptT.run Watched.rootHandle) := by
  refine inspect_bind fun s _ _ _ _ => ?_
  split
  · exact .done
  · exact mount

theorem remount : Outside first n (ExceptT.run Watched.remount) :=
  inspect_bind fun _ _ hg hf _ => refresh_run hg hf (Nat.le_refl _)

theorem ofTask {t : Task Session α} (h : Task.Only Action.Apart t) :
    Outside first n (ExceptT.run (Watched.ofTask t)) :=
  unmarked h

theorem fresh {Args : Type} (args : Args) (credential : Credential) :
    Outside first n (ExceptT.run (Watched.ofTask (Task.lift (Request.fresh args credential)))) :=
  ofTask (Task.only_lift (Session.apart_fresh args credential))

theorem null : Outside first n (ExceptT.run Watched.null) :=
  mount.task_bind fun _ _ _ => inspect_bind fun _ _ _ _ _ => (fresh _ _).task_bind fun _ _ _ =>
    ofTask (Session.apart_callNfs _ _ _)

theorem mountNull : Outside first n (ExceptT.run Watched.mountNull) :=
  mount.task_bind fun _ _ _ => inspect_bind fun _ _ _ _ _ => (fresh _ _).task_bind fun _ _ _ =>
    ofTask (Session.apart_callMount _ _)

theorem attempt {t : Watched α} (h : Outside first n (ExceptT.run t)) :
    Outside first n (ExceptT.run (Watched.attempt t)) :=
  h.bind fun _ _ _ => .done

theorem settle {Args Ok Fail : Type} (p : FileProcedure Args Ok Fail) (args : Args) {g : UInt64}
    {k : Nat} (hg : g = .ofNat k) (hf : first ≤ k) (hk : k ≤ n) (reply : NfsReply Ok Fail) :
    Outside first n (ExceptT.run (Watched.settle p args g reply)) := by
  refine inspect_bind fun s _ _ _ hs => ?_
  split
  · split
    · exact (attempt (refresh_run hg hf (Nat.le_trans hk hs))).task_bind fun _ _ _ => .done
    · exact .done
  · exact ofTask (Task.only_ofExcept _)

theorem callValidated {Args Ok Fail : Type} (p : FileProcedure Args Ok Fail)
    (validate : String → Args → NfsReply Ok Fail → Except ClientError Unit) (args : Args) :
    Outside first n (ExceptT.run (Watched.callValidated p validate args)) :=
  mount.task_bind fun _ _ _ => inspect_bind fun _ _ hg hf _ => (fresh _ _).task_bind fun _ _ h =>
    (ofTask (Session.apart_callNfs _ _ _)).task_bind fun _ _ h' =>
      settle p args hg hf (Nat.le_trans h h') _

theorem ignore {t : Watched α} (h : Outside first n (ExceptT.run t)) :
    Outside first n (Watched.ignore t) :=
  h.bind fun _ _ _ => .done

theorem operation (op : Session.Operation) : Outside first n (Watched.operation op) := by
  cases op with
  | mount => exact mount.ignore
  | remount => exact remount.ignore
  | rootHandle => exact rootHandle.ignore
  | null => exact null.ignore
  | mountNull => exact mountNull.ignore
  | setCredential credential => exact unmarked (Program.only_ask ⟨trivial, fun _ => rfl⟩)
  | call p validate args => exact (callValidated p validate args).ignore

theorem performAll (ops : List Session.Operation) : Outside first n (Watched.performAll ops) := by
  induction ops generalizing n with
  | nil => exact .done
  | cons op ops ih => exact (operation op).bind fun _ _ _ => ih

end Outside

/-- The rest of the holder's program, when `n` handshakes were completed. -/
def Inside (first n : Nat) : Position → Marked Session Milestone α → Prop
  | .looking k, m => ∃ next, (∀ r, Outside first n (next r)) ∧ m = look (.ofNat k) next
  | .ready k, m => ∃ next : _ → Marked Session Milestone α, (∀ r, Outside first n (next r)) ∧
    m = ((Watched.handshake (.ofNat k)).bind (Watched.leave (.ofNat k))).bind next
  | .mounting k, m => ∃ (a : Action Session) (rest : a.Answer → Program Session _)
    (next : _ → Marked Session Milestone α), (∀ r, Outside first n (next r)) ∧
    Shaking (.act a rest) ∧ m = (((Program.act a rest).bracketed []
      (Watched.ending (.ofNat k))).bind (Watched.leave (.ofNat k))).bind next
  | .leaving k result, m => ∃ next : _ → Marked Session Milestone α,
    (∀ r, Outside first n (next r)) ∧ m = (Watched.leave (.ofNat k) result).bind next

theorem Inside.mono {first n n' : Nat} {p : Position} {m : Marked Session Milestone α}
    (h : Inside first n p m) (hn : n ≤ n') : Inside first n' p m := by
  cases p with
  | mounting k =>
    obtain ⟨a, rest, next, ho, h⟩ := h
    exact ⟨a, rest, next, fun r => (ho r).mono hn, h⟩
  | _ =>
    obtain ⟨next, ho, h⟩ := h
    exact ⟨next, fun r => (ho r).mono hn, h⟩

variable [DecidableEq ι] {first : Nat} {c c' : Gathering ι Session Milestone α} {o o' : Overview ι}
  {log es : Log ι} {i : ι}

/-- The callers are where the protocol has them. -/
structure Represents (first : Nat) (c : Gathering ι Session Milestone α) (o : Overview ι) :
    Prop where
  mounting : o.mounting = c.state.mounting
  holder : c.holder = o.busy.map Prod.fst
  inside : ∀ i p, o.busy = some (i, p) → ∃ m, c.callers i = some m ∧
    Inside first o.count p m
  outside : ∀ i m, c.callers i = some m → (∀ p, o.busy ≠ some (i, p)) →
    Outside first o.count m

theorem Action.Does.keeps {view : Session → β} {a : Action Session} {r : a.Answer}
    {s s' : Shared ι Session} (hd : a.Does i r s s') (hl : a.LockFree) (hk : a.Keeps view) :
    view s'.state = view s.state ∧ s'.holder = s.holder := by
  cases a with
  | acquire => exact hl.elim
  | release => exact hl.elim
  | update f =>
    obtain rfl : s' = { s with state := f s.state } := hd
    exact ⟨hk s.state, rfl⟩
  | inspect =>
    obtain rfl : s' = s := hd.2
    exact ⟨rfl, rfl⟩
  | _ =>
    obtain rfl : s' = s := hd
    exact ⟨rfl, rfl⟩

theorem Watched.choose_cases (g : UInt64) (seen : MountState) :
    (∃ root, seen.mountedRoot = some root ∧ seen.generation ≠ g ∧
      choose g seen = .done (.ok root)) ∨
    ((seen.mountedRoot = none ∨ seen.generation = g) ∧ choose g seen = handshake g) := by
  unfold choose
  cases hr : seen.mountedRoot with
  | none => exact .inr ⟨.inl rfl, rfl⟩
  | some root =>
    by_cases hg : seen.generation = g
    · exact .inr ⟨.inr hg, if_neg (not_not.2 hg)⟩
    · exact .inl ⟨root, rfl, hg, if_pos hg⟩

namespace Represents

/-- A step of one caller, as far as it concerns the others. -/
theorem of_update {s : Shared ι Session} {m : Option (Marked Session Milestone α)}
    (h : Represents first c o) (hn : o.count ≤ o'.count)
    (hm : o'.mounting = s.state.mounting) (hh : s.holder = o'.busy.map Prod.fst)
    (hj : ∀ j p, j ≠ i → (o'.busy = some (j, p) ↔ o.busy = some (j, p)))
    (hin : ∀ p, o'.busy = some (i, p) → ∃ m', m = some m' ∧ Inside first o'.count p m')
    (hout : ∀ m', m = some m' → (∀ p, o'.busy ≠ some (i, p)) → Outside first o'.count m') :
    Represents first ⟨s, Function.update c.callers i m⟩ o' where
  mounting := hm
  holder := hh
  inside j p hb := by
    by_cases hji : j = i
    · subst hji
      obtain ⟨m', rfl, hp⟩ := hin p hb
      exact ⟨m', Function.update_self .., hp⟩
    · obtain ⟨m', hm', hp⟩ := h.inside j p ((hj j p hji).1 hb)
      exact ⟨m', (Function.update_of_ne hji ..).trans hm', hp.mono hn⟩
  outside j m' hm' hb := by
    by_cases hji : j = i
    · subst hji
      exact hout m' ((Function.update_self j m c.callers).symm.trans hm') hb
    · have ho := h.outside j m' ((Function.update_of_ne hji m c.callers).symm.trans hm')
      exact (ho fun p hp => hb p ((hj j p hji).2 hp)).mono hn

theorem drop (h : Represents first c o) (i : ι) : ∃ o', Move first o [⟨i, .dropped⟩] o' ∧
    Represents first ⟨c.toShared.letGo i, Function.update c.callers i none⟩ o' := by
  obtain ⟨ms, n, busy⟩ := o
  obtain rfl : ms = c.state.mounting := h.mounting
  have hholder : c.holder = busy.map Prod.fst := h.holder
  have hs : c.state.mounting = (c.toShared.letGo i).state.mounting :=
    congrArg Session.mounting (c.toShared.letGo_state i).symm
  refine ⟨_, .drop, h.of_update (Nat.le_refl _) hs ?_ ?_ ?_ nofun⟩
  · unfold Shared.letGo
    rw [hholder]
    split
    · rfl
    · exact hholder
  · intro j p hj
    simp only
    split
    · rename_i hb
      refine ⟨nofun, ?_⟩
      rintro rfl
      exact (hj (Option.some.inj hb)).elim
    · rfl
  · intro p hp
    simp only at hp
    split at hp
    · cases hp
    · rename_i hb
      exact (hb (congrArg _ hp)).elim

variable {s : Shared ι Session} {a : Action Session} {marks : Session → a.Answer → List Milestone}
  {m : Marked Session Milestone α} {next : a.Answer → Marked Session Milestone α} {r : a.Answer}

theorem of_act (h : Represents first c o) (hn : o.count ≤ o'.count)
    (hm : o'.mounting = s.state.mounting) (hh : s.holder = o'.busy.map Prod.fst)
    (hj : ∀ j p, j ≠ i → (o'.busy = some (j, p) ↔ o.busy = some (j, p)))
    (hin : ∀ p, o'.busy = some (i, p) → Inside first o'.count p m)
    (hout : (∀ p, o'.busy ≠ some (i, p)) → Outside first o'.count m) :
    Represents first ⟨s, Function.update c.callers i (some m)⟩ o' := by
  refine h.of_update hn hm hh hj (fun p hp => ⟨m, rfl, hin p hp⟩) fun m' hm' hb => ?_
  cases hm'
  exact hout hb

theorem act_outside (h : Represents first c o) (hs : Sound first log o)
    (hm : c.callers i = some (.act a marks next)) (hd : a.Does i r c.toShared s)
    (hb : ∀ p, o.busy ≠ some (i, p)) :
    ∃ o', Move first o ((a.events r).map (.ofEvent i) ++ (marks c.state r).map (.ofMark i)) o' ∧
      Represents first ⟨s, Function.update c.callers i (some (next r))⟩ o' := by
  have stay {m : Marked Session Milestone α} {s : Shared ι Session}
      (hs : s.state.mounting = c.state.mounting) (hh : s.holder = c.holder)
      (ho : Outside first o.count m) :
      Represents first ⟨s, Function.update c.callers i (some m)⟩ o :=
    h.of_act (Nat.le_refl _) (h.mounting.trans hs.symm) (hh.trans h.holder)
      (fun _ _ _ => Iff.rfl) (fun p hp => (hb p hp).elim) fun _ => ho
  have ho := h.outside i _ hm hb
  cases ho with
  | step ha hnext =>
    obtain ⟨hs, hh⟩ := hd.keeps ha.1 ha.2
    refine ⟨o, ?_, stay hs hh (hnext r)⟩
    rw [show (noMarks c.state r : List Milestone) = [] from rfl, List.map_nil, List.append_nil]
    exact .outside hb
  | inspect hnext =>
    obtain ⟨rfl, rfl⟩ := hd
    have hg : c.state.mounting.generation = .ofNat o.count := h.mounting ▸ hs.generation
    have hge : first ≤ o.count := hs.count ▸ Nat.le_add_right _ _
    have hm : Move first o (([] : List Event).map (.ofEvent i)) o := .outside hb
    exact ⟨o, hm, stay rfl rfl (hnext c.state o.count hg hge (Nat.le_refl _))⟩
  | @refresh _ k next hge hle hnext =>
    obtain ⟨hnone, rfl⟩ := hd
    obtain ⟨ms, n, busy⟩ := o
    obtain rfl : ms = c.state.mounting := h.mounting
    obtain rfl : busy = none := Option.map_eq_none_iff.1 (h.holder.symm.trans hnone)
    refine ⟨_, .acquire hge hle, h.of_act (Nat.le_refl _) rfl rfl ?_ ?_ ?_⟩
    · intro j p hj
      simp [hj.symm]
    · intro p hp
      cases hp
      exact ⟨next, hnext, rfl⟩
    · intro hp
      exact (hp _ rfl).elim

theorem of_holder {ms ms' : MountState} {n n' : Nat} {p p' : Position}
    (h : Represents first c ⟨ms, n, some (i, p)⟩) (hn : n ≤ n') (hm : ms' = s.state.mounting)
    (hh : s.holder = c.holder) (hin : Inside first n' p' m) :
    Represents first ⟨s, Function.update c.callers i (some m)⟩ ⟨ms', n', some (i, p')⟩ := by
  refine h.of_act hn hm (hh.trans h.holder) ?_ ?_ fun hp => (hp _ rfl).elim
  · intro j _ hj
    simp [hj.symm]
  · intro p hp
    cases hp
    exact hin

theorem act_steady {n k : Nat} {p : Program Session (Except ClientError FileHandle)}
    {next : Except ClientError FileHandle → Marked Session Milestone α}
    (h : Represents first c ⟨c.state.mounting, n, some (i, .mounting k)⟩)
    (hd : a.Does i r c.toShared s) (ha : a.Steady) (hp : Shaking p)
    (ho : ∀ result, Outside first n (next result)) :
    ∃ o', Move first ⟨c.state.mounting, n, some (i, .mounting k)⟩ ((a.events r).map (.ofEvent i) ++
        (p.endMarks (Watched.ending (.ofNat k))).map (.ofMark i)) o' ∧
      Represents first ⟨s, Function.update c.callers i (some (((p.bracketed []
        (Watched.ending (.ofNat k))).bind (Watched.leave (.ofNat k))).bind next))⟩ o' := by
  obtain ⟨hk, hh⟩ := hd.keeps ha.1 ha.2
  simp only [Prod.mk.injEq] at hk
  cases p with
  | done v =>
    cases hp with
    | fails e => exact ⟨_, .fail hk.1 hk.2, h.of_holder (Nat.le_refl _) rfl hh ⟨next, ho, rfl⟩⟩
  | act a' rest =>
    have hm : Move first ⟨c.state.mounting, n, some (i, .mounting k)⟩
        ((a.events r).map (.ofEvent i) ++ []) ⟨s.state.mounting, n, some (i, .mounting k)⟩ := by
      rw [List.append_nil]
      exact .proceed hk.1 hk.2
    exact ⟨_, hm, h.of_holder (Nat.le_refl _) rfl hh ⟨a', rest, next, ho, hp, rfl⟩⟩

theorem act_inside {p : Position} (h : Represents first c o)
    (hm : c.callers i = some (.act a marks next)) (hd : a.Does i r c.toShared s)
    (hb : o.busy = some (i, p)) :
    ∃ o', Move first o ((a.events r).map (.ofEvent i) ++ (marks c.state r).map (.ofMark i)) o' ∧
      Represents first ⟨s, Function.update c.callers i (some (next r))⟩ o' := by
  obtain ⟨ms, n, busy⟩ := o
  obtain rfl : busy = some (i, p) := hb
  obtain rfl : ms = c.state.mounting := h.mounting
  obtain ⟨m', hm', hin⟩ := h.inside i p rfl
  obtain rfl : m' = .act a marks next := Option.some.inj (hm'.symm.trans hm)
  cases p with
  | looking k =>
    obtain ⟨next', ho, he⟩ := hin
    unfold look at he
    cases he
    obtain ⟨rfl, rfl⟩ := hd
    obtain ⟨root, hroot, hg, hc⟩ | ⟨hor, hc⟩ := Watched.choose_cases (.ofNat k) c.state.mounting
    · exact ⟨_, .find hroot hg, h.of_holder (Nat.le_refl _) rfl rfl
        ⟨next', ho, congrArg (fun m => (m.bind (Watched.leave (.ofNat k))).bind next') hc⟩⟩
    · exact ⟨_, .miss hor, h.of_holder (Nat.le_refl _) rfl rfl
        ⟨next', ho, congrArg (fun m => (m.bind (Watched.leave (.ofNat k))).bind next') hc⟩⟩
  | ready k =>
    obtain ⟨next', ho, he⟩ := hin
    obtain ⟨change, rest, hh, -⟩ := Session.Performs.handshake_starts
    unfold Watched.handshake at he
    have hs := Shaking.handshake
    rw [hh] at he hs
    cases he
    obtain ⟨rfl, rfl⟩ := hd
    cases hs with
    | step _ hrest =>
      exact ⟨_, .start, h.of_holder (Nat.le_refl _) rfl rfl
        ⟨_, _, next', ho, hrest c.state, rfl⟩⟩
  | mounting k =>
    obtain ⟨a', rest, next', ho, hs, he⟩ := hin
    cases he
    cases hs with
    | completes mounted =>
      obtain rfl : s = _ := hd
      have hle := Nat.le_succ n
      exact ⟨_, .complete, h.of_holder hle rfl rfl ⟨next', fun r => (ho r).mono hle, rfl⟩⟩
    | step ha hrest => exact h.act_steady hd ha (hrest r) ho
  | leaving k result =>
    obtain ⟨next', ho, he⟩ := hin
    cases he
    obtain rfl : s = _ := hd
    have hholder : c.holder = some i := h.holder
    have hs : c.toShared.letGo i = { c.toShared with holder := none } := if_pos hholder
    refine ⟨_, .leave, h.of_act (Nat.le_refl _) ?_ ?_ ?_ nofun fun _ => ho result⟩
    · rw [hs]
    · rw [hs]
      rfl
    · intro j _ hj
      simp [hj.symm]

theorem act (h : Represents first c o) (hs : Sound first log o)
    (hm : c.callers i = some (.act a marks next)) (hd : a.Does i r c.toShared s) :
    ∃ o', Move first o ((a.events r).map (.ofEvent i) ++ (marks c.state r).map (.ofMark i)) o' ∧
      Represents first ⟨s, Function.update c.callers i (some (next r))⟩ o' := by
  by_cases hb : ∃ p, o.busy = some (i, p)
  · obtain ⟨p, hb⟩ := hb
    exact h.act_inside hm hd hb
  · exact h.act_outside hs hm hd (not_exists.1 hb)

theorem step (h : Represents first c o) (hs : Sound first log o)
    (hstep : Gathering.Step c es c') :
    ∃ o', Move first o es o' ∧ Represents first c' o' := by
  cases hstep with
  | act hm hd => exact h.act hs hm hd
  | drop _ => exact h.drop _

end Represents
end Nfs3.Client
