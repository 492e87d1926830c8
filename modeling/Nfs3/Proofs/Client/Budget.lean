import Nfs3.Client.Playback
import Nfs3.Proofs.Client.Escalation
import Nfs3.Proofs.Client.Portmap
import Nfs3.Proofs.Client.Stages

/-!
What an operation of a session can cost at most, whoever answers it: the handshakes it makes, the
logical calls it begins and the messages it sends.
-/
namespace Nfs3.Client
open Wire Rpc Net
variable {σ τ ε α β : Type} {env : Environment ε}

namespace Dispatcher
variable {Args Reply : Type} {p : Procedure Args Reply} {r : Request Args}

theorem attempt_length (env : Environment ε) (p : Procedure Args Reply) (r : Request Args)
    (w : World Dispatcher ε) :
    (Task.exec env (attempt p r) w).2.client.retry = w.client.retry ∧
    (Task.sendings env (attempt p r) w).length +
      (Task.exec env (attempt p r) w).2.client.refusalsLeft p.number ≤
        1 + w.client.refusalsLeft p.number := by
  have once (host : String) (privileged : Bool) (w : World Dispatcher ε) :
      (Task.exec env (callOnce p r host privileged) w).2.client = w.client ∧
        (Task.sendings env (callOnce p r host privileged) w).length ≤ 1 := by
    obtain ⟨w', hc, ⟨_, e, -, hx, hn⟩ | ⟨x, -, -, -, hx, hn⟩⟩ :=
      callOnce_cases env p r host privileged w
    · rw [hx, hn]
      exact ⟨hc, by simp⟩
    · rw [hx, hn]
      exact ⟨hc, by simp⟩
  obtain ⟨e, -, hx, hs⟩ | ⟨host, v, w₁, -, hfirst, hc, ⟨hx, hs⟩ | ⟨⟨hu, -⟩, hx, hs⟩⟩ :=
    attempt_cases env p r w
  · rw [hx, hs]
    exact ⟨rfl, by simp⟩
  · have hl := (once host (w.client.usesPrivilegedPort p.number) w).2
    rw [hx, hs, hc]
    exact ⟨rfl, by omega⟩
  · have hl := (once host (w.client.usesPrivilegedPort p.number) w).2
    obtain ⟨hc', hl'⟩ := once host true { w₁ with client := w.client.escalate p.number }
    have hnone : (w.client.escalate p.number).refusalsLeft p.number = 0 :=
      if_pos (usesPrivilegedPort_escalate _ _)
    have hone : w.client.refusalsLeft p.number = 1 := by simp [refusalsLeft, hu]
    rw [hx, hs, hc', hnone, hone, List.length_append, Nat.add_zero]
    exact ⟨rfl, Nat.add_le_add hl hl'⟩

variable (validate : Args → Reply → Except ClientError Unit)

theorem attempts_length (left failures : Nat) (w : World Dispatcher ε) :
    (Task.sendings env (attempts p r validate left failures) w).length ≤
      left + 1 + w.client.refusalsLeft p.number := by
  induction left using Nat.strongRecOn generalizing failures w with
  | ind left ih =>
    obtain ⟨-, hb⟩ := attempt_length env p r w
    obtain ⟨-, hs⟩ | ⟨e, k, w₂, -, -, rfl, hc, -, hs⟩ :=
      attempts_cases env p r validate left failures w
    · rw [hs]
      omega
    · have hk := ih k (Nat.lt_succ_self k) (failures + 1) w₂
      rw [hc] at hk
      rw [hs, List.length_append]
      omega

/-- A call sends once for each attempt its dispatcher allows, and once more at most. -/
theorem call_length (env : Environment ε) (p : Procedure Args Reply) (r : Request Args)
    (validate : Args → Reply → Except ClientError Unit) (w : World Dispatcher ε) :
    (Task.sendings env (call p r validate) w).length ≤ w.client.retry.attempts + 1 := by
  unfold call
  rw [Task.sendings_inspect_bind]
  have h : (Task.sendings env (attempts p r validate (w.client.retry.attempts - 1) 0) w).length ≤
      _ := attempts_length validate _ 0 w
  have h1 := refusalsLeft_le_one w.client p.number
  have ha : 1 ≤ w.client.retry.attempts := Nat.le_max_right _ _
  omega

end Dispatcher

namespace Program
variable {inv : σ → Prop}

/-- From a state with `pre` at most `k` ids are drawn and `m` messages sent, and then `post`
holds. -/
def Spends (env : Environment ε) (pre : σ → Prop) (k m : Nat) (p : Program σ α)
    (post : σ → Prop) : Prop :=
  ∀ w : World σ ε, pre w.client → (p.ids env w).length ≤ k ∧ (p.sendings env w).length ≤ m ∧
    post (p.run env w).2.client

namespace Spends
variable {k k' m m' : Nat} {p : Program σ α} {pre mid post : σ → Prop}

theorem mono (h : p.Spends env pre k m post) (hk : k ≤ k') (hm : m ≤ m') :
    p.Spends env pre k' m' post :=
  fun w hw => ⟨Nat.le_trans (h w hw).1 hk, Nat.le_trans (h w hw).2.1 hm, (h w hw).2.2⟩

theorem imp {post' : σ → Prop} (h : p.Spends env pre k m post) (hp : ∀ s, post s → post' s) :
    p.Spends env pre k m post' :=
  fun w hw => ⟨(h w hw).1, (h w hw).2.1, hp _ (h w hw).2.2⟩

theorem bind {f : α → Program σ β} (h : p.Spends env pre k m mid)
    (hf : ∀ v, (f v).Spends env mid k' m' post) :
    (p.bind f).Spends env pre (k + k') (m + m') post := by
  intro w hw
  obtain ⟨hk, hm, hw⟩ := h w hw
  obtain ⟨hk', hm', hw'⟩ := hf (p.run env w).1 _ hw
  rw [ids_bind, sendings_bind, run_bind, List.length_append, List.length_append]
  exact ⟨Nat.add_le_add hk hk', Nat.add_le_add hm hm', hw'⟩

theorem free (hf : p.Only Action.Free) (h : p.Only (Action.Preserves inv)) :
    p.Spends env inv 0 0 inv := by
  intro w hw
  rw [ids_of_free hf, sendings_of_free hf]
  exact ⟨Nat.le_refl _, Nat.le_refl _, preserves_run h hw⟩

theorem done (v : α) : (Program.done v : Program σ α).Spends env inv 0 0 inv :=
  free trivial trivial

theorem inspect : (Program.inspect : Program σ σ).Spends env inv 0 0 inv :=
  free (only_ask ⟨fun _ => rfl, fun _ _ => rfl⟩) (only_ask trivial)

theorem update {change : σ → σ} (h : ∀ s, inv s → inv (change s)) :
    (Program.update change).Spends env inv 0 0 inv :=
  free (only_ask ⟨fun _ => rfl, fun _ _ => rfl⟩) (only_ask h)

theorem discover (server : String) (port : UInt16) :
    (Program.discover server port).Spends env inv 0 0 inv :=
  free (only_ask ⟨fun _ => rfl, fun _ _ => rfl⟩) (only_ask trivial)

theorem lookup (server : String) (service : Service) :
    (Program.lookup server service).Spends env inv 0 0 inv :=
  free (only_ask ⟨fun _ => rfl, fun _ _ => rfl⟩) (only_ask trivial)

theorem draw : (Program.freshXid : Program σ UInt32).Spends env inv 1 0 inv :=
  fun _ hw => ⟨Nat.le_refl _, Nat.le_refl _, hw⟩

theorem onPart {part : Part σ τ} (hs : part.Shows) {rest : σ → Prop}
    (hr : ∀ f s, rest s → rest (part.modify f s)) {p : Program τ α} {pre post : τ → Prop}
    (h : p.Spends env pre k m post) :
    (p.onPart part).Spends env (fun s => rest s ∧ pre (part.get s)) k m
      fun s => rest s ∧ post (part.get s) := by
  intro w ⟨hw, hp⟩
  obtain ⟨hk, hm, hpost⟩ := h (w.part part) hp
  have hrun : p.run env (w.part part) = _ := (run_onPart_while hs.always p trivial).2
  rw [hrun] at hpost
  rw [sendings_onPart_while hs.always p trivial, List.length_map] at hm
  rw [ids_onPart_while hs.always p trivial]
  refine ⟨hk, hm, preserves_run (only_onPart p.only_true ?_ ?_) hw, hpost⟩
  · exact fun f _ s => hr f s
  · exact fun a => Action.preserves_of_ne_update

end Spends
end Program

namespace Task
variable {inv pre mid : σ → Prop} {k k' m m' : Nat}

def Spends (env : Environment ε) (pre : σ → Prop) (k m : Nat) (t : Task σ α)
    (post : σ → Prop) : Prop :=
  Program.Spends env pre k m (ExceptT.run t) post

namespace Spends

theorem bind {t : Task σ α} {f : α → Task σ β} (h : t.Spends env pre k m inv)
    (hf : ∀ v, (f v).Spends env inv k' m' inv) :
    (t >>= f).Spends env pre (k + k') (m + m') inv := by
  refine Program.Spends.bind h fun r => ?_
  cases r with
  | ok v => exact hf v
  | error e => exact (Program.Spends.done _).mono (Nat.zero_le _) (Nat.zero_le _)

theorem lift_bind {p : Program σ α} {f : α → Task σ β} (h : p.Spends env pre k m mid)
    (hf : ∀ v, (f v).Spends env mid k' m' inv) :
    (Task.lift p >>= f).Spends env pre (k + k') (m + m') inv := by
  have hr : ExceptT.run (Task.lift p >>= f) = p.bind fun v => ExceptT.run (f v) :=
    Program.bind_assoc p _ _
  unfold Task.Spends
  rw [hr]
  exact Program.Spends.bind h hf

theorem free_bind {p : Program σ α} {f : α → Task σ β} (h : p.Spends env pre 0 0 mid)
    (hf : ∀ v, (f v).Spends env mid k m inv) :
    (Task.lift p >>= f).Spends env pre k m inv := by
  rw [← Nat.zero_add k, ← Nat.zero_add m]
  exact lift_bind h hf

theorem fresh_bind {Args : Type} {args : Args} {credential : Credential}
    {f : Request Args → Task σ β} (hf : ∀ r, (f r).Spends env pre k m inv) :
    (Task.lift (Request.fresh args credential) >>= f).Spends env pre (k + 1) m inv := by
  have hd : (Request.fresh args credential : Program σ _).Spends env pre (1 + 0) (0 + 0) pre :=
    Program.Spends.draw.bind fun _ => .done _
  rw [← Nat.zero_add m, Nat.add_comm]
  exact lift_bind hd hf

theorem inspect_bind {f : σ → Task σ α} (hf : ∀ s, (f s).Spends env inv k m inv) :
    (Task.lift .inspect >>= f).Spends env inv k m inv :=
  free_bind .inspect hf

theorem ofExcept (r : Except ClientError α) :
    (Task.ofExcept r : Task σ α).Spends env inv 0 0 inv := by
  cases r <;> exact Program.Spends.done _

theorem throw (e : ClientError) : (throw e : Task σ α).Spends env inv k m inv :=
  (Program.Spends.done _).mono (Nat.zero_le _) (Nat.zero_le _)

theorem call {part : Part σ Dispatcher} {known : σ → Prop} {policy : RetryPolicy}
    (hs : part.ShowsWhile known) (hk : ∀ s, inv s → known s)
    (hr : ∀ s, inv s → (part.get s).retry = policy)
    (he : ∀ n s, inv s → inv (part.modify (·.escalate n) s)) {Args Reply : Type}
    (p : Procedure Args Reply) (r : Request Args)
    (validate : Args → Reply → Except ClientError Unit) :
    ((Dispatcher.call p r validate).onPart part).Spends env inv 0 (policy.attempts + 1) inv := by
  intro w hw
  refine ⟨?_, ?_, Program.preserves_run (Program.only_onPart Dispatcher.only_ofCall ?_ ?_) hw⟩
  · have hi : Program.ids env (ExceptT.run ((Dispatcher.call p r validate).onPart part)) w = _ :=
      Program.ids_onPart_while hs _ (hk _ hw)
    have hn : Program.ids env (ExceptT.run (Dispatcher.call p r validate)) (w.part part) = [] :=
      Program.ids_of_only (Program.only_mono Dispatcher.only_ofCall fun a ha => by
        cases a <;> first | exact fun _ => rfl | exact ha.elim) _
    exact Nat.le_of_eq (congrArg List.length (hi.trans hn))
  · have hl := Dispatcher.call_length env p r validate (w.part part)
    have hp : Task.sendings env (Dispatcher.call p r validate) (w.part part) = _ :=
      Program.sendings_onPart_while hs _ (hk _ hw)
    have hretry : (w.part part).client.retry = policy := hr _ hw
    rw [hp, List.length_map, hretry] at hl
    exact hl
  · rintro _ rfl s
    exact he _ s
  · exact fun a => Action.preserves_of_ne_update

end Spends
end Task

namespace Portmapper

/-- All its dispatchers, present and to come, follow this policy. -/
def Retries (policy : RetryPolicy) : Portmapper → Prop := Each fun _ d => d.retry = policy

theorem connect_spends (env : Environment ε) (policy : RetryPolicy) (server : String) :
    (connect server).Spends env (Retries policy) 0 0
      fun m => m.Retries policy ∧ m.known server ≠ none := by
  intro w hw
  rw [Program.ids_of_free (free_connect server), Program.sendings_of_free (free_connect server)]
  exact ⟨Nat.le_refl _, Nat.le_refl _, hw.connected, known_connected env server w⟩

theorem call_spends (env : Environment ε) (policy : RetryPolicy) (server : String)
    {Args Reply : Type} (p : Procedure Args Reply) (args : Args) :
    (call server p args).Spends env (Retries policy) 1 (policy.attempts + 1)
      fun m => m.Retries policy ∧ m.known server ≠ none := by
  refine .free_bind (connect_spends env policy server) fun _ => .fresh_bind fun r => ?_
  refine .call (dispatcherOf_shows server) (fun _ => And.right) (fun _ h => ?_) (fun n m h => ?_)
    p r Dispatcher.acceptAny
  · exact h.1.get h.2
  · exact ⟨h.1.modify fun _ => id, (dispatcherOf_shows server _ m h.2).1⟩

theorem resolve_spends (env : Environment ε) (policy : RetryPolicy) (server : String)
    (service : Service) : (resolve server service).Spends env (Retries policy) 1
      (policy.attempts + 1) (Retries policy) := by
  have h := (call_spends env policy server Procedures.getPort
    ⟨service.program, service.version, tcp, 0⟩).bind fun port =>
      .ofExcept (readPort server service port)
  exact Program.Spends.imp h fun _ => And.left

end Portmapper

namespace Session

structure Retries (policy : RetryPolicy) (s : Session) : Prop where
  mountCalls : s.mountCalls.retry = policy
  nfsCalls : s.nfsCalls.retry = policy
  portmapper : s.portmapper.Retries policy

theorem Retries.ofConfig (config : ClientConfig) (source : PortSource) :
    (ofConfig config source).Retries config.retry :=
  ⟨rfl, rfl, fun _ _ => rfl, nofun⟩

section Costs
variable (env : Environment ε) (policy : RetryPolicy)

theorem callMount_spends {Args Reply : Type} (p : Procedure Args Reply) (r : Request Args) :
    (callMount p r).Spends env (Retries policy) 0 (policy.attempts + 1) (Retries policy) :=
  .call mountCallsPart_shows.always (fun _ _ => trivial) (fun _ h => h.mountCalls)
    (fun _ _ h => ⟨h.mountCalls, h.nfsCalls, h.portmapper⟩) p r Dispatcher.acceptAny

theorem callNfs_spends {Args Reply : Type} (p : Procedure Args Reply) (r : Request Args)
    (validate : Args → Reply → Except ClientError Unit) :
    ((Dispatcher.call p r validate).onPart nfsCallsPart).Spends env (Retries policy) 0
      (policy.attempts + 1) (Retries policy) :=
  .call nfsCallsPart_shows.always (fun _ _ => trivial) (fun _ h => h.nfsCalls)
    (fun _ _ h => ⟨h.mountCalls, h.nfsCalls, h.portmapper⟩) p r validate

theorem resolvePort_spends (configured : Option UInt16) (service : Service) :
    (resolvePort configured service).Spends env (Retries policy) 1 (policy.attempts + 1)
      (Retries policy) := by
  cases configured with
  | some port => exact (Program.Spends.done _).mono (Nat.zero_le _) (Nat.zero_le _)
  | none =>
    refine .inspect_bind fun s => ?_
    cases s.portSource with
    | external =>
      exact (Program.Spends.lookup _ _).mono (Nat.zero_le _) (Nat.zero_le _)
    | portmapper =>
      let calls (s : Session) : Prop := s.mountCalls.retry = policy ∧ s.nfsCalls.retry = policy
      have hshows : portmapperPart.Shows := fun _ _ => rfl
      have hcalls (f : Portmapper → Portmapper) (s : Session) :
          calls s → calls (portmapperPart.modify f s) := id
      have h := Program.Spends.onPart hshows hcalls
        (Portmapper.resolve_spends env policy s.config.server service)
      exact fun w hw => h.imp (fun s h => ⟨h.1.1, h.1.2, h.2⟩) w
        ⟨⟨hw.mountCalls, hw.nfsCalls⟩, hw.portmapper⟩

theorem setPort_spends {part : Part Session Dispatcher}
    (hp : part = mountCallsPart ∨ part = nfsCallsPart) (port : UInt16) :
    ((Dispatcher.setPort port).onPart part).Spends env (Retries policy) 0 0 (Retries policy) := by
  have h (port : UInt16) (found : Option (List IpAddress)) (s : Session) (hs : s.Retries policy) :
      (part.modify (·.listen port found) s).Retries policy := by
    obtain rfl | rfl := hp <;> exact ⟨hs.mountCalls, hs.nfsCalls, hs.portmapper⟩
  exact .bind .inspect fun _ => .bind (.discover _ _) fun _ => .update (h _ _)

theorem remember_spends (change : MountState → MountState) :
    (Program.update fun s : Session => { s with mounting := change s.mounting }).Spends env
      (Retries policy) 0 0 (Retries policy) :=
  .update fun _ h => ⟨h.mountCalls, h.nfsCalls, h.portmapper⟩

theorem conclude_spends (config : ClientConfig) (credential : Credential) (mounted : Mounted) :
    (conclude config credential mounted).Spends env (Retries policy) 2
      (2 * (policy.attempts + 1)) (Retries policy) := by
  have h : (conclude config credential mounted).Spends env (Retries policy) _ _ (Retries policy) :=
    .fresh_bind fun release => .lift_bind (callMount_spends env policy _ release) fun _ =>
      .bind (resolvePort_spends env policy _ _) fun port =>
        .free_bind (setPort_spends env policy (.inr rfl) port) fun _ =>
        .free_bind (remember_spends env policy _) fun _ => Program.Spends.done _
  exact h.mono (by omega) (by omega)

/-- A lookup and the mount call, and what follows if that is answered. -/
theorem handshake_spends : handshake.Spends env (Retries policy) 4 (4 * (policy.attempts + 1))
    (Retries policy) := by
  have h : Session.handshake.Spends env (Retries policy)
      (1 + (0 + 2 + 1)) (policy.attempts + 1 + (policy.attempts + 1 + 2 * (policy.attempts + 1)))
      (Retries policy) := by
    refine .inspect_bind fun s => .free_bind (remember_spends env policy _) fun _ => ?_
    refine .bind (resolvePort_spends env policy s.config.mountPort mountService) fun port => ?_
    refine .free_bind (setPort_spends env policy (.inl rfl) port) fun _ => ?_
    refine .free_bind (remember_spends env policy (.enter .portResolved)) fun _ => ?_
    refine .inspect_bind fun s' => .fresh_bind fun request => ?_
    refine (.bind (callMount_spends env policy Procedures.mount request) fun reply => ?_ :
      Task.Spends env (Retries policy) (0 + 2) _ _ (Retries policy))
    cases reply with
    | refused status => exact .throw _
    | ok mounted => exact conclude_spends env policy s.config s'.credential mounted
  exact h.mono (by omega) (by omega)

theorem asking_spends (op : Operation) : op.asking.Spends env (Retries policy) 1
    (policy.attempts + 1) (Retries policy) := by
  have ignore {α : Type} {t : Task Session α} (h : t.Spends env (Retries policy) 1
      (policy.attempts + 1) (Retries policy)) :
      (Session.ignore t).Spends env (Retries policy) 1 (policy.attempts + 1) (Retries policy) :=
    Program.Spends.bind h fun _ => .done _
  have nothing : (Program.done () : Program Session Unit).Spends env (Retries policy) 1
      (policy.attempts + 1) (Retries policy) :=
    (Program.Spends.done _).mono (Nat.zero_le _) (Nat.zero_le _)
  cases op with
  | null =>
    exact ignore (.inspect_bind fun s => .fresh_bind fun r => callNfs_spends env policy _ r _)
  | mountNull =>
    exact ignore (.inspect_bind fun s => .fresh_bind fun r => callMount_spends env policy _ r)
  | call p validate args =>
    exact ignore (.inspect_bind fun s => .fresh_bind fun r => callNfs_spends env policy _ _ _)
  | setCredential credential =>
    have h : (Session.setCredential credential).Spends env (Retries policy) 0 0 (Retries policy) :=
      .update fun _ h => ⟨h.mountCalls, h.nfsCalls, h.portmapper⟩
    exact h.mono (Nat.zero_le _) (Nat.zero_le _)
  | _ => exact nothing

end Costs

variable {w : World Session ε} {policy : RetryPolicy}

theorem Handshake.Ran.spends {h : Handshake ε} (hh : h.Ran env)
    (hr : h.start.client.Retries policy) :
    (h.ids env).length ≤ 4 ∧ (Client.exchanges h.events).length ≤ 4 * (policy.attempts + 1) ∧
      h.finish.client.Retries policy := by
  obtain ⟨hk, hm, hp⟩ := handshake_spends env policy h.start hr
  have hf : (Program.run env (ExceptT.run handshake) h.start).2 = h.finish := congrArg Prod.snd hh
  rw [hf] at hp
  refine ⟨hk, ?_, hp⟩
  have hx : Client.exchanges (Program.run env (ExceptT.run handshake) h.start).2.log = _ :=
    Program.exchanges_run _ h.start
  obtain ⟨es, -, hl⟩ := Task.exec_trace hh
  rw [hf, hl, exchanges_append, List.append_cancel_left_eq] at hx
  rwa [Handshake.events_of_log hl, hx, List.length_map]

theorem after_spends {h : Option (Handshake ε)} (hh : ∀ g ∈ h, g.start = w ∧ g.Ran env)
    (hr : w.client.Retries policy) :
    (idsOf env h).length ≤ 4 ∧
      ((entryOf h).flatMap Entry.exchanges).length ≤ 4 * (policy.attempts + 1) ∧
      (after h w).client.Retries policy := by
  cases h with
  | none => exact ⟨Nat.zero_le _, Nat.zero_le _, hr⟩
  | some g =>
    obtain ⟨rfl, hg⟩ := hh g rfl
    obtain ⟨hk, hm, hp⟩ := hg.spends hr
    refine ⟨hk, ?_, hp⟩
    rwa [entryOf, Option.toList_some, List.map_singleton, List.flatMap_singleton]

theorem exchanges_sent (xs : List (Sending Session)) :
    (xs.map (Entry.sent : _ → Entry ε)).flatMap Entry.exchanges = xs.map Sending.exchange := by
  rw [List.flatMap_map]
  exact List.map_eq_flatMap.symm

/-- Whatever it is answered, an operation comes to its end: with a handshake to mount first and
another after a stale root at most, and one request of its own between them. -/
theorem operation_ends (env : Environment ε) (op : Operation) (h : w.client.Retries policy) :
    let w' := (op.program.run env w).2
    (∃ first p second, Stages env op w first p second ∧ (p.ids env (after first w)).length ≤ 1) ∧
    (∃ es, Timeline env op.program w es () w' ∧ (handshakesOf es).length ≤ 2) ∧
    (op.program.ids env w).length ≤ 9 ∧
    (∃ sent, exchanges w'.log = exchanges w.log ++ sent ∧
      sent.length ≤ 9 * (max 1 policy.maxAttempts.toNat + 1)) ∧
    w'.client.Retries policy := by
  intro w'
  obtain ⟨first, p, second, hs⟩ := exists_stages env op w
  obtain ⟨hk₁, hm₁, hr₁⟩ := after_spends (fun h hh => (hs.mounts h hh).imp_right And.left) h
  have hp : p.Spends env (Retries policy) 1 (policy.attempts + 1) (Retries policy) := by
    obtain ⟨rfl, -⟩ | ⟨rfl, -⟩ := hs.asks
    · exact asking_spends env policy op
    · exact (Program.Spends.done _).mono (Nat.zero_le _) (Nat.zero_le _)
  obtain ⟨hk₂, hm₂, hr₂⟩ := hp _ hr₁
  obtain ⟨hk₃, hm₃, hr₃⟩ := after_spends (fun h hh => (hs.remounts h hh).imp_right And.left) hr₂
  have ht := hs.account.timeline
  have hw : w' = after second (p.run env (after first w)).2 :=
    congrArg Prod.snd ht.performs.run_eq
  refine ⟨⟨first, p, second, hs, hk₂⟩, ⟨_, hw ▸ ht, ?_⟩, ?_, ⟨_, hw ▸ ht.exchanges_eq, ?_⟩,
    hw ▸ hr₃⟩
  · rw [handshakesOf_append, handshakesOf_append, handshakesOf_sent, handshakesOf_entryOf,
      handshakesOf_entryOf, List.append_nil, List.length_append]
    exact Nat.add_le_add first.length_toList_le second.length_toList_le
  · rw [hs.account.ids]
    simp only [List.length_append]
    omega
  · rw [List.flatMap_append, List.flatMap_append, exchanges_sent]
    simp only [List.length_append, List.length_map]
    rw [Nat.max_comm]
    change _ ≤ 9 * (policy.attempts + 1)
    omega

/-- A server that gives out its root handle and has forgotten it whenever it is asked about it. -/
def forgetful : World Session Playback where
  client := .ofConfig (.ofExport "server" "/export") .portmapper
  outside :=
    { rules :=
        [((portmapService.program, PortmapNumber.getPort.code),
          .reply 0 [0, 0, 0, 1, 0, 0, 0, 0, 0, 0, 0, 0, 0, 0, 0, 0, 0, 0, 0, 0, 0, 0, 8, 1]),
        ((mountService.program, MountNumber.mount.code),
          .reply 0 [0, 0, 0, 1, 0, 0, 0, 0, 0, 0, 0, 0, 0, 0, 0, 0, 0, 0, 0, 0, 0, 0, 0, 0,
            0, 0, 0, 1, 7, 0, 0, 0, 0, 0, 0, 0]),
        ((mountService.program, MountNumber.unmount.code),
          .reply 0 [0, 0, 0, 1, 0, 0, 0, 0, 0, 0, 0, 0, 0, 0, 0, 0, 0, 0, 0, 0]),
        ((nfsService.program, NfsNumber.getAttr.code),
          .reply 0 [0, 0, 0, 1, 0, 0, 0, 0, 0, 0, 0, 0, 0, 0, 0, 0, 0, 0, 0, 0, 0, 0, 0, 70])]
      script := [], names := .literal, ports := [] }

theorem operation_ends_forgetful :
    let op : Operation := .call Procedures.getAttr (fun _ => Dispatcher.acceptAny) ⟨⟨[7]⟩⟩
    let w' := (op.program.run Playback.environment forgetful).2
    (op.program.ids Playback.environment forgetful).length = 9 ∧
    (exchanges w'.log).map (fun e => e.message.procedure) = [3, 1, 3, 3, 1, 3, 1, 3, 3] ∧
    (∃ es, Timeline Playback.environment op.program forgetful es () w' ∧
      (handshakesOf es).length ≤ 2) ∧
    (exchanges w'.log).length ≤ 36 ∧ w'.client.Retries forgetful.client.config.retry := by
  intro op w'
  have hr : forgetful.client.Retries forgetful.client.config.retry := .ofConfig _ _
  obtain ⟨-, hes, -, ⟨sent, hx, hl⟩, hr'⟩ := operation_ends Playback.environment op hr
  refine ⟨by decide +kernel, by decide +kernel, hes, ?_, hr'⟩
  rw [hx]
  exact hl

end Session
end Nfs3.Client
