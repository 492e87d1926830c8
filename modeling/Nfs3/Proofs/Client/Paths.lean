import Nfs3.Proofs.Client.Clients
import Nfs3.Proofs.Client.Crowd
import Nfs3.Proofs.Client.Escalation

/-!
The way of one caller among others. It is shown a state that others change, but it is at one place
of its own program, and what led there are its own steps.
-/
namespace Nfs3.Client
open Rpc Wire
variable {ι σ τ υ α β : Type} {i : ι}

namespace History

def own [DecidableEq ι] (i : ι) (h : History ι σ) : History ι σ := h.filter (·.caller = i)

theorem own_subset [DecidableEq ι] (i : ι) (h : History ι σ) : h.own i ⊆ h :=
  List.filter_subset_self h

theorem exists_of_own [DecidableEq ι] {log xs ys : History ι σ} {d : Deed ι σ}
    (h : log.own i = xs ++ d :: ys) :
    ∃ past : History ι σ, d :: past <:+ log ∧ past.own i = ys := by
  obtain ⟨_, l, rfl, -, h⟩ := List.filter_eq_append_iff.1 h
  obtain ⟨l₁, past, rfl, -, -, h⟩ := List.filter_eq_cons_iff.1 h
  exact ⟨past, ⟨_, List.append_assoc ..⟩, h⟩

structure Since (base mine : History ι σ) : Prop where
  suffix : base <:+ mine
  drawn : mine.drawn = base.drawn

namespace Since
variable {base mine : History ι σ} {d : Deed ι σ}

theorem refl (base : History ι σ) : Since base base := ⟨List.suffix_rfl, rfl⟩

theorem cons (h : Since base mine) (hd : d.action.draws = false) : Since base (d :: mine) where
  suffix := h.suffix.trans (List.suffix_cons d mine)
  drawn := by
    rw [← h.drawn]
    simp [History.drawn, hd]

end Since
end History

/-- Whatever caller `i` is answered on its way, all it sends and changes is `ok` after its own steps
up to then, newest first, and so is what it comes to. -/
def Program.Along (i : ι) (part : Part σ τ) (ok : History ι σ → Action σ → Prop)
    (post : α → History ι σ → Prop) : Program τ α → History ι σ → Prop
  | .done v, mine => post v mine
  | .act (.send m) next, mine => ok mine (.send m) ∧
      ∀ r, (next r).Along i part ok post (⟨i, .send m, r⟩ :: mine)
  | .act (.update f) next, mine => ok mine (.update (part.modify f)) ∧
      (next ()).Along i part ok post (⟨i, .update (part.modify f), ()⟩ :: mine)
  | .act .inspect next, mine =>
      ∀ s, (next (part.get s)).Along i part ok post (⟨i, .inspect, s⟩ :: mine)
  | .act (.discover s p) next, mine =>
      ∀ r, (next r).Along i part ok post (⟨i, .discover s p, r⟩ :: mine)
  | .act (.lookup s v) next, mine =>
      ∀ r, (next r).Along i part ok post (⟨i, .lookup s v, r⟩ :: mine)
  | .act (.sleep d) next, mine => ∀ r, (next r).Along i part ok post (⟨i, .sleep d, r⟩ :: mine)
  | .act .freshXid next, mine => ∀ r, (next r).Along i part ok post (⟨i, .freshXid, r⟩ :: mine)
  | .act .timestamp next, mine => ∀ r, (next r).Along i part ok post (⟨i, .timestamp, r⟩ :: mine)
  | .act .acquire next, mine => ∀ r, (next r).Along i part ok post (⟨i, .acquire, r⟩ :: mine)
  | .act .release next, mine => ∀ r, (next r).Along i part ok post (⟨i, .release, r⟩ :: mine)

namespace Program.Along
variable {part : Part σ τ} {ok : History ι σ → Action σ → Prop} {mine : History ι σ}

theorem bind {mid : α → History ι σ → Prop} {post : β → History ι σ → Prop} {p : Program τ α}
    {f : α → Program τ β} (h : p.Along i part ok mid mine)
    (hf : ∀ v mine, mid v mine → (f v).Along i part ok post mine) :
    (p.bind f).Along i part ok post mine := by
  induction p generalizing mine with
  | done v => exact hf v mine h
  | act a next ih =>
    cases a with
    | send m => exact ⟨h.1, fun r => ih r (h.2 r)⟩
    | update f => exact ⟨h.1, ih () h.2⟩
    | inspect => exact fun s => ih _ (h s)
    | _ => exact fun r => ih r (h r)

theorem mono {post post' : α → History ι σ → Prop} {p : Program τ α}
    (h : p.Along i part ok post mine) (hp : ∀ v mine, post v mine → post' v mine) :
    p.Along i part ok post' mine := by
  have hb : (p.bind .done).Along i part ok post' mine := h.bind hp
  rwa [Program.bind_done] at hb

theorem inspect_bind {post : β → History ι σ → Prop} {f : τ → Program τ β}
    (h : ∀ s, (f (part.get s)).Along i part ok post (⟨i, .inspect, s⟩ :: mine)) :
    (Program.inspect >>= f).Along i part ok post mine := h

theorem onPart {post : α → History ι σ → Prop} {inner : Part τ υ} {p : Program υ α}
    (h : p.Along i (part.comp inner) ok post mine) :
    (p.onPart inner).Along i part ok post mine := by
  induction p generalizing mine with
  | done v => exact h
  | act a next ih =>
    cases a with
    | send m => exact ⟨h.1, fun r => ih r (h.2 r)⟩
    | update f => exact ⟨h.1, ih () h.2⟩
    | inspect => exact fun s => ih _ (h s)
    | _ => exact fun r => ih r (h r)

theorem step {post : α → History ι σ → Prop} {a : Action σ} {next : a.Answer → Program σ α}
    (h : (act a next).Along i .whole ok post mine) (r : a.Answer) :
    (next r).Along i .whole ok post (⟨i, a, r⟩ :: mine) := by
  cases a with
  | send m => exact h.2 r
  | update f => exact h.2
  | _ => exact h r

end Program.Along

namespace Task

def Along (i : ι) (part : Part σ τ) (ok : History ι σ → Action σ → Prop)
    (post : Except ClientError α → History ι σ → Prop) (t : Task τ α) (mine : History ι σ) : Prop :=
  Program.Along i part ok post (ExceptT.run t) mine

namespace Along
variable {part : Part σ τ} {ok : History ι σ → Action σ → Prop} {mine : History ι σ}
  {post : Except ClientError β → History ι σ → Prop}

theorem bind {mid : Except ClientError α → History ι σ → Prop} {t : Task τ α} {f : α → Task τ β}
    (h : t.Along i part ok mid mine)
    (hf : ∀ v mine, mid (.ok v) mine → (f v).Along i part ok post mine)
    (he : ∀ e mine, mid (.error e) mine → post (.error e) mine) :
    (t >>= f).Along i part ok post mine := by
  refine Program.Along.bind h fun r mine hm => ?_
  cases r with
  | ok v => exact hf v mine hm
  | error e => exact he e mine hm

theorem lift_bind {mid : α → History ι σ → Prop} {p : Program τ α} {f : α → Task τ β}
    (h : p.Along i part ok mid mine)
    (hf : ∀ v mine, mid v mine → (f v).Along i part ok post mine) :
    (Task.lift p >>= f).Along i part ok post mine := by
  have hl : (Task.lift p).Along i part ok (fun r mine => ∃ v, r = .ok v ∧ mid v mine) mine :=
    Program.Along.bind h fun v mine hm => ⟨v, rfl, hm⟩
  refine hl.bind (fun v mine hm => ?_) fun e mine hm => ?_
  · obtain ⟨u, hu, hm⟩ := hm
    cases hu
    exact hf v mine hm
  · obtain ⟨u, hu, -⟩ := hm
    cases hu

theorem inspect_bind {f : τ → Task τ β}
    (h : ∀ s, (f (part.get s)).Along i part ok post (⟨i, .inspect, s⟩ :: mine)) :
    (Task.lift .inspect >>= f).Along i part ok post mine := h

theorem timestamp_bind {f : UInt32 → Task τ β}
    (h : ∀ t, (f t).Along i part ok post (⟨i, .timestamp, t⟩ :: mine)) :
    (Task.lift .timestamp >>= f).Along i part ok post mine := h

theorem sleep_bind {pause : Duration} {f : Unit → Task τ β}
    (h : (f ()).Along i part ok post (⟨i, .sleep pause, ()⟩ :: mine)) :
    (Task.lift (.sleep pause) >>= f).Along i part ok post mine := fun _ => h

theorem send_bind {m : Transmission} {f : Except IoFailure Bytes → Task τ β}
    (ho : ok mine (.send m))
    (h : ∀ r, (f r).Along i part ok post (⟨i, .send m, r⟩ :: mine)) :
    (Task.lift (.send m) >>= f).Along i part ok post mine := ⟨ho, h⟩

theorem update_bind {change : τ → τ} {f : Unit → Task τ β}
    (ho : ok mine (.update (part.modify change)))
    (h : (f ()).Along i part ok post (⟨i, .update (part.modify change), ()⟩ :: mine)) :
    (Task.lift (.update change) >>= f).Along i part ok post mine := ⟨ho, h⟩

theorem fresh_bind {Args : Type} {args : Args} {credential : Credential}
    {f : Request Args → Task τ β} (h : ∀ x, (f ⟨x, args, credential, x.toUInt64⟩).Along i part ok
      post (⟨i, .freshXid, x⟩ :: mine)) :
    (Task.lift (Request.fresh args credential) >>= f).Along i part ok post mine := h

theorem ofExcept_bind {r : Except ClientError α} {f : α → Task τ β}
    (hf : ∀ v, r = .ok v → (f v).Along i part ok post mine)
    (he : ∀ e, r = .error e → post (.error e) mine) :
    (Task.ofExcept r >>= f).Along i part ok post mine := by
  cases r with
  | ok v => exact hf v rfl
  | error e => exact he e rfl

theorem ofExcept {r : Except ClientError β} (h : post r mine) :
    (Task.ofExcept r).Along i part ok post mine := by
  cases r <;> exact h

end Along
end Task

def Action.Marked : Action σ → Prop
  | .send _ | .update _ => True
  | _ => False

/-- Callers that keep to their ways by themselves keep to them among others. -/
theorem Runs.along [DecidableEq ι] {programs rest : ι → Program σ Unit} {start : σ}
    {first : UInt32} {log : History ι σ} {ok : ι → History ι σ → Action σ → Prop}
    (hp : ∀ i, (programs i).Along i .whole (ok i) (fun _ _ => True) [])
    (h : Runs programs start first log rest) :
    (∀ i, (rest i).Along i .whole (ok i) (fun _ _ => True) (log.own i)) ∧
    ∀ (d : Deed ι σ) (past : History ι σ), d :: past <:+ log → d.action.Marked →
      ok d.caller (past.own d.caller) d.action := by
  induction h with
  | start => exact ⟨hp, fun _ _ hd => nomatch List.suffix_nil.1 hd⟩
  | @step past rest i a next r _ ha _ ih =>
    obtain ⟨hway, hdone⟩ := ih
    have hi := hway i
    rw [ha] at hi
    refine ⟨fun j => ?_, fun d before hd hm => ?_⟩
    · by_cases hj : j = i
      · subst hj
        have ho : History.own j (⟨j, a, r⟩ :: past) = ⟨j, a, r⟩ :: past.own j :=
          List.filter_cons_of_pos (decide_eq_true rfl)
        rw [Function.update_self, ho]
        exact hi.step r
      · have ho : History.own j (⟨i, a, r⟩ :: past) = past.own j :=
          List.filter_cons_of_neg (by simpa using Ne.symm hj)
        rw [Function.update_of_ne hj, ho]
        exact hway j
    · obtain hd | hd := List.suffix_cons_iff.1 hd
      · cases hd
        cases a with
        | send m => exact hi.1
        | update f => exact hi.1
        | _ => exact hm.elim
      · exact hdone d before hd hm

/-- The steps of an attempt up to a send, newest first, down to the look at `s` with which it
begins. Who was refused has made `change` and sends again. -/
inductive Attempting (i : ι) (change : σ → σ) (s : σ) : Bool → History ι σ → Prop where
  | first (stamp : UInt32) (s' : σ) :
    Attempting i change s false [⟨i, .inspect, s'⟩, ⟨i, .timestamp, stamp⟩, ⟨i, .inspect, s⟩]
  | again {steps : History ι σ} (m : Transmission) (answer : Except IoFailure Bytes) (s' s'' : σ)
    (stamp : UInt32) : Attempting i change s false steps → Attempting i change s true
      (⟨i, .inspect, s''⟩ :: ⟨i, .timestamp, stamp⟩ :: ⟨i, .inspect, s'⟩ ::
        ⟨i, .update change, ()⟩ :: ⟨i, .send m, answer⟩ :: steps)

theorem Attempting.since {change : σ → σ} {s : σ} {escalated : Bool}
    {steps base rest : History ι σ} (h : Attempting i change s escalated steps)
    (hb : History.Since base rest) : History.Since base (steps ++ rest) := by
  induction h with
  | first => exact ((hb.cons rfl).cons rfl).cons rfl
  | again _ _ _ _ _ _ ih => exact ((((ih.cons rfl).cons rfl).cons rfl).cons rfl).cons rfl

theorem Attempting.begins {change : σ → σ} {s : σ} {escalated : Bool} {steps : History ι σ}
    (h : Attempting i change s escalated steps) :
    ∃ later, steps = later ++ [⟨i, .inspect, s⟩] := by
  induction h with
  | first stamp s' => exact ⟨[_, _], rfl⟩
  | again _ _ _ _ _ _ ih =>
    obtain ⟨later, rfl⟩ := ih
    exact ⟨_ :: _ :: _ :: _ :: _ :: later, rfl⟩

/-- With `m` an attempt goes on that began after `base`. Each part of `m` is taken from the
dispatcher as it was seen in this attempt. -/
structure Addressed (i : ι) (part : Part σ Dispatcher) (number : UInt32) (key : UInt64)
    (base mine : History ι σ) (m : Transmission) : Prop where
  exists_steps : ∃ s escalated steps rest, mine = steps ++ rest ∧ History.Since base rest ∧
    Attempting i (part.modify (·.escalate number)) s escalated steps ∧
    m.privileged = (escalated || (part.get s).usesPrivilegedPort number) ∧
    (∃ s', ⟨i, .inspect, s'⟩ ∈ steps ∧ (part.get s').chooseHost key = .ok m.host) ∧
    ∃ s', ⟨i, .inspect, s'⟩ ∈ steps ∧ m.port = (part.get s').port ∧
      m.timeout = (part.get s').timeout

theorem Addressed.drawn {part : Part σ Dispatcher} {number : UInt32} {key : UInt64}
    {base mine : History ι σ} {m : Transmission} (h : Addressed i part number key base mine m) :
    mine.drawn = base.drawn := by
  obtain ⟨_, _, _, _, rfl, hb, ha, -⟩ := h.exists_steps
  exact (ha.since hb).drawn

namespace Dispatcher
variable {Args Reply : Type} {p : Procedure Args Reply} {r : Request Args}
  {part : Part σ Dispatcher} {ok : History ι σ → Action σ → Prop} {base mine : History ι σ}

/-- The steps of a caller once it has sent a request, or found that it cannot be written. -/
def Once (i : ι) (p : Procedure Args Reply) (r : Request Args) (mine : History ι σ)
    (v : Except ClientError Reply) (after : History ι σ) : Prop :=
  (∃ stamp e, r.segments p stamp = .error e ∧ v = .error e ∧
    after = ⟨i, .timestamp, stamp⟩ :: mine) ∨
  ∃ m answer s stamp, after =
    ⟨i, .send m, answer⟩ :: ⟨i, .inspect, s⟩ :: ⟨i, .timestamp, stamp⟩ :: mine

theorem Once.since {v : Except ClientError Reply} {after : History ι σ}
    (h : Once i p r mine v after) (hb : History.Since base mine) : History.Since base after := by
  obtain ⟨stamp, e, -, -, rfl⟩ | ⟨m, answer, s, stamp, rfl⟩ := h
  · exact hb.cons rfl
  · exact ((hb.cons rfl).cons rfl).cons rfl

theorem along_callOnce {host : String} {privileged : Bool}
    (hs : ∀ stamp s m, r.segments p stamp = .ok m.segments → m.host = host →
      m.privileged = privileged → m.port = (part.get s).port → m.timeout = (part.get s).timeout →
      ok (⟨i, .inspect, s⟩ :: ⟨i, .timestamp, stamp⟩ :: mine) (.send m)) :
    (callOnce p r host privileged).Along i part ok (Once i p r mine) mine := by
  refine .timestamp_bind fun stamp => .ofExcept_bind (fun segments hseg => ?_) fun e he => ?_
  · refine .inspect_bind fun s => .send_bind (hs stamp s _ hseg rfl rfl rfl rfl) fun answer => ?_
    cases answer with
    | error cause => exact .inr ⟨_, _, s, stamp, rfl⟩
    | ok reply => exact .ofExcept (.inr ⟨_, _, s, stamp, rfl⟩)
  · exact .inl ⟨stamp, e, he, rfl, rfl⟩

variable (hp : p.Candid)
  (hs : ∀ mine m stamp, r.segments p stamp = .ok m.segments →
    Addressed i part p.number r.routingKey base mine m → ok mine (.send m))
  (hu : ∀ mine, base <:+ mine → ok mine (.update (part.modify (·.escalate p.number))))
include hp hs hu

theorem along_attempt (hb : History.Since base mine) :
    (attempt p r).Along i part ok (fun _ => History.Since base) mine := by
  refine .inspect_bind fun s => .ofExcept_bind (fun host hh => ?_) fun e _ => hb.cons rfl
  refine .lift_bind (along_callOnce fun stamp s' m hseg hhost hpriv hport htime => ?_)
    fun v after hv => ?_
  · refine hs _ m stamp hseg ⟨s, false, _, mine, rfl, hb, .first stamp s', hpriv, ?_, ?_⟩
    · exact ⟨s, by simp, hhost ▸ hh⟩
    · exact ⟨s', by simp, hport, htime⟩
  · have hafter : History.Since base after := hv.since (hb.cons rfl)
    split
    · exact hafter
    · rename_i server name stat
      split
      · exact hafter
      · obtain ⟨stamp, e, he, hv, -⟩ | ⟨m₀, answer, s₀, stamp₀, rfl⟩ := hv
        · cases hv
          exact (Request.segments_candid hp he server name stat rfl).elim
        refine .update_bind (hu _ hafter.suffix) (.inspect_bind fun s₁ => ?_)
        refine .ofExcept_bind (fun host hh => ?_) fun e _ => (hafter.cons rfl).cons rfl
        have hbefore : Attempting i (part.modify (·.escalate p.number)) s false _ :=
          .first stamp₀ s₀
        refine Program.Along.mono (along_callOnce fun stamp s' m hseg hhost hpriv hport htime => ?_)
          fun v after hv => hv.since ((hafter.cons rfl).cons rfl)
        refine hs _ m stamp hseg ⟨s, true, _, mine, rfl, hb,
          .again m₀ answer s₁ s' stamp hbefore, hpriv, ?_, ?_⟩
        · exact ⟨s₁, by simp, hhost ▸ hh⟩
        · exact ⟨s', by simp, hport, htime⟩
    · exact hafter

variable {validate : Args → Reply → Except ClientError Unit}

theorem along_attempts_step {left failures : Nat} (hb : History.Since base mine)
    (hk : ∀ k mine, left = k + 1 → History.Since base mine →
      (attempts p r validate k (failures + 1)).Along i part ok (fun _ => History.Since base) mine) :
    (attempts p r validate left failures).Along i part ok (fun _ => History.Since base) mine := by
  rw [attempts.eq_def]
  refine .lift_bind (along_attempt hp hs hu hb) fun v after ha => ?_
  cases v with
  | ok reply => exact .ofExcept_bind (fun _ _ => ha) fun _ _ => ha
  | error e =>
    simp only
    split
    · cases left with
      | zero => exact ha
      | succ k => exact .inspect_bind fun s => .sleep_bind (hk k _ rfl ((ha.cons rfl).cons rfl))
    · exact ha

theorem along_attempts (left failures : Nat) (hb : History.Since base mine) :
    (attempts p r validate left failures).Along i part ok (fun _ => History.Since base) mine := by
  induction left generalizing failures mine with
  | zero => exact along_attempts_step hp hs hu hb fun k mine hk => by cases hk
  | succ left ih =>
    refine along_attempts_step hp hs hu hb fun k mine hk hm => ?_
    cases hk
    exact ih (failures + 1) hm

theorem along_call (hb : History.Since base mine) :
    (call p r validate).Along i part ok (fun _ => History.Since base) mine :=
  .inspect_bind fun _ => along_attempts hp hs hu _ 0 (hb.cons rfl)

end Dispatcher
end Nfs3.Client
