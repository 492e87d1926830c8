import Mathlib.Data.List.Nodup
import Nfs3.Proofs.Client.Attempts
import Nfs3.Proofs.Client.Lookups
import Nfs3.Proofs.Client.Paths

/-!
Callers that look up ports with one portmapper, in any order of their steps. Several may find a
server unknown and look for its addresses, but one of them stores a dispatcher, and all of them use
that one.
-/
namespace Nfs3.Client
open Wire Rpc Net

/-- The same dispatcher later: it may have escalated more. -/
structure Dispatcher.Grown (d d' : Dispatcher) : Prop where
  same : { d' with escalated := d.escalated } = d
  escalated : d.escalated ⊆ d'.escalated

namespace Dispatcher.Grown
variable {d d' d'' : Dispatcher}

theorem refl (d : Dispatcher) : d.Grown d := ⟨rfl, List.Subset.refl _⟩

theorem trans (h : d.Grown d') (h' : d'.Grown d'') : d.Grown d'' where
  same := by
    have hs : { d'' with escalated := d.escalated } =
      { { d'' with escalated := d'.escalated } with escalated := d.escalated } := rfl
    rw [hs, h'.same, h.same]
  escalated := List.Subset.trans h.escalated h'.escalated

theorem escalate (d : Dispatcher) (n : UInt32) : d.Grown (d.escalate n) :=
  ⟨rfl, fun _ hm => List.mem_insert_of_mem hm⟩

theorem uses (h : d.Grown d') {n : UInt32} (hn : d.usesPrivilegedPort n = true) :
    d'.usesPrivilegedPort n = true := by
  have hp : d'.privileged = d.privileged := by rw [← h.same]
  simp only [usesPrivilegedPort, Bool.or_eq_true, List.contains_iff_mem, hp] at hn ⊢
  exact hn.imp_right fun hm => h.escalated hm

theorem port (h : d.Grown d') : d'.port = d.port := by rw [← h.same]

theorem timeout (h : d.Grown d') : d'.timeout = d.timeout := by rw [← h.same]

theorem chooseHost (h : d.Grown d') (key : UInt64) : d'.chooseHost key = d.chooseHost key := by
  rw [← h.same]
  rfl

end Dispatcher.Grown

namespace Portmapper
variable {ι : Type} {m m' m'' : Portmapper} {server : String}

def names (m : Portmapper) : List String := m.dispatchers.map Prod.fst

theorem known_eq_none_iff : m.known server = none ↔ server ∉ m.names := by
  unfold known names
  rw [List.lookup_eq_none_iff, List.mem_map]
  refine ⟨fun h ⟨e, he, hn⟩ => ?_, fun h e he => ?_⟩
  · exact absurd (h e he) (by simp [hn])
  · exact bne_iff_ne.2 fun hn => h ⟨e, he, hn.symm⟩

theorem names_store (m : Portmapper) (server : String) (d : Dispatcher) :
    (m.store server d).names = m.names ++ if server ∈ m.names then [] else [server] := by
  unfold store
  by_cases h : server ∈ m.names
  · have hk : (m.known server).isSome = true :=
      Option.isSome_iff_ne_none.2 fun hn => known_eq_none_iff.1 hn h
    rw [if_pos hk, if_pos h, List.append_nil]
  · have hk : ¬ (m.known server).isSome = true := by
      rw [known_eq_none_iff.2 h]
      exact Bool.false_ne_true
    rw [if_neg hk, if_neg h, names, List.map_append]
    rfl

theorem names_modify (m : Portmapper) (server : String) (f : Dispatcher → Dispatcher) :
    ((dispatcherOf server).modify f m).names = m.names := by
  unfold names dispatcherOf
  rw [List.map_map]
  refine List.map_congr_left fun e _ => ?_
  simp only [Function.comp]
  split <;> rfl

/-- What it had it has, but for further escalations. -/
structure Later (m m' : Portmapper) : Prop where
  names : m.names <+: m'.names
  nodup : m.names.Nodup → m'.names.Nodup
  known : ∀ server d, m.known server = some d → ∃ d', m'.known server = some d' ∧ d.Grown d'

namespace Later

theorem refl (m : Portmapper) : m.Later m := ⟨List.prefix_rfl, id, fun _ d h => ⟨d, h, .refl d⟩⟩

theorem trans (h : m.Later m') (h' : m'.Later m'') : m.Later m'' where
  names := h.names.trans h'.names
  nodup := h'.nodup ∘ h.nodup
  known server d hd := by
    obtain ⟨d', hd', hg⟩ := h.known server d hd
    obtain ⟨d'', hd'', hg'⟩ := h'.known server d' hd'
    exact ⟨d'', hd'', hg.trans hg'⟩

theorem grown (h : m.Later m') (hk : m.known server ≠ none) {d' : Dispatcher}
    (hd : m'.known server = some d') : ∃ d, m.known server = some d ∧ d.Grown d' := by
  obtain ⟨d, hm⟩ := Option.ne_none_iff_exists'.1 hk
  obtain ⟨e, he, hg⟩ := h.known server d hm
  rw [hd] at he
  cases he
  exact ⟨d, hm, hg⟩

theorem known_ne_none (h : m.Later m') (hk : m.known server ≠ none) :
    m'.known server ≠ none := by
  obtain ⟨d, hd⟩ := Option.ne_none_iff_exists'.1 hk
  obtain ⟨d', hd', -⟩ := h.known server d hd
  exact hd' ▸ Option.some_ne_none d'

theorem store (m : Portmapper) (server : String) (d : Dispatcher) : m.Later (m.store server d) where
  names := by
    rw [names_store]
    exact List.prefix_append _ _
  nodup hn := by
    rw [names_store]
    split
    · rwa [List.append_nil]
    · rename_i h
      exact hn.append (List.nodup_singleton server) (List.disjoint_singleton.2 h)
  known server' e he := by
    refine ⟨e, ?_, .refl e⟩
    rw [known_store_eq, he, Option.some_or]

theorem escalate (m : Portmapper) (server : String) (n : UInt32) :
    m.Later ((dispatcherOf server).modify (·.escalate n) m) where
  names := ⟨[], (List.append_nil m.names).trans (names_modify m server _).symm⟩
  nodup hn := by
    rwa [names_modify]
  known server' e he := by
    rw [known_modify, he, Option.map_some]
    refine ⟨_, rfl, ?_⟩
    split
    · exact .escalate e n
    · exact .refl e

end Later

theorem escalation_inj {server server' : String} {number number' : UInt32}
    (h : (dispatcherOf server).modify (·.escalate number) =
      (dispatcherOf server').modify (·.escalate number')) :
    server = server' ∧ number = number' := by
  let d : Dispatcher := { server, retry := default, timeout := default }
  let m : Portmapper := { retry := default, timeout := default, dispatchers := [(server, d)] }
  have hm : (if server = server then (server, d.escalate number) else (server, d)) =
      if server = server' then (server, d.escalate number') else (server, d) :=
    (List.cons.inj (congrArg Portmapper.dispatchers (congrFun h m))).1
  rw [if_pos rfl] at hm
  split at hm
  · rename_i hs
    have he : [number] = [number'] := congrArg (fun e => e.2.escalated) hm
    exact ⟨hs, (List.cons.inj he).1⟩
  · have he : [number] = [] := congrArg (fun e => e.2.escalated) hm
    cases he

/-- No change of a dispatcher makes a server known. -/
theorem store_ne_modify {server server' : String} {d : Dispatcher} {f : Dispatcher → Dispatcher} :
    (·.store server d) ≠ (dispatcherOf server').modify f := by
  intro h
  let m : Portmapper := { retry := default, timeout := default }
  have hm : (m.store server d).names = ((dispatcherOf server').modify f m).names :=
    congrArg names (congrFun h m)
  rw [names_modify, names_store] at hm
  cases hm

/-- The procedure of a lookup moves to a privileged port. -/
def Operation.escalation (op : Operation) : Portmapper → Portmapper :=
  (dispatcherOf op.server).modify (·.escalate op.number)

/-- Caller `i` has seen to it that the server is known. -/
def Ensured (i : ι) (server : String) (mine : History ι Portmapper) : Prop :=
  (∃ s, s.known server ≠ none ∧ ⟨i, .inspect, s⟩ ∈ mine) ∨
    ∃ d, ⟨i, .update (·.store server d), ()⟩ ∈ mine

theorem Ensured.mono {i : ι} {server : String} {mine later : History ι Portmapper}
    (h : Ensured i server mine) (hs : mine ⊆ later) : Ensured i server later := by
  obtain ⟨s, hk, hm⟩ | ⟨d, hm⟩ := h
  · exact .inl ⟨s, hk, hs hm⟩
  · exact .inr ⟨d, hs hm⟩

/-- What a caller with the lookups `ops` may send and change after its own steps up to then. -/
inductive Does (i : ι) (ops : List Operation) (mine : History ι Portmapper) :
    Action Portmapper → Prop where
  | send {before : List Operation} {op : Operation} {after : List Operation}
    {base : History ι Portmapper} {xid : UInt32} {m : Transmission} :
    ops = before ++ op :: after → mine.drawn = before.length + 1 → Ensured i op.server base →
    Addressed i (dispatcherOf op.server) op.number xid.toUInt64 base mine m →
    m.segments.flatten = wordsBytes (op.words xid) → Does i ops mine (.send m)
  | store (server : String) (d : Dispatcher) : Does i ops mine (.update (·.store server d))
  | escalate {server : String} {number : UInt32} : Ensured i server mine →
    Does i ops mine (.update ((dispatcherOf server).modify (·.escalate number)))

theorem along_connect {i : ι} {ok : History ι Portmapper → Action Portmapper → Prop}
    {mine : History ι Portmapper}
    (hs : ∀ mine d, ok mine (.update (·.store server d))) :
    (connect server).Along i .whole ok
      (fun _ after => History.Since mine after ∧ Ensured i server after) mine := by
  unfold connect
  refine .inspect_bind fun m => ?_
  have hm : History.Since mine (⟨i, .inspect, m⟩ :: mine) := .cons (.refl mine) rfl
  split
  · rename_i d hd
    exact ⟨hm, .inl ⟨m, hd ▸ Option.some_ne_none d, List.mem_cons_self⟩⟩
  · exact fun found => ⟨hs _ _, (hm.cons rfl).cons rfl, .inr ⟨_, List.mem_cons_self⟩⟩

section Along
variable {i : ι} {ops before after : List Operation} {op : Operation} {mine : History ι Portmapper}

theorem along_call {Args Reply : Type} {p : Procedure Args Reply} {args : Args}
    (ha : op.Asks p args) (hops : ops = before ++ op :: after)
    (hd : mine.drawn = before.length) :
    (call op.server p args).Along i .whole (Does i ops)
      (fun _ after => after.drawn = mine.drawn + 1) mine := by
  refine .lift_bind (along_connect fun _ d => .store op.server d) fun _ known hk => ?_
  refine .fresh_bind fun xid => ?_
  have hdrawn : History.drawn (⟨i, .freshXid, xid⟩ :: known) = mine.drawn + 1 := by
    rw [← hk.1.drawn]
    simp [History.drawn, Action.draws]
  have hin {later : History ι Portmapper} (hs : ⟨i, .freshXid, xid⟩ :: known <:+ later) :
      Ensured i op.server later :=
    hk.2.mono (((List.suffix_cons _ _).trans hs).subset)
  refine .onPart (.mono (Dispatcher.along_call ha.candid (fun mine m stamp hseg hm => ?_)
    (fun mine hs => ?_) (.refl _)) fun _ later hs => hs.drawn.trans hdrawn)
  · have hone : History.drawn (⟨i, .freshXid, xid⟩ :: known) = before.length + 1 := by
      rw [hdrawn, hd]
    have hm' : Addressed i (dispatcherOf op.server) op.number xid.toUInt64 _ mine m :=
      ha.number ▸ hm
    exact .send hops (hm.drawn.trans hone) (hin List.suffix_rfl) hm' (ha.segments rfl rfl hseg)
  · exact .escalate (hin hs)

theorem along_operation (hops : ops = before ++ op :: after) (hd : mine.drawn = before.length) :
    op.program.Along i .whole (Does i ops) (fun _ after => after.drawn = mine.drawn + 1) mine := by
  cases op with
  | null server =>
    exact .bind (along_call (Operation.asks_null server) hops hd) fun _ _ h => h
  | resolve server service =>
    refine .bind (.bind (along_call (Operation.asks_resolve server service) hops hd)
      fun v _ h => ?_) fun _ _ h => h
    cases v with
    | ok number => exact Task.Along.ofExcept h
    | error e => exact h

theorem along_performAll (before : List Operation) (hops : ops = before ++ after)
    (hd : mine.drawn = before.length) :
    (performAll after).Along i .whole (Does i ops) (fun _ _ => True) mine := by
  induction after generalizing before mine with
  | nil => trivial
  | cons op after ih =>
    refine (along_operation hops hd).bind fun _ later hl => ?_
    refine ih (before ++ [op]) (by simp [hops]) ?_
    rw [hl, hd, List.length_append]
    rfl

end Along

theorem Does.later {i : ι} {ops : List Operation} {mine : History ι Portmapper}
    {a : Action Portmapper} (h : Does i ops mine a) (m : Portmapper) : m.Later (a.apply m) := by
  cases h with
  | send => exact .refl m
  | store server d => exact .store m server d
  | escalate => exact .escalate m _ _

theorem Does.ensured {i : ι} {ops : List Operation} {mine : History ι Portmapper}
    {server : String} {number : UInt32} {f : Portmapper → Portmapper}
    (h : Does i ops mine (.update f))
    (hf : f = (dispatcherOf server).modify (·.escalate number)) : Ensured i server mine := by
  cases h with
  | store => exact (store_ne_modify hf).elim
  | escalate he =>
    obtain ⟨rfl, -⟩ := escalation_inj hf
    exact he

section Crowd
variable [DecidableEq ι] {ops : ι → List Operation} {start : Portmapper} {first : UInt32}
  {log past later : History ι Portmapper} {rest : ι → Program Portmapper Unit}
  {server : String} {i : ι}
  (h : Runs (fun i => performAll (ops i)) start first log rest)
include h

theorem does {d : Deed ι Portmapper} (hd : d :: past <:+ log) (hm : d.action.Marked) :
    Does d.caller (ops d.caller) (past.own d.caller) d.action :=
  (h.along fun _ => along_performAll [] rfl rfl).2 d past hd hm

theorem later_of_suffix (hp : past <:+ later) (hl : later <:+ log) :
    (past.state start).Later (later.state start) := by
  refine History.survives (P := Later (past.state start)) hp (.refl _) fun d before hd _ hb => ?_
  refine hb.trans ?_
  by_cases hm : d.action.Marked
  · exact (does h (hd.trans hl) hm).later _
  · obtain ⟨j, a, r⟩ := d
    cases a with
    | update => exact (hm trivial).elim
    | _ => exact .refl _

theorem known_of_ensured (hp : past <:+ log) (he : Ensured i server past) :
    (past.state start).known server ≠ none := by
  obtain ⟨s, hs, hm⟩ | ⟨d, hm⟩ := he
  · obtain ⟨x, before, hb⟩ := List.append_of_mem hm
    have hsuffix : ⟨i, .inspect, s⟩ :: before <:+ past := ⟨x, hb.symm⟩
    have hfit : s = History.state start before := h.fits (hsuffix.trans hp)
    have hl := later_of_suffix h ((List.suffix_cons _ _).trans hsuffix) hp
    exact hl.known_ne_none (hfit ▸ hs)
  · obtain ⟨x, before, hb⟩ := List.append_of_mem hm
    have hsuffix : ⟨i, .update (·.store server d), ()⟩ :: before <:+ past := ⟨x, hb.symm⟩
    exact (later_of_suffix h hsuffix hp).known_ne_none (known_store_self _ _ _)

theorem shown {steps base : History ι Portmapper} {s : Portmapper} {d : Dispatcher}
    (hp : past <:+ log) (hown : past.own i = steps ++ base) (he : Ensured i server base)
    (hd : (past.state start).known server = some d) (hs : ⟨i, .inspect, s⟩ ∈ steps) :
    ((dispatcherOf server).get s).Grown d := by
  obtain ⟨xs, ys, rfl⟩ := List.append_of_mem hs
  rw [List.append_assoc] at hown
  obtain ⟨before, hb, hrest⟩ := History.exists_of_own hown
  have hfit : s = before.state start := h.fits (hb.trans hp)
  have hbefore : before <:+ past := (List.suffix_cons _ _).trans hb
  have hin : Ensured i server before := by
    have hbase : base ⊆ before.own i := by
      rw [hrest]
      exact List.subset_append_right ys base
    exact he.mono (List.Subset.trans hbase (before.own_subset i))
  have hk := known_of_ensured h (hbefore.trans hp) hin
  obtain ⟨e, he, hg⟩ := (later_of_suffix h hbefore hp).grown hk hd
  rw [hfit]
  change ((Portmapper.known _ server).getD _).Grown d
  rwa [he]

theorem uses_of_escalated {j : ι} {op : Operation} {before : History ι Portmapper} {d : Dispatcher}
    (hp : past <:+ log)
    (hb : ⟨j, .update op.escalation, ()⟩ :: before <:+ past)
    (hd : (past.state start).known op.server = some d) : d.usesPrivilegedPort op.number = true := by
  have he := (does h (hb.trans hp) trivial).ensured rfl
  have hbefore : before <:+ past := (List.suffix_cons _ _).trans hb
  have hk := known_of_ensured h (hbefore.trans hp) (he.mono (before.own_subset j))
  obtain ⟨e, he⟩ := Option.ne_none_iff_exists'.1 hk
  have hafter := known_modify (before.state start) op.server op.server (·.escalate op.number)
  rw [he, Option.map_some, if_pos rfl] at hafter
  obtain ⟨d', hd', hg⟩ := (later_of_suffix h hb hp).grown (hafter ▸ Option.some_ne_none _) hd
  have hd₁ : some d' = some (e.escalate op.number) := hd'.symm.trans hafter
  cases hd₁
  exact hg.uses (Dispatcher.usesPrivilegedPort_escalate _ _)

end Crowd

/-- Caller `i` sends `m` for that of its lookups whose turn it is, and through the dispatcher `d`
stored for the server. -/
structure Through (start : Portmapper) [DecidableEq ι] (i : ι) (ops : List Operation)
    (past : History ι Portmapper) (op : Operation) (d : Dispatcher) (m : Transmission) : Prop where
  turn : ∃ before after, ops = before ++ op :: after ∧ (past.own i).drawn = before.length + 1
  stored : (past.state start).known op.server = some d
  request : ∃ xid, m.segments.flatten = wordsBytes (op.words xid) ∧
    d.chooseHost xid.toUInt64 = .ok m.host
  port : m.port = d.port
  timeout : m.timeout = d.timeout

/-- The attempt of `op` that caller `i` makes at `past` began at `began`, with a look at the
portmapper. If it has been refused, it has escalated. -/
structure Trying (start : Portmapper) [DecidableEq ι] (i : ι) (op : Operation) (escalated : Bool)
    (began past : History ι Portmapper) : Prop where
  looks : ⟨i, .inspect, began.state start⟩ :: began <:+ past
  steps : ∃ steps, past.own i = steps ++ began.own i ∧
    Attempting i op.escalation (began.state start) escalated steps

end Portmapper

open Portmapper

/-- Whatever the callers look up and in whatever order they take their steps. There is never more
than one dispatcher for a server, and what is stored stays, but that it escalates procedures. All
that is sent for a server is sent through the dispatcher then stored. A privileged port is used
exactly if the attempt has been refused or the dispatcher used privileged ports for the procedure
when the attempt began; so an escalation, whoever made it, holds for every attempt begun after
it. -/
theorem Runs.lookups_share [DecidableEq ι] {ops : ι → List Operation} {start : Portmapper}
    {first : UInt32} {log : History ι Portmapper} {rest : ι → Program Portmapper Unit}
    (hn : start.names.Nodup) (h : Runs (fun i => performAll (ops i)) start first log rest) :
    (∀ later : History ι Portmapper, later <:+ log → (later.state start).names.Nodup ∧
      ∀ past : History ι Portmapper, past <:+ later →
        (past.state start).Later (later.state start)) ∧
    ∀ i m answer past, ⟨i, .send m, answer⟩ :: past <:+ log →
      ∃ op d, Through start i (ops i) past op d m ∧
        ∃ escalated began d₀, Trying start i op escalated began past ∧
          (began.state start).known op.server = some d₀ ∧
          (m.privileged = true ↔ escalated = true ∨ d₀.usesPrivilegedPort op.number = true) ∧
          ∀ j before, ⟨j, .update op.escalation, ()⟩ :: before <:+ began →
            m.privileged = true := by
  refine ⟨fun later hl => ⟨?_, fun past hp => later_of_suffix h hp hl⟩,
    fun i m answer (past : History ι Portmapper) hs => ?_⟩
  · exact (later_of_suffix h List.nil_suffix hl).nodup hn
  have hpast : past <:+ log := (List.suffix_cons _ _).trans hs
  obtain ⟨hops, hdrawn, hin, haddr, hwords⟩ := does h hs trivial
  rename_i before op after base xid
  obtain ⟨s, escalated, steps, mine, hown, hsince, htry, hpriv, ⟨s₁, hs₁, hhost⟩,
    ⟨s₂, hs₂, hport, htimeout⟩⟩ := haddr.exists_steps
  have hmine : Ensured i op.server mine := hin.mono hsince.suffix.subset
  have hk : (past.state start).known op.server ≠ none := by
    refine known_of_ensured h hpast (hmine.mono fun x hx => past.own_subset i ?_)
    rw [hown]
    exact List.mem_append_right steps hx
  obtain ⟨d, hd⟩ := Option.ne_none_iff_exists'.1 hk
  have hg₁ := shown h hpast hown hmine hd hs₁
  have hg₂ := shown h hpast hown hmine hd hs₂
  refine ⟨op, d, ⟨⟨before, after, hops, hdrawn⟩, hd, ⟨xid, hwords, ?_⟩, ?_, ?_⟩, ?_⟩
  · rw [hg₁.chooseHost]
    exact hhost
  · rw [hg₂.port]
    exact hport
  · rw [hg₂.timeout]
    exact htimeout
  obtain ⟨xs, hxs⟩ := htry.begins
  have hlook : past.own i = xs ++ ⟨i, .inspect, s⟩ :: mine := by
    rw [hown, hxs, List.append_assoc]
    rfl
  obtain ⟨began, hlooks, rfl⟩ := History.exists_of_own hlook
  have hbegan : began <:+ log := (List.suffix_cons _ _).trans (hlooks.trans hpast)
  obtain rfl : s = began.state start := h.fits (hlooks.trans hpast)
  obtain ⟨d₀, hd₀⟩ := Option.ne_none_iff_exists'.1
    (known_of_ensured h hbegan (hmine.mono (began.own_subset i)))
  have hget : (dispatcherOf op.server).get (began.state start) = d₀ := by
    change (Portmapper.known _ op.server).getD _ = d₀
    rw [hd₀, Option.getD_some]
  rw [hget] at hpriv
  refine ⟨escalated, began, d₀, ⟨hlooks, steps, hown, htry⟩, hd₀, ?_, fun j before hb => ?_⟩
  · rw [hpriv, Bool.or_eq_true]
  · rw [hpriv, uses_of_escalated h hbegan hb hd₀, Bool.or_true]

namespace Portmapper

def vacant : Portmapper := { retry := default, timeout := default }

def serving (escalated : List UInt32) : Portmapper :=
  { vacant with
    dispatchers := [("server", { vacant.newcomer "server" none with escalated := escalated })] }

def seeking : Operation := .resolve "server" ⟨100003, 3⟩

def refusal : Bytes := [0, 0, 0, 0, 0, 0, 0, 1, 0, 0, 0, 1, 0, 0, 0, 1, 0, 0, 0, 5]

def sought (x : UInt32) : Request PortMapping := ⟨x, ⟨100003, 3, tcp, 0⟩, .none, x.toUInt64⟩

def seekingMessage (x stamp : UInt32) (privileged : Bool) : Transmission where
  host := "server"
  port := 111
  privileged := privileged
  segments := match (sought x).segments Procedures.getPort stamp with
    | .ok segments => segments
    | .error _ => []
  timeout := default

theorem sought_segments (x stamp : UInt32) (privileged : Bool) :
    (sought x).segments Procedures.getPort stamp =
      .ok (seekingMessage x stamp privileged).segments := by
  have hp (a : PortMapping) :
    Procedures.getPort.marshal a = MessageBuffer.put PortMapping.codec a := rfl
  obtain ⟨segments, hs⟩ : ∃ segments, (sought x).segments Procedures.getPort stamp = .ok segments :=
    (Request.segments_ok_iff hp).2 ⟨⟨Nat.zero_le _, Nat.zero_le _⟩, rfl⟩
  simp only [seekingMessage, hs]

def asking : Program Portmapper Unit :=
  ((ExceptT.run ((Task.lift (Request.fresh ⟨100003, 3, tcp, 0⟩ .none) >>= fun r =>
    (Dispatcher.call Procedures.getPort r Dispatcher.acceptAny).onPart (dispatcherOf "server")) >>=
      fun port => Task.ofExcept (readPort "server" ⟨100003, 3⟩ port))).bind fun _ => .done ()).bind
        fun _ => .done ()

def remaining (x : UInt32) (left failures : Nat) : Program Portmapper Unit :=
  ((ExceptT.run ((Dispatcher.attempts Procedures.getPort (sought x) Dispatcher.acceptAny left
    failures).onPart (dispatcherOf "server") >>= fun port =>
      Task.ofExcept (readPort "server" ⟨100003, 3⟩ port))).bind fun _ => .done ()).bind
        fun _ => .done ()

theorem seeking_begins (found : Option (List IpAddress)) :
    ∃ n₁, performAll [seeking] = .act .inspect n₁ ∧
    ∃ n₂, n₁ vacant = .act (.discover "server" portmapPort) n₂ ∧
    ∃ n₃, n₂ found = .act (.update (·.store "server" (vacant.newcomer "server" found))) n₃ ∧
      n₃ () = asking :=
  ⟨_, rfl, _, rfl, _, rfl, rfl⟩

theorem asking_begins (x : UInt32) (escalated : List UInt32) :
    ∃ n₁, asking = .act .freshXid n₁ ∧
    ∃ n₂, n₁ x = .act .inspect n₂ ∧ n₂ (serving escalated) = remaining x 2 0 :=
  ⟨_, rfl, _, rfl, rfl⟩

theorem remaining_sends (x stamp : UInt32) (left failures : Nat) (escalated : List UInt32) :
    ∃ n₁, remaining x left failures = .act .inspect n₁ ∧
    ∃ n₂, n₁ (serving escalated) = .act .timestamp n₂ ∧
    ∃ n₃, n₂ stamp = .act .inspect n₃ ∧
    ∃ n₄, n₃ (serving escalated) =
      .act (.send (seekingMessage x stamp (escalated.contains 3))) n₄ ∧
    (x = 0 → escalated = [] → ∃ n₅, n₄ (.ok refusal) = .act (.update seeking.escalation) n₅) := by
  unfold remaining
  rw [Dispatcher.attempts.eq_def]
  unfold Dispatcher.attempt
  simp only [Dispatcher.callOnce_eq (sought_segments x · false)]
  refine ⟨_, rfl, _, rfl, _, rfl, _, rfl, ?_⟩
  rintro rfl rfl
  exact ⟨_, rfl⟩

def enquiry (i : Bool) (x stamp : UInt32) (escalated : List UInt32) : History Bool Portmapper :=
  [⟨i, .inspect, serving escalated⟩, ⟨i, .timestamp, stamp⟩, ⟨i, .inspect, serving escalated⟩,
    ⟨i, .inspect, serving escalated⟩, ⟨i, .freshXid, x⟩]

theorem enquires {programs rest : Bool → Program Portmapper Unit}
    {past : History Bool Portmapper} {i : Bool} {x : UInt32} {escalated : List UInt32}
    (h : Runs programs vacant 0 past rest) (hi : rest i = asking)
    (hs : past.state vacant = serving escalated) (hx : x = 0 + UInt32.ofNat past.drawn)
    (stamp : UInt32) : ∃ rest' next,
      Runs programs vacant 0 (enquiry i x stamp escalated ++ past) rest' ∧
      rest' i = .act (.send (seekingMessage x stamp (escalated.contains 3))) next ∧
      (x = 0 → escalated = [] →
        ∃ n, next (.ok refusal) = .act (.update seeking.escalation) n) ∧
      ∀ j, j ≠ i → rest' j = rest j := by
  obtain ⟨n₁, h₁, n₂, h₂, h₃⟩ := asking_begins x escalated
  obtain ⟨n₃, h₄, n₄, h₅, n₅, h₆, n₆, h₇, hr⟩ := remaining_sends x stamp 2 0 escalated
  obtain ⟨_, r₁, i₁, s₁⟩ := h.take (hi.trans h₁) x hx
  obtain ⟨_, r₂, i₂, s₂⟩ := r₁.take (i₁.trans h₂) (serving escalated) hs.symm
  obtain ⟨_, r₃, i₃, s₃⟩ := r₂.take (i₂.trans (h₃.trans h₄)) (serving escalated) hs.symm
  obtain ⟨_, r₄, i₄, s₄⟩ := r₃.take (i₃.trans h₅) stamp trivial
  obtain ⟨_, r₅, i₅, s₅⟩ := r₄.take (i₄.trans h₆) (serving escalated) hs.symm
  refine ⟨_, n₆, r₅, i₅.trans h₇, hr, fun j hj => ?_⟩
  rw [s₅ j hj, s₄ j hj, s₃ j hj, s₂ j hj, s₁ j hj]

def elsewhere : IpAddress := .v4 10 0 0 1

def storing (i : Bool) (found : Option (List IpAddress)) : Deed Bool Portmapper :=
  ⟨i, .update (·.store "server" (vacant.newcomer "server" found)), ()⟩

/-- Two callers find the server unknown and look for it. Who found an address comes too late. -/
def strangers : History Bool Portmapper :=
  [storing true (some [elsewhere]), storing false none,
    ⟨true, .discover "server" portmapPort, some [elsewhere]⟩,
    ⟨false, .discover "server" portmapPort, none⟩, ⟨true, .inspect, vacant⟩,
    ⟨false, .inspect, vacant⟩]

theorem runs_strangers : ∃ rest, Runs (fun _ => performAll [seeking]) vacant 0 strangers rest ∧
    rest = fun _ => asking := by
  have hr : Runs (fun _ : Bool => performAll [seeking]) vacant 0 [] _ := .start
  obtain ⟨a₁, ha₁, a₂, ha₂, a₃, ha₃, ha⟩ := seeking_begins none
  obtain ⟨b₁, hb₁, b₂, hb₂, b₃, hb₃, hb⟩ := seeking_begins (some [elsewhere])
  obtain ⟨_, r₁, f₁, t₁⟩ := hr.take (i := false) ha₁ vacant rfl
  obtain ⟨_, r₂, t₂, f₂⟩ := r₁.take (i := true) ((t₁ true nofun).trans hb₁) vacant rfl
  obtain ⟨_, r₃, f₃, t₃⟩ := r₂.take ((f₂ false nofun).trans (f₁.trans ha₂)) none trivial
  obtain ⟨_, r₄, t₄, f₄⟩ :=
    r₃.take ((t₃ true nofun).trans (t₂.trans hb₂)) (some [elsewhere]) trivial
  obtain ⟨_, r₅, f₅, t₅⟩ := r₄.take ((f₄ false nofun).trans (f₃.trans ha₃)) () trivial
  obtain ⟨_, r₆, t₆, f₆⟩ := r₅.take ((t₅ true nofun).trans (t₄.trans hb₃)) () trivial
  refine ⟨_, r₆, funext fun i => ?_⟩
  cases i with
  | false => exact (f₆ false nofun).trans (f₅.trans ha)
  | true => exact t₆.trans hb

def refused : History Bool Portmapper :=
  ⟨false, .update seeking.escalation, ()⟩ ::
    ⟨false, .send (seekingMessage 0 7 false), .ok refusal⟩ :: (enquiry false 0 7 [] ++ strangers)

def raced : History Bool Portmapper :=
  ⟨true, .send (seekingMessage 1 8 true), .error lost⟩ :: (enquiry true 1 8 [3] ++ refused)

theorem runs_raced : ∃ rest, Runs (fun _ => performAll [seeking]) vacant 0 raced rest := by
  obtain ⟨_, r, rfl⟩ := runs_strangers
  obtain ⟨_, n₁, r₁, f₁, hn₁, t₁⟩ := enquires (i := false) r rfl rfl (x := 0) rfl 7
  obtain ⟨n₂, hn₂⟩ := hn₁ rfl rfl
  obtain ⟨_, r₂, f₂, t₂⟩ := r₁.take f₁ (.ok refusal) trivial
  obtain ⟨_, r₃, -, t₃⟩ := r₂.take (f₂.trans hn₂) () trivial
  have ht : _ = asking := (t₃ true nofun).trans ((t₂ true nofun).trans (t₁ true nofun))
  obtain ⟨_, n₃, r₄, t₄, -, -⟩ := enquires r₃ ht rfl (x := 1) rfl 8
  obtain ⟨_, r₅, -, -⟩ := r₄.take t₄ (.error lost) trivial
  exact ⟨_, r₅⟩

end Portmapper

/-- Both come to store a dispatcher and use the one stored first. Who begins after the other was
refused sends from a privileged port at once. -/
theorem Runs.lookups_share_raced :
    vacant.names.Nodup ∧ (∃ rest, Runs (fun _ => performAll [seeking]) vacant 0 raced rest) ∧
    (raced.state vacant).names.Nodup ∧
    ∃ op d escalated began,
      Through vacant true [seeking] (enquiry true 1 8 [3] ++ refused) op d
        (seekingMessage 1 8 true) ∧
      Trying vacant true op escalated began (enquiry true 1 8 [3] ++ refused) ∧
      op = seeking ∧ refused <:+ began := by
  have hn : vacant.names.Nodup := List.nodup_nil
  obtain ⟨rest, h⟩ := runs_raced
  obtain ⟨hstored, hsent⟩ := Runs.lookups_share hn h
  obtain ⟨op, d, hd, escalated, began, d₀, htry, -⟩ := hsent true _ _ _ List.suffix_rfl
  refine ⟨hn, ⟨rest, h⟩, (hstored raced List.suffix_rfl).1, op, d, escalated, began, hd, htry,
    ?_, ?_⟩
  · obtain ⟨before, after, hops, -⟩ := hd.turn
    cases before with
    | nil => exact (List.cons.inj hops).1.symm
    | cons _ before => simp at hops
  have hmine : (began.own true).length = 5 := by
    obtain ⟨steps, hown, hsteps⟩ := htry.steps
    have hlength : 8 = steps.length + (began.own true).length :=
      (congrArg List.length hown).trans List.length_append
    cases hsteps with
    | first =>
      simp only [List.length_cons, List.length_nil] at hlength
      omega
    | again =>
      cases hown
  have hbegan : began <:+ enquiry true 1 8 [3] ++ refused :=
    (List.suffix_cons _ _).trans htry.looks
  obtain hs | hs := List.suffix_or_suffix_of_suffix hbegan (List.suffix_append _ refused)
  · have hle : (began.own true).length ≤ (refused.own true).length :=
      (hs.sublist.filter _).length_le
    have hthree : (refused.own true).length = 3 := rfl
    omega
  · exact hs

end Nfs3.Client
