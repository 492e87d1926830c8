import Nfs3.Proofs.Client.Crowd
import Nfs3.Proofs.Client.Jobs

/-!
Any number of callers at their jobs. What a run has sent can be sorted by the ids drawn in it: each
send is an attempt of the call for which its caller last drew an id.
-/
namespace Nfs3.Client
open Rpc
variable {ι κ : Type} [DecidableEq ι]

/-- The progress of a caller as its history tells it. Calls go by the length of the history in
which their ids were drawn. -/
structure Tracks (start : Clients κ) (calls : Nat → Option (LogicalCall κ)) (i : ι)
    (log : History ι (Clients κ)) (g : Progress κ) : Prop where
  call : g.call = (log.lastDraw i).bind fun origin => calls origin.length
  seen : ∀ s ∈ g.seen, ∃ past, History.Recent i past log ∧ s = past.state start
  made : ∀ f ∈ g.made, ∃ past, History.Recent i (⟨i, .update f, ()⟩ :: past) log

variable {start : Clients κ} {calls calls' : Nat → Option (LogicalCall κ)} {i : ι}
  {log past : History ι (Clients κ)} {g : Progress κ}

namespace Tracks

theorem nil (start : Clients κ) (calls : Nat → Option (LogicalCall κ)) (i : ι) :
    Tracks start calls i [] {} := ⟨rfl, nofun, nofun⟩

theorem cons (h : Tracks start calls i log g) {d : Deed ι (Clients κ)}
    (hd : d.caller = i → d.action.marks = false) : Tracks start calls i (d :: log) g where
  call := by
    rw [History.lastDraw_cons fun hi => Action.draws_of_marks (hd hi)]
    exact h.call
  seen s hs := by
    obtain ⟨past, hp, he⟩ := h.seen s hs
    exact ⟨past, hp.cons hd, he⟩
  made f hf := by
    obtain ⟨past, hp⟩ := h.made f hf
    exact ⟨past, hp.cons hd⟩

theorem congr (h : Tracks start calls i log g) (hc : ∀ n < log.length, calls' n = calls n) :
    Tracks start calls' i log g where
  call := by
    rw [h.call]
    cases ho : log.lastDraw i with
    | none => rfl
    | some origin =>
      obtain ⟨x, hx⟩ := History.lastDraw_eq_some ho
      exact (hc _ hx.length_le).symm
  seen := h.seen
  made := h.made

end Tracks

variable [DecidableEq κ] {owns : ι → LogicalCall κ → Prop}

/-- What is known of a step: an id is drawn for a call, what is sent is an attempt of the call its
caller is at, and changes are as calls make them. -/
def Accounted (owns : ι → LogicalCall κ → Prop) (start : Clients κ)
    (calls : Nat → Option (LogicalCall κ)) (past : History ι (Clients κ)) :
    Deed ι (Clients κ) → Prop
  | ⟨i, .freshXid, x⟩ => ∃ g c, Tracks start calls i past g ∧ calls past.length = some c ∧
      owns i c ∧ c.request.xid = x ∧ c.Admitted g
  | ⟨i, .send m, _⟩ => ∃ g c, Tracks start calls i past g ∧ g.call = some c ∧ c.Attempted g m
  | ⟨_, .update f, _⟩ => Change f
  | _ => True

theorem Accounted.congr {d : Deed ι (Clients κ)} (h : Accounted owns start calls past d)
    (hc : ∀ n ≤ past.length, calls' n = calls n) : Accounted owns start calls' past d := by
  have ht {i : ι} {g : Progress κ} (h : Tracks start calls i past g) :
      Tracks start calls' i past g := h.congr fun n hn => hc n (Nat.le_of_lt hn)
  obtain ⟨i, a, r⟩ := d
  cases a with
  | freshXid =>
    obtain ⟨g, c, hg, hcall, h⟩ := h
    exact ⟨g, c, ht hg, (hc _ (Nat.le_refl _)).trans hcall, h⟩
  | send m =>
    obtain ⟨g, c, hg, h⟩ := h
    exact ⟨g, c, ht hg, h⟩
  | update f => exact h
  | _ => trivial

/-- All steps of a history are accounted for. -/
def Ledger (owns : ι → LogicalCall κ → Prop) (start : Clients κ)
    (calls : Nat → Option (LogicalCall κ)) (log : History ι (Clients κ)) : Prop :=
  ∀ d past, d :: past <:+ log → Accounted owns start calls past d

namespace Ledger

theorem cons (h : Ledger owns start calls log) {d : Deed ι (Clients κ)}
    (hd : Accounted owns start calls log d) : Ledger owns start calls (d :: log) := by
  intro e past he
  obtain he | he := List.suffix_cons_iff.1 he
  · cases he
    exact hd
  · exact h e past he

theorem congr (h : Ledger owns start calls log) (hc : ∀ n < log.length, calls' n = calls n) :
    Ledger owns start calls' log := by
  intro d past hd
  have hl : past.length < log.length := hd.length_le
  exact (h d past hd).congr fun n hn => hc n (Nat.lt_of_le_of_lt hn hl)

variable {post : Unit → Progress κ → Prop} {first : UInt32} {a : Action (Clients κ)}
  {next : a.Answer → Program (Clients κ) Unit} {r : a.Answer}

theorem step (h : Ledger owns start calls log) (ht : Tracks start calls i log g)
    (hp : (Program.act a next).Conducts (owns i) .whole post g)
    (hf : Deed.Fits start first log ⟨i, a, r⟩) : ∃ calls' g',
    (∀ n < log.length, calls' n = calls n) ∧ Ledger owns start calls' (⟨i, a, r⟩ :: log) ∧
      Tracks start calls' i (⟨i, a, r⟩ :: log) g' ∧
      (next r).Conducts (owns i) .whole post g' := by
  have quiet (hm : a.marks = false) : Tracks start calls i (⟨i, a, r⟩ :: log) g :=
    ht.cons fun _ => hm
  cases a with
  | send m =>
    obtain ⟨⟨c, hc, ha⟩, hp⟩ := hp
    have hd : Accounted owns start calls log ⟨i, .send m, r⟩ := ⟨g, c, ht, hc, ha⟩
    refine ⟨calls, { call := g.call }, fun _ _ => rfl, h.cons hd, ⟨?_, nofun, nofun⟩, hp r⟩
    rw [History.lastDraw_cons fun _ => rfl]
    exact ht.call
  | freshXid =>
    obtain ⟨c, hown, hx, ha, hp⟩ := hp r
    let calls' := Function.update calls log.length (some c)
    have hc : ∀ n < log.length, calls' n = calls n := fun n hn =>
      Function.update_of_ne (Nat.ne_of_lt hn) _ _
    have hself : calls' log.length = some c := Function.update_self ..
    have hd : Accounted owns start calls' log ⟨i, .freshXid, r⟩ :=
      ⟨g, c, ht.congr hc, hself, hown, hx, ha⟩
    refine ⟨calls', { call := some c }, hc, cons (h.congr hc) hd, ⟨?_, nofun, nofun⟩, hp⟩
    rw [History.lastDraw_draw]
    exact hself.symm
  | inspect =>
    have hd : Accounted owns start calls log ⟨i, .inspect, r⟩ := trivial
    have hq := quiet rfl
    refine ⟨calls, { g with seen := r :: g.seen }, fun _ _ => rfl, h.cons hd,
      ⟨hq.call, fun s hs => ?_, hq.made⟩, hp r⟩
    obtain rfl | hs := List.mem_cons.1 hs
    · exact ⟨log, (History.Recent.refl i log).cons fun _ => rfl, hf⟩
    · exact hq.seen s hs
  | update f =>
    have hd : Accounted owns start calls log ⟨i, .update f, r⟩ := hp.1
    have hq := quiet rfl
    refine ⟨calls, { g with made := f :: g.made }, fun _ _ => rfl, h.cons hd,
      ⟨hq.call, hq.seen, fun f' hf' => ?_⟩, hp.2⟩
    obtain rfl | hf' := List.mem_cons.1 hf'
    · exact ⟨log, .refl i _⟩
    · exact hq.made f' hf'
  | _ =>
    exact ⟨calls, g, fun _ _ => rfl, h.cons (d := ⟨i, _, r⟩) trivial, quiet rfl, hp r⟩

end Ledger

/-- A run of callers that keep to their calls has a ledger. -/
theorem Runs.ledger {programs rest : ι → Program (Clients κ) Unit} {first : UInt32}
    (hp : ∀ i, (programs i).Conducts (owns i) .whole (fun _ _ => True) {})
    (h : Runs programs start first log rest) : ∃ calls, Ledger owns start calls log ∧
      ∀ i, ∃ g, Tracks start calls i log g ∧
        (rest i).Conducts (owns i) .whole (fun _ _ => True) g := by
  induction h with
  | start =>
    have hl : Ledger owns start (fun _ => none) ([] : History ι (Clients κ)) := fun _ _ hd =>
      nomatch List.suffix_nil.1 hd
    exact ⟨_, hl, fun i => ⟨{}, .nil start _ i, hp i⟩⟩
  | @step past rest i a next r h ha hf ih =>
    obtain ⟨calls, hl, ht⟩ := ih
    obtain ⟨g, hg, hpi⟩ := ht i
    rw [ha] at hpi
    obtain ⟨calls', g', hc, hl', hg', hp'⟩ := hl.step hg hpi hf
    refine ⟨calls', hl', fun j => ?_⟩
    by_cases hj : j = i
    · subst hj
      rw [Function.update_self]
      exact ⟨g', hg', hp'⟩
    · obtain ⟨gj, hgj, hpj⟩ := ht j
      rw [Function.update_of_ne hj]
      exact ⟨gj, (hgj.congr hc).cons fun hi => (hj hi.symm).elim, hpj⟩

end Nfs3.Client
