import Nfs3.Client.Schedule
import Nfs3.Proofs.Client.SharedRefresh

/-!
Programs that take turns make one of the runs that callers can make in any order. When the lock goes
straight to who waited longest, that caller gets it by a step of its own.
-/
namespace Nfs3.Client
open Session (Operation)
variable {σ μ α ε : Type}

def Turn.program (holder : Option Nat) (i : Nat) : Turn σ α → Program σ α
  | .ready p => p
  | .sending m next => .act (.send m) next
  | .sleeping _ next => next ()
  | .queued next => if holder = some i then next () else .act .acquire next
  | .finished v => .done v

structure Plays (turns : List (Turn σ α)) (t : Table σ ε) (c : Gathering Nat σ μ α) : Prop where
  state : c.state = t.world.client
  holder : c.holder = t.lock.holder
  callers : ∀ i turn, turns[i]? = some turn →
    (c.callers i).map Marked.erase = some (turn.program t.lock.holder i)
  queued : ∀ i ∈ t.lock.waiting, ∃ next, turns[i]? = some (.queued next)
  distinct : (t.lock.holder.toList ++ t.lock.waiting).Nodup

/-- Only the holder releases the lock, and does not ask for it again before. -/
def Gathering.Polite (c : Gathering Nat σ μ α) : Prop :=
  ∀ i (a : Action σ) marks next, c.callers i = some (.act a marks next) →
    (a = .release → c.holder = some i) ∧ (a = .acquire → c.holder ≠ some i)

theorem Marked.of_erase_act {m : Marked σ μ α} {a : Action σ} {next : a.Answer → Program σ α}
    (h : m.erase = .act a next) :
    ∃ marks next', m = .act a marks next' ∧ ∀ r, (next' r).erase = next r := by
  cases m with
  | done v => cases h
  | act a' marks next' =>
    cases h
    exact ⟨marks, next', rfl, fun _ => rfl⟩

theorem Turn.program_congr {holder holder' : Option Nat} {i : Nat}
    (h : holder' = some i ↔ holder = some i) (turn : Turn σ α) :
    turn.program holder' i = turn.program holder i := by
  cases turn with
  | queued next => simp only [program, h]
  | _ => rfl

section
variable {before after turns turns' : List (Turn σ α)} {x y : Turn σ α} {t t' : Table σ ε}
  {start c : Gathering Nat σ μ α} {i k : Nat}

theorem getElem?_middle (before after : List (Turn σ α)) (x : Turn σ α) :
    (before ++ x :: after)[before.length]? = some x := by
  rw [List.getElem?_append_right (Nat.le_refl _), Nat.sub_self, List.getElem?_cons_zero]

theorem getElem?_beside (h : k ≠ before.length) :
    (before ++ x :: after)[k]? = (before ++ y :: after)[k]? := by
  obtain hlt | hgt := Nat.lt_or_gt_of_ne h
  · rw [List.getElem?_append_left hlt, List.getElem?_append_left hlt]
  · have hle := Nat.le_of_lt hgt
    rw [List.getElem?_append_right hle, List.getElem?_append_right hle]
    obtain ⟨n, hn⟩ := Nat.exists_eq_add_of_lt hgt
    rw [show k - before.length = n + 1 by omega, List.getElem?_cons_succ, List.getElem?_cons_succ]

namespace Plays

theorem caller (h : Plays turns t c) {turn : Turn σ α} (hi : turns[i]? = some turn) :
    ∃ m, c.callers i = some m ∧ m.erase = turn.program t.lock.holder i :=
  Option.map_eq_some_iff.1 (h.callers i turn hi)

theorem update {s : Shared Nat σ} {m : Marked σ μ α} (h : Plays turns t c)
    (hs : s.state = t'.world.client) (hh : s.holder = t'.lock.holder)
    (hm : ∀ turn, turns'[i]? = some turn → m.erase = turn.program t'.lock.holder i)
    (hk : ∀ k, k ≠ i → turns'[k]? = turns[k]? ∧
      (t'.lock.holder = some k ↔ t.lock.holder = some k))
    (hq : ∀ k ∈ t'.lock.waiting, ∃ next, turns'[k]? = some (.queued next))
    (hd : (t'.lock.holder.toList ++ t'.lock.waiting).Nodup) :
    Plays turns' t' ⟨s, Function.update c.callers i (some m)⟩ where
  state := hs
  holder := hh
  callers k turn hturn := by
    by_cases hki : k = i
    · subst hki
      change (Function.update c.callers k (some m) k).map Marked.erase = _
      rw [Function.update_self]
      exact congrArg some (hm turn hturn)
    · obtain ⟨ht, hl⟩ := hk k hki
      change (Function.update c.callers i (some m) k).map Marked.erase = _
      rw [Function.update_of_ne hki, turn.program_congr hl]
      exact h.callers k turn (ht ▸ hturn)
  queued := hq
  distinct := hd

theorem exchange (h : Plays (before ++ x :: after) t c) (hw : before.length ∉ t.lock.waiting)
    (hp : y.program t.lock.holder before.length = x.program t.lock.holder before.length) :
    Plays (before ++ y :: after) t c where
  state := h.state
  holder := h.holder
  callers k turn hturn := by
    by_cases hk : k = before.length
    · subst hk
      obtain rfl := Option.some.inj ((getElem?_middle before after y).symm.trans hturn)
      rw [hp]
      exact h.callers _ x (getElem?_middle before after x)
    · exact h.callers k turn ((getElem?_beside hk).trans hturn)
  queued k hk := by
    obtain ⟨next, hn⟩ := h.queued k hk
    exact ⟨next, (getElem?_beside fun he => hw (he ▸ hk)).trans hn⟩
  distinct := h.distinct

theorem not_waiting (h : Plays (before ++ x :: after) t c) (hx : ∀ next, x ≠ .queued next) :
    before.length ∉ t.lock.waiting := by
  intro hw
  obtain ⟨next, hn⟩ := h.queued _ hw
  exact hx next (Option.some.inj ((getElem?_middle before after x).symm.trans hn))

theorem act {a : Action σ} {next : a.Answer → Program σ α} {r : a.Answer} {s : Shared Nat σ}
    (h : Plays (before ++ x :: after) t c) (t' : Table σ ε)
    (hw : before.length ∉ t.lock.waiting)
    (hx : x.program t.lock.holder before.length = .act a next)
    (hdoes : a.Does before.length r c.toShared s) (hs : s.state = t'.world.client)
    (hh : s.holder = t'.lock.holder) (hl : t'.lock.waiting = t.lock.waiting)
    (hk : ∀ k, k ≠ before.length → (t'.lock.holder = some k ↔ t.lock.holder = some k))
    (hd : (t'.lock.holder.toList ++ t'.lock.waiting).Nodup) :
    ∃ es c', Gathering.Step c es c' ∧ Plays (before ++ .ready (next r) :: after) t' c' := by
  obtain ⟨m, hm, he⟩ := h.caller (getElem?_middle before after x)
  obtain ⟨marks, next', rfl, hn⟩ := Marked.of_erase_act (he.trans hx)
  refine ⟨_, _, .act hm hdoes, h.update hs hh ?_ ?_ ?_ hd⟩
  · intro turn hturn
    obtain rfl := Option.some.inj ((getElem?_middle before after _).symm.trans hturn)
    exact hn r
  · exact fun k hne => ⟨getElem?_beside hne, hk k hne⟩
  · intro k hk
    rw [hl] at hk
    obtain ⟨next, hn⟩ := h.queued k hk
    exact ⟨next, (getElem?_beside fun he => hw (he ▸ hk)).trans hn⟩

end Plays

def Reaches (start : Gathering Nat σ μ α) (turns : List (Turn σ α)) (t : Table σ ε) : Prop :=
  ∃ log c, Gathering.Runs start log c ∧ Plays turns t c

namespace Reaches

theorem exchange (h : Reaches start (before ++ x :: after) t) (hq : ∀ next, x ≠ .queued next)
    (hp : y.program t.lock.holder before.length = x.program t.lock.holder before.length) :
    Reaches start (before ++ y :: after) t := by
  obtain ⟨log, c, hr, h⟩ := h
  exact ⟨log, c, hr, h.exchange (h.not_waiting hq) hp⟩

theorem granted {next : Unit → Program σ α} (h : Reaches start (before ++ .queued next :: after) t)
    (hi : t.lock.holder = some before.length) :
    Reaches start (before ++ .ready (next ()) :: after) t := by
  obtain ⟨log, c, hr, h⟩ := h
  have hd := h.distinct
  rw [hi] at hd
  exact ⟨log, c, hr, h.exchange (List.nodup_cons.1 hd).1 (if_pos hi).symm⟩

theorem of_world (h : Reaches start turns t) (hw : t'.world.client = t.world.client)
    (hl : t'.lock = t.lock) : Reaches start turns t' := by
  obtain ⟨log, c, hr, hs, hh, hc, hq, hd⟩ := h
  exact ⟨log, c, hr, hs.trans hw.symm, hl ▸ hh, hl ▸ hc, hl ▸ hq, hl ▸ hd⟩

theorem answer (env : Environment ε) {a : Action σ} {next : a.Answer → Program σ α}
    (h : Reaches start (before ++ x :: after) t)
    (hx : x.program t.lock.holder before.length = .act a next) (hq : ∀ next, x ≠ .queued next)
    (ha : a.LockFree) :
    Reaches start (before ++ .ready (next (t.world.answer env a).1) :: after)
      { t with world := (t.world.answer env a).2 } := by
  obtain ⟨log, c, hr, h⟩ := h
  obtain ⟨es, c', hstep, h'⟩ := h.act { t with world := (t.world.answer env a).2 }
    (h.not_waiting hq) hx (Action.does_answer env ha _ h.state.symm) rfl h.holder rfl
    (fun _ _ => Iff.rfl) h.distinct
  exact ⟨_, c', hr.step hstep, h'⟩

theorem acquire {next : Unit → Program σ α}
    (h : Reaches start (before ++ .ready (.act .acquire next) :: after) t)
    (hnone : t.lock.holder = none) :
    Reaches start (before ++ .ready (next ()) :: after)
      { t with lock := { t.lock with holder := some before.length } } := by
  obtain ⟨log, c, hr, h⟩ := h
  have hw := h.not_waiting nofun
  have hd := h.distinct
  rw [hnone] at hd
  obtain ⟨es, c', hstep, h'⟩ := h.act (r := ())
    { t with lock := { t.lock with holder := some before.length } } hw rfl
    ⟨h.holder.trans hnone, rfl⟩ h.state rfl rfl (fun k hk => by simp [hnone, hk.symm])
    (List.nodup_cons.2 ⟨hw, hd⟩)
  exact ⟨_, c', hr.step hstep, h'⟩

/-- The lock, when free, goes to who has waited longest. -/
theorem handOver (h : Reaches start turns t) (hnone : t.lock.holder = none) :
    Reaches start turns { t with lock := t.lock.release } := by
  obtain ⟨log, c, hr, h⟩ := h
  obtain ⟨world, holder, waiting⟩ := t
  obtain rfl : holder = none := hnone
  cases waiting with
  | nil => exact ⟨log, c, hr, h⟩
  | cons j rest =>
    obtain ⟨next, hj⟩ := h.queued j (List.mem_cons_self ..)
    obtain ⟨m, hm, he⟩ := h.caller hj
    obtain ⟨marks, next', rfl, hn⟩ := Marked.of_erase_act he
    refine ⟨_, _, hr.step (.act (r := ()) hm ⟨h.holder, rfl⟩),
      h.update (i := j) h.state rfl ?_ ?_ ?_ h.distinct⟩
    · intro turn hturn
      obtain rfl := Option.some.inj (hj.symm.trans hturn)
      exact (hn ()).trans (if_pos rfl).symm
    · intro k hk
      simp [Lock.release, hk.symm]
    · exact fun k hk => h.queued k (List.mem_cons_of_mem _ hk)

variable (hpolite : ∀ log c, Gathering.Runs start log c → c.Polite)
include hpolite

theorem queue {next : Unit → Program σ α}
    (h : Reaches start (before ++ .ready (.act .acquire next) :: after) t) :
    Reaches start (before ++ .queued next :: after)
      { t with lock := { t.lock with waiting := t.lock.waiting ++ [before.length] } } := by
  obtain ⟨log, c, hr, h⟩ := h
  have hw := h.not_waiting nofun
  obtain ⟨m, hm, he⟩ := h.caller (getElem?_middle ..)
  obtain ⟨marks, next', rfl, -⟩ := Marked.of_erase_act he
  have hi := (hpolite log c hr _ _ _ _ hm).2 rfl
  rw [h.holder] at hi
  obtain ⟨hs, hh, hc, hq, hd⟩ := h.exchange (y := .queued next) hw (if_neg hi)
  refine ⟨log, c, hr, hs, hh, hc, fun k hk => ?_, ?_⟩
  · obtain hk | hk := List.mem_append.1 hk
    · exact hq k hk
    · cases List.mem_singleton.1 hk
      exact ⟨next, getElem?_middle ..⟩
  · change (t.lock.holder.toList ++ (t.lock.waiting ++ [before.length])).Nodup
    rw [← List.append_assoc, List.nodup_append_comm, List.singleton_append]
    refine List.nodup_cons.2 ⟨fun hmem => ?_, hd⟩
    obtain hmem | hmem := List.mem_append.1 hmem
    · exact hi (Option.mem_toList.1 hmem)
    · exact hw hmem

theorem release {next : Unit → Program σ α}
    (h : Reaches start (before ++ .ready (.act .release next) :: after) t) :
    Reaches start (before ++ .ready (next ()) :: after) { t with lock := t.lock.release } := by
  obtain ⟨log, c, hr, h⟩ := h
  obtain ⟨m, hm, he⟩ := h.caller (getElem?_middle ..)
  obtain ⟨marks, next', rfl, -⟩ := Marked.of_erase_act he
  have hi := (hpolite log c hr _ _ _ _ hm).1 rfl
  have hs : c.toShared.letGo before.length = { c.toShared with holder := none } := if_pos hi
  rw [h.holder] at hi
  have hd := h.distinct
  rw [hi] at hd
  obtain ⟨es, c', hstep, h'⟩ := h.act (r := ())
    { t with lock := { t.lock with holder := none } } (h.not_waiting nofun) rfl rfl
    (hs ▸ h.state) (hs ▸ rfl) rfl (fun k hk => by simp [hi, hk.symm]) (List.nodup_cons.1 hd).2
  have h' : Reaches start (before ++ .ready (next ()) :: after)
      { t with lock := { t.lock with holder := none } } := ⟨_, c', hr.step hstep, h'⟩
  exact h'.handOver rfl

theorem advance (env : Environment ε) (p : Program σ α)
    (h : Reaches start (before ++ .ready p :: after) t) :
    Reaches start (before ++ (p.advance env before.length t).1 :: after)
      (p.advance env before.length t).2 := by
  induction p generalizing t with
  | done v => exact h.exchange nofun rfl
  | act a next ih =>
    cases a with
    | send m => exact h.exchange nofun rfl
    | sleep d =>
      have h' : Reaches start (before ++ .ready (next ()) :: after)
          { t with world := t.world.record (.slept d) } :=
        (h.answer env rfl nofun trivial).of_world rfl rfl
      simp only [Program.advance]
      split
      · exact ih () h'
      · exact h'.exchange nofun rfl
    | acquire =>
      simp only [Program.advance]
      split
      · exact ih () (h.acquire ‹_›)
      · exact h.queue hpolite
    | release => exact ih () (h.release hpolite)
    | _ => exact ih _ (h.answer env rfl nofun (by trivial))

theorem take (env : Environment ε) (h : Reaches start (before ++ x :: after) t) :
    Reaches start (before ++ (x.take env before.length t).1 :: after)
      (x.take env before.length t).2 := by
  cases x with
  | ready p => exact h.advance hpolite env p
  | sending m next =>
    have h' := h.answer env (a := .send m) rfl nofun trivial
    exact h'.advance hpolite env _
  | sleeping wakeAt next =>
    simp only [Turn.take]
    split
    · have h' : Reaches start (before ++ .ready (next ()) :: after) t := h.exchange nofun rfl
      exact h'.advance hpolite env _
    · exact h
  | queued next =>
    simp only [Turn.take]
    split
    · exact (h.granted ‹_›).advance hpolite env _
    · exact h
  | finished v => exact h

theorem round (env : Environment ε) (h : Reaches start (before ++ turns) t) :
    Reaches start (before ++ (Schedule.round env before.length turns t).1)
      (Schedule.round env before.length turns t).2 := by
  induction turns generalizing before t with
  | nil => exact h
  | cons turn turns ih =>
    have h' := h.take hpolite env
    rw [← List.singleton_append, ← List.append_assoc] at h'
    have h' := ih h'
    rw [List.length_append, List.append_assoc] at h'
    exact h'

theorem run (env : Environment ε) (h : Reaches start turns t) (rounds : Nat) :
    Reaches start (Schedule.run env rounds turns t).1 (Schedule.run env rounds turns t).2 := by
  induction rounds generalizing turns t with
  | zero => exact h
  | succ rounds ih =>
    unfold Schedule.run
    split
    · exact h
    · have h' : Reaches start ([] ++ turns)
          (if Schedule.someoneCanGo turns t then t else Schedule.waitForSleeper turns t) := by
        split
        · exact h
        · unfold Schedule.waitForSleeper
          split
          · exact h.of_world rfl rfl
          · exact h
      exact ih (h'.round hpolite env)

end Reaches

theorem Inside.not_acquire {first n : Nat} {p : Position}
    {marks : Session → Action.acquire.Answer → List Milestone}
    {next : Action.acquire.Answer → Marked Session Milestone α} :
    ¬ Inside first n p (.act .acquire marks next) := by
  intro h
  cases p with
  | looking k =>
    obtain ⟨next', -, he⟩ := h
    cases he
  | ready k =>
    obtain ⟨next', -, he⟩ := h
    obtain ⟨change, rest, hh, -⟩ := Session.Performs.handshake_starts
    unfold Watched.handshake at he
    rw [hh] at he
    cases he
  | mounting k =>
    obtain ⟨a, rest, next', -, hs, he⟩ := h
    cases he
    cases hs with
    | step ha _ => exact ha.1
  | leaving k result =>
    obtain ⟨next', -, he⟩ := h
    cases he

theorem Represents.polite {first : Nat} {c : Gathering Nat Session Milestone α} {o : Overview Nat}
    (h : Represents first c o) : c.Polite := by
  intro i a marks next hm
  by_cases hb : ∃ p, o.busy = some (i, p)
  · obtain ⟨p, hb⟩ := hb
    have hi : c.holder = some i := h.holder.trans (congrArg _ hb)
    refine ⟨fun _ => hi, ?_⟩
    rintro rfl
    obtain ⟨m, hm', hp⟩ := h.inside i p hb
    obtain rfl := Option.some.inj (hm'.symm.trans hm)
    exact hp.not_acquire.elim
  · have ho := h.outside i _ hm (not_exists.1 hb)
    have hi : c.holder ≠ some i := by
      intro hi
      obtain ⟨⟨j, p⟩, hj, rfl⟩ := Option.map_eq_some_iff.1 (h.holder.symm.trans hi)
      exact hb ⟨p, hj⟩
    refine ⟨?_, fun _ => hi⟩
    rintro rfl
    cases ho with
    | step ha _ => exact ha.1.elim

theorem plays_gather (w : World Session ε) (ops : List (List Operation)) :
    Plays (ops.map fun o => .ready (Session.performAll o)) { world := w }
      (gather w.client fun i => ops.getD i []) where
  state := rfl
  holder := rfl
  callers i turn hturn := by
    rw [List.getElem?_map] at hturn
    obtain ⟨o, ho, rfl⟩ := Option.map_eq_some_iff.1 hturn
    change some (Watched.performAll (ops.getD i [])).erase = _
    rw [Watched.erase_performAll, List.getD_eq_getElem?_getD, ho]
    rfl
  queued := nofun
  distinct := List.nodup_nil

/-- Tasks that take turns on a session share its refreshes, as callers do in any order. -/
theorem Schedule.run_shares (env : Environment ε) (w : World Session ε)
    (ops : List (List Operation)) (rounds : Nat) :
    let played := run env rounds (ops.map fun o => .ready (Session.performAll o)) { world := w }
    ∃ log c, Gathering.Runs (gather w.client fun i => ops.getD i []) log c ∧
      Plays played.1 played.2 c ∧ Shares w.client.mounting.generation.toNat log c := by
  intro played
  have hstart : Reaches (gather w.client fun i => ops.getD i [])
      (ops.map fun o => .ready (Session.performAll o)) { world := w } :=
    ⟨[], _, .start, plays_gather w ops⟩
  have hpolite : ∀ log c, Gathering.Runs (gather w.client fun i => ops.getD i []) log c →
      c.Polite := by
    intro log c hr
    obtain ⟨o, h, -⟩ := (Represents.start w.client fun i => ops.getD i []).run (.start _) hr
      (P := fun _ _ => True) trivial fun _ _ _ _ _ _ _ => trivial
    exact h.polite
  obtain ⟨log, c, hr, hp⟩ := hstart.run hpolite env rounds
  exact ⟨log, c, hr, hp, hr.shares⟩

end
end Nfs3.Client
