import Mathlib.Logic.Function.Basic
import Nfs3.Client.Program

/-!
Callers on one state, a step at a time and in any order, whose transaction ids come from one source.
A history is kept newest first: what stands behind a step is the history in which it was taken.
-/
namespace Nfs3.Client
variable {ι σ : Type}

structure Deed (ι σ : Type) where
  caller : ι
  action : Action σ
  answer : action.Answer

abbrev History (ι σ : Type) := List (Deed ι σ)

namespace Action

def apply : Action σ → σ → σ
  | .update f, s => f s
  | _, s => s

def draws : Action σ → Bool
  | .freshXid => true
  | _ => false

def marks : Action σ → Bool
  | .freshXid | .send _ => true
  | _ => false

theorem draws_of_marks {a : Action σ} (h : a.marks = false) : a.draws = false := by
  cases a with
  | freshXid => cases h
  | _ => rfl

end Action

namespace History

def state (start : σ) : History ι σ → σ
  | [] => start
  | d :: past => d.action.apply (state start past)

def drawn (h : History ι σ) : Nat := h.countP (·.action.draws)

end History

/-- What a caller may be answered. A state is shown as it is and ids are given out in turn; the
outside may answer anything, and the lock may be had at any time. -/
def Deed.Fits (start : σ) (first : UInt32) (past : History ι σ) : Deed ι σ → Prop
  | ⟨_, .inspect, s⟩ => s = past.state start
  | ⟨_, .freshXid, x⟩ => x = first + UInt32.ofNat past.drawn
  | _ => True

/-- Any number of steps. Who is given up takes none anymore. -/
inductive Runs [DecidableEq ι] (programs : ι → Program σ Unit) (start : σ) (first : UInt32) :
    History ι σ → (ι → Program σ Unit) → Prop where
  | start : Runs programs start first [] programs
  | step {past : History ι σ} {rest : ι → Program σ Unit} {i : ι} {a : Action σ}
      {next : a.Answer → Program σ Unit} {r : a.Answer} :
    Runs programs start first past rest → rest i = .act a next →
    Deed.Fits start first past ⟨i, a, r⟩ →
    Runs programs start first (⟨i, a, r⟩ :: past) (Function.update rest i (next r))

namespace History
variable {i : ι} {h past log : History ι σ} {d : Deed ι σ}

def lastDraw [DecidableEq ι] (i : ι) : History ι σ → Option (History ι σ)
  | [] => none
  | d :: past => if d.caller = i ∧ d.action.draws then some past else lastDraw i past

theorem drawn_of_suffix (h : d :: past <:+ log) (hd : d.action.draws = true) :
    past.drawn < log.drawn := by
  have hs : drawn (d :: past) ≤ log.drawn := h.sublist.countP_le
  have hc : drawn (d :: past) = past.drawn + 1 := by simp [drawn, hd]
  rwa [hc] at hs

theorem lastDraw_cons [DecidableEq ι] (hd : d.caller = i → d.action.draws = false) :
    lastDraw i (d :: past) = lastDraw i past := by
  refine if_neg fun h => ?_
  rw [hd h.1] at h
  exact Bool.false_ne_true h.2

theorem lastDraw_draw [DecidableEq ι] (i : ι) (x : UInt32) (past : History ι σ) :
    lastDraw i (⟨i, .freshXid, x⟩ :: past) = some past := if_pos ⟨rfl, rfl⟩

theorem lastDraw_eq_some [DecidableEq ι] (h : lastDraw i log = some past) :
    ∃ x, ⟨i, .freshXid, x⟩ :: past <:+ log := by
  induction log with
  | nil => cases h
  | cons d log ih =>
    unfold lastDraw at h
    split at h
    · rename_i hd
      obtain ⟨j, a, r⟩ := d
      obtain ⟨rfl, ha⟩ := hd
      cases h
      cases a with
      | freshXid => exact ⟨r, List.suffix_rfl⟩
      | _ => cases ha
    · obtain ⟨x, hx⟩ := ih h
      exact ⟨x, hx.trans (List.suffix_cons d log)⟩

/-- Later than all attempts and calls that `i` began. -/
structure Recent (i : ι) (past log : History ι σ) : Prop where
  suffix : past <:+ log
  after {d : Deed ι σ} {before : History ι σ} : d :: before <:+ log → d.caller = i →
    d.action.marks = true → d :: before <:+ past

namespace Recent

theorem refl (i : ι) (log : History ι σ) : Recent i log log := ⟨List.suffix_rfl, fun h _ _ => h⟩

theorem cons (h : Recent i past log) (hd : d.caller = i → d.action.marks = false) :
    Recent i past (d :: log) where
  suffix := h.suffix.trans (List.suffix_cons d log)
  after {e before} he hi hm := by
    obtain he | he := List.suffix_cons_iff.1 he
    · cases he
      rw [hd hi] at hm
      cases hm
    · exact h.after he hi hm

end Recent

theorem survives {start : σ} {P : σ → Prop} (h : past <:+ log) (hp : P (past.state start))
    (hs : ∀ (d : Deed ι σ) (before : History ι σ), d :: before <:+ log → past <:+ before →
      P (before.state start) → P (d.action.apply (before.state start))) : P (log.state start) := by
  induction log with
  | nil =>
    obtain rfl := List.suffix_nil.1 h
    exact hp
  | cons d log ih =>
    obtain rfl | h := List.suffix_cons_iff.1 h
    · exact hp
    · refine hs d log List.suffix_rfl h (ih h fun e before he hb => ?_)
      exact hs e before (he.trans (List.suffix_cons d log)) hb

/-- Since `past` nothing was done that `sets` names. -/
def Untouched (sets : (σ → σ) → Prop) (past log : History ι σ) : Prop :=
  ∀ i f before, ⟨i, .update f, ()⟩ :: before <:+ log → past <:+ before → ¬ sets f

theorem Untouched.of_suffix {sets : (σ → σ) → Prop} {past' log' : History ι σ}
    (h : Untouched sets past log) (hp : past <:+ past') (hl : log' <:+ log) :
    Untouched sets past' log' :=
  fun i f before hb ha => h i f before (hb.trans hl) (hp.trans ha)

/-- As many ids as there are words are given out before one is given out again. -/
theorem id_eq_iff {first : UInt32} {e : Deed ι σ} {past' : History ι σ} (h : d :: past <:+ log)
    (h' : e :: past' <:+ log) (hd : d.action.draws = true) (he : e.action.draws = true)
    (hn : log.drawn ≤ UInt32.size) :
    first + UInt32.ofNat past.drawn = first + UInt32.ofNat past'.drawn ↔ past = past' := by
  have hlt := drawn_of_suffix h hd
  have hlt' := drawn_of_suffix h' he
  refine ⟨fun hx => ?_, fun hx => hx ▸ rfl⟩
  have hm := congrArg UInt32.toNat ((UInt32.add_right_inj first).1 hx)
  rw [UInt32.toNat_ofNat_of_lt' (by omega), UInt32.toNat_ofNat_of_lt' (by omega)] at hm
  obtain hs | hs := List.suffix_or_suffix_of_suffix h h'
  · obtain hs | hs := List.suffix_cons_iff.1 hs
    · exact (List.cons.inj hs).2
    · have := drawn_of_suffix hs hd
      omega
  · obtain hs | hs := List.suffix_cons_iff.1 hs
    · exact (List.cons.inj hs).2.symm
    · have := drawn_of_suffix hs he
      omega

theorem head_unique {e : Deed ι σ} (h : d :: past <:+ log) (h' : e :: past <:+ log) : d = e := by
  have hl : (d :: past).length = (e :: past).length := rfl
  obtain hs | hs := List.suffix_or_suffix_of_suffix h h'
  · exact (List.cons.inj (hs.eq_of_length hl)).1
  · exact (List.cons.inj (hs.eq_of_length hl.symm)).1.symm

end History

structure Attempt [DecidableEq ι] (log : History ι σ) where
  caller : ι
  message : Transmission
  answer : Except IoFailure Bytes
  past : History ι σ
  origin : History ι σ
  sent : ⟨caller, .send message, answer⟩ :: past <:+ log
  drawn : past.lastDraw caller = some origin

namespace Attempt
variable [DecidableEq ι] {log h : History ι σ} {a b : Attempt log}

theorem past_suffix (a : Attempt log) : a.past <:+ log := (List.suffix_cons _ _).trans a.sent

theorem draw (a : Attempt log) : ∃ x, ⟨a.caller, .freshXid, x⟩ :: a.origin <:+ a.past :=
  History.lastDraw_eq_some a.drawn

theorem origin_suffix (a : Attempt log) : a.origin <:+ a.past := by
  obtain ⟨x, hx⟩ := a.draw
  exact (List.suffix_cons _ _).trans hx

theorem origin_suffix_of_recent (hr : History.Recent a.caller h a.past) : a.origin <:+ h := by
  obtain ⟨x, hx⟩ := a.draw
  exact (List.suffix_cons _ _).trans (hr.after hx rfl rfl)

theorem caller_eq (h : a.origin = b.origin) : a.caller = b.caller := by
  obtain ⟨x, hx⟩ := a.draw
  obtain ⟨y, hy⟩ := b.draw
  rw [← h] at hy
  have he := History.head_unique (hx.trans a.past_suffix) (hy.trans b.past_suffix)
  exact congrArg Deed.caller he

/-- Of two attempts one is made before what is recent at the other. -/
theorem message_eq_or_sent_before (h : a.past <:+ b.past) :
    a.message = b.message ∨ ⟨a.caller, .send a.message, a.answer⟩ :: a.past <:+ b.past := by
  obtain hs | hs := List.suffix_or_suffix_of_suffix a.sent b.past_suffix
  · exact .inr hs
  obtain hs | hs := List.suffix_cons_iff.1 hs
  · exact .inr (hs ▸ List.suffix_rfl)
  · have he : a.past = b.past := h.eq_of_length (Nat.le_antisymm h.length_le hs.length_le)
    have hd := History.head_unique a.sent (he ▸ b.sent)
    have ha : (Action.send a.message : Action σ) = .send b.message := congrArg Deed.action hd
    exact .inl (Action.send.inj ha)

end Attempt

namespace Runs
variable [DecidableEq ι] {programs rest : ι → Program σ Unit} {start : σ} {first : UInt32}
  {log : History ι σ}

theorem take {i : ι} {a : Action σ} {next : a.Answer → Program σ Unit}
    (h : Runs programs start first log rest) (hi : rest i = .act a next) (r : a.Answer)
    (hf : Deed.Fits start first log ⟨i, a, r⟩) :
    ∃ rest', Runs programs start first (⟨i, a, r⟩ :: log) rest' ∧ rest' i = next r ∧
      ∀ j, j ≠ i → rest' j = rest j :=
  ⟨_, h.step hi hf, Function.update_self .., fun _ hj => Function.update_of_ne hj ..⟩

theorem fits (h : Runs programs start first log rest) {d : Deed ι σ} {past : History ι σ}
    (hd : d :: past <:+ log) : d.Fits start first past := by
  induction h with
  | start => cases List.suffix_nil.1 hd
  | step _ _ hf ih =>
    obtain hd | hd := List.suffix_cons_iff.1 hd
    · cases hd
      exact hf
    · exact ih hd

end Runs
end Nfs3.Client
