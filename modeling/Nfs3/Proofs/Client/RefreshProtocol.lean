import Nfs3.Proofs.Client.Watched

/-!
The refreshes of all callers as one protocol: only the holder of the lock is in the middle of a
refresh, and a step takes it from one milestone to the next. A generation is a word; the handshakes
it stands for are counted beside it.
-/
namespace Nfs3.Client
variable {ι : Type}

/-- Where the holder of the lock is in its refresh for the generation it saw, after `count`
handshakes. -/
inductive Position where
  | looking (count : Nat)
  | ready (count : Nat)
  | mounting (count : Nat)
  | leaving (count : Nat) (result : Except ClientError FileHandle)

def Position.count : Position → Nat
  | looking k | ready k | mounting k | leaving k _ => k

/-- What the session knows of its export, how many handshakes were completed, and who is in the
middle of a refresh. -/
structure Overview (ι : Type) where
  mounting : MountState
  count : Nat
  busy : Option (ι × Position)

abbrev Log (ι : Type) := List (Entry ι Milestone)

namespace Entry

def ofEvent (i : ι) (e : Event) : Entry ι Milestone := ⟨i, .event e⟩

def ofMark (i : ι) (m : Milestone) : Entry ι Milestone := ⟨i, .mark m⟩

def start? (e : Entry ι Milestone) : Option UInt64 :=
  match e.what with
  | .mark (.started g) => some g
  | _ => none

def finish? (e : Entry ι Milestone) : Option (UInt64 × FileHandle) :=
  match e.what with
  | .mark (.completed g root) => some (g, root)
  | _ => none

def isTrouble (e : Entry ι Milestone) : Bool :=
  match e.what with
  | .mark (.failed _) | .dropped => true
  | _ => false

def advance [DecidableEq ι] (callers : List ι) (e : Entry ι Milestone) : List ι :=
  if e.start?.isSome then e.caller :: callers
  else if e.finish?.isSome ∨ e.isTrouble then callers.filter (· ≠ e.caller)
  else callers

end Entry

namespace Log
variable [DecidableEq ι]

/-- Whose handshakes are in progress. A handshake ends when it completes, fails, or its caller is
given up. -/
def running (log : Log ι) : List ι := log.foldl Entry.advance []

/-- The handshakes completed, in order: for which generation, and with which root. -/
def finished (log : Log ι) : List (UInt64 × FileHandle) := log.filterMap Entry.finish?

/-- The generations that handshakes were started for. -/
def started (log : Log ι) : List UInt64 := log.filterMap Entry.start?

def Smooth (log : Log ι) : Prop := ∀ e ∈ log, e.isTrouble = false

end Log

/-- The steps of the protocol. A refresh is for a generation seen since the start, when `first`
handshakes were completed. -/
inductive Move [DecidableEq ι] (first : Nat) : Overview ι → Log ι → Overview ι → Prop where
  | outside {o : Overview ι} {i : ι} {es : List Event} :
    (∀ p, o.busy ≠ some (i, p)) → Move first o (es.map (.ofEvent i)) o
  | acquire {s : MountState} {n k : Nat} {i : ι} : first ≤ k → k ≤ n →
    Move first ⟨s, n, none⟩ [.ofMark i (.admitted (.ofNat k) s)] ⟨s, n, some (i, .looking k)⟩
  | find {s : MountState} {n k : Nat} {i : ι} {root : FileHandle} :
    s.mountedRoot = some root → s.generation ≠ .ofNat k →
    Move first ⟨s, n, some (i, .looking k)⟩ [] ⟨s, n, some (i, .leaving k (.ok root))⟩
  | miss {s : MountState} {n k : Nat} {i : ι} : s.mountedRoot = none ∨ s.generation = .ofNat k →
    Move first ⟨s, n, some (i, .looking k)⟩ [] ⟨s, n, some (i, .ready k)⟩
  | start {s : MountState} {n k : Nat} {i : ι} :
    Move first ⟨s, n, some (i, .ready k)⟩ [.ofMark i (.started (.ofNat k))]
      ⟨s, n, some (i, .mounting k)⟩
  | proceed {s s' : MountState} {n k : Nat} {i : ι} {es : List Event} :
    s'.generation = s.generation → s'.root = s.root →
    Move first ⟨s, n, some (i, .mounting k)⟩ (es.map (.ofEvent i)) ⟨s', n, some (i, .mounting k)⟩
  | complete {s : MountState} {n k : Nat} {i : ι} {mounted : Mounted} :
    Move first ⟨s, n, some (i, .mounting k)⟩
      [.ofMark i (.completed (.ofNat k) ⟨mounted.handle⟩)]
      ⟨s.complete mounted, n + 1, some (i, .leaving k (.ok ⟨mounted.handle⟩))⟩
  | fail {s s' : MountState} {n k : Nat} {i : ι} {e : ClientError} {es : List Event} :
    s'.generation = s.generation → s'.root = s.root →
    Move first ⟨s, n, some (i, .mounting k)⟩
      (es.map (.ofEvent i) ++ [.ofMark i (.failed (.ofNat k))])
      ⟨s', n, some (i, .leaving k (.error e))⟩
  | leave {s : MountState} {n k : Nat} {i : ι} {result : Except ClientError FileHandle} :
    Move first ⟨s, n, some (i, .leaving k result)⟩ [.ofMark i (.returned (.ofNat k) result)]
      ⟨s, n, none⟩
  | drop {s : MountState} {n : Nat} {busy : Option (ι × Position)} {i : ι} :
    Move first ⟨s, n, busy⟩ [⟨i, .dropped⟩]
      ⟨s, n, if busy.map Prod.fst = some i then none else busy⟩

section
variable {log es : Log ι} {i : ι}

namespace Log

theorem finished_append : finished (log ++ es) = finished log ++ finished es :=
  List.filterMap_append

theorem started_append : started (log ++ es) = started log ++ started es := List.filterMap_append

theorem filterMap_events {β : Type} {f : Entry ι Milestone → Option β}
    (h : ∀ e, f (.ofEvent i e) = none) (events : List Event) :
    (events.map (.ofEvent i)).filterMap f = [] := by
  rw [List.filterMap_map]
  exact List.filterMap_eq_nil_iff.2 fun e _ => h e

theorem finished_events (events : List Event) : finished (events.map (.ofEvent i)) = [] :=
  filterMap_events (fun _ => rfl) events

theorem started_events (events : List Event) : started (events.map (.ofEvent i)) = [] :=
  filterMap_events (fun _ => rfl) events

theorem smooth_append : Smooth (log ++ es) ↔ Smooth log ∧ Smooth es := List.forall_mem_append

end Log
end

variable [DecidableEq ι] {first : Nat} {log es : Log ι} {o o' : Overview ι} {i : ι}

theorem Log.running_events (events : List Event) :
    (log ++ events.map (Entry.ofEvent i)).running = log.running := by
  unfold running
  rw [List.foldl_append, List.foldl_map]
  induction events with
  | nil => rfl
  | cons e events ih => exact ih

theorem Log.running_concat (e : Entry ι Milestone) : (log ++ [e]).running = e.advance log.running :=
  List.foldl_concat ..

/-- A step leaves the generation and the root alone, or completes a handshake. -/
theorem Move.mounting_cases (hm : Move first o es o') :
    (Log.finished es = [] ∧ o'.count = o.count ∧
      o'.mounting.generation = o.mounting.generation ∧ o'.mounting.root = o.mounting.root) ∨
    ∃ i k mounted, o.busy = some (i, .mounting k) ∧
      es = [.ofMark i (.completed (.ofNat k) ⟨mounted.handle⟩)] ∧
      o' = ⟨o.mounting.complete mounted, o.count + 1,
        some (i, .leaving k (.ok ⟨mounted.handle⟩))⟩ := by
  cases hm with
  | outside _ => exact .inl ⟨Log.finished_events _, rfl, rfl, rfl⟩
  | proceed hg hr => exact .inl ⟨Log.finished_events _, rfl, hg, hr⟩
  | fail hg hr =>
    refine .inl ⟨?_, rfl, hg, hr⟩
    rw [Log.finished_append, Log.finished_events]
    rfl
  | complete => exact .inr ⟨_, _, _, rfl, rfl, rfl⟩
  | _ => exact .inl ⟨rfl, rfl, rfl, rfl⟩

theorem Move.count_le (hm : Move first o es o') : o.count ≤ o'.count := by
  obtain ⟨-, hn, -, -⟩ | ⟨_, _, _, -, -, rfl⟩ := hm.mounting_cases
  · exact Nat.le_of_eq hn.symm
  · exact Nat.le_succ _

theorem Move.busy_cases {p' : Position} (hm : Move first o es o') (hb : o'.busy = some (i, p')) :
    (∃ p, o.busy = some (i, p) ∧ p'.count = p.count) ∨
      (first ≤ p'.count ∧ p'.count ≤ o.count) := by
  cases hm with
  | outside _ => exact .inl ⟨_, hb, rfl⟩
  | acquire hge hle =>
    cases hb
    exact .inr ⟨hge, hle⟩
  | leave => cases hb
  | drop =>
    simp only at hb
    split at hb
    · cases hb
    · exact .inl ⟨_, hb, rfl⟩
  | _ =>
    cases hb
    exact .inl ⟨_, rfl, rfl⟩

/-- A root about to be returned was so before, was just found, or was just supplied. -/
theorem Move.leaving_cases {k : Nat} {root : FileHandle} (hm : Move first o es o')
    (hb : o'.busy = some (i, .leaving k (.ok root))) :
    o.busy = some (i, .leaving k (.ok root)) ∨
      (o.busy = some (i, .looking k) ∧ o.mounting.mountedRoot = some root ∧
        o.mounting.generation ≠ .ofNat k) ∨
      (o.busy = some (i, .mounting k) ∧ es = [.ofMark i (.completed (.ofNat k) root)]) := by
  cases hm with
  | outside _ => exact .inl hb
  | find hroot hne =>
    cases hb
    exact .inr (.inl ⟨rfl, hroot, hne⟩)
  | complete =>
    cases hb
    exact .inr (.inr ⟨rfl, rfl⟩)
  | drop =>
    simp only at hb
    split at hb
    · cases hb
    · exact .inl hb
  | _ => cases hb

def Milestone.Passed (i : ι) (o o' : Overview ι) : Milestone → Prop
  | admitted g seen => ∃ n k, g = .ofNat k ∧ o = ⟨seen, n, none⟩ ∧
    o' = ⟨seen, n, some (i, .looking k)⟩
  | returned g result => ∃ k, g = .ofNat k ∧ o.busy = some (i, .leaving k result)
  | _ => True

theorem Move.passed {m : Milestone} (hm : Move first o es o') (h : .ofMark i m ∈ es) :
    m.Passed i o o' := by
  have event {events : List Event} {j : ι} : Entry.ofMark i m ∉ events.map (Entry.ofEvent j) := by
    intro h
    obtain ⟨_, _, h⟩ := List.mem_map.1 h
    cases h
  cases hm with
  | outside _ => exact (event h).elim
  | proceed _ _ => exact (event h).elim
  | fail _ _ =>
    obtain h | h := List.mem_append.1 h
    · exact (event h).elim
    · cases List.mem_singleton.1 h
      trivial
  | find _ _ => cases h
  | miss _ => cases h
  | acquire _ _ =>
    cases List.mem_singleton.1 h
    exact ⟨_, _, rfl, rfl, rfl⟩
  | leave =>
    cases List.mem_singleton.1 h
    exact ⟨_, rfl, rfl⟩
  | drop => cases List.mem_singleton.1 h
  | _ =>
    cases List.mem_singleton.1 h
    trivial

def Overview.mounter : Overview ι → List ι
  | ⟨_, _, some (i, .mounting _)⟩ => [i]
  | _ => []

theorem Move.running (hm : Move first o es o') (hr : log.running = o.mounter) :
    (log ++ es).running = o'.mounter := by
  cases hm with
  | outside _ => rw [Log.running_events, hr]
  | find _ _ => rw [List.append_nil, hr]; rfl
  | miss _ => rw [List.append_nil, hr]; rfl
  | proceed _ _ => rw [Log.running_events, hr]; rfl
  | complete =>
    rw [Log.running_concat, hr]
    simp [Entry.advance, Entry.ofMark, Entry.start?, Entry.finish?, Overview.mounter]
  | fail _ _ =>
    rw [← List.append_assoc, Log.running_concat, Log.running_events, hr]
    simp [Entry.advance, Entry.ofMark, Entry.start?, Entry.finish?, Entry.isTrouble,
      Overview.mounter]
  | @drop s n busy i =>
    rw [Log.running_concat, hr]
    cases busy with
    | none => simp [Entry.advance, Entry.start?, Overview.mounter]
    | some holder =>
      obtain ⟨j, p⟩ := holder
      by_cases hj : j = i <;> cases p <;>
        simp [Entry.advance, Entry.start?, Entry.isTrouble, Overview.mounter, hj]
  | acquire _ _ => rw [Log.running_concat, hr]; rfl
  | start => rw [Log.running_concat, hr]; rfl
  | leave => rw [Log.running_concat, hr]; rfl

/-- What holds of every run so far. -/
structure Sound (first : Nat) (log : Log ι) (o : Overview ι) : Prop where
  running : log.running = o.mounter
  count : o.count = first + log.finished.length
  generation : o.mounting.generation = .ofNat o.count
  root : ∀ g root, log.finished.getLast? = some (g, root) → o.mounting.root = some root
  bound : ∀ i p, o.busy = some (i, p) → first ≤ p.count ∧ p.count ≤ o.count
  result : ∀ i k root, o.busy = some (i, .leaving k (.ok root)) →
    ∃ before g after, log.finished = before ++ (g, root) :: after ∧ k ≤ first + before.length

theorem Sound.lt_of_ne {k : Nat} (h : Sound first log o) (hle : k ≤ o.count)
    (hne : o.mounting.generation ≠ .ofNat k) : k < o.count := by
  refine Nat.lt_of_le_of_ne hle ?_
  rintro rfl
  exact hne h.generation

theorem Sound.last (h : Sound first log o) (hc : first < o.count) :
    ∃ before g root, log.finished = before ++ [(g, root)] ∧ o.mounting.root = some root := by
  have hlen := h.count
  obtain hnil | ⟨before, ⟨g, root⟩, hl⟩ := List.eq_nil_or_concat log.finished
  · rw [hnil, List.length_nil] at hlen
    omega
  · rw [List.concat_eq_append] at hl
    exact ⟨before, g, root, hl, h.root g root (by rw [hl, List.getLast?_concat])⟩

theorem Sound.mountedRoot (h : Sound first log o) (hp : o.mounting.phase = .mounted)
    (hc : first < o.count) : ∃ root, o.mounting.mountedRoot = some root := by
  obtain ⟨_, _, root, -, hr⟩ := h.last hc
  refine ⟨root, ?_⟩
  unfold MountState.mountedRoot
  rw [hp, hr]

theorem Sound.move (h : Sound first log o) (hm : Move first o es o') :
    Sound first (log ++ es) o' where
  running := hm.running h.running
  count := by
    rw [Log.finished_append, List.length_append, ← Nat.add_assoc, ← h.count]
    obtain ⟨he, hn, -, -⟩ | ⟨i, k, mounted, -, rfl, rfl⟩ := hm.mounting_cases
    · rw [he, hn, List.length_nil, Nat.add_zero]
    · rfl
  generation := by
    obtain ⟨-, hn, hg, -⟩ | ⟨i, k, mounted, -, -, rfl⟩ := hm.mounting_cases
    · rw [hn, hg, h.generation]
    · rw [UInt64.ofNat_add, ← h.generation]
      rfl
  root := by
    intro g root hlast
    rw [Log.finished_append] at hlast
    obtain ⟨he, -, -, hr⟩ | ⟨i, k, mounted, -, rfl, rfl⟩ := hm.mounting_cases
    · rw [he, List.append_nil] at hlast
      exact hr.trans (h.root g root hlast)
    · obtain ⟨-, rfl⟩ := Prod.mk.inj (Option.some.inj (List.getLast?_concat.symm.trans hlast))
      rfl
  bound i p hb := by
    obtain ⟨p', hb', hp⟩ | ⟨hge, hle⟩ := hm.busy_cases hb
    · obtain ⟨hge, hle⟩ := h.bound i p' hb'
      rw [hp]
      exact ⟨hge, Nat.le_trans hle hm.count_le⟩
    · exact ⟨hge, Nat.le_trans hle hm.count_le⟩
  result i k root hb := by
    rw [Log.finished_append]
    obtain hb' | ⟨hb', hroot, hne⟩ | ⟨hb', rfl⟩ := hm.leaving_cases hb
    · obtain ⟨before, g, after, hl, hk⟩ := h.result i k root hb'
      exact ⟨before, g, after ++ es.finished, by rw [hl, List.append_assoc, List.cons_append], hk⟩
    · obtain ⟨hge, hle⟩ : first ≤ k ∧ k ≤ o.count := h.bound i _ hb'
      have hlt := h.lt_of_ne hle hne
      obtain ⟨before, g, root', hl, hr⟩ := h.last (Nat.lt_of_le_of_lt hge hlt)
      obtain rfl : root' = root :=
        Option.some.inj (hr.symm.trans (Session.root_of_mountedRoot hroot))
      refine ⟨before, g, es.finished, by rw [hl, List.append_assoc]; rfl, ?_⟩
      rw [h.count, hl, List.length_append, List.length_singleton] at hlt
      exact Nat.le_of_lt_succ hlt
    · refine ⟨log.finished, .ofNat k, [], rfl, ?_⟩
      rw [← h.count]
      exact (h.bound i _ hb').2

/-- What the record since says of caller `i`, which was admitted when the session was as in `seen`,
for the generation after `k` handshakes: nothing yet, and it is about to return the root seen; or
that it returned it, or was given up before. -/
def Spared (i : ι) (k : Nat) (seen : MountState) (later : Log ι) (o : Overview ι) : Prop :=
  match later.find? (·.caller = i) with
  | none => (o.busy = some (i, .looking k) ∧ o.mounting = seen) ∨
    ∃ root, seen.root = some root ∧ o.busy = some (i, .leaving k (.ok root))
  | some e => e.what = .dropped ∨
    ∃ root, seen.root = some root ∧ e.what = .mark (.returned (.ofNat k) (.ok root))

theorem find?_events {j : ι} (hj : j ≠ i) (events : List Event) :
    (events.map (Entry.ofEvent j)).find? (·.caller = i) = none := by
  simp [Entry.ofEvent, hj]

/-- Whoever is admitted to a mounted session of another generation does nothing but return its
root. -/
theorem Spared.move {k : Nat} {seen : MountState} {later : Log ι} (h : Sound first log o)
    (hp : seen.phase = .mounted) (hne : seen.generation ≠ .ofNat k) (hs : Spared i k seen later o)
    (hm : Move first o es o') : Spared i k seen (later ++ es) o' := by
  unfold Spared at hs ⊢
  rw [List.find?_append]
  cases hf : later.find? (·.caller = i) with
  | some e =>
    rw [hf] at hs
    exact hs
  | none =>
    rw [hf] at hs
    rw [Option.none_or]
    cases hm with
    | @outside _ j events ho =>
      have hj : j ≠ i := by
        rintro rfl
        obtain ⟨hb, -⟩ | ⟨_, -, hb⟩ := hs <;> exact ho _ hb
      rw [find?_events hj]
      exact hs
    | @find s n k' j root hroot _ =>
      obtain ⟨hb, rfl⟩ | ⟨_, -, hb⟩ := hs <;> cases hb
      exact .inr ⟨root, Session.root_of_mountedRoot hroot, rfl⟩
    | @miss s n k' j hor =>
      obtain ⟨hb, rfl⟩ | ⟨_, -, hb⟩ := hs <;> cases hb
      obtain ⟨hge, hle⟩ := h.bound i _ rfl
      obtain ⟨root, hroot⟩ := h.mountedRoot hp (Nat.lt_of_le_of_lt hge (h.lt_of_ne hle hne))
      obtain hn | he := hor
      · rw [hroot] at hn
        cases hn
      · exact (hne he).elim
    | leave =>
      obtain ⟨hb, -⟩ | ⟨root, hroot, hb⟩ := hs <;> cases hb
      simpa [Entry.ofMark] using hroot
    | @drop s n busy j =>
      by_cases hj : j = i
      · simp [hj]
      · have hb : (if busy.map Prod.fst = some j then none else busy) = busy := by
          refine if_neg fun hb => ?_
          obtain ⟨h', -⟩ | ⟨_, -, h'⟩ := hs <;> cases h' <;> exact hj (Option.some.inj hb).symm
        simpa [hj, hb] using hs
    | _ => obtain ⟨hb, -⟩ | ⟨_, -, hb⟩ := hs <;> cases hb

/-- Where a refresh can be when `n` handshakes were completed, if nothing ever fails. -/
def Position.Fits (n : Nat) : Position → Prop
  | looking _ => True
  | ready k | mounting k => k = n
  | leaving k _ => k < n

/-- How many handshakes were completed when the one in progress was started. -/
def Overview.inProgress : Overview ι → List Nat
  | ⟨_, _, some (_, .mounting k)⟩ => [k]
  | _ => []

/-- Each generation from the first one on was left by one handshake, started for it, and handshakes
are in progress for those that `ks` stands for. -/
structure LeftOnce (first : Nat) (log : Log ι) (ks : List Nat) : Prop where
  finished : log.finished.map Prod.fst = (List.range' first log.finished.length).map .ofNat
  started : log.started = (List.range' first log.finished.length ++ ks).map .ofNat

namespace LeftOnce
variable {ks : List Nat} {k : Nat}

omit [DecidableEq ι] in
theorem append (h : LeftOnce first log ks) (hf : es.finished = []) (hs : es.started = []) :
    LeftOnce first (log ++ es) ks := by
  have hfinished : (log ++ es).finished = log.finished := by
    rw [Log.finished_append, hf, List.append_nil]
  have hstarted : (log ++ es).started = log.started := by
    rw [Log.started_append, hs, List.append_nil]
  constructor
  · rw [hfinished, h.finished]
  · rw [hfinished, hstarted, h.started]

omit [DecidableEq ι] in
theorem start (h : LeftOnce first log []) :
    LeftOnce first (log ++ [.ofMark i (.started (.ofNat k))]) [k] := by
  have hfinished : (log ++ [Entry.ofMark i (.started (.ofNat k))]).finished = log.finished := by
    rw [Log.finished_append]
    exact List.append_nil _
  constructor
  · rw [hfinished, h.finished]
  · rw [hfinished, Log.started_append, h.started, List.append_nil, List.map_append]
    rfl

omit [DecidableEq ι] in
theorem complete {root : FileHandle} (h : LeftOnce first log [k])
    (hk : k = first + log.finished.length) :
    LeftOnce first (log ++ [.ofMark i (.completed (.ofNat k) root)]) [] := by
  have hfinished : (log ++ [Entry.ofMark i (.completed (.ofNat k) root)]).finished =
      log.finished ++ [(.ofNat k, root)] := Log.finished_append
  have hrange : List.range' first (log.finished.length + 1) =
      List.range' first log.finished.length ++ [k] := by
    rw [List.range'_concat, Nat.one_mul, ← hk]
  constructor
  · rw [hfinished, List.map_append, List.length_append, h.finished, List.length_singleton, hrange,
      List.map_append]
    rfl
  · rw [hfinished, Log.started_append, List.length_append, List.length_singleton, hrange, h.started,
      List.append_nil]
    exact List.append_nil _

end LeftOnce

/-- What holds of every run so far in which nothing failed and nobody was given up. -/
structure Unbroken (first : Nat) (log : Log ι) (o : Overview ι) : Prop extends
    LeftOnce first log o.inProgress where
  atRest : o.inProgress = [] → o.mounting.phase = .mounted ∨ o.count = first
  fits : ∀ i p, o.busy = some (i, p) → p.Fits o.count
  returned : ∀ i g r, .ofMark i (.returned g r) ∈ log → ∃ k, g = .ofNat k ∧ first ≤ k ∧ k < o.count

theorem Unbroken.returned_move (h : Sound first log o) (hu : Unbroken first log o)
    (hm : Move first o es o') {g : UInt64} {r : Except ClientError FileHandle}
    (hmem : .ofMark i (.returned g r) ∈ log ++ es) :
    ∃ k, g = .ofNat k ∧ first ≤ k ∧ k < o'.count := by
  suffices h : ∃ k, g = .ofNat k ∧ first ≤ k ∧ k < o.count by
    obtain ⟨k, hk, hge, hlt⟩ := h
    exact ⟨k, hk, hge, Nat.lt_of_lt_of_le hlt hm.count_le⟩
  obtain hmem | hmem := List.mem_append.1 hmem
  · exact hu.returned i g r hmem
  · obtain ⟨k, hk, hb⟩ := hm.passed hmem
    exact ⟨k, hk, (h.bound _ _ hb).1, hu.fits _ _ hb⟩

theorem ofNat_inj_of_lt {m n : Nat} (hm : m < UInt64.size) (hn : n < UInt64.size)
    (h : UInt64.ofNat m = .ofNat n) : m = n := by
  rw [← UInt64.toNat_ofNat_of_lt' hm, h, UInt64.toNat_ofNat_of_lt' hn]

/-- Who finds no root to return, while nothing has failed, is the first to leave its generation. -/
theorem Unbroken.count_of_miss {s : MountState} {n k : Nat}
    (h : Sound first log ⟨s, n, some (i, .looking k)⟩)
    (hu : Unbroken first log ⟨s, n, some (i, .looking k)⟩) (hsize : n < UInt64.size)
    (hor : s.mountedRoot = none ∨ s.generation = .ofNat k) : k = n := by
  obtain ⟨hge, hle⟩ : first ≤ k ∧ k ≤ n := h.bound i _ rfl
  obtain hn | he := hor
  · obtain hphase | hfirst := hu.atRest rfl
    · by_contra hne
      obtain ⟨root, hroot⟩ := h.mountedRoot hphase
        (Nat.lt_of_le_of_lt hge (Nat.lt_of_le_of_ne hle hne))
      rw [hroot] at hn
      cases hn
    · exact Nat.le_antisymm hle (Nat.le_trans (Nat.le_of_eq hfirst) hge)
  · exact ofNat_inj_of_lt (Nat.lt_of_le_of_lt hle hsize) hsize (he.symm.trans h.generation)

theorem Unbroken.move (h : Sound first log o) (hu : Unbroken first log o)
    (hsize : o.count < UInt64.size) (hm : Move first o es o') (hs : Log.Smooth es) :
    Unbroken first (log ++ es) o' := by
  have hret : ∀ i g r, .ofMark i (.returned g r) ∈ log ++ es →
      ∃ k, g = .ofNat k ∧ first ≤ k ∧ k < o'.count := fun _ _ _ => hu.returned_move h hm
  have ⟨hrec, hr, hp, _⟩ := hu
  cases hm with
  | outside _ =>
    exact ⟨hrec.append (Log.finished_events _) (Log.started_events _), hr, hp, hret⟩
  | acquire _ _ =>
    refine ⟨hrec.append rfl rfl, fun _ => hr rfl, fun _ _ hb => ?_, hret⟩
    cases hb
    trivial
  | find _ hne =>
    refine ⟨hrec.append rfl rfl, fun _ => hr rfl, fun _ _ hb => ?_, hret⟩
    cases hb
    exact h.lt_of_ne (h.bound _ _ rfl).2 hne
  | miss hor =>
    refine ⟨hrec.append rfl rfl, fun _ => hr rfl, fun _ _ hb => ?_, hret⟩
    cases hb
    exact hu.count_of_miss h hsize hor
  | @start s n k i =>
    have hk : k = n := hp i _ rfl
    refine ⟨hrec.start, nofun, fun _ _ hb => ?_, hret⟩
    cases hb
    exact hk
  | @proceed s s' n k i events _ _ =>
    have hk : k = n := hp i _ rfl
    refine ⟨hrec.append (Log.finished_events _) (Log.started_events _), nofun, fun _ _ hb => ?_,
      hret⟩
    cases hb
    exact hk
  | @complete s n k i mounted =>
    have hk : k = n := hp i _ rfl
    refine ⟨hrec.complete (hk.trans h.count), fun _ => .inl rfl, fun _ _ hb => ?_, hret⟩
    cases hb
    exact Nat.lt_succ_of_le (Nat.le_of_eq hk)
  | fail _ _ => cases hs _ (List.mem_append_right _ (List.mem_singleton_self _))
  | leave => exact ⟨hrec.append rfl rfl, fun _ => hr rfl, nofun, hret⟩
  | drop => cases hs _ (List.mem_singleton_self _)

end Nfs3.Client
