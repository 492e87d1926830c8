import Mathlib.Data.List.Nodup
import Nfs3.Client.Playback
import Nfs3.Proofs.Client.Concurrency

/-!
Callers that come to a session share its refreshes: whichever way their steps fall, there is one
handshake for each generation they want to leave, as long as none fails and nobody is given up.
-/
namespace Nfs3.Client
open Rpc
open Session (Operation)
variable {ι α : Type}

/-- A session that nobody is using yet, and what each caller is going to ask of it. -/
def gather (s : Session) (ops : ι → List Operation) : Gathering ι Session Milestone Unit where
  state := s
  callers i := some (Watched.performAll (ops i))

variable [DecidableEq ι]

omit [DecidableEq ι] in
theorem Represents.start (s : Session) (ops : ι → List Operation) :
    Represents s.mounting.generation.toNat (gather s ops)
      ⟨s.mounting, s.mounting.generation.toNat, none⟩ where
  mounting := rfl
  holder := rfl
  inside := nofun
  outside i m hm _ := by
    obtain rfl := Option.some.inj hm
    exact .performAll (ops i)

theorem Sound.start (s : MountState) :
    Sound s.generation.toNat ([] : Log ι) ⟨s, s.generation.toNat, none⟩ where
  running := rfl
  count := rfl
  generation := UInt64.ofNat_toNat.symm
  root := nofun
  bound := nofun
  result := nofun

omit [DecidableEq ι] in
theorem Unbroken.start (s : MountState) :
    Unbroken s.generation.toNat ([] : Log ι) ⟨s, s.generation.toNat, none⟩ where
  finished := rfl
  started := rfl
  atRest _ := .inr rfl
  fits := nofun
  returned := nofun

section
variable {first : Nat} {log later es : Log ι} {c c' c'' : Gathering ι Session Milestone α}
  {o : Overview ι} {i : ι} {g : UInt64} {k : Nat}

/-- What the protocol preserves holds of every run of callers that follow it. -/
theorem Represents.run {P : Log ι → Overview ι → Prop} (h : Represents first c o)
    (hs : Sound first log o) (hr : Gathering.Runs c later c') (hstart : P [] o)
    (hstep : ∀ later o es o', Sound first (log ++ later) o → P later o → Move first o es o' →
      P (later ++ es) o') :
    ∃ o', Represents first c' o' ∧ Sound first (log ++ later) o' ∧ P later o' := by
  induction hr with
  | start => exact ⟨o, h, (List.append_nil log).symm ▸ hs, hstart⟩
  | step _ hstep' ih =>
    obtain ⟨o₁, h₁, hs₁, hp⟩ := ih
    obtain ⟨o₂, hm, h₂⟩ := h₁.step hs₁ hstep'
    exact ⟨o₂, h₂, List.append_assoc log _ _ ▸ hs₁.move hm, hstep _ _ _ _ hs₁ hp hm⟩

/-- What any number of callers come to, from generation `first` on. A generation is a word, which
counts the handshakes as long as there are fewer than 2^64. -/
structure Shares (first : Nat) (log : Log ι) (c : Gathering ι Session Milestone α) : Prop where
  /-- At most one handshake is in progress. -/
  alone : log.running.length ≤ 1
  /-- The generation grows by one with each handshake that completes, and not otherwise. -/
  generation : c.state.mounting.generation = .ofNat (first + log.finished.length)
  counted : first + log.finished.length < UInt64.size →
    c.state.mounting.generation.toNat = first + log.finished.length
  /-- Whoever asked to leave `g` and gets a root gets the one of a handshake that led beyond `g`. -/
  beyond : ∀ es c', Gathering.Step c es c' →
    ∀ i g root, .ofMark i (.returned g (.ok root)) ∈ es →
      ∃ before g' after, log.finished = before ++ (g', root) :: after ∧
        g.toNat < first + (before.length + 1)
  /-- Who gets the lock of a mounted session that has left `g` does nothing but return its root. -/
  spared : ∀ es c', Gathering.Step c es c' →
    ∀ i g seen, .ofMark i (.admitted g seen) ∈ es → seen.phase = .mounted → seen.generation ≠ g →
      ∀ later c'', Gathering.Runs c' later c'' → ∀ e, later.find? (·.caller = i) = some e →
        e.what = .dropped ∨ ∃ root, seen.root = some root ∧ e.what = .mark (.returned g (.ok root))
  /-- If all went well, there was one handshake for each generation somebody asked to leave. -/
  once : log.Smooth → first + log.finished.length < UInt64.size →
    ∀ i g result, .ofMark i (.returned g result) ∈ log →
      log.started.count g = 1 ∧ (log.finished.map Prod.fst).count g = 1

omit [DecidableEq ι] in
theorem Overview.mounter_length_le (o : Overview ι) : o.mounter.length ≤ 1 := by
  unfold mounter
  split
  · exact Nat.le_refl 1
  · exact Nat.zero_le 1

omit [DecidableEq ι] in
theorem Unbroken.of_inProgress (hu : Unbroken first log o) (hk : k ∈ o.inProgress) :
    k = o.count := by
  obtain ⟨s, n, busy⟩ := o
  unfold Overview.inProgress at hk
  split at hk
  · rename_i hb
    cases hb
    cases List.mem_singleton.1 hk
    exact hu.fits _ _ rfl
  · cases hk

omit [DecidableEq ι] in
theorem count_generations (hk : first ≤ k) {n : Nat} (hn : k < first + n)
    (hsize : first + n < UInt64.size) :
    ((List.range' first n).map UInt64.ofNat).count (.ofNat k) = 1 := by
  refine List.count_eq_one_of_mem (List.Nodup.map_on ?_ List.nodup_range')
    (List.mem_map_of_mem (List.mem_range'_1.2 ⟨hk, hn⟩))
  intro a ha b hb
  exact ofNat_inj_of_lt (Nat.lt_trans (List.mem_range'_1.1 ha).2 hsize)
    (Nat.lt_trans (List.mem_range'_1.1 hb).2 hsize)

theorem Unbroken.once {result : Except ClientError FileHandle} (h : Sound first log o)
    (hu : Unbroken first log o) (hsize : first + log.finished.length < UInt64.size)
    (hret : .ofMark i (.returned g result) ∈ log) :
    log.started.count g = 1 ∧ (log.finished.map Prod.fst).count g = 1 := by
  obtain ⟨k, rfl, hge, hlt⟩ := hu.returned i g result hret
  have hdone := count_generations hge (h.count ▸ hlt) hsize
  have hnow : (o.inProgress.map UInt64.ofNat).count (.ofNat k) = 0 := by
    refine List.count_eq_zero.2 fun hmem => ?_
    obtain ⟨k', hk', he⟩ := List.mem_map.1 hmem
    have hn : o.count < UInt64.size := h.count ▸ hsize
    rw [hu.of_inProgress hk'] at he
    exact Nat.ne_of_gt hlt (ofNat_inj_of_lt hn (Nat.lt_trans hlt hn) he)
  refine ⟨?_, hu.finished ▸ hdone⟩
  rw [hu.started, List.map_append, List.count_append, hdone, hnow]

theorem Sound.beyond {root : FileHandle} (h : Sound first log o)
    (hb : o.busy = some (i, .leaving k (.ok root))) :
    ∃ before g after, log.finished = before ++ (g, root) :: after ∧
      (UInt64.ofNat k).toNat < first + (before.length + 1) := by
  obtain ⟨before, g, after, hl, hle⟩ := h.result i k root hb
  refine ⟨before, g, after, hl, Nat.lt_succ_of_le (Nat.le_trans ?_ hle)⟩
  rw [UInt64.toNat_ofNat']
  exact Nat.mod_le ..

theorem Spared.of_find? {seen : MountState} {e : Entry ι Milestone}
    (hs : Spared i k seen later o) (he : later.find? (·.caller = i) = some e) :
    e.what = .dropped ∨
      ∃ root, seen.root = some root ∧ e.what = .mark (.returned (.ofNat k) (.ok root)) := by
  unfold Spared at hs
  rw [he] at hs
  exact hs

theorem Represents.shares (h : Represents first c o) (hs : Sound first log o)
    (hu : log.Smooth → first + log.finished.length < UInt64.size → Unbroken first log o) :
    Shares first log c := by
  have hg : c.state.mounting.generation = .ofNat (first + log.finished.length) := by
    rw [← h.mounting, hs.generation, hs.count]
  refine ⟨hs.running ▸ o.mounter_length_le, hg, fun hsize => ?_, ?_, ?_,
    fun hsm hsize i g result hret => (hu hsm hsize).once hs hsize hret⟩
  · rw [hg, UInt64.toNat_ofNat_of_lt' hsize]
  · intro es c' hstep i g root hmem
    obtain ⟨o', hm, -⟩ := h.step hs hstep
    obtain ⟨k, rfl, hb⟩ := hm.passed hmem
    exact hs.beyond hb
  · intro es c' hstep i g seen hmem hp hne later c'' hr e he
    obtain ⟨o', hm, h'⟩ := h.step hs hstep
    obtain ⟨n, k, rfl, -, rfl⟩ := hm.passed hmem
    obtain ⟨o'', -, -, hsp⟩ := h'.run (P := fun later o => Spared i k seen later o) (hs.move hm) hr
      (.inl ⟨rfl, rfl⟩) fun later o es' o' hs hsp hm => hsp.move hs hp hne hm
    exact hsp.of_find? he

end

theorem Gathering.Runs.shares {s : Session} {ops : ι → List Operation} {log : Log ι}
    {c : Gathering ι Session Milestone Unit} (hr : Runs (gather s ops) log c) :
    Shares s.mounting.generation.toNat log c := by
  obtain ⟨o, h, hs, hu⟩ := (Represents.start s ops).run (.start _) hr
    (P := fun log o => log.Smooth → o.count < UInt64.size →
      Unbroken s.mounting.generation.toNat log o)
    (fun _ _ => .start _)
    fun log o es o' hs hu hm hsm hsize => by
      have hsm := Log.smooth_append.1 hsm
      have hsize := Nat.lt_of_le_of_lt hm.count_le hsize
      exact (hu hsm.1 hsize).move hs hsize hm hsm.2
  exact h.shares hs fun hsm hsize => hu hsm (hs.count ▸ hsize)

/-- Any number of callers, in any order of their steps, share the refreshes of their session. What
they do is what they ask for, with the milestones marked. -/
theorem gather_shares (s : Session) (ops : ι → List Operation) :
    (∀ i, (Watched.performAll (ops i)).erase = Session.performAll (ops i)) ∧
    ∀ log c, Gathering.Runs (gather s ops) log c → Shares s.mounting.generation.toNat log c :=
  ⟨fun _ => Watched.erase_performAll _, fun _ _ hr => hr.shares⟩

section
variable {σ μ ε : Type} {i : ι}

def Shared.grant (i : ι) (s : Shared ι σ) : Action σ → Option (Option ι)
  | .acquire => if s.holder = none then some (some i) else none
  | .release => some (s.letGo i).holder
  | _ => some s.holder

/-- The next step of caller `i`, answered by a world; nothing if it has none, or has to wait. -/
def Gathering.turn (env : Environment ε) (i : ι) (c : Gathering ι σ μ α) (w : World σ ε) :
    List (Entry ι μ) × Gathering ι σ μ α × World σ ε :=
  match c.callers i with
  | some (.act a marks next) =>
    match c.toShared.grant i a with
    | some holder =>
      let (r, w) := { w with client := c.state }.answer env a
      ((a.events r).map (fun e => ⟨i, .event e⟩) ++ (marks c.state r).map (fun m => ⟨i, .mark m⟩),
        ⟨⟨w.client, holder⟩, Function.update c.callers i (some (next r))⟩, w)
    | none => ([], c, w)
  | _ => ([], c, w)

def Gathering.turns (env : Environment ε) : List ι → Gathering ι σ μ α → World σ ε →
    List (Entry ι μ) × Gathering ι σ μ α
  | [], c, _ => ([], c)
  | i :: is, c, w =>
    let (es, c, w) := c.turn env i w
    let (log, c) := c.turns env is w
    (es ++ log, c)

theorem Shared.does_of_grant {s : Shared ι σ} {a : Action σ} {holder : Option ι}
    (env : Environment ε) (w : World σ ε) (h : s.grant i a = some holder) :
    a.Does i (({ w with client := s.state } : World σ ε).answer env a).1 s
      ⟨(({ w with client := s.state } : World σ ε).answer env a).2.client, holder⟩ := by
  cases a with
  | acquire =>
    obtain ⟨hnone, rfl⟩ := Option.ite_some_none_eq_some.1 h
    exact ⟨hnone, rfl⟩
  | release =>
    obtain rfl := Option.some.inj h
    exact congrArg (fun state => Shared.mk state _) (s.letGo_state i).symm
  | _ =>
    obtain rfl := Option.some.inj h
    exact Action.does_answer env (by trivial) i rfl

theorem Gathering.Runs.turn {start c : Gathering ι σ μ α} {log : List (Entry ι μ)}
    (h : Runs start log c) (env : Environment ε) (i : ι) (w : World σ ε) :
    Runs start (log ++ (c.turn env i w).1) (c.turn env i w).2.1 := by
  unfold Gathering.turn
  split
  · split
    · rename_i hm _ _ hg
      exact h.step (.act hm (Shared.does_of_grant env w hg))
    · rwa [List.append_nil]
  · rwa [List.append_nil]

theorem Gathering.Runs.turns {start c : Gathering ι σ μ α} {log : List (Entry ι μ)}
    (h : Runs start log c) (env : Environment ε) (is : List ι) (w : World σ ε) :
    Runs start (log ++ (c.turns env is w).1) (c.turns env is w).2 := by
  induction is generalizing c log w with
  | nil =>
    rw [Gathering.turns, List.append_nil]
    exact h
  | cons i is ih =>
    have hr := ih (h.turn env i w) (c.turn env i w).2.2
    rw [List.append_assoc] at hr
    exact hr

theorem Gathering.runs_turns (c : Gathering ι σ μ α) (env : Environment ε) (is : List ι)
    (w : World σ ε) : Runs c (c.turns env is w).1 (c.turns env is w).2 :=
  Runs.start.turns env is w

end

def Entry.return? (e : Entry ι Milestone) : Option (ι × UInt64 × Option FileHandle) :=
  match e.what with
  | .mark (.returned g result) => some (e.caller, g, result.toOption)
  | _ => none

/-- A server that lets anyone mount its export. -/
def welcoming : World Session Playback where
  client := .ofConfig { ClientConfig.ofExport "server" "/export" with
    mountPort := some 635, nfsPort := some 2049 } .external
  outside :=
    { rules := [((mountService.program, MountNumber.mount.code),
        .reply 0 [0, 0, 0, 1, 0, 0, 0, 0, 0, 0, 0, 0, 0, 0, 0, 0, 0, 0, 0, 0, 0, 0, 0, 0,
          0, 0, 0, 1, 7, 0, 0, 0, 0, 0, 0, 0]),
        ((mountService.program, MountNumber.unmount.code),
          .reply 0 [0, 0, 0, 1, 0, 0, 0, 0, 0, 0, 0, 0, 0, 0, 0, 0, 0, 0, 0, 0])]
      script := [], names := .literal, ports := [] }

/-- Two callers mount, and one of them mounts anew after that. -/
def twoMounts (i : Fin 2) : List Operation := if i = 0 then [.mount, .remount] else [.mount]

def twoMountsRun : Log (Fin 2) × Gathering (Fin 2) Session Milestone Unit :=
  (gather welcoming.client twoMounts).turns Playback.environment
    (List.replicate 60 [0, 1]).flatten welcoming

theorem gather_shares_twoMounts :
    Gathering.Runs (gather welcoming.client twoMounts) twoMountsRun.1 twoMountsRun.2 ∧
      Shares 0 twoMountsRun.1 twoMountsRun.2 ∧ twoMountsRun.1.Smooth ∧
      twoMountsRun.1.filterMap Entry.return? =
        [(0, 0, some ⟨[7]⟩), (1, 0, some ⟨[7]⟩), (0, 1, some ⟨[7]⟩)] ∧
      twoMountsRun.1.started = [0, 1] := by
  have hr : Gathering.Runs (gather welcoming.client twoMounts) twoMountsRun.1 twoMountsRun.2 :=
    Gathering.runs_turns ..
  refine ⟨hr, (gather_shares welcoming.client twoMounts).2 _ _ hr, ?_, ?_, ?_⟩
  · unfold Log.Smooth
    decide +kernel
  · decide +kernel
  · decide +kernel

end Nfs3.Client
