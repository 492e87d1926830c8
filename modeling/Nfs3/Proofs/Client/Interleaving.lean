import Mathlib.Logic.Function.Basic
import Nfs3.Proofs.Client.Trace

/-!
Callers on one state and one lock, a step at a time and in any order. A caller may be given up at
any point, and then lets go of the lock. Programs can leave marks on their steps, so that a run
shows where they are.
-/
namespace Nfs3.Client
variable {ι σ μ α β : Type}

/-- A program some of whose steps leave marks. Marks may tell of the state the step is taken in, and
change nothing. -/
inductive Marked (σ μ α : Type) where
  | done (value : α)
  | act (action : Action σ) (marks : σ → action.Answer → List μ)
    (next : action.Answer → Marked σ μ α)

namespace Marked

def bind : Marked σ μ α → (α → Marked σ μ β) → Marked σ μ β
  | done v, f => f v
  | act a marks next, f => act a marks fun r => (next r).bind f

instance : Monad (Marked σ μ) where
  pure := done
  bind := bind

/-- The program without its marks. -/
def erase : Marked σ μ α → Program σ α
  | done v => .done v
  | act a _ next => .act a fun r => (next r).erase

theorem erase_bind (m : Marked σ μ α) (f : α → Marked σ μ β) :
    (m.bind f).erase = m.erase.bind fun v => (f v).erase := by
  induction m with
  | done v => rfl
  | act a marks next ih => simp only [bind, erase, Program.bind, ih]

theorem bind_done (m : Marked σ μ α) : m.bind done = m := by
  induction m with
  | done v => rfl
  | act a marks next ih => simp only [bind, ih]

theorem bind_assoc {γ : Type} (m : Marked σ μ α) (f : α → Marked σ μ β) (g : β → Marked σ μ γ) :
    (m.bind f).bind g = m.bind fun v => (f v).bind g := by
  induction m with
  | done v => rfl
  | act a marks next ih => simp only [bind, ih]

end Marked

def noMarks {a : Action σ} : σ → a.Answer → List μ := fun _ _ => []

namespace Program

def unmarked : Program σ α → Marked σ μ α
  | done v => .done v
  | act a next => .act a noMarks fun r => (next r).unmarked

def endMarks (last : α → List μ) : Program σ α → List μ
  | done v => last v
  | act _ _ => []

/-- Marks on the first step, and on the step that comes to a value. -/
def bracketed (first : List μ) (last : α → List μ) : Program σ α → Marked σ μ α
  | done v => .done v
  | act a next =>
    .act a (fun _ r => first ++ (next r).endMarks last) fun r => (next r).bracketed [] last

theorem erase_unmarked (p : Program σ α) : (p.unmarked : Marked σ μ α).erase = p := by
  induction p with
  | done v => rfl
  | act a next ih => simp only [unmarked, Marked.erase, ih]

theorem erase_bracketed (first : List μ) (last : α → List μ) (p : Program σ α) :
    (p.bracketed first last).erase = p := by
  induction p generalizing first with
  | done v => rfl
  | act a next ih => simp only [bracketed, Marked.erase, ih]

end Program

/-- What a run shows of a step: an answer from outside, a mark, or that the caller is given up. -/
inductive Happening (μ : Type) where
  | event (e : Event)
  | mark (m : μ)
  | dropped

structure Entry (ι μ : Type) where
  caller : ι
  what : Happening μ

/-- The state and who holds the lock. -/
structure Shared (ι σ : Type) where
  state : σ
  holder : Option ι := none

variable [DecidableEq ι]

def Shared.letGo (i : ι) (c : Shared ι σ) : Shared ι σ :=
  if c.holder = some i then { c with holder := none } else c

theorem Shared.letGo_state (i : ι) (c : Shared ι σ) : (c.letGo i).state = c.state := by
  unfold letGo
  split <;> rfl

/-- What a step of caller `i` does. Anyone may get the lock when it is free; the outside may answer
anything. -/
def Action.Does (i : ι) : (a : Action σ) → a.Answer → Shared ι σ → Shared ι σ → Prop
  | .inspect, r, c, c' => r = c.state ∧ c' = c
  | .update f, _, c, c' => c' = { c with state := f c.state }
  | .acquire, _, c, c' => c.holder = none ∧ c' = { c with holder := some i }
  | .release, _, c, c' => c' = c.letGo i
  | _, _, c, c' => c' = c

/-- What a world answers, callers may come by as well. -/
theorem Action.does_answer {ε : Type} (env : Environment ε) {a : Action σ} (h : a.LockFree) (i : ι)
    {c : Shared ι σ} {w : World σ ε} (hw : w.client = c.state) :
    a.Does i (w.answer env a).1 c ⟨(w.answer env a).2.client, c.holder⟩ := by
  obtain ⟨state, holder⟩ := c
  obtain rfl : w.client = state := hw
  cases a with
  | acquire => exact h.elim
  | release => exact h.elim
  | inspect => exact ⟨rfl, rfl⟩
  | _ => rfl

structure Gathering (ι σ μ α : Type) extends Shared ι σ where
  callers : ι → Option (Marked σ μ α)

namespace Gathering

/-- One step of one caller, and what it shows. -/
inductive Step : Gathering ι σ μ α → List (Entry ι μ) → Gathering ι σ μ α → Prop where
  | act {c : Gathering ι σ μ α} {c' : Shared ι σ} {i : ι} {a : Action σ}
    {marks : σ → a.Answer → List μ} {next : a.Answer → Marked σ μ α} {r : a.Answer} :
    c.callers i = some (.act a marks next) → a.Does i r c.toShared c' →
    Step c ((a.events r).map (fun e => ⟨i, .event e⟩) ++
        (marks c.state r).map fun m => ⟨i, .mark m⟩)
      ⟨c', Function.update c.callers i (some (next r))⟩
  | drop {c : Gathering ι σ μ α} {i : ι} {m : Marked σ μ α} : c.callers i = some m →
    Step c [⟨i, .dropped⟩] ⟨c.toShared.letGo i, Function.update c.callers i none⟩

/-- Any number of steps, and what they show, oldest first. -/
inductive Runs (start : Gathering ι σ μ α) : List (Entry ι μ) → Gathering ι σ μ α → Prop where
  | start : Runs start [] start
  | step {log es : List (Entry ι μ)} {c c' : Gathering ι σ μ α} :
    Runs start log c → Step c es c' → Runs start (log ++ es) c'

end Gathering
end Nfs3.Client
