import Nfs3.Client.World

/-!
Several programs on one state. They take turns in a fixed order; a program keeps its turn until it
sends, sleeps for some time or has to wait for the lock, which is granted in the order of asking. A
message is sent on the turn after the one that asked for it. Time passes only when nobody else can
go on.
-/
namespace Nfs3.Client

variable {σ ε α : Type}

inductive Turn (σ α : Type) where
  | ready (program : Program σ α)
  | sending (message : Transmission) (next : Except IoFailure Bytes → Program σ α)
  | sleeping (wakeAt : Nat) (next : Unit → Program σ α)
  | queued (next : Unit → Program σ α)
  | finished (value : α)

structure Lock where
  holder : Option Nat := none
  waiting : List Nat := []
  deriving DecidableEq

/-- The lock goes straight to who has waited longest. -/
def Lock.release (l : Lock) : Lock := ⟨l.waiting.head?, l.waiting.tail⟩

structure Table (σ ε : Type) where
  world : World σ ε
  lock : Lock := {}

namespace Program

/-- Lets task `i` run until it has to give up its turn. -/
def advance (env : Environment ε) (i : Nat) : Program σ α → Table σ ε → Turn σ α × Table σ ε
  | .done v, t => (.finished v, t)
  | .act (.send m) next, t => (.sending m next, t)
  | .act (.sleep d) next, t =>
    let t := { t with world := t.world.record (.slept d) }
    if env.timer d = 0 then (next ()).advance env i t
    else (.sleeping (t.world.clock + env.timer d) next, t)
  | .act .acquire next, t =>
    match t.lock.holder with
    | none => (next ()).advance env i { t with lock := { t.lock with holder := some i } }
    | some _ => (.queued next, { t with lock := { t.lock with waiting := t.lock.waiting ++ [i] } })
  | .act .release next, t => (next ()).advance env i { t with lock := t.lock.release }
  | .act a next, t =>
    (next (t.world.answer env a).1).advance env i { t with world := (t.world.answer env a).2 }

end Program

namespace Turn

def take (env : Environment ε) (i : Nat) (turn : Turn σ α) (t : Table σ ε) :
    Turn σ α × Table σ ε :=
  match turn with
  | .ready p => p.advance env i t
  | .sending m next =>
    (next (t.world.answer env (.send m)).1).advance env i
      { t with world := (t.world.answer env (.send m)).2 }
  | .sleeping wakeAt next =>
    if wakeAt ≤ t.world.clock then (next ()).advance env i t else (turn, t)
  | .queued next => if t.lock.holder = some i then (next ()).advance env i t else (turn, t)
  | .finished _ => (turn, t)

def isFinished : Turn σ α → Bool
  | .finished _ => true
  | _ => false

/-- Whether the next turn would do anything at this time. -/
def canGo (clock : Nat) (lock : Lock) (i : Nat) : Turn σ α → Bool
  | .ready _ | .sending .. => true
  | .sleeping wakeAt _ => wakeAt ≤ clock
  | .queued _ => lock.holder = some i
  | .finished _ => false

def wakeAt? : Turn σ α → Option Nat
  | .sleeping wakeAt _ => some wakeAt
  | _ => none

end Turn

namespace Schedule

def round (env : Environment ε) :
    Nat → List (Turn σ α) → Table σ ε → List (Turn σ α) × Table σ ε
  | _, [], t => ([], t)
  | i, turn :: turns, t =>
    let (turn, t) := turn.take env i t
    let (turns, t) := round env (i + 1) turns t
    (turn :: turns, t)

def someoneCanGo (turns : List (Turn σ α)) (t : Table σ ε) : Bool :=
  (turns.zipIdx).any fun (turn, i) => turn.canGo t.world.clock t.lock i

/-- Moves the clock to the earliest time at which a sleeper wakes. -/
def waitForSleeper (turns : List (Turn σ α)) (t : Table σ ε) : Table σ ε :=
  match (turns.filterMap Turn.wakeAt?).min? with
  | some wakeAt => { t with world := { t.world with clock := max t.world.clock wakeAt } }
  | none => t

/-- At most `rounds` rounds; fewer when all tasks finish. -/
def run (env : Environment ε) :
    Nat → List (Turn σ α) → Table σ ε → List (Turn σ α) × Table σ ε
  | 0, turns, t => (turns, t)
  | rounds + 1, turns, t =>
    if turns.all Turn.isFinished then (turns, t)
    else
      let t := if someoneCanGo turns t then t else waitForSleeper turns t
      let (turns, t) := round env 0 turns t
      run env rounds turns t

end Schedule

end Nfs3.Client
