import Nfs3.Client.Program

/-! Running a program by itself against an environment that answers its requests. -/
namespace Nfs3.Client

open Rpc Net

/-- The world behind a client: it answers what is sent, and may remember. A pause takes as many
milliseconds as its timer says. -/
structure Environment (ε : Type) where
  send : Transmission → ε → Except IoFailure Bytes × ε
  discover : String → UInt16 → ε → Option (List IpAddress) × ε
  lookup : String → Service → ε → Except ClientError UInt16 × ε
  timestamp : ε → UInt32 × ε
  timer : Duration → Nat

inductive Event where
  | sent (message : Transmission) (answer : Except IoFailure Bytes)
  | discovered (server : String) (port : UInt16) (answer : Option (List IpAddress))
  | lookedUp (server : String) (service : Service) (answer : Except ClientError UInt16)
  | slept (pause : Duration)

/-- The shared state, the outside, the time in milliseconds, the next transaction id, and what has
happened so far, oldest first. -/
structure World (σ ε : Type) where
  client : σ
  outside : ε
  clock : Nat := 0
  nextXid : UInt32 := 0
  log : List Event := []

namespace World

variable {σ ε : Type}

def record (w : World σ ε) (e : Event) : World σ ε := { w with log := w.log ++ [e] }

def answer (env : Environment ε) (w : World σ ε) : (a : Action σ) → a.Answer × World σ ε
  | .send m =>
    let (r, o) := env.send m w.outside
    (r, { w with outside := o }.record (.sent m r))
  | .discover s p =>
    let (r, o) := env.discover s p w.outside
    (r, { w with outside := o }.record (.discovered s p r))
  | .lookup s v =>
    let (r, o) := env.lookup s v w.outside
    (r, { w with outside := o }.record (.lookedUp s v r))
  | .sleep d => ((), { w with clock := w.clock + env.timer d }.record (.slept d))
  | .freshXid => (w.nextXid, { w with nextXid := w.nextXid + 1 })
  | .timestamp =>
    let (r, o) := env.timestamp w.outside
    (r, { w with outside := o })
  | .acquire => ((), w)
  | .release => ((), w)
  | .inspect => (w.client, w)
  | .update f => ((), { w with client := f w.client })

end World

def Program.run {σ ε α : Type} (env : Environment ε) : Program σ α → World σ ε → α × World σ ε
  | .done v, w => (v, w)
  | .act a next, w => (next (w.answer env a).1).run env (w.answer env a).2

end Nfs3.Client
