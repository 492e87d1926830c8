import Nfs3.ClientError
import Nfs3.Duration
import Nfs3.Net.IpAddress
import Nfs3.Rpc.Program

/-!
A program is a finite tree of the requests it makes of the outside world and of the state it shares
with other programs. Whoever answers the requests decides how the program goes on.
-/
namespace Nfs3.Client

open Rpc Net

structure Transmission where
  host : String
  port : UInt16
  privileged : Bool
  segments : List Bytes
  timeout : Duration
  deriving DecidableEq

inductive Action (σ : Type) where
  | send (message : Transmission)
  | discover (server : String) (port : UInt16)
  | lookup (server : String) (service : Service)
  | sleep (pause : Duration)
  | freshXid
  | timestamp
  | acquire
  | release
  | inspect
  | update (change : σ → σ)

abbrev Action.Answer {σ : Type} : Action σ → Type
  | .send _ => Except IoFailure Bytes
  | .discover .. => Option (List IpAddress)
  | .lookup .. => Except ClientError UInt16
  | .sleep _ => Unit
  | .freshXid => UInt32
  | .timestamp => UInt32
  | .acquire => Unit
  | .release => Unit
  | .inspect => σ
  | .update _ => Unit

inductive Program (σ α : Type) where
  | done (value : α)
  | act (action : Action σ) (next : action.Answer → Program σ α)

namespace Program

variable {σ τ α β : Type}

def bind : Program σ α → (α → Program σ β) → Program σ β
  | done v, f => f v
  | act a next, f => act a fun r => (next r).bind f

instance : Monad (Program σ) where
  pure := done
  bind := bind

def ask (a : Action σ) : Program σ a.Answer := act a done

def send (message : Transmission) : Program σ (Except IoFailure Bytes) := ask (.send message)

def discover (server : String) (port : UInt16) : Program σ (Option (List IpAddress)) :=
  ask (.discover server port)

def lookup (server : String) (service : Service) : Program σ (Except ClientError UInt16) :=
  ask (.lookup server service)

def sleep (pause : Duration) : Program σ Unit := ask (.sleep pause)

def freshXid : Program σ UInt32 := ask .freshXid

def timestamp : Program σ UInt32 := ask .timestamp

def inspect : Program σ σ := ask .inspect

def update (change : σ → σ) : Program σ Unit := ask (.update change)

/-- Holds the lock while `p` runs. -/
def locked (p : Program σ α) : Program σ α :=
  (ask .acquire).bind fun _ => p.bind fun v => (ask .release).bind fun _ => done v

theorem bind_done (p : Program σ α) : p.bind done = p := by
  induction p with
  | done v => rfl
  | act a next ih => simp only [bind, ih]

theorem bind_assoc {γ : Type} (p : Program σ α) (f : α → Program σ β) (g : β → Program σ γ) :
    (p.bind f).bind g = p.bind fun v => (f v).bind g := by
  induction p with
  | done v => rfl
  | act a next ih => simp only [bind, ih]

end Program

structure Part (σ τ : Type) where
  get : σ → τ
  modify : (τ → τ) → σ → σ

/-- A program on a part of the state, as one on the whole. -/
def Program.onPart {σ τ α : Type} (part : Part σ τ) : Program τ α → Program σ α
  | .done v => .done v
  | .act (.send m) next => .act (.send m) fun r => (next r).onPart part
  | .act (.discover s p) next => .act (.discover s p) fun r => (next r).onPart part
  | .act (.lookup s v) next => .act (.lookup s v) fun r => (next r).onPart part
  | .act (.sleep d) next => .act (.sleep d) fun r => (next r).onPart part
  | .act .freshXid next => .act .freshXid fun r => (next r).onPart part
  | .act .timestamp next => .act .timestamp fun r => (next r).onPart part
  | .act .acquire next => .act .acquire fun r => (next r).onPart part
  | .act .release next => .act .release fun r => (next r).onPart part
  | .act .inspect next => .act .inspect fun s => (next (part.get s)).onPart part
  | .act (.update f) next => .act (.update (part.modify f)) fun r => (next r).onPart part

abbrev Task (σ α : Type) := ExceptT ClientError (Program σ) α

namespace Task

variable {σ τ α : Type}

def lift (p : Program σ α) : Task σ α := ExceptT.lift p

def ofExcept : Except ClientError α → Task σ α
  | .ok v => pure v
  | .error e => throw e

def onPart (part : Part σ τ) (t : Task τ α) : Task σ α := ExceptT.mk (t.run.onPart part)

end Task

end Nfs3.Client
