import Nfs3.Wire.Image
import Nfs3.Wire.Reader

/-! A codec pairs the written form of a type with its reader. -/
namespace Nfs3.Wire

structure Codec (α : Type) where
  write : α → Output
  read : Reader α

/-- Holds of every value: most types have no value that cannot be written. -/
def Always {α : Type} (_ : α) : Prop := True

namespace Codec

variable {α β : Type}

def encode (c : Codec α) (v : α) : Bytes := (c.write v).bytes

def decode (c : Codec α) (bs : Bytes) : EStateM.Result ReadFault Bytes α := c.read.run bs

def void : Codec Unit where
  write _ := .empty
  read := pure ()

def pair (a : Codec α) (b : Codec β) : Codec (α × β) where
  write v := a.write v.1 ++ b.write v.2
  read := do
    let x ← a.read
    let y ← b.read
    pure (x, y)

def iso (c : Codec α) (make : α → β) (raw : β → α) : Codec β where
  write v := c.write (raw v)
  read := make <$> c.read

/-- The part of a written form that `check` accepts. -/
def refine (c : Codec α) (check : α → Except ReadFault β) (raw : β → α) : Codec β where
  write v := c.write (raw v)
  read := do
    match check (← c.read) with
    | .ok v => pure v
    | .error fault => throw fault

end Codec

end Nfs3.Wire
