import Nfs3.Wire.Primitive
import Nfs3.Text.Utf8

/-!
Fields of variable or fixed extent: byte strings, text, arrays, optional values and chains.
Byte strings are padded to a multiple of four by their own length.
-/
namespace Nfs3.Wire

abbrev Sized (α : Type) (n : Nat) := { xs : List α // xs.length = n }

instance {α : Type} [Inhabited α] {n : Nat} : Inhabited (Sized α n) :=
  ⟨⟨List.replicate n default, List.length_replicate⟩⟩

/-- The largest count a length word can hold. -/
def maxLength : Nat := UInt32.size - 1

namespace Codec

variable {α : Type}

def lengthWord : Codec Nat where
  write n := if n ≤ maxLength then word.write (UInt32.ofNat n) else ⟨[], some .lengthOverflow⟩
  read := UInt32.toNat <$> word.read

def bytes : Codec Bytes where
  write bs := lengthWord.write bs.length ++ ⟨.ofBytes bs ++ .pad bs.length, none⟩
  read := do
    let n ← lengthWord.read
    let bs ← Reader.declared n
    Reader.skipPadding n
    pure bs

def fixedBytes (n : Nat) : Codec (Sized UInt8 n) where
  write bs := ⟨.ofBytes bs.val ++ .pad n, none⟩
  read := do
    let bs ← Reader.exactly n
    Reader.skipPadding n
    if h : bs.length = n then pure ⟨bs, h⟩ else throw .endOfInput

def text : Codec String :=
  bytes.refine
    (fun bs => (Text.ofUtf8? bs).elim (.error .notUtf8) .ok)
    Text.toUtf8

def writeAll (write : α → Output) : List α → Output
  | [] => .empty
  | x :: xs => write x ++ writeAll write xs

def array (c : Codec α) : Codec (List α) where
  write xs := lengthWord.write xs.length ++ writeAll c.write xs
  read := do
    let n ← lengthWord.read
    Reader.times c.read n

def vector (c : Codec α) (n : Nat) : Codec (Sized α n) where
  write xs := writeAll c.write xs.val
  read := do
    let xs ← Reader.times c.read n
    if h : xs.length = n then pure ⟨xs, h⟩ else throw .endOfInput

def optional (c : Codec α) : Codec (Option α) where
  write
    | none => bool.write false
    | some v => bool.write true ++ c.write v
  read := do
    if ← bool.read then
      let v ← c.read
      pure (some v)
    else
      pure none

/-- A linked list: each item is announced by true, the end by false. -/
def chain (c : Codec α) : Codec (List α) where
  write xs := writeAll (fun x => bool.write true ++ c.write x) xs ++ bool.write false
  read := Reader.chain bool.read c.read

end Codec

end Nfs3.Wire
