import Nfs3.BigEndian

/-!
The image of a value on the wire. An octet either carries content or only pads the field before it:
a writer sends padding as zero, a reader never looks at it.
-/
namespace Nfs3.Wire

inductive Octet where
  | content (byte : UInt8)
  | padding
  deriving DecidableEq

def Octet.byte : Octet → UInt8
  | .content b => b
  | .padding => 0

/-- The bytes a reader takes for this octet. -/
def Octet.Admits : Octet → UInt8 → Prop
  | .content b, c => b = c
  | .padding, _ => True

abbrev Image := List Octet

namespace Image

def ofBytes (bs : Bytes) : Image := bs.map .content

def pad (n : Nat) : Image := List.replicate (padLength n) .padding

def bytes (i : Image) : Bytes := i.map Octet.byte

/-- These bytes differ from the written ones at most in the padding. -/
def Matches : Image → Bytes → Prop
  | [], [] => True
  | o :: i, b :: bs => o.Admits b ∧ Matches i bs
  | _, _ => False

@[simp] theorem bytes_append (i j : Image) : (i ++ j).bytes = i.bytes ++ j.bytes := List.map_append

@[simp] theorem length_bytes (i : Image) : i.bytes.length = i.length := List.length_map _

end Image

inductive WriteFault where
  | lengthOverflow
  | opaqueOverflow
  | dataOverflow (length : Nat)
  | countMismatch (count : UInt32) (length : Nat)
  | sealedBuffer

/-- What writing a value yields: the image up to the first field that cannot be written. -/
structure Output where
  image : Image
  fault : Option WriteFault := none

namespace Output

def append (a b : Output) : Output :=
  match a.fault with
  | none => ⟨a.image ++ b.image, b.fault⟩
  | some _ => a

instance : Append Output := ⟨append⟩

def bytes (o : Output) : Bytes := o.image.bytes

def empty : Output := ⟨[], none⟩

end Output

end Nfs3.Wire
