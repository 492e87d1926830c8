import Nfs3.Wire.Codec

/-! Scalars: words of four or eight bytes, and the types read off a single word. -/
namespace Nfs3.Wire

/-- A number held by its IEEE bits, so that equality is equality of bits. -/
structure Binary32 where
  bits : UInt32
  deriving DecidableEq, Inhabited

structure Binary64 where
  bits : UInt64
  deriving DecidableEq, Inhabited

/-- A closed set of constants, each with its code on the wire and its published name. -/
class Enumeration (α : Type) where
  members : List α
  code : α → UInt32
  name : α → String

namespace Enumeration

variable {α : Type} [Enumeration α]

def ofCode? (w : UInt32) : Option α := (members : List α).find? (code · == w)

/-- Codes are signed on the wire, but no published code is negative. -/
def ofInt? (n : Int) : Option α := (members : List α).find? fun m => n == Int.ofNat (code m).toNat

def ofName? (s : String) : Option α := (members : List α).find? (name · == s)

end Enumeration

namespace Codec

def word : Codec UInt32 where
  write w := ⟨.ofBytes (BigEndian.encode 4 w.toNat), none⟩
  read := (UInt32.ofNat <| BigEndian.decode ·) <$> Reader.exactly 4

def hyper : Codec UInt64 where
  write w := ⟨.ofBytes (BigEndian.encode 8 w.toNat), none⟩
  read := (UInt64.ofNat <| BigEndian.decode ·) <$> Reader.exactly 8

def signedWord : Codec Int32 := word.iso UInt32.toInt32 Int32.toUInt32

def signedHyper : Codec Int64 := hyper.iso UInt64.toInt64 Int64.toUInt64

def binary32 : Codec Binary32 := word.iso Binary32.mk Binary32.bits

def binary64 : Codec Binary64 := hyper.iso Binary64.mk Binary64.bits

/-- Zero and one are the only truth values. -/
def bool : Codec Bool :=
  word.refine
    (fun w => if w = 0 then .ok false else if w = 1 then .ok true else .error .notABool)
    (fun b => if b then 1 else 0)

def enumeration (α : Type) [Enumeration α] : Codec α :=
  word.refine
    (fun w => (Enumeration.ofCode? w).elim (.error .unknownMember) .ok)
    Enumeration.code

end Codec

end Nfs3.Wire
