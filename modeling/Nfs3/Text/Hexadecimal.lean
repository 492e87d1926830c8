/-! Lower-case hexadecimal numbers. -/
namespace Nfs3.Text

def hex (n : Nat) : String := String.ofList (Nat.toDigits 16 n)

/-- At least `width` digits, filled up with zeros. -/
def paddedHex (width n : Nat) : String :=
  let digits := Nat.toDigits 16 n
  String.ofList (List.replicate (width - digits.length) '0' ++ digits)

def hexList (bs : List UInt8) : String :=
  "[" ++ ", ".intercalate (bs.map fun b => paddedHex 2 b.toNat) ++ "]"

end Nfs3.Text
