import Nfs3.BigEndian

/-!
Reading bytes as UTF-8 when they may be malformed. A malformed stretch is the longest start of some
encoded character that does not go on as one, and stands for a single replacement character.
-/
namespace Nfs3.Text

def replacement : Char := '\ufffd'

/-- The range the second byte must lie in after this first byte, and how many bytes there are. -/
def sequenceShape (b : UInt8) : Option (Nat × UInt8 × UInt8) :=
  if b < 0xc2 then none
  else if b ≤ 0xdf then some (2, 0x80, 0xbf)
  else if b = 0xe0 then some (3, 0xa0, 0xbf)
  else if b ≤ 0xec then some (3, 0x80, 0xbf)
  else if b = 0xed then some (3, 0x80, 0x9f)
  else if b ≤ 0xef then some (3, 0x80, 0xbf)
  else if b = 0xf0 then some (4, 0x90, 0xbf)
  else if b ≤ 0xf3 then some (4, 0x80, 0xbf)
  else if b = 0xf4 then some (4, 0x80, 0x8f)
  else none

def isContinuation (b : UInt8) : Bool := 0x80 ≤ b && b ≤ 0xbf

/-- How many bytes at the front of `bs` go on as the character `b` begins. -/
def continuationCount (b : UInt8) (bs : Bytes) : Nat :=
  match sequenceShape b, bs with
  | some (n, low, high), c :: rest =>
    if low ≤ c && c ≤ high then 1 + ((rest.take (n - 2)).takeWhile isContinuation).length else 0
  | _, _ => 0

/-- The code point of a complete sequence: the low bits of the first byte, then six of each byte
after it. -/
def codePoint (b : UInt8) (tail : Bytes) : Nat :=
  let lead := if tail.length = 1 then 0x20 else if tail.length = 2 then 0x10 else 0x08
  tail.foldl (fun n c => n * 64 + c.toNat % 64) (b.toNat % lead)

/-- The first character or malformed stretch, and the number of bytes after the first that it
takes. -/
def scanChar (b : UInt8) (bs : Bytes) : Char × Nat :=
  if b < 0x80 then (Char.ofNat b.toNat, 0)
  else
    match sequenceShape b with
    | none => (replacement, 0)
    | some (n, _, _) =>
      let k := continuationCount b bs
      if k + 1 = n then (Char.ofNat (codePoint b (bs.take k)), k) else (replacement, k)

def decodeLossy : Bytes → List Char
  | [] => []
  | b :: bs =>
    (scanChar b bs).1 :: decodeLossy (bs.drop (scanChar b bs).2)
termination_by bs => bs.length
decreasing_by simp only [List.length_drop, List.length_cons]; omega

def ofUtf8? (bs : Bytes) : Option String := String.fromUTF8? ⟨bs.toArray⟩

def toUtf8 (s : String) : Bytes := s.toByteArray.data.toList

theorem length_toUtf8 (s : String) : (toUtf8 s).length = s.utf8ByteSize := rfl

theorem ofUtf8?_eq_some {bs : Bytes} {s : String} : ofUtf8? bs = some s ↔ toUtf8 s = bs := by
  unfold ofUtf8? String.fromUTF8? toUtf8
  split
  · simp only [Option.some.injEq]
    constructor
    · rintro rfl
      rfl
    · rintro rfl
      rfl
  · next h =>
    simp only [reduceCtorEq, false_iff]
    rintro rfl
    exact h s.isValidUTF8

end Nfs3.Text
