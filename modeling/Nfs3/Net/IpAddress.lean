import Nfs3.Wire.Field
import Nfs3.Text.Hexadecimal

/-!
Internet addresses in both versions, and their usual text. The longest run of zero groups of a
version 6 address is written `::`, and a mapped version 4 address keeps its dots.
-/
namespace Nfs3.Net

open Wire

inductive IpAddress where
  | v4 (a b c d : UInt8)
  | v6 (groups : Sized UInt16 8)
  deriving DecidableEq

namespace IpAddress

abbrev Scan (α : Type) := List Char → Option (α × List Char)

def literal (c : Char) : Scan Unit
  | d :: rest => if c = d then some ((), rest) else none
  | [] => none

def digitValue? (radix : Nat) (c : Char) : Option Nat :=
  let v :=
    if '0' ≤ c ∧ c ≤ '9' then c.toNat - '0'.toNat
    else if 'a' ≤ c ∧ c ≤ 'f' then c.toNat - 'a'.toNat + 10
    else if 'A' ≤ c ∧ c ≤ 'F' then c.toNat - 'A'.toNat + 10
    else radix
  if v < radix then some v else none

/-- A number of at most `width` digits; more digits than that are an error, not a longer text. -/
def number (radix width : Nat) (leadingZero : Bool) : Scan Nat := fun cs =>
  let digits := cs.takeWhile fun c => (digitValue? radix c).isSome
  let rest := cs.dropWhile fun c => (digitValue? radix c).isSome
  if digits.isEmpty || digits.length > width then none
  else if !leadingZero && digits.head? == some '0' && digits.length > 1 then none
  else some (digits.foldl (fun n c => n * radix + (digitValue? radix c).getD 0) 0, rest)

def octet : Scan UInt8 := fun cs => do
  let (n, rest) ← number 10 3 false cs
  if n < 256 then some (UInt8.ofNat n, rest) else none

def dotted : Scan (UInt8 × UInt8 × UInt8 × UInt8) := fun cs => do
  let (a, cs) ← octet cs
  let (_, cs) ← literal '.' cs
  let (b, cs) ← octet cs
  let (_, cs) ← literal '.' cs
  let (c, cs) ← octet cs
  let (_, cs) ← literal '.' cs
  let (d, cs) ← octet cs
  some ((a, b, c, d), cs)

def afterColon {α : Type} (first : Bool) (p : Scan α) : Scan α := fun cs =>
  if first then p cs else (literal ':' cs).bind fun r => p r.2

def joinOctets (a b : UInt8) : UInt16 := UInt16.ofNat (a.toNat * 256 + b.toNat)

/-- Up to `limit` groups separated by colons, ending early at a dotted address, which fills two. The
flag says that one was read. -/
def groupsUpTo (first : Bool) : Nat → List Char → List UInt16 × Bool × List Char
  | 0, cs => ([], false, cs)
  | limit + 1, cs =>
    match if limit > 0 then afterColon first dotted cs else none with
    | some ((a, b, c, d), rest) => ([joinOctets a b, joinOctets c d], true, rest)
    | none =>
      match afterColon first (number 16 4 true) cs with
      | some (n, rest) =>
        let (gs, dots, rest) := groupsUpTo false limit rest
        (UInt16.ofNat n :: gs, dots, rest)
      | none => ([], false, cs)

def ofGroups? (gs : List UInt16) : Option IpAddress :=
  if h : gs.length = 8 then some (.v6 ⟨gs, h⟩) else none

def scanV6 : Scan IpAddress := fun cs => do
  let (front, dots, cs) := groupsUpTo true 8 cs
  if front.length = 8 then
    let a ← ofGroups? front
    some (a, cs)
  else if dots then none
  else
    let (_, cs) ← literal ':' cs
    let (_, cs) ← literal ':' cs
    let (back, _, cs) := groupsUpTo true (7 - front.length) cs
    let a ← ofGroups? (front ++ List.replicate (8 - front.length - back.length) 0 ++ back)
    some (a, cs)

def scan : Scan IpAddress := fun cs =>
  match dotted cs with
  | some ((a, b, c, d), rest) => some (.v4 a b c d, rest)
  | none => scanV6 cs

def ofString? (s : String) : Option IpAddress :=
  match scan s.toList with
  | some (a, []) => some a
  | _ => none

def dottedText (a b c d : UInt8) : String :=
  ".".intercalate ([a, b, c, d].map fun o => toString o.toNat)

/-- Start and length of the first longest run of zero groups. -/
def zeroRun (gs : List UInt16) : Nat × Nat :=
  (List.range gs.length).foldl
    (fun best i =>
      let n := ((gs.drop i).takeWhile (· == 0)).length
      if n > best.2 then (i, n) else best)
    (0, 0)

def groupsText (gs : List UInt16) : String :=
  ":".intercalate (gs.map fun g => Text.hex g.toNat)

def v6Text (gs : List UInt16) : String :=
  match gs with
  | [0, 0, 0, 0, 0, 0xffff, x, y] =>
    "::ffff:" ++ dottedText (x >>> 8).toUInt8 x.toUInt8 (y >>> 8).toUInt8 y.toUInt8
  | _ =>
    let (start, n) := zeroRun gs
    if n > 1 then groupsText (gs.take start) ++ "::" ++ groupsText (gs.drop (start + n))
    else groupsText gs

def text : IpAddress → String
  | .v4 a b c d => dottedText a b c d
  | .v6 gs => v6Text gs.val

end IpAddress

end Nfs3.Net
