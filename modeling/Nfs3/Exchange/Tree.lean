import Nfs3.Wire.Field

/-!
Values as trees of numbers, texts, lists and records, for tools that do not speak the wire format.
Words of 64 bits are decimal text, because such tools round large numbers; byte strings are
hexadecimal text.
-/
namespace Nfs3.Exchange

open Wire

inductive Tree where
  | null
  | flag (value : Bool)
  | number (value : Int)
  | text (value : String)
  | list (items : List Tree)
  | record (fields : List (String × Tree))
  deriving Inhabited

namespace Tree

def nat (n : Nat) : Tree := .number (Int.ofNat n)

def field? (name : String) : Tree → Option Tree
  | .record fields => fields.lookup name
  | _ => none

/-- The whole number a tree stands for, as a number or as decimal text. -/
def int? : Tree → Option Int
  | .number n => some n
  | .text s => s.toInt?
  | _ => none

def nat? (t : Tree) : Option Nat := t.int?.bind fun n => if n < 0 then none else some n.toNat

def text? : Tree → Option String
  | .text s => some s
  | _ => none

/-- An arm of a union with what it carries. -/
def arm (name : String) (payload : Tree) : Tree := .record [(name, payload)]

/-- An arm that carries nothing is only its name. -/
def arm? : Tree → Option (String × Tree)
  | .text name => some (name, .null)
  | .record [(name, payload)] => some (name, payload)
  | _ => none

end Tree

class Form (α : Type) where
  toTree : α → Tree
  ofTree? : Tree → Option α

export Form (toTree ofTree?)

variable {α β γ : Type}

abbrev Form.iso [Form α] (make : α → β) (raw : β → α) : Form β :=
  ⟨fun v => toTree (raw v), fun t => (ofTree? t).map make⟩

instance : Form Tree := ⟨id, some⟩

instance : Form Unit := ⟨fun _ => .null, fun _ => some ()⟩

instance : Form Bool where
  toTree := .flag
  ofTree?
    | .flag b => some b
    | _ => none

instance : Form String := ⟨.text, Tree.text?⟩

instance : Form Nat := ⟨.nat, Tree.nat?⟩

instance : Form UInt16 := .iso UInt16.ofNat UInt16.toNat

instance : Form UInt32 := .iso UInt32.ofNat UInt32.toNat

instance : Form UInt64 :=
  ⟨fun w => .text (toString w.toNat), fun t => t.nat?.map UInt64.ofNat⟩

instance : Form Int32 := ⟨fun w => .number w.toInt, fun t => t.int?.map Int32.ofInt⟩

instance : Form Int64 := ⟨fun w => .text (toString w.toInt), fun t => t.int?.map Int64.ofInt⟩

instance [Form α] : Form (List α) where
  toTree xs := .list (xs.map toTree)
  ofTree?
    | .list items => items.mapM ofTree?
    | _ => none

def hexBytes (bs : Bytes) : String :=
  String.ofList (bs.flatMap fun b => [Nat.digitChar (b.toNat / 16), Nat.digitChar (b.toNat % 16)])

def nibble? (c : Char) : Option Nat :=
  if '0' ≤ c ∧ c ≤ '9' then some (c.toNat - '0'.toNat)
  else if 'a' ≤ c ∧ c ≤ 'f' then some (c.toNat - 'a'.toNat + 10)
  else none

/-- The bytes of hexadecimal text behind those already read, which are held in reverse. -/
def hexOnto? (read : Bytes) : List Char → Option Bytes
  | [] => some read.reverse
  | [_] => none
  | a :: b :: rest =>
    match nibble? a, nibble? b with
    | some x, some y => hexOnto? (UInt8.ofNat (x * 16 + y) :: read) rest
    | _, _ => none

instance : Form Bytes where
  toTree bs := .text (hexBytes bs)
  ofTree? t := t.text?.bind fun s => hexOnto? [] s.toList

instance {n : Nat} [Form (List α)] : Form (Sized α n) where
  toTree xs := toTree xs.val
  ofTree? t :=
    (ofTree? t).bind fun xs : List α => if h : xs.length = n then some ⟨xs, h⟩ else none

instance : Form Binary32 :=
  .iso (fun bs : Bytes => ⟨UInt32.ofNat (BigEndian.decode bs)⟩)
    fun v => BigEndian.encode 4 v.bits.toNat

instance : Form Binary64 :=
  .iso (fun bs : Bytes => ⟨UInt64.ofNat (BigEndian.decode bs)⟩)
    fun v => BigEndian.encode 8 v.bits.toNat

instance (priority := low) [Enumeration α] : Form α where
  toTree v := .text (Enumeration.name v)
  ofTree? t := t.text?.bind Enumeration.ofName?

namespace Form

abbrev orNull [Form α] : Form (Option α) where
  toTree v := (v.map Form.toTree).getD .null
  ofTree?
    | .null => some none
    | t => (Form.ofTree? t).map some

abbrev orVoid [Form α] (name : String) : Form (Option α) where
  toTree
    | some v => .arm name (Form.toTree v)
    | none => .text "Void"
  ofTree? t := t.arm?.bind fun (n, v) =>
    if n = "Void" then some none else if n = name then (Form.ofTree? v).map some else none

end Form

/-- A record type under construction: the fields so far, and what is left of the constructor. -/
structure Fields (α β : Type) where
  entries : α → List (String × Tree)
  build? : Tree → Option β

namespace Fields

def of (mk : β) : Fields α β := ⟨fun _ => [], fun _ => some mk⟩

/-- Adds a field that appears in a form of its own. -/
def addAs (r : Fields α (γ → β)) (form : Form γ) (name : String) (get : α → γ) : Fields α β where
  entries v := r.entries v ++ [(name, form.toTree (get v))]
  build? t := do
    let mk ← r.build? t
    let field ← t.field? name
    let v ← form.ofTree? field
    pure (mk v)

def add [form : Form γ] (r : Fields α (γ → β)) (name : String) (get : α → γ) : Fields α β :=
  r.addAs form name get

abbrev form (r : Fields α α) : Form α := ⟨fun v => .record (r.entries v), r.build?⟩

end Fields

end Nfs3.Exchange
