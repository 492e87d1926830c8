import Nfs3.ClientError

/-!
The buffer one message is built in or parsed from. Bytes are written and read at a cursor; data too
large to copy follows as payload segments, which seal the bytes before them. Padding written through
the buffer itself is measured from the start of the message.
-/
namespace Nfs3

open Wire

structure MessageBuffer where
  bytes : Bytes := []
  position : Nat := 0
  payloads : List Bytes := []
  /-- Counted up with every segment, and read instead of adding up the segments. -/
  payloadLength : Nat := 0
  terminalPadding : Nat := 0
  deriving DecidableEq, Inhabited

abbrev Buffered (α : Type) := EStateM ClientError MessageBuffer α

namespace MessageBuffer

def ofBytes (bs : Bytes) : MessageBuffer := { bytes := bs }

def empty : MessageBuffer := ofBytes []

def remaining (b : MessageBuffer) : Nat := b.bytes.length - b.position

def totalLength (b : MessageBuffer) : Nat :=
  b.bytes.length + b.payloadLength + b.terminalPadding

def pendingPadding (b : MessageBuffer) : Nat :=
  padLength (b.position + b.payloadLength + b.terminalPadding)

def segments (b : MessageBuffer) : List Bytes :=
  b.bytes :: b.payloads ++
    (if b.terminalPadding > 0 then [List.replicate b.terminalPadding 0] else [])

def isSealed (b : MessageBuffer) : Bool := !b.payloads.isEmpty || b.terminalPadding > 0

def upTo (b : MessageBuffer) (n : Nat) : Bytes :=
  (b.bytes.drop b.position).take (min n b.remaining)

/-- Bytes at the cursor are overwritten, bytes past the end appended. -/
def overwrite (b : MessageBuffer) (bs : Bytes) : MessageBuffer :=
  { b with
    bytes := b.bytes.take b.position ++ bs ++ b.bytes.drop (b.position + bs.length)
    position := b.position + bs.length }

def malformed {α : Type} (problem : MalformedMessage) : Buffered α :=
  throw (.malformedMessage problem)

def writeFault {α : Type} (fault : WriteFault) : Buffered α :=
  throw (.io (.ofWrite fault))

def write (bs : Bytes) : Buffered Nat := do
  if (← get).isSealed then writeFault .sealedBuffer
  else
    modify (·.overwrite bs)
    pure bs.length

/-- Writing nothing succeeds even when the buffer is sealed. -/
def writeBytes (bs : Bytes) : Buffered Unit := do
  if bs.isEmpty then pure ()
  else if (← get).isSealed then writeFault .sealedBuffer
  else modify (·.overwrite bs)

def put {α : Type} (c : Codec α) (v : α) : Buffered Unit := do
  let out := c.write v
  writeBytes out.bytes
  match out.fault with
  | none => pure ()
  | some fault => writeFault fault

def align : Buffered Unit := do
  writeBytes (List.replicate (← get).pendingPadding 0)

/-- Like `put .bytes`, but padded up to a multiple of four of the whole message. -/
def putOpaque (bs : Bytes) : Buffered Unit := do
  if bs.length ≤ maxLength then
    put .word (UInt32.ofNat bs.length)
    writeBytes bs
    align
  else
    writeFault .opaqueOverflow

def putString (s : String) : Buffered Unit := putOpaque (Text.toUtf8 s)

def leave (b : MessageBuffer) (rest : Bytes) : MessageBuffer :=
  { b with position := b.bytes.length - rest.length }

/-- A failed read leaves the cursor after what it consumed. -/
def fetch {α : Type} (c : Codec α) : Buffered α := fun b =>
  match c.decode (b.bytes.drop b.position) with
  | .ok v rest => .ok v (b.leave rest)
  | .error fault rest => .error (.malformedMessage (.unreadable fault)) (b.leave rest)

def read (n : Nat) : Buffered Bytes := do
  let b ← get
  set { b with position := b.position + min n b.remaining }
  pure (b.upTo n)

def setPosition (p : Nat) : Buffered Unit := do
  let b ← get
  if p > b.bytes.length then malformed (.positionPastEnd p b.bytes.length)
  else set { b with position := p }

def reset : Buffered Unit := modify ({ · with position := 0 })

/-- Moves the cursor past `n` bytes and on to a multiple of four. The sum is checked against the
range of a machine word before it is rounded up, and no more behind that. -/
def skip (n : UInt64) : Buffered Unit := do
  let b ← get
  let sum := b.position + n.toNat
  let target := sum + padLength sum
  if sum ≥ UInt64.size then malformed (.skipOverflow n)
  else if target ≥ UInt64.size then throw .overflow
  else if target > b.bytes.length then malformed (.skipPastEnd target b.bytes.length)
  else set { b with position := target }

def getOpaque : Buffered Bytes := do
  let n ← fetch .word
  let b ← get
  if n.toNat > b.remaining then malformed (.lengthPastEnd n.toNat b.remaining)
  else
    skip n.toUInt64
    pure ((b.bytes.drop b.position).take n.toNat)

def getString : Buffered String := do
  match Text.ofUtf8? (← getOpaque) with
  | some s => pure s
  | none => malformed .notUtf8

def push (b : MessageBuffer) (segment : Bytes) : MessageBuffer :=
  { b with
    payloadLength := b.payloadLength + segment.length
    payloads := b.payloads ++ [segment] }

def appendPayload (segments : List Bytes) : Buffered Unit := modify fun b => segments.foldl push b

/-- Pads the message to a multiple of four and gives the padding that was missing. -/
def finalizePayloads : Buffered Nat := do
  let b ← get
  let pad := padLength b.totalLength
  set { b with terminalPadding := b.terminalPadding + pad }
  pure pad

end MessageBuffer

end Nfs3
