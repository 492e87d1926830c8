import Nfs3.BigEndian

/-!
Readers consume a byte string from the front. A reader that fails leaves what it did not consume,
so the position of a failure is known.
-/
namespace Nfs3.Wire

inductive UnionName where
  | accessTime
  | modifyTime
  | messageBody
  | replyBody
  | acceptBody
  | rejectBody

def UnionName.unknownArm : UnionName → String
  | .accessTime => "Invalid set_atime value"
  | .modifyTime => "Invalid set_mtime value"
  | .messageBody => "Invalid message type in rpc_body"
  | .replyBody => "Invalid reply status in reply_body"
  | .acceptBody => "Invalid accept stat in accept_body"
  | .rejectBody => "Invalid reject stat in rejected_reply"

inductive ReadFault where
  | endOfInput
  | shortOpaque
  | unknownMember
  | notABool
  | notUtf8
  | unknownArm (union : UnionName) (tag : UInt32)

def ReadFault.message : ReadFault → String
  | .endOfInput => "failed to fill whole buffer"
  | .shortOpaque => "opaque data shorter than its declared length"
  | .unknownMember => "Invalid enum value"
  | .notABool => "Invalid value for bool enum"
  | .notUtf8 => "Not UTF-8 string"
  | .unknownArm union tag => union.unknownArm ++ ": " ++ toString tag.toNat

abbrev Reader (α : Type) := EStateM ReadFault Bytes α

namespace Reader

variable {α : Type}

/-- A short input is consumed before the fault is raised. -/
def exactly (n : Nat) : Reader Bytes := fun bs =>
  if (bs.take n).length = n then .ok (bs.take n) (bs.drop n) else .error .endOfInput []

def skipPadding (n : Nat) : Reader Unit := do
  let _ ← exactly (padLength n)

def declared (n : Nat) : Reader Bytes := fun bs =>
  if (bs.take n).length = n then .ok (bs.take n) (bs.drop n) else .error .shortOpaque []

def times (item : Reader α) : Nat → Reader (List α)
  | 0 => pure []
  | n + 1 => do
    let x ← item
    let xs ← times item n
    pure (x :: xs)

def chainWithin (more : Reader Bool) (item : Reader α) : Nat → Reader (List α)
  | 0 => throw .endOfInput
  | fuel + 1 => do
    if ← more then
      let x ← item
      let xs ← chainWithin more item fuel
      pure (x :: xs)
    else
      pure []

/-- Items as long as `more` announces another. Every announcement takes at least one byte, so the
length of the input bounds their number. -/
def chain (more : Reader Bool) (item : Reader α) : Reader (List α) := fun bs =>
  chainWithin more item (bs.length + 1) bs

end Reader

end Nfs3.Wire
