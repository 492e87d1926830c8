import Nfs3.MessageBuffer

/-! Who a call is made for, and how a message says it. -/
namespace Nfs3.Rpc

open Wire

def maxGids : Nat := 16
def maxMachineName : Nat := 255

/-- The longest start of `cs` that takes at most `n` bytes in UTF-8. -/
def takeUtf8 : Nat → List Char → List Char
  | _, [] => []
  | n, c :: cs => if c.utf8Size ≤ n then c :: takeUtf8 (n - c.utf8Size) cs else []

structure UnixCredential where
  uid : UInt32
  gid : UInt32
  gids : List UInt32
  machineName : String
  deriving DecidableEq

namespace UnixCredential

/-- Groups and name beyond what the flavor allows are dropped. -/
def ofParts (uid gid : UInt32) (gids : List UInt32) (name : String) : UnixCredential :=
  ⟨uid, gid, gids.take maxGids, String.ofList (takeUtf8 maxMachineName name.toList)⟩

def body (c : UnixCredential) (stamp : UInt32) : UnixBody :=
  ⟨stamp, Text.toUtf8 c.machineName, c.uid, c.gid, c.gids⟩

end UnixCredential

inductive Credential where
  | unix (user : UnixCredential)
  | fixed (flavor : AuthFlavor) (body : Bytes) (verifierFlavor : AuthFlavor) (verifier : Bytes)
  deriving DecidableEq

def paddedLength (n : Nat) : Nat := n + padLength n

namespace Credential

def none : Credential := .fixed .null [] .null []

def flavor : Credential → AuthFlavor
  | unix _ => .unix
  | fixed f .. => f

/-- The body at a time; only the stamp of the unix flavor depends on it. -/
def body (stamp : UInt32) : Credential → Bytes
  | unix u => UnixBody.codec.encode (u.body stamp)
  | fixed _ b .. => b

def bodyLength : Credential → Nat
  | unix u => 4 + 4 + paddedLength u.machineName.utf8ByteSize + 4 + 4 + 4 + 4 * u.gids.length
  | fixed _ b .. => b.length

def verifierFlavor : Credential → AuthFlavor
  | unix _ => .null
  | fixed _ _ f _ => f

def verifier : Credential → Bytes
  | unix _ => []
  | fixed _ _ _ v => v

def verifierLength (c : Credential) : Nat := c.verifier.length

def encodedLength (c : Credential) : Nat :=
  4 + 4 + paddedLength c.bodyLength + 4 + 4 + paddedLength c.verifierLength

def marshal (c : Credential) (stamp : UInt32) : Buffered Unit := do
  MessageBuffer.put AuthFlavor.codec c.flavor
  MessageBuffer.putOpaque (c.body stamp)
  MessageBuffer.put AuthFlavor.codec c.verifierFlavor
  MessageBuffer.putOpaque c.verifier

end Credential

end Nfs3.Rpc
