import Nfs3.BigEndian

/-! SipHash with one compression round and three finishing rounds, under the zero key. -/
namespace Nfs3.SipHash

structure State where
  v0 : UInt64
  v1 : UInt64
  v2 : UInt64
  v3 : UInt64

def initial : State :=
  ⟨0x736f6d6570736575, 0x646f72616e646f6d, 0x6c7967656e657261, 0x7465646279746573⟩

def rotateLeft (x : UInt64) (n : UInt64) : UInt64 := (x <<< n) ||| (x >>> (64 - n))

def round (s : State) : State :=
  let v0 := s.v0 + s.v1
  let v1 := rotateLeft s.v1 13 ^^^ v0
  let v0 := rotateLeft v0 32
  let v2 := s.v2 + s.v3
  let v3 := rotateLeft s.v3 16 ^^^ v2
  let v0 := v0 + v3
  let v3 := rotateLeft v3 21 ^^^ v0
  let v2 := v2 + v1
  let v1 := rotateLeft v1 17 ^^^ v2
  let v2 := rotateLeft v2 32
  ⟨v0, v1, v2, v3⟩

def compress (s : State) (m : UInt64) : State :=
  let t := round { s with v3 := s.v3 ^^^ m }
  { t with v0 := t.v0 ^^^ m }

def littleEndian (bs : Bytes) : UInt64 := UInt64.ofNat (BigEndian.decode bs.reverse)

/-- Whole words of eight bytes are absorbed; what is left goes into the last word. -/
def absorb (s : State) (bs : Bytes) : State × Bytes :=
  if bs.length < 8 then (s, bs) else absorb (compress s (littleEndian (bs.take 8))) (bs.drop 8)
termination_by bs.length
decreasing_by simp only [List.length_drop]; omega

def hash (bs : Bytes) : UInt64 :=
  let (s, rest) := absorb initial bs
  let last := (UInt64.ofNat bs.length <<< 56) ||| littleEndian rest
  let s := compress s last
  let s := round (round (round { s with v2 := s.v2 ^^^ 0xff }))
  s.v0 ^^^ s.v1 ^^^ s.v2 ^^^ s.v3

def wordBytes (w : UInt64) : Bytes := (BigEndian.encode 8 w.toNat).reverse

def hashWord (w : UInt64) : UInt64 := hash (wordBytes w)

/-- Byte strings are hashed behind their length. -/
def hashBytes (bs : Bytes) : UInt64 := hash (wordBytes (UInt64.ofNat bs.length) ++ bs)

end Nfs3.SipHash
