import Nfs3.Failure

/-!
Records on a byte stream. A record is a run of fragments, each behind a word with its length in the
lower 31 bits; the highest bit marks the last fragment. What is written is always one fragment.
-/
namespace Nfs3.Rpc.Record

open Wire

def maxLength : Nat := 64 * 1024 * 1024

def maxFragment : Nat := 0x7fffffff

def lastMark : Nat := 0x80000000

inductive Fault where
  | tooLong (length : Nat)
  | endOfStream
  | noSuchFragment (length : Nat)
  deriving DecidableEq

def Fault.failure : Fault → IoFailure
  | .tooLong n =>
    ⟨.invalidData, "RPC record length " ++ toString n ++ " exceeds max " ++ toString maxLength⟩
  | .endOfStream => ⟨.unexpectedEof, "early eof"⟩
  | .noSuchFragment n =>
    ⟨.invalidInput, "RPC record length " ++ toString n ++ " does not fit in one fragment"⟩

inductive FragmentRead where
  | complete (last : Bool) (record rest : Bytes)
  /-- The declared length was refused. The record is what it was, and nothing behind the header was
  read. -/
  | refused (length : Nat) (record rest : Bytes)
  /-- The stream ended. Room for the fragment may already have been made in the record, which then
  has `grown` bytes. -/
  | cut (grown : Nat)

def readFragment (record stream : Bytes) : FragmentRead :=
  if (stream.take 4).length = 4 then
    let header := BigEndian.decode (stream.take 4)
    let body := stream.drop 4
    let n := header % lastMark
    if record.length + n > maxLength then .refused n record body
    else if (body.take n).length = n then
      .complete (header ≥ lastMark) (record ++ body.take n) (body.drop n)
    else .cut (record.length + n)
  else .cut record.length

theorem length_rest_lt {record stream record' rest : Bytes} {last : Bool}
    (h : readFragment record stream = .complete last record' rest) :
    rest.length < stream.length := by
  unfold readFragment at h
  split at h
  · rename_i h4
    simp only at h
    split at h
    · cases h
    · split at h
      · cases h
        simp only [List.length_take] at h4
        simp only [List.length_drop]
        omega
      · cases h
  · cases h

/-- What became of reading the record at the front of a stream. -/
inductive RecordRead where
  | complete (record rest : Bytes)
  /-- A fragment was refused behind those whose payload is `collected`. -/
  | refused (length : Nat) (collected rest : Bytes)
  | cut (grown : Nat)

def RecordRead.result : RecordRead → Except Fault Bytes
  | .complete record _ => .ok record
  | .refused n _ _ => .error (.tooLong n)
  | .cut _ => .error .endOfStream

def readOnto (record stream : Bytes) : RecordRead :=
  match _h : readFragment record stream with
  | .complete true record rest => .complete record rest
  | .complete false record rest => readOnto record rest
  | .refused n record rest => .refused n record rest
  | .cut grown => .cut grown
termination_by stream.length
decreasing_by exact length_rest_lt _h

def read (stream : Bytes) : RecordRead := readOnto [] stream

theorem length_rest_lt_of_readOnto {record stream record' rest : Bytes}
    (h : readOnto record stream = .complete record' rest) : rest.length < stream.length := by
  induction stream using WellFounded.induction (measure List.length).wf generalizing record with
  | _ stream ih =>
    rw [readOnto] at h
    split at h
    · rename_i hf
      cases h
      exact length_rest_lt hf
    · rename_i hf
      exact Nat.lt_trans (ih _ (length_rest_lt hf) h) (length_rest_lt hf)
    · cases h
    · cases h

def readAll (stream : Bytes) : List Bytes × Fault :=
  match _h : read stream with
  | .complete record rest =>
    let (records, fault) := readAll rest
    (record :: records, fault)
  | .refused n _ _ => ([], .tooLong n)
  | .cut _ => ([], .endOfStream)
termination_by stream.length
decreasing_by exact length_rest_lt_of_readOnto _h

/-- Writing to a stream, on which these bytes are already. -/
abbrev Writing (α : Type) := EStateM Fault Bytes α

def send (bs : Bytes) : Writing Unit := modify (· ++ bs)

/-- A record that one fragment cannot hold is refused. -/
def write (segments : List Bytes) : Writing Unit := do
  let n := segmentsLength segments
  if n > maxFragment then throw (.noSuchFragment n)
  else
    send (BigEndian.encode 4 (lastMark + n))
    segments.forM send

end Nfs3.Rpc.Record
