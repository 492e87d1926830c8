import Nfs3.Client.World

/-! An outside world that answers from a recording: each procedure by its rule if it has one, and
otherwise with the next answer of the script. -/
namespace Nfs3.Client

open Rpc Net

inductive RecordedAnswer where
  /-- The transaction id of the call, moved by `shift`, with `tail` behind it. -/
  | reply (shift : UInt32) (tail : Bytes)
  | bytes (raw : Bytes)
  | failure (cause : IoFailure)

inductive NameService where
  /-- One answer for each question in turn; the last is given for good. -/
  | inTurn (answers : List (Option (List IpAddress)))
  /-- A name is the text of its only address. -/
  | literal

structure Playback where
  rules : List ((UInt32 × UInt32) × RecordedAnswer)
  script : List RecordedAnswer
  names : NameService
  /-- Where services listen; zero when they do not. -/
  ports : List (Service × UInt16)

namespace Transmission

def headerWord (m : Transmission) (index : Nat) : UInt32 :=
  UInt32.ofNat (BigEndian.decode (((m.segments.headD []).drop (4 * index)).take 4))

def xid (m : Transmission) : UInt32 := m.headerWord 0

def program (m : Transmission) : UInt32 := m.headerWord 3

def procedure (m : Transmission) : UInt32 := m.headerWord 5

end Transmission

namespace RecordedAnswer

def exhausted : RecordedAnswer := .failure ⟨.connectionReset, "script exhausted"⟩

def answerTo (m : Transmission) : RecordedAnswer → Except IoFailure Bytes
  | .reply shift tail => .ok (BigEndian.encode 4 (m.xid + shift).toNat ++ tail)
  | .bytes raw => .ok raw
  | .failure cause => .error cause

end RecordedAnswer

namespace NameService

def answer (server : String) : NameService → Option (List IpAddress) × NameService
  | .inTurn [] => (none, .inTurn [])
  | .inTurn [last] => (last, .inTurn [last])
  | .inTurn (a :: rest) => (a, .inTurn rest)
  | .literal => ((IpAddress.ofString? server).map ([·]), .literal)

end NameService

namespace Playback

def send (m : Transmission) (p : Playback) : Except IoFailure Bytes × Playback :=
  match p.rules.lookup (m.program, m.procedure) with
  | some a => (a.answerTo m, p)
  | none =>
    match p.script with
    | a :: rest => (a.answerTo m, { p with script := rest })
    | [] => (RecordedAnswer.exhausted.answerTo m, p)

def portOf (server : String) (service : Service) (p : Playback) : Except ClientError UInt16 :=
  match p.ports.lookup service with
  | none | some 0 => .error (.portUnavailable server service.program service.version)
  | some port => .ok port

/-- Whole milliseconds and never early, for thirty years of 365 days at most. -/
def timer (d : Duration) : Nat :=
  (min d.nanoseconds (Duration.ofSeconds 946080000).nanoseconds + 999999) / 1000000

/-- Clocks in a recording stand still, so all stamps are zero. -/
def environment : Environment Playback where
  send := send
  discover server _ p :=
    let (found, names) := p.names.answer server
    (found, { p with names })
  lookup server service p := (p.portOf server service, p)
  timestamp p := (0, p)
  timer := timer

end Playback

end Nfs3.Client
