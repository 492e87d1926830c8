import Nfs3.Client.Dispatcher
import Nfs3.Proofs.Rpc.ReplyHead

/-! What comes back for a call, and what that makes of the call. -/
namespace Nfs3.Client
open Wire Rpc MessageBuffer
variable {Args Reply : Type} {p : Procedure Args Reply} {r : Request Args} {server : String}
  {validate : Args → Reply → Except ClientError Unit} {bs : Bytes} {q : Nat}

/-- The head of a reply says `outcome`, and the result begins at `q`. -/
def Says (xid : UInt32) (bs : Bytes) (outcome : ReplyOutcome) (q : Nat) : Prop :=
  verdict ((ReplyOutcome.read xid).run (.ofBytes bs)) = (.ok outcome, q)

def Transient (xid : UInt32) (answer : Except IoFailure Bytes) : Prop :=
  (∃ cause, answer = .error cause) ∨
    ∃ bs y, answer = .ok bs ∧ wordAt bs 0 = some y ∧ wordAt bs 4 = some 1 ∧ y ≠ xid

def Refuses (xid : UInt32) (answer : Except IoFailure Bytes) : Prop :=
  ∃ bs stat q, answer = .ok bs ∧ Says xid bs (.rejected (.authError stat)) q

/-- What the last answer makes of a call. -/
inductive Settles (p : Procedure Args Reply) (r : Request Args) (server : String)
    (validate : Args → Reply → Except ClientError Unit) :
    Except IoFailure Bytes → Except ClientError Reply → Prop where
  | unanswered {cause : IoFailure} :
    Settles p r server validate (.error cause) (.error (.network server p.name cause))
  | otherCall {bs : Bytes} {y : UInt32} :
    wordAt bs 0 = some y → wordAt bs 4 = some 1 → y ≠ r.xid →
    Settles p r server validate (.ok bs) (.error (.xidMismatch r.xid y))
  | senseless {bs : Bytes} {problem : MalformedMessage} :
    (verdict ((ReplyOutcome.read r.xid).run (.ofBytes bs))).1 = .error (.malformedMessage problem) →
    Settles p r server validate (.ok bs) (.error (.malformedMessage problem))
  | credential {bs : Bytes} {stat : AuthStat} {q : Nat} :
    Says r.xid bs (.rejected (.authError stat)) q →
    Settles p r server validate (.ok bs) (.error (.authRejected server p.name stat))
  | version {bs : Bytes} {supported : VersionRange} {q : Nat} :
    Says r.xid bs (.rejected (.rpcMismatch supported)) q →
    Settles p r server validate (.ok bs)
      (.error (.rpcRejected server p.name (.rpcMismatch supported)))
  | failure {bs : Bytes} {status : AcceptBody} {q : Nat} :
    Says r.xid bs (.accepted status) q → status ≠ .success →
    Settles p r server validate (.ok bs) (.error (.rpcAcceptedFailure server p.name status))
  | unreadable {bs rest : Bytes} {fault : ReadFault} {q : Nat} :
    Says r.xid bs (.accepted .success) q → p.reply.decode (bs.drop q) = .error fault rest →
    Settles p r server validate (.ok bs) (.error (.malformedMessage (.unreadable fault)))
  | invalid {bs rest : Bytes} {v : Reply} {e : ClientError} {q : Nat} :
    Says r.xid bs (.accepted .success) q → p.reply.decode (bs.drop q) = .ok v rest →
    validate r.args v = .error e → Settles p r server validate (.ok bs) (.error e)
  | valid {bs rest : Bytes} {v : Reply} {q : Nat} :
    Says r.xid bs (.accepted .success) q → p.reply.decode (bs.drop q) = .ok v rest →
    validate r.args v = .ok () → Settles p r server validate (.ok bs) (.ok v)

namespace Request

def judge (r : Request Args) (p : Procedure Args Reply) (server : String) :
    Except IoFailure Bytes → Except ClientError Reply
  | .error cause => .error (.network server p.name cause)
  | .ok reply => r.readReply p server reply

def readResult (p : Procedure Args Reply) (bs : Bytes) (q : Nat) : Except ClientError Reply :=
  match p.reply.decode (bs.drop q) with
  | .ok v _ => .ok v
  | .error fault _ => .error (.malformedMessage (.unreadable fault))

theorem readReply_of_head {outcome : ReplyOutcome} (h : Says r.xid bs outcome q) :
    r.readReply p server bs = (outcome.check server p.name).bind fun _ => readResult p bs q := by
  unfold Says at h
  unfold readReply
  cases hr : (ReplyOutcome.read r.xid).run (.ofBytes bs) with
  | error e b =>
    rw [hr] at h
    cases h
  | ok o b =>
    have hb : b.bytes = bs := by rw [ReplyOutcome.readOnly_read r.xid _ o b hr]; rfl
    rw [hr] at h
    cases h
    change Except.bind _ _ = _
    congr 1
    funext _
    simp only [EStateM.run, fetch, readResult, hb]
    cases p.reply.decode (bs.drop b.position) <;> rfl

theorem readReply_of_error {e : ClientError}
    (h : (verdict ((ReplyOutcome.read r.xid).run (.ofBytes bs))).1 = .error e) :
    r.readReply p server bs = .error e := by
  unfold readReply
  cases hr : (ReplyOutcome.read r.xid).run (.ofBytes bs) with
  | error e b =>
    rw [hr] at h
    cases h
    rfl
  | ok o b =>
    rw [hr] at h
    cases h

theorem readReply_of_otherCall {y : UInt32} (h0 : wordAt bs 0 = some y)
    (h4 : wordAt bs 4 = some 1) (hn : y ≠ r.xid) :
    r.readReply p server bs = .error (.xidMismatch r.xid y) := by
  refine readReply_of_error ?_
  rw [ReplyOutcome.verdict_read]
  exact ReplyOutcome.parse_eq_xidMismatch.2 ⟨rfl, h0, h4, hn⟩

/-- The answer to the last send, together with `validate`, fixes what the call comes to. -/
def settle (r : Request Args) (p : Procedure Args Reply) (server : String)
    (validate : Args → Reply → Except ClientError Unit) (answer : Except IoFailure Bytes) :
    Except ClientError Reply :=
  (r.judge p server answer).bind fun v => (validate r.args v).map fun _ => v

theorem settles_settle (answer : Except IoFailure Bytes) :
    Settles p r server validate answer (r.settle p server validate answer) := by
  unfold settle
  cases answer with
  | error cause => exact .unanswered
  | ok bs =>
    simp only [judge]
    cases hv : verdict ((ReplyOutcome.read r.xid).run (.ofBytes bs)) with
    | mk result q =>
      cases result with
      | error e =>
        have he := congrArg Prod.fst hv
        rw [readReply_of_error he]
        rw [ReplyOutcome.verdict_read] at he
        obtain ⟨problem, rfl⟩ | ⟨y, h0, h4, hn, rfl⟩ := ReplyOutcome.parse_eq_error he
        · exact .senseless (congrArg Prod.fst hv)
        · exact .otherCall h0 h4 hn
      | ok outcome =>
        rw [readReply_of_head hv]
        cases outcome with
        | rejected reason =>
          cases reason with
          | rpcMismatch supported => exact .version hv
          | authError stat => exact .credential hv
        | accepted status =>
          cases status with
          | success =>
            change Settles p r server validate (.ok bs) ((readResult p bs q).bind _)
            cases hd : p.reply.decode (bs.drop q) with
            | error fault rest =>
              simp only [readResult, hd]
              exact .unreadable hv hd
            | ok v rest =>
              simp only [readResult, hd, Except.bind]
              cases hw : validate r.args v with
              | error e => exact .invalid hv hd hw
              | ok u => exact .valid hv hd hw
          | _ => exact .failure hv nofun

theorem settles_iff {answer : Except IoFailure Bytes} {result : Except ClientError Reply} :
    Settles p r server validate answer result ↔ r.settle p server validate answer = result := by
  constructor
  · intro h
    cases h with
    | unanswered => rfl
    | otherCall h0 h4 hn =>
      rw [settle, judge, readReply_of_otherCall h0 h4 hn]
      rfl
    | senseless he =>
      rw [settle, judge, readReply_of_error he]
      rfl
    | credential hv | version hv =>
      rw [settle, judge, readReply_of_head hv]
      rfl
    | @failure bs status q hv hs =>
      rw [settle, judge, readReply_of_head hv]
      cases status with
      | success => exact (hs rfl).elim
      | _ => rfl
    | unreadable hv hd =>
      rw [settle, judge, readReply_of_head hv]
      simp only [ReplyOutcome.check, readResult, hd, Except.bind]
    | invalid hv hd hw | valid hv hd hw =>
      rw [settle, judge, readReply_of_head hv]
      simp only [ReplyOutcome.check, readResult, hd, Except.bind, hw, Except.map]
  · intro h
    obtain rfl := h
    exact settles_settle answer

theorem settles_judge (p : Procedure Args Reply) (r : Request Args) (server : String)
    (answer : Except IoFailure Bytes) :
    Settles p r server Dispatcher.acceptAny answer (r.judge p server answer) := by
  have hs : r.settle p server Dispatcher.acceptAny answer = r.judge p server answer := by
    unfold settle
    cases r.judge p server answer <;> rfl
  rw [← hs]
  exact settles_settle answer

theorem judge_transient {answer : Except IoFailure Bytes} : Transient r.xid answer ↔
    ∃ e, r.judge p server answer = .error e ∧ e.isTransient = true := by
  constructor
  · intro h
    obtain ⟨cause, rfl⟩ | ⟨bs, y, rfl, h0, h4, hn⟩ := h
    · exact ⟨_, rfl, rfl⟩
    · exact ⟨_, readReply_of_otherCall h0 h4 hn, rfl⟩
  · intro h
    obtain ⟨e, h, ht⟩ := h
    have hs := settles_judge p r server answer
    rw [h] at hs
    cases hs with
    | unanswered => exact .inl ⟨_, rfl⟩
    | otherCall h0 h4 hn => exact .inr ⟨_, _, rfl, h0, h4, hn⟩
    | invalid _ _ hw => cases hw
    | _ => cases ht

theorem judge_refuses {answer : Except IoFailure Bytes} : Refuses r.xid answer ↔
    ∃ s n stat, r.judge p server answer = .error (.authRejected s n stat) := by
  constructor
  · intro h
    obtain ⟨bs, stat, q, rfl, hv⟩ := h
    exact ⟨server, p.name, stat, readReply_of_head hv⟩
  · intro h
    obtain ⟨s, n, stat, h⟩ := h
    have hs := settles_judge p r server answer
    rw [h] at hs
    cases hs with
    | credential hv => exact ⟨_, _, _, rfl, hv⟩
    | invalid _ _ hw => cases hw

end Request

end Nfs3.Client
