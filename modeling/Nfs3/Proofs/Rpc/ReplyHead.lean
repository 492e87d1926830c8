import Nfs3.Proofs.Wire.Buffer
import Nfs3.Proofs.Wire.Message
import Nfs3.Rpc.Call

/-!
The head of a reply is read twice in this library: by the codec of messages, and at the cursor of a
buffer, where the verifier is passed over unread. Both find the same in the same bytes.
-/
namespace Nfs3.Rpc
open Wire Codec Reader MessageBuffer

namespace ReplyOutcome
variable {α : Type} {bs : Bytes} {x : UInt32}

/-- Reading the head of a reply, as a function of its bytes. -/
def parse (x : UInt32) (bs : Bytes) : Except ClientError ReplyOutcome × Nat :=
  withWord bs 0 fun xid => withWord bs 4 fun direction =>
    if direction ≠ 1 then (.error (.malformedMessage (.notAReply direction)), 8)
    else if xid ≠ x then (.error (.xidMismatch x xid), 8)
    else withWord bs 8 fun status =>
      if status = 0 then withWord bs 12 fun _ => withWord bs 16 fun n =>
        if bs.length < fieldEnd 20 n then
          (.error (.malformedMessage (.skipPastEnd (fieldEnd 20 n) bs.length)), 20)
        else (fetchAt AcceptBody.codec bs (fieldEnd 20 n)).map (Except.map accepted) id
      else if status = 1 then (fetchAt RejectBody.codec bs 12).map (Except.map rejected) id
      else (.error (.malformedMessage (.unknownReplyStatus status)), 12)

theorem verdict_read (x : UInt32) (m : MessageBuffer) :
    verdict ((read x).run m) = parse x m.bytes := by
  change verdict ((_ >>= _ : Buffered ReplyOutcome).run { m with position := 0 }) = _
  unfold parse
  rw [verdict_fetch_bind]
  congr 1
  funext xid
  rw [verdict_fetch_bind]
  congr 1
  funext direction
  split
  · rfl
  split
  · rfl
  rw [verdict_fetch_bind]
  congr 1
  funext status
  split
  · rw [if_pos rfl, verdict_fetch_bind]
    congr 1
    funext _
    rw [verdict_fetch_bind]
    congr 1
    funext n
    have hn := n.toNat_lt
    have hs : 20 + n.toNat + 4 ≤ UInt64.size := by
      have hc : UInt64.size = 2 ^ 64 := rfl
      omega
    refine (verdict_skip_bind (by simp) hs).trans ?_
    refine if_congr Iff.rfl rfl ?_
    exact verdict_fetch_map
  · exact verdict_fetch_map
  · rename_i h0 h1
    rw [if_neg h0, if_neg h1]
    rfl

theorem fetchAt_map_eq_ok {c : Codec α} {ok : α → Prop} (h : c.Lawful ok) {q p : Nat}
    {f : α → ReplyOutcome} {o : ReplyOutcome} :
    (fetchAt c bs q).map (Except.map f) id = (.ok o, p) ↔
      ∃ v, f v = o ∧ p ≤ bs.length ∧ c.read (bs.drop q) = .ok v (bs.drop p) := by
  unfold fetchAt Codec.decode EStateM.run
  cases hr : c.read (bs.drop q) with
  | error fault rest => simp [Except.map]
  | ok v rest =>
    have hd : rest = bs.drop (bs.length - rest.length) :=
      List.suffix_iff_eq_drop.1 ((h.suffix hr).trans (List.drop_suffix q bs))
    simp only [Prod.map, Except.map, id, Prod.mk.injEq, Except.ok.injEq, EStateM.Result.ok.injEq]
    constructor
    · intro h
      obtain ⟨rfl, rfl⟩ := h
      exact ⟨v, rfl, Nat.sub_le .., rfl, hd⟩
    · intro h
      obtain ⟨_, rfl, hp, rfl, hr⟩ := h
      refine ⟨rfl, ?_⟩
      rw [hr, List.length_drop]
      omega

theorem parse_eq_ok {o : ReplyOutcome} {p : Nat} :
    parse x bs = (.ok o, p) ↔ wordAt bs 0 = some x ∧ wordAt bs 4 = some 1 ∧ p ≤ bs.length ∧
      ((wordAt bs 8 = some 0 ∧ ∃ f n body, wordAt bs 12 = some f ∧ wordAt bs 16 = some n ∧
        fieldEnd 20 n ≤ bs.length ∧ accepted body = o ∧
        AcceptBody.codec.read (bs.drop (fieldEnd 20 n)) = .ok body (bs.drop p)) ∨
      (wordAt bs 8 = some 1 ∧ ∃ reason, rejected reason = o ∧
        RejectBody.codec.read (bs.drop 12) = .ok reason (bs.drop p))) := by
  unfold parse
  simp only [withWord_eq_ok]
  constructor
  · intro h
    obtain ⟨xid, hx, direction, hd, h⟩ := h
    split at h
    · cases h
    rename_i h1
    split at h
    · cases h
    rename_i h2
    obtain rfl := of_not_not h1
    obtain rfl := of_not_not h2
    obtain ⟨status, hs, h⟩ := withWord_eq_ok.1 h
    by_cases hs0 : status = 0
    · subst hs0
      obtain ⟨f, hf, n, hn, h⟩ := by simpa only [if_true, withWord_eq_ok] using h
      split at h
      · cases h
      obtain ⟨status, ho, hp, hr⟩ := (fetchAt_map_eq_ok AcceptBody.lawful).1 h
      exact ⟨hx, hd, hp, .inl ⟨hs, f, n, status, hf, hn, by omega, ho, hr⟩⟩
    by_cases hs1 : status = 1
    · subst hs1
      obtain ⟨reason, ho, hp, hr⟩ := (fetchAt_map_eq_ok RejectBody.lawful).1 h
      exact ⟨hx, hd, hp, .inr ⟨hs, reason, ho, hr⟩⟩
    · rw [if_neg hs0, if_neg hs1] at h
      cases h
  · intro h
    obtain ⟨hx, hd, hp, h⟩ := h
    refine ⟨x, hx, 1, hd, ?_⟩
    simp only [ne_eq, not_true_eq_false, if_false, withWord_eq_ok]
    obtain ⟨hs, f, n, body, hf, hn, hl, ho, hr⟩ | ⟨hs, reason, ho, hr⟩ := h
    · refine ⟨0, hs, withWord_eq_ok.2 ⟨f, hf, withWord_eq_ok.2 ⟨n, hn, ?_⟩⟩⟩
      rw [if_neg (by omega)]
      exact (fetchAt_map_eq_ok AcceptBody.lawful).2 ⟨body, ho, hp, hr⟩
    · exact ⟨1, hs, (fetchAt_map_eq_ok RejectBody.lawful).2 ⟨reason, ho, hp, hr⟩⟩

end ReplyOutcome

variable {bs rest : Bytes} {p : Nat}

theorem Message.read_eq_ok {x : UInt32} {body : MessageBody} :
    Message.codec.read bs = .ok ⟨x, body⟩ rest ↔
      wordAt bs 0 = some x ∧ MessageBody.codec.read (bs.drop 4) = .ok body rest := by
  have hw (w : UInt32) (mid : Bytes) : Codec.word.read bs = .ok w mid ↔
      wordAt bs 0 = some w ∧ bs.drop 4 = mid := read_word_eq_ok (p := 0)
  simp [Message.codec, Codec.iso, Codec.pair, map_eq_ok, bind_eq_ok, hw]

theorem MessageBody.read_eq_ok {body : ReplyBody} :
    MessageBody.codec.read (bs.drop p) = .ok (.reply body) rest ↔
      wordAt bs p = some 1 ∧ ReplyBody.codec.read (bs.drop (p + 4)) = .ok body rest := by
  simp only [MessageBody.codec, bind_eq_ok, read_word_eq_ok]
  constructor
  · intro h
    obtain ⟨w, _, ⟨hw, rfl⟩, h⟩ := h
    split at h
    · obtain ⟨_, _, h⟩ := map_eq_ok.1 h
      cases h
    · obtain ⟨_, h, hb⟩ := map_eq_ok.1 h
      cases hb
      exact ⟨hw, h⟩
    · cases h
  · intro h
    obtain ⟨hw, h⟩ := h
    exact ⟨1, _, ⟨hw, rfl⟩, map_eq_ok.2 ⟨body, h, rfl⟩⟩

theorem ReplyBody.read_eq_ok {body : ReplyBody} :
    ReplyBody.codec.read (bs.drop p) = .ok body rest ↔
      (wordAt bs p = some 0 ∧ ∃ reply, .accepted reply = body ∧
        AcceptedReply.codec.read (bs.drop (p + 4)) = .ok reply rest) ∨
      (wordAt bs p = some 1 ∧ ∃ reason, .denied reason = body ∧
        RejectBody.codec.read (bs.drop (p + 4)) = .ok reason rest) := by
  simp only [ReplyBody.codec, bind_eq_ok, read_word_eq_ok]
  constructor
  · intro h
    obtain ⟨w, _, ⟨hw, rfl⟩, h⟩ := h
    split at h
    · obtain ⟨reply, h, hb⟩ := map_eq_ok.1 h
      exact .inl ⟨hw, reply, hb, h⟩
    · obtain ⟨reason, h, hb⟩ := map_eq_ok.1 h
      exact .inr ⟨hw, reason, hb, h⟩
    · cases h
  · intro h
    obtain ⟨hw, reply, hb, h⟩ | ⟨hw, reason, hb, h⟩ := h
    · exact ⟨0, _, ⟨hw, rfl⟩, map_eq_ok.2 ⟨reply, h, hb⟩⟩
    · exact ⟨1, _, ⟨hw, rfl⟩, map_eq_ok.2 ⟨reason, h, hb⟩⟩

theorem AuthFlavor.read_eq_ok {flavor : AuthFlavor} :
    AuthFlavor.codec.read (bs.drop p) = .ok flavor rest ↔ ∃ f, wordAt bs p = some f ∧
      Enumeration.ofCode? f = some flavor ∧ bs.drop (p + 4) = rest :=
  read_enumeration_eq_ok

theorem AuthField.read_eq_ok {field : AuthField} :
    AuthField.codec.read (bs.drop p) = .ok field rest ↔ ∃ f n, wordAt bs p = some f ∧
      Enumeration.ofCode? f = some field.flavor ∧ wordAt bs (p + 4) = some n ∧
      fieldEnd (p + 8) n ≤ bs.length ∧ (bs.drop (p + 8)).take n.toNat = field.body ∧
      bs.drop (fieldEnd (p + 8) n) = rest := by
  obtain ⟨flavor, text⟩ := field
  simp only [AuthField.codec, Codec.iso, Codec.pair, map_eq_ok, bind_eq_ok, pure_eq_ok,
    AuthFlavor.read_eq_ok]
  constructor
  · intro h
    obtain ⟨_, ⟨_, _, ⟨f, hf, ho, rfl⟩, _, _, hv, rfl, rfl⟩, h⟩ := h
    obtain ⟨n, hn, hl, ht, hr⟩ := read_bytes_eq_ok.1 hv
    cases h
    exact ⟨f, n, hf, ho, hn, hl, ht, hr⟩
  · intro h
    obtain ⟨f, n, hf, ho, hn, hl, ht, hr⟩ := h
    have hv := read_bytes_eq_ok.2 ⟨n, hn, hl, ht, hr⟩
    exact ⟨_, ⟨_, _, ⟨f, hf, ho, rfl⟩, _, _, hv, rfl, rfl⟩, rfl⟩

theorem AcceptedReply.read_eq_ok {reply : AcceptedReply} :
    AcceptedReply.codec.read (bs.drop p) = .ok reply rest ↔
      ∃ f n, wordAt bs p = some f ∧ Enumeration.ofCode? f = some reply.verifier.flavor ∧
        wordAt bs (p + 4) = some n ∧ fieldEnd (p + 8) n ≤ bs.length ∧
        (bs.drop (p + 8)).take n.toNat = reply.verifier.body ∧
        AcceptBody.codec.read (bs.drop (fieldEnd (p + 8) n)) = .ok reply.body rest := by
  obtain ⟨verifier, body⟩ := reply
  simp only [AcceptedReply.codec, Codec.iso, Codec.pair, map_eq_ok, bind_eq_ok, pure_eq_ok,
    AuthField.read_eq_ok]
  constructor
  · intro h
    obtain ⟨_, ⟨_, _, ⟨f, n, hf, ho, hn, hl, ht, rfl⟩, _, _, hb, rfl, rfl⟩, h⟩ := h
    cases h
    exact ⟨f, n, hf, ho, hn, hl, ht, hb⟩
  · intro h
    obtain ⟨f, n, hf, ho, hn, hl, ht, hb⟩ := h
    exact ⟨_, ⟨_, _, ⟨f, n, hf, ho, hn, hl, ht, rfl⟩, _, _, hb, rfl, rfl⟩, rfl⟩

def verifierFlavor? (bs : Bytes) : Option UInt32 :=
  if wordAt bs 4 = some 1 ∧ wordAt bs 8 = some 0 then wordAt bs 12 else none

def verifierLength? (bs : Bytes) : Option UInt32 :=
  if wordAt bs 4 = some 1 ∧ wordAt bs 8 = some 0 then wordAt bs 16 else none

def ReplyBody.outcome : ReplyBody → ReplyOutcome
  | .accepted reply => .accepted reply.body
  | .denied reason => .rejected reason

theorem AuthFlavor.ofCode?_of_le {f : UInt32} (h : f ≤ 3) :
    ∃ flavor : AuthFlavor, Enumeration.ofCode? f = some flavor := by
  have hf : f = 0 ∨ f = 1 ∨ f = 2 ∨ f = 3 := by
    simp only [← UInt32.toNat_inj]
    have hn : f.toNat ≤ 3 := h
    simp
    omega
  obtain rfl | rfl | rfl | rfl := hf
  · exact ⟨.null, rfl⟩
  · exact ⟨.unix, rfl⟩
  · exact ⟨.short, rfl⟩
  · exact ⟨.des, rfl⟩

theorem parse_eq_ok_iff_decode {x : UInt32} (hf : ∀ f, verifierFlavor? bs = some f → f ≤ 3)
    {outcome : ReplyOutcome} : ReplyOutcome.parse x bs = (.ok outcome, p) ↔
      ∃ body : ReplyBody, body.outcome = outcome ∧ p ≤ bs.length ∧
        Message.codec.decode bs = .ok ⟨x, .reply body⟩ (bs.drop p) := by
  unfold Codec.decode EStateM.run
  simp only [ReplyOutcome.parse_eq_ok, Message.read_eq_ok, MessageBody.read_eq_ok,
    ReplyBody.read_eq_ok, AcceptedReply.read_eq_ok]
  constructor
  · intro h
    obtain ⟨hx, hd, hp, ⟨hs, f, n, status, hw, hn, hl, ho, hr⟩ | ⟨hs, reason, ho, hr⟩⟩ := h
    · have hv : verifierFlavor? bs = some f := by simp [verifierFlavor?, hd, hs, hw]
      obtain ⟨flavor, hc⟩ := AuthFlavor.ofCode?_of_le (hf f hv)
      let reply : AcceptedReply := ⟨⟨flavor, (bs.drop 20).take n.toNat⟩, status⟩
      exact ⟨.accepted reply, ho, hp, hx, hd,
        .inl ⟨hs, reply, rfl, f, n, hw, hc, hn, hl, rfl, hr⟩⟩
    · exact ⟨.denied reason, ho, hp, hx, hd, .inr ⟨hs, reason, rfl, hr⟩⟩
  · intro h
    obtain ⟨body, ho, hp, hx, hd, hb⟩ := h
    obtain ⟨hs, reply, rfl, f, n, hw, -, hn, hl, -, hr⟩ | ⟨hs, reason, rfl, hr⟩ := hb
    · exact ⟨hx, hd, hp, .inl ⟨hs, f, n, reply.body, hw, hn, hl, ho, hr⟩⟩
    · exact ⟨hx, hd, hp, .inr ⟨hs, reason, ho, hr⟩⟩

namespace ReplyOutcome

/-- Of an accepted reply the flavor word and the verifier may differ, as long as both are there. -/
theorem parse_congr {x : UInt32} {cs : Bytes} (hl : cs.length = bs.length)
    (h0 : wordAt cs 0 = wordAt bs 0) (h4 : wordAt cs 4 = wordAt bs 4)
    (h8 : wordAt cs 8 = wordAt bs 8) (hs : wordAt bs 8 = some 0)
    (h16 : wordAt cs 16 = wordAt bs 16)
    (hd : ∀ n, wordAt bs 16 = some n → cs.drop (fieldEnd 20 n) = bs.drop (fieldEnd 20 n)) :
    parse x cs = parse x bs := by
  have hfetch {n : UInt32} (hn : wordAt bs 16 = some n) :
      fetchAt AcceptBody.codec cs (fieldEnd 20 n) =
        fetchAt AcceptBody.codec bs (fieldEnd 20 n) := by
    unfold fetchAt
    rw [hd n hn, hl]
  unfold parse
  refine withWord_congr hl h0 fun xid _ => withWord_congr hl h4 fun direction _ => ?_
  refine if_congr Iff.rfl rfl (if_congr Iff.rfl rfl ?_)
  refine withWord_congr hl h8 fun status hw => ?_
  obtain rfl : 0 = status := Option.some.inj (hs.symm.trans hw)
  refine withWord_const hl (withWord_congr hl h16 fun n hn => ?_)
  rw [hl, hfetch hn]

theorem parse_overwrite {x : UInt32} {b : MessageBuffer} {vs : Bytes}
    (h : b.position + vs.length ≤ b.bytes.length) (hs : wordAt b.bytes 8 = some 0)
    (hp : 12 ≤ b.position ∧ b.position + vs.length ≤ 16 ∨ 20 ≤ b.position)
    (hd : ∀ n, wordAt b.bytes 16 = some n → b.position + vs.length ≤ fieldEnd 20 n) :
    parse x (b.overwrite vs).bytes = parse x b.bytes := by
  refine parse_congr (length_overwrite h) ?_ ?_ ?_ hs ?_ ?_
  · exact wordAt_overwrite h (by omega)
  · exact wordAt_overwrite h (by omega)
  · exact wordAt_overwrite h (by omega)
  · exact wordAt_overwrite h (by omega)
  · exact fun n hn => drop_overwrite h (hd n hn)

theorem parse_eq_error {x : UInt32} {e : ClientError} (h : (parse x bs).1 = .error e) :
    (∃ problem, e = .malformedMessage problem) ∨
      ∃ y, wordAt bs 0 = some y ∧ wordAt bs 4 = some 1 ∧ y ≠ x ∧ e = .xidMismatch x y := by
  unfold parse at h
  obtain hm | ⟨y, hy, h⟩ := withWord_eq_error h
  · exact .inl hm
  obtain hm | ⟨direction, hd, h⟩ := withWord_eq_error h
  · exact .inl hm
  split at h
  · exact .inl ⟨_, (Except.error.inj h).symm⟩
  rename_i h1
  split at h
  · rename_i hx
    obtain rfl := of_not_not h1
    exact .inr ⟨y, hy, hd, hx, (Except.error.inj h).symm⟩
  left
  obtain hm | ⟨status, -, h⟩ := withWord_eq_error h
  · exact hm
  split at h
  · obtain hm | ⟨f, -, h⟩ := withWord_eq_error h
    · exact hm
    obtain hm | ⟨n, -, h⟩ := withWord_eq_error h
    · exact hm
    split at h
    · exact ⟨_, (Except.error.inj h).symm⟩
    · exact fetchAt_map_eq_error h
  split at h
  · exact fetchAt_map_eq_error h
  · exact ⟨_, (Except.error.inj h).symm⟩

theorem parse_eq_xidMismatch {x y z : UInt32} : (parse x bs).1 = .error (.xidMismatch y z) ↔
    y = x ∧ wordAt bs 0 = some z ∧ wordAt bs 4 = some 1 ∧ z ≠ x := by
  constructor
  · intro h
    obtain ⟨_, hm⟩ | ⟨w, hw, hd, hn, he⟩ := parse_eq_error h
    · cases hm
    · cases he
      exact ⟨rfl, hw, hd, hn⟩
  · intro h
    obtain ⟨rfl, hw, hd, hn⟩ := h
    simp [parse, withWord, hw, hd, hn]

theorem readOnly_read (x : UInt32) : ReadOnly (read x) := by
  refine .bind .reset fun _ => .bind (.fetch _) fun xid => .bind (.fetch _) fun direction => ?_
  split
  · exact .throw _
  split
  · exact .throw _
  refine .bind (.fetch _) fun status => ?_
  split
  · refine .bind (.fetch _) fun _ => .bind (.fetch _) fun n => ?_
    exact .bind (.skip _) fun _ => .bind (.fetch _) fun _ => .pure _
  · exact .bind (.fetch _) fun _ => .pure _
  · exact .throw _

/-- Reading the head of a reply at the cursor agrees with the codec of messages, wherever the cursor
is. The two differ only in that the cursor passes over the verifier of an accepted reply unread:
neither its flavor nor its bytes nor their padding change the outcome. -/
theorem read_agrees_with_decode (x : UInt32) (m : MessageBuffer) :
    ((∀ f, verifierFlavor? m.bytes = some f → f ≤ 3) → ∀ outcome p,
      verdict ((read x).run m) = (.ok outcome, p) ↔
        ∃ body : ReplyBody, body.outcome = outcome ∧ p ≤ m.bytes.length ∧
          Message.codec.decode m.bytes = .ok ⟨x, .reply body⟩ (m.bytes.drop p)) ∧
    (∀ f vs, verifierFlavor? m.bytes = some f → vs.length = 4 →
      verdict ((read x).run m) = verdict ((read x).run ({ m with position := 12 }.overwrite vs))) ∧
    (∀ n vs, verifierLength? m.bytes = some n → vs.length ≤ paddedLength n.toNat →
      20 + vs.length ≤ m.bytes.length →
      verdict ((read x).run m) = verdict ((read x).run ({ m with position := 20 }.overwrite vs))) ∧
    (∀ y z, (verdict ((read x).run m)).1 = .error (.xidMismatch y z) ↔
      y = x ∧ wordAt m.bytes 0 = some z ∧ wordAt m.bytes 4 = some 1 ∧ z ≠ x) ∧
    ∀ e, (verdict ((read x).run m)).1 = .error e →
      (∃ z, e = .xidMismatch x z) ∨ ∃ problem, e = .malformedMessage problem := by
  simp only [verdict_read]
  refine ⟨fun hf outcome p => parse_eq_ok_iff_decode hf, ?_, ?_,
    fun y z => parse_eq_xidMismatch, ?_⟩
  · intro f vs hf hn
    obtain ⟨⟨-, hs⟩, hw⟩ := Option.ite_none_right_eq_some.1 hf
    have hv : 12 + vs.length ≤ 16 := by omega
    have hl : 12 + vs.length ≤ m.bytes.length := Nat.le_trans hv (le_of_wordAt hw)
    let b := { m with position := 12 }
    have hd (n : UInt32) (_ : wordAt b.bytes 16 = some n) : 12 + vs.length ≤ fieldEnd 20 n := by
      unfold fieldEnd
      omega
    exact (parse_overwrite (b := b) hl hs (.inl ⟨Nat.le_refl _, hv⟩) hd).symm
  · intro n vs hf hv hl
    obtain ⟨⟨-, hs⟩, hw⟩ := Option.ite_none_right_eq_some.1 hf
    let b := { m with position := 20 }
    have hd (k : UInt32) (hk : wordAt b.bytes 16 = some k) : 20 + vs.length ≤ fieldEnd 20 k := by
      obtain rfl := Option.some.inj (hw.symm.trans hk)
      unfold fieldEnd
      unfold paddedLength at hv
      omega
    exact (parse_overwrite (b := b) hl hs (.inr (Nat.le_refl _)) hd).symm
  · intro e h
    obtain hm | ⟨z, -, -, -, he⟩ := parse_eq_error h
    · exact .inr hm
    · exact .inl ⟨z, he⟩

end ReplyOutcome

end Nfs3.Rpc
