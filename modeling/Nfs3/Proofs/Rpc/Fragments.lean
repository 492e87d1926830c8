import Nfs3.Proofs.BigEndian
import Nfs3.Rpc.Record

/-!
The grammar of records on a stream, and reading by it. Complete fragments are taken one after
another as long as their payloads stay within the bound together; what stands behind them decides.
-/
namespace Nfs3.Rpc.Record

def header (last : Bool) (n : Nat) : Bytes :=
  BigEndian.encode 4 ((if last then lastMark else 0) + n)

def fragment (last : Bool) (payload : Bytes) : Bytes := header last payload.length ++ payload

/-- Complete fragments after which the record goes on. -/
def unfinished (payloads : List Bytes) : Bytes := payloads.flatMap (fragment false)

/-- The stream is one record within the bound, in any fragments, and then `rest`. -/
structure Holds (stream record rest : Bytes) : Prop where
  fragments : ∃ payloads final, record = payloads.flatten ++ final ∧
    stream = unfinished payloads ++ fragment true final ++ rest
  bounded : record.length ≤ maxLength

/-- Behind complete fragments with the payload `collected`, a header declares `n` bytes, and these
are too many with it. Behind the header is `rest`. -/
structure Overruns (stream : Bytes) (n : Nat) (collected rest : Bytes) : Prop where
  fragments : ∃ payloads last, (∀ p ∈ payloads, p.length ≤ maxFragment) ∧ n ≤ maxFragment ∧
    collected = payloads.flatten ∧ stream = unfinished payloads ++ header last n ++ rest
  tooLong : maxLength < collected.length + n

/-- The stream ends within a header, or before all the bytes that a header declared. -/
def EndsInside (stream : Bytes) : Prop :=
  ∃ payloads part, payloads.flatten.length ≤ maxLength ∧ stream = unfinished payloads ++ part ∧
    (part.length < 4 ∨ ∃ last n body, part = header last n ++ body ∧ body.length < n ∧
      payloads.flatten.length + n ≤ maxLength)

theorem maxLength_le_maxFragment : maxLength ≤ maxFragment := by decide

theorem length_le_maxFragment {payloads : List Bytes} (h : payloads.flatten.length ≤ maxLength)
    (p : Bytes) (hp : p ∈ payloads) : p.length ≤ maxFragment := by
  have hl : p.length ≤ payloads.flatten.length := (List.sublist_flatten_of_mem hp).length_le
  exact Nat.le_trans hl (Nat.le_trans h maxLength_le_maxFragment)

section Header
variable {last : Bool} {n : Nat}

theorem length_header (last : Bool) (n : Nat) : (header last n).length = 4 :=
  BigEndian.length_encode ..

theorem decode_header (h : n ≤ maxFragment) :
    BigEndian.decode (header last n) = (if last then lastMark else 0) + n := by
  refine BigEndian.decode_encode_of_lt ?_
  unfold maxFragment at h
  cases last <;> simp [lastMark] <;> omega

theorem decode_header_last (h : n ≤ maxFragment) :
    BigEndian.decode (header true n) % 2 ^ 31 = n ∧
      BigEndian.decode (header true n) / 2 ^ 31 = 1 := by
  rw [decode_header h, if_pos rfl]
  unfold maxFragment at h
  unfold lastMark
  omega

theorem exists_header {bs : Bytes} (h : bs.length = 4) :
    ∃ last n, n ≤ maxFragment ∧ bs = header last n := by
  have hlt : BigEndian.decode bs < 256 ^ 4 := by simpa [h] using BigEndian.decode_lt bs
  have he : bs = BigEndian.encode 4 (BigEndian.decode bs) := by rw [← h, BigEndian.encode_decode]
  by_cases hm : lastMark ≤ BigEndian.decode bs
  · refine ⟨true, BigEndian.decode bs - lastMark, ?_, ?_⟩
    · unfold lastMark at hm ⊢
      unfold maxFragment
      omega
    · rw [header, if_pos rfl, Nat.add_sub_cancel' hm]
      exact he
  · refine ⟨false, BigEndian.decode bs, ?_, ?_⟩
    · unfold lastMark at hm
      unfold maxFragment
      omega
    · rw [header, if_neg Bool.false_ne_true, Nat.zero_add]
      exact he

end Header

theorem unfinished_cons (p : Bytes) (payloads : List Bytes) :
    unfinished (p :: payloads) = fragment false p ++ unfinished payloads := List.flatMap_cons

theorem readFragment_header (last : Bool) {n : Nat} (h : n ≤ maxFragment) (record body : Bytes) :
    readFragment record (header last n ++ body) =
      if record.length + n > maxLength then .refused n record body
      else if (body.take n).length = n then
        .complete last (record ++ body.take n) (body.drop n)
      else .cut (record.length + n) := by
  have ht : (header last n ++ body).take 4 = header last n :=
    List.take_left' (length_header last n)
  have hd : (header last n ++ body).drop 4 = body := List.drop_left' (length_header last n)
  have hn : ((if last then lastMark else 0) + n) % lastMark = n ∧
      decide ((if last then lastMark else 0) + n ≥ lastMark) = last := by
    unfold maxFragment at h
    cases last <;> simp [lastMark] <;> omega
  unfold readFragment
  simp only [ht, hd, length_header, decode_header h, if_true, hn.1, hn.2]

theorem readFragment_short {record stream : Bytes} (h : stream.length < 4) :
    readFragment record stream = .cut record.length := by
  unfold readFragment
  rw [if_neg]
  rw [List.length_take]
  omega

theorem readFragment_fragment {last : Bool} {record payload rest : Bytes}
    (h : record.length + payload.length ≤ maxLength) :
    readFragment record (fragment last payload ++ rest) =
      .complete last (record ++ payload) rest := by
  have hp : payload.length ≤ maxFragment :=
    Nat.le_trans (Nat.le_of_add_left_le h) maxLength_le_maxFragment
  rw [fragment, List.append_assoc, readFragment_header last hp, if_neg (Nat.not_lt.2 h),
    List.take_left, List.drop_left, if_pos rfl]

/-- A stream starts with a fragment that fits, with a header that declares too much, or ends before
either is complete. -/
theorem readFragment_cases (record stream : Bytes) :
    (∃ last payload rest, record.length + payload.length ≤ maxLength ∧
      stream = fragment last payload ++ rest ∧
      readFragment record stream = .complete last (record ++ payload) rest) ∨
    (∃ last n rest, n ≤ maxFragment ∧ maxLength < record.length + n ∧
      stream = header last n ++ rest ∧ readFragment record stream = .refused n record rest) ∨
    ∃ grown, readFragment record stream = .cut grown ∧
      (stream.length < 4 ∨ ∃ last n body, stream = header last n ++ body ∧ body.length < n ∧
        record.length + n ≤ maxLength) := by
  by_cases h4 : stream.length < 4
  · exact .inr (.inr ⟨_, readFragment_short h4, .inl h4⟩)
  have hl : (stream.take 4).length = 4 := by
    rw [List.length_take]
    omega
  obtain ⟨last, n, hn, he⟩ := exists_header hl
  have hs : stream = header last n ++ stream.drop 4 := by rw [← he, List.take_append_drop]
  generalize stream.drop 4 = body at hs
  subst hs
  have hf := readFragment_header last hn record body
  by_cases ht : record.length + n > maxLength
  · rw [if_pos ht] at hf
    exact .inr (.inl ⟨last, n, body, hn, ht, rfl, hf⟩)
  rw [if_neg ht] at hf
  by_cases hb : (body.take n).length = n
  · rw [if_pos hb] at hf
    refine .inl ⟨last, body.take n, body.drop n, by omega, ?_, hf⟩
    rw [fragment, hb, List.append_assoc, List.take_append_drop]
  · rw [if_neg hb] at hf
    rw [List.length_take] at hb
    exact .inr (.inr ⟨_, hf, .inr ⟨last, n, body, rfl, by omega, by omega⟩⟩)

theorem readOnto_unfinished {record : Bytes} {payloads : List Bytes} (stream : Bytes)
    (h : (record ++ payloads.flatten).length ≤ maxLength) :
    readOnto record (unfinished payloads ++ stream) =
      readOnto (record ++ payloads.flatten) stream := by
  induction payloads generalizing record with
  | nil => simp [unfinished]
  | cons p payloads ih =>
    rw [List.flatten_cons, ← List.append_assoc] at h
    have hp : record.length + p.length ≤ maxLength := by
      simp only [List.length_append] at h
      omega
    rw [unfinished_cons, List.append_assoc, readOnto, readFragment_fragment hp]
    simp only
    rw [ih h, List.flatten_cons, List.append_assoc]

theorem readOnto_of_refused {record stream collected rest : Bytes} {n : Nat}
    (h : readFragment record stream = .refused n collected rest) :
    readOnto record stream = .refused n collected rest := by
  rw [readOnto, h]

theorem readOnto_of_cut {record stream : Bytes} {grown : Nat}
    (h : readFragment record stream = .cut grown) : readOnto record stream = .cut grown := by
  rw [readOnto, h]

theorem readOnto_of_last {record stream record' rest : Bytes}
    (h : readFragment record stream = .complete true record' rest) :
    readOnto record stream = .complete record' rest := by
  rw [readOnto, h]

theorem Holds.read {stream record rest : Bytes} (h : Holds stream record rest) :
    read stream = .complete record rest := by
  obtain ⟨⟨payloads, final, rfl, rfl⟩, hb⟩ := h
  have hl : payloads.flatten.length + final.length ≤ maxLength := by
    rwa [← List.length_append]
  have hp : ([] ++ payloads.flatten : Bytes).length ≤ maxLength := by
    rw [List.nil_append]
    omega
  rw [Record.read, List.append_assoc, readOnto_unfinished _ hp, List.nil_append]
  exact readOnto_of_last (readFragment_fragment hl)

theorem Overruns.read {stream collected rest : Bytes} {n : Nat}
    (h : Overruns stream n collected rest) (hc : collected.length ≤ maxLength) :
    read stream = .refused n collected rest := by
  obtain ⟨⟨payloads, last, -, hn, rfl, rfl⟩, hl⟩ := h
  have hf := readFragment_header last hn payloads.flatten rest
  rw [if_pos hl] at hf
  rw [Record.read, List.append_assoc, readOnto_unfinished _ (by simpa using hc), List.nil_append]
  exact readOnto_of_refused hf

/-- If the payloads before a header are too many themselves, one of their own headers is the first
that declares too much. -/
theorem Overruns.earliest {stream collected rest : Bytes} {n : Nat}
    (h : Overruns stream n collected rest) : ∃ n' collected' rest',
      Overruns stream n' collected' rest' ∧ collected'.length ≤ maxLength := by
  obtain ⟨⟨payloads, last, hp, hn, rfl, rfl⟩, hl⟩ := h
  induction payloads using List.reverseRecOn generalizing n last rest with
  | nil => exact ⟨n, [], rest, ⟨⟨[], last, hp, hn, rfl, rfl⟩, hl⟩, Nat.zero_le _⟩
  | append_singleton payloads p ih =>
    by_cases hc : (payloads ++ [p]).flatten.length ≤ maxLength
    · exact ⟨n, _, rest, ⟨⟨_, last, hp, hn, rfl, rfl⟩, hl⟩, hc⟩
    · have hs : unfinished (payloads ++ [p]) ++ header last n ++ rest =
          unfinished payloads ++ header false p.length ++ (p ++ (header last n ++ rest)) := by
        simp [unfinished, fragment]
      rw [hs]
      refine ih false (fun q hq => hp q (by simp [hq])) (hp p (by simp)) ?_
      simp only [List.flatten_append, List.flatten_singleton, List.length_append] at hc
      omega

theorem EndsInside.read {stream : Bytes} (h : EndsInside stream) :
    ∃ grown, read stream = .cut grown := by
  obtain ⟨payloads, part, hp, rfl, hpart⟩ := h
  rw [Record.read, readOnto_unfinished _ (by simpa using hp), List.nil_append]
  obtain hs | ⟨last, n, body, rfl, hb, hl⟩ := hpart
  · exact ⟨_, readOnto_of_cut (readFragment_short hs)⟩
  · have hn : n ≤ maxFragment := Nat.le_trans (Nat.le_of_add_left_le hl) maxLength_le_maxFragment
    have hf := readFragment_header last hn payloads.flatten body
    have ht : ¬ (body.take n).length = n := by
      rw [List.length_take]
      omega
    rw [if_neg (Nat.not_lt.2 hl), if_neg ht] at hf
    exact ⟨_, readOnto_of_cut hf⟩

theorem unfinished_cases (payloads : List Bytes) (stream : Bytes)
    (hp : payloads.flatten.length ≤ maxLength) :
    (∃ record rest, Holds (unfinished payloads ++ stream) record rest) ∨
    (∃ n collected rest, Overruns (unfinished payloads ++ stream) n collected rest) ∨
    EndsInside (unfinished payloads ++ stream) := by
  induction stream using WellFounded.induction (measure List.length).wf generalizing payloads with
  | _ stream ih =>
    obtain ⟨last, payload, rest, hl, rfl, hf⟩ | ⟨last, n, rest, hn, hl, rfl, -⟩ | ⟨_, -, hpart⟩ :=
      readFragment_cases payloads.flatten stream
    · cases last with
      | true =>
        refine .inl ⟨_, rest, ⟨payloads, payload, rfl, (List.append_assoc ..).symm⟩, ?_⟩
        rwa [List.length_append]
      | false =>
        have hs : unfinished payloads ++ (fragment false payload ++ rest) =
            unfinished (payloads ++ [payload]) ++ rest := by
          simp [unfinished]
        have hp' : (payloads ++ [payload]).flatten.length ≤ maxLength := by simpa using hl
        rw [hs]
        exact ih rest (length_rest_lt hf) _ hp'
    · exact .inr (.inl ⟨n, _, rest, ⟨payloads, last, length_le_maxFragment hp, hn, rfl,
        (List.append_assoc ..).symm⟩, hl⟩)
    · exact .inr (.inr ⟨payloads, stream, hp, rfl, hpart⟩)

/-- What reading comes to, and why. -/
theorem read_cases (stream : Bytes) :
    (∃ record rest, read stream = .complete record rest ∧ Holds stream record rest) ∨
    (∃ n collected rest, read stream = .refused n collected rest ∧
      Overruns stream n collected rest ∧ collected.length ≤ maxLength) ∨
    ∃ grown, read stream = .cut grown ∧ EndsInside stream := by
  obtain ⟨record, rest, h⟩ | ⟨_, _, _, h⟩ | h := unfinished_cases [] stream (Nat.zero_le _)
  · exact .inl ⟨record, rest, h.read, h⟩
  · obtain ⟨n, collected, rest, h', hc⟩ := h.earliest
    exact .inr (.inl ⟨n, collected, rest, h'.read hc, h', hc⟩)
  · obtain ⟨grown, hr⟩ := EndsInside.read h
    exact .inr (.inr ⟨grown, hr, h⟩)

theorem read_eq_complete {stream record rest : Bytes} :
    read stream = .complete record rest ↔ Holds stream record rest := by
  refine ⟨fun h => ?_, Holds.read⟩
  obtain ⟨_, _, hr, hh⟩ | ⟨_, _, _, hr, -⟩ | ⟨_, hr, -⟩ := read_cases stream
  all_goals
    rw [h] at hr
    cases hr
  exact hh

theorem read_eq_refused {stream collected rest : Bytes} {n : Nat} :
    read stream = .refused n collected rest ↔
      Overruns stream n collected rest ∧ collected.length ≤ maxLength := by
  refine ⟨fun h => ?_, fun h => h.1.read h.2⟩
  obtain ⟨_, _, hr, -⟩ | ⟨_, _, _, hr, hh⟩ | ⟨_, hr, -⟩ := read_cases stream
  all_goals
    rw [h] at hr
    cases hr
  exact hh

theorem read_eq_cut {stream : Bytes} : (∃ grown, read stream = .cut grown) ↔ EndsInside stream := by
  refine ⟨fun h => ?_, EndsInside.read⟩
  obtain ⟨_, h⟩ := h
  obtain ⟨_, _, hr, -⟩ | ⟨_, _, _, hr, -⟩ | ⟨_, -, hh⟩ := read_cases stream
  · rw [h] at hr
    cases hr
  · rw [h] at hr
    cases hr
  · exact hh

namespace RecordRead

def Fails (r : RecordRead) (kind : FailureKind) : Prop :=
  ∃ fault, r.result = .error fault ∧ fault.failure.kind = kind

theorem fails_invalidData {r : RecordRead} :
    r.Fails .invalidData ↔ ∃ n collected rest, r = .refused n collected rest := by
  cases r <;> simp [Fails, result, Fault.failure]

theorem fails_unexpectedEof {r : RecordRead} :
    r.Fails .unexpectedEof ↔ ∃ grown, r = .cut grown := by
  cases r <;> simp [Fails, result, Fault.failure]

end RecordRead

/-- Reading takes exactly the records of the grammar that stay within the bound. It fails for their
length exactly when a header that is reached over complete fragments declares too much; the record
is then what those fragments hold, and nothing behind that header is read. In all other cases the
stream ends within a header or a payload, and that is the failure. -/
theorem read_grammar (stream : Bytes) :
    (∀ record rest, read stream = .complete record rest ↔ Holds stream record rest) ∧
    ((read stream).Fails .invalidData ↔ ∃ n collected rest, Overruns stream n collected rest) ∧
    (∀ n collected rest, read stream = .refused n collected rest ↔
      Overruns stream n collected rest ∧ collected.length ≤ maxLength) ∧
    ((read stream).Fails .unexpectedEof ↔ EndsInside stream) ∧
    (EndsInside stream ↔ (¬ ∃ record rest, Holds stream record rest) ∧
      ¬ ∃ n collected rest, Overruns stream n collected rest) := by
  have hrefused : (∃ n collected rest, read stream = .refused n collected rest) ↔
      ∃ n collected rest, Overruns stream n collected rest := by
    constructor
    · intro h
      obtain ⟨n, collected, rest, h⟩ := h
      exact ⟨n, collected, rest, (read_eq_refused.1 h).1⟩
    · intro h
      obtain ⟨_, _, _, h⟩ := h
      obtain ⟨n, collected, rest, h', hc⟩ := h.earliest
      exact ⟨n, collected, rest, h'.read hc⟩
  refine ⟨fun _ _ => read_eq_complete, RecordRead.fails_invalidData.trans hrefused,
    fun _ _ _ => read_eq_refused, RecordRead.fails_unexpectedEof.trans read_eq_cut, ?_⟩
  simp only [← read_eq_complete, ← read_eq_cut, ← hrefused]
  cases read stream <;> simp

/-- Two fragments make up the record, the first of them empty; a byte is left. -/
example : read [0, 0, 0, 0, 0x80, 0, 0, 1, 0x61, 0x62] = .complete [0x61] [0x62] := by
  cbv

end Nfs3.Rpc.Record
