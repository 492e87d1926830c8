import Nfs3.Proofs.Rpc.Fragments

/-!
Records written to a stream and read from it again. What is written for a record is one fragment, so
reading gives it back unless it is longer than readers take.
-/
namespace Nfs3.Rpc.Record

theorem run_sendAll (segments : List Bytes) (sent : Bytes) :
    (segments.forM send).run sent = .ok () (sent ++ segments.flatten) := by
  induction segments generalizing sent with
  | nil => simp [EStateM.run_pure]
  | cons s segments ih =>
    have hs : (send s).run sent = .ok () (sent ++ s) := rfl
    change (send s >>= fun _ => segments.forM send).run sent = _
    rw [EStateM.run_bind, hs]
    simp only
    rw [ih, List.flatten_cons, List.append_assoc]

theorem run_write {segments : List Bytes} (h : segments.flatten.length ≤ maxFragment)
    (sent : Bytes) :
    (write segments).run sent = .ok () (sent ++ fragment true segments.flatten) := by
  have hs : (send (header true segments.flatten.length)).run sent =
      .ok () (sent ++ header true segments.flatten.length) := rfl
  unfold write
  simp only [segmentsLength_eq]
  rw [if_neg (Nat.not_lt.2 h)]
  rw [header, if_pos rfl] at hs
  rw [EStateM.run_bind, hs]
  simp only
  rw [run_sendAll, fragment, header, if_pos rfl, List.append_assoc]

theorem run_write_of_long {segments : List Bytes} (h : maxFragment < segments.flatten.length)
    (sent : Bytes) :
    (write segments).run sent = .error (.noSuchFragment segments.flatten.length) sent := by
  unfold write
  simp only [segmentsLength_eq]
  rw [if_pos h]
  rfl

/-- These records can be read off a stream one after another, and then `rest` is left. -/
inductive Reads : Bytes → List Bytes → Bytes → Prop where
  | stop (rest : Bytes) : Reads rest [] rest
  | next {stream record stream' rest : Bytes} {records : List Bytes} :
    read stream = .complete record stream' → Reads stream' records rest →
    Reads stream (record :: records) rest

theorem Reads.readAll_eq {stream rest : Bytes} {records : List Bytes}
    (h : Reads stream records rest) :
    readAll stream = (records ++ (readAll rest).1, (readAll rest).2) := by
  induction h with
  | stop rest => rfl
  | next hr _ ih =>
    rw [readAll, hr]
    simp only [ih, List.cons_append]

theorem readAll_nil : readAll [] = ([], .endOfStream) := by
  have hr : ∃ grown, read [] = .cut grown :=
    EndsInside.read ⟨[], [], Nat.zero_le _, rfl, .inl (by decide)⟩
  obtain ⟨grown, hr⟩ := hr
  rw [readAll, hr]

def streamOf (records : List (List Bytes)) : Bytes :=
  records.flatMap fun segments => fragment true segments.flatten

theorem streamOf_cons (segments : List Bytes) (records : List (List Bytes)) :
    streamOf (segments :: records) = fragment true segments.flatten ++ streamOf records :=
  List.flatMap_cons

theorem run_writeAll {records : List (List Bytes)}
    (h : ∀ segments ∈ records, segments.flatten.length ≤ maxFragment) (sent : Bytes) :
    (records.forM write).run sent = .ok () (sent ++ streamOf records) := by
  induction records generalizing sent with
  | nil => simp [EStateM.run_pure, streamOf]
  | cons segments records ih =>
    obtain ⟨hs, hr⟩ := List.forall_mem_cons.1 h
    change (write segments >>= fun _ => records.forM write).run sent = _
    rw [EStateM.run_bind, run_write hs]
    simp only
    rw [ih hr, streamOf_cons, List.append_assoc]

theorem read_fragment {record : Bytes} (h : record.length ≤ maxLength) (rest : Bytes) :
    read (fragment true record ++ rest) = .complete record rest :=
  read_eq_complete.2 ⟨⟨[], record, rfl, rfl⟩, h⟩

theorem reads_streamOf {records : List (List Bytes)}
    (h : ∀ segments ∈ records, segments.flatten.length ≤ maxLength) (rest : Bytes) :
    Reads (streamOf records ++ rest) (records.map List.flatten) rest := by
  induction records with
  | nil => exact .stop rest
  | cons segments records ih =>
    obtain ⟨hs, hr⟩ := List.forall_mem_cons.1 h
    rw [streamOf_cons, List.append_assoc]
    exact .next (read_fragment hs _) (ih hr)

theorem read_fragment_of_long {record : Bytes} (h : maxLength < record.length)
    (hf : record.length ≤ maxFragment) (rest : Bytes) :
    read (fragment true record ++ rest) = .refused record.length [] (record ++ rest) := by
  refine read_eq_refused.2 ⟨⟨⟨[], true, List.forall_mem_nil _, hf, rfl, ?_⟩, ?_⟩, Nat.zero_le _⟩
  · rw [fragment, unfinished, List.flatMap_nil, List.nil_append, List.append_assoc]
  · rwa [List.length_nil, Nat.zero_add]

/-- Records that readers take are read as they were written, in order, with nothing left over. Any
other record is refused by the reader for the length in its header, which has the mark of the last
fragment above it, or before anything of it is written. -/
theorem write_then_read (records : List (List Bytes)) (sent rest : Bytes) :
    ((∀ segments ∈ records, segments.flatten.length ≤ maxLength) → ∃ stream,
      (records.forM write).run sent = .ok () (sent ++ stream) ∧
      Reads stream (records.map List.flatten) [] ∧
      Reads (stream ++ rest) (records.map List.flatten) rest ∧
      readAll stream = (records.map List.flatten, .endOfStream)) ∧
    ∀ segments : List Bytes,
      (maxLength < segments.flatten.length → segments.flatten.length ≤ maxFragment →
        ∃ word : Bytes, word.length = 4 ∧
          (write segments).run sent = .ok () (sent ++ word ++ segments.flatten) ∧
          BigEndian.decode word % 2 ^ 31 = segments.flatten.length ∧
          BigEndian.decode word / 2 ^ 31 = 1 ∧
          read (word ++ segments.flatten ++ rest) =
            .refused segments.flatten.length [] (segments.flatten ++ rest)) ∧
      (maxFragment < segments.flatten.length → ∃ fault : Fault,
        (write segments).run sent = .error fault sent ∧ fault.failure.kind = .invalidInput) := by
  refine ⟨fun h => ?_, fun segments => ⟨fun hl hf => ?_, fun hl => ?_⟩⟩
  · have hf : ∀ segments ∈ records, segments.flatten.length ≤ maxFragment :=
      fun segments hs => Nat.le_trans (h segments hs) maxLength_le_maxFragment
    have hr : Reads (streamOf records) (records.map List.flatten) [] := by
      simpa using reads_streamOf h []
    refine ⟨streamOf records, run_writeAll hf sent, hr, reads_streamOf h rest, ?_⟩
    rw [hr.readAll_eq, readAll_nil, List.append_nil]
  · obtain ⟨hlength, hmark⟩ := decode_header_last hf
    refine ⟨header true segments.flatten.length, length_header _ _, ?_, hlength, hmark,
      read_fragment_of_long hl hf rest⟩
    rw [run_write hf, fragment, List.append_assoc]
  · exact ⟨_, run_write_of_long hl sent, rfl⟩

theorem write_then_read_threeRecords : ∃ stream,
    ([[[0x61, 0x62], [], [0x63]], [], [[0x64]]].forM write).run [] = .ok () stream ∧
    Reads stream [[0x61, 0x62, 0x63], [], [0x64]] [] ∧
    (∃ word, (write [List.replicate (2 ^ 30) 0]).run stream =
      .ok () (stream ++ word ++ List.replicate (2 ^ 30) 0) ∧ BigEndian.decode word / 2 ^ 31 = 1) ∧
    ∃ fault : Fault, (write [List.replicate (2 ^ 31) 0]).run stream = .error fault stream ∧
      fault.failure.kind = .invalidInput := by
  obtain ⟨h, -⟩ := write_then_read [[[0x61, 0x62], [], [0x63]], [], [[0x64]]] [] []
  obtain ⟨stream, hw, hr, -, -⟩ := h (by decide)
  obtain ⟨-, hrefused⟩ := write_then_read [] stream []
  have hlength (n : Nat) : ([List.replicate n 0] : List Bytes).flatten.length = n := by simp
  refine ⟨stream, hw, hr, ?_, (hrefused [List.replicate (2 ^ 31) 0]).2 ?_⟩
  · obtain ⟨word, -, hw, -, hm, -⟩ := (hrefused [List.replicate (2 ^ 30) 0]).1
      (by rw [hlength]; decide) (by rw [hlength]; decide)
    rw [List.flatten_singleton] at hw
    exact ⟨word, hw, hm⟩
  · rw [hlength]
    decide

end Nfs3.Rpc.Record
