import Nfs3.Proofs.Wire.Catalogue

/-!
What a reader accepts. Every byte string it takes for a value is the written form of that value,
save for what stands in the padding.
-/
namespace Nfs3
open Wire

namespace Wire.Image
variable {i : Image} {bs : Bytes}

theorem getElem?_bytes_of_padding {k : Nat} (h : i[k]? = some Octet.padding) :
    i.bytes[k]? = some 0 := by
  simp [bytes, h, Octet.byte]

theorem Matches.getElem?_eq (h : i.Matches bs) {k : Nat} (hk : i[k]? ≠ some Octet.padding) :
    i.bytes[k]? = bs[k]? := by
  induction i generalizing bs k with
  | nil =>
    obtain rfl := matches_nil.1 h
    rfl
  | cons o i ih =>
    cases bs with
    | nil => exact h.elim
    | cons b bs =>
      cases k with
      | zero =>
        cases o with
        | content c => exact congrArg some h.1
        | padding => exact (hk rfl).elim
      | succ k => exact ih h.2 hk

end Wire.Image

namespace Exchange

/-- A reader of any type takes exactly the written forms of the well-formed values, up to padding.
What it took for a value can be written again, in as many bytes, which are the same wherever no
field is padded and zero where one is. -/
theorem decode_canonical {name : TypeName} {t : WireType} (ht : name.type? = some t)
    (bs rest : Bytes) (v : t.Value) :
    (t.codec.decode bs = .ok v rest ↔
      t.wellFormed v ∧ ∃ used, (t.codec.write v).image.Matches used ∧ bs = used ++ rest) ∧
    (t.codec.decode bs = .ok v rest →
      t.wellFormed v ∧ (t.codec.write v).fault = none ∧
      (t.codec.encode v).length + rest.length = bs.length ∧
      (∀ k : Nat, k < (t.codec.encode v).length →
        (t.codec.write v).image[k]? ≠ some Octet.padding → (t.codec.encode v)[k]? = bs[k]?) ∧
      ∀ k : Nat, (t.codec.write v).image[k]? = some Octet.padding →
        (t.codec.encode v)[k]? = some 0) ∧
    ∀ b b' : MessageBuffer, (MessageBuffer.fetch t.codec).run b = .ok v b' ↔
      ∃ left, t.codec.decode (b.bytes.drop b.position) = .ok v left ∧ b' = b.leave left := by
  have hl : t.codec.Lawful t.wellFormed := TypeName.lawful ht
  refine ⟨hl.read_iff, fun h => ?_, fun b b' => MessageBuffer.fetch_eq_ok_iff⟩
  obtain ⟨hv, used, hm, rfl⟩ := hl.read_iff.1 h
  have hn : (t.codec.encode v).length = used.length := by
    rw [hm.length_eq]
    exact Image.length_bytes _
  refine ⟨hv, hl.complete hv, ?_, fun k hk hp => ?_, fun _ => Image.getElem?_bytes_of_padding⟩
  · rw [hn, List.length_append]
  · rw [hn] at hk
    rw [List.getElem?_append_left hk]
    exact hm.getElem?_eq hp

/-- A root handle of five bytes, padded with other bytes than zeros. -/
def untidyMounted : Bytes :=
  [0, 0, 0, 0, 0, 0, 0, 5, 1, 2, 3, 4, 5, 7, 7, 7, 0, 0, 0, 1, 0, 0, 0, 1]

def tidiedMounted : MountReply := .ok ⟨[1, 2, 3, 4, 5], [1]⟩

theorem decode_canonical_untidyMounted :
    (TypeName.published "mountres3").type? = some (.of MountReply.codec MountReply.WellFormed) ∧
    MountReply.codec.decode (untidyMounted ++ [9]) = .ok tidiedMounted [9] ∧
    tidiedMounted.WellFormed ∧
    MountReply.codec.encode tidiedMounted =
      [0, 0, 0, 0, 0, 0, 0, 5, 1, 2, 3, 4, 5, 0, 0, 0, 0, 0, 0, 1, 0, 0, 0, 1] := by
  have hd : MountReply.codec.decode (untidyMounted ++ [9]) = .ok tidiedMounted [9] := rfl
  have h := @decode_canonical (.published "mountres3")
    (.of MountReply.codec MountReply.WellFormed) rfl (untidyMounted ++ [9]) [9] tidiedMounted
  exact ⟨rfl, hd, (h.2.1 hd).1, rfl⟩

end Exchange
end Nfs3
