import Nfs3.Proofs.Rpc.CallForm

/-!
What of a user goes into a call. Groups and host name are cut to what the flavor allows, and what is
left has a written form whose length is known before it is written.
-/
namespace Nfs3.Rpc
open Wire

/-- The longest start of a text that has at most `n` bytes and ends where a character does. -/
structure LongestStart (n : Nat) (text start : String) : Prop where
  isStart : ∃ rest, text = start ++ rest
  size_le : start.utf8ByteSize ≤ n
  longest {p : String.Pos.Raw} : p.IsValid text → p.byteIdx ≤ n → p.byteIdx ≤ start.utf8ByteSize

theorem LongestStart.eq_of_size_le {n : Nat} {text start : String}
    (h : LongestStart n text start) (hn : text.utf8ByteSize ≤ n) : start = text := by
  obtain ⟨rest, rfl⟩ := h.isStart
  have hl := h.longest String.Pos.Raw.isValid_rawEndPos hn
  rw [String.byteIdx_rawEndPos, String.utf8ByteSize_append] at hl
  have hr : rest = "" := String.utf8ByteSize_eq_zero_iff.1 (by omega)
  rw [hr, String.append_empty]

theorem takeUtf8_prefix (n : Nat) (cs : List Char) : takeUtf8 n cs <+: cs := by
  induction cs generalizing n with
  | nil => exact List.prefix_rfl
  | cons c cs ih =>
    unfold takeUtf8
    split
    · exact (List.prefix_cons_inj c).2 (ih _)
    · exact List.nil_prefix

theorem prefix_takeUtf8 {n : Nat} {cs ds : List Char} (h : ds <+: cs)
    (hn : (String.ofList ds).utf8ByteSize ≤ n) : ds <+: takeUtf8 n cs := by
  induction ds generalizing n cs with
  | nil => exact List.nil_prefix
  | cons d ds ih =>
    obtain ⟨rest, rfl⟩ := h
    rw [String.ofList_cons, String.utf8ByteSize_append, String.utf8ByteSize_singleton] at hn
    have hd : d.utf8Size ≤ n := by omega
    rw [List.cons_append, takeUtf8, if_pos hd]
    exact (List.prefix_cons_inj d).2 (ih (List.prefix_append ds rest) (by omega))

theorem utf8ByteSize_le_of_prefix {cs ds : List Char} (h : ds <+: cs) :
    (String.ofList ds).utf8ByteSize ≤ (String.ofList cs).utf8ByteSize := by
  obtain ⟨rest, rfl⟩ := h
  rw [String.ofList_append, String.utf8ByteSize_append]
  exact Nat.le_add_right _ _

theorem longestStart_takeUtf8 (n : Nat) (text : String) :
    LongestStart n text (String.ofList (takeUtf8 n text.toList)) where
  isStart := by
    obtain ⟨rest, hr⟩ := takeUtf8_prefix n text.toList
    refine ⟨String.ofList rest, ?_⟩
    rw [← String.ofList_append, hr, String.ofList_toList]
  size_le := utf8ByteSize_takeUtf8 n text.toList
  longest {p} hp hn := by
    obtain ⟨i, hi⟩ := String.Pos.Raw.isValid_iff_exists_take_toList.1 hp
    rw [hi] at hn ⊢
    exact utf8ByteSize_le_of_prefix (prefix_takeUtf8 (List.take_prefix i _) hn)

namespace UnixCredential
variable (uid gid : UInt32) (gids : List UInt32) (name : String)

theorem wellFormed_body (stamp : UInt32) :
    ((ofParts uid gid gids name).body stamp).WellFormed := by
  have hn := utf8ByteSize_takeUtf8 maxMachineName name.toList
  have hg : (gids.take maxGids).length ≤ maxGids := List.length_take_le ..
  constructor
  · exact Nat.le_trans hn (by decide)
  · exact Nat.le_trans hg (by decide)

theorem bodyLength_le : (Credential.unix (ofParts uid gid gids name)).bodyLength ≤ 340 := by
  have hn : (ofParts uid gid gids name).machineName.utf8ByteSize ≤ 255 :=
    utf8ByteSize_takeUtf8 maxMachineName name.toList
  have hg : (ofParts uid gid gids name).gids.length ≤ 16 := List.length_take_le ..
  simp only [Credential.bodyLength, paddedLength, padLength]
  omega

theorem bodyLength_mod (user : UnixCredential) : (Credential.unix user).bodyLength % 4 = 0 := by
  have hp := add_padLength_mod user.machineName.utf8ByteSize
  simp only [Credential.bodyLength, paddedLength]
  omega

/-- Of a user are kept the first sixteen groups and the longest start of the host name within 255
bytes, and the whole of it if it fits. That always has a written form, as long as announced and in
whole words, from which a reader gets back all that was kept, whenever it is written. -/
theorem ofParts_reads_back (stamp : UInt32) :
    LongestStart 255 name (ofParts uid gid gids name).machineName ∧
    let user := ofParts uid gid gids name
    let written := UnixBody.codec.write (user.body stamp)
    user.uid = uid ∧ user.gid = gid ∧ user.gids = gids.take (min 16 gids.length) ∧
    (name.utf8ByteSize ≤ 255 → user.machineName = name) ∧
    written.fault = none ∧ (Credential.unix user).body stamp = written.bytes ∧
    written.bytes.length = (Credential.unix user).bodyLength ∧
    written.bytes.length ≤ 340 ∧ written.bytes.length % 4 = 0 ∧
    UnixBody.codec.decode written.bytes =
      .ok ⟨stamp, Text.toUtf8 user.machineName, uid, gid, user.gids⟩ [] := by
  let user := ofParts uid gid gids name
  let written := UnixBody.codec.write (user.body stamp)
  have hw : (user.body stamp).WellFormed := wellFormed_body uid gid gids name stamp
  have hstart : LongestStart 255 name user.machineName :=
    longestStart_takeUtf8 maxMachineName name
  have hgids : user.gids = gids.take (min 16 gids.length) := List.take_eq_take_min
  have hle := bodyLength_le uid gid gids name
  have hmod := bodyLength_mod user
  have hlength : written.bytes.length = (Credential.unix user).bodyLength :=
    Credential.length_body_eq (Nat.le_trans hle (by decide)) stamp
  refine ⟨hstart, rfl, rfl, hgids, hstart.eq_of_size_le, UnixBody.lawful.complete hw, rfl, hlength,
    ?_, ?_, UnixBody.lawful.decode_encode.2 hw⟩
  · rw [hlength]
    exact hle
  · rw [hlength]
    exact hmod

end UnixCredential
end Nfs3.Rpc
