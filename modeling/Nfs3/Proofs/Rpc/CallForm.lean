import Nfs3.Proofs.Wire.FieldForms
import Nfs3.Proofs.Wire.Message
import Nfs3.Rpc.Call

/-!
The head of a call wherever it is written. At a cursor on a word, padding measured from the start of
the message is padding measured from the field, so that what is marshalled is the written form of
the call as a message.
-/
namespace Nfs3
open Wire Rpc MessageBuffer
variable {α β : Type}

namespace Wire.Codec

theorem length_encode_words {ws : List UInt32} (h : ws.length ≤ maxLength) :
    (Codec.word.array.encode ws).length = 4 + 4 * ws.length := by
  have hitems (ws : List UInt32) : (writeAll Codec.word.write ws).bytes.length = 4 * ws.length := by
    induction ws with
    | nil => rfl
    | cons w ws ih =>
      have hw : (Codec.word.write w ++ writeAll Codec.word.write ws).image =
          (Codec.word.write w).image ++ (writeAll Codec.word.write ws).image :=
        Output.image_append rfl
      have hl := length_encode_word w
      simp only [Codec.encode, Output.bytes, Image.length_bytes] at ih hl ⊢
      rw [writeAll, hw, List.length_append, hl, ih, List.length_cons]
      omega
  have hw : (Codec.lengthWord.write ws.length ++ writeAll Codec.word.write ws).image =
      (Codec.lengthWord.write ws.length).image ++ (writeAll Codec.word.write ws).image :=
    Output.image_append (Lawful.lengthWord.complete h)
  have hl := length_encode_word (UInt32.ofNat ws.length)
  have hi := hitems ws
  simp only [Codec.encode, Output.bytes, Image.length_bytes] at hl hi ⊢
  change (Codec.lengthWord.write ws.length ++ writeAll Codec.word.write ws).image.length = _
  rw [hw, List.length_append, Lawful.lengthWord_write h, hl, hi]

end Wire.Codec

namespace MessageBuffer

/-- The cursor of an open buffer stands on a word within the bytes or at their end. -/
structure OnWord (b : MessageBuffer) : Prop where
  wellFormed : b.WellFormed
  isOpen : b.isSealed = false
  aligned : b.position % 4 = 0

theorem OnWord.overwrite {b : MessageBuffer} (h : b.OnWord) {vs : Bytes}
    (hv : vs.length % 4 = 0) : (b.overwrite vs).OnWord where
  wellFormed := (Grows.overwrite h.isOpen vs).wellFormed h.wellFormed
  isOpen := h.isOpen
  aligned := by
    have ha := h.aligned
    simp only [MessageBuffer.overwrite]
    omega

/-- Writes just these bytes, in whole words, at any cursor on a word. -/
structure Lays (t : Buffered Unit) (vs : Bytes) : Prop where
  aligned : vs.length % 4 = 0
  run {b : MessageBuffer} : b.OnWord → t.run b = .ok () (b.overwrite vs)

namespace Lays

theorem bind {t : Buffered Unit} {u : Unit → Buffered Unit} {vs ws : Bytes} (ht : Lays t vs)
    (hu : Lays (u ()) ws) : Lays (t >>= u) (vs ++ ws) where
  aligned := by
    have hv := ht.aligned
    have hw := hu.aligned
    rw [List.length_append]
    omega
  run {b} h := by
    rw [EStateM.run_bind, ht.run h]
    simp only
    rw [hu.run (h.overwrite ht.aligned), overwrite_overwrite]

theorem put {c : Codec α} {ok : α → Prop} (hc : c.Lawful ok) {v : α} (hv : ok v) :
    Lays (put c v) (c.encode v) where
  aligned := by
    rw [Codec.encode, Output.bytes, Image.length_bytes]
    exact hc.aligned hv
  run h := run_put_of_open h.isOpen (hc.complete hv)

theorem putOpaque {bs : Bytes} (hl : bs.length ≤ maxLength) :
    Lays (putOpaque bs) (Codec.bytes.encode bs) where
  aligned := (put Codec.Lawful.bytes hl).aligned
  run h := by rw [run_putOpaque h.wellFormed h.isOpen hl, fieldAt_of_aligned h.aligned hl]

end Lays
end MessageBuffer

namespace Rpc

theorem AuthField.encode_eq (v : AuthField) : AuthField.codec.encode v =
    AuthFlavor.codec.encode v.flavor ++ Codec.bytes.encode v.body :=
  Codec.encode_pair (AuthFlavor.lawful.complete trivial)

theorem CallBody.encode_eq (v : CallBody) (h : v.credential.WellFormed) :
    CallBody.codec.encode v = Codec.word.encode v.rpcVersion ++ (Codec.word.encode v.program ++
      (Codec.word.encode v.version ++ (Codec.word.encode v.procedure ++
      (AuthField.codec.encode v.credential ++ AuthField.codec.encode v.verifier)))) := by
  let fields := AuthField.codec.pair AuthField.codec
  let fromProcedure := Codec.word.pair fields
  let fromVersion := Codec.word.pair fromProcedure
  let fromProgram := Codec.word.pair fromVersion
  have h₁ : CallBody.codec.encode v = Codec.word.encode v.rpcVersion ++ fromProgram.encode
    (v.program, v.version, v.procedure, v.credential, v.verifier) := Codec.encode_pair rfl
  have h₂ : fromProgram.encode (v.program, v.version, v.procedure, v.credential, v.verifier) =
    Codec.word.encode v.program ++ fromVersion.encode
      (v.version, v.procedure, v.credential, v.verifier) := Codec.encode_pair rfl
  have h₃ : fromVersion.encode (v.version, v.procedure, v.credential, v.verifier) =
    Codec.word.encode v.version ++ fromProcedure.encode
      (v.procedure, v.credential, v.verifier) := Codec.encode_pair rfl
  have h₄ : fromProcedure.encode (v.procedure, v.credential, v.verifier) =
    Codec.word.encode v.procedure ++ fields.encode (v.credential, v.verifier) :=
      Codec.encode_pair rfl
  have h₅ : fields.encode (v.credential, v.verifier) =
    AuthField.codec.encode v.credential ++ AuthField.codec.encode v.verifier :=
      Codec.encode_pair (AuthField.lawful.complete h)
  rw [h₁, h₂, h₃, h₄, h₅]

theorem MessageBody.encode_call (v : CallBody) : MessageBody.codec.encode (.call v) =
    Codec.word.encode 0 ++ CallBody.codec.encode v := by
  have hi : (MessageBody.codec.write (.call v)).image =
      (Codec.word.write 0).image ++ (CallBody.codec.write v).image := Output.image_append rfl
  simp only [Codec.encode, Output.bytes, hi, Image.bytes_append]

def CallHeader.message (h : CallHeader) (c : Credential) (stamp : UInt32) : Message :=
  ⟨h.xid, .call {
    rpcVersion := 2
    program := h.program
    version := h.version
    procedure := h.procedure
    credential := ⟨c.flavor, c.body stamp⟩
    verifier := ⟨c.verifierFlavor, c.verifier⟩ }⟩

section Written
variable {c : Credential} {stamp : UInt32} (hb : (c.body stamp).length ≤ maxLength)
include hb

theorem CallHeader.encode_message (h : CallHeader) : Message.codec.encode (h.message c stamp) =
    Codec.word.encode h.xid ++ (Codec.word.encode 0 ++ (Codec.word.encode rpcVersion ++
      (Codec.word.encode h.program ++ (Codec.word.encode h.version ++
      (Codec.word.encode h.procedure ++ (AuthFlavor.codec.encode c.flavor ++
      (Codec.bytes.encode (c.body stamp) ++ (AuthFlavor.codec.encode c.verifierFlavor ++
      Codec.bytes.encode c.verifier)))))))) := by
  have hm : Message.codec.encode (h.message c stamp) =
      Codec.word.encode h.xid ++ MessageBody.codec.encode (h.message c stamp).body :=
    Codec.encode_pair rfl
  let call : CallBody := ⟨2, h.program, h.version, h.procedure, ⟨c.flavor, c.body stamp⟩,
    ⟨c.verifierFlavor, c.verifier⟩⟩
  have hw : call.credential.WellFormed := hb
  have hc : (h.message c stamp).body = .call call := rfl
  rw [hm, hc, MessageBody.encode_call, CallBody.encode_eq call hw, AuthField.encode_eq,
    AuthField.encode_eq, List.append_assoc, rpcVersion]

theorem CallHeader.marshal_lays (hv : c.verifier.length ≤ maxLength) (h : CallHeader) :
    Lays (h.marshal c stamp) (Message.codec.encode (h.message c stamp)) := by
  have word (w : UInt32) : Lays (MessageBuffer.put .word w) (Codec.word.encode w) :=
    .put Codec.Lawful.word trivial
  have flavor (f : AuthFlavor) :
      Lays (MessageBuffer.put AuthFlavor.codec f) (AuthFlavor.codec.encode f) :=
    .put AuthFlavor.lawful trivial
  rw [h.encode_message hb]
  exact (word _).bind <| (word _).bind <| (word _).bind <| (word _).bind <| (word _).bind <|
    (word _).bind <| (flavor _).bind <| (Lays.putOpaque hb).bind <| (flavor _).bind <|
    Lays.putOpaque hv

theorem CallHeader.length_encode_message (hv : c.verifier.length ≤ maxLength)
    (hl : (c.body stamp).length = c.bodyLength) (h : CallHeader) :
    (Message.codec.encode (h.message c stamp)).length = CallHeader.encodedLength c := by
  have flavor (f : AuthFlavor) : (AuthFlavor.codec.encode f).length = 4 :=
    Codec.length_encode_word (Enumeration.code f)
  rw [h.encode_message hb]
  simp only [List.length_append, Codec.length_encode_word, flavor, Codec.length_encode_bytes hb,
    Codec.length_encode_bytes hv, hl, encodedLength, Credential.encodedLength, paddedLength,
    Credential.verifierLength]
  omega

end Written

theorem utf8ByteSize_takeUtf8 (n : Nat) (cs : List Char) :
    (String.ofList (takeUtf8 n cs)).utf8ByteSize ≤ n := by
  induction cs generalizing n with
  | nil => simp [takeUtf8]
  | cons c cs ih =>
    unfold takeUtf8
    split
    · have hr := ih (n - c.utf8Size)
      simp only [String.ofList_cons, String.utf8ByteSize_append, String.utf8ByteSize_singleton]
      omega
    · simp

theorem UnixCredential.encode_body (u : UnixCredential) (stamp : UInt32) :
    UnixBody.codec.encode (u.body stamp) = Codec.word.encode stamp ++
      (Codec.bytes.pair <| Codec.word.pair <| Codec.word.pair Codec.word.array).encode
        (Text.toUtf8 u.machineName, u.uid, u.gid, u.gids) :=
  Codec.encode_pair rfl

namespace Credential

/-- What can be put into a message: an identity as it is made, and any other credential with a body
and a verifier whose lengths a word can hold. -/
def Fits : Credential → Prop
  | unix user => ∃ uid gid gids name, user = .ofParts uid gid gids name
  | fixed _ body _ verifier => body.length ≤ maxLength ∧ verifier.length ≤ maxLength

theorem length_body_eq {c : Credential} (h : c.bodyLength ≤ maxLength) (stamp : UInt32) :
    (c.body stamp).length = c.bodyLength := by
  cases c with
  | fixed f b vf v => rfl
  | unix u =>
    simp only [bodyLength, paddedLength] at h
    have hn : (Text.toUtf8 u.machineName).length ≤ maxLength := by
      rw [Text.length_toUtf8]
      omega
    let groups := Codec.word.pair Codec.word.array
    let ids := Codec.word.pair groups
    have h₂ : (Codec.bytes.pair ids).encode (Text.toUtf8 u.machineName, u.uid, u.gid, u.gids) =
      Codec.bytes.encode (Text.toUtf8 u.machineName) ++ ids.encode (u.uid, u.gid, u.gids) :=
        Codec.encode_pair (Codec.Lawful.bytes.complete hn)
    have h₃ : ids.encode (u.uid, u.gid, u.gids) =
      Codec.word.encode u.uid ++ groups.encode (u.gid, u.gids) := Codec.encode_pair rfl
    have h₄ : groups.encode (u.gid, u.gids) =
      Codec.word.encode u.gid ++ Codec.word.array.encode u.gids := Codec.encode_pair rfl
    have hg : u.gids.length ≤ maxLength := by omega
    rw [body, u.encode_body, h₂, h₃, h₄]
    simp only [List.length_append, Codec.length_encode_word, Codec.length_encode_bytes hn,
      Codec.length_encode_words hg, Text.length_toUtf8, bodyLength, paddedLength]
    omega

theorem Fits.bodyLength_le {c : Credential} (h : c.Fits) : c.bodyLength ≤ maxLength := by
  cases c with
  | fixed f b vf v => exact h.1
  | unix u =>
    obtain ⟨uid, gid, gids, name, rfl⟩ := h
    have hn := utf8ByteSize_takeUtf8 maxMachineName name.toList
    have hg : (gids.take maxGids).length ≤ maxGids := List.length_take_le ..
    have hp := padLength_lt (String.ofList (takeUtf8 maxMachineName name.toList)).utf8ByteSize
    simp only [bodyLength, UnixCredential.ofParts, paddedLength, maxLength, UInt32.size]
    unfold maxMachineName at hn hp ⊢
    unfold maxGids at hg ⊢
    omega

theorem Fits.verifier_le {c : Credential} (h : c.Fits) : c.verifier.length ≤ maxLength := by
  cases c with
  | fixed f b vf v => exact h.2
  | unix u => exact Nat.zero_le _

end Credential

theorem run_fetch_from {b : MessageBuffer} {c : Codec α} {v : α} {p : Nat} {used rest : Bytes}
    (hp : p ≤ b.bytes.length) (hb : b.bytes.drop p = used ++ rest)
    (h : c.decode (used ++ rest) = .ok v rest) :
    (do
      setPosition p
      fetch c).run b = .ok v { b with position := p + used.length } := by
  have hf := fetch_eq_ok (b := { b with position := p }) hp hb h
  rw [EStateM.run_bind, run_setPosition hp]
  exact hf

/-- In an open buffer with its cursor on a word, marshalling a head succeeds, and writes as many
bytes as announced, whole words. A reader who goes back to where they begin finds a call of version
two there, with just this head, credential and verifier, and stops where they end. -/
theorem CallHeader.marshal_reads_back (h : CallHeader) {c : Credential} (hc : c.Fits)
    (stamp : UInt32) {b : MessageBuffer} (hwf : b.WellFormed) (ho : b.isSealed = false)
    (ha : b.position % 4 = 0) :
    ∃ bs : Bytes, (h.marshal c stamp).run b = .ok () (b.overwrite bs) ∧
      bs.length = CallHeader.encodedLength c ∧ bs.length % 4 = 0 ∧
      (do
        setPosition b.position
        fetch Message.codec).run (b.overwrite bs) =
          .ok (h.message c stamp) (b.overwrite bs) := by
  have hn := Credential.length_body_eq hc.bodyLength_le stamp
  have hb : (c.body stamp).length ≤ maxLength := hn ▸ hc.bodyLength_le
  have hv := hc.verifier_le
  have hp := hwf.position_le
  have hl := h.marshal_lays hb hv
  refine ⟨_, hl.run ⟨hwf, ho, ha⟩, h.length_encode_message hb hv hn, hl.aligned, ?_⟩
  let bs := Message.codec.encode (h.message c stamp)
  let rest := b.bytes.drop (b.position + bs.length)
  have hd : (b.overwrite bs).bytes.drop b.position = bs ++ rest := by
    have ht : (b.bytes.take b.position).length = b.position := by
      rw [List.length_take, Nat.min_eq_left hp]
    simp only [overwrite, List.append_assoc]
    exact List.drop_left' ht
  have hi : b.position ≤ (b.overwrite bs).bytes.length :=
    Nat.le_trans (Nat.le_add_right ..) ((Grows.overwrite ho bs).inside hp)
  have hw : (h.message c stamp).WellFormed := ⟨hb, hv⟩
  exact run_fetch_from hi hd (Message.lawful.read_iff.2 ⟨hw, Image.heads_bytes _ rest⟩)

/-- A user whose host has a name of five bytes. -/
def hostUser : Credential := .unix (.ofParts 1000 1000 [4, 24, 27] "host1")

/-- The head of a call written over the last word of a buffer of two. -/
theorem CallHeader.marshal_reads_back_hostUser :
    ∃ bs : Bytes, bs.length = 80 ∧
      ((⟨0x01020304, 100003, 3, 7⟩ : CallHeader).marshal hostUser 9).run
        { MessageBuffer.ofBytes [1, 2, 3, 4, 5, 6, 7, 8] with position := 4 } =
          .ok () { MessageBuffer.ofBytes ([1, 2, 3, 4] ++ bs) with position := 84 } := by
  have hc : hostUser.Fits := ⟨1000, 1000, [4, 24, 27], "host1", rfl⟩
  obtain ⟨bs, hr, hl, -, -⟩ := CallHeader.marshal_reads_back ⟨0x01020304, 100003, 3, 7⟩ hc 9
    (b := { MessageBuffer.ofBytes [1, 2, 3, 4, 5, 6, 7, 8] with position := 4 })
    ⟨by decide, rfl⟩ rfl rfl
  have hn : bs.length = 80 := hl.trans (by decide)
  refine ⟨bs, hn, ?_⟩
  rw [hr]
  simp [overwrite, hn, ofBytes]

end Rpc
end Nfs3
