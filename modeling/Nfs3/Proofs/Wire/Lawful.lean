import Nfs3.Proofs.BigEndian
import Nfs3.Proofs.Wire.Image
import Nfs3.Proofs.Wire.Reader
import Nfs3.Wire.Field

/-!
What it means that a codec is lawful: its reader takes exactly the written forms of its well-formed
values, up to padding. Every way to build a codec from others keeps the law.
-/
namespace Nfs3.Wire.Codec
open Reader
variable {α β τ : Type}

/-- Exactly the values with `ok` have a complete image, of whole words, and a reader takes it for
the value whatever its padding. -/
structure Lawful (c : Codec α) (ok : α → Prop) : Prop where
  complete {v : α} : ok v → (c.write v).fault = none
  aligned {v : α} : ok v → (c.write v).image.length % 4 = 0
  read_iff {v : α} {bs rest : Bytes} :
    c.read bs = .ok v rest ↔ ok v ∧ (c.write v).image.Heads bs rest

namespace Lawful
variable {c : Codec α} {d : Codec β} {ok : α → Prop} {ok' : β → Prop}

theorem congr (h : c.Lawful ok) {ok₁ : α → Prop} (he : ∀ v, ok₁ v ↔ ok v) : c.Lawful ok₁ := by
  rwa [funext fun v => propext (he v)]

theorem void : Codec.void.Lawful Always where
  complete _ := rfl
  aligned _ := rfl
  read_iff := by
    intro v bs rest
    change (pure () : Reader Unit) bs = _ ↔ _
    simp [pure_eq_ok, Always, Codec.void, Output.empty, Image.heads_nil]

theorem number {k : Nat} {toNat : α → Nat} {ofNat : Nat → α} (hk : k % 4 = 0)
    (hlt : ∀ v, toNat v < 256 ^ k) (hto : ∀ n, n < 256 ^ k → toNat (ofNat n) = n)
    (hof : ∀ v, ofNat (toNat v) = v)
    (hw : ∀ v, c.write v = ⟨.ofBytes (BigEndian.encode k (toNat v)), none⟩)
    (hr : c.read = (fun ws => ofNat (BigEndian.decode ws)) <$> Reader.exactly k) :
    c.Lawful Always where
  complete {v} _ := by rw [hw]
  aligned {v} _ := by simpa [hw, Image.length_ofBytes] using hk
  read_iff := by
    intro v bs rest
    simp only [hw, hr, map_eq_ok, exactly_eq_ok, Always, true_and, Image.heads_ofBytes]
    constructor
    · intro h
      obtain ⟨ws, ⟨hn, rfl⟩, rfl⟩ := h
      have hd : BigEndian.decode ws < 256 ^ k := by simpa [hn] using BigEndian.decode_lt ws
      rw [hto _ hd, ← hn, BigEndian.encode_decode]
    · intro h
      obtain rfl := h
      refine ⟨_, ⟨BigEndian.length_encode k _, rfl⟩, ?_⟩
      rw [BigEndian.decode_encode_of_lt (hlt v), hof]

theorem word : Codec.word.Lawful Always :=
  number rfl UInt32.toNat_lt (fun _ => UInt32.toNat_ofNat_of_lt') (fun _ => UInt32.ofNat_toNat)
    (fun _ => rfl) rfl

theorem hyper : Codec.hyper.Lawful Always :=
  number rfl UInt64.toNat_lt (fun _ => UInt64.toNat_ofNat_of_lt') (fun _ => UInt64.ofNat_toNat)
    (fun _ => rfl) rfl

theorem heads_append (h : c.Lawful ok) {v : α} (hv : ok v) {o : Output} {bs rest : Bytes} :
    (c.write v ++ o).image.Heads bs rest ↔
      ∃ mid, c.read bs = .ok v mid ∧ o.image.Heads mid rest := by
  rw [Output.image_append (h.complete hv), Image.heads_append]
  simp [h.read_iff, hv]

theorem fault_append (h : c.Lawful ok) {v : α} (hv : ok v) (o : Output) :
    (c.write v ++ o).fault = o.fault :=
  Output.fault_append (h.complete hv)

theorem aligned_append (h : c.Lawful ok) {v : α} (hv : ok v) {o : Output}
    (ho : o.image.length % 4 = 0) : (c.write v ++ o).image.length % 4 = 0 := by
  have hc := h.aligned hv
  rw [Output.image_append (h.complete hv), List.length_append]
  omega

theorem pair (hc : c.Lawful ok) (hd : d.Lawful ok') :
    (c.pair d).Lawful fun v => ok v.1 ∧ ok' v.2 where
  complete {v} h := by
    change (c.write v.1 ++ d.write v.2).fault = none
    rw [hc.fault_append h.1, hd.complete h.2]
  aligned h := hc.aligned_append h.1 (hd.aligned h.2)
  read_iff := by
    intro v bs rest
    obtain ⟨x, y⟩ := v
    simp only [Codec.pair, bind_eq_ok, pure_eq_ok, Prod.mk.injEq]
    constructor
    · intro h
      obtain ⟨x, mid, hx, y, _, hy, ⟨rfl, rfl⟩, rfl⟩ := h
      have ⟨hv, _⟩ := hc.read_iff.1 hx
      have ⟨hv', hi⟩ := hd.read_iff.1 hy
      exact ⟨⟨hv, hv'⟩, (hc.heads_append hv).2 ⟨mid, hx, hi⟩⟩
    · intro h
      obtain ⟨⟨hv, hv'⟩, h⟩ := h
      obtain ⟨mid, hx, hi⟩ := (hc.heads_append hv).1 h
      exact ⟨x, mid, hx, y, rest, hd.read_iff.2 ⟨hv', hi⟩, ⟨rfl, rfl⟩, rfl⟩

theorem iso (h : c.Lawful ok) {make : α → β} {raw : β → α} (hm : ∀ v, make (raw v) = v)
    (hr : ∀ v, raw (make v) = v) (he : ∀ v, ok' v ↔ ok (raw v)) : (c.iso make raw).Lawful ok' where
  complete {v} hv := h.complete ((he v).1 hv)
  aligned {v} hv := h.aligned ((he v).1 hv)
  read_iff := by
    intro v bs rest
    simp only [Codec.iso, map_eq_ok, he]
    constructor
    · intro h
      obtain ⟨a, ha, rfl⟩ := h
      rw [hr]
      exact h.read_iff.1 ha
    · intro hv
      exact ⟨raw v, h.read_iff.2 hv, hm v⟩

theorem refine (h : c.Lawful ok) {check : α → Except ReadFault β} {raw : β → α}
    (hc : ∀ a v, check a = .ok v ↔ raw v = a) (he : ∀ v, ok' v ↔ ok (raw v)) :
    (c.refine check raw).Lawful ok' where
  complete {v} hv := h.complete ((he v).1 hv)
  aligned {v} hv := h.aligned ((he v).1 hv)
  read_iff := by
    intro v bs rest
    simp only [Codec.refine, bind_eq_ok, he]
    constructor
    · intro h
      obtain ⟨a, mid, ha, hv⟩ := h
      cases hw : check a with
      | ok w =>
        rw [hw] at hv
        obtain ⟨rfl, rfl⟩ := pure_eq_ok.1 hv
        rw [(hc a w).1 hw]
        exact h.read_iff.1 ha
      | error fault =>
        rw [hw] at hv
        exact (throw_ne_ok hv).elim
    · intro hv
      refine ⟨raw v, rest, h.read_iff.2 hv, ?_⟩
      rw [(hc (raw v) v).2 rfl]
      rfl

/-- A union is read by its discriminant: the tag, and then the arm it selects. -/
theorem union {t : Codec τ} {ok'' : τ → Prop} (ht : t.Lawful ok'') (tag : α → τ)
    (body : α → Output) {arm : τ → Reader α} (hw : ∀ v, c.write v = t.write (tag v) ++ body v)
    (hr : c.read = t.read >>= arm) (htag : ∀ v, ok'' (tag v))
    (hb : ∀ v, ok v → (body v).fault = none ∧ (body v).image.length % 4 = 0)
    (harm : ∀ w v bs rest, arm w bs = .ok v rest ↔
      w = tag v ∧ ok v ∧ (body v).image.Heads bs rest) : c.Lawful ok where
  complete {v} hv := by rw [hw, ht.fault_append (htag v), (hb v hv).1]
  aligned {v} hv := by rw [hw]; exact ht.aligned_append (htag v) (hb v hv).2
  read_iff := by
    intro v bs rest
    rw [hr, bind_eq_ok, hw, ht.heads_append (htag v)]
    simp only [harm]
    constructor
    · intro h
      obtain ⟨_, mid, hmid, rfl, hv, hi⟩ := h
      exact ⟨hv, mid, hmid, hi⟩
    · intro h
      obtain ⟨hv, mid, hmid, hi⟩ := h
      exact ⟨tag v, mid, hmid, rfl, hv, hi⟩

theorem signedWord : Codec.signedWord.Lawful Always :=
  word.iso Int32.toInt32_toUInt32 UInt32.toUInt32_toInt32 fun _ => Iff.rfl

theorem signedHyper : Codec.signedHyper.Lawful Always :=
  hyper.iso Int64.toInt64_toUInt64 UInt64.toUInt64_toInt64 fun _ => Iff.rfl

theorem binary32 : Codec.binary32.Lawful Always :=
  word.iso (fun _ => rfl) (fun _ => rfl) fun _ => Iff.rfl

theorem binary64 : Codec.binary64.Lawful Always :=
  hyper.iso (fun _ => rfl) (fun _ => rfl) fun _ => Iff.rfl

theorem bool : Codec.bool.Lawful Always := by
  refine word.refine ?_ fun _ => Iff.rfl
  intro w b
  by_cases h0 : w = 0
  · subst h0
    cases b <;> simp
  · by_cases h1 : w = 1
    · subst h1
      cases b <;> simp
    · cases b <;> simp [h0, h1, Ne.symm h0, Ne.symm h1]

theorem enumeration [Enumeration α]
    (h : ∀ m : α, Enumeration.ofCode? (Enumeration.code m) = some m) :
    (Codec.enumeration α).Lawful Always := by
  refine word.refine ?_ fun _ => Iff.rfl
  intro w m
  cases hw : (Enumeration.ofCode? w : Option α) with
  | none =>
    simp only [Option.elim, reduceCtorEq, false_iff]
    intro h
    obtain rfl := h
    rw [h m] at hw
    cases hw
  | some k =>
    have hk : Enumeration.code k = w := by simpa using List.find?_some hw
    simp only [Option.elim, Except.ok.injEq]
    constructor
    · intro h
      obtain rfl := h
      exact hk
    · intro h
      obtain rfl := h
      rw [h m] at hw
      exact (Option.some.inj hw).symm

theorem lengthWord_write {n : Nat} (h : n ≤ maxLength) :
    Codec.lengthWord.write n = Codec.word.write (UInt32.ofNat n) := if_pos h

theorem lengthWord : Codec.lengthWord.Lawful fun n => n ≤ maxLength where
  complete h := by rw [lengthWord_write h, word.complete trivial]
  aligned h := by rw [lengthWord_write h, word.aligned trivial]
  read_iff := by
    intro n bs rest
    constructor
    · intro h
      obtain ⟨w, hw, rfl⟩ := map_eq_ok.1 h
      have hle : w.toNat ≤ maxLength := Nat.le_sub_one_of_lt w.toNat_lt
      rw [lengthWord_write hle, UInt32.ofNat_toNat]
      exact ⟨hle, (word.read_iff.1 hw).2⟩
    · intro h
      obtain ⟨hle, h⟩ := h
      rw [lengthWord_write hle] at h
      have hlt : n < UInt32.size := Nat.lt_of_le_sub_one (by decide) hle
      exact map_eq_ok.2 ⟨_, word.read_iff.2 ⟨trivial, h⟩, UInt32.toNat_ofNat_of_lt' hlt⟩

theorem heads_field {bs rest vs : Bytes} {n : Nat} :
    (Image.ofBytes vs ++ Image.pad n).Heads bs rest ↔
      ∃ ps : Bytes, ps.length = padLength n ∧ bs = vs ++ (ps ++ rest) := by
  simp [Image.heads_append, Image.heads_ofBytes, Image.heads_pad, and_comm]

theorem bytes : Codec.bytes.Lawful fun bs => bs.length ≤ maxLength where
  complete h := by simp [Codec.bytes, lengthWord.fault_append h]
  aligned {vs} h := by
    refine lengthWord.aligned_append h ?_
    simpa [Image.length_ofBytes, Image.length_pad] using add_padLength_mod vs.length
  read_iff := by
    intro vs bs rest
    simp only [Codec.bytes, bind_eq_ok, declared_eq_ok, skipPadding_eq_ok, pure_eq_ok]
    constructor
    · intro h
      obtain ⟨n, mid, hn, _, _, ⟨rfl, rfl⟩, _, _, ⟨ps, hp, rfl⟩, rfl, rfl⟩ := h
      have ⟨hle, _⟩ := lengthWord.read_iff.1 hn
      exact ⟨hle, (lengthWord.heads_append hle).2 ⟨_, hn, heads_field.2 ⟨ps, hp, rfl⟩⟩⟩
    · intro h
      obtain ⟨hle, h⟩ := h
      obtain ⟨mid, hn, hi⟩ := (lengthWord.heads_append hle).1 h
      obtain ⟨ps, hp, rfl⟩ := heads_field.1 hi
      exact ⟨_, _, hn, vs, _, ⟨rfl, rfl⟩, (), rest, ⟨ps, hp, rfl⟩, rfl, rfl⟩

theorem fixedBytes (n : Nat) : (Codec.fixedBytes n).Lawful Always where
  complete _ := rfl
  aligned {vs} _ := by
    simpa [Codec.fixedBytes, Image.length_ofBytes, Image.length_pad, vs.2] using
      add_padLength_mod n
  read_iff := by
    intro v bs rest
    obtain ⟨vs, rfl⟩ := v
    simp only [Codec.fixedBytes, bind_eq_ok, exactly_eq_ok, skipPadding_eq_ok, Always, true_and,
      heads_field]
    constructor
    · intro h
      obtain ⟨ws, _, ⟨hn, rfl⟩, _, _, ⟨ps, hp, rfl⟩, h⟩ := h
      rw [dif_pos hn] at h
      obtain ⟨hv, rfl⟩ := pure_eq_ok.1 h
      cases hv
      exact ⟨ps, hp, rfl⟩
    · intro h
      obtain ⟨ps, hp, rfl⟩ := h
      refine ⟨vs, _, ⟨rfl, rfl⟩, (), rest, ⟨ps, hp, rfl⟩, ?_⟩
      rw [dif_pos rfl]
      rfl

theorem text : Codec.text.Lawful fun s => s.utf8ByteSize ≤ maxLength := by
  refine bytes.refine ?_ fun s => ?_
  · intro bs s
    rw [← Text.ofUtf8?_eq_some]
    cases Text.ofUtf8? bs <;> simp
  · rw [Text.length_toUtf8]

theorem writeAll_complete {write : α → Output} {xs : List α}
    (h : ∀ x ∈ xs, (write x).fault = none) : (writeAll write xs).fault = none := by
  induction xs with
  | nil => rfl
  | cons x xs ih =>
    rw [writeAll, Output.fault_append (h x (by simp))]
    exact ih fun y hy => h y (by simp [hy])

theorem writeAll_aligned {write : α → Output} {xs : List α}
    (hf : ∀ x ∈ xs, (write x).fault = none)
    (ha : ∀ x ∈ xs, (write x).image.length % 4 = 0) :
    (writeAll write xs).image.length % 4 = 0 := by
  induction xs with
  | nil => rfl
  | cons x xs ih =>
    have hx := ha x (by simp)
    have hxs := ih (fun y hy => hf y (by simp [hy])) fun y hy => ha y (by simp [hy])
    rw [writeAll, Output.image_append (hf x (by simp)), List.length_append]
    omega

theorem times_eq_ok (h : c.Lawful ok) {n : Nat} {xs : List α} {bs rest : Bytes} :
    Reader.times c.read n bs = .ok xs rest ↔
      (∀ x ∈ xs, ok x) ∧ xs.length = n ∧ (writeAll c.write xs).image.Heads bs rest := by
  induction n generalizing xs bs rest with
  | zero =>
    simp only [Reader.times, pure_eq_ok, List.length_eq_zero_iff]
    constructor
    · intro h
      obtain ⟨rfl, rfl⟩ := h
      exact ⟨by simp, rfl, Image.heads_nil.2 rfl⟩
    · intro h
      obtain ⟨-, rfl, hi⟩ := h
      exact ⟨rfl, Image.heads_nil.1 hi⟩
  | succ n ih =>
    simp only [Reader.times, bind_eq_ok, pure_eq_ok, ih]
    constructor
    · intro h
      obtain ⟨x, mid, hx, xs, _, ⟨hxs, hn, hi⟩, rfl, rfl⟩ := h
      have ⟨hv, _⟩ := h.read_iff.1 hx
      exact ⟨by simpa using ⟨hv, hxs⟩, by simp [hn], (h.heads_append hv).2 ⟨mid, hx, hi⟩⟩
    · intro h
      obtain ⟨hxs, hn, hi⟩ := h
      cases xs with
      | nil => simp at hn
      | cons x xs =>
        obtain ⟨hv, hxs⟩ := List.forall_mem_cons.1 hxs
        obtain ⟨mid, hx, hi⟩ := (h.heads_append hv).1 hi
        exact ⟨x, mid, hx, xs, rest, ⟨hxs, by simpa using hn, hi⟩, rfl, rfl⟩

theorem array (h : c.Lawful ok) :
    c.array.Lawful fun xs => xs.length ≤ maxLength ∧ ∀ x ∈ xs, ok x where
  complete {xs} hx := by
    change (Codec.lengthWord.write xs.length ++ writeAll c.write xs).fault = none
    rw [lengthWord.fault_append hx.1]
    exact writeAll_complete fun x hm => h.complete (hx.2 x hm)
  aligned {xs} hx :=
    lengthWord.aligned_append hx.1
      (writeAll_aligned (fun x hm => h.complete (hx.2 x hm)) fun x hm => h.aligned (hx.2 x hm))
  read_iff := by
    intro xs bs rest
    simp only [Codec.array, bind_eq_ok, h.times_eq_ok]
    constructor
    · intro h
      obtain ⟨n, mid, hn, hx, rfl, hi⟩ := h
      have ⟨hle, _⟩ := lengthWord.read_iff.1 hn
      exact ⟨⟨hle, hx⟩, (lengthWord.heads_append hle).2 ⟨mid, hn, hi⟩⟩
    · intro h
      obtain ⟨⟨hle, hx⟩, hi⟩ := h
      obtain ⟨mid, hn, hi⟩ := (lengthWord.heads_append hle).1 hi
      exact ⟨xs.length, mid, hn, hx, rfl, hi⟩

theorem vector (h : c.Lawful ok) (n : Nat) :
    (c.vector n).Lawful fun xs => ∀ x ∈ xs.val, ok x where
  complete hx := writeAll_complete fun x hm => h.complete (hx x hm)
  aligned hx :=
    writeAll_aligned (fun x hm => h.complete (hx x hm)) fun x hm => h.aligned (hx x hm)
  read_iff := by
    intro v bs rest
    obtain ⟨xs, rfl⟩ := v
    simp only [Codec.vector, bind_eq_ok, h.times_eq_ok]
    constructor
    · intro h
      obtain ⟨ys, mid, ⟨hx, hn, hi⟩, he⟩ := h
      rw [dif_pos hn] at he
      obtain ⟨hv, rfl⟩ := pure_eq_ok.1 he
      cases hv
      exact ⟨hx, hi⟩
    · intro h
      obtain ⟨hx, hi⟩ := h
      refine ⟨xs, rest, ⟨hx, rfl, hi⟩, ?_⟩
      rw [dif_pos rfl]
      rfl

theorem optional (h : c.Lawful ok) : c.optional.Lawful fun o => ∀ v, o = some v → ok v := by
  refine bool.union Option.isSome (fun o => o.elim .empty c.write) ?_ rfl (fun _ => trivial) ?_ ?_
  · intro o
    cases o with
    | none => exact (Output.append_empty _).symm
    | some v => rfl
  · intro o ho
    cases o with
    | none => exact ⟨rfl, rfl⟩
    | some v => exact ⟨h.complete (ho v rfl), h.aligned (ho v rfl)⟩
  · intro b o bs rest
    cases b with
    | false => cases o <;> simp [pure_eq_ok, Output.empty, Image.heads_nil]
    | true => cases o <;> simp [map_eq_ok, h.read_iff]

theorem length_le (h : c.Lawful ok) {v : α} {bs rest : Bytes} (hr : c.read bs = .ok v rest) :
    rest.length ≤ bs.length :=
  (h.read_iff.1 hr).2.length_le

theorem suffix (h : c.Lawful ok) {v : α} {bs rest : Bytes} (hr : c.read bs = .ok v rest) :
    rest <:+ bs := by
  obtain ⟨used, -, hb⟩ := (h.read_iff.1 hr).2
  exact ⟨used, hb.symm⟩

theorem length_lt_of_announced (h : c.Lawful ok) {more : Bool} {v : α} {bs mid rest : Bytes}
    (hm : Codec.bool.read bs = .ok more mid) (hr : c.read mid = .ok v rest) :
    rest.length < bs.length := by
  obtain ⟨used, hu, rfl⟩ := (bool.read_iff.1 hm).2
  have hn := hu.length_eq
  have hl := h.length_le hr
  have hb : (Codec.bool.write more).image.length = 4 := by cases more <;> rfl
  simp only [List.length_append]
  omega

theorem chain_write_cons (x : α) (xs : List α) :
    c.chain.write (x :: xs) = Codec.bool.write true ++ (c.write x ++ c.chain.write xs) := by
  simp only [Codec.chain, writeAll, Output.append_assoc]

theorem chainWithin_eq_ok (h : c.Lawful ok) {fuel : Nat} {xs : List α} {bs rest : Bytes}
    (hf : bs.length < fuel) :
    Reader.chainWithin Codec.bool.read c.read fuel bs = .ok xs rest ↔
      (∀ x ∈ xs, ok x) ∧ (c.chain.write xs).image.Heads bs rest := by
  induction fuel generalizing xs bs rest with
  | zero => omega
  | succ fuel ih =>
    simp only [Reader.chainWithin, bind_eq_ok]
    constructor
    · intro h
      obtain ⟨more, mid, hm, hr⟩ := h
      cases more with
      | false =>
        obtain ⟨rfl, rfl⟩ := pure_eq_ok.1 hr
        exact ⟨by simp, (bool.read_iff.1 hm).2⟩
      | true =>
        obtain ⟨x, last, hx, hr⟩ := bind_eq_ok.1 hr
        obtain ⟨xs, _, hxs, hr⟩ := bind_eq_ok.1 hr
        obtain ⟨rfl, rfl⟩ := pure_eq_ok.1 hr
        have hl := h.length_lt_of_announced hm hx
        have ⟨hv, _⟩ := h.read_iff.1 hx
        obtain ⟨hvs, hi⟩ := (ih (by omega)).1 hxs
        rw [chain_write_cons, bool.heads_append trivial]
        exact ⟨by simpa using ⟨hv, hvs⟩, mid, hm, (h.heads_append hv).2 ⟨last, hx, hi⟩⟩
    · intro h
      obtain ⟨hvs, hi⟩ := h
      cases xs with
      | nil => exact ⟨false, rest, bool.read_iff.2 ⟨trivial, hi⟩, pure_eq_ok.2 ⟨rfl, rfl⟩⟩
      | cons x xs =>
        obtain ⟨hv, hvs⟩ := List.forall_mem_cons.1 hvs
        rw [chain_write_cons] at hi
        obtain ⟨mid, hm, hi⟩ := (bool.heads_append trivial).1 hi
        obtain ⟨last, hx, hi⟩ := (h.heads_append hv).1 hi
        have hl := h.length_lt_of_announced hm hx
        refine ⟨true, mid, hm, bind_eq_ok.2 ⟨x, last, hx, bind_eq_ok.2 ⟨xs, rest, ?_, rfl⟩⟩⟩
        exact (ih (by omega)).2 ⟨hvs, hi⟩

theorem chain (h : c.Lawful ok) : c.chain.Lawful fun xs => ∀ x ∈ xs, ok x where
  complete {xs} hx := by
    induction xs with
    | nil => exact bool.complete trivial
    | cons x xs ih =>
      obtain ⟨hv, hvs⟩ := List.forall_mem_cons.1 hx
      rw [chain_write_cons, bool.fault_append trivial, h.fault_append hv, ih hvs]
  aligned {xs} hx := by
    induction xs with
    | nil => exact bool.aligned trivial
    | cons x xs ih =>
      obtain ⟨hv, hvs⟩ := List.forall_mem_cons.1 hx
      rw [chain_write_cons]
      exact bool.aligned_append trivial (h.aligned_append hv (ih hvs))
  read_iff := h.chainWithin_eq_ok (Nat.lt_succ_self _)

end Lawful
end Nfs3.Wire.Codec
