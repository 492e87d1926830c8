import Mathlib.Data.List.Basic
import Mathlib.Data.List.Induction
import Nfs3.Net.AddressPool

/-!
What a pool keeps of the addresses it is made of, and which of them a key is given. The order is
that of first occurrence, so that no other list would do.
-/
namespace Nfs3.Net.AddressPool
variable {l p : List IpAddress} {a : IpAddress} {hash : UInt64 → UInt64} {key : UInt64}

theorem mem_ofList : a ∈ (ofList l).addresses ↔ a ∈ l := List.mem_eraseDups

theorem ofList_concat (l : List IpAddress) (a : IpAddress) :
    (ofList (l ++ [a])).addresses = (ofList l).addresses ++ if a ∈ l then [] else [a] := by
  rw [ofList, List.eraseDups_append]
  by_cases h : a ∈ l <;> simp [List.removeAll, h, ofList, List.eraseDups_cons]

/-- In the order of first occurrence. -/
theorem pairwise_ofList (l : List IpAddress) :
    (ofList l).addresses.Pairwise fun a b => l.idxOf a < l.idxOf b := by
  induction l using List.reverseRecOn with
  | nil => exact .nil
  | append_singleton l c ih =>
    have old {a : IpAddress} (ha : a ∈ (ofList l).addresses) :
        (l ++ [c]).idxOf a = l.idxOf a ∧ l.idxOf a < l.length :=
      ⟨List.idxOf_append_of_mem (mem_ofList.1 ha), List.idxOf_lt_length_of_mem (mem_ofList.1 ha)⟩
    rw [ofList_concat, List.pairwise_append]
    refine ⟨ih.imp_of_mem fun ha hb h => by rwa [(old ha).1, (old hb).1], ?_, fun a ha b hb => ?_⟩
    · split <;> simp
    · by_cases hc : c ∈ l
      · simp [hc] at hb
      · obtain rfl : b = c := by simpa [hc] using hb
        rw [(old ha).1, List.idxOf_append_of_notMem hc]
        have := (old ha).2
        omega

theorem eq_ofList_iff : p = (ofList l).addresses ↔
    (∀ a, a ∈ p ↔ a ∈ l) ∧ p.Pairwise fun a b => l.idxOf a < l.idxOf b := by
  refine ⟨fun h => h ▸ ⟨fun _ => mem_ofList, pairwise_ofList l⟩, fun h => ?_⟩
  obtain ⟨hm, hp⟩ := h
  have nodup {q : List IpAddress} (hq : q.Pairwise fun a b => l.idxOf a < l.idxOf b) : q.Nodup :=
    hq.imp fun {a b} h he => by
      subst he
      exact Nat.lt_irrefl _ h
  have hperm : p.Perm (ofList l).addresses :=
    (List.perm_ext_iff_of_nodup (nodup hp) (nodup (pairwise_ofList l))).2 fun a =>
      (hm a).trans mem_ofList.symm
  exact hperm.eq_of_pairwise (fun a b _ _ h h' => (Nat.lt_asymm h h').elim) hp (pairwise_ofList l)

theorem mem_found {found : Option (List IpAddress)} :
    a ∈ (found.elim empty ofList).addresses ↔ a ∈ found.getD [] := by
  cases found with
  | none => simp [empty]
  | some l => exact mem_ofList

theorem found_eq_nil {found : Option (List IpAddress)} :
    (found.elim empty ofList).addresses = [] ↔ found.getD [] = [] := by
  simp only [List.eq_nil_iff_forall_not_mem, mem_found]

theorem pickBy_eq_none_iff {pool : AddressPool} :
    pool.pickBy hash key = none ↔ pool.addresses = [] := by
  unfold pickBy
  rw [List.getElem?_eq_none_iff]
  constructor
  · intro h
    by_contra hn
    have := Nat.mod_lt (hash key).toNat (List.length_pos_iff.2 hn)
    omega
  · intro h
    simp [h]

theorem mem_of_pickBy {pool : AddressPool} (h : pool.pickBy hash key = some a) :
    a ∈ pool.addresses :=
  List.mem_of_getElem? h

end Nfs3.Net.AddressPool
