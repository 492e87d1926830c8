import Mathlib.Data.List.DropRight
import Nfs3.ClientConfig

/-!
Paths that name the same export. What counts of a path is the text between the slashes at its ends:
normalizing keeps that text as it is, behind a single slash, and so gives two paths one form just
when they have it in common.
-/
namespace Nfs3

def slashes (n : Nat) : String := String.ofList (List.replicate n '/')

/-- Slashes at the ends of the path enclose this text, which has none at its own. -/
structure Encloses (path inner : String) : Prop where
  slashed : ∃ j k, path = slashes j ++ inner ++ slashes k
  first : inner.toList.head? ≠ some '/'
  last : inner.toList.getLast? ≠ some '/'

variable {cs : List Char}

theorem trimSlashes_eq (cs : List Char) :
    trimSlashes cs = (cs.dropWhile (· == '/')).rdropWhile (· == '/') := rfl

theorem trimSlashes_slash_cons (cs : List Char) : trimSlashes ('/' :: cs) = trimSlashes cs := by
  simp [trimSlashes]

theorem trimSlashes_concat_slash (cs : List Char) : trimSlashes (cs ++ ['/']) = trimSlashes cs := by
  rw [trimSlashes_eq, trimSlashes_eq, List.dropWhile_append]
  by_cases h : cs.dropWhile (· == '/') = []
  · simp [h]
  · rw [if_neg (by simpa using h), List.rdropWhile_concat_pos _ _ _ rfl]

theorem trimSlashes_between (j k : Nat) (cs : List Char) :
    trimSlashes (List.replicate j '/' ++ cs ++ List.replicate k '/') = trimSlashes cs := by
  induction k with
  | zero =>
    rw [List.replicate_zero, List.append_nil]
    induction j with
    | zero => rfl
    | succ j ih => rw [List.replicate_succ, List.cons_append, trimSlashes_slash_cons, ih]
  | succ k ih => rw [List.replicate_succ', ← List.append_assoc, trimSlashes_concat_slash, ih]

theorem trimSlashes_eq_self (hf : cs.head? ≠ some '/') (hl : cs.getLast? ≠ some '/') :
    trimSlashes cs = cs := by
  have hd : cs.dropWhile (· == '/') = cs := by
    cases cs with
    | nil => rfl
    | cons c cs => exact List.dropWhile_cons_of_neg (by simpa using hf)
  rw [trimSlashes_eq, hd, List.rdropWhile_eq_self_iff]
  intro h hs
  exact hl (by rw [List.getLast?_eq_some_getLast h, eq_of_beq hs])

theorem head?_trimSlashes (cs : List Char) : (trimSlashes cs).head? ≠ some '/' := by
  intro h
  have hd := List.head?_dropWhile_not (· == '/') cs
  obtain ⟨rest, hr⟩ := List.rdropWhile_prefix (· == '/') (cs.dropWhile (· == '/'))
  rw [← hr, List.head?_append, ← trimSlashes_eq, h] at hd
  simp at hd

theorem getLast?_trimSlashes (cs : List Char) : (trimSlashes cs).getLast? ≠ some '/' := by
  intro h
  have hn : trimSlashes cs ≠ [] := by
    intro he
    simp [he] at h
  have hl := List.rdropWhile_last_not (· == '/') (cs.dropWhile (· == '/')) hn
  rw [List.getLast?_eq_some_getLast hn] at h
  exact hl (beq_of_eq (Option.some.inj h))

theorem exists_replicate_of_all (h : ∀ c ∈ cs, c == '/') : ∃ n, cs = List.replicate n '/' :=
  ⟨_, List.eq_replicate_of_mem fun c hc => eq_of_beq (h c hc)⟩

theorem exists_eq_trimSlashes_between (cs : List Char) :
    ∃ j k, cs = List.replicate j '/' ++ trimSlashes cs ++ List.replicate k '/' := by
  let rest := cs.dropWhile (· == '/')
  obtain ⟨j, hj⟩ : ∃ j, cs.takeWhile (· == '/') = List.replicate j '/' :=
    exists_replicate_of_all fun _ => List.mem_takeWhile_imp
  obtain ⟨k, hk⟩ : ∃ k, rest.rtakeWhile (· == '/') = List.replicate k '/' :=
    exists_replicate_of_all fun _ => List.mem_rtakeWhile_imp
  refine ⟨j, k, ?_⟩
  calc
    cs = cs.takeWhile (· == '/') ++ rest := List.takeWhile_append_dropWhile.symm
    _ = cs.takeWhile (· == '/') ++ (rest.rdropWhile (· == '/') ++ rest.rtakeWhile (· == '/')) := by
      rw [List.rdropWhile_append_rtakeWhile]
    _ = List.replicate j '/' ++ trimSlashes cs ++ List.replicate k '/' := by
      rw [hj, hk, ← List.append_assoc, trimSlashes_eq]

/-- A path encloses one text only, the one that trimming leaves. -/
theorem encloses_iff {path inner : String} :
    Encloses path inner ↔ inner = String.ofList (trimSlashes path.toList) := by
  constructor
  · intro h
    obtain ⟨j, k, rfl⟩ := h.slashed
    simp only [slashes, String.toList_append, String.toList_ofList, trimSlashes_between]
    rw [trimSlashes_eq_self h.first h.last, String.ofList_toList]
  · intro h
    subst h
    obtain ⟨j, k, hc⟩ := exists_eq_trimSlashes_between path.toList
    refine ⟨⟨j, k, ?_⟩, ?_, ?_⟩
    · rw [slashes, slashes, ← String.ofList_append, ← String.ofList_append, ← hc,
        String.ofList_toList]
    · rw [String.toList_ofList]
      exact head?_trimSlashes _
    · rw [String.toList_ofList]
      exact getLast?_trimSlashes _

theorem toList_normalizeExport (path : String) :
    (normalizeExport path).toList = '/' :: trimSlashes path.toList := String.toList_ofList

theorem normalizeExport_eq_iff {path other : String} :
    normalizeExport path = normalizeExport other ↔
      trimSlashes path.toList = trimSlashes other.toList := by
  rw [← String.toList_inj, toList_normalizeExport, toList_normalizeExport, List.cons_inj_right]

theorem getLast?_normalizeExport (path : String) :
    (normalizeExport path).toList.getLast? = some '/' ↔ normalizeExport path = "/" := by
  have hl := getLast?_trimSlashes path.toList
  rw [← String.toList_inj, toList_normalizeExport]
  cases ht : trimSlashes path.toList with
  | nil => decide
  | cons c cs =>
    rw [ht] at hl
    simp [hl]

theorem normalizeExport_normalizeExport (path : String) :
    normalizeExport (normalizeExport path) = normalizeExport path := by
  rw [normalizeExport_eq_iff, toList_normalizeExport, trimSlashes_slash_cons]
  exact trimSlashes_eq_self (head?_trimSlashes _) (getLast?_trimSlashes _)

theorem normalizeExport_between (j k : Nat) (path : String) :
    normalizeExport (slashes j ++ path ++ slashes k) = normalizeExport path := by
  rw [normalizeExport_eq_iff]
  simp only [slashes, String.toList_append, String.toList_ofList, trimSlashes_between]

theorem normalizeExport_eq_iff_encloses {path other : String} :
    normalizeExport path = normalizeExport other ↔
      ∃ text, Encloses path text ∧ Encloses other text := by
  simp only [encloses_iff]
  rw [normalizeExport_eq_iff]
  constructor
  · intro h
    exact ⟨_, rfl, by rw [h]⟩
  · intro h
    obtain ⟨_, rfl, h⟩ := h
    exact String.ofList_injective h

/-- The normal form of a path is a slash and the one text the path encloses: it begins with one
slash, does not end with another, and is its own normal form. Slashes more or fewer at the ends of a
path do not change it, and paths share it just when they enclose the same text. -/
theorem normalizeExport_canonical (path : String) :
    (∃ inner, normalizeExport path = "/" ++ inner ∧ ∀ text, Encloses path text ↔ text = inner) ∧
    (normalizeExport path).toList.head? = some '/' ∧
    (normalizeExport path).toList[1]? ≠ some '/' ∧
    ((normalizeExport path).toList.getLast? = some '/' ↔ normalizeExport path = "/") ∧
    normalizeExport (normalizeExport path) = normalizeExport path ∧
    (∀ j k, normalizeExport (slashes j ++ path ++ slashes k) = normalizeExport path) ∧
    ∀ other, normalizeExport path = normalizeExport other ↔
      ∃ text, Encloses path text ∧ Encloses other text := by
  have hn := toList_normalizeExport path
  refine ⟨⟨_, ?_, fun _ => encloses_iff⟩, ?_, ?_, getLast?_normalizeExport path,
    normalizeExport_normalizeExport path, fun j k => normalizeExport_between j k path,
    fun _ => normalizeExport_eq_iff_encloses⟩
  · rw [← String.toList_inj, hn, String.toList_append, String.toList_ofList, String.toList_ofList]
    rfl
  · rw [hn]
    rfl
  · rw [hn, List.getElem?_cons_succ, ← List.head?_eq_getElem?]
    exact head?_trimSlashes _

end Nfs3
