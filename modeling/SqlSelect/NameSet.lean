/-! Sets of names.

The names of a set are kept in ascending order of their code points, each once, so two sets
with the same names are equal and are listed alike (`NameSet.ext_mem`). -/
namespace SqlSelect

/-- Puts a name in its place in an ascending list, unless it is there already. -/
def insertName (name : String) : List String → List String
  | [] => [name]
  | head :: rest =>
    if name < head then name :: head :: rest
    else if head < name then head :: insertName name rest
    else head :: rest

theorem mem_insertName {name x : String} {names : List String} :
    x ∈ insertName name names ↔ x = name ∨ x ∈ names := by
  induction names with
  | nil => simp [insertName]
  | cons head rest ih =>
    rw [insertName]
    split
    · simp
    · split
      · rw [List.mem_cons, ih, List.mem_cons]
        exact or_left_comm
      · have : name = head := by grind
        subst this
        simp

theorem insertName_ascending {name : String} {names : List String}
    (ascending : names.Pairwise (· < ·)) : (insertName name names).Pairwise (· < ·) := by
  induction names with
  | nil => simp [insertName]
  | cons head rest ih =>
    obtain ⟨least, ascending⟩ := List.pairwise_cons.mp ascending
    rw [insertName]
    split
    next below =>
      refine List.pairwise_cons.mpr ⟨fun x hx => ?_, List.pairwise_cons.mpr ⟨least, ascending⟩⟩
      rcases List.mem_cons.mp hx with rfl | hx
      · exact below
      · exact String.lt_trans below (least x hx)
    next =>
      split
      next above =>
        refine List.pairwise_cons.mpr ⟨fun x hx => ?_, ih ascending⟩
        rcases mem_insertName.mp hx with rfl | hx
        · exact above
        · exact least x hx
      next => exact List.pairwise_cons.mpr ⟨least, ascending⟩

/-- Ascending lists are determined by their members. -/
theorem eq_of_ascending {names others : List String} (hn : names.Pairwise (· < ·))
    (ho : others.Pairwise (· < ·)) (h : ∀ x, x ∈ names ↔ x ∈ others) : names = others := by
  induction names generalizing others with
  | nil => exact (List.eq_nil_iff_forall_not_mem.mpr fun x hx => by simpa using (h x).mpr hx).symm
  | cons a names ih =>
    cases others with
    | nil => simpa using h a
    | cons b others =>
      obtain ⟨leastN, restN⟩ := List.pairwise_cons.mp hn
      obtain ⟨leastO, restO⟩ := List.pairwise_cons.mp ho
      have heads : a = b := by
        rcases List.mem_cons.mp ((h a).mp (by simp)) with rfl | above
        · rfl
        · rcases List.mem_cons.mp ((h b).mpr (by simp)) with rfl | below
          · rfl
          · exact absurd (leastN b below) (String.lt_asymm (leastO a above))
      subst heads
      congr 1
      refine ih restN restO fun x => ⟨fun hx => ?_, fun hx => ?_⟩
      · refine (List.mem_cons.mp ((h x).mp (by simp [hx]))).resolve_left ?_
        rintro rfl
        exact String.lt_irrefl _ (leastN _ hx)
      · refine (List.mem_cons.mp ((h x).mpr (by simp [hx]))).resolve_left ?_
        rintro rfl
        exact String.lt_irrefl _ (leastO _ hx)

/-- A set of names, listed in ascending order. -/
structure NameSet where
  toList : List String := []
  ascending : toList.Pairwise (· < ·) := by simp

namespace NameSet

instance : Membership String NameSet := ⟨fun s name => name ∈ s.toList⟩

def insert (s : NameSet) (name : String) : NameSet :=
  ⟨insertName name s.toList, insertName_ascending s.ascending⟩

def ofList (names : List String) : NameSet := names.foldl insert {}

theorem mem_insert {s : NameSet} {name x : String} : x ∈ s.insert name ↔ x = name ∨ x ∈ s :=
  mem_insertName

theorem mem_foldl_insert {s : NameSet} {names : List String} {x : String} :
    x ∈ names.foldl insert s ↔ x ∈ names ∨ x ∈ s := by
  induction names generalizing s with
  | nil => simp
  | cons name names ih =>
    rw [List.foldl_cons, ih, mem_insert, List.mem_cons]
    exact or_left_comm.trans or_assoc.symm

theorem mem_ofList {names : List String} {x : String} : x ∈ ofList names ↔ x ∈ names := by
  rw [ofList, mem_foldl_insert]
  exact or_iff_left (List.not_mem_nil)

/-- Sets with the same names are equal. -/
theorem ext_mem {s t : NameSet} (h : ∀ x, x ∈ s ↔ x ∈ t) : s = t := by
  cases s
  cases t
  congr
  exact eq_of_ascending (by assumption) (by assumption) h

end NameSet

end SqlSelect
