import SqlSelect.Proofs.Values

/-! Supplying values.

Filling takes one value for each open placeholder and leaves the others over (`fill_rest`); as many
placeholders stay open as values were missing (`fill_openCount`), no fragment gets more values than
markers, and embedded queries are not touched. What a builder accepts is therefore complete:
`fullyBound_eq_ok`, `bind_eq_ok` and `ofRaw_eq_ok` say so for its three ways to accept an
expression. -/
namespace SqlSelect.Expr
variable {κ : Type}

theorem fill_rest (e : Expr κ) (values : List Param) :
    (e.fill values).2 = values.drop e.openCount := by
  induction e generalizing values with
  | placeholder => cases values <;> rfl
  | raw sql params => rfl
  | binary op left right ihl ihr =>
    simp only [fill, openCount, ihl, ihr, List.drop_drop]
  | unary op operand ih => exact ih values
  | collate operand collation ih => exact ih values
  | call name args ih =>
    simp only [fill, openCount]
    induction args generalizing values with
    | nil => rfl
    | cons e es ihs =>
      have rest := ihs (fun d hd => ih d (List.mem_cons_of_mem e hd)) (values.drop e.openCount)
      simp only [fillAll, openCountAll, ih e List.mem_cons_self, rest, List.drop_drop]
  | _ => rfl

theorem fill_openCount (e : Expr κ) (values : List Param) :
    (e.fill values).1.openCount = e.openCount - values.length := by
  induction e generalizing values with
  | placeholder => cases values <;> simp [fill, openCount]
  | raw sql params =>
    simp only [fill, openCount, List.length_append, List.length_take]
    omega
  | binary op left right ihl ihr =>
    simp only [fill, openCount, ihl, ihr, fill_rest, List.length_drop]
    omega
  | unary op operand ih => exact ih values
  | collate operand collation ih => exact ih values
  | call name args ih =>
    simp only [fill, openCount]
    induction args generalizing values with
    | nil => simp [fillAll, openCountAll]
    | cons e es ihs =>
      have rest := ihs (fun d hd => ih d (List.mem_cons_of_mem e hd)) (values.drop e.openCount)
      simp only [fillAll, openCountAll, ih e List.mem_cons_self, fill_rest, rest, List.length_drop]
      omega
  | _ => simp [fill, openCount]

/-- Filling never gives a fragment more values than it has markers. -/
theorem fill_surplus {e : Expr κ} (h : e.surplus? = none) (values : List Param) :
    (e.fill values).1.surplus? = none := by
  induction e generalizing values with
  | placeholder => cases values <;> rfl
  | raw sql params =>
    simp only [surplus?, ite_eq_right_iff, reduceCtorEq, imp_false] at h
    simp only [fill, surplus?, List.length_append, List.length_take]
    exact if_neg (by omega)
  | binary op left right ihl ihr =>
    simp only [surplus?, Option.or_eq_none_iff] at h
    simp only [fill, surplus?, ihl h.1, ihr h.2, Option.or_none]
  | unary op operand ih => exact ih h values
  | collate operand collation ih => exact ih h values
  | call name args ih =>
    simp only [fill, surplus?] at h ⊢
    induction args generalizing values with
    | nil => rfl
    | cons e es ihs =>
      simp only [surplusOfAll?, Option.or_eq_none_iff] at h
      have rest := ihs (fun d hd => ih d (List.mem_cons_of_mem e hd)) h.2 (e.fill values).2
      simp only [fillAll, surplusOfAll?, ih e List.mem_cons_self h.1, rest, Option.or_none]
  | _ => exact h

@[simp] theorem fill_queries (e : Expr κ) (values : List Param) :
    (e.fill values).1.queries = e.queries := by
  induction e generalizing values with
  | placeholder => cases values <;> rfl
  | binary op left right ihl ihr => simp only [fill, queries, ihl, ihr]
  | unary op operand ih => exact ih values
  | collate operand collation ih => exact ih values
  | call name args ih =>
    simp only [fill, queries]
    induction args generalizing values with
    | nil => rfl
    | cons e es ihs =>
      simp only [fillAll, queriesOfAll, ih e List.mem_cons_self,
        ihs fun d hd => ih d (List.mem_cons_of_mem e hd)]
  | _ => rfl

/-! ### The three ways to accept an expression -/

theorem fullyBound_eq_ok {e e' : Expr κ} : e.fullyBound = .ok e' ↔ e' = e ∧ e.Complete := by
  unfold fullyBound
  constructor
  · intro h
    split at h
    · cases h
    · rename_i surplus
      split at h
      · rename_i bound
        cases h
        exact ⟨rfl, surplus, bound⟩
      · cases h
  · rintro ⟨rfl, surplus, bound⟩
    simp [surplus, bound]

theorem bind_eq_ok {e e' : Expr κ} {values : List Param} (h : e.bind values = .ok e') :
    e' = (e.fill values).1 ∧ e'.Complete := by
  unfold bind at h
  split at h
  · cases h
  · rename_i surplus
    split at h
    · rename_i count
      cases h
      exact ⟨rfl, fill_surplus surplus values, by rw [fill_openCount]; omega⟩
    · cases h

theorem ofRaw_eq_ok {sql : String} {values : List Param} {e : Expr κ}
    (h : ofRaw sql values = .ok e) : e = .raw sql values ∧ e.Complete := by
  unfold ofRaw at h
  by_cases count : Marker.count sql = values.length
  · rw [if_pos count] at h
    cases h
    exact ⟨rfl, (complete_raw sql values).mpr count⟩
  · rw [if_neg count] at h
    cases h

end SqlSelect.Expr
