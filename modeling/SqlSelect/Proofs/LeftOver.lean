import SqlSelect.Proofs.OpenSlots

/-! What is lost of an expression that is written without its values.

Every value that an expression carries is written with it as the value of a slot, apart from those
that a raw fragment has beyond its markers (`Expr.values_perm`). Raw text is refused for an
expression that writes a value. The main statement, `raw_text_loses_only_leftovers`, is that raw
text is given just for expressions that carry nothing but such leftovers, and so, where every
fragment has a marker for each of its values, just for those that carry nothing. -/
namespace SqlSelect

/-! ### Values of what is written -/

namespace Pieces

@[simp] theorem args_nil : args [] = [] := rfl

@[simp] theorem args_cons (p : Piece) (ps : Pieces) :
    args (p :: ps) = p.slots.filterMap id ++ args ps := by
  simp [args]

@[simp] theorem args_commaSeparated (pss : List Pieces) :
    (commaSeparated pss).args = pss.flatMap args := by
  rw [args, slots_commaSeparated, List.filterMap_flatMap]
  rfl

/-- Without a value every slot is open. -/
theorem slots_of_args {ps : Pieces} (h : ps.args = []) :
    ps.slots = List.replicate (ps.slots.count none) none := by
  have each : ∀ slot ∈ ps.slots, slot = none := List.filterMap_eq_nil_iff.mp h
  rw [List.count_eq_length.mpr fun slot there => (each slot there).symm]
  exact List.eq_replicate_iff.mpr ⟨rfl, each⟩

end Pieces

@[simp] theorem Expr.args_operandPieces (parens : Bool) (ps : Pieces) :
    (operandPieces parens ps).args = ps.args := by
  rw [Pieces.args, slots_operandPieces, Pieces.args]

/-- The markers of a fragment take its values as far as they reach. -/
theorem Marker.args_split (sql : String) (params : List Param) :
    (Piece.raw (split sql params)).slots.filterMap id = params.take (count sql) := by
  have each : ∀ n, ((List.range n).map (params[·]?)).filterMap id = params.take n := by
    intro n
    induction n with
    | zero => rfl
    | succ n ih =>
      rw [List.range_succ, List.map_append, List.filterMap_append, ih, List.take_add_one]
      cases h : params[n]? <;> simp [h]
  rw [split_slots, each]

/-! ### Values that are carried -/

namespace Expr
variable {κ : Type} (sub : κ → Pieces)

/-- The values that raw fragments have beyond their markers. -/
def leftOver (e : Expr κ) : List Param :=
  e.rawFragments.flatMap fun fragment => fragment.2.drop (Marker.count fragment.1)

theorem leftOver_eq_nil {e : Expr κ} : e.leftOver = [] ↔
    ∀ fragment ∈ e.rawFragments, fragment.2.length ≤ Marker.count fragment.1 := by
  simp [leftOver]

/-- What is written and what is left over, of two parts in a row. -/
theorem perm_append_append {vs vs' written left written' left' : List Param}
    (h : vs.Perm (written ++ left)) (h' : vs'.Perm (written' ++ left')) :
    (vs ++ vs').Perm ((written ++ written') ++ (left ++ left')) := by
  have inner : (left ++ (written' ++ left')).Perm (written' ++ (left ++ left')) :=
    List.perm_append_comm_assoc left written' left'
  exact (h.append h').trans (by simpa only [List.append_assoc] using inner.append_left written)

/-- Each value of an expression is written or left over. -/
theorem values_perm (e : Expr κ) :
    (e.values fun q => (sub q).args).Perm ((e.pieces sub).args ++ e.leftOver) := by
  induction e with
  | raw sql params =>
    have written : Pieces.args [.raw (Marker.split sql params)] =
        params.take (Marker.count sql) := by
      rw [Pieces.args_cons, Marker.args_split, Pieces.args_nil, List.append_nil]
    rw [pieces, written, leftOver, rawFragments, List.flatMap_singleton, List.take_append_drop]
    exact .refl _
  | unary op operand ih =>
    cases op <;> simpa [pieces, values, Piece.slots, leftOver, rawFragments] using ih
  | binary op left right ihl ihr =>
    have both := perm_append_append ihl ihr
    simpa [pieces, values, Piece.slots, leftOver, rawFragments] using both
  | call name args ih =>
    simp only [pieces, values, leftOver, rawFragments, Pieces.args_cons, Pieces.args_parenthesized,
      Pieces.args_commaSeparated, Piece.slots, List.filterMap_nil, List.nil_append]
    induction args with
    | nil => exact .refl _
    | cons e es ihs =>
      have first := ih e List.mem_cons_self
      have rest := ihs fun d hd => ih d (List.mem_cons_of_mem e hd)
      simp only [valuesOfAll, piecesOfAll, rawFragmentsOfAll, List.flatMap_cons,
        List.flatMap_append]
      exact perm_append_append first rest
  | collate operand collation ih =>
    simpa [pieces, values, Piece.slots, leftOver, rawFragments] using ih
  | subquery q => simp [pieces, values, leftOver, rawFragments]
  | _ => simp [pieces, values, leftOver, rawFragments, Piece.slots]

theorem rawSql_eq_ok {e : Expr Query} {s : String} : e.rawSql = .ok s ↔
    (e.pieces Query.pieces).args = [] ∧ s = (e.pieces Query.pieces).sql := by
  rw [rawSql]
  by_cases unwritten : (e.pieces Query.pieces).args = []
  · simp only [unwritten, List.isEmpty_nil, if_true, Except.ok.injEq, true_and]
    exact eq_comm
  · simp [unwritten]

theorem rawSql_eq_error {e : Expr Query} {err : QueryError} : e.rawSql = .error err ↔
    (e.pieces Query.pieces).args ≠ [] ∧
      err = .unsupported (.boundArguments (e.pieces Query.pieces).args.length) := by
  rw [rawSql]
  by_cases unwritten : (e.pieces Query.pieces).args = []
  · simp [unwritten]
  · simp only [List.isEmpty_iff, unwritten, if_false, Except.error.injEq, ne_eq, not_false_eq_true,
      true_and]
    exact eq_comm

end Expr

/-- Raw text is given just for an expression that carries nothing but values left over from raw
fragments, and only open placeholders are in it; for any other expression it is refused, and the
error counts the values that would be written. Where nothing is left over, raw text is given just
for an expression that carries no value. -/
theorem raw_text_loses_only_leftovers {e : Expr Query} (embedded : ∀ q ∈ e.queries, q.Built) :
    (∀ s, e.rawSql = .ok s ↔
      (e.values Query.args).Perm e.leftOver ∧ s = (e.pieces Query.pieces).sql) ∧
    (∀ s, e.rawSql = .ok s → (e.pieces Query.pieces).slots = List.replicate e.openCount none) ∧
    (∀ err, e.rawSql = .error err → ∃ written, written ≠ [] ∧
      (e.values Query.args).Perm (written ++ e.leftOver) ∧
      err = .unsupported (.boundArguments written.length)) ∧
    ((∀ fragment ∈ e.rawFragments, fragment.2.length ≤ Marker.count fragment.1) →
      ((∃ s, e.rawSql = .ok s) ↔ e.values Query.args = [])) := by
  have perm : (e.values Query.args).Perm ((e.pieces Query.pieces).args ++ e.leftOver) :=
    e.values_perm Query.pieces
  have unwritten : (e.pieces Query.pieces).args = [] ↔ (e.values Query.args).Perm e.leftOver := by
    constructor
    · intro none
      rwa [none] at perm
    · intro left
      have lengths := perm.symm.trans left |>.length_eq
      rw [List.length_append] at lengths
      exact List.length_eq_zero_iff.mp (by omega)
  have given : ∀ s, e.rawSql = .ok s ↔
      (e.values Query.args).Perm e.leftOver ∧ s = (e.pieces Query.pieces).sql := by
    intro s
    rw [Expr.rawSql_eq_ok, unwritten]
  refine ⟨given, fun s text => ?_, fun err refused => ?_, fun matched => ?_⟩
  · have settled : ∀ q ∈ e.queries, none ∉ q.pieces.slots := fun q hq => (embedded q hq).settled
    rw [← Expr.count_slots settled]
    exact Pieces.slots_of_args (Expr.rawSql_eq_ok.mp text).1
  · obtain ⟨written, rfl⟩ := Expr.rawSql_eq_error.mp refused
    exact ⟨_, written, perm, rfl⟩
  · simp only [given, Expr.leftOver_eq_nil.mpr matched, List.perm_nil, exists_and_left, exists_eq,
      and_true]

/-- A fragment with a value too many, and an open placeholder that is compared with a query. -/
def leftoverExpr : Expr Query :=
  .binary .and (.raw "a = '?'" [⟨"1"⟩])
    (.binary .isIn .placeholder (.subquery (.mk (Builder.run {} [.readFrom (.table "t")]).body)))

theorem raw_text_loses_only_leftovers_surplus :
    leftoverExpr.rawSql = .ok "(a = '?') AND ? IN (SELECT * FROM t)" ∧
      (leftoverExpr.pieces Query.pieces).slots = [none] ∧
      (leftoverExpr.values Query.args).Perm [⟨"1"⟩] := by
  have built : Query.Built (.mk (Builder.run {} [.readFrom (.table "t")]).body) :=
    .build (.grown (.of_unattached [.readFrom (.table "t")] rfl rfl)) rfl
  have embedded : ∀ q ∈ leftoverExpr.queries, q.Built :=
    fun q hq => List.mem_singleton.mp hq ▸ built
  obtain ⟨given, slots, _⟩ := raw_text_loses_only_leftovers embedded
  have text : leftoverExpr.rawSql = .ok "(a = '?') AND ? IN (SELECT * FROM t)" := rfl
  exact ⟨text, slots _ text, ((given _).mp text).1⟩

/-- Raw text is not refused for every expression that carries a value. -/
theorem not_every_value_refused :
    ¬ ∀ (e : Expr Query) (s : String), (∀ q ∈ e.queries, q.Built) → e.rawSql = .ok s →
      e.values Query.args = [] := by
  intro refused
  have lost := refused (.raw "a" [⟨"1"⟩]) "a" (by simp [Expr.queries]) rfl
  cases lost

end SqlSelect
