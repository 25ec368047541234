import SqlSelect.Proofs.Placement
import SqlSelect.Query.Render

/-! The values that the parts of a query carry.

`Expr.values` gathers the values an expression holds, wherever they stand in it, and
`Body.values` those of all clauses of a query, clause by clause; an embedded query counts for the
arguments of its own. An expression is `Complete` when no raw fragment has more values than
markers and nothing waits for a value. The main statement, `Body.slots_eq`, says that a query
whose expressions are complete writes exactly the values it carries, in that order, and leaves no
placeholder without one. -/
namespace SqlSelect
variable {κ : Type}

/-! ### What is carried -/

section Values
variable (sub : κ → List Param)

mutual

/-- The values held by an expression, from left to right. -/
def Expr.values : Expr κ → List Param
  | .bound p => [p]
  | .raw _ params => params
  | .unary _ operand => operand.values
  | .binary _ left right => left.values ++ right.values
  | .call _ args => Expr.valuesOfAll args
  | .collate operand _ => operand.values
  | .subquery q => sub q
  | .column .. | .literal _ | .placeholder => []

def Expr.valuesOfAll : List (Expr κ) → List Param
  | [] => []
  | e :: es => e.values ++ Expr.valuesOfAll es

end

@[simp] theorem Expr.valuesOfAll_eq (es : List (Expr κ)) :
    Expr.valuesOfAll sub es = es.flatMap (Expr.values sub) := by
  induction es with
  | nil => rfl
  | cons e es ih => simp [Expr.valuesOfAll, ih]

def Source.values : Source κ → List Param
  | .table _ => []
  | .subquery q => sub q

def Item.values : Item κ → List Param
  | .allColumns _ => []
  | .expr e _ => e.values sub

def JoinConstraint.values : JoinConstraint κ → List Param
  | .on e => e.values sub
  | .sharedColumns _ => []

/-- The values of the target, then those of the constraint. -/
def Join.values (j : Join κ) : List Param :=
  j.target.values sub ++ j.constraint.toList.flatMap (JoinConstraint.values sub)

def Block.values (b : Block κ) : List Param :=
  b.projection.flatMap (Item.values sub) ++ b.source.toList.flatMap (fun c => c.source.values sub) ++
    b.joins.flatMap (Join.values sub) ++ b.selection.flatMap (Expr.values sub) ++
    b.groupBy.flatMap (Expr.values sub) ++ b.having.flatMap (Expr.values sub)

def Limit.values : Limit κ → List Param
  | .value e => e.values sub
  | .unset | .null => []

def Trailing.values (t : Trailing κ) : List Param :=
  t.orderBy.flatMap (fun term => term.expr.values sub) ++ t.limit.values sub ++
    t.offset.toList.flatMap (Expr.values sub)

def Body.values (b : Body κ) : List Param :=
  b.blocks.flatMap (Block.values sub) ++ b.trailing.values sub

end Values

/-- The arguments of a query: the values of its slots, in the order written. -/
def Query.args (q : Query) : List Param := q.pieces.args

/-! ### Complete expressions -/

/-- Every value of an expression has its marker, and every `?` outside embedded queries its value. -/
structure Expr.Complete (e : Expr κ) : Prop where
  surplus : e.surplus? = none
  bound : e.openCount = 0

namespace Expr

theorem complete_column (table : Option String) (name : String) :
    (column table name : Expr κ).Complete := ⟨rfl, rfl⟩

theorem complete_literal (v : Value) : (literal v : Expr κ).Complete := ⟨rfl, rfl⟩

theorem complete_raw (sql : String) (params : List Param) :
    (raw sql params : Expr κ).Complete ↔ Marker.count sql = params.length := by
  constructor
  · intro h
    have hs := h.surplus
    have hb := h.bound
    simp only [surplus?] at hs
    simp only [openCount] at hb
    split at hs
    · cases hs
    · omega
  · intro h
    exact ⟨by simp [surplus?, h], by simp [openCount, h]⟩

theorem complete_unary (op : UnaryOp) (e : Expr κ) : (unary op e).Complete ↔ e.Complete :=
  ⟨fun h => ⟨by simpa [surplus?] using h.surplus, by simpa [openCount] using h.bound⟩,
    fun h => ⟨by simpa [surplus?] using h.surplus, by simpa [openCount] using h.bound⟩⟩

theorem complete_collate (e : Expr κ) (collation : String) :
    (collate e collation).Complete ↔ e.Complete :=
  ⟨fun h => ⟨by simpa [surplus?] using h.surplus, by simpa [openCount] using h.bound⟩,
    fun h => ⟨by simpa [surplus?] using h.surplus, by simpa [openCount] using h.bound⟩⟩

theorem complete_binary (op : BinaryOp) (left right : Expr κ) :
    (binary op left right).Complete ↔ left.Complete ∧ right.Complete := by
  constructor
  · intro h
    have hs := h.surplus
    have hb := h.bound
    simp only [surplus?, Option.or_eq_none_iff] at hs
    simp only [openCount] at hb
    exact ⟨⟨hs.1, by omega⟩, ⟨hs.2, by omega⟩⟩
  · rintro ⟨hl, hr⟩
    exact ⟨by simp [surplus?, hl.surplus, hr.surplus], by simp [openCount, hl.bound, hr.bound]⟩

theorem complete_call (name : String) (args : List (Expr κ)) :
    (call name args).Complete ↔ ∀ e ∈ args, e.Complete := by
  have each : ∀ es : List (Expr κ), surplusOfAll? es = none ∧ openCountAll es = 0 ↔
      ∀ e ∈ es, e.Complete := by
    intro es
    induction es with
    | nil => simp [surplusOfAll?, openCountAll]
    | cons e es ih =>
      simp only [surplusOfAll?, openCountAll, Option.or_eq_none_iff, Nat.add_eq_zero_iff,
        List.forall_mem_cons, ← ih]
      constructor
      · rintro ⟨⟨hs, hss⟩, hb, hbs⟩
        exact ⟨⟨hs, hb⟩, hss, hbs⟩
      · rintro ⟨⟨hs, hb⟩, hss, hbs⟩
        exact ⟨⟨hs, hss⟩, hb, hbs⟩
  rw [← each]
  exact ⟨fun h => ⟨h.surplus, h.bound⟩, fun h => ⟨h.1, h.2⟩⟩

theorem not_complete_placeholder : ¬ (placeholder : Expr κ).Complete :=
  fun h => absurd h.bound Nat.one_ne_zero

end Expr

/-! ### Slots of what is written -/

namespace Pieces

/-- Every placeholder that is written has its value. -/
def Settled (ps : Pieces) : Prop := ps.slots = ps.args.map some

theorem args_of_slots {ps : Pieces} {values : List Param} (h : ps.slots = values.map some) :
    ps.args = values := by
  simp [args, h]

theorem settled_of_slots {ps : Pieces} {values : List Param} (h : ps.slots = values.map some) :
    ps.Settled := by
  rw [Settled, args_of_slots h, h]

@[simp] theorem slots_nil : slots [] = [] := rfl

@[simp] theorem slots_cons (p : Piece) (ps : Pieces) : slots (p :: ps) = p.slots ++ slots ps := rfl

@[simp] theorem slots_parenthesized (ps : Pieces) : ps.parenthesized.slots = ps.slots := by
  simp [parenthesized, Piece.slots]

@[simp] theorem args_parenthesized (ps : Pieces) : ps.parenthesized.args = ps.args := by
  rw [args, slots_parenthesized, args]

theorem slots_intercalate {separator : Piece} (h : separator.slots = []) (pss : List Pieces) :
    slots ([separator].intercalate pss) = pss.flatMap slots := by
  induction pss with
  | nil => rfl
  | cons ps pss ih =>
    cases pss with
    | nil => simp
    | cons qs qss =>
      rw [List.intercalate_cons_cons, slots_append, slots_append, ih, slots_cons, h]
      simp

@[simp] theorem slots_commaSeparated (pss : List Pieces) :
    (commaSeparated pss).slots = pss.flatMap slots :=
  slots_intercalate (show Piece.comma.slots = [] from rfl) pss

end Pieces

@[simp] theorem Expr.slots_operandPieces (parens : Bool) (ps : Pieces) :
    (operandPieces parens ps).slots = ps.slots := by
  cases parens <;> simp [operandPieces]

@[simp] theorem slots_aliasPieces (name : Option String) : (aliasPieces name).slots = [] := by
  cases name <;> rfl

theorem slots_conjunctionPieces (word : String) (pss : List Pieces) :
    (conjunctionPieces word pss).slots = pss.flatMap Pieces.slots := by
  cases pss with
  | nil => rfl
  | cons ps pss =>
    have separator : (Piece.keyword " AND ").slots = [] := rfl
    simp only [conjunctionPieces, List.isEmpty_cons, Bool.false_eq_true, if_false,
      Pieces.slots_cons, Pieces.slots_intercalate separator, List.flatMap_map,
      Pieces.slots_parenthesized]
    rfl

theorem slots_listPieces (word : String) (pss : List Pieces) :
    (listPieces word pss).slots = pss.flatMap Pieces.slots := by
  cases pss with
  | nil => rfl
  | cons ps pss => simp [listPieces, Piece.slots]

/-! ### Queries whose parts are complete -/

/-- The expression is complete, and every query embedded in it is as `Q` says. -/
structure Expr.Attached (Q : κ → Prop) (e : Expr κ) : Prop where
  complete : e.Complete
  queries : ∀ q ∈ e.queries, Q q

def Source.Attached (Q : κ → Prop) : Source κ → Prop
  | .table _ => True
  | .subquery q => Q q

structure Block.Attached (Q : κ → Prop) (b : Block κ) : Prop where
  projection : ∀ e aliasName, .expr e aliasName ∈ b.projection → e.Attached Q
  source : ∀ c, b.source = some c → c.source.Attached Q
  targets : ∀ j ∈ b.joins, j.target.Attached Q
  constraints : ∀ j ∈ b.joins, ∀ e, j.constraint = some (.on e) → e.Attached Q
  selection : ∀ e ∈ b.selection, e.Attached Q
  groupBy : ∀ e ∈ b.groupBy, e.Attached Q
  having : ∀ e ∈ b.having, e.Attached Q

/-- An offset stands only under a limit with a value, so that it is written. -/
structure Trailing.Attached (Q : κ → Prop) (t : Trailing κ) : Prop where
  orderBy : ∀ term ∈ t.orderBy, term.expr.Attached Q
  limit : ∀ e, t.limit = .value e → e.Attached Q
  offset : ∀ e, t.offset = some e → e.Attached Q
  limited : ∀ e, t.offset = some e → ∃ limit, t.limit = .value limit

structure Body.Attached (Q : κ → Prop) (b : Body κ) : Prop where
  blocks : ∀ block ∈ b.blocks, block.Attached Q
  trailing : b.trailing.Attached Q

section Slots
variable {sub : κ → Pieces}

/-- Parts that each write their values write the values of all of them. -/
theorem flatMap_slots {α : Type} {pieces : α → Pieces} {values : α → List Param} {l : List α}
    (h : ∀ a ∈ l, (pieces a).slots = (values a).map some) :
    (l.map pieces).flatMap Pieces.slots = (l.flatMap values).map some := by
  rw [List.flatMap_map, List.map_flatMap]
  exact congrArg List.flatten (List.map_congr_left h)

theorem slots_flatMap {α : Type} {pieces : α → Pieces} {values : α → List Param} {l : List α}
    (h : ∀ a ∈ l, (pieces a).slots = (values a).map some) :
    Pieces.slots (l.flatMap pieces) = (l.flatMap values).map some := by
  rw [← flatMap_slots h, List.flatMap_map]
  exact List.flatMap_assoc

theorem Expr.slots_eq {e : Expr κ} (h : e.Attached fun q => (sub q).Settled) :
    (e.pieces sub).slots = (e.values fun q => (sub q).args).map some := by
  obtain ⟨complete, settled⟩ := h
  induction e with
  | column table name => rfl
  | literal v => rfl
  | placeholder => exact absurd complete not_complete_placeholder
  | bound p => rfl
  | raw sql params =>
    rw [complete_raw] at complete
    simp only [pieces, Pieces.slots_cons, Pieces.slots_nil, List.append_nil, values]
    exact Marker.split_slots_eq complete
  | unary op operand ih =>
    have inner := ih ((complete_unary op operand).mp complete) settled
    cases op <;> simp [pieces, values, Piece.slots, inner]
  | binary op left right ihl ihr =>
    obtain ⟨hl, hr⟩ := (complete_binary op left right).mp complete
    simp only [queries, List.forall_mem_append] at settled
    simp [pieces, values, Piece.slots, ihl hl settled.1, ihr hr settled.2]
  | call name args ih =>
    rw [complete_call] at complete
    simp only [queries, queriesOfAll_eq, List.forall_mem_flatMap] at settled
    have each : ∀ e ∈ args, (e.pieces sub).slots = (e.values fun q => (sub q).args).map some :=
      fun e he => ih e he (complete e he) (settled e he)
    simp only [pieces, values, piecesOfAll_eq, valuesOfAll_eq, Pieces.slots_cons,
      Pieces.slots_parenthesized, Pieces.slots_commaSeparated, Piece.slots, List.nil_append]
    exact flatMap_slots each
  | collate operand collation ih =>
    have inner := ih ((complete_collate operand collation).mp complete) settled
    simp [pieces, values, Piece.slots, inner]
  | subquery q =>
    have inner : (sub q).slots = (sub q).args.map some := settled q (by simp [queries])
    simp [pieces, values, inner]

theorem Source.slots_eq {s : Source κ} (h : s.Attached fun q => (sub q).Settled) :
    (s.pieces sub).slots = (s.values fun q => (sub q).args).map some := by
  cases s with
  | table name => rfl
  | subquery q =>
    have inner : (sub q).slots = (sub q).args.map some := h
    simp [pieces, values, inner]

theorem Join.slots_eq {j : Join κ} (target : j.target.Attached fun q => (sub q).Settled)
    (constraint : ∀ e, j.constraint = some (.on e) → e.Attached fun q => (sub q).Settled) :
    (j.pieces sub).slots = (j.values fun q => (sub q).args).map some := by
  obtain ⟨kind, t, aliasName, c⟩ := j
  simp only [pieces, values, Pieces.slots_cons, Pieces.slots_append, Source.slots_eq target,
    slots_aliasPieces, Piece.slots, List.nil_append, List.append_nil, List.map_append]
  congr 1
  rcases c with _ | e | names
  · rfl
  · have inner := Expr.slots_eq (constraint e rfl)
    simp [JoinConstraint.pieces, JoinConstraint.values, Piece.slots, inner]
  · simp [JoinConstraint.pieces, JoinConstraint.values, Piece.slots]

theorem Block.slots_eq {b : Block κ} (h : b.Attached fun q => (sub q).Settled) :
    (b.pieces sub).slots = (b.values fun q => (sub q).args).map some := by
  have projection : (projectionPieces sub b.projection).slots =
      (b.projection.flatMap (Item.values fun q => (sub q).args)).map some := by
    have each : ∀ i ∈ b.projection,
        (i.pieces sub).slots = (i.values fun q => (sub q).args).map some := by
      intro i hi
      rcases i with (_ | table) | ⟨e, aliasName⟩
      · rfl
      · rfl
      · simp [Item.pieces, Item.values, Expr.slots_eq (h.projection e aliasName hi)]
    unfold projectionPieces
    by_cases empty : b.projection.isEmpty = true
    · rw [if_pos empty, List.isEmpty_iff.mp empty]
      rfl
    · rw [if_neg empty, Pieces.slots_commaSeparated, flatMap_slots each]
  have source : Pieces.slots (b.source.toList.flatMap (FromClause.pieces sub)) =
      (b.source.toList.flatMap fun c => c.source.values fun q => (sub q).args).map some := by
    cases hs : b.source with
    | none => rfl
    | some c => simp [FromClause.pieces, Piece.slots, Source.slots_eq (h.source c hs)]
  have joins : Pieces.slots (b.joins.flatMap (Join.pieces sub)) =
      (b.joins.flatMap (Join.values fun q => (sub q).args)).map some :=
    slots_flatMap fun j hj => Join.slots_eq (h.targets j hj) (h.constraints j hj)
  have clause : ∀ es : List (Expr κ), (∀ e ∈ es, e.Attached fun q => (sub q).Settled) →
      (es.map (Expr.pieces sub)).flatMap Pieces.slots =
        (es.flatMap (Expr.values fun q => (sub q).args)).map some :=
    fun es hes => flatMap_slots fun e he => Expr.slots_eq (hes e he)
  have distinct : Pieces.slots (if b.distinct then [.keyword "DISTINCT "] else []) = [] := by
    cases b.distinct <;> rfl
  simp only [pieces, values, Pieces.slots_cons, Pieces.slots_append, projection, source, joins,
    distinct, slots_conjunctionPieces, slots_listPieces, clause _ h.selection, clause _ h.groupBy,
    clause _ h.having, Piece.slots, List.nil_append, List.map_append]

theorem Trailing.slots_eq {t : Trailing κ} (h : t.Attached fun q => (sub q).Settled) :
    (t.pieces sub).slots = (t.values fun q => (sub q).args).map some := by
  obtain ⟨orderBy, limit, offset⟩ := t
  have terms : (orderBy.map (OrderTerm.pieces sub)).flatMap Pieces.slots =
      (orderBy.flatMap fun term => term.expr.values fun q => (sub q).args).map some := by
    apply flatMap_slots
    intro term hterm
    rcases term with ⟨e, _ | d, _ | collation⟩ <;>
      simp [OrderTerm.pieces, Piece.slots, Expr.slots_eq (h.orderBy _ hterm)]
  have limits : (limit.pieces sub offset).slots =
      (limit.values (fun q => (sub q).args) ++
        offset.toList.flatMap (Expr.values fun q => (sub q).args)).map some := by
    cases hl : limit with
    | value e =>
      have inner := Expr.slots_eq (h.limit e hl)
      cases ho : offset with
      | none => simp [Limit.pieces, Limit.values, Piece.slots, inner]
      | some o =>
        simp [Limit.pieces, Limit.values, Piece.slots, inner, Expr.slots_eq (h.offset o ho)]
    | _ =>
      cases ho : offset with
      | none => rfl
      | some o =>
        obtain ⟨e, he⟩ := h.limited o ho
        simp [hl] at he
  simp only [pieces, values, Pieces.slots_append, slots_listPieces, terms, limits,
    List.map_append, List.append_assoc]

/-- A query writes a placeholder with its value for each value that its parts carry, in the order
of the clauses, and no other placeholder. -/
theorem Body.slots_eq {b : Body κ} (h : b.Attached fun q => (sub q).Settled) :
    (b.pieces sub).slots = (b.values fun q => (sub q).args).map some := by
  have links : Pieces.slots (b.earlier.flatMap (Link.pieces sub)) =
      ((b.earlier.map Link.block).flatMap (Block.values fun q => (sub q).args)).map some := by
    have each : ∀ l ∈ b.earlier, (l.pieces sub).slots =
        (l.block.values fun q => (sub q).args).map some := by
      intro l hl
      have block : l.block ∈ b.blocks := by
        simp only [blocks, List.mem_append, List.mem_map]
        exact .inl ⟨l, hl, rfl⟩
      simp [Link.pieces, Piece.slots, Block.slots_eq (h.blocks _ block)]
    rw [List.flatMap_map, slots_flatMap each]
  have current : b.current ∈ b.blocks := by simp [blocks]
  simp only [pieces, values, blocks, Pieces.slots_append, links,
    Block.slots_eq (h.blocks _ current), Trailing.slots_eq h.trailing, List.flatMap_append,
    List.map_append]
  simp

end Slots

end SqlSelect
