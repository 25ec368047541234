import SqlSelect.Query.Render

/-! Outlines of what is written.

An outline is a statement with places left open for what is embedded in it. Filling the places, each
in parentheses, turns the concatenation of outlines into the concatenation of what is written, so
everything that is written from parts is written by an outline (`Outlined`), and the outline is the
same whatever is filled in. The places stand in the order in which the embedded queries are listed.
The main statement is `Body.outlined`; for the offset it takes that there is one only under a limit
with a value, where it is written. -/
namespace SqlSelect

/-- A statement with places for embedded queries. -/
abbrev Outline (κ : Type) := List (Piece ⊕ κ)

namespace Outline
variable {κ : Type}

/-- The queries that have a place, in order. -/
def queries (o : Outline κ) : List κ := o.filterMap Sum.getRight?

/-- Writes each embedded query in parentheses into its place. -/
def fill (sub : κ → Pieces) (o : Outline κ) : Pieces :=
  o.flatMap (Sum.elim (fun p => [p]) fun q => (sub q).parenthesized)

theorem queries_append (o o' : Outline κ) : (o ++ o').queries = o.queries ++ o'.queries :=
  List.filterMap_append

theorem fill_append (sub : κ → Pieces) (o o' : Outline κ) :
    (o ++ o').fill sub = o.fill sub ++ o'.fill sub :=
  List.flatMap_append

end Outline

/-- One outline with places for these queries writes this, however embedded queries are written. -/
def Outlined {κ : Type} (queries : List κ) (write : (κ → Pieces) → Pieces) : Prop :=
  ∃ o : Outline κ, o.queries = queries ∧ ∀ sub, write sub = o.fill sub

namespace Outlined
variable {κ α : Type} {qs rs : List κ} {v w : (κ → Pieces) → Pieces}

theorem nil : Outlined ([] : List κ) fun _ => [] := ⟨[], rfl, fun _ => rfl⟩

theorem piece (p : Piece) : Outlined ([] : List κ) fun _ => [p] := ⟨[.inl p], rfl, fun _ => rfl⟩

theorem query (q : κ) : Outlined [q] fun sub => (sub q).parenthesized :=
  ⟨[.inr q], rfl, fun _ => (List.append_nil _).symm⟩

theorem append (hv : Outlined qs v) (hw : Outlined rs w) :
    Outlined (qs ++ rs) fun sub => v sub ++ w sub := by
  obtain ⟨o, rfl, writes⟩ := hv
  obtain ⟨o', rfl, writes'⟩ := hw
  refine ⟨o ++ o', o.queries_append o', fun sub => ?_⟩
  show v sub ++ w sub = _
  rw [writes, writes', o.fill_append]

theorem cons (p : Piece) (h : Outlined qs w) : Outlined qs fun sub => p :: w sub :=
  (piece p).append h

theorem concat (p : Piece) (h : Outlined qs w) : Outlined qs fun sub => w sub ++ [p] := by
  have both := h.append (piece p)
  rwa [List.append_nil] at both

theorem parenthesized (h : Outlined qs w) : Outlined qs fun sub => (w sub).parenthesized :=
  (h.concat .rightParen).cons .leftParen

theorem flatMap {queries : α → List κ} {write : α → (κ → Pieces) → Pieces} {l : List α}
    (h : ∀ a ∈ l, Outlined (queries a) (write a)) :
    Outlined (l.flatMap queries) fun sub => l.flatMap fun a => write a sub := by
  induction l with
  | nil => exact .nil
  | cons a l ih =>
    obtain ⟨first, rest⟩ := List.forall_mem_cons.mp h
    exact first.append (ih rest)

theorem intercalate (separator : Piece) {queries : α → List κ} {write : α → (κ → Pieces) → Pieces}
    {l : List α} (h : ∀ a ∈ l, Outlined (queries a) (write a)) :
    Outlined (l.flatMap queries) fun sub =>
      [separator].intercalate (l.map fun a => write a sub) := by
  induction l with
  | nil => exact .nil
  | cons a l ih =>
    obtain ⟨first, rest⟩ := List.forall_mem_cons.mp h
    cases l with
    | nil => simpa using first
    | cons b l =>
      simp only [List.flatMap_cons, List.map_cons, List.intercalate_cons_cons]
      exact (first.concat separator).append (ih rest)

theorem conjunction (word : String) {queries : α → List κ} {write : α → (κ → Pieces) → Pieces}
    {l : List α} (h : ∀ a ∈ l, Outlined (queries a) (write a)) :
    Outlined (l.flatMap queries) fun sub =>
      conjunctionPieces word (l.map fun a => write a sub) := by
  cases l with
  | nil => exact .nil
  | cons a l =>
    have joined := intercalate (.keyword " AND ") fun a ha => (h a ha).parenthesized
    simpa [conjunctionPieces, Function.comp_def] using joined.cons (.keyword word)

theorem list (word : String) {queries : α → List κ} {write : α → (κ → Pieces) → Pieces}
    {l : List α} (h : ∀ a ∈ l, Outlined (queries a) (write a)) :
    Outlined (l.flatMap queries) fun sub => listPieces word (l.map fun a => write a sub) := by
  cases l with
  | nil => exact .nil
  | cons a l => exact (intercalate .comma h).cons (.keyword word)

theorem aliased (name : Option String) : Outlined ([] : List κ) fun _ => aliasPieces name := by
  cases name with
  | none => exact .nil
  | some name => exact (piece (.identifier name)).cons (.keyword " AS ")

theorem operand (parens : Bool) (h : Outlined qs w) :
    Outlined qs fun sub => Expr.operandPieces parens (w sub) := by
  cases parens with
  | true => exact h.parenthesized
  | false => exact h

end Outlined

/-! ### Everything is written by an outline -/

section Parts
variable {κ : Type}

theorem Expr.outlined (e : Expr κ) : Outlined e.queries fun sub => e.pieces sub := by
  induction e with
  | unary op operand ih =>
    cases op with
    | not => exact (ih.operand _).cons _
    | isNull => exact (ih.operand _).concat _
    | isNotNull => exact (ih.operand _).concat _
  | binary op left right ihl ihr => exact (ihl.operand _).append ((ihr.operand _).cons _)
  | call name args ih =>
    simp only [queries, queriesOfAll_eq, pieces, piecesOfAll_eq]
    exact (Outlined.intercalate .comma ih).parenthesized.cons _
  | collate operand collation ih => exact (ih.operand _).concat _
  | subquery q => exact .query q
  | _ => exact .piece _

theorem Source.outlined (s : Source κ) : Outlined s.queries fun sub => s.pieces sub := by
  cases s with
  | table name => exact .piece _
  | subquery q => exact .query q

theorem FromClause.outlined (c : FromClause κ) : Outlined c.queries fun sub => c.pieces sub := by
  have both := (c.source.outlined.append (.aliased c.aliasName)).cons (.keyword " FROM ")
  rwa [List.append_nil] at both

theorem Item.outlined (i : Item κ) : Outlined i.queries fun sub => i.pieces sub := by
  rcases i with (_ | table) | ⟨e, aliasName⟩
  · exact .piece _
  · exact (Outlined.piece _).cons _
  · have both := e.outlined.append (.aliased aliasName)
    rwa [List.append_nil] at both

theorem JoinConstraint.outlined (c : JoinConstraint κ) :
    Outlined c.queries fun sub => c.pieces sub := by
  cases c with
  | on e => exact e.outlined.parenthesized.cons _
  | sharedColumns names =>
    have listed := @Outlined.intercalate κ String .comma (fun _ => [])
      (fun name _ => [.identifier name]) names fun _ _ => .piece _
    rw [List.flatMap_eq_nil_iff.mpr fun _ _ => rfl] at listed
    exact listed.parenthesized.cons _

theorem Join.outlined (j : Join κ) : Outlined j.queries fun sub => j.pieces sub := by
  have target := j.target.outlined.append (.aliased j.aliasName)
  rw [List.append_nil] at target
  exact (target.append (.flatMap fun c _ => c.outlined)).cons _

theorem Block.outlined (b : Block κ) : Outlined b.queries fun sub => b.pieces sub := by
  have distinct : Outlined ([] : List κ) fun _ =>
      if b.distinct then [.keyword "DISTINCT "] else [] := by
    cases b.distinct with
    | true => exact .piece _
    | false => exact .nil
  have projection : Outlined (b.projection.flatMap Item.queries) fun sub =>
      projectionPieces sub b.projection := by
    cases b.projection with
    | nil => exact .piece _
    | cons i is => exact .intercalate .comma fun i _ => i.outlined
  exact (((((distinct.append projection).append (.flatMap fun c _ => c.outlined)).append
    (.flatMap fun j _ => j.outlined)).append (.conjunction _ fun e _ => e.outlined)).append
    (.list _ fun e _ => e.outlined)).append (.conjunction _ fun e _ => e.outlined) |>.cons _

/-- The collation and the direction of a term have no place for a query. -/
theorem OrderTerm.outlined (t : OrderTerm κ) :
    Outlined t.expr.queries fun sub => t.pieces sub := by
  have collation : Outlined ([] : List κ) fun _ => t.collation.toList.map Piece.collation := by
    cases t.collation with
    | none => exact .nil
    | some name => exact .piece _
  have direction : Outlined ([] : List κ) fun _ =>
      t.direction.toList.map fun d => Piece.keyword (" " ++ d.keyword) := by
    cases t.direction with
    | none => exact .nil
    | some d => exact .piece _
  have all := (t.expr.outlined.append collation).append direction
  rwa [List.append_nil, List.append_nil] at all

/-- An offset stands only under a limit with a value, so that it is written. -/
def Trailing.Limited (t : Trailing κ) : Prop :=
  ∀ e, t.offset = some e → ∃ limit, t.limit = .value limit

theorem Trailing.limited_of_map {ι : Type} {f : κ → ι} {t : Trailing κ} (h : (t.map f).Limited) :
    t.Limited := by
  obtain ⟨terms, limit, offset⟩ := t
  intro e there
  obtain ⟨written, hlimit⟩ := h (e.map f) (congrArg (Option.map (Expr.map f)) there)
  cases limit with
  | value limit => exact ⟨limit, rfl⟩
  | _ => cases hlimit

/-- An offset that nothing writes would list its queries without a place. -/
theorem Trailing.outlined {t : Trailing κ} (limited : t.Limited) :
    Outlined t.queries fun sub => t.pieces sub := by
  have terms : Outlined (t.orderBy.flatMap fun term => term.expr.queries) fun sub =>
      listPieces " ORDER BY " (t.orderBy.map fun term => term.pieces sub) :=
    .list _ fun term _ => term.outlined
  have limit : Outlined (t.limit.queries ++ t.offset.toList.flatMap Expr.queries) fun sub =>
      t.limit.pieces sub t.offset := by
    cases offset : t.offset with
    | none =>
      cases t.limit with
      | value e => exact (e.outlined.append .nil).cons _
      | _ => exact .nil
    | some e =>
      obtain ⟨limit, hlimit⟩ := limited e offset
      rw [hlimit]
      exact (limit.outlined.append (.flatMap fun e _ => e.outlined.cons _)).cons _
  have all := terms.append limit
  rwa [← List.append_assoc] at all

theorem Link.outlined (l : Link κ) : Outlined l.block.queries fun sub => l.pieces sub :=
  l.block.outlined.concat _

/-- What is written for a body is the same outside of the queries embedded in it, whichever they
are, and each of them stands there in parentheses. -/
theorem Body.outlined {b : Body κ} (limited : b.trailing.Limited) :
    Outlined b.queries fun sub => b.pieces sub := by
  have blocks : Outlined (b.blocks.flatMap Block.queries) fun sub =>
      b.earlier.flatMap (fun l => l.pieces sub) ++ b.current.pieces sub := by
    have links : Outlined (b.earlier.flatMap fun l => l.block.queries) fun sub =>
        b.earlier.flatMap fun l => l.pieces sub :=
      .flatMap fun l _ => l.outlined
    simpa [Body.blocks, List.flatMap_map] using links.append b.current.outlined
  exact blocks.append (Trailing.outlined limited)

end Parts

end SqlSelect
