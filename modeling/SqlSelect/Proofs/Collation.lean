import SqlSelect.Builder.Call
import SqlSelect.Proofs.Binding
import SqlSelect.Query.Render

/-! What a collation of an order is written behind.

An order term can be collated in two ways: the expression is, before it is given, or the last term
of the order is, by a call. Both are kept as they were given, and both are written with the
collation last, but an expression that is collated stands in parentheses unless it binds at least
as tightly as `COLLATE`. So the two are written alike just for such expressions
(`Expr.collated_sql_eq_iff`). Behind any other one that ends with an operand, the collation belongs
to that operand (`Expr.pieces_lastCollated`). The main statement is
`collation_follows_last_operand`. -/
namespace SqlSelect

/-! ### Calls for one order term -/

namespace Builder

/-- The builder with one more order term, for the next refinements to apply to. -/
def orderedBy (b : Builder) (t : OrderTerm Query) : Builder :=
  { b.modifyTrailing fun trailing => { trailing with orderBy := trailing.orderBy ++ [t] } with
    cursor := .orderBy }

theorem orderBy_eq (b : Builder) {e : Expr Query} (complete : e.Complete) :
    b.orderBy (.expr e) = b.orderedBy ⟨e, none, none⟩ := by
  rw [orderBy, Clause.term, Expr.fullyBound_eq_ok.mpr ⟨rfl, complete⟩]
  rfl

theorem refineOrder_orderedBy (b : Builder) (t : OrderTerm Query) (r : Refinement)
    (f : OrderTerm Query → OrderTerm Query) :
    (b.orderedBy t).refineOrder r f = b.orderedBy (f t) := by
  have applies : (b.orderedBy t).cursor = .orderBy ∧
      (b.orderedBy t).body.trailing.orderBy ≠ [] := ⟨rfl, by simp [orderedBy, modifyTrailing]⟩
  rw [refineOrder, if_pos applies]
  simp only [orderedBy, modifyTrailing, modifyLast_concat]

/-- Of several directions the last one counts. -/
theorem run_direct (b : Builder) (t : OrderTerm Query) (ds : List Direction) :
    (b.orderedBy t).run (ds.map .direct) =
      b.orderedBy { t with direction := ds.getLast?.or t.direction } := by
  induction ds generalizing t with
  | nil => rfl
  | cons d ds ih =>
    have next : (b.orderedBy t).apply (.direct d) = b.orderedBy { t with direction := some d } :=
      refineOrder_orderedBy b t _ _
    show ((b.orderedBy t).apply (.direct d)).run (ds.map .direct) = _
    rw [next, ih, List.getLast?_cons]
    cases ds.getLast? <;> rfl

end Builder

/-! ### The last operand -/

section Operands
variable {κ : Type} {sub : κ → Pieces}

/-- All operators are looser than a collation. -/
theorem BinaryOp.wrapsRight_of_tight (op : BinaryOp) {level : Nat} (tight : Level.collate ≤ level) :
    op.wrapsRight level = false := by
  have looser : op.level < Level.collate := by cases op <;> decide
  rw [wrapsRight]
  split
  · exact decide_eq_false (by omega)
  · exact decide_eq_false (by omega)

namespace Expr

/-- The expression with the operand collated that is written last, for one that ends with an
operand. -/
def lastCollated? (c : String) : Expr κ → Option (Expr κ)
  | .raw .. | .unary .isNull _ | .unary .isNotNull _ => none
  | .unary .not operand =>
    (if operand.level < Level.not then some (.collate operand c)
      else operand.lastCollated? c).map (.unary .not)
  | .binary op left right =>
    (if op.wrapsRight right.level then some (.collate right c)
      else right.lastCollated? c).map (.binary op left)
  | e => some (.collate e c)

/-- Collating the last operand changes the level only where that is the expression itself. -/
theorem level_lastCollated {c : String} {e e' : Expr κ} (h : e.lastCollated? c = some e') :
    e'.level = e.level ∨ Level.collate ≤ e'.level := by
  cases e with
  | raw sql params => cases h
  | unary op operand =>
    cases op with
    | not =>
      obtain ⟨_, _, rfl⟩ := Option.map_eq_some_iff.mp h
      exact .inl rfl
    | isNull | isNotNull => cases h
  | binary op left right =>
    obtain ⟨_, _, rfl⟩ := Option.map_eq_some_iff.mp h
    exact .inl rfl
  | _ =>
    cases h
    exact .inr (Nat.le_refl _)

theorem pieces_collate_loose {e : Expr κ} {c : String} (loose : e.level < Level.collate) :
    (collate e c).pieces sub = (e.pieces sub).parenthesized ++ [.collation c] := by
  rw [pieces, decide_eq_true loose]
  rfl

theorem pieces_collate_tight {e : Expr κ} {c : String} (tight : Level.collate ≤ e.level) :
    (collate e c).pieces sub = e.pieces sub ++ [.collation c] := by
  rw [pieces, decide_eq_false (Nat.not_lt.mpr tight)]
  rfl

/-- An operand with the collation in its last operand is written as the operand, with the collation
behind it: in parentheses an operand is collated as a whole, and without them as far as it goes. -/
theorem operandPieces_lastCollated {parens : Nat → Bool}
    (tight : ∀ level, Level.collate ≤ level → parens level = false) {c : String} {e e' : Expr κ}
    (inside : ∀ e', e.lastCollated? c = some e' → e'.pieces sub = e.pieces sub ++ [.collation c])
    (h : (if parens e.level then some (.collate e c) else e.lastCollated? c) = some e') :
    operandPieces (parens e'.level) (e'.pieces sub) =
      operandPieces (parens e.level) (e.pieces sub) ++ [.collation c] := by
  by_cases wrapped : parens e.level = true
  · rw [if_pos wrapped] at h
    cases h
    have loose : e.level < Level.collate := by
      refine Nat.lt_of_not_le fun bound => ?_
      rw [tight _ bound] at wrapped
      cases wrapped
    have alone : parens (collate e c).level = false := tight _ (Nat.le_refl _)
    rw [wrapped, alone, pieces_collate_loose loose]
    rfl
  · rw [if_neg wrapped] at h
    have bare : parens e.level = false := by simpa using wrapped
    have bare' : parens e'.level = false := by
      rcases level_lastCollated h with same | bound
      · rw [same, bare]
      · exact tight _ bound
    rw [bare, bare']
    exact inside e' h

/-- A collation written behind an expression is written behind its last operand. -/
theorem pieces_lastCollated {c : String} {e e' : Expr κ} (h : e.lastCollated? c = some e') :
    e'.pieces sub = e.pieces sub ++ [.collation c] := by
  induction e generalizing e' with
  | raw sql params => cases h
  | unary op operand ih =>
    cases op with
    | isNull | isNotNull => cases h
    | not =>
      obtain ⟨operand', last, rfl⟩ := Option.map_eq_some_iff.mp h
      have tight : ∀ level, Level.collate ≤ level → decide (level < Level.not) = false := by
        intro level bound
        have below : Level.not ≤ Level.collate := by decide
        exact decide_eq_false (Nat.not_lt.mpr (Nat.le_trans below bound))
      have written := operandPieces_lastCollated tight (fun _ => ih) (by simpa using last)
      rw [pieces, pieces, written]
      rfl
  | binary op left right _ ih =>
    obtain ⟨right', last, rfl⟩ := Option.map_eq_some_iff.mp h
    have written := operandPieces_lastCollated (fun _ => op.wrapsRight_of_tight) (fun _ => ih) last
    rw [pieces, pieces, written, List.append_assoc]
    rfl
  | _ =>
    cases h
    exact pieces_collate_tight (by simp [level, Level.collate, Level.atom])

/-- The text of an expression with a collation behind it is that of the collated expression just
when that needs no parentheses. -/
theorem collated_sql_eq_iff (sub : κ → Pieces) (e : Expr κ) (c : String) (rest : Pieces) :
    Pieces.sql (e.pieces sub ++ .collation c :: rest) =
        Pieces.sql ((collate e c).pieces sub ++ rest) ↔
      Level.collate ≤ e.level := by
  by_cases tight : Level.collate ≤ e.level
  · rw [pieces_collate_tight tight, List.append_assoc]
    exact iff_of_true rfl tight
  · refine iff_of_false (fun same => ?_) tight
    rw [pieces_collate_loose (Nat.lt_of_not_le tight), List.append_assoc] at same
    have lengths := congrArg List.length (String.ofList_injective same)
    rw [Pieces.chars_append, Pieces.chars_append, Pieces.chars_parenthesized] at lengths
    simp only [List.singleton_append, List.length_append, List.length_cons, List.length_nil]
      at lengths
    omega

end Expr

end Operands

/-- Collating the last order term, whatever directions follow, puts the collation behind the term as
it stands. That is the text of the collated expression only for expressions that bind at least as
tightly as `COLLATE`; otherwise the collation belongs to the operand that is written last. -/
theorem collation_follows_last_operand (b : Builder) {e : Expr Query} (complete : e.Complete)
    (c : String) (ds : List Direction) :
    b.run (.orderBy (.expr e) :: .collate c :: ds.map .direct) =
      b.orderedBy ⟨e, ds.getLast?, some c⟩ ∧
    b.run (.orderBy (.expr (.collate e c)) :: ds.map .direct) =
      b.orderedBy ⟨.collate e c, ds.getLast?, none⟩ ∧
    (Pieces.sql (OrderTerm.pieces Query.pieces ⟨e, ds.getLast?, some c⟩) =
        Pieces.sql (OrderTerm.pieces Query.pieces ⟨.collate e c, ds.getLast?, none⟩) ↔
      Level.collate ≤ e.level) ∧
    ∀ e', e.lastCollated? c = some e' →
      OrderTerm.pieces Query.pieces ⟨e, ds.getLast?, some c⟩ =
        OrderTerm.pieces Query.pieces ⟨e', ds.getLast?, none⟩ := by
  refine ⟨?_, ?_, ?_, ?_⟩
  · have ordered : (b.apply (.orderBy (.expr e))).apply (.collate c) =
        b.orderedBy ⟨e, none, some c⟩ := by
      show (b.orderBy (.expr e)).refineOrder _ _ = _
      rw [Builder.orderBy_eq b complete, Builder.refineOrder_orderedBy]
    show ((b.apply _).apply _).run _ = _
    rw [ordered, Builder.run_direct, Option.or_none]
  · have ordered : b.apply (.orderBy (.expr (.collate e c))) =
        b.orderedBy ⟨.collate e c, none, none⟩ :=
      Builder.orderBy_eq b ((Expr.complete_collate e c).mpr complete)
    show (b.apply _).run _ = _
    rw [ordered, Builder.run_direct, Option.or_none]
  · have texts := Expr.collated_sql_eq_iff Query.pieces e c
      (ds.getLast?.toList.map fun d => .keyword (" " ++ d.keyword))
    simpa [OrderTerm.pieces] using texts
  · intro e' last
    simp [OrderTerm.pieces, Expr.pieces_lastCollated last]

/-- Two columns put together. -/
def concatenated : Expr Query := .binary .concat (.column none "a") (.column none "b")

theorem collation_follows_last_operand_concat :
    Builder.run {} [.orderBy (.expr concatenated), .collate "NOCASE", .direct .desc] =
      Builder.orderedBy {} ⟨concatenated, some .desc, some "NOCASE"⟩ ∧
    Pieces.sql (OrderTerm.pieces Query.pieces ⟨concatenated, some .desc, some "NOCASE"⟩) ≠
      Pieces.sql (OrderTerm.pieces Query.pieces
        ⟨.collate concatenated "NOCASE", some .desc, none⟩) ∧
    OrderTerm.pieces Query.pieces ⟨concatenated, some .desc, some "NOCASE"⟩ =
      OrderTerm.pieces Query.pieces
        ⟨.binary .concat (.column none "a") (.collate (.column none "b") "NOCASE"),
          some .desc, none⟩ := by
  have complete : concatenated.Complete := (Expr.complete_binary _ _ _).mpr
    ⟨Expr.complete_column none "a", Expr.complete_column none "b"⟩
  obtain ⟨called, _, alike, last⟩ :=
    collation_follows_last_operand {} complete "NOCASE" [.desc]
  exact ⟨called, fun same => absurd (alike.mp same) (by decide), last _ rfl⟩

/-- The collation of a term is not always written as that of its expression. -/
theorem not_every_term_collated_whole :
    ¬ ∀ (e : Expr Query) (c : String) (q whole : Query), (∀ sql params, e ≠ .raw sql params) →
      (Builder.run {} [.readFrom (.table "t"), .orderBy (.expr e), .collate c]).build = .ok q →
      (Builder.run {} [.readFrom (.table "t"), .orderBy (.expr (.collate e c))]).build =
        .ok whole →
      q.pieces.sql = whole.pieces.sql := by
  intro alike
  have same := alike concatenated "NOCASE" _ _ (by simp [concatenated]) rfl rfl
  have different : "SELECT * FROM t ORDER BY a || b COLLATE NOCASE" ≠
      "SELECT * FROM t ORDER BY (a || b) COLLATE NOCASE" := by decide
  exact different same

end SqlSelect
