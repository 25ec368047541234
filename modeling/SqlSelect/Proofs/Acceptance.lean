import SqlSelect.Proofs.Arguments
import SqlSelect.Proofs.Forks
import SqlSelect.Proofs.Refinement

/-! One contract for all that takes an expression with values.

Predicates are taken for rows, for a join and for groups (`Subject`), and an expression is also
taken alone, to have its values listed. All of these refuse the same expressions and values, for the
same reason (`Subject.taken`), terms and limits refuse what is refused with no values
(`Builder.taken_term`), and an accepted predicate is written behind a keyword while nothing else
changes (`Subject.gains`). The main statement is `accepted_alike`. -/
namespace SqlSelect

/-! ### Errors -/

theorem errorOf?_map {α β : Type} (f : α → β) (r : Except QueryError α) :
    errorOf? (r.map f) = errorOf? r := by
  cases r <;> rfl

/-- What needs no values is what no values are enough for. -/
theorem Expr.errorOf?_fullyBound {κ : Type} (e : Expr κ) :
    errorOf? e.fullyBound = errorOf? (e.bind []) := by
  unfold fullyBound bind
  cases e.surplus? with
  | some counts => rfl
  | none =>
    by_cases closed : e.openCount = 0 <;> simp [closed, errorOf?]

theorem Expr.Complete.bind_nil {κ : Type} {e : Expr κ} (h : e.Complete) : e.bind [] = .ok e := by
  simp [bind, h.surplus, h.bound, fill_nil]

theorem ParamList.errorOf?_addExpression (l : ParamList) (e : Expr Query) (vs : List Param) :
    errorOf? (l.addExpression e vs) = errorOf? (e.bind vs) :=
  errorOf?_map _ _

/-! ### Predicates -/

/-- What a predicate is about. -/
inductive Subject where
  | rows
  | join
  | groups

namespace Subject

/-- The call that takes a predicate. -/
def call : Subject → Clause → List Param → Call
  | rows => .filter
  | join => .on
  | groups => .having

/-- Whether a predicate can be taken: directly behind a join, and where there are groups. -/
def Present (b : Builder) : Subject → Prop
  | rows => True
  | join => b.cursor = .join
  | groups => b.body.current.groupBy ≠ []

/-- What is written for the predicate that a new one takes the place of. -/
def replaced (b : Builder) : Subject → Pieces
  | join => (b.body.current.joins.getLast?.bind Join.constraint).toList.flatMap
      (JoinConstraint.pieces Query.pieces)
  | rows | groups => []

variable {s : Subject} {b : Builder} {p : Clause} {given : List Param}

theorem refusal?_call (there : s.Present b) :
    b.refusal? (s.call p given) = errorOf? (p.predicate given) := by
  cases s with
  | rows => rfl
  | join =>
    have cursor : b.cursor = .join := there
    simp [call, Builder.refusal?, Builder.misuse?, Builder.misplaced?, cursor, Call.argumentError?]
  | groups =>
    have grouped : b.body.current.groupBy ≠ [] := there
    have misuse : b.misuse? (.having p given) = none := by
      simp only [Builder.misuse?]
      cases p.predicate given with
      | error e => rfl
      | ok e => cases e <;> simp [grouped]
    rw [call, Builder.refusal?, misuse]
    rfl

/-- A predicate is refused just for what is wrong with it. -/
theorem taken (there : s.Present b) :
    b.Taken (errorOf? (p.predicate given)) (b.apply (s.call p given)) :=
  refusal?_call there ▸ b.taken_apply _

/-- Only what a predicate comes to is looked at. -/
theorem apply_congr {p' : Clause} {given' : List Param}
    (same : p.predicate given = p'.predicate given') :
    b.apply (s.call p given) = b.apply (s.call p' given') := by
  cases s with
  | rows =>
    show b.filter p given = b.filter p' given'
    rw [Builder.filter, same, Builder.filter]
  | join =>
    show b.on p given = b.on p' given'
    rw [Builder.on, same, Builder.on]
  | groups =>
    show b.having p given = b.having p' given'
    rw [Builder.having, same, Builder.having]

end Subject

/-! ### What a predicate adds -/

/-- What is written is as before, with a predicate behind a keyword in place of what is replaced. -/
def Gains (replaced predicate before after : Pieces) : Prop :=
  ∃ front back word, before = front ++ replaced ++ back ∧
    after = front ++ .keyword word :: (predicate.parenthesized ++ back)

namespace Gains
variable {replaced predicate before after : Pieces}

theorem prepend (ahead : Pieces) (h : Gains replaced predicate before after) :
    Gains replaced predicate (ahead ++ before) (ahead ++ after) := by
  obtain ⟨front, back, word, rfl, rfl⟩ := h
  exact ⟨ahead ++ front, back, word, by simp only [List.append_assoc],
    by simp only [List.append_assoc]⟩

theorem append (h : Gains replaced predicate before after) (behind : Pieces) :
    Gains replaced predicate (before ++ behind) (after ++ behind) := by
  obtain ⟨front, back, word, rfl, rfl⟩ := h
  exact ⟨front, back ++ behind, word, by simp only [List.append_assoc],
    by simp only [List.append_assoc, List.cons_append]⟩

end Gains

theorem intercalate_concat {α : Type} {separator : List α} {l : List (List α)} (h : l ≠ [])
    (last : List α) :
    separator.intercalate (l ++ [last]) = separator.intercalate l ++ separator ++ last := by
  induction l with
  | nil => exact absurd rfl h
  | cons first l ih =>
    cases l with
    | nil => simp
    | cons second l =>
      rw [List.cons_append, List.cons_append, List.intercalate_cons_cons,
        List.intercalate_cons_cons, ← List.cons_append, ih (List.cons_ne_nil second l)]
      simp only [List.append_assoc]

/-- The first predicate stands behind the keyword of the clause, others behind `AND`. -/
theorem conjunctionPieces_gains (word : String) (pss : List Pieces) (ps : Pieces) :
    Gains [] ps (conjunctionPieces word pss) (conjunctionPieces word (pss ++ [ps])) := by
  refine ⟨conjunctionPieces word pss, [], if pss = [] then word else " AND ", by simp, ?_⟩
  cases pss with
  | nil => simp [conjunctionPieces]
  | cons qs pss =>
    have joined := @intercalate_concat _ [Piece.keyword " AND "] _
      (List.cons_ne_nil qs.parenthesized (pss.map Pieces.parenthesized)) ps.parenthesized
    simpa [conjunctionPieces] using congrArg (Piece.keyword word :: ·) joined

theorem Join.gains (j : Join Query) (e : Expr Query) :
    Gains (j.constraint.toList.flatMap (JoinConstraint.pieces Query.pieces))
      (e.pieces Query.pieces) (j.pieces Query.pieces)
      ({ j with constraint := some (.on e) }.pieces Query.pieces) := by
  have constraint : Gains (j.constraint.toList.flatMap (JoinConstraint.pieces Query.pieces))
      (e.pieces Query.pieces) (j.constraint.toList.flatMap (JoinConstraint.pieces Query.pieces))
      ((some (.on e)).toList.flatMap (JoinConstraint.pieces Query.pieces)) :=
    ⟨[], [], " ON ", by simp, by simp [JoinConstraint.pieces]⟩
  exact (constraint.prepend _).prepend [_]

/-! A block gains what its clause for the predicate does. -/

theorem Block.gains_selection (block : Block Query) (e : Expr Query) :
    Gains [] (e.pieces Query.pieces) (block.pieces Query.pieces)
      ({ block with selection := block.selection ++ [e] }.pieces Query.pieces) := by
  have clause := conjunctionPieces_gains " WHERE "
    (block.selection.map (Expr.pieces Query.pieces)) (e.pieces Query.pieces)
  rw [← List.map_singleton, ← List.map_append] at clause
  exact (((clause.prepend _).append _).append _).prepend [_]

theorem Block.gains_having (block : Block Query) (e : Expr Query) :
    Gains [] (e.pieces Query.pieces) (block.pieces Query.pieces)
      ({ block with having := block.having ++ [e] }.pieces Query.pieces) := by
  have clause := conjunctionPieces_gains " HAVING "
    (block.having.map (Expr.pieces Query.pieces)) (e.pieces Query.pieces)
  rw [← List.map_singleton, ← List.map_append] at clause
  exact (clause.prepend _).prepend [_]

theorem Block.gains_constraint {block : Block Query} {joins : List (Join Query)} {j : Join Query}
    (last : block.joins = joins ++ [j]) (e : Expr Query) :
    Gains (j.constraint.toList.flatMap (JoinConstraint.pieces Query.pieces))
      (e.pieces Query.pieces) (block.pieces Query.pieces)
      ({ block with joins := joins ++ [{ j with constraint := some (.on e) }] }.pieces
        Query.pieces) := by
  have clause := (j.gains e).prepend (joins.flatMap (Join.pieces Query.pieces))
  rw [← List.flatMap_singleton (Join.pieces Query.pieces), ← List.flatMap_append, ← last,
    ← List.flatMap_singleton (Join.pieces Query.pieces), ← List.flatMap_append] at clause
  exact ((((clause.prepend _).append _).append _).append _).prepend [_]

/-- What the current block gains, the query gains. -/
theorem Builder.gains_modifyBlock {b : Builder} {f : Block Query → Block Query}
    {replaced predicate : Pieces} (h : Gains replaced predicate
      (b.body.current.pieces Query.pieces) ((f b.body.current).pieces Query.pieces)) :
    Gains replaced predicate (Query.mk b.body).pieces (Query.mk (b.modifyBlock f).body).pieces := by
  rw [Query.pieces_mk, Query.pieces_mk]
  exact (h.prepend _).append _

/-- Every reachable builder has something where its cursor points. -/
theorem Builder.Reachable.points {b : Builder} (h : b.Reachable) : ∃ places, b.Points places := by
  obtain ⟨_, _⟩ := Builder.reachable_iff_linear.mp h
  exact ⟨_, Builder.points_run (Builder.points_nothing rfl) _⟩

/-- An accepted predicate is written in the query, and nothing else there is written otherwise. -/
theorem Subject.gains {s : Subject} {b : Builder} {p : Clause} {given : List Param}
    {e : Expr Query} (reachable : b.Reachable) (there : s.Present b)
    (accepted : p.predicate given = .ok (some e)) :
    Gains (s.replaced b) (e.pieces Query.pieces) (Query.mk b.body).pieces
      (Query.mk (b.apply (s.call p given)).body).pieces := by
  cases s with
  | rows =>
    have applied : b.apply (rows.call p given) = b.detached.modifyBlock fun block =>
        { block with selection := block.selection ++ [e] } := by
      show b.filter p given = _
      rw [Builder.filter, accepted]
      rfl
    rw [applied]
    exact Builder.gains_modifyBlock (b := b.detached) (b.body.current.gains_selection e)
  | join =>
    have cursor : b.cursor = .join := there
    obtain ⟨places, points⟩ := reachable.points
    obtain ⟨joins, j, was, changed, _⟩ :=
      points.last_join cursor ({ · with constraint := some (.on e) })
    have applied : b.apply (join.call p given) = b.constrain (.on e) := by
      show b.on p given = _
      rw [Builder.on, if_pos cursor, accepted]
      rfl
    have last : join.replaced b =
        j.constraint.toList.flatMap (JoinConstraint.pieces Query.pieces) := by
      simp [replaced, was]
    have constrained := Block.gains_constraint was e
    rw [← changed] at constrained
    rw [applied, last]
    exact Builder.gains_modifyBlock constrained
  | groups =>
    have applied : b.apply (groups.call p given) = b.detached.modifyBlock fun block =>
        { block with having := block.having ++ [e] } := by
      show b.having p given = _
      have grouped : b.body.current.groupBy.isEmpty = false := List.isEmpty_eq_false_iff.mpr there
      simp only [Builder.having, accepted, Except.bind, grouped]
      rfl
    rw [applied]
    exact Builder.gains_modifyBlock (b := b.detached) (b.body.current.gains_having e)

/-! ### Without values -/

/-- The calls that take an expression and no values for it. -/
def Expr.calls (e : Expr Query) : List Call :=
  [.expr e, .groupBy (.expr e), .orderBy (.expr e), .limit (.expr e), .offset (.expr e)]

/-- Where one of them is allowed, it is refused just for what is wrong with the expression. -/
theorem Builder.taken_term {b : Builder} {e : Expr Query} {c : Call} (h : c ∈ e.calls)
    (allowed : b.misuse? c = none) : b.Taken (errorOf? (e.bind [])) (b.apply c) := by
  have argument : c.argumentError? = errorOf? e.fullyBound := by
    simp only [Expr.calls, List.mem_cons, List.not_mem_nil, or_false] at h
    rcases h with rfl | rfl | rfl | rfl | rfl
    · rfl
    all_goals exact errorOf?_map some e.fullyBound
  have refused : b.refusal? c = errorOf? (e.bind []) := by
    rw [refusal?, allowed, argument, e.errorOf?_fullyBound]
    rfl
  exact refused ▸ b.taken_apply c

/-! ### One contract -/

/-- A list of values and the predicates of a query take the same expressions with the same values,
and refuse the others for the same reason; what is refused changes nothing. The values that the list
gains are those of the predicate, which the query is written with and was not before. Text is taken
as the fragment that it makes with the values. What is taken without values is what the list takes
with none. -/
theorem accepted_alike {b : Builder} (reachable : b.Reachable) (e : Expr Query) (vs : List Param)
    (l : ParamList) :
    (∀ s : Subject, s.Present b →
      b.Taken (errorOf? (l.addExpression e vs)) (b.apply (s.call (.expr e) vs)) ∧
      ∀ l', l.addExpression e vs = .ok l' → ∃ (front predicate back : Pieces) (word : String),
        l'.params = l.params ++ predicate.args ∧
        (Query.mk b.body).pieces = front ++ s.replaced b ++ back ∧
        (Query.mk (b.apply (s.call (.expr e) vs)).body).pieces =
          front ++ .keyword word :: (predicate.parenthesized ++ back) ∧
        ∀ q, (b.apply (s.call (.expr e) vs)).build = .ok q →
          q.statement.args = (front.args ++ predicate.args ++ back.args).map Param.text) ∧
    (∀ (s : Subject) (sql : String), Text.isBlank sql = false →
      (∀ r, Expr.ofRaw sql vs = .ok r →
        b.apply (s.call (.text sql) vs) = b.apply (s.call (.expr r) [])) ∧
      ∀ err, (Expr.ofRaw sql vs : Except QueryError (Expr Query)) = .error err → s.Present b →
        b.Taken (some err) (b.apply (s.call (.text sql) vs))) ∧
    ∀ c ∈ e.calls, b.misuse? c = none →
      b.Taken (errorOf? (l.addExpression e [])) (b.apply c) := by
  refine ⟨fun s there => ⟨?_, fun l' given => ?_⟩, fun s sql text => ⟨fun r made => ?_,
    fun err refused there => ?_⟩, fun c hc allowed => ?_⟩
  · have taken : b.Taken (errorOf? ((Clause.expr e).predicate vs)) _ := Subject.taken there
    rwa [Clause.predicate, errorOf?_map, ← l.errorOf?_addExpression] at taken
  · obtain ⟨bound, accepted, rfl⟩ := Except.map_eq_ok.mp given
    have predicate : (Clause.expr e).predicate vs = .ok (some bound) := by
      rw [Clause.predicate, accepted]
      rfl
    obtain ⟨front, back, word, before, after⟩ := Subject.gains reachable there predicate
    refine ⟨front, bound.pieces Query.pieces, back, word, rfl, before, after, fun q built => ?_⟩
    obtain ⟨_, _, _, rfl⟩ := Builder.build_eq_ok.mp built
    rw [Query.statement, after, Pieces.args_append]
    show (front.args ++ Pieces.args ((bound.pieces Query.pieces).parenthesized ++ back)).map _ = _
    rw [Pieces.args_append, Pieces.args_parenthesized, List.append_assoc]
  · refine Subject.apply_congr ?_
    obtain ⟨_, complete⟩ := Expr.ofRaw_eq_ok made
    rw [Clause.predicate, text, if_neg Bool.false_ne_true, made, Clause.predicate,
      complete.bind_nil]
  · have taken : b.Taken (errorOf? ((Clause.text sql).predicate vs)) _ := Subject.taken there
    rwa [Clause.predicate, text, if_neg Bool.false_ne_true, errorOf?_map, refused] at taken
  · rw [l.errorOf?_addExpression]
    exact Builder.taken_term hc allowed

/-- A join with a predicate that is going to be replaced. -/
def constrainedCalls : List Call :=
  [.readFrom (.table "t"), .join (.table "u"), .on (.text "a = ?") [⟨"0"⟩]]

/-- A comparison that waits for a value. -/
def openComparison : Expr Query := .binary .eq (.column none "a") .placeholder

/-- What it comes to with one value in place of the predicate from before. -/
def comparedQuery : Query :=
  .mk { current := {
    source := some { source := .table "t" }
    joins := [{
      kind := .inner
      target := .table "u"
      constraint := some (.on (.binary .eq (.column none "a") (.bound ⟨"1"⟩))) }] } }

/-- With no value the comparison is refused. With one, the list gains just the value that the query
is built with, and the predicate from before is gone. -/
theorem accepted_alike_joined :
    let b := Builder.run {} constrainedCalls
    let nine : ParamList := ⟨[⟨"9"⟩]⟩
    errorOf? (nine.addExpression openComparison []) = some (.argumentCount 1 0) ∧
      (b.on (.expr openComparison) []).error = some (.argumentCount 1 0) ∧
      nine.addExpression openComparison [⟨"1"⟩] = .ok ⟨[⟨"9"⟩, ⟨"1"⟩]⟩ ∧
      (b.on (.expr openComparison) [⟨"1"⟩]).build = .ok comparedQuery ∧
      ∃ front predicate back : Pieces,
        [⟨"9"⟩, ⟨"1"⟩] = nine.params ++ predicate.args ∧
        "SELECT * FROM t JOIN u ON (a = ?)" = front.sql ++ " ON (a = ?)" ++ back.sql ∧
        ["1"] = (front.args ++ predicate.args ++ back.args).map Param.text := by
  intro b nine
  have joined : b.Reachable := .grown (.of_unattached _ rfl rfl)
  have refused : errorOf? (nine.addExpression openComparison []) = some (.argumentCount 1 0) := rfl
  have accepted : nine.addExpression openComparison [⟨"1"⟩] = .ok ⟨[⟨"9"⟩, ⟨"1"⟩]⟩ := rfl
  have built : (b.on (.expr openComparison) [⟨"1"⟩]).build = .ok comparedQuery := rfl
  have written : (Query.mk (Builder.run {} constrainedCalls).body).pieces.sql =
      "SELECT * FROM t JOIN u ON (a = ?)" := by decide
  have replaced : (Subject.join.replaced b).sql = " ON (a = ?)" := rfl
  have args : comparedQuery.statement.args = ["1"] := rfl
  have taken : b.Taken _ (b.on (.expr openComparison) []) :=
    ((accepted_alike joined openComparison [] nine).1 .join rfl).1
  have clean : b.error = none := rfl
  have error : (b.on (.expr openComparison) []).error = some (.argumentCount 1 0) := by
    rw [taken.error, refused, clean, Option.none_or]
  obtain ⟨front, predicate, back, word, list, before, _, values⟩ :=
    ((accepted_alike joined openComparison [⟨"1"⟩] nine).1 .join rfl).2 _ accepted
  refine ⟨refused, error, accepted, built, front, predicate, back, list, ?_, ?_⟩
  · have text := congrArg Pieces.sql before
    rw [Pieces.sql_append, Pieces.sql_append, replaced] at text
    exact written.symm.trans text
  · rw [← args]
    exact values comparedQuery built

end SqlSelect
