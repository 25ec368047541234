import SqlSelect.Proofs.OpenSlots
import SqlSelect.Proofs.Outline
import SqlSelect.Proofs.Validity

/-! What an embedded query contributes to the statement it is embedded in.

A query with one place left open in it (`Surrounding`) is written around whatever is put there, the
same for everything that is (`Surrounding.pieces_fill`), and so are surroundings of surroundings.
Any query that is embedded in another one, at any depth, stands in such a place
(`Query.Built.exists_surroundings`). The main statement is `embedded_as_it_stands`: text and values
of an embedded query are in the outer statement as one stretch each, the values behind those of the
placeholders that are written before. -/
namespace SqlSelect

/-! ### Labels for embedded queries

Any labels that stand for the queries of a part, in order, are those of a part of the same form. -/

section Labels
variable {κ ι : Type} {g : ι → κ}

/-- The list case for all parts. -/
theorem exists_labelled_list {α β : Type} {queries : α → List κ} {labels : β → List ι}
    {map : β → α} {l : List α}
    (each : ∀ a ∈ l, ∀ ls : List ι, ls.map g = queries a → ∃ b, map b = a ∧ labels b = ls)
    {ls : List ι} (h : ls.map g = l.flatMap queries) :
    ∃ l' : List β, l'.map map = l ∧ l'.flatMap labels = ls := by
  induction l generalizing ls with
  | nil => exact ⟨[], rfl, (List.map_eq_nil_iff.mp h).symm⟩
  | cons a l ih =>
    obtain ⟨first, rest⟩ := List.forall_mem_cons.mp each
    obtain ⟨here, behind, rfl, labelled, labelled'⟩ := List.map_eq_append_iff.mp h
    obtain ⟨b, rfl, rfl⟩ := first here labelled
    obtain ⟨l', rfl, rfl⟩ := ih rest labelled'
    exact ⟨b :: l', rfl, rfl⟩

theorem exists_labelled_option {α β : Type} {queries : α → List κ} {labels : β → List ι}
    {map : β → α} {o : Option α}
    (each : ∀ a ∈ o, ∀ ls : List ι, ls.map g = queries a → ∃ b, map b = a ∧ labels b = ls)
    {ls : List ι} (h : ls.map g = o.toList.flatMap queries) :
    ∃ o' : Option β, o'.map map = o ∧ o'.toList.flatMap labels = ls := by
  cases o with
  | none => exact ⟨none, rfl, (List.map_eq_nil_iff.mp h).symm⟩
  | some a =>
    rw [Option.toList_some, List.flatMap_singleton] at h
    obtain ⟨b, rfl, rfl⟩ := each a rfl ls h
    exact ⟨some b, rfl, List.flatMap_singleton _ _⟩

theorem Expr.exists_labelled (e : Expr κ) (ls : List ι) (h : ls.map g = e.queries) :
    ∃ e' : Expr ι, e'.map g = e ∧ e'.queries = ls := by
  induction e generalizing ls with
  | column table name => exact ⟨.column table name, rfl, (List.map_eq_nil_iff.mp h).symm⟩
  | literal v => exact ⟨.literal v, rfl, (List.map_eq_nil_iff.mp h).symm⟩
  | placeholder => exact ⟨.placeholder, rfl, (List.map_eq_nil_iff.mp h).symm⟩
  | bound p => exact ⟨.bound p, rfl, (List.map_eq_nil_iff.mp h).symm⟩
  | raw sql params => exact ⟨.raw sql params, rfl, (List.map_eq_nil_iff.mp h).symm⟩
  | unary op operand ih =>
    obtain ⟨operand', rfl, rfl⟩ := ih ls h
    exact ⟨.unary op operand', rfl, rfl⟩
  | binary op left right ihl ihr =>
    obtain ⟨_, _, rfl, labelled, labelled'⟩ := List.map_eq_append_iff.mp h
    obtain ⟨left', rfl, rfl⟩ := ihl _ labelled
    obtain ⟨right', rfl, rfl⟩ := ihr _ labelled'
    exact ⟨.binary op left' right', rfl, rfl⟩
  | call name args ih =>
    rw [queries, queriesOfAll_eq] at h
    obtain ⟨args', rfl, rfl⟩ := exists_labelled_list ih h
    exact ⟨.call name args', by rw [map, mapAll_eq], by rw [queries, queriesOfAll_eq]⟩
  | collate operand collation ih =>
    obtain ⟨operand', rfl, rfl⟩ := ih ls h
    exact ⟨.collate operand' collation, rfl, rfl⟩
  | subquery q =>
    obtain ⟨label, _, rfl, rfl, none⟩ := List.map_eq_cons_iff.mp h
    exact ⟨.subquery label, rfl, by rw [List.map_eq_nil_iff.mp none, queries]⟩

theorem Source.exists_labelled (s : Source κ) (ls : List ι) (h : ls.map g = s.queries) :
    ∃ s' : Source ι, s'.map g = s ∧ s'.queries = ls := by
  cases s with
  | table name => exact ⟨.table name, rfl, (List.map_eq_nil_iff.mp h).symm⟩
  | subquery q =>
    obtain ⟨label, _, rfl, rfl, none⟩ := List.map_eq_cons_iff.mp h
    exact ⟨.subquery label, rfl, by rw [List.map_eq_nil_iff.mp none, queries]⟩

theorem FromClause.exists_labelled (c : FromClause κ) (ls : List ι) (h : ls.map g = c.queries) :
    ∃ c' : FromClause ι, c'.map g = c ∧ c'.queries = ls := by
  obtain ⟨source, aliasName⟩ := c
  obtain ⟨source', rfl, rfl⟩ := source.exists_labelled ls h
  exact ⟨⟨source', aliasName⟩, rfl, rfl⟩

theorem Item.exists_labelled (i : Item κ) (ls : List ι) (h : ls.map g = i.queries) :
    ∃ i' : Item ι, i'.map g = i ∧ i'.queries = ls := by
  cases i with
  | allColumns table => exact ⟨.allColumns table, rfl, (List.map_eq_nil_iff.mp h).symm⟩
  | expr e aliasName =>
    obtain ⟨e', rfl, rfl⟩ := e.exists_labelled ls h
    exact ⟨.expr e' aliasName, rfl, rfl⟩

theorem JoinConstraint.exists_labelled (c : JoinConstraint κ) (ls : List ι)
    (h : ls.map g = c.queries) : ∃ c' : JoinConstraint ι, c'.map g = c ∧ c'.queries = ls := by
  cases c with
  | on e =>
    obtain ⟨e', rfl, rfl⟩ := e.exists_labelled ls h
    exact ⟨.on e', rfl, rfl⟩
  | sharedColumns names => exact ⟨.sharedColumns names, rfl, (List.map_eq_nil_iff.mp h).symm⟩

theorem Join.exists_labelled (j : Join κ) (ls : List ι) (h : ls.map g = j.queries) :
    ∃ j' : Join ι, j'.map g = j ∧ j'.queries = ls := by
  obtain ⟨kind, target, aliasName, constraint⟩ := j
  obtain ⟨_, _, rfl, labelled, labelled'⟩ := List.map_eq_append_iff.mp h
  obtain ⟨target', rfl, rfl⟩ := target.exists_labelled _ labelled
  obtain ⟨constraint', rfl, rfl⟩ :=
    exists_labelled_option (fun c _ => c.exists_labelled) labelled'
  exact ⟨⟨kind, target', aliasName, constraint'⟩, rfl, rfl⟩

theorem Block.exists_labelled (b : Block κ) (ls : List ι) (h : ls.map g = b.queries) :
    ∃ b' : Block ι, b'.map g = b ∧ b'.queries = ls := by
  have exprs : ∀ (es : List (Expr κ)) (ls : List ι), ls.map g = es.flatMap Expr.queries →
      ∃ es' : List (Expr ι), es'.map (Expr.map g) = es ∧ es'.flatMap Expr.queries = ls :=
    fun es _ => exists_labelled_list fun e _ => e.exists_labelled
  obtain ⟨distinct, projection, source, joins, selection, groupBy, having⟩ := b
  obtain ⟨_, _, rfl, h, inHaving⟩ := List.map_eq_append_iff.mp h
  obtain ⟨_, _, rfl, h, inGroupBy⟩ := List.map_eq_append_iff.mp h
  obtain ⟨_, _, rfl, h, inSelection⟩ := List.map_eq_append_iff.mp h
  obtain ⟨_, _, rfl, h, inJoins⟩ := List.map_eq_append_iff.mp h
  obtain ⟨_, _, rfl, inProjection, inSource⟩ := List.map_eq_append_iff.mp h
  obtain ⟨projection', rfl, rfl⟩ :=
    exists_labelled_list (fun i _ => i.exists_labelled) inProjection
  obtain ⟨source', rfl, rfl⟩ := exists_labelled_option (fun c _ => c.exists_labelled) inSource
  obtain ⟨joins', rfl, rfl⟩ := exists_labelled_list (fun j _ => j.exists_labelled) inJoins
  obtain ⟨selection', rfl, rfl⟩ := exprs _ _ inSelection
  obtain ⟨groupBy', rfl, rfl⟩ := exprs _ _ inGroupBy
  obtain ⟨having', rfl, rfl⟩ := exprs _ _ inHaving
  exact ⟨⟨distinct, projection', source', joins', selection', groupBy', having'⟩, rfl, rfl⟩

theorem Trailing.exists_labelled (t : Trailing κ) (ls : List ι) (h : ls.map g = t.queries) :
    ∃ t' : Trailing ι, t'.map g = t ∧ t'.queries = ls := by
  obtain ⟨orderBy, limit, offset⟩ := t
  obtain ⟨_, _, rfl, h, inOffset⟩ := List.map_eq_append_iff.mp h
  obtain ⟨_, inLimit, rfl, inTerms, labelled⟩ := List.map_eq_append_iff.mp h
  obtain ⟨orderBy', rfl, rfl⟩ : ∃ terms : List (OrderTerm ι),
      terms.map (OrderTerm.map g) = orderBy ∧ terms.flatMap (fun t => t.expr.queries) = _ := by
    refine exists_labelled_list (fun term _ ls h => ?_) inTerms
    obtain ⟨e, direction, collation⟩ := term
    obtain ⟨e', rfl, rfl⟩ := e.exists_labelled ls h
    exact ⟨⟨e', direction, collation⟩, rfl, rfl⟩
  obtain ⟨limit', rfl, rfl⟩ : ∃ limit' : Limit ι, limit'.map g = limit ∧
      limit'.queries = inLimit := by
    cases limit with
    | unset => exact ⟨.unset, rfl, (List.map_eq_nil_iff.mp labelled).symm⟩
    | null => exact ⟨.null, rfl, (List.map_eq_nil_iff.mp labelled).symm⟩
    | value e =>
      obtain ⟨e', rfl, rfl⟩ := e.exists_labelled _ labelled
      exact ⟨.value e', rfl, rfl⟩
  obtain ⟨offset', rfl, rfl⟩ := exists_labelled_option (fun e _ => e.exists_labelled) inOffset
  exact ⟨⟨orderBy', limit', offset'⟩, rfl, rfl⟩

theorem Body.exists_labelled (b : Body κ) (ls : List ι) (h : ls.map g = b.queries) :
    ∃ b' : Body ι, b'.map g = b ∧ b'.queries = ls := by
  obtain ⟨earlier, current, trailing⟩ := b
  obtain ⟨_, _, rfl, h, inTrailing⟩ := List.map_eq_append_iff.mp h
  rw [blocks, List.flatMap_append, List.flatMap_map, List.flatMap_singleton] at h
  obtain ⟨_, _, rfl, inEarlier, inCurrent⟩ := List.map_eq_append_iff.mp h
  obtain ⟨earlier', rfl, rfl⟩ : ∃ links : List (Link ι),
      links.map (Link.map g) = earlier ∧ links.flatMap (fun l => l.block.queries) = _ := by
    refine exists_labelled_list (fun l _ ls h => ?_) inEarlier
    obtain ⟨block, op⟩ := l
    obtain ⟨block', rfl, rfl⟩ := block.exists_labelled ls h
    exact ⟨⟨block', op⟩, rfl, rfl⟩
  obtain ⟨current', rfl, rfl⟩ := current.exists_labelled _ inCurrent
  obtain ⟨trailing', rfl, rfl⟩ := trailing.exists_labelled _ inTrailing
  exact ⟨⟨earlier', current', trailing'⟩, rfl, by
    simp [queries, blocks, List.flatMap_map]⟩

end Labels

/-! ### A query around an open place -/

/-- A query with one place left open in it, and what is embedded before and behind that place. -/
structure Surrounding where
  body : Body (Option Query)
  before : List Query
  behind : List Query
  hole : body.queries = before.map some ++ none :: behind.map some
  limited : body.trailing.Limited

namespace Surrounding

/-- Puts a query into the open place. -/
def fill (s : Surrounding) (q : Query) : Query := .mk (s.body.map (·.getD q))

/-- Which of the embedded queries the open place stands for. -/
def place (s : Surrounding) : Nat := s.before.length

end Surrounding

namespace Outline
variable {κ : Type}

/-- What is written depends on how the queries with a place are written, and on nothing else. -/
theorem fill_congr {o : Outline κ} {sub sub' : κ → Pieces} (h : ∀ q ∈ o.queries, sub q = sub' q) :
    o.fill sub = o.fill sub' := by
  induction o with
  | nil => rfl
  | cons entry o ih =>
    cases entry with
    | inl p => exact congrArg (p :: ·) (ih h)
    | inr q =>
      obtain ⟨first, rest⟩ := List.forall_mem_cons.mp h
      show (sub q).parenthesized ++ fill sub o = (sub' q).parenthesized ++ fill sub' o
      rw [first, ih rest]

/-- The place of a query cuts an outline in two. -/
theorem exists_cut_at {o : Outline κ} {before behind : List κ} {q : κ}
    (h : o.queries = before ++ q :: behind) : ∃ front back : Outline κ,
      o = front ++ .inr q :: back ∧ front.queries = before ∧ back.queries = behind := by
  obtain ⟨start, rest, rfl, hstart, hrest⟩ := List.filterMap_eq_append_iff.mp h
  obtain ⟨more, entry, back, rfl, quiet, hentry, hback⟩ := List.filterMap_eq_cons_iff.mp hrest
  obtain rfl : entry = .inr q := Sum.getRight?_eq_some_iff.mp hentry
  refine ⟨start ++ more, back, (List.append_assoc ..).symm, ?_, hback⟩
  rw [queries_append, queries, hstart, queries, List.filterMap_eq_nil_iff.mpr quiet,
    List.append_nil]

end Outline

/-- A query is written around what is put into its open place, which it does not depend on. -/
theorem Surrounding.pieces_fill (s : Surrounding) : ∃ front back : Pieces,
    ∀ q, (s.fill q).pieces = front ++ q.pieces.parenthesized ++ back := by
  obtain ⟨o, listed, writes⟩ := Body.outlined s.limited
  obtain ⟨front, back, rfl, hfront, hback⟩ := o.exists_cut_at (listed.trans s.hole)
  -- Only what is put into the open place is looked up there, so nothing may stand for it elsewhere.
  let written : Option Query → Pieces := fun embedded => embedded.elim [] Query.pieces
  have elsewhere : ∀ (qs : List Query) (o : Outline (Option Query)), o.queries = qs.map some →
      ∀ q, o.fill (fun embedded => (embedded.getD q).pieces) = o.fill written := by
    intro qs o places q
    refine Outline.fill_congr fun embedded there => ?_
    obtain ⟨inner, _, rfl⟩ := List.mem_map.mp (places ▸ there)
    rfl
  refine ⟨front.fill written, back.fill written, fun q => ?_⟩
  calc (s.fill q).pieces
      = s.body.pieces fun embedded => (embedded.getD q).pieces := by
        rw [fill, Query.pieces_mk, Body.pieces_map]
        rfl
    _ = front.fill (fun embedded => (embedded.getD q).pieces) ++
          (q.pieces.parenthesized ++ back.fill fun embedded => (embedded.getD q).pieces) :=
        (writes _).trans (Outline.fill_append ..)
    _ = front.fill written ++ q.pieces.parenthesized ++ back.fill written := by
        rw [elsewhere _ _ hfront, elsewhere _ _ hback, List.append_assoc]

/-- Queries around one another, the outermost first, are written around what is put into the
innermost one. -/
theorem pieces_of_surroundings {around : List Surrounding} (h : around ≠ []) :
    ∃ front back : Pieces, ∀ q, (around.foldr Surrounding.fill q).pieces =
      front ++ q.pieces.parenthesized ++ back := by
  induction around with
  | nil => exact absurd rfl h
  | cons s around ih =>
    obtain ⟨front, back, outer⟩ := s.pieces_fill
    by_cases innermost : around = []
    · subst innermost
      exact ⟨front, back, outer⟩
    · obtain ⟨front', back', inner⟩ := ih innermost
      refine ⟨front ++ .leftParen :: front', back' ++ .rightParen :: back, fun q => ?_⟩
      rw [List.foldr_cons, outer, inner]
      simp [Pieces.parenthesized]

/-! ### Every embedded query has its surroundings -/

/-- The query at a place: `path` says which of the embedded queries to go on with at each level. -/
def Query.at? (q : Query) : List Nat → Option Query
  | [] => some q
  | i :: path => q.body.queries[i]?.bind fun inner => inner.at? path

theorem Query.Built.limited {q : Query} (h : q.Built) : q.body.trailing.Limited := by
  obtain ⟨_, _, grown, rfl⟩ := h.grown
  exact grown.attached_built.trailing.limited

theorem Query.Built.exists_surrounding {q inner : Query} {i : Nat} (h : q.Built)
    (there : q.body.queries[i]? = some inner) :
    ∃ s : Surrounding, s.place = i ∧ s.fill inner = q := by
  obtain ⟨inside, rfl⟩ := List.getElem?_eq_some_iff.mp there
  have labels : ((q.body.queries.take i).map some ++
      none :: (q.body.queries.drop (i + 1)).map some).map (·.getD q.body.queries[i]) =
      q.body.queries := by
    simp [Function.comp_def]
  obtain ⟨body, same, hole⟩ := q.body.exists_labelled _ labels
  have limited : body.trailing.Limited := by
    have limited := h.limited
    rw [← same] at limited
    exact Trailing.limited_of_map limited
  refine ⟨⟨body, _, _, hole, limited⟩, ?_, ?_⟩
  · exact List.length_take_of_le (Nat.le_of_lt inside)
  · rw [Surrounding.fill, same]
    cases q
    rfl

theorem Query.Built.exists_surroundings {outer q : Query} {path : List Nat} (h : outer.Built)
    (there : outer.at? path = some q) :
    ∃ around : List Surrounding, around.map Surrounding.place = path ∧
      around.foldr Surrounding.fill q = outer := by
  induction path generalizing outer with
  | nil => exact ⟨[], rfl, (Option.some.inj there).symm⟩
  | cons i path ih =>
    obtain ⟨inner, here, further⟩ := Option.bind_eq_some_iff.mp there
    obtain ⟨s, place, rfl⟩ := h.exists_surrounding here
    have built := h.inside (.embedded .self (List.mem_of_getElem? here))
    obtain ⟨around, places, rfl⟩ := ih built further
    exact ⟨s :: around, by rw [List.map_cons, place, places], rfl⟩

/-- Where no placeholder is open, each has its value. -/
theorem Pieces.length_args {ps : Pieces} (h : none ∉ ps.slots) :
    ps.args.length = ps.placeholders.length := by
  rw [← List.length_map Prod.snd, placeholders_values, args, List.filterMap_length_eq_length]
  intro slot there
  have closed : slot ≠ none := fun same => h (same ▸ there)
  exact Option.isSome_iff_ne_none.mpr closed

/-- A query that is embedded in a built one, at any depth and in any position, is written there as
it is on its own, in parentheses, and its values are a stretch of the values behind those of the
placeholders written before it. What stands before and behind it is the same for any query that is
put into its place. -/
theorem embedded_as_it_stands {outer q : Query} {path : List Nat} (built : outer.Built)
    (embedded : path ≠ []) (there : outer.at? path = some q) :
    ∃ (around : List Surrounding) (front back : Pieces),
      around.map Surrounding.place = path ∧ around.foldr Surrounding.fill q = outer ∧
      (∀ r, (around.foldr Surrounding.fill r).pieces =
        front ++ r.pieces.parenthesized ++ back) ∧
      outer.statement.sql = front.sql ++ "(" ++ q.statement.sql ++ ")" ++ back.sql ∧
      outer.statement.args =
        front.args.map Param.text ++ q.statement.args ++ back.args.map Param.text ∧
      front.args.length = front.placeholders.length := by
  obtain ⟨around, places, rfl⟩ := built.exists_surroundings there
  have surrounded : around ≠ [] := by
    rintro rfl
    exact embedded places.symm
  obtain ⟨front, back, written⟩ := pieces_of_surroundings surrounded
  refine ⟨around, front, back, places, rfl, written, ?_, ?_, ?_⟩
  · rw [Query.statement, written, Pieces.sql_append, Pieces.sql_append, Pieces.sql_parenthesized]
    simp only [Query.statement, String.append_assoc]
  · rw [Query.statement, written, Pieces.args_append, Pieces.args_append, Pieces.args_parenthesized,
      List.map_append, List.map_append]
    rfl
  · have settled := built.settled
    rw [written, List.append_assoc, Pieces.slots_append] at settled
    exact Pieces.length_args fun missing => settled (List.mem_append_left _ missing)

/-- A query, one that reads from it, and one that compares with that, each with a value. -/
def innerCalls : List Call := [.readFrom (.table "u"), .filter (.text "b = ?") [⟨"1"⟩]]

def middleCalls : List Call :=
  [.readFrom (.builder (Builder.run {} innerCalls)), .filter (.text "c = ?") [⟨"2"⟩]]

def outerCalls : List Call :=
  [.expr (.raw "?" [⟨"0"⟩]), .readFrom (.table "t"),
    .filter (.expr (.inQuery (.column none "id") (.mk (Builder.run {} middleCalls).body))) []]

theorem embedded_as_it_stands_compared :
    ∃ front back : Pieces, (Query.mk (Builder.run {} outerCalls).body).statement.sql =
        front.sql ++ "(" ++ "SELECT * FROM u WHERE (b = ?)" ++ ")" ++ back.sql ∧
      ["0", "1", "2"] = front.args.map Param.text ++ ["1"] ++ back.args.map Param.text := by
  have inner : Grown innerCalls (Builder.run {} innerCalls) := .of_unattached _ rfl rfl
  have middle : Grown middleCalls (Builder.run {} middleCalls) := by
    refine Grown.empty.run middleCalls ?_ ?_
    · simp [middleCalls, Call.queries, SourceArg.queries, Clause.queries]
    · simp [middleCalls, Call.builders, SourceArg.builders]
      exact .grown inner
  have outer : Grown outerCalls (Builder.run {} outerCalls) := by
    refine Grown.empty.run outerCalls ?_ ?_
    · simp [outerCalls, Call.queries, SourceArg.queries, Clause.queries, Expr.queries, Expr.inQuery]
      exact .build (.grown middle) rfl
    · simp [outerCalls, Call.builders, SourceArg.builders]
  have built : Query.Built (.mk (Builder.run {} outerCalls).body) := .build (.grown outer) rfl
  have there : Query.at? (.mk (Builder.run {} outerCalls).body) [0, 0] =
      some (.mk (Builder.run {} innerCalls).body) := rfl
  obtain ⟨_, front, back, _, _, _, sql, args, _⟩ :=
    embedded_as_it_stands built (List.cons_ne_nil 0 [0]) there
  exact ⟨front, back, sql, args⟩

end SqlSelect
