import SqlSelect.Proofs.Phrase

/-! Where a statement has its blocks, its limit and its offset.

Everything embedded in a statement is written in parentheses, so the words `SELECT`, `LIMIT` and
`OFFSET` that stand outside of them are those of the statement itself (`Pieces.outerWords`). An
expression has none of them there, and a block has only its `SELECT`.

The main statement, `Body.outerWords_pieces`, puts a query together from that: there is a `SELECT`
for every block, and behind the last of them one `LIMIT` and one `OFFSET` where there are any. -/
namespace SqlSelect

/-! ### Words outside of parentheses -/

/-- A word that opens a block, the limit or the offset. -/
def Piece.word? : Piece → Option String
  | .keyword text => if text ∈ ["SELECT ", " LIMIT ", " OFFSET "] then some text else none
  | _ => none

/-- In how many parentheses the next piece stands. -/
def Piece.depthAfter (depth : Nat) : Piece → Nat
  | .leftParen => depth + 1
  | .rightParen => depth - 1
  | _ => depth

namespace Pieces

/-- The words outside of all parentheses, when the first piece stands in so many already. -/
def wordsAt : Nat → Pieces → List String
  | _, [] => []
  | 0, p :: ps => p.word?.toList ++ wordsAt (p.depthAfter 0) ps
  | depth + 1, p :: ps => wordsAt (p.depthAfter (depth + 1)) ps

/-- The words `SELECT`, `LIMIT` and `OFFSET` outside of all parentheses, in the order written. -/
def outerWords (ps : Pieces) : List String := wordsAt 0 ps

/-- The parentheses belong together, and these are the words outside of them. -/
structure Outside (words : List String) (ps : Pieces) : Prop where
  outer : ∀ rest, wordsAt 0 (ps ++ rest) = words ++ wordsAt 0 rest
  inner : ∀ depth rest, wordsAt (depth + 1) (ps ++ rest) = wordsAt (depth + 1) rest

namespace Outside
variable {ps qs : Pieces} {words others : List String} {text : String}

theorem outerWords_eq (h : Outside words ps) : ps.outerWords = words := by
  have all := h.outer []
  rwa [List.append_nil, wordsAt, List.append_nil] at all

theorem nil : Outside [] [] := ⟨fun _ => rfl, fun _ _ => rfl⟩

theorem append (hp : Outside words ps) (hq : Outside others qs) :
    Outside (words ++ others) (ps ++ qs) := by
  constructor
  · intro rest
    rw [List.append_assoc, hp.outer, hq.outer, List.append_assoc]
  · intro depth rest
    rw [List.append_assoc, hp.inner, hq.inner]

/-- A piece that is no parenthesis. -/
theorem piece {p : Piece} (flat : ∀ depth, p.depthAfter depth = depth) :
    Outside p.word?.toList [p] := by
  constructor
  · intro rest
    show p.word?.toList ++ wordsAt (p.depthAfter 0) rest = _
    rw [flat]
  · intro depth rest
    show wordsAt (p.depthAfter (depth + 1)) rest = _
    rw [flat]

theorem quiet {p : Piece} (word : p.word? = none) (flat : ∀ depth, p.depthAfter depth = depth) :
    Outside [] [p] := by
  have one := piece flat
  rwa [word] at one

/-- A word of any clause, with what stands behind it. -/
theorem opened (word : (Piece.keyword text).word? = none) (h : Outside words ps) :
    Outside words (.keyword text :: ps) :=
  (quiet word fun _ => rfl).append h

/-- What a block, a limit or an offset opens with, and what stands behind it. -/
theorem marked (text : String) (word : (Piece.keyword text).word? = some text) (h : Outside words ps) :
    Outside (text :: words) (.keyword text :: ps) := by
  have one := piece (p := .keyword text) fun _ => rfl
  rw [word] at one
  exact one.append h

theorem parenthesized (h : Outside words ps) : Outside [] ps.parenthesized := by
  have closed : ∀ depth rest, wordsAt (depth + 1) (ps ++ [.rightParen] ++ rest) =
      wordsAt depth rest := by
    intro depth rest
    rw [List.append_assoc, h.inner]
    rfl
  exact ⟨closed 0, fun depth => closed (depth + 1)⟩

theorem operandPieces (parens : Bool) (h : Outside [] ps) :
    Outside [] (Expr.operandPieces parens ps) := by
  cases parens with
  | true => exact h.parenthesized
  | false => exact h

theorem intercalate {separator : Piece} (between : Outside [] [separator]) {pss : List Pieces}
    (h : ∀ ps ∈ pss, Outside [] ps) : Outside [] ([separator].intercalate pss) := by
  induction pss with
  | nil => exact nil
  | cons ps pss ih =>
    obtain ⟨first, rest⟩ := List.forall_mem_cons.mp h
    cases pss with
    | nil =>
      rw [List.intercalate_singleton]
      exact first
    | cons qs qss =>
      rw [List.intercalate_cons_cons]
      exact (first.append between).append (ih rest)

theorem commaSeparated {pss : List Pieces} (h : ∀ ps ∈ pss, Outside [] ps) :
    Outside [] (commaSeparated pss) :=
  intercalate (quiet rfl fun _ => rfl) h

theorem listPieces (text : String) {pss : List Pieces} (word : (Piece.keyword text).word? = none)
    (h : ∀ ps ∈ pss, Outside [] ps) : Outside [] (listPieces text pss) := by
  unfold SqlSelect.listPieces
  by_cases empty : pss.isEmpty = true
  · rw [if_pos empty]
    exact nil
  · rw [if_neg empty]
    exact opened word (commaSeparated h)

theorem conjunctionPieces (text : String) {pss : List Pieces} (word : (Piece.keyword text).word? = none)
    (h : ∀ ps ∈ pss, Outside [] ps) : Outside [] (conjunctionPieces text pss) := by
  unfold SqlSelect.conjunctionPieces
  by_cases empty : pss.isEmpty = true
  · rw [if_pos empty]
    exact nil
  · rw [if_neg empty]
    refine opened word (intercalate (quiet rfl fun _ => rfl) ?_)
    rw [List.forall_mem_map]
    exact fun ps hps => (h ps hps).parenthesized

theorem aliasPieces (aliasName : Option String) : Outside [] (aliasPieces aliasName) := by
  cases aliasName with
  | none => exact nil
  | some name => exact opened rfl (quiet rfl fun _ => rfl)

/-- As many times the same words as there are parts. -/
theorem flatMap {α : Type} {pieces : α → Pieces} {l : List α}
    (h : ∀ a ∈ l, Outside words (pieces a)) :
    Outside (l.flatMap fun _ => words) (l.flatMap pieces) := by
  induction l with
  | nil => exact nil
  | cons a l ih =>
    obtain ⟨first, rest⟩ := List.forall_mem_cons.mp h
    exact first.append (ih rest)

theorem quiet_flatMap {α : Type} {pieces : α → Pieces} {l : List α}
    (h : ∀ a ∈ l, Outside [] (pieces a)) : Outside [] (l.flatMap pieces) := by
  have all := flatMap h
  rwa [List.flatMap_eq_nil_iff.mpr fun _ _ => rfl] at all

end Outside

end Pieces

open Pieces (Outside)

/-- The parentheses of every phrase belong together. -/
theorem Phrase.outside {fresh leaves : Bool} {ps : Pieces} (h : Phrase fresh ps leaves) :
    ∃ words, Outside words ps := by
  induction h with
  | nil => exact ⟨_, .nil⟩
  | append _ _ ihp ihq =>
    obtain ⟨words, outside⟩ := ihp
    obtain ⟨others, outside'⟩ := ihq
    exact ⟨_, outside.append outside'⟩
  | fresh _ ih => exact ih
  | leaves _ ih => exact ih
  | @atom p isAtom =>
    have flat : ∀ depth, p.depthAfter depth = depth := by
      intro depth
      cases p with
      | leftParen => cases isAtom
      | rightParen => cases isAtom
      | _ => rfl
    exact ⟨_, .piece flat⟩
  | allOf => exact ⟨_, (Outside.piece fun _ => rfl).append (.piece fun _ => rfl)⟩
  | parenthesized _ ih =>
    obtain ⟨words, outside⟩ := ih
    exact ⟨_, outside.parenthesized⟩
  | _ => exact ⟨_, .piece fun _ => rfl⟩

/-! ### Expressions and blocks -/

/-- An embedded query stands in parentheses. -/
theorem Query.outside_parenthesized (q : Query) : Outside [] q.pieces.parenthesized := by
  obtain ⟨words, outside⟩ := q.phrase.outside
  exact outside.parenthesized

theorem Expr.outside (e : Expr Query) : Outside [] (e.pieces Query.pieces) := by
  induction e with
  | unary op operand ih =>
    cases op with
    | not => exact (Outside.quiet rfl fun _ => rfl).append (.operandPieces _ ih)
    | isNull => exact (Outside.operandPieces _ ih).append (.quiet rfl fun _ => rfl)
    | isNotNull => exact (Outside.operandPieces _ ih).append (.quiet rfl fun _ => rfl)
  | binary op left right ihl ihr =>
    exact (Outside.operandPieces _ ihl).append
      ((Outside.quiet rfl fun _ => rfl).append (.operandPieces _ ihr))
  | call name args ih =>
    simp only [pieces, piecesOfAll_eq]
    refine (Outside.quiet rfl fun _ => rfl).append (.parenthesized (.commaSeparated ?_))
    rw [List.forall_mem_map]
    exact ih
  | collate operand collation ih =>
    exact (Outside.operandPieces _ ih).append (.quiet rfl fun _ => rfl)
  | subquery q => exact q.outside_parenthesized
  | _ => exact .quiet rfl fun _ => rfl

theorem Expr.outside_all (es : List (Expr Query)) :
    ∀ ps ∈ es.map (Expr.pieces Query.pieces), Outside [] ps := by
  rw [List.forall_mem_map]
  exact fun e _ => e.outside

theorem Source.outside (s : Source Query) : Outside [] (s.pieces Query.pieces) := by
  cases s with
  | table name => exact .quiet rfl fun _ => rfl
  | subquery q => exact q.outside_parenthesized

theorem Item.outside (i : Item Query) : Outside [] (i.pieces Query.pieces) := by
  rcases i with (_ | table) | ⟨e, aliasName⟩
  · exact .opened rfl .nil
  · exact (Outside.quiet rfl fun _ => rfl).append (.opened rfl .nil)
  · exact e.outside.append (.aliasPieces aliasName)

theorem FromClause.outside (c : FromClause Query) : Outside [] (c.pieces Query.pieces) :=
  .opened rfl (c.source.outside.append (.aliasPieces c.aliasName))

theorem JoinConstraint.outside (c : JoinConstraint Query) : Outside [] (c.pieces Query.pieces) := by
  cases c with
  | on e => exact .opened rfl e.outside.parenthesized
  | sharedColumns names =>
    refine .opened rfl (.parenthesized (.commaSeparated ?_))
    rw [List.forall_mem_map]
    exact fun name _ => .quiet rfl fun _ => rfl

theorem Join.outside (j : Join Query) : Outside [] (j.pieces Query.pieces) := by
  have word : (Piece.keyword (" " ++ j.kind.keyword ++ " ")).word? = none := by
    cases j.kind <;> rfl
  have target := j.target.outside.append (.aliasPieces j.aliasName)
  exact .opened word (target.append (.quiet_flatMap fun c _ => c.outside))

theorem projectionPieces_outside (projection : List (Item Query)) :
    Outside [] (projectionPieces Query.pieces projection) := by
  unfold projectionPieces
  by_cases empty : projection.isEmpty = true
  · rw [if_pos empty]
    exact .opened rfl .nil
  · rw [if_neg empty]
    refine .commaSeparated ?_
    rw [List.forall_mem_map]
    exact fun i _ => i.outside

theorem Block.outside (b : Block Query) : Outside ["SELECT "] (b.pieces Query.pieces) := by
  have distinct : Outside [] (if b.distinct then [.keyword "DISTINCT "] else []) := by
    cases b.distinct with
    | true => exact .opened rfl .nil
    | false => exact .nil
  have items := distinct.append (projectionPieces_outside b.projection)
  have read := items.append (.quiet_flatMap fun c (_ : c ∈ b.source.toList) => c.outside)
  have joined := read.append (.quiet_flatMap fun j (_ : j ∈ b.joins) => j.outside)
  have filtered := joined.append
    (.conjunctionPieces " WHERE " rfl (Expr.outside_all b.selection))
  have grouped := filtered.append
    (.listPieces " GROUP BY " rfl (Expr.outside_all b.groupBy))
  exact .marked _ rfl (grouped.append (.conjunctionPieces _ rfl (Expr.outside_all b.having)))

/-! ### Queries -/

theorem Link.outside (l : Link Query) : Outside ["SELECT "] (l.pieces Query.pieces) := by
  have word : (Piece.keyword (" " ++ l.op.keyword ++ " ")).word? = none := by
    cases l.op <;> rfl
  exact l.block.outside.append (.opened word .nil)

theorem OrderTerm.outside (t : OrderTerm Query) : Outside [] (t.pieces Query.pieces) := by
  have collation : Outside [] (t.collation.toList.map Piece.collation) := by
    cases t.collation with
    | none => exact .nil
    | some name => exact .quiet rfl fun _ => rfl
  have direction : Outside [] (t.direction.toList.map fun d => .keyword (" " ++ d.keyword)) := by
    rcases t.direction with _ | (_ | _)
    · exact .nil
    · exact .opened rfl .nil
    · exact .opened rfl .nil
  exact (t.expr.outside.append collation).append direction

/-- What is written of a query before its limit: all the blocks with the operators between them,
and the order. -/
def Body.chainPieces (b : Body Query) : Pieces :=
  b.earlier.flatMap (Link.pieces Query.pieces) ++ b.current.pieces Query.pieces ++
    listPieces " ORDER BY " (b.trailing.orderBy.map (OrderTerm.pieces Query.pieces))

theorem Body.outside_chainPieces (b : Body Query) :
    Outside (b.blocks.map fun _ => "SELECT ") b.chainPieces := by
  have order : Outside []
      (listPieces " ORDER BY " (b.trailing.orderBy.map (OrderTerm.pieces Query.pieces))) := by
    refine .listPieces _ rfl ?_
    rw [List.forall_mem_map]
    exact fun t _ => t.outside
  have earlier := Outside.flatMap fun l (_ : l ∈ b.earlier) => l.outside
  have chain := (earlier.append b.current.outside).append order
  have words : b.earlier.flatMap (fun _ => ["SELECT "]) ++ ["SELECT "] ++ [] =
      b.blocks.map fun _ => "SELECT " := by
    rw [List.append_nil, ← List.map_eq_flatMap, Body.blocks, List.map_append, List.map_map]
    rfl
  rwa [words] at chain

/-- The limit, if it is a value. -/
def Limit.value? : Limit Query → Option (Expr Query)
  | .value e => some e
  | _ => none

/-- The limit and the offset, each written if there is one. -/
def Trailing.pagingPieces (t : Trailing Query) : Pieces :=
  t.limit.value?.toList.flatMap (fun e => .keyword " LIMIT " :: e.pieces Query.pieces) ++
    t.offset.toList.flatMap (fun e => .keyword " OFFSET " :: e.pieces Query.pieces)

theorem Trailing.outside_pagingPieces (t : Trailing Query) :
    Outside ((t.limit.value?.toList.map fun _ => " LIMIT ") ++
      t.offset.toList.map fun _ => " OFFSET ") t.pagingPieces := by
  have limit := Outside.flatMap fun e (_ : e ∈ t.limit.value?.toList) =>
    Outside.marked " LIMIT " rfl e.outside
  have offset := Outside.flatMap fun e (_ : e ∈ t.offset.toList) =>
    Outside.marked " OFFSET " rfl e.outside
  have both := limit.append offset
  rwa [← List.map_eq_flatMap, ← List.map_eq_flatMap] at both

/-- With a limit for every offset, a query is written as its blocks and its order, then the limit,
then the offset. -/
theorem Body.pieces_eq {b : Body Query}
    (limited : b.trailing.offset.isSome → b.trailing.limit.value?.isSome) :
    b.pieces Query.pieces = b.chainPieces ++ b.trailing.pagingPieces := by
  have paging : b.trailing.limit.pieces Query.pieces b.trailing.offset =
      b.trailing.pagingPieces := by
    unfold Trailing.pagingPieces
    cases limit : b.trailing.limit with
    | value e => simp [Limit.pieces, Limit.value?]
    | _ =>
      have offset : b.trailing.offset = none := by simpa [limit, Limit.value?] using limited
      rw [offset]
      rfl
  simp only [pieces, Trailing.pieces, paging, chainPieces, List.append_assoc]

/-- There is a `SELECT` for every block, and `LIMIT` and `OFFSET` are written once, behind all of
them, where there is a limit or an offset to write. -/
theorem Body.outerWords_pieces {b : Body Query}
    (limited : b.trailing.offset.isSome → b.trailing.limit.value?.isSome) :
    (b.pieces Query.pieces).outerWords = (b.blocks.map fun _ => "SELECT ") ++
      (b.trailing.limit.value?.toList.map fun _ => " LIMIT ") ++
      (b.trailing.offset.toList.map fun _ => " OFFSET ") := by
  have outside := b.outside_chainPieces.append b.trailing.outside_pagingPieces
  rw [Body.pieces_eq limited, outside.outerWords_eq, List.append_assoc]

end SqlSelect
