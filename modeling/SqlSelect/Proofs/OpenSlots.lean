import SqlSelect.Proofs.Growth

/-! Which value goes to which placeholder.

`Supplied` says of two texts, character by character with the slots they were written for, that the
second is the first with its open slots filled from left to right. It is made for writing: texts
that are supplied one by one are supplied in a row, by the values in a row (`Supplied.append`). What
fills an expression goes through it by its structure, and takes several values at once for a raw
fragment; that the text it is written as is supplied in order is `Expr.supplied_fill`, by induction
on the expression. The main statement is `values_go_to_open_slots`. -/
namespace SqlSelect

/-! ### Supplying what is written -/

/-- The open slots of a text take the values, one each, from left to right. The characters stay, and
so do the slots that have their value. -/
inductive Supplied : List Written → List Param → List Written → Prop where
  | nil : Supplied [] [] []
  | plain {w vs w'} (c : Char) : Supplied w vs w' → Supplied ((c, none) :: w) vs ((c, none) :: w')
  | kept {w vs w'} (c : Char) (p : Param) : Supplied w vs w' →
      Supplied ((c, some (some p)) :: w) vs ((c, some (some p)) :: w')
  | given {w vs w'} (c : Char) (p : Param) : Supplied w vs w' →
      Supplied ((c, some none) :: w) (p :: vs) ((c, some (some p)) :: w')

namespace Supplied
variable {v w v' w' : List Written} {us vs : List Param}

theorem append (h : Supplied v us v') (k : Supplied w vs w') :
    Supplied (v ++ w) (us ++ vs) (v' ++ w') := by
  induction h with
  | nil => exact k
  | plain c _ ih => exact .plain c ih
  | kept c p _ ih => exact .kept c p ih
  | given c p _ ih => exact .given c p ih

/-- A text without open slots takes nothing. -/
theorem unchanged (h : none ∉ w.filterMap Prod.snd) : Supplied w [] w := by
  induction w with
  | nil => exact .nil
  | cons entry w ih =>
    rcases entry with ⟨c, _ | _ | p⟩
    · exact .plain c (ih h)
    · exact absurd (List.mem_cons_self) h
    · exact .kept c p (ih fun there => h (List.mem_cons_of_mem _ there))

theorem chars (h : Supplied w vs w') : w'.map Prod.fst = w.map Prod.fst := by
  induction h with
  | nil => rfl
  | plain c _ ih | kept c p _ ih | given c p _ ih => rw [List.map_cons, List.map_cons, ih]

/-- Afterwards no slot is open. -/
theorem settled (h : Supplied w vs w') : none ∉ w'.filterMap Prod.snd := by
  induction h with
  | nil => simp
  | plain c _ ih => exact ih
  | kept c p _ ih | given c p _ ih => simpa using ih

end Supplied

namespace Pieces
variable {ps qs : Pieces} {vs : List Param}

theorem supplied_of_slots (h : none ∉ ps.slots) : Supplied ps.written [] ps.written :=
  .unchanged (by rwa [written_slots])

theorem supplied_cons {p : Piece} (h : p.slots = []) (k : Supplied ps.written vs qs.written) :
    Supplied (written (p :: ps)) vs (written (p :: qs)) := by
  have one : Supplied p.written [] p.written := .unchanged (by simp [p.written_slots, h])
  exact one.append k

theorem supplied_concat {p : Piece} (h : p.slots = []) (k : Supplied ps.written vs qs.written) :
    Supplied (written (ps ++ [p])) vs (written (qs ++ [p])) := by
  have one : Supplied (written [p]) [] (written [p]) := supplied_of_slots (by simp [h])
  rw [written_append, written_append, ← vs.append_nil]
  exact k.append one

theorem supplied_parenthesized (k : Supplied ps.written vs qs.written) :
    Supplied ps.parenthesized.written vs qs.parenthesized.written :=
  supplied_cons rfl (supplied_concat rfl k)

end Pieces

theorem Expr.supplied_operandPieces {ps qs : Pieces} {vs : List Param} (parens : Bool)
    (k : Supplied ps.written vs qs.written) :
    Supplied (operandPieces parens ps).written vs (operandPieces parens qs).written := by
  cases parens with
  | false => exact k
  | true => exact Pieces.supplied_parenthesized k

/-- A fragment takes the values that its markers miss, behind those it has. -/
theorem Marker.supplied_writtenFrom (quote : Quote) (start : Nat) (s : List Char)
    (params vs : List Param)
    (missing : vs.length = (offsetsFrom quote start s).length - params.length) :
    Supplied (writtenFrom quote s params) vs (writtenFrom quote s (params ++ vs)) := by
  induction s generalizing quote start params vs with
  | nil =>
    have none : vs = [] := List.length_eq_zero_iff.mp (by simpa [offsetsFrom] using missing)
    rw [none]
    cases params <;> exact .nil
  | cons c s ih =>
    cases h : isMarker quote c with
    | false =>
      rw [writtenFrom_plain s _ h, writtenFrom_plain s _ h]
      rw [offsetsFrom, h] at missing
      exact .plain c (ih _ _ _ _ missing)
    | true =>
      rw [writtenFrom_marker s _ h, writtenFrom_marker s _ h]
      simp only [offsetsFrom, h, if_true, List.length_cons] at missing
      cases params with
      | cons p params =>
        exact .kept c p (ih quote (start + c.utf8Size) params vs (by simpa using missing))
      | nil =>
        cases vs with
        | nil => simp at missing
        | cons p vs =>
          exact .given c p (ih quote (start + c.utf8Size) [] vs (by simpa using missing))

/-- The markers that the values do not reach are open. -/
theorem Marker.count_split (sql : String) (params : List Param) :
    (Piece.raw (split sql params)).slots.count none = count sql - params.length := by
  have each : ∀ n, ((List.range n).map (params[·]?)).count none = n - params.length := by
    intro n
    induction n with
    | zero => rw [Nat.zero_sub]; rfl
    | succ n ih =>
      rw [List.range_succ, List.map_append, List.count_append, ih]
      by_cases reached : n < params.length
      · simp [reached]
        omega
      · simp [Nat.le_of_not_lt reached]
        omega
  rw [split_slots, each]

/-! ### Filling an expression -/

namespace Expr
variable {κ : Type} {sub : κ → Pieces}

@[simp] theorem fill_level (e : Expr κ) (vs : List Param) : (e.fill vs).1.level = e.level := by
  cases e with
  | placeholder => cases vs <;> rfl
  | _ => rfl

/-- The placeholders that count as open are the slots without a value. -/
theorem count_slots {e : Expr κ} (settled : ∀ q ∈ e.queries, none ∉ (sub q).slots) :
    (e.pieces sub).slots.count none = e.openCount := by
  induction e with
  | column table name => rfl
  | literal v => rfl
  | placeholder => rfl
  | bound p => rfl
  | raw sql params =>
    rw [pieces, Pieces.slots_cons, Pieces.slots_nil, List.append_nil, Marker.count_split, openCount]
  | unary op operand ih =>
    cases op <;> simpa [pieces, openCount, Piece.slots] using ih settled
  | binary op left right ihl ihr =>
    simp only [queries, List.forall_mem_append] at settled
    simp [pieces, openCount, Piece.slots, ihl settled.1, ihr settled.2]
  | call name args ih =>
    simp only [queries, queriesOfAll_eq, List.forall_mem_flatMap] at settled
    have each : ∀ e ∈ args, (e.pieces sub).slots.count none = e.openCount :=
      fun e he => ih e he (settled e he)
    have counts : args.map (fun e => (e.pieces sub).slots.count none) = args.map openCount :=
      List.map_congr_left each
    simp only [pieces, openCount, piecesOfAll_eq, openCountAll_eq, Pieces.slots_cons,
      Pieces.slots_parenthesized, Pieces.slots_commaSeparated, Piece.slots, List.nil_append,
      List.flatMap_map, List.count_flatMap, ← counts]
    rfl
  | collate operand collation ih => simpa [pieces, openCount, Piece.slots] using ih settled
  | subquery q =>
    simpa [pieces, openCount, List.count_eq_zero] using settled q List.mem_cons_self

/-- Filling a list of expressions supplies what is written of it, with the commas in between. -/
theorem supplied_fillAll {es : List (Expr κ)} (vs : List Param)
    (each : ∀ e ∈ es, ∀ vs : List Param, e.openCount ≤ vs.length →
      Supplied (e.pieces sub).written (vs.take e.openCount) ((e.fill vs).1.pieces sub).written)
    (enough : openCountAll es ≤ vs.length) :
    Supplied (Pieces.commaSeparated (piecesOfAll sub es)).written (vs.take (openCountAll es))
      (Pieces.commaSeparated (piecesOfAll sub (fillAll es vs).1)).written := by
  induction es generalizing vs with
  | nil => exact .nil
  | cons e es ih =>
    rw [openCountAll] at enough ⊢
    have first := each e List.mem_cons_self vs (by omega)
    have rest := ih (vs.drop e.openCount) (fun e he => each e (List.mem_cons_of_mem _ he))
      (by rw [List.length_drop]; omega)
    rw [List.take_add]
    cases es with
    | nil => simpa [fillAll, piecesOfAll, Pieces.commaSeparated, openCountAll] using first
    | cons d es =>
      simp only [fillAll, fill_rest, piecesOfAll] at rest ⊢
      rw [Pieces.commaSeparated_cons_cons, Pieces.commaSeparated_cons_cons, Pieces.written_append,
        Pieces.written_append]
      exact first.append (Pieces.supplied_cons rfl rest)

/-- Filling an expression supplies what is written of it. -/
theorem supplied_fill {e : Expr κ} (settled : ∀ q ∈ e.queries, none ∉ (sub q).slots)
    (vs : List Param) (enough : e.openCount ≤ vs.length) :
    Supplied (e.pieces sub).written (vs.take e.openCount) ((e.fill vs).1.pieces sub).written := by
  induction e generalizing vs with
  | column table name => exact Pieces.supplied_of_slots (by simp [pieces, Piece.slots])
  | literal v => exact Pieces.supplied_of_slots (by simp [pieces, Piece.slots])
  | placeholder =>
    cases vs with
    | nil => simp [openCount] at enough
    | cons p vs => exact .given '?' p .nil
  | bound p => exact .kept '?' p .nil
  | raw sql params =>
    have missing : (vs.take (Marker.count sql - params.length)).length =
        Marker.count sql - params.length := List.length_take_of_le enough
    rw [fill, pieces, pieces, Pieces.written_singleton, Pieces.written_singleton,
      Marker.split_written, Marker.split_written]
    exact Marker.supplied_writtenFrom none 0 sql.toList params _ missing
  | unary op operand ih =>
    have inner := ih settled vs enough
    cases op with
    | not =>
      simp only [fill, pieces, fill_level]
      exact Pieces.supplied_cons rfl (supplied_operandPieces _ inner)
    | isNull | isNotNull =>
      simp only [fill, pieces, fill_level]
      exact Pieces.supplied_concat rfl (supplied_operandPieces _ inner)
  | binary op left right ihl ihr =>
    simp only [queries, List.forall_mem_append] at settled
    rw [openCount] at enough ⊢
    have onLeft := ihl settled.1 vs (by omega)
    have onRight := ihr settled.2 (vs.drop left.openCount) (by rw [List.length_drop]; omega)
    simp only [fill, fill_rest, pieces, fill_level]
    rw [List.take_add, Pieces.written_append, Pieces.written_append]
    exact (supplied_operandPieces _ onLeft).append
      (Pieces.supplied_cons rfl (supplied_operandPieces _ onRight))
  | call name args ih =>
    simp only [queries, queriesOfAll_eq, List.forall_mem_flatMap] at settled
    rw [openCount] at enough ⊢
    have inside := supplied_fillAll vs (fun e he => ih e he (settled e he)) enough
    simp only [fill, pieces]
    exact Pieces.supplied_cons rfl (Pieces.supplied_parenthesized inside)
  | collate operand collation ih =>
    have inner := ih settled vs enough
    simp only [fill, pieces, fill_level]
    exact Pieces.supplied_concat rfl (supplied_operandPieces _ inner)
  | subquery q =>
    have inner := Pieces.supplied_of_slots (settled q List.mem_cons_self)
    exact Pieces.supplied_parenthesized inner

/-! ### When values are accepted -/

mutual

/-- The raw fragments of an expression with their values, those of embedded queries left out. -/
def rawFragments : Expr κ → List (String × List Param)
  | .raw sql params => [(sql, params)]
  | .unary _ operand => operand.rawFragments
  | .binary _ left right => left.rawFragments ++ right.rawFragments
  | .call _ args => rawFragmentsOfAll args
  | .collate operand _ => operand.rawFragments
  | .column .. | .literal _ | .placeholder | .bound _ | .subquery _ => []

def rawFragmentsOfAll : List (Expr κ) → List (String × List Param)
  | [] => []
  | e :: es => e.rawFragments ++ rawFragmentsOfAll es

end

theorem surplus?_eq_none {e : Expr κ} : e.surplus? = none ↔
    ∀ fragment ∈ e.rawFragments, fragment.2.length ≤ Marker.count fragment.1 := by
  induction e with
  | raw sql params => simp [surplus?, rawFragments]
  | binary op left right ihl ihr =>
    rw [surplus?, Option.or_eq_none_iff, ihl, ihr, rawFragments, List.forall_mem_append]
  | unary op operand ih => exact ih
  | collate operand collation ih => exact ih
  | call name args ih =>
    rw [surplus?, rawFragments]
    induction args with
    | nil => simp [surplusOfAll?, rawFragmentsOfAll]
    | cons e es ihs =>
      rw [surplusOfAll?, Option.or_eq_none_iff, rawFragmentsOfAll, List.forall_mem_append,
        ih e List.mem_cons_self, ihs fun d hd => ih d (List.mem_cons_of_mem e hd)]
  | _ => simp [surplus?, rawFragments]

theorem exists_bind_eq_ok {e : Expr κ} {vs : List Param} : (∃ e', e.bind vs = .ok e') ↔
    (∀ fragment ∈ e.rawFragments, fragment.2.length ≤ Marker.count fragment.1) ∧
      vs.length = e.openCount := by
  rw [← surplus?_eq_none, bind]
  cases e.surplus? with
  | some counts => simp
  | none =>
    by_cases enough : e.openCount = vs.length
    · simp [enough]
    · have other : vs.length ≠ e.openCount := fun same => enough same.symm
      simp [enough, other]

theorem bind_eq_error {e : Expr κ} {vs : List Param} {err : QueryError}
    (h : e.bind vs = .error err) : err.isArgumentCount = true := by
  rw [bind] at h
  split at h
  · cases h
    rfl
  · split at h
    · cases h
    · cases h
      rfl

end Expr

theorem Query.Built.settled {q : Query} (h : q.Built) : none ∉ q.pieces.slots := by
  obtain ⟨_, _, grown, rfl⟩ := h.grown
  have settled : Pieces.Settled _ := Query.settled_of_attached grown.attached
  rw [settled]
  simp

/-- Values are accepted for an expression just when no raw fragment in it has more values than
markers, and there are as many as open slots in its text. They go to these slots from left to right;
nothing else in the text changes, and no slot stays open. -/
theorem values_go_to_open_slots {e : Expr Query} (embedded : ∀ q ∈ e.queries, q.Built)
    (vs : List Param) :
    e.openCount = (e.pieces Query.pieces).slots.count none ∧
    ((∃ e', e.bind vs = .ok e') ↔
      (∀ fragment ∈ e.rawFragments, fragment.2.length ≤ Marker.count fragment.1) ∧
        vs.length = (e.pieces Query.pieces).slots.count none) ∧
    (∀ err, e.bind vs = .error err → err.isArgumentCount = true) ∧
    ∀ e', e.bind vs = .ok e' →
      (e'.pieces Query.pieces).sql = (e.pieces Query.pieces).sql ∧
      Supplied (e.pieces Query.pieces).written vs (e'.pieces Query.pieces).written ∧
      none ∉ (e'.pieces Query.pieces).slots ∧
      e'.tables = e.tables := by
  have settled : ∀ q ∈ e.queries, none ∉ q.pieces.slots := fun q hq => (embedded q hq).settled
  have count := Expr.count_slots settled
  refine ⟨count.symm, ?_, fun err => Expr.bind_eq_error, fun e' bound => ?_⟩
  · rw [count]
    exact Expr.exists_bind_eq_ok
  · obtain ⟨_, enough⟩ := Expr.exists_bind_eq_ok.mp ⟨e', bound⟩
    obtain ⟨rfl, _⟩ := Expr.bind_eq_ok bound
    have supplied := Expr.supplied_fill settled vs (Nat.le_of_eq enough.symm)
    rw [← enough, List.take_length] at supplied
    refine ⟨?_, supplied, ?_, ?_⟩
    · rw [Pieces.sql, Pieces.sql, ← Pieces.written_chars, ← Pieces.written_chars, supplied.chars]
    · rw [← Pieces.written_slots]
      exact supplied.settled
    · rw [Expr.tables, Expr.tableNames, Expr.fill_queries]
      rfl

/-- A query with a value of its own. -/
def suppliedCalls : List Call :=
  [.readFrom (.table "t"), .filter (.text "b = ?") [⟨"9"⟩]]

def suppliedQuery : Query := .mk (Builder.run {} suppliedCalls).body

/-- A fragment that misses a value, a placeholder, and a query that misses nothing. -/
def suppliedExpr : Expr Query :=
  .binary .and (.raw "a = ? OR a = ?" [⟨"1"⟩])
    (.binary .isIn .placeholder (.subquery suppliedQuery))

theorem values_go_to_open_slots_fragment :
    ∃ e', suppliedExpr.bind [⟨"2"⟩, ⟨"3"⟩] = .ok e' ∧
      (e'.pieces Query.pieces).sql =
        "(a = ? OR a = ?) AND ? IN (SELECT * FROM t WHERE (b = ?))" ∧
      (e'.pieces Query.pieces).slots =
        [some ⟨"1"⟩, some ⟨"2"⟩, some ⟨"3"⟩, some ⟨"9"⟩] ∧
      e'.tables = suppliedExpr.tables := by
  have built : suppliedQuery.Built := by
    refine .build (.grown (Grown.empty.run suppliedCalls ?_ ?_)) rfl
    · simp [suppliedCalls, Call.queries, SourceArg.queries, Clause.queries]
    · simp [suppliedCalls, Call.builders, SourceArg.builders]
  have embedded : ∀ q ∈ suppliedExpr.queries, q.Built :=
    fun q hq => List.mem_singleton.mp hq ▸ built
  obtain ⟨_, _, _, accepted⟩ := values_go_to_open_slots embedded [⟨"2"⟩, ⟨"3"⟩]
  obtain ⟨text, _, _, tables⟩ := accepted _ rfl
  exact ⟨_, rfl, text, rfl, tables⟩

end SqlSelect
