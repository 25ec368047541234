import SqlSelect.Builder.Call

/-! What a call leaves alone.

What a builder holds for its query comes in parts (`Part`), and every call has only some of them to
write to (`Call.writes`). The main statement, `Builder.agrees_apply`, is that the other parts are
after the call what they were before, whatever the arguments are and whether they are accepted. -/
namespace SqlSelect

/-- The closed blocks, the clauses of the current block and of the whole chain, and the kind of the
next join. -/
inductive Part where
  | closed
  | distinct
  | projection
  | source
  | joins
  | selection
  | groupBy
  | having
  | orderBy
  | limit
  | offset
  | joinKind
deriving DecidableEq, Repr

/-- The parts that a call can change. -/
def Call.writes : Call → List Part
  | .select => []
  | .distinct => [.distinct]
  | .all => [.closed, .distinct]
  | .allColumns | .columns _ | .expr _ | .qualify _ | .aliasByName => [.projection]
  | .aliasAs _ => [.projection, .source, .joins]
  | .readFrom _ => [.source]
  | .left | .cross | .natural => [.joinKind]
  | .join _ => [.joins, .joinKind]
  | .on .. | .sharedColumns _ => [.joins]
  | .filter .. => [.selection]
  | .groupBy _ => [.groupBy]
  | .having .. => [.having]
  | .orderBy _ | .direct _ | .collate _ => [.orderBy]
  | .limit _ => [.limit]
  | .offset _ => [.offset]
  | .compound _ =>
    [.closed, .distinct, .projection, .source, .joins, .selection, .groupBy, .having, .joinKind]

namespace Builder
variable {b next : Builder} {part : Part}

/-- Two builders hold the same in a part. -/
def Agrees (b next : Builder) : Part → Prop
  | .closed => next.body.earlier = b.body.earlier
  | .distinct => next.body.current.distinct = b.body.current.distinct
  | .projection => next.body.current.projection = b.body.current.projection
  | .source => next.body.current.source = b.body.current.source
  | .joins => next.body.current.joins = b.body.current.joins
  | .selection => next.body.current.selection = b.body.current.selection
  | .groupBy => next.body.current.groupBy = b.body.current.groupBy
  | .having => next.body.current.having = b.body.current.having
  | .orderBy => next.body.trailing.orderBy = b.body.trailing.orderBy
  | .limit => next.body.trailing.limit = b.body.trailing.limit
  | .offset => next.body.trailing.offset = b.body.trailing.offset
  | .joinKind => next.pendingJoin = b.pendingJoin

/-- With the same body and the same kind of the next join everything is the same. -/
theorem agrees_of_eq (body : next.body = b.body) (joinKind : next.pendingJoin = b.pendingJoin) :
    b.Agrees next part := by
  cases part with
  | joinKind => exact joinKind
  | _ =>
    unfold Agrees
    rw [body]

theorem agrees_fail (b : Builder) (e : QueryError) : b.Agrees (b.fail e) part :=
  agrees_of_eq rfl rfl

theorem agrees_attempt {α : Type} {settled : Builder} {r : Except QueryError α} {f : α → Builder}
    (failed : b.Agrees settled part) (ok : ∀ a, b.Agrees (f a) part) :
    b.Agrees (settled.attempt (r.map f)) part := by
  cases r with
  | ok a => exact ok a
  | error e => cases part <;> exact failed

theorem agrees_all (closed : part ≠ .closed) (distinct : part ≠ .distinct) :
    b.Agrees b.all part := by
  unfold all
  split
  · cases part with
    | closed => exact absurd rfl closed
    | _ => rfl
  · cases part with
    | distinct => exact absurd rfl distinct
    | _ => rfl

theorem agrees_project (items : List (Item Query)) (projection : part ≠ .projection) :
    b.Agrees (b.project items) part := by
  cases part with
  | projection => exact absurd rfl projection
  | _ => rfl

theorem agrees_aliasAs (name : String) (projection : part ≠ .projection) (source : part ≠ .source)
    (joins : part ≠ .joins) : b.Agrees (b.aliasAs name) part := by
  unfold aliasAs
  split
  · split
    · cases part with
      | projection => exact absurd rfl projection
      | _ => rfl
    · exact agrees_fail b _
    · exact agrees_fail b _
  · cases part with
    | source => exact absurd rfl source
    | _ => rfl
  · cases part with
    | joins => exact absurd rfl joins
    | _ => rfl
  · exact agrees_fail b _

theorem agrees_refineItems (r : Refinement) (f : Item Query → Item Query)
    (projection : part ≠ .projection) : b.Agrees (b.refineItems r f) part := by
  unfold refineItems
  split
  · cases part with
    | projection => exact absurd rfl projection
    | _ => rfl
  · exact agrees_fail b _

theorem agrees_constrain (c : JoinConstraint Query) (joins : part ≠ .joins) :
    b.Agrees (b.constrain c) part := by
  cases part with
  | joins => exact absurd rfl joins
  | _ => rfl

theorem agrees_on (p : Clause) (given : List Param) (joins : part ≠ .joins) :
    b.Agrees (b.on p given) part := by
  unfold on
  split
  · refine agrees_attempt (agrees_of_eq rfl rfl) fun e => ?_
    cases e with
    | none => exact agrees_of_eq rfl rfl
    | some e => exact agrees_constrain _ joins
  · exact agrees_fail b _

theorem agrees_sharedColumns (names : List String) (joins : part ≠ .joins) :
    b.Agrees (b.sharedColumns names) part := by
  unfold sharedColumns
  split
  · split
    · exact agrees_fail b _
    · exact agrees_constrain _ joins
  · exact agrees_fail b _

theorem agrees_having (p : Clause) (given : List Param) (having : part ≠ .having) :
    b.Agrees (b.having p given) part := by
  unfold Builder.having
  rcases p.predicate given with e | (_ | e)
  · exact agrees_of_eq rfl rfl
  · exact agrees_of_eq rfl rfl
  · simp only [Except.bind]
    split
    · exact agrees_of_eq rfl rfl
    · cases part with
      | having => exact absurd rfl having
      | _ => rfl

theorem agrees_refineOrder (r : Refinement) (f : OrderTerm Query → OrderTerm Query)
    (orderBy : part ≠ .orderBy) : b.Agrees (b.refineOrder r f) part := by
  unfold refineOrder
  split
  · cases part with
    | orderBy => exact absurd rfl orderBy
    | _ => rfl
  · exact agrees_fail b _

theorem agrees_limit (arg : LimitArg) (limit : part ≠ .limit) : b.Agrees (b.limit arg) part := by
  unfold Builder.limit
  split
  · refine agrees_attempt (agrees_of_eq rfl rfl) fun e => ?_
    cases part with
    | limit => exact absurd rfl limit
    | _ => rfl
  · exact agrees_of_eq rfl rfl

theorem agrees_offset (arg : LimitArg) (offset : part ≠ .offset) :
    b.Agrees (b.offset arg) part := by
  unfold Builder.offset
  split
  · split
    · exact agrees_of_eq rfl rfl
    · refine agrees_attempt (agrees_of_eq rfl rfl) fun e => ?_
      cases part with
      | offset => exact absurd rfl offset
      | _ => rfl
  · exact agrees_of_eq rfl rfl

/-- A call leaves every part alone that it does not write to. -/
theorem agrees_apply (b : Builder) {c : Call} (h : part ∉ c.writes) :
    b.Agrees (b.apply c) part := by
  cases c with
  | select => exact agrees_of_eq rfl rfl
  | distinct =>
    cases part with
    | distinct => exact absurd List.mem_cons_self h
    | _ => rfl
  | all =>
    simp only [Call.writes, List.mem_cons, List.not_mem_nil, or_false, not_or] at h
    exact agrees_all h.1 h.2
  | allColumns => exact agrees_project _ (List.ne_of_not_mem_cons h)
  | columns names => exact agrees_project _ (List.ne_of_not_mem_cons h)
  | expr e =>
    exact agrees_attempt (agrees_of_eq rfl rfl) fun _ =>
      agrees_project _ (List.ne_of_not_mem_cons h)
  | aliasAs name =>
    simp only [Call.writes, List.mem_cons, List.not_mem_nil, or_false, not_or] at h
    exact agrees_aliasAs name h.1 h.2.1 h.2.2
  | qualify table => exact agrees_refineItems _ _ (List.ne_of_not_mem_cons h)
  | aliasByName => exact agrees_refineItems _ _ (List.ne_of_not_mem_cons h)
  | readFrom s =>
    refine agrees_attempt (agrees_of_eq rfl rfl) fun _ => ?_
    cases part with
    | source => exact absurd List.mem_cons_self h
    | _ => rfl
  | left | cross | natural =>
    cases part with
    | joinKind => exact absurd List.mem_cons_self h
    | _ => rfl
  | join s =>
    simp only [Call.writes, List.mem_cons, List.not_mem_nil, or_false, not_or] at h
    refine agrees_attempt ?_ fun _ => ?_
    · cases part with
      | joinKind => exact absurd rfl h.2
      | _ => rfl
    · cases part with
      | joins => exact absurd rfl h.1
      | joinKind => exact absurd rfl h.2
      | _ => rfl
  | on p given => exact agrees_on p given (List.ne_of_not_mem_cons h)
  | sharedColumns names => exact agrees_sharedColumns names (List.ne_of_not_mem_cons h)
  | filter p given =>
    refine agrees_attempt (agrees_of_eq rfl rfl) fun _ => ?_
    cases part with
    | selection => exact absurd List.mem_cons_self h
    | _ => rfl
  | groupBy t =>
    refine agrees_attempt (agrees_of_eq rfl rfl) fun _ => ?_
    cases part with
    | groupBy => exact absurd List.mem_cons_self h
    | _ => rfl
  | having p given => exact agrees_having p given (List.ne_of_not_mem_cons h)
  | orderBy t =>
    refine agrees_attempt (agrees_of_eq rfl rfl) fun e => ?_
    cases e with
    | none => exact agrees_of_eq rfl rfl
    | some e =>
      cases part with
      | orderBy => exact absurd List.mem_cons_self h
      | _ => rfl
  | direct d => exact agrees_refineOrder _ _ (List.ne_of_not_mem_cons h)
  | collate collation => exact agrees_refineOrder _ _ (List.ne_of_not_mem_cons h)
  | limit arg => exact agrees_limit arg (List.ne_of_not_mem_cons h)
  | offset arg => exact agrees_offset arg (List.ne_of_not_mem_cons h)
  | compound op =>
    simp only [Call.writes, List.mem_cons, List.not_mem_nil, or_false, not_or] at h
    cases part with
    | orderBy | limit | offset => rfl
    | _ => simp at h

/-- No call in a block changes what is in the closed ones. -/
theorem closed_apply (b : Builder) {c : Call} (inside : ∀ op, c ≠ .compound op) :
    (b.apply c).body.earlier.map Link.block = b.body.earlier.map Link.block := by
  have others : .closed ∉ c.writes →
      (b.apply c).body.earlier.map Link.block = b.body.earlier.map Link.block :=
    fun closed => congrArg _ (agrees_apply b closed)
  cases c with
  | all =>
    show b.all.body.earlier.map Link.block = _
    unfold all
    split
    · exact map_modifyLast_eq (f := fun l : Link Query => { l with op := .unionAll })
        (fun _ => rfl) _
    · rfl
  | compound op => exact absurd rfl (inside op)
  | _ => exact others (by simp [Call.writes])

end Builder

end SqlSelect
