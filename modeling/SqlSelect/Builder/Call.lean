import SqlSelect.Builder.Argument

/-! The calls that grow a query.

Block clauses go to the current block, the one after the last set operator; order, limit and
offset belong to the whole chain. A call that fails leaves the body as it was. Many calls can
be given as data (`Call`) and carried out one after the other (`Builder.run`); a run in two
parts is one run (`Builder.run_append`). -/
namespace SqlSelect

/-! ### Parts of a block -/

/-- Names the table of columns that do not name one yet. -/
def Item.qualify (table : String) : Item Query → Item Query
  | .allColumns none => .allColumns (some table)
  | .expr (.column none name) aliasName => .expr (.column (some table) name) aliasName
  | item => item

/-- Gives a column its own name as its alias. -/
def Item.aliasByName : Item Query → Item Query
  | .expr (.column table name) _ => .expr (.column table name) (some name)
  | item => item

def Item.withAlias (aliasName : String) : Item Query → Item Query
  | .expr e _ => .expr e (some aliasName)
  | item => item

/-- Changes the last element, if there is one. -/
def modifyLast {α : Type} (f : α → α) (l : List α) : List α := l.modify (l.length - 1) f

/-- Changes the elements from an index on. -/
def modifyFrom {α : Type} (start : Nat) (f : α → α) (l : List α) : List α :=
  l.take start ++ (l.drop start).map f

theorem modifyLast_concat {α : Type} (f : α → α) (l : List α) (a : α) :
    modifyLast f (l ++ [a]) = l ++ [f a] := by
  simp [modifyLast, List.modify_eq_take_drop]

/-- A changed element is seen as the changed view of the old one. -/
theorem map_modifyLast {α β : Type} {f : α → α} {f' : β → β} {g : α → β}
    (h : ∀ a, g (f a) = f' (g a)) (l : List α) : (modifyLast f l).map g = modifyLast f' (l.map g) := by
  rcases List.eq_nil_or_concat l with rfl | ⟨rest, last, rfl⟩
  · rfl
  · rw [List.concat_eq_append, modifyLast_concat, List.map_append, List.map_append]
    simp only [List.map_cons, List.map_nil, h]
    rw [modifyLast_concat]

/-- Changed elements that are seen alike leave the list as it is seen. -/
theorem map_modifyLast_eq {α β : Type} {f : α → α} {g : α → β} (h : ∀ a, g (f a) = g a)
    (l : List α) : (modifyLast f l).map g = l.map g := by
  have seen : (modifyLast f l).map g = modifyLast (fun b => b) (l.map g) := map_modifyLast h l
  rw [seen]
  exact List.modify_id _ _

theorem map_modifyFrom_eq {α β : Type} {f : α → α} {g : α → β} (h : ∀ a, g (f a) = g a)
    (start : Nat) (l : List α) : (modifyFrom start f l).map g = l.map g := by
  have same : ((l.drop start).map f).map g = (l.drop start).map g := by
    rw [List.map_map]
    exact List.map_congr_left fun a _ => h a
  rw [modifyFrom, List.map_append, same, ← List.map_append, List.take_append_drop]

theorem mem_modifyLast {α : Type} {f : α → α} {l : List α} {a : α} (h : a ∈ modifyLast f l) :
    a ∈ l ∨ ∃ b ∈ l, a = f b := by
  rcases List.eq_nil_or_concat l with rfl | ⟨rest, last, rfl⟩
  · simp [modifyLast] at h
  · rw [List.concat_eq_append, modifyLast_concat] at h
    simp only [List.concat_eq_append, List.mem_append, List.mem_singleton] at h ⊢
    rcases h with h | rfl
    · exact .inl (.inl h)
    · exact .inr ⟨last, .inr rfl, rfl⟩

theorem mem_modifyFrom {α : Type} {start : Nat} {f : α → α} {l : List α} {a : α}
    (h : a ∈ modifyFrom start f l) : a ∈ l ∨ ∃ b ∈ l, a = f b := by
  simp only [modifyFrom, List.mem_append, List.mem_map] at h
  rcases h with h | ⟨b, hb, rfl⟩
  · exact .inl (List.mem_of_mem_take h)
  · exact .inr ⟨b, List.mem_of_mem_drop hb, rfl⟩

namespace Builder

/-! ### Projection -/

/-- Begins clause calls for the current block. -/
def select (b : Builder) : Builder := b.detached

def distinct (b : Builder) : Builder := b.modifyBlock ({ · with distinct := true })

/-- Takes `DISTINCT` back; directly behind a `UNION` makes that a `UNION ALL` instead. -/
def all (b : Builder) : Builder :=
  match b.cursor, b.body.earlier.getLast? with
  | .compound, some ⟨_, .union⟩ =>
    { b with body := { b.body with
      earlier := modifyLast ({ · with op := .unionAll }) b.body.earlier } }
  | _, _ => b.modifyBlock ({ · with distinct := false })

/-- Appends items, for the next refinements to apply to. -/
def project (b : Builder) (items : List (Item Query)) : Builder :=
  { b.modifyBlock (fun block => { block with projection := block.projection ++ items }) with
    cursor := .projection b.body.current.projection.length }

def allColumns (b : Builder) : Builder := b.project [.allColumns none]

def columns (b : Builder) (names : List String) : Builder :=
  b.project (names.map fun name => .expr (.column none name) none)

/-- Appends an expression in which nothing waits for a value. -/
def expr (b : Builder) (e : Expr Query) : Builder :=
  b.attempt (e.fullyBound.map fun e => b.project [.expr e none])

/-- Names the last item projected, the source, or the last join. -/
def aliasAs (b : Builder) (name : String) : Builder :=
  match b.cursor with
  | .projection start =>
    match (b.body.current.projection.drop start).getLast? with
    | some (.expr ..) =>
      b.modifyBlock fun block =>
        { block with projection := modifyLast (Item.withAlias name) block.projection }
    | some (.allColumns _) => b.fail (.invalidState .aliasOnAllColumns)
    | none => b.misplaced .aliasAs
  | .source =>
    b.modifyBlock fun block =>
      { block with source := block.source.map ({ · with aliasName := some name }) }
  | .join =>
    b.modifyBlock fun block =>
      { block with joins := modifyLast ({ · with aliasName := some name }) block.joins }
  | _ => b.misplaced .aliasAs

/-- Changes the items of the last projection call. -/
def refineItems (b : Builder) (r : Refinement) (f : Item Query → Item Query) : Builder :=
  match b.cursor with
  | .projection start =>
    b.modifyBlock fun block => { block with projection := modifyFrom start f block.projection }
  | _ => b.misplaced r

def qualify (b : Builder) (table : String) : Builder :=
  b.refineItems .qualify (Item.qualify table)

def aliasByName (b : Builder) : Builder := b.refineItems .aliasByName Item.aliasByName

/-! ### Sources and joins -/

/-- Sets the source of the current block. -/
def readFrom (b : Builder) (source : SourceArg) : Builder :=
  b.attempt (source.resolve.map fun s =>
    { b.modifyBlock ({ · with source := some ⟨s, none⟩ }) with cursor := .source })

/-- Chooses the kind of the next join. -/
def joinKind (b : Builder) (kind : JoinKind) : Builder := { b with pendingJoin := some kind }

/-- Appends a join of the chosen kind. The choice is used up even when the target fails. -/
def join (b : Builder) (target : SourceArg) : Builder :=
  let settled := { b with pendingJoin := none }
  settled.attempt (target.resolve.map fun t =>
    { settled.modifyBlock fun block =>
        { block with joins := block.joins ++ [⟨b.pendingJoin.getD default, t, none, none⟩] } with
      cursor := .join })

def constrain (b : Builder) (c : JoinConstraint Query) : Builder :=
  b.modifyBlock fun block =>
    { block with joins := modifyLast ({ · with constraint := some c }) block.joins }

/-- Constrains the last join by a predicate. -/
def on (b : Builder) (predicate : Clause) (values : List Param) : Builder :=
  if b.cursor = .join then
    b.attempt ((predicate.predicate values).map fun
      | some e => b.constrain (.on e)
      | none => b)
  else
    b.misplaced .on

/-- Constrains the last join by columns that both sides have. -/
def sharedColumns (b : Builder) (names : List String) : Builder :=
  if b.cursor = .join then
    if names.isEmpty then
      b.fail (.missingList "USING column list")
    else
      b.constrain (.sharedColumns names)
  else
    b.misplaced .sharedColumns

/-! ### Filters and groups -/

/-- Adds a predicate on rows. -/
def filter (b : Builder) (predicate : Clause) (values : List Param) : Builder :=
  b.detached.attempt ((predicate.predicate values).map fun e =>
    b.detached.modifyBlock fun block => { block with selection := block.selection ++ e.toList })

def groupBy (b : Builder) (term : Clause) : Builder :=
  b.detached.attempt (term.term.map fun e =>
    b.detached.modifyBlock fun block => { block with groupBy := block.groupBy ++ e.toList })

/-- Adds a predicate on groups, of which there must be some to be found. -/
def having (b : Builder) (predicate : Clause) (values : List Param) : Builder :=
  b.detached.attempt ((predicate.predicate values).bind fun
    | none => .ok b.detached
    | some e =>
      if b.body.current.groupBy.isEmpty then
        .error (.invalidState .havingWithoutGroupBy)
      else
        .ok (b.detached.modifyBlock fun block => { block with having := block.having ++ [e] }))

/-! ### Clauses of the whole chain -/

/-- Appends a term to order by; an absent one leaves nothing to refine. -/
def orderBy (b : Builder) (term : Clause) : Builder :=
  b.attempt (term.term.map fun
    | none => b.detached
    | some e =>
      { b.modifyTrailing fun t => { t with orderBy := t.orderBy ++ [⟨e, none, none⟩] } with
        cursor := .orderBy })

/-- Changes the last term of the order. -/
def refineOrder (b : Builder) (r : Refinement) (f : OrderTerm Query → OrderTerm Query) : Builder :=
  if b.cursor = .orderBy ∧ b.body.trailing.orderBy ≠ [] then
    b.modifyTrailing fun t => { t with orderBy := modifyLast f t.orderBy }
  else
    b.misplaced r

def direct (b : Builder) (d : Direction) : Builder :=
  b.refineOrder (match d with | .asc => .asc | .desc => .desc) ({ · with direction := some d })

def collate (b : Builder) (collation : String) : Builder :=
  b.refineOrder .collate ({ · with collation := some collation })

/-- Sets the limit, once. -/
def limit (b : Builder) (arg : LimitArg) : Builder :=
  match b.body.trailing.limit with
  | .unset =>
    b.detached.attempt (arg.resolve.map fun e =>
      b.detached.modifyTrailing fun t => { t with limit := e.elim .null .value })
  | _ => b.detached.fail (.invalidState .limitRepeated)

/-- Sets the offset, once, under a limit that has a value. -/
def offset (b : Builder) (arg : LimitArg) : Builder :=
  match b.body.trailing.limit with
  | .value _ =>
    if b.body.trailing.offset.isSome then
      b.detached.fail (.invalidState .offsetRepeated)
    else
      b.detached.attempt (arg.resolve.map fun e =>
        b.detached.modifyTrailing fun t => { t with offset := e })
  | _ => b.detached.fail (.invalidState .offsetWithoutLimit)

/-- Closes the current block with a set operator and opens the next one. -/
def compound (b : Builder) (op : SetOp) : Builder :=
  { b with
    body := { b.body with earlier := b.body.earlier ++ [⟨b.body.current, op⟩], current := {} }
    pendingJoin := none
    cursor := .compound }

end Builder

/-! ### Calls as data -/

/-- A call with its arguments. -/
inductive Call where
  | select
  | distinct
  | all
  | allColumns
  | columns (names : List String)
  | expr (e : Expr Query)
  | aliasAs (name : String)
  | qualify (table : String)
  | aliasByName
  | readFrom (source : SourceArg)
  | left
  | cross
  | natural
  | join (target : SourceArg)
  | on (predicate : Clause) (values : List Param)
  | sharedColumns (names : List String)
  | filter (predicate : Clause) (values : List Param)
  | groupBy (term : Clause)
  | having (predicate : Clause) (values : List Param)
  | orderBy (term : Clause)
  | direct (d : Direction)
  | collate (collation : String)
  | limit (arg : LimitArg)
  | offset (arg : LimitArg)
  | compound (op : SetOp)

namespace Builder

/-- The builder after a call. -/
def apply (b : Builder) : Call → Builder
  | .select => b.select
  | .distinct => b.distinct
  | .all => b.all
  | .allColumns => b.allColumns
  | .columns names => b.columns names
  | .expr e => b.expr e
  | .aliasAs name => b.aliasAs name
  | .qualify table => b.qualify table
  | .aliasByName => b.aliasByName
  | .readFrom source => b.readFrom source
  | .left => b.joinKind .left
  | .cross => b.joinKind .cross
  | .natural => b.joinKind .natural
  | .join target => b.join target
  | .on predicate values => b.on predicate values
  | .sharedColumns names => b.sharedColumns names
  | .filter predicate values => b.filter predicate values
  | .groupBy term => b.groupBy term
  | .having predicate values => b.having predicate values
  | .orderBy term => b.orderBy term
  | .direct d => b.direct d
  | .collate collation => b.collate collation
  | .limit arg => b.limit arg
  | .offset arg => b.offset arg
  | .compound op => b.compound op

/-- The builder after a run of calls. -/
def run (b : Builder) (calls : List Call) : Builder := calls.foldl apply b

theorem run_append (b : Builder) (calls more : List Call) :
    b.run (calls ++ more) = (b.run calls).run more := List.foldl_append

end Builder

end SqlSelect
