import SqlSelect.Query.Fold

/-! Equality of expressions and of queries.

Two queries are equal when they were put together alike: part by part, with literals compared
as values. A query that holds a literal which is not a number is therefore not even equal to
itself. The comparison of embedded queries is a parameter (`same`), and for a query it is the
comparison of queries itself (`Query.equal_mk`). -/
namespace SqlSelect
variable {κ ι : Type}

/-- Whether two lists are equally long and related place by place. -/
def sameList {α β : Type} (same : α → β → Bool) : List α → List β → Bool
  | [], [] => true
  | a :: as, b :: bs => same a b && sameList same as bs
  | _, _ => false

/-- Whether two optional parts are both absent, or both present and related. -/
def sameOption {α β : Type} (same : α → β → Bool) : Option α → Option β → Bool
  | none, none => true
  | some a, some b => same a b
  | _, _ => false

section Equal
variable (same : κ → ι → Bool)

mutual

def Expr.equalBy : Expr κ → Expr ι → Bool
  | .column table name, .column table' name' => table == table' && name == name'
  | .literal v, .literal v' => v.equal v'
  | .placeholder, .placeholder => true
  | .bound p, .bound p' => p == p'
  | .raw sql params, .raw sql' params' => sql == sql' && params == params'
  | .unary op operand, .unary op' operand' => op == op' && operand.equalBy operand'
  | .binary op left right, .binary op' left' right' =>
    op == op' && left.equalBy left' && right.equalBy right'
  | .call name args, .call name' args' => name == name' && Expr.equalAllBy args args'
  | .collate operand collation, .collate operand' collation' =>
    operand.equalBy operand' && collation == collation'
  | .subquery q, .subquery q' => same q q'
  | _, _ => false

def Expr.equalAllBy : List (Expr κ) → List (Expr ι) → Bool
  | [], [] => true
  | e :: es, e' :: es' => e.equalBy e' && Expr.equalAllBy es es'
  | _, _ => false

end

def Source.equalBy : Source κ → Source ι → Bool
  | .table name, .table name' => name == name'
  | .subquery q, .subquery q' => same q q'
  | _, _ => false

def Item.equalBy : Item κ → Item ι → Bool
  | .allColumns table, .allColumns table' => table == table'
  | .expr e aliasName, .expr e' aliasName' => e.equalBy same e' && aliasName == aliasName'
  | _, _ => false

def FromClause.equalBy (c : FromClause κ) (d : FromClause ι) : Bool :=
  c.source.equalBy same d.source && c.aliasName == d.aliasName

def JoinConstraint.equalBy : JoinConstraint κ → JoinConstraint ι → Bool
  | .on e, .on e' => e.equalBy same e'
  | .sharedColumns names, .sharedColumns names' => names == names'
  | _, _ => false

def Join.equalBy (j : Join κ) (k : Join ι) : Bool :=
  j.kind == k.kind && j.target.equalBy same k.target && j.aliasName == k.aliasName &&
    sameOption (JoinConstraint.equalBy same) j.constraint k.constraint

def Block.equalBy (b : Block κ) (c : Block ι) : Bool :=
  b.distinct == c.distinct && sameList (Item.equalBy same) b.projection c.projection &&
    sameOption (FromClause.equalBy same) b.source c.source &&
    sameList (Join.equalBy same) b.joins c.joins &&
    sameList (Expr.equalBy same) b.selection c.selection &&
    sameList (Expr.equalBy same) b.groupBy c.groupBy &&
    sameList (Expr.equalBy same) b.having c.having

def Link.equalBy (l : Link κ) (m : Link ι) : Bool := l.block.equalBy same m.block && l.op == m.op

def OrderTerm.equalBy (t : OrderTerm κ) (u : OrderTerm ι) : Bool :=
  t.expr.equalBy same u.expr && t.direction == u.direction && t.collation == u.collation

/-- Asking for no limit differs from not asking for one, although both are written alike. -/
def Limit.equalBy : Limit κ → Limit ι → Bool
  | .unset, .unset => true
  | .null, .null => true
  | .value e, .value e' => e.equalBy same e'
  | _, _ => false

def Trailing.equalBy (t : Trailing κ) (u : Trailing ι) : Bool :=
  sameList (OrderTerm.equalBy same) t.orderBy u.orderBy && t.limit.equalBy same u.limit &&
    sameOption (Expr.equalBy same) t.offset u.offset

def Body.equalBy (b : Body κ) (c : Body ι) : Bool :=
  sameList (Link.equalBy same) b.earlier c.earlier && b.current.equalBy same c.current &&
    b.trailing.equalBy same c.trailing

end Equal

/-! ### Comparing and replacing -/

section Map
variable {ν : Type} (f : κ → ν) (same : ν → ι → Bool)

theorem sameList_map {α β γ : Type} {g : α → β} {r : β → γ → Bool} {s : α → γ → Bool}
    (h : ∀ a c, r (g a) c = s a c) (as : List α) (cs : List γ) :
    sameList r (as.map g) cs = sameList s as cs := by
  induction as generalizing cs with
  | nil => cases cs <;> rfl
  | cons a as ih => cases cs <;> simp [sameList, h, ih]

theorem sameOption_map {α β γ : Type} {g : α → β} {r : β → γ → Bool} {s : α → γ → Bool}
    (h : ∀ a c, r (g a) c = s a c) (a : Option α) (c : Option γ) :
    sameOption r (a.map g) c = sameOption s a c := by
  cases a <;> cases c <;> simp [sameOption, h]

theorem Expr.equalBy_map (e : Expr κ) (e' : Expr ι) :
    (e.map f).equalBy same e' = e.equalBy (fun q q' => same (f q) q') e' := by
  induction e generalizing e' with
  | call name args ih =>
    cases e' with
    | call name' args' =>
      have each : Expr.equalAllBy same (args.map (Expr.map f)) args' =
          Expr.equalAllBy (fun q q' => same (f q) q') args args' := by
        induction args generalizing args' with
        | nil => cases args' <;> rfl
        | cons e es ihs =>
          cases args' with
          | nil => rfl
          | cons e' es' =>
            simp only [List.map_cons, Expr.equalAllBy, ih e (by simp)]
            rw [ihs fun d hd => ih d (by simp [hd])]
      simp only [map, mapAll_eq, Expr.equalBy, each]
    | _ => rfl
  | unary op operand ih => cases e' <;> simp [map, Expr.equalBy, ih]
  | binary op left right ihl ihr => cases e' <;> simp [map, Expr.equalBy, ihl, ihr]
  | collate operand collation ih => cases e' <;> simp [map, Expr.equalBy, ih]
  | _ => cases e' <;> rfl

theorem Source.equalBy_map (s : Source κ) (s' : Source ι) :
    (s.map f).equalBy same s' = s.equalBy (fun q q' => same (f q) q') s' := by
  cases s <;> cases s' <;> rfl

theorem Item.equalBy_map (i : Item κ) (i' : Item ι) :
    (i.map f).equalBy same i' = i.equalBy (fun q q' => same (f q) q') i' := by
  cases i <;> cases i' <;> simp [Item.map, Item.equalBy, Expr.equalBy_map]

theorem FromClause.equalBy_map (c : FromClause κ) (c' : FromClause ι) :
    (c.map f).equalBy same c' = c.equalBy (fun q q' => same (f q) q') c' := by
  simp [FromClause.map, FromClause.equalBy, Source.equalBy_map]

theorem JoinConstraint.equalBy_map (c : JoinConstraint κ) (c' : JoinConstraint ι) :
    (c.map f).equalBy same c' = c.equalBy (fun q q' => same (f q) q') c' := by
  cases c <;> cases c' <;> simp [JoinConstraint.map, JoinConstraint.equalBy, Expr.equalBy_map]

theorem Join.equalBy_map (j : Join κ) (j' : Join ι) :
    (j.map f).equalBy same j' = j.equalBy (fun q q' => same (f q) q') j' := by
  simp [Join.map, Join.equalBy, Source.equalBy_map,
    sameOption_map (JoinConstraint.equalBy_map f same)]

theorem Block.equalBy_map (b : Block κ) (b' : Block ι) :
    (b.map f).equalBy same b' = b.equalBy (fun q q' => same (f q) q') b' := by
  simp [Block.map, Block.equalBy, sameList_map (Item.equalBy_map f same),
    sameOption_map (FromClause.equalBy_map f same), sameList_map (Join.equalBy_map f same),
    sameList_map (Expr.equalBy_map f same)]

theorem Link.equalBy_map (l : Link κ) (l' : Link ι) :
    (l.map f).equalBy same l' = l.equalBy (fun q q' => same (f q) q') l' := by
  simp [Link.map, Link.equalBy, Block.equalBy_map]

theorem OrderTerm.equalBy_map (t : OrderTerm κ) (t' : OrderTerm ι) :
    (t.map f).equalBy same t' = t.equalBy (fun q q' => same (f q) q') t' := by
  simp [OrderTerm.map, OrderTerm.equalBy, Expr.equalBy_map]

theorem Limit.equalBy_map (l : Limit κ) (l' : Limit ι) :
    (l.map f).equalBy same l' = l.equalBy (fun q q' => same (f q) q') l' := by
  cases l <;> cases l' <;> simp [Limit.map, Limit.equalBy, Expr.equalBy_map]

theorem Body.equalBy_map (b : Body κ) (b' : Body ι) :
    (b.map f).equalBy same b' = b.equalBy (fun q q' => same (f q) q') b' := by
  simp [Body.map, Body.equalBy, Trailing.map, Trailing.equalBy, Block.equalBy_map,
    Limit.equalBy_map, sameList_map (Link.equalBy_map f same),
    sameList_map (OrderTerm.equalBy_map f same), sameOption_map (Expr.equalBy_map f same)]

end Map

/-! ### Queries -/

/-- Whether two queries were put together alike. -/
def Query.equal : Query → Query → Bool :=
  Query.fold fun b q => b.equalBy (fun is q' => is q') q.body

theorem Query.equal_mk (b c : Body Query) :
    (Query.mk b).equal (.mk c) = b.equalBy Query.equal c := by
  rw [Query.equal, Query.fold_mk, Body.equalBy_map]
  rfl

def Expr.equal (e e' : Expr Query) : Bool := e.equalBy Query.equal e'

end SqlSelect
