import SqlSelect.Builder.Call
import SqlSelect.Proofs.Values

/-! The values that a list of calls gives to a query.

An `Account` keeps the values of every clause apart. It is read off a body (`Body.account`), and
it is kept call by call (`Account.record`) without any builder. `argumentsOf` says of a whole list
of calls what it gives, clause by clause: each clause takes the values of its own calls in their
order, a source is that of the last call, and a join has the values of its target and then those
of the last constraint put on it before the next join. The main statement,
`Account.values_ofCalls`, is that the account kept call by call comes to just that. -/
namespace SqlSelect

/-! ### What one call gives -/

/-- The values of a clause that is kept, with the given ones for its open placeholders. -/
def Clause.kept? (given : List Param) : Clause → Option (List Param)
  | .absent => none
  | .text sql => if Text.isBlank sql then none else some given
  | .expr e => some ((e.fill given).1.values Query.args)

def LimitArg.values : LimitArg → List Param
  | .expr e => e.values Query.args
  | .absent | .integer _ | .text _ => []

/-- A source has the arguments of its query, which an unbuilt builder is built for. -/
def SourceArg.values : SourceArg → List Param
  | .table _ => []
  | .query q => q.args
  | .builder b =>
    match b.build with
    | .ok q => q.args
    | .error _ => []

namespace Call

def projected : Call → List Param
  | expr e => e.values Query.args
  | _ => []

def source? : Call → Option (List Param)
  | readFrom s => some s.values
  | _ => none

def target? : Call → Option (List Param)
  | join s => some s.values
  | _ => none

/-- The values of a constraint, if the call puts one on a join. -/
def constraint? : Call → Option (List Param)
  | on p given => p.kept? given
  | sharedColumns _ => some []
  | _ => none

def filtered : Call → List Param
  | filter p given => (p.kept? given).getD []
  | _ => []

def grouped : Call → List Param
  | groupBy t => (t.kept? []).getD []
  | _ => []

def groupFiltered : Call → List Param
  | having p given => (p.kept? given).getD []
  | _ => []

def ordered : Call → List Param
  | orderBy t => (t.kept? []).getD []
  | _ => []

def limited : Call → List Param
  | limit arg => arg.values
  | _ => []

def skipped : Call → List Param
  | offset arg => arg.values
  | _ => []

def opensBlock : Call → Bool
  | compound _ => true
  | _ => false

theorem exists_of_opensBlock {c : Call} (h : c.opensBlock = true) : ∃ op, c = compound op := by
  cases c with
  | compound op => exact ⟨op, rfl⟩
  | _ => cases h

end Call

/-! ### What a list of calls gives -/

/-- The values of the last constraint that these calls put on the join before them. -/
def constraintOf (calls : List Call) : Option (List Param) :=
  ((calls.takeWhile fun c => c.target?.isNone).filterMap Call.constraint?).getLast?

/-- The values of the joins: for each its target's, then its constraint's. -/
def joinedOf : List Call → List Param
  | [] => []
  | c :: rest =>
    match c.target? with
    | some target => target ++ (constraintOf rest).getD [] ++ joinedOf rest
    | none => joinedOf rest

/-- The values of a block that is put together by these calls. -/
def blockArgumentsOf (calls : List Call) : List Param :=
  calls.flatMap Call.projected ++ (calls.filterMap Call.source?).getLast?.getD [] ++
    joinedOf calls ++ calls.flatMap Call.filtered ++ calls.flatMap Call.grouped ++
    calls.flatMap Call.groupFiltered

/-- The values of a query that is put together by these calls, block by block; the order, the
limit and the offset of the whole chain come last. -/
def argumentsOf (calls : List Call) : List Param :=
  (calls.splitOnP Call.opensBlock).flatMap blockArgumentsOf ++ calls.flatMap Call.ordered ++
    calls.flatMap Call.limited ++ calls.flatMap Call.skipped

/-! ### Accounts -/

/-- The values of one join. -/
structure JoinAccount where
  target : List Param
  constraint : List Param := []
deriving DecidableEq, Repr

/-- The values of one block, clause by clause. -/
structure BlockAccount where
  projection : List Param := []
  source : List Param := []
  joins : List JoinAccount := []
  selection : List Param := []
  groupBy : List Param := []
  having : List Param := []
deriving DecidableEq, Repr

/-- The values of a chain of blocks, clause by clause. -/
structure Account where
  earlier : List BlockAccount := []
  current : BlockAccount := {}
  orderBy : List Param := []
  limit : List Param := []
  offset : List Param := []
deriving DecidableEq, Repr

def JoinAccount.values (j : JoinAccount) : List Param := j.target ++ j.constraint

def BlockAccount.values (a : BlockAccount) : List Param :=
  a.projection ++ a.source ++ a.joins.flatMap JoinAccount.values ++ a.selection ++ a.groupBy ++
    a.having

def Account.values (a : Account) : List Param :=
  (a.earlier ++ [a.current]).flatMap BlockAccount.values ++ a.orderBy ++ a.limit ++ a.offset

def Join.account (j : Join Query) : JoinAccount where
  target := j.target.values Query.args
  constraint := j.constraint.toList.flatMap (JoinConstraint.values Query.args)

def Block.account (b : Block Query) : BlockAccount where
  projection := b.projection.flatMap (Item.values Query.args)
  source := b.source.toList.flatMap fun c => c.source.values Query.args
  joins := b.joins.map Join.account
  selection := b.selection.flatMap (Expr.values Query.args)
  groupBy := b.groupBy.flatMap (Expr.values Query.args)
  having := b.having.flatMap (Expr.values Query.args)

def Body.account (b : Body Query) : Account where
  earlier := b.earlier.map fun l => l.block.account
  current := b.current.account
  orderBy := b.trailing.orderBy.flatMap fun term => term.expr.values Query.args
  limit := b.trailing.limit.values Query.args
  offset := b.trailing.offset.toList.flatMap (Expr.values Query.args)

theorem Join.account_values (j : Join Query) : j.account.values = j.values Query.args := rfl

theorem Block.account_values (b : Block Query) : b.account.values = b.values Query.args := by
  simp only [account, BlockAccount.values, values, List.flatMap_map, Join.account_values]

theorem Body.account_values (b : Body Query) : b.account.values = b.values Query.args := by
  simp only [account, Account.values, values, blocks, Trailing.values, List.flatMap_append,
    List.flatMap_map, List.flatMap_cons, List.flatMap_nil, Block.account_values, List.append_assoc]

/-! ### Keeping an account -/

/-- Puts a constraint on the last join. -/
def constrainLast (joins : List JoinAccount) (values : List Param) : List JoinAccount :=
  modifyLast ({ · with constraint := values }) joins

def BlockAccount.record (a : BlockAccount) : Call → BlockAccount
  | .expr e => { a with projection := a.projection ++ e.values Query.args }
  | .readFrom s => { a with source := s.values }
  | .join s => { a with joins := a.joins ++ [⟨s.values, []⟩] }
  | .on p given => { a with joins := (p.kept? given).elim a.joins (constrainLast a.joins) }
  | .sharedColumns _ => { a with joins := constrainLast a.joins [] }
  | .filter p given => { a with selection := a.selection ++ (p.kept? given).getD [] }
  | .groupBy t => { a with groupBy := a.groupBy ++ (t.kept? []).getD [] }
  | .having p given => { a with having := a.having ++ (p.kept? given).getD [] }
  | _ => a

def Account.record (a : Account) : Call → Account
  | .orderBy t => { a with orderBy := a.orderBy ++ (t.kept? []).getD [] }
  | .limit arg => { a with limit := a.limit ++ arg.values }
  | .offset arg => { a with offset := a.offset ++ arg.values }
  | .compound _ => { a with earlier := a.earlier ++ [a.current], current := {} }
  | c => { a with current := a.current.record c }

def Account.ofCalls (calls : List Call) : Account := calls.foldl record {}

theorem Account.ofCalls_concat (calls : List Call) (c : Call) :
    ofCalls (calls ++ [c]) = (ofCalls calls).record c := by
  simp [ofCalls]

/-! ### What the account comes to -/

/-- The joins after a call: one more, or another constraint on the last. -/
def recordJoin (joins : List JoinAccount) (c : Call) : List JoinAccount :=
  match c.target? with
  | some target => joins ++ [⟨target, []⟩]
  | none => c.constraint?.elim joins (constrainLast joins)

theorem BlockAccount.record_eq (a : BlockAccount) (c : Call) :
    a.record c =
      { projection := a.projection ++ c.projected
        source := c.source?.getD a.source
        joins := recordJoin a.joins c
        selection := a.selection ++ c.filtered
        groupBy := a.groupBy ++ c.grouped
        having := a.having ++ c.groupFiltered } := by
  cases c <;> simp [record, recordJoin, Call.projected, Call.source?, Call.target?,
    Call.constraint?, Call.filtered, Call.grouped, Call.groupFiltered]

theorem Account.record_eq (a : Account) (c : Call) :
    a.record c =
      { earlier := if c.opensBlock then a.earlier ++ [a.current] else a.earlier
        current := if c.opensBlock then {} else a.current.record c
        orderBy := a.orderBy ++ c.ordered
        limit := a.limit ++ c.limited
        offset := a.offset ++ c.skipped } := by
  cases c <;> simp [record, BlockAccount.record, Call.opensBlock, Call.ordered, Call.limited,
    Call.skipped]

/-- With no join yet, a constraint is put on nothing. -/
theorem recordJoin_nil {c : Call} (h : c.target? = none) : recordJoin [] c = [] := by
  unfold recordJoin
  rw [h]
  cases c.constraint? <;> rfl

/-- Behind a join, calls change its constraint until the next join opens. -/
theorem foldl_recordJoin_concat (joins : List JoinAccount) (j : JoinAccount) (calls : List Call) :
    (calls.foldl recordJoin (joins ++ [j])).flatMap JoinAccount.values =
      joins.flatMap JoinAccount.values ++ j.target ++ (constraintOf calls).getD j.constraint ++
        joinedOf calls := by
  induction calls generalizing joins j with
  | nil => simp [constraintOf, joinedOf, JoinAccount.values]
  | cons c rest ih =>
    rw [List.foldl_cons]
    cases ht : c.target? with
    | some target =>
      have opened : recordJoin (joins ++ [j]) c = (joins ++ [j]) ++ [⟨target, []⟩] := by
        unfold recordJoin
        rw [ht]
      rw [opened, ih]
      simp [constraintOf, joinedOf, ht, JoinAccount.values]
    | none =>
      cases hc : c.constraint? with
      | none =>
        have same : recordJoin (joins ++ [j]) c = joins ++ [j] := by
          unfold recordJoin
          rw [ht, hc]
          rfl
        rw [same, ih]
        simp [constraintOf, joinedOf, ht, hc]
      | some values =>
        have replaced : recordJoin (joins ++ [j]) c = joins ++ [{ j with constraint := values }] := by
          unfold recordJoin
          rw [ht, hc]
          exact modifyLast_concat ..
        rw [replaced, ih]
        simp [constraintOf, joinedOf, ht, hc, List.getLast?_cons]

theorem foldl_recordJoin (calls : List Call) :
    (calls.foldl recordJoin []).flatMap JoinAccount.values = joinedOf calls := by
  induction calls with
  | nil => rfl
  | cons c rest ih =>
    rw [List.foldl_cons]
    cases ht : c.target? with
    | some target =>
      have opened : recordJoin [] c = [] ++ [⟨target, []⟩] := by
        unfold recordJoin
        rw [ht]
      rw [opened, foldl_recordJoin_concat]
      simp [joinedOf, ht]
    | none =>
      rw [recordJoin_nil ht, ih]
      simp [joinedOf, ht]

/-- Clauses other than the joins take what their calls give. -/
theorem BlockAccount.foldl_record (a : BlockAccount) (calls : List Call) :
    calls.foldl record a =
      { projection := a.projection ++ calls.flatMap Call.projected
        source := (calls.filterMap Call.source?).getLast?.getD a.source
        joins := calls.foldl recordJoin a.joins
        selection := a.selection ++ calls.flatMap Call.filtered
        groupBy := a.groupBy ++ calls.flatMap Call.grouped
        having := a.having ++ calls.flatMap Call.groupFiltered } := by
  induction calls generalizing a with
  | nil => simp
  | cons c rest ih =>
    rw [List.foldl_cons, ih]
    simp only [record_eq, List.flatMap_cons, List.append_assoc, List.foldl_cons, mk.injEq, true_and,
      and_true]
    cases hs : c.source? with
    | none => simp [hs]
    | some values => simp [hs, List.getLast?_cons]

theorem BlockAccount.values_foldl (calls : List Call) :
    (calls.foldl record {}).values = blockArgumentsOf calls := by
  rw [foldl_record, values, blockArgumentsOf]
  simp only [List.nil_append, foldl_recordJoin]

/-- Every set operator closes the account of a block. -/
theorem Account.foldl_record (a : Account) (calls : List Call) :
    (calls.foldl record a).values =
      (a.earlier.flatMap BlockAccount.values ++
        ((calls.splitOnP Call.opensBlock).head?.map fun first =>
          (first.foldl BlockAccount.record a.current).values).getD [] ++
        (calls.splitOnP Call.opensBlock).tail.flatMap blockArgumentsOf) ++
      (a.orderBy ++ calls.flatMap Call.ordered) ++ (a.limit ++ calls.flatMap Call.limited) ++
      (a.offset ++ calls.flatMap Call.skipped) := by
  induction calls generalizing a with
  | nil => simp [values]
  | cons c rest ih =>
    rw [List.foldl_cons, ih, List.splitOnP_cons_eq_if_modifyHead]
    obtain ⟨first, others, split⟩ := List.exists_cons_of_ne_nil (List.splitOnP_ne_nil Call.opensBlock rest)
    cases hc : c.opensBlock with
    | true => simp [record_eq, hc, split, BlockAccount.values_foldl]
    | false => simp [record_eq, hc, split]

/-- The account kept call by call comes to what the calls give as a whole. -/
theorem Account.values_ofCalls (calls : List Call) : (ofCalls calls).values = argumentsOf calls := by
  obtain ⟨first, others, split⟩ := List.exists_cons_of_ne_nil (List.splitOnP_ne_nil Call.opensBlock calls)
  rw [ofCalls, foldl_record, argumentsOf, split]
  simp [BlockAccount.values_foldl]

end SqlSelect
