import SqlSelect.Proofs.Account
import SqlSelect.Proofs.Growth

/-! The arguments of a built query.

As long as no error is recorded, a call does to the account of the body just what it does to the
account kept of the calls (`Builder.record_apply`). Errors are never taken back, so the account of
a query that could be built is the account of all its calls. The main statement, `build_arguments`,
puts this together with the completeness of what was grown: a built query writes a `?` for each
value of its calls, in the order of the clauses, and no other one. -/
namespace SqlSelect

/-! ### The values of what is accepted -/

theorem Clause.predicate_kept {p : Clause} {given : List Param} {e : Option (Expr Query)}
    (h : p.predicate given = .ok e) : e.map (Expr.values Query.args) = p.kept? given := by
  cases p with
  | absent =>
    cases h
    rfl
  | text sql =>
    simp only [predicate] at h
    show _ = if Text.isBlank sql then none else some given
    by_cases blank : Text.isBlank sql = true
    · rw [if_pos blank] at h ⊢
      cases h
      rfl
    · rw [if_neg blank] at h ⊢
      obtain ⟨e', raw, rfl⟩ := Except.map_eq_ok.mp h
      obtain ⟨rfl, -⟩ := Expr.ofRaw_eq_ok raw
      simp [Expr.values]
  | expr e₀ =>
    obtain ⟨e', bound, rfl⟩ := Except.map_eq_ok.mp h
    obtain ⟨rfl, -⟩ := Expr.bind_eq_ok bound
    rfl

/-- Nothing is filled in where nothing is open. -/
theorem Expr.fill_nil {κ : Type} (e : Expr κ) : (e.fill []).1 = e := by
  induction e with
  | placeholder => rfl
  | raw sql params => simp [fill]
  | unary op operand ih => simp only [fill, ih]
  | binary op left right ihl ihr =>
    simp only [fill, fill_rest, List.drop_nil, ihl, ihr]
  | call name args ih =>
    have all : (fillAll args []).1 = args := by
      induction args with
      | nil => rfl
      | cons e es ihs =>
        simp only [fillAll, fill_rest, List.drop_nil, ih e List.mem_cons_self]
        rw [ihs fun d hd => ih d (List.mem_cons_of_mem e hd)]
    simp only [fill, all]
  | collate operand collation ih => simp only [fill, ih]
  | _ => rfl

theorem Clause.term_kept {t : Clause} {e : Option (Expr Query)} (h : t.term = .ok e) :
    e.map (Expr.values Query.args) = t.kept? [] := by
  cases t with
  | absent =>
    cases h
    rfl
  | text sql => exact predicate_kept (p := .text sql) h
  | expr e₀ =>
    obtain ⟨e', bound, rfl⟩ := Except.map_eq_ok.mp h
    obtain ⟨rfl, -⟩ := Expr.fullyBound_eq_ok.mp bound
    simp [kept?, Expr.fill_nil]

theorem LimitArg.resolve_values {arg : LimitArg} {e : Option (Expr Query)}
    (h : arg.resolve = .ok e) : e.toList.flatMap (Expr.values Query.args) = arg.values := by
  cases arg with
  | absent =>
    cases h
    rfl
  | integer n =>
    simp only [resolve] at h
    split at h
    · cases h
      rfl
    · cases h
  | text sql =>
    obtain ⟨e', raw, rfl⟩ := Except.map_eq_ok.mp h
    obtain ⟨rfl, -⟩ := Expr.ofRaw_eq_ok raw
    rfl
  | expr e₀ =>
    obtain ⟨e', bound, rfl⟩ := Except.map_eq_ok.mp h
    obtain ⟨rfl, -⟩ := Expr.fullyBound_eq_ok.mp bound
    simp [values]

theorem SourceArg.resolve_values {s : SourceArg} {source : Source Query}
    (h : s.resolve = .ok source) : source.values Query.args = s.values := by
  cases s with
  | builder b =>
    obtain ⟨q, built, rfl⟩ := Except.map_eq_ok.mp h
    simp only [values, built]
    rfl
  | _ =>
    cases h
    rfl

/-! ### One call -/

/-- If there is no error now, there was none before, and the body has gained what the call gives. -/
def Builder.Recorded (b : Builder) (c : Call) (next : Builder) : Prop :=
  next.error = none → b.error = none ∧ next.body.account = b.body.account.record c

namespace Builder
variable {b : Builder} {c : Call}

theorem recorded_fail (b₀ : Builder) (e : QueryError) : b.Recorded c (b₀.fail e) := by
  intro error
  rw [error_fail] at error
  cases h : b₀.error <;> simp [h] at error

theorem recorded_attempt {b₀ : Builder} {r : Except QueryError Builder}
    (ok : ∀ next, r = .ok next → b.Recorded c next) : b.Recorded c (b₀.attempt r) := by
  cases r with
  | ok next => exact ok next rfl
  | error e => exact recorded_fail b₀ e

/-- An attempt to use an argument. -/
theorem recorded_attempt_map {b₀ : Builder} {α : Type} {r : Except QueryError α} {f : α → Builder}
    (ok : ∀ a, r = .ok a → b.Recorded c (f a)) : b.Recorded c (b₀.attempt (r.map f)) := by
  refine recorded_attempt fun next hnext => ?_
  obtain ⟨a, ha, rfl⟩ := Except.map_eq_ok.mp hnext
  exact ok a ha

end Builder

/-! ### Changes that give nothing -/

theorem Item.values_qualify (table : String) (i : Item Query) :
    (i.qualify table).values Query.args = i.values Query.args := by
  unfold Item.qualify
  split <;> rfl

theorem Item.values_aliasByName (i : Item Query) :
    i.aliasByName.values Query.args = i.values Query.args := by
  unfold Item.aliasByName
  split <;> rfl

theorem Item.values_withAlias (name : String) (i : Item Query) :
    (i.withAlias name).values Query.args = i.values Query.args := by
  unfold Item.withAlias
  split <;> rfl

namespace Builder
variable {b : Builder} {c : Call}

/-- The change that a call makes to the current block, whatever else it changes besides the body. -/
theorem recorded_block {next : Builder} {block : Block Query}
    (current : block.account = b.body.current.account.record c)
    (call : ∀ a : Account, a.record c = { a with current := a.current.record c })
    (error : next.error = b.error) (body : next.body = { b.body with current := block }) :
    b.Recorded c next := by
  intro h
  refine ⟨error ▸ h, ?_⟩
  rw [call, body]
  unfold Body.account
  simp only [current]

theorem account_items {block : Block Query} {items : List (Item Query)}
    (same : items.map (Item.values Query.args) = block.projection.map (Item.values Query.args)) :
    ({ block with projection := items } : Block Query).account = block.account := by
  have values : items.flatMap (Item.values Query.args) =
      block.projection.flatMap (Item.values Query.args) := by
    rw [List.flatMap_def, same, List.flatMap_def]
  unfold Block.account
  simp only [values]

theorem recorded_refineItems {r : Refinement} {f : Item Query → Item Query}
    (same : ∀ i, (f i).values Query.args = i.values Query.args)
    (current : ∀ a : BlockAccount, a.record c = a)
    (call : ∀ a : Account, a.record c = { a with current := a.current.record c }) :
    b.Recorded c (b.refineItems r f) := by
  unfold refineItems
  split
  · refine recorded_block ?_ call rfl rfl
    rw [current]
    exact account_items (map_modifyFrom_eq same _ _)
  · exact recorded_fail b _

theorem recorded_aliasAs (name : String) : b.Recorded (.aliasAs name) (b.aliasAs name) := by
  unfold aliasAs
  split
  · split
    · refine recorded_block ?_ (fun _ => rfl) rfl rfl
      exact account_items (map_modifyLast_eq (Item.values_withAlias name) _)
    · exact recorded_fail b _
    · exact recorded_fail b _
  · refine recorded_block ?_ (fun _ => rfl) rfl rfl
    have source : ∀ source : Option (FromClause Query),
        (source.map ({ · with aliasName := some name })).toList.flatMap
            (fun c => c.source.values Query.args) =
          source.toList.flatMap fun c => c.source.values Query.args := by
      intro source
      cases source <;> rfl
    unfold Block.account
    simp only [source]
    rfl
  · refine recorded_block ?_ (fun _ => rfl) rfl rfl
    have joins : ∀ joins : List (Join Query),
        (modifyLast ({ · with aliasName := some name }) joins).map Join.account =
          joins.map Join.account := map_modifyLast_eq fun _ => rfl
    unfold Block.account
    simp only [joins]
    rfl
  · exact recorded_fail b _

theorem recorded_all : b.Recorded .all b.all := by
  unfold all
  split
  · intro error
    refine ⟨error, ?_⟩
    have links : ∀ links : List (Link Query),
        (modifyLast ({ · with op := .unionAll }) links).map (fun l => l.block.account) =
          links.map fun l => l.block.account := map_modifyLast_eq fun _ => rfl
    unfold Body.account
    simp only [links]
    rfl
  · refine recorded_block ?_ (fun _ => rfl) rfl rfl
    rfl

theorem recorded_project {items : List (Item Query)}
    (current : ∀ a : BlockAccount, a.record c =
      { a with projection := a.projection ++ items.flatMap (Item.values Query.args) })
    (call : ∀ a : Account, a.record c = { a with current := a.current.record c }) :
    b.Recorded c (b.project items) := by
  refine recorded_block ?_ call rfl rfl
  rw [current]
  unfold Block.account
  simp only [List.flatMap_append]

theorem recorded_columns (names : List String) : b.Recorded (.columns names) (b.columns names) := by
  refine recorded_project (fun a => ?_) fun _ => rfl
  have values : (names.map fun name => Item.expr (Expr.column none name) none).flatMap
      (Item.values Query.args) = [] := by
    simp [Item.values, Expr.values]
  rw [values, List.append_nil]
  rfl

theorem recorded_readFrom (s : SourceArg) : b.Recorded (.readFrom s) (b.readFrom s) := by
  refine recorded_attempt_map fun source resolved => ?_
  refine recorded_block ?_ (fun _ => rfl) rfl rfl
  unfold Block.account
  simp only [Option.toList_some, List.flatMap_cons, List.flatMap_nil, List.append_nil,
    SourceArg.resolve_values resolved]
  rfl

theorem recorded_join (s : SourceArg) : b.Recorded (.join s) (b.join s) := by
  refine recorded_attempt_map fun target resolved => ?_
  refine recorded_block ?_ (fun _ => rfl) rfl rfl
  unfold Block.account
  simp only [List.map_append, List.map_cons, List.map_nil, Join.account,
    SourceArg.resolve_values resolved]
  rfl

theorem recorded_constrain {constraint : JoinConstraint Query}
    (current : ∀ a : BlockAccount, a.record c =
      { a with joins := constrainLast a.joins (constraint.values Query.args) })
    (call : ∀ a : Account, a.record c = { a with current := a.current.record c }) :
    b.Recorded c (b.constrain constraint) := by
  refine recorded_block ?_ call rfl rfl
  have joins : (modifyLast ({ · with constraint := some constraint }) b.body.current.joins).map
      Join.account =
        constrainLast (b.body.current.joins.map Join.account) (constraint.values Query.args) := by
    refine map_modifyLast (fun j => ?_) _
    simp [Join.account]
  rw [current]
  unfold Block.account
  simp only [joins]

theorem recorded_on (p : Clause) (given : List Param) : b.Recorded (.on p given) (b.on p given) := by
  unfold on
  split
  · refine recorded_attempt_map fun e accepted => ?_
    have kept := Clause.predicate_kept accepted
    cases e with
    | none =>
      refine recorded_block ?_ (fun _ => rfl) rfl rfl
      simp only [BlockAccount.record, ← kept]
      rfl
    | some e =>
      refine recorded_constrain (fun a => ?_) fun _ => rfl
      simp only [BlockAccount.record, ← kept]
      rfl
  · exact recorded_fail b _

theorem recorded_sharedColumns (names : List String) :
    b.Recorded (.sharedColumns names) (b.sharedColumns names) := by
  unfold sharedColumns
  split
  · split
    · exact recorded_fail b _
    · exact recorded_constrain (fun _ => rfl) fun _ => rfl
  · exact recorded_fail b _

/-- What a clause that may be absent adds to the values. -/
theorem flatMap_kept {es : List (Expr Query)} {e : Option (Expr Query)} {kept : Option (List Param)}
    (h : e.map (Expr.values Query.args) = kept) :
    (es ++ e.toList).flatMap (Expr.values Query.args) =
      es.flatMap (Expr.values Query.args) ++ kept.getD [] := by
  subst h
  cases e <;> simp

theorem recorded_filter (p : Clause) (given : List Param) :
    b.Recorded (.filter p given) (b.filter p given) := by
  refine recorded_attempt_map fun e accepted => ?_
  refine recorded_block ?_ (fun _ => rfl) rfl rfl
  unfold Block.account
  simp only [flatMap_kept (Clause.predicate_kept accepted)]
  rfl

theorem recorded_groupBy (t : Clause) : b.Recorded (.groupBy t) (b.groupBy t) := by
  refine recorded_attempt_map fun e accepted => ?_
  refine recorded_block ?_ (fun _ => rfl) rfl rfl
  unfold Block.account
  simp only [flatMap_kept (Clause.term_kept accepted)]
  rfl

theorem recorded_having (p : Clause) (given : List Param) :
    b.Recorded (.having p given) (b.having p given) := by
  refine recorded_attempt fun next hnext => ?_
  cases accepted : p.predicate given with
  | error e =>
    rw [accepted] at hnext
    cases hnext
  | ok e =>
    rw [accepted] at hnext
    simp only [Except.bind] at hnext
    have kept := Clause.predicate_kept accepted
    split at hnext
    · cases hnext
      refine recorded_block ?_ (fun _ => rfl) rfl rfl
      simp only [BlockAccount.record, ← kept, Option.map_none, Option.getD_none, List.append_nil]
    · rename_i e
      split at hnext
      · cases hnext
      · cases hnext
        refine recorded_block ?_ (fun _ => rfl) rfl rfl
        have values : (b.detached.body.current.having ++ [e]).flatMap (Expr.values Query.args) =
            b.detached.body.current.having.flatMap (Expr.values Query.args) ++
              (p.kept? given).getD [] := flatMap_kept kept
        unfold Block.account
        simp only [values]
        rfl

theorem recorded_orderBy (t : Clause) : b.Recorded (.orderBy t) (b.orderBy t) := by
  refine recorded_attempt_map fun e accepted => ?_
  have kept := Clause.term_kept accepted
  intro error
  cases e with
  | none =>
    refine ⟨error, ?_⟩
    simp only [Account.record, ← kept, Option.map_none, Option.getD_none, List.append_nil]
    rfl
  | some e =>
    refine ⟨error, ?_⟩
    unfold modifyTrailing Body.account
    simp [Account.record, ← kept]

theorem recorded_refineOrder {r : Refinement} {f : OrderTerm Query → OrderTerm Query}
    (same : ∀ term, (f term).expr = term.expr) (silent : ∀ a : Account, a.record c = a) :
    b.Recorded c (b.refineOrder r f) := by
  unfold refineOrder
  split
  · intro error
    refine ⟨error, ?_⟩
    have terms : (modifyLast f b.body.trailing.orderBy).map
        (fun term => term.expr.values Query.args) =
          b.body.trailing.orderBy.map fun term => term.expr.values Query.args :=
      map_modifyLast_eq (fun term => by rw [same]) _
    rw [silent]
    unfold modifyTrailing Body.account
    simp only [List.flatMap_def, terms]
  · exact recorded_fail b _

theorem recorded_limit (arg : LimitArg) : b.Recorded (.limit arg) (b.limit arg) := by
  unfold limit
  split
  · rename_i unset
    refine recorded_attempt_map fun e accepted error => ⟨error, ?_⟩
    have values := LimitArg.resolve_values accepted
    unfold detached modifyTrailing Body.account
    simp only [Account.record, unset, Limit.values, List.nil_append, ← values]
    cases e <;> simp
  · exact recorded_fail _ _

theorem recorded_offset (arg : LimitArg) : b.Recorded (.offset arg) (b.offset arg) := by
  unfold offset
  split
  · split
    · exact recorded_fail _ _
    · rename_i unset
      refine recorded_attempt_map fun e accepted error => ⟨error, ?_⟩
      have values := LimitArg.resolve_values accepted
      have none : b.body.trailing.offset = none := by simpa using unset
      unfold detached modifyTrailing Body.account
      simp only [Account.record, none, Option.toList_none, List.flatMap_nil, List.nil_append, values]
  · exact recorded_fail _ _

theorem recorded_compound (op : SetOp) : b.Recorded (.compound op) (b.compound op) := by
  intro error
  refine ⟨error, ?_⟩
  unfold compound Body.account
  simp only [List.map_append]
  rfl

/-- A call that leaves no error gives the body what it gives to the account. -/
theorem recorded_apply (b : Builder) (c : Call) : b.Recorded c (b.apply c) := by
  cases c with
  | distinct =>
    refine recorded_block ?_ (fun _ => rfl) rfl rfl
    rfl
  | all => exact recorded_all
  | allColumns =>
    refine recorded_project (fun a => ?_) fun _ => rfl
    rw [show [Item.allColumns none].flatMap (Item.values Query.args) = [] from rfl, List.append_nil]
    rfl
  | columns names => exact recorded_columns names
  | expr e =>
    refine recorded_attempt_map fun e' accepted => ?_
    obtain ⟨rfl, -⟩ := Expr.fullyBound_eq_ok.mp accepted
    refine recorded_project (fun a => ?_) fun _ => rfl
    simp [BlockAccount.record, Item.values]
  | aliasAs name => exact recorded_aliasAs name
  | qualify table =>
    exact recorded_refineItems (Item.values_qualify table) (fun _ => rfl) fun _ => rfl
  | aliasByName => exact recorded_refineItems Item.values_aliasByName (fun _ => rfl) fun _ => rfl
  | readFrom source => exact recorded_readFrom source
  | join target => exact recorded_join target
  | on p given => exact recorded_on p given
  | sharedColumns names => exact recorded_sharedColumns names
  | filter p given => exact recorded_filter p given
  | groupBy t => exact recorded_groupBy t
  | having p given => exact recorded_having p given
  | orderBy t => exact recorded_orderBy t
  | direct d => exact recorded_refineOrder (fun _ => rfl) fun _ => rfl
  | collate collation => exact recorded_refineOrder (fun _ => rfl) fun _ => rfl
  | limit arg => exact recorded_limit arg
  | offset arg => exact recorded_offset arg
  | compound op => exact recorded_compound op
  | _ => exact fun error => ⟨error, rfl⟩

end Builder

/-! ### Every run of calls -/

/-- Without an error, the body has what all the calls give. -/
theorem Grown.account {calls : List Call} {b : Builder} (h : Grown calls b) :
    b.error = none → b.body.account = .ofCalls calls := by
  refine Grown.induct (P := fun calls b => b.error = none → b.body.account = .ofCalls calls)
    ?_ ?_ ?_ h
  · exact fun _ => rfl
  · intro calls b q ih built _
    obtain ⟨error, _, _, rfl⟩ := Builder.build_eq_ok.mp built
    exact ih error
  · intro calls b c ih _ _ error
    obtain ⟨before, account⟩ := Builder.recorded_apply b c error
    rw [account, ih before, Account.ofCalls_concat]

/-- The arguments of a built query are the values of its calls, clause by clause. -/
theorem Grown.args {calls : List Call} {b : Builder} {q : Query} (h : Grown calls b)
    (built : b.build = .ok q) :
    q.args = argumentsOf calls ∧ q.pieces.slots = (argumentsOf calls).map some := by
  obtain ⟨error, _, _, rfl⟩ := Builder.build_eq_ok.mp built
  have values : b.body.values Query.args = argumentsOf calls := by
    rw [← Body.account_values, h.account error, Account.values_ofCalls]
  have slots : (Query.mk b.body).pieces.slots = (argumentsOf calls).map some := by
    rw [Query.pieces_mk, Body.slots_eq h.attached, ← values]
    rfl
  exact ⟨Pieces.args_of_slots slots, slots⟩

/-- A built query has a `?` for each value that its calls give, and no other slot: read along the
text, the values of the slots are the arguments, and these are the values of the kept clauses in
the order of the clauses, whatever the order of the calls. -/
theorem build_arguments {calls : List Call} {b : Builder} {q : Query} (h : Grown calls b)
    (built : b.build = .ok q) :
    q.pieces.written.map Prod.fst = q.statement.sql.toList ∧
      (∀ c slot, (c, some slot) ∈ q.pieces.written → c = '?') ∧
      q.pieces.written.filterMap Prod.snd = q.statement.args.map (fun text => some ⟨text⟩) ∧
      q.statement.args = (argumentsOf calls).map Param.text := by
  obtain ⟨args, slots⟩ := h.args built
  have texts : q.statement.args = (argumentsOf calls).map Param.text := by
    rw [← args]
    rfl
  refine ⟨?_, fun c slot => Pieces.written_mark, ?_, texts⟩
  · rw [Pieces.written_chars]
    simp [Query.statement, Pieces.sql]
  · rw [Pieces.written_slots, slots, texts, List.map_map]
    rfl

/-- The calls of a source that is left for the query around it to build. -/
def sourceCalls : List Call := [.readFrom (.table "t"), .filter (.text "k = ?") [⟨"0"⟩]]

/-- Clauses called out of order, over a source that has values of its own. -/
def mixedCalls : List Call :=
  [.groupBy (.text "a"), .having (.text "count(*) > ?") [⟨"3"⟩], .filter (.text "b = ?") [⟨"2"⟩],
    .readFrom (.table "replaced"), .readFrom (.builder (Builder.run {} sourceCalls)),
    .join (.table "u"), .on (.text "u.x = ?") [⟨"replaced"⟩], .on (.text "u.y = ?") [⟨"1"⟩],
    .expr (.raw "?" [⟨"first"⟩])]

theorem build_arguments_mixed :
    ∃ q, (Builder.run {} mixedCalls).build = .ok q ∧
      q.statement.args = ["first", "0", "1", "2", "3"] := by
  have source : Grown sourceCalls (Builder.run {} sourceCalls) :=
    Grown.empty.run sourceCalls (by simp [sourceCalls, Call.queries, SourceArg.queries, Clause.queries])
      (by simp [sourceCalls, Call.builders, SourceArg.builders])
  have mixed : Grown mixedCalls (Builder.run {} mixedCalls) := by
    refine Grown.empty.run mixedCalls ?_ ?_
    · simp [mixedCalls, Call.queries, SourceArg.queries, Clause.queries, Expr.queries]
    · simp [mixedCalls, Call.builders, SourceArg.builders]
      exact .grown source
  have built : (Builder.run {} mixedCalls).build = .ok (.mk (Builder.run {} mixedCalls).body) := rfl
  refine ⟨_, built, ?_⟩
  rw [(build_arguments mixed built).2.2.2]
  rfl

end SqlSelect
