import SqlSelect.Builder.Call

/-! Refused calls.

A call is refused for what is wrong with its arguments (`Call.argumentError?`), or because the
state of the builder does not allow it (`Builder.misuse?`). Both are read off the call and the
builder as it is before the call; nothing is carried out for it. `taken_apply` says that this is
all there is to failing: a call records just the reason it is refused for, if there is one, and
then it leaves the body alone.

The main statement, `earliest_refusal_stands`, follows for whole runs: the first reason is the
error of the builder from then on, building reports it, also through any number of builders around
that one, and no refused call leaves a trace in the query. -/
namespace SqlSelect

/-! ### Reasons -/

/-- The error of an attempt that failed. -/
def errorOf? {α : Type} : Except QueryError α → Option QueryError
  | .ok _ => none
  | .error e => some e

theorem exists_eq_error {α : Type} {r : Except QueryError α} (h : (errorOf? r).isNone = false) :
    ∃ e, r = .error e := by
  cases r with
  | ok a => cases h
  | error e => exact ⟨e, rfl⟩

theorem exists_eq_ok {α : Type} {r : Except QueryError α} (h : (errorOf? r).isNone = true) :
    ∃ a, r = .ok a := by
  cases r with
  | ok a => exact ⟨a, rfl⟩
  | error e => cases h

/-- What is wrong with the arguments of a call, whatever builder it is for. An unbuilt builder
that cannot be built is wrong as an argument. -/
def Call.argumentError? : Call → Option QueryError
  | expr e => errorOf? e.fullyBound
  | readFrom s | join s => errorOf? s.resolve
  | on p given | filter p given | having p given => errorOf? (p.predicate given)
  | sharedColumns names => if names.isEmpty then some (.missingList "USING column list") else none
  | groupBy t | orderBy t => errorOf? t.term
  | limit arg | offset arg => errorOf? arg.resolve
  | _ => none

namespace Builder

/-- Whether the refinements of items apply. -/
def projects (b : Builder) : Bool :=
  match b.cursor with
  | .projection _ => true
  | _ => false

/-- Whether the refinements of an order apply. -/
def orders (b : Builder) : Bool := b.cursor == .orderBy && !b.body.trailing.orderBy.isEmpty

/-- A refinement is misplaced where it does not apply. -/
def misplaced? (r : Refinement) (applies : Bool) : Option StateFault :=
  if applies then none else some (.misplaced r)

/-- What in the state of the builder does not allow a call. -/
def misuse? (b : Builder) : Call → Option StateFault
  | .aliasAs _ =>
    match b.cursor with
    | .projection start =>
      match (b.body.current.projection.drop start).getLast? with
      | some (.allColumns _) => some .aliasOnAllColumns
      | last => misplaced? .aliasAs last.isSome
    | cursor => misplaced? .aliasAs (cursor == .source || cursor == .join)
  | .qualify _ => misplaced? .qualify b.projects
  | .aliasByName => misplaced? .aliasByName b.projects
  | .on .. => misplaced? .on (b.cursor == .join)
  | .sharedColumns _ => misplaced? .sharedColumns (b.cursor == .join)
  | .having p given =>
    match p.predicate given with
    | .ok (some _) => if b.body.current.groupBy.isEmpty then some .havingWithoutGroupBy else none
    | _ => none
  | .direct .asc => misplaced? .asc b.orders
  | .direct .desc => misplaced? .desc b.orders
  | .collate _ => misplaced? .collate b.orders
  | .limit _ =>
    match b.body.trailing.limit with
    | .unset => none
    | _ => some .limitRepeated
  | .offset _ =>
    match b.body.trailing.limit with
    | .value _ => if b.body.trailing.offset.isSome then some .offsetRepeated else none
    | _ => some .offsetWithoutLimit
  | _ => none

/-- Why a call is refused, if it is. -/
def refusal? (b : Builder) (c : Call) : Option QueryError :=
  ((b.misuse? c).map .invalidState).or c.argumentError?

/-! ### One call -/

/-- What a call that is refused for a reason, if there is one, makes of a builder. -/
structure Taken (b : Builder) (reason : Option QueryError) (next : Builder) : Prop where
  /-- The reason is recorded, unless an error is recorded already. -/
  error : next.error = b.error.or reason
  /-- With a reason, nothing is changed in the query. -/
  body : reason ≠ none → next.body = b.body

variable {b settled next : Builder} {reason : Option QueryError}

theorem taken_of_ok (error : next.error = b.error) : b.Taken none next :=
  ⟨by rw [error, Option.or_none], fun h => absurd rfl h⟩

theorem taken_fail (b : Builder) (e : QueryError) : b.Taken (some e) (b.fail e) :=
  ⟨error_fail b e, fun _ => body_fail b e⟩

/-- Where a refinement does not apply, it is misplaced. -/
theorem taken_misplaced {r : Refinement} {applies : Bool} {c : Call}
    (misuse : b.misuse? c = misplaced? r applies) (off : applies = false) :
    b.Taken (b.refusal? c) (b.misplaced r) := by
  have reason : b.refusal? c = some (.invalidState (.misplaced r)) := by
    simp [refusal?, misuse, off, misplaced?]
  rw [reason]
  exact taken_fail b _

/-- A call that only its arguments can be wrong for is an attempt to use them. -/
theorem taken_attempt {α : Type} {r : Except QueryError α} {f : α → Builder} {c : Call}
    (misuse : b.misuse? c = none) (argument : c.argumentError? = errorOf? r)
    (error : settled.error = b.error) (body : settled.body = b.body)
    (ok : ∀ a, (f a).error = b.error) : b.Taken (b.refusal? c) (settled.attempt (r.map f)) := by
  rw [refusal?, misuse, argument]
  cases r with
  | ok a => exact taken_of_ok (ok a)
  | error e => exact ⟨congrArg (Option.or · (some e)) error, fun _ => body⟩

theorem taken_aliasAs (b : Builder) (name : String) :
    b.Taken (b.refusal? (.aliasAs name)) (b.aliasAs name) := by
  have refused : b.refusal? (.aliasAs name) = (b.misuse? (.aliasAs name)).map .invalidState :=
    Option.or_none
  rw [refused]
  unfold aliasAs
  cases cursor : b.cursor with
  | projection start =>
    rcases last : (b.body.current.projection.drop start).getLast? with _ | (table | e)
    · simp only [misuse?, cursor, last]
      exact taken_fail b _
    · simp only [misuse?, cursor, last]
      exact taken_fail b _
    · simp only [misuse?, cursor, last]
      exact taken_of_ok rfl
  | source =>
    simp only [misuse?, cursor]
    exact taken_of_ok rfl
  | join =>
    simp only [misuse?, cursor]
    exact taken_of_ok rfl
  | _ =>
    simp only [misuse?, cursor]
    exact taken_fail b _

theorem taken_refineItems {r : Refinement} {f : Item Query → Item Query} {c : Call}
    (misuse : b.misuse? c = misplaced? r b.projects) (argument : c.argumentError? = none) :
    b.Taken (b.refusal? c) (b.refineItems r f) := by
  unfold refineItems
  cases cursor : b.cursor with
  | projection start =>
    have on : b.projects = true := by simp [projects, cursor]
    rw [refusal?, misuse, argument, on]
    exact taken_of_ok rfl
  | _ => exact taken_misplaced misuse (by simp [projects, cursor])

theorem taken_on (b : Builder) (p : Clause) (given : List Param) :
    b.Taken (b.refusal? (.on p given)) (b.on p given) := by
  unfold on
  by_cases cursor : b.cursor = .join
  · rw [if_pos cursor]
    refine taken_attempt ?_ rfl rfl rfl fun e => ?_
    · simp [misuse?, misplaced?, cursor]
    · cases e <;> rfl
  · rw [if_neg cursor]
    exact taken_misplaced rfl (by simp [cursor])

theorem taken_sharedColumns (b : Builder) (names : List String) :
    b.Taken (b.refusal? (.sharedColumns names)) (b.sharedColumns names) := by
  unfold sharedColumns
  by_cases cursor : b.cursor = .join
  · have applies : b.misuse? (.sharedColumns names) = none := by
      simp [misuse?, misplaced?, cursor]
    rw [if_pos cursor, refusal?, applies]
    simp only [Call.argumentError?]
    by_cases empty : names.isEmpty = true
    · rw [if_pos empty, if_pos empty]
      exact taken_fail b _
    · rw [if_neg empty, if_neg empty]
      exact taken_of_ok rfl
  · rw [if_neg cursor]
    exact taken_misplaced rfl (by simp [cursor])

theorem taken_having (b : Builder) (p : Clause) (given : List Param) :
    b.Taken (b.refusal? (.having p given)) (b.having p given) := by
  unfold having
  rcases accepted : p.predicate given with e | (_ | e)
  · have refused : b.refusal? (.having p given) = some e := by
      simp [refusal?, misuse?, Call.argumentError?, accepted, errorOf?]
    rw [refused]
    exact ⟨rfl, fun _ => rfl⟩
  · have refused : b.refusal? (.having p given) = none := by
      simp [refusal?, misuse?, Call.argumentError?, accepted, errorOf?]
    rw [refused]
    exact taken_of_ok rfl
  · simp only [Except.bind]
    by_cases ungrouped : b.body.current.groupBy.isEmpty = true
    · have refused : b.refusal? (.having p given) =
          some (.invalidState .havingWithoutGroupBy) := by
        simp [refusal?, misuse?, accepted, ungrouped]
      rw [refused, if_pos ungrouped]
      exact ⟨rfl, fun _ => rfl⟩
    · have refused : b.refusal? (.having p given) = none := by
        simp [refusal?, misuse?, Call.argumentError?, accepted, errorOf?, ungrouped]
      rw [refused, if_neg ungrouped]
      exact taken_of_ok rfl

theorem taken_refineOrder {r : Refinement} {f : OrderTerm Query → OrderTerm Query} {c : Call}
    (misuse : b.misuse? c = misplaced? r b.orders) (argument : c.argumentError? = none) :
    b.Taken (b.refusal? c) (b.refineOrder r f) := by
  unfold refineOrder
  by_cases applies : b.cursor = .orderBy ∧ b.body.trailing.orderBy ≠ []
  · have on : b.orders = true := by simpa [orders] using applies
    rw [if_pos applies, refusal?, misuse, argument, on]
    exact taken_of_ok rfl
  · rw [if_neg applies]
    refine taken_misplaced misuse ?_
    simpa [orders] using applies

theorem taken_limit (b : Builder) (arg : LimitArg) :
    b.Taken (b.refusal? (.limit arg)) (b.limit arg) := by
  unfold limit
  cases limit : b.body.trailing.limit with
  | unset => exact taken_attempt (by simp [misuse?, limit]) rfl rfl rfl fun _ => rfl
  | _ =>
    simp only [refusal?, misuse?, limit]
    exact ⟨rfl, fun _ => rfl⟩

theorem taken_offset (b : Builder) (arg : LimitArg) :
    b.Taken (b.refusal? (.offset arg)) (b.offset arg) := by
  unfold offset
  cases limit : b.body.trailing.limit with
  | value e =>
    by_cases repeated : b.body.trailing.offset.isSome = true
    · simp only [refusal?, misuse?, limit, repeated, if_true]
      exact ⟨rfl, fun _ => rfl⟩
    · simp only [repeated, Bool.false_eq_true, if_false]
      exact taken_attempt (by simp [misuse?, limit, repeated]) rfl rfl rfl fun _ => rfl
  | _ =>
    simp only [refusal?, misuse?, limit]
    exact ⟨rfl, fun _ => rfl⟩

/-- A call records the reason it is refused for, and a refused call leaves the body alone. -/
theorem taken_apply (b : Builder) (c : Call) : b.Taken (b.refusal? c) (b.apply c) := by
  cases c with
  | all =>
    refine taken_of_ok ?_
    show b.all.error = b.error
    unfold all
    split <;> rfl
  | expr e => exact taken_attempt rfl rfl rfl rfl fun _ => rfl
  | aliasAs name => exact taken_aliasAs b name
  | qualify table => exact taken_refineItems rfl rfl
  | aliasByName => exact taken_refineItems rfl rfl
  | readFrom source => exact taken_attempt rfl rfl rfl rfl fun _ => rfl
  | join target => exact taken_attempt rfl rfl rfl rfl fun _ => rfl
  | on p given => exact taken_on b p given
  | sharedColumns names => exact taken_sharedColumns b names
  | filter p given => exact taken_attempt rfl rfl rfl rfl fun _ => rfl
  | groupBy t => exact taken_attempt rfl rfl rfl rfl fun _ => rfl
  | having p given => exact taken_having b p given
  | orderBy t =>
    refine taken_attempt rfl rfl rfl rfl fun e => ?_
    cases e <;> rfl
  | direct d => cases d <;> exact taken_refineOrder rfl rfl
  | collate collation => exact taken_refineOrder rfl rfl
  | limit arg => exact taken_limit b arg
  | offset arg => exact taken_offset b arg
  | _ => exact taken_of_ok rfl

/-! ### Every run of calls -/

/-- The reason of the first call of a run that is refused, each judged on the builder it meets. -/
def firstRefusal? (b : Builder) : List Call → Option QueryError
  | [] => none
  | c :: rest => (b.refusal? c).or ((b.apply c).firstRefusal? rest)

theorem error_run (b : Builder) (calls : List Call) :
    (b.run calls).error = b.error.or (b.firstRefusal? calls) := by
  induction calls generalizing b with
  | nil => exact Option.or_none.symm
  | cons c rest ih =>
    show ((b.apply c).run rest).error = _
    rw [ih, (b.taken_apply c).error, firstRefusal?, Option.or_assoc]

theorem firstRefusal?_append (b : Builder) (calls more : List Call) :
    b.firstRefusal? (calls ++ more) = (b.firstRefusal? calls).or ((b.run calls).firstRefusal? more) := by
  induction calls generalizing b with
  | nil => rfl
  | cons c rest ih =>
    rw [List.cons_append, firstRefusal?, firstRefusal?, ih, Option.or_assoc]
    rfl

/-- Nothing is refused in a run when nothing is refused at any point of it. -/
theorem firstRefusal?_eq_none {b : Builder} {calls : List Call} : b.firstRefusal? calls = none ↔
    ∀ before c after, calls = before ++ c :: after → (b.run before).refusal? c = none := by
  constructor
  · rintro h before c after rfl
    rw [firstRefusal?_append, firstRefusal?, Option.or_eq_none_iff, Option.or_eq_none_iff] at h
    exact h.2.1
  · intro h
    induction calls generalizing b with
    | nil => rfl
    | cons c rest ih =>
      have first : b.refusal? c = none := h [] c rest rfl
      have others : (b.apply c).firstRefusal? rest = none :=
        ih fun before d after split => h (c :: before) d after (by rw [split, List.cons_append])
      rw [firstRefusal?, first, others, Option.or_none]

theorem firstRefusal?_eq_some {b : Builder} {calls : List Call} {e : QueryError} :
    b.firstRefusal? calls = some e ↔ ∃ before c after, calls = before ++ c :: after ∧
      b.firstRefusal? before = none ∧ (b.run before).refusal? c = some e := by
  constructor
  · intro h
    induction calls generalizing b with
    | nil => cases h
    | cons c rest ih =>
      rw [firstRefusal?, Option.or_eq_some_iff] at h
      rcases h with refused | ⟨accepted, later⟩
      · exact ⟨[], c, rest, rfl, rfl, refused⟩
      · obtain ⟨before, d, after, rfl, none, refused⟩ := ih later
        refine ⟨c :: before, d, after, rfl, ?_, refused⟩
        rw [firstRefusal?, accepted, none, Option.or_none]
  · rintro ⟨before, c, after, rfl, accepted, refused⟩
    rw [firstRefusal?_append, accepted, firstRefusal?, refused, Option.none_or, Option.some_or]

theorem build_of_error {b : Builder} {e : QueryError} (h : b.error = some e) :
    b.build = .error e := by
  simp only [build, h]

end Builder

/-! ### Builders inside of builders -/

/-- A run of calls that attaches a builder on its way, to read from it or to join it. -/
structure Attachment where
  start : Builder
  before : List Call
  joins : Bool
  after : List Call

namespace Attachment

/-- The call that attaches the builder. -/
def call (a : Attachment) (inner : Builder) : Call :=
  if a.joins then .join (.builder inner) else .readFrom (.builder inner)

/-- What the run grows around the builder. -/
def around (a : Attachment) (inner : Builder) : Builder :=
  a.start.run (a.before ++ a.call inner :: a.after)

/-- The call that attaches a builder is refused for what building it reports. -/
theorem refusal_call (a : Attachment) {inner : Builder} {e : QueryError}
    (failed : inner.build = .error e) (b : Builder) : b.refusal? (a.call inner) = some e := by
  have resolved : (SourceArg.builder inner).resolve = .error e := by
    simp only [SourceArg.resolve, failed]
    rfl
  unfold call
  by_cases joins : a.joins = true
  · rw [if_pos joins]
    exact congrArg errorOf? resolved
  · rw [if_neg joins]
    exact congrArg errorOf? resolved

end Attachment

namespace Builder

/-- The outermost of the builders around one, where each attaches the one before. -/
def nested (inner : Builder) (layers : List Attachment) : Builder :=
  layers.foldl (fun b a => a.around b) inner

/-- What building a builder reports is reported through all the builders around it, unless one of
them has an error of its own before. -/
theorem build_nested {inner : Builder} {e : QueryError} (failed : inner.build = .error e)
    {layers : List Attachment} (clean : ∀ a ∈ layers, (a.start.run a.before).error = none) :
    (inner.nested layers).build = .error e := by
  induction layers generalizing inner with
  | nil => exact failed
  | cons a layers ih =>
    refine ih (build_of_error ?_) fun d hd => clean d (List.mem_cons_of_mem a hd)
    have attached : (a.start.run a.before).firstRefusal? (a.call inner :: a.after) = some e := by
      rw [firstRefusal?, a.refusal_call failed, Option.some_or]
    show (a.start.run (a.before ++ a.call inner :: a.after)).error = some e
    rw [run_append, error_run, clean a List.mem_cons_self, attached, Option.none_or]

end Builder

/-- The error of a builder is the reason of the earliest call that was refused, each call judged on
the builder it met. No later call replaces or clears it, building reports it whatever follows and
however deep the builder is attached, and every refused call leaves the query as it was. -/
theorem earliest_refusal_stands {start : Builder} (fresh : start.error = none)
    (calls : List Call) :
    (∀ e, (start.run calls).error = some e ↔ ∃ before c after, calls = before ++ c :: after ∧
      (∀ earlier d between, before = earlier ++ d :: between →
        (start.run earlier).refusal? d = none) ∧
      (start.run before).refusal? c = some e) ∧
    (∀ e, (start.run calls).error = some e → ∀ more, (start.run (calls ++ more)).error = some e ∧
      (start.run (calls ++ more)).build = .error e) ∧
    (∀ before c after, calls = before ++ c :: after → (start.run before).refusal? c ≠ none →
      (start.run (before ++ [c])).body = (start.run before).body ∧
      (start.run (before ++ [c])).tables = (start.run before).tables) ∧
    (∀ e, (start.run calls).build = .error e → ∀ layers : List Attachment,
      (∀ a ∈ layers, (a.start.run a.before).error = none) →
      ((start.run calls).nested layers).build = .error e) := by
  have recorded : ∀ calls, (start.run calls).error = start.firstRefusal? calls := by
    intro calls
    rw [Builder.error_run, fresh, Option.none_or]
  refine ⟨fun e => ?_, fun e error more => ?_, fun before c after _ refused => ?_,
    fun e failed layers clean => Builder.build_nested failed clean⟩
  · rw [recorded, Builder.firstRefusal?_eq_some]
    simp only [Builder.firstRefusal?_eq_none]
  · have stands : (start.run (calls ++ more)).error = some e := by
      rw [Builder.run_append, Builder.error_run, error, Option.some_or]
    exact ⟨stands, Builder.build_of_error stands⟩
  · have body : (start.run (before ++ [c])).body = (start.run before).body := by
      rw [Builder.run_append]
      exact ((start.run before).taken_apply c).body refused
    exact ⟨body, by rw [Builder.tables, body, Builder.tables]⟩

/-- A filter with a value too many, and a limit said twice. -/
def refusedCalls : List Call :=
  [.readFrom (.table "t"), .filter (.text "a = ?") [⟨"1"⟩, ⟨"2"⟩], .limit (.integer 1),
    .limit (.integer 2)]

/-- A query around the builder of these calls, and one joined to that. -/
def refusedLayers : List Attachment :=
  [⟨{}, [.allColumns], false, []⟩, ⟨{}, [.readFrom (.table "u")], true, [.offset .absent]⟩]

theorem earliest_refusal_stands_limit :
    (Builder.run {} refusedCalls).error = some (.argumentCount 1 2) ∧
      ((Builder.run {} refusedCalls).nested refusedLayers).build = .error (.argumentCount 1 2) := by
  have fresh : ({} : Builder).error = none := rfl
  obtain ⟨_, later, _, nested⟩ := earliest_refusal_stands fresh refusedCalls
  have error : (Builder.run {} refusedCalls).error = some (.argumentCount 1 2) := rfl
  have built := (later _ error []).2
  refine ⟨error, nested _ built refusedLayers ?_⟩
  simp [refusedLayers]
  exact ⟨rfl, rfl⟩

end SqlSelect
