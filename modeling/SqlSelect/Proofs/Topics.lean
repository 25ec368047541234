import SqlSelect.Proofs.Cursor

/-! What calls speak of.

Every call that puts something into a query, or chooses what to put there, is about one topic
(`Call.topic?`): a clause, or two clauses of which one depends on the other. A builder can be cut
down to what it holds on a topic (`Builder.only`), and it can take over what another holds on one
(`Builder.taking`).

The main statements say that a call only looks at its own topic. Carried out on what a builder holds
on the topic of a call, the call comes to what it comes to on the builder itself (`apply_topic`), and
the refinements behind it do as well (`apply_refinement`). -/
namespace SqlSelect

/-! ### Topics -/

/-- The clauses that calls are about. Predicates on groups go with the groups, and the offset with
the limit, which have to be there first. -/
inductive Topic where
  | distinct
  | projection
  | source
  | joins
  | selection
  | grouping
  | order
  | paging
deriving DecidableEq, Repr

namespace Topic

/-- Whether each block has its own, or the whole chain has one. -/
def ofBlock : Topic → Bool
  | order | paging => false
  | _ => true

end Topic

namespace Call

/-- What the call is about, apart from refinements. -/
def topic? : Call → Option Topic
  | distinct => some .distinct
  | allColumns | columns _ | expr _ => some .projection
  | readFrom _ => some .source
  | left | cross | natural | join _ => some .joins
  | filter .. => some .selection
  | groupBy _ | having .. => some .grouping
  | orderBy _ => some .order
  | limit _ | offset _ => some .paging
  | _ => none

/-- Whether the call refines what an earlier one made. -/
def refines : Call → Bool
  | aliasAs _ | qualify _ | aliasByName | on .. | sharedColumns _ | direct _ | collate _ => true
  | _ => false

theorem setsCursor_of_refines {c : Call} (h : c.refines = true) : c.setsCursor = false := by
  cases c with
  | aliasAs _ | qualify _ | aliasByName | on _ _ | sharedColumns _ | direct _ | collate _ => rfl
  | _ => cases h

/-- Whether the call leaves to be refined what an earlier one made, and nothing of its own. -/
def passes : Call → Bool
  | distinct | left | cross | natural => true
  | _ => false

end Call

/-- What there is to refine is on this topic. -/
def Cursor.topic? : Cursor → Option Topic
  | .projection _ => some .projection
  | .source => some .source
  | .join => some .joins
  | .orderBy => some .order
  | _ => Option.none

/-! ### What there is on a topic -/

namespace Block

def only (b : Block Query) : Topic → Block Query
  | .distinct => { distinct := b.distinct }
  | .projection => { projection := b.projection }
  | .source => { source := b.source }
  | .joins => { joins := b.joins }
  | .selection => { selection := b.selection }
  | .grouping => { groupBy := b.groupBy, having := b.having }
  | .order | .paging => {}

def taking (b other : Block Query) : Topic → Block Query
  | .distinct => { b with distinct := other.distinct }
  | .projection => { b with projection := other.projection }
  | .source => { b with source := other.source }
  | .joins => { b with joins := other.joins }
  | .selection => { b with selection := other.selection }
  | .grouping => { b with groupBy := other.groupBy, having := other.having }
  | .order | .paging => b

end Block

def Link.only (l : Link Query) (t : Topic) : Link Query := ⟨l.block.only t, l.op⟩

namespace Trailing

def only (t : Trailing Query) : Topic → Trailing Query
  | .order => { orderBy := t.orderBy }
  | .paging => { limit := t.limit, offset := t.offset }
  | _ => {}

def taking (t other : Trailing Query) : Topic → Trailing Query
  | .order => { t with orderBy := other.orderBy }
  | .paging => { t with limit := other.limit, offset := other.offset }
  | _ => t

end Trailing

namespace Builder
variable {b x next : Builder} {t s : Topic} {c : Call}

/-- What a builder holds on a topic. -/
def only (b : Builder) (t : Topic) : Builder where
  body :=
    { earlier := if t.ofBlock then b.body.earlier.map (Link.only · t) else []
      current := b.body.current.only t
      trailing := b.body.trailing.only t }
  pendingJoin :=
    match t with
    | .joins => b.pendingJoin
    | _ => none

/-- A builder with what another holds on a topic for its open block and the chain. What there is to
refine is what the other has, and errors of both are kept. -/
def taking (b other : Builder) (t : Topic) : Builder where
  body :=
    { earlier := b.body.earlier
      current := b.body.current.taking other.body.current t
      trailing := b.body.trailing.taking other.body.trailing t }
  cursor := other.cursor
  pendingJoin :=
    match t with
    | .joins => other.pendingJoin
    | _ => b.pendingJoin
  error := b.error.or other.error

/-- On another topic there is what there was. -/
theorem only_taking_ne (b x : Builder) (other : s ≠ t) : (b.taking x t).only s = b.only s := by
  cases s <;> cases t <;> first | rfl | exact absurd rfl other

/-- On the topic itself there is what was taken, and what the closed blocks had. -/
theorem only_taking (b x : Builder) (t : Topic) : (b.taking x t).only t =
    { x.only t with body := { (x.only t).body with earlier := (b.only t).body.earlier } } := by
  cases t <;> rfl

/-- A builder takes nothing from itself. -/
theorem taking_only (b : Builder) (t : Topic) : b.taking (b.only t) t = b.detached := by
  simp only [taking, only, Option.or_none]
  cases t <;> rfl

/-- Apart from what there is to refine, one builder is another with what a third holds on a topic. -/
def TakesOver (b : Builder) (t : Topic) (x next : Builder) : Prop :=
  next.detached = (b.taking x t).detached

theorem takesOver_self (b : Builder) (t : Topic) : b.TakesOver t (b.only t) b := by
  rw [TakesOver, taking_only]
  rfl

theorem takesOver_detached (b : Builder) (t : Topic) :
    b.TakesOver t (b.only t).detached b.detached := b.takesOver_self t

theorem takesOver_of_ok (error : next.error = b.error) (clean : x.error = none)
    (body : next.body = (b.taking x t).body)
    (joinKind : next.pendingJoin = (b.taking x t).pendingJoin) : b.TakesOver t x next := by
  have errors : next.error = (b.taking x t).error := by
    show next.error = b.error.or x.error
    rw [error, clean, Option.or_none]
  rw [TakesOver, detached, detached, body, joinKind, errors]

theorem taking_fail (b x : Builder) (e : QueryError) :
    b.taking (x.fail e) t = (b.taking x t).fail e := by
  simp only [Builder.fail, taking, Option.or_assoc]

theorem TakesOver.fail (h : b.TakesOver t x next) (e : QueryError) :
    b.TakesOver t (x.fail e) (next.fail e) := by
  show next.detached.fail e = (b.taking (x.fail e) t).detached
  rw [h, taking_fail]
  rfl

theorem TakesOver.attempt {α : Type} {r : Except QueryError α} {f g : α → Builder}
    (h : b.TakesOver t x next) (ok : ∀ a, b.TakesOver t (f a) (g a)) :
    b.TakesOver t (x.attempt (r.map f)) (next.attempt (r.map g)) := by
  cases r with
  | ok a => exact ok a
  | error e => exact h.fail e

/-! ### Calls about a topic -/

theorem having_topic (b : Builder) (p : Clause) (given : List Param) :
    b.TakesOver .grouping ((b.only .grouping).having p given) (b.having p given) := by
  unfold Builder.having
  rcases p.predicate given with e | (_ | e)
  · exact (b.takesOver_detached .grouping).fail e
  · exact b.takesOver_detached .grouping
  · by_cases ungrouped : b.body.current.groupBy.isEmpty = true
    · simp only [Except.bind, only, Block.only, ungrouped, if_true]
      exact (b.takesOver_detached .grouping).fail _
    · simp only [Except.bind, only, Block.only, ungrouped]
      exact takesOver_of_ok rfl rfl rfl rfl

theorem limit_topic (b : Builder) (arg : LimitArg) :
    b.TakesOver .paging ((b.only .paging).limit arg) (b.limit arg) := by
  have same : (b.only .paging).body.trailing.limit = b.body.trailing.limit := rfl
  unfold Builder.limit
  rw [same]
  cases b.body.trailing.limit with
  | unset => exact (b.takesOver_detached .paging).attempt fun e => takesOver_of_ok rfl rfl rfl rfl
  | _ => exact (b.takesOver_detached .paging).fail _

theorem offset_topic (b : Builder) (arg : LimitArg) :
    b.TakesOver .paging ((b.only .paging).offset arg) (b.offset arg) := by
  have limit : (b.only .paging).body.trailing.limit = b.body.trailing.limit := rfl
  have offset : (b.only .paging).body.trailing.offset = b.body.trailing.offset := rfl
  unfold Builder.offset
  rw [limit, offset]
  cases b.body.trailing.limit with
  | value e =>
    by_cases repeated : b.body.trailing.offset.isSome = true
    · simp only [repeated, if_true]
      exact (b.takesOver_detached .paging).fail _
    · simp only [repeated]
      exact (b.takesOver_detached .paging).attempt fun e => takesOver_of_ok rfl rfl rfl rfl
  | _ => exact (b.takesOver_detached .paging).fail _

/-- A call about a topic comes to the same on what the builder holds on it, apart from what there is
left to refine. -/
theorem apply_topic (b : Builder) (topic : c.topic? = some t) :
    b.TakesOver t ((b.only t).apply c) (b.apply c) := by
  cases c with
  | distinct | allColumns | columns names | left | cross | natural =>
    cases topic
    exact takesOver_of_ok rfl rfl rfl rfl
  | expr e =>
    cases topic
    exact (b.takesOver_self .projection).attempt fun _ => takesOver_of_ok rfl rfl rfl rfl
  | readFrom source =>
    cases topic
    exact (b.takesOver_self .source).attempt fun _ => takesOver_of_ok rfl rfl rfl rfl
  | join target =>
    cases topic
    have settled : b.TakesOver .joins { b.only .joins with pendingJoin := none }
        { b with pendingJoin := none } := takesOver_of_ok rfl rfl rfl rfl
    exact settled.attempt fun _ => takesOver_of_ok rfl rfl rfl rfl
  | filter p given =>
    cases topic
    exact (b.takesOver_detached .selection).attempt fun _ => takesOver_of_ok rfl rfl rfl rfl
  | groupBy term =>
    cases topic
    exact (b.takesOver_detached .grouping).attempt fun _ => takesOver_of_ok rfl rfl rfl rfl
  | having p given =>
    cases topic
    exact having_topic b p given
  | orderBy term =>
    cases topic
    refine (b.takesOver_self .order).attempt fun e => ?_
    cases e <;> exact takesOver_of_ok rfl rfl rfl rfl
  | limit arg =>
    cases topic
    exact limit_topic b arg
  | offset arg =>
    cases topic
    exact offset_topic b arg
  | _ => cases topic

/-! ### Refinements -/

/-- A map of builders leaves alone what there is to refine: nothing of it is changed, and it makes no
difference whether it is changed before or after. -/
structure Spares (φ : Builder → Builder) (x : Builder) : Prop where
  cursor : (φ x).cursor = x.cursor
  fail : ∀ e, φ (x.fail e) = (φ x).fail e
  items : ∀ start, x.cursor = .projection start →
    (φ x).body.current.projection = x.body.current.projection ∧
      ∀ f : List (Item Query) → List (Item Query),
        φ (x.modifyBlock fun block => { block with projection := f block.projection }) =
          (φ x).modifyBlock fun block => { block with projection := f block.projection }
  source : x.cursor = .source → ∀ f : Option (FromClause Query) → Option (FromClause Query),
    φ (x.modifyBlock fun block => { block with source := f block.source }) =
      (φ x).modifyBlock fun block => { block with source := f block.source }
  joins : x.cursor = .join → ∀ f : List (Join Query) → List (Join Query),
    φ (x.modifyBlock fun block => { block with joins := f block.joins }) =
      (φ x).modifyBlock fun block => { block with joins := f block.joins }
  terms : x.cursor = .orderBy → (φ x).body.trailing.orderBy = x.body.trailing.orderBy ∧
    ∀ f : List (OrderTerm Query) → List (OrderTerm Query),
      φ (x.modifyTrailing fun trailing => { trailing with orderBy := f trailing.orderBy }) =
        (φ x).modifyTrailing fun trailing => { trailing with orderBy := f trailing.orderBy }

section Spares
variable {φ : Builder → Builder}

theorem aliasAs_spared (h : Spares φ x) (name : String) :
    (φ x).aliasAs name = φ (x.aliasAs name) := by
  unfold aliasAs
  rw [h.cursor]
  cases cursor : x.cursor with
  | projection start =>
    obtain ⟨items, modified⟩ := h.items start cursor
    rw [items]
    rcases last : (x.body.current.projection.drop start).getLast? with _ | (_ | _)
    · simp only [last]
      exact (h.fail _).symm
    · simp only [last]
      exact (h.fail _).symm
    · simp only [last]
      exact (modified _).symm
  | source => exact (h.source cursor _).symm
  | join => exact (h.joins cursor _).symm
  | _ => exact (h.fail _).symm

theorem refineItems_spared (h : Spares φ x) (r : Refinement) (f : Item Query → Item Query) :
    (φ x).refineItems r f = φ (x.refineItems r f) := by
  unfold refineItems
  rw [h.cursor]
  cases cursor : x.cursor with
  | projection start => exact ((h.items start cursor).2 _).symm
  | _ => exact (h.fail _).symm

theorem on_spared (h : Spares φ x) (p : Clause) (given : List Param) :
    (φ x).on p given = φ (x.on p given) := by
  unfold on
  rw [h.cursor]
  by_cases cursor : x.cursor = .join
  · rw [if_pos cursor, if_pos cursor]
    rcases p.predicate given with e | (_ | e)
    · exact (h.fail e).symm
    · rfl
    · exact (h.joins cursor _).symm
  · rw [if_neg cursor, if_neg cursor]
    exact (h.fail _).symm

theorem sharedColumns_spared (h : Spares φ x) (names : List String) :
    (φ x).sharedColumns names = φ (x.sharedColumns names) := by
  unfold sharedColumns
  rw [h.cursor]
  by_cases cursor : x.cursor = .join
  · rw [if_pos cursor, if_pos cursor]
    by_cases empty : names.isEmpty = true
    · rw [if_pos empty, if_pos empty]
      exact (h.fail _).symm
    · rw [if_neg empty, if_neg empty]
      exact (h.joins cursor _).symm
  · rw [if_neg cursor, if_neg cursor]
    exact (h.fail _).symm

theorem refineOrder_spared (h : Spares φ x) (r : Refinement)
    (f : OrderTerm Query → OrderTerm Query) :
    (φ x).refineOrder r f = φ (x.refineOrder r f) := by
  unfold refineOrder
  rw [h.cursor]
  by_cases cursor : x.cursor = .orderBy
  · obtain ⟨terms, modified⟩ := h.terms cursor
    rw [terms]
    by_cases applies : x.cursor = .orderBy ∧ x.body.trailing.orderBy ≠ []
    · rw [if_pos applies, if_pos applies]
      exact (modified _).symm
    · rw [if_neg applies, if_neg applies]
      exact (h.fail _).symm
  · rw [if_neg fun applies => cursor applies.1, if_neg fun applies => cursor applies.1]
    exact (h.fail _).symm

/-- A refinement may come before or after what leaves alone what it refines. -/
theorem apply_spared (h : Spares φ x) (refines : c.refines = true) :
    (φ x).apply c = φ (x.apply c) := by
  cases c with
  | aliasAs name => exact aliasAs_spared h name
  | qualify table => exact refineItems_spared h _ _
  | aliasByName => exact refineItems_spared h _ _
  | on p given => exact on_spared h p given
  | sharedColumns names => exact sharedColumns_spared h names
  | direct d => exact refineOrder_spared h _ _
  | collate collation => exact refineOrder_spared h _ _
  | _ => cases refines

end Spares

/-- What there is to refine is on the topic, if there is anything. -/
def Inside (x : Builder) (t : Topic) : Prop := ∀ s, x.cursor.topic? = some s → s = t

theorem spares_taking (b : Builder) (h : x.Inside t) : Spares (b.taking · t) x := by
  have topic : ∀ {k : Cursor} {s : Topic}, x.cursor = k → k.topic? = some s → s = t :=
    fun cursor refined => h _ (by rw [cursor, refined])
  refine ⟨rfl, taking_fail b x, fun start cursor => ?_, fun cursor f => ?_, fun cursor f => ?_,
    fun cursor => ?_⟩
  · obtain rfl : .projection = t := topic cursor rfl
    exact ⟨rfl, fun _ => rfl⟩
  · obtain rfl : .source = t := topic cursor rfl
    rfl
  · obtain rfl : .joins = t := topic cursor rfl
    rfl
  · obtain rfl : .order = t := topic cursor rfl
    exact ⟨rfl, fun _ => rfl⟩

/-- A refinement of what there is on the topic only looks at that. -/
theorem apply_refinement (b : Builder) (h : x.Inside t) (refines : c.refines = true) :
    (b.taking x t).apply c = b.taking (x.apply c) t :=
  apply_spared (spares_taking b h) refines

end Builder

end SqlSelect
