import SqlSelect.Proofs.Refusal

/-! What the cursor stands for.

Whether a call sets the cursor is read off the call alone (`Call.setsCursor`), and so is what it
makes for refinements to apply to (`Builder.made`): places in the body, each with the number of
its block. A call that leaves the cursor alone also keeps the layout of the body, which is all that
a cursor depends on (`kept_apply`). A call that sets the cursor points it at what it made
(`points_apply`), and that was not there before (`made_new`). So at every point of a run the cursor
stands for what the last call that set it made, and there is always something where it points
(`points_run`). -/
namespace SqlSelect

/-! ### Calls that set the cursor -/

/-- Whether a call sets the cursor. Four calls do so only if their arguments are accepted; others
forget the cursor even when they are refused. -/
def Call.setsCursor (c : Call) : Bool :=
  match c with
  | .select | .allColumns | .columns _ | .filter .. | .groupBy _ | .having .. | .limit _
  | .offset _ | .compound _ => true
  | .expr _ | .readFrom _ | .join _ | .orderBy _ => c.argumentError?.isNone
  | _ => false

/-- A part of a body that refinements can apply to, by the number of its block and its own. -/
inductive Place where
  | item (block index : Nat)
  | source (block : Nat)
  | join (block index : Nat)
  | term (index : Nat)
deriving DecidableEq, Repr

/-- Where a call puts the cursor, given that it sets it. -/
def Builder.cursorAfter (b : Builder) : Call → Cursor
  | .allColumns | .columns _ | .expr _ => .projection b.body.current.projection.length
  | .readFrom _ => .source
  | .join _ => .join
  | .orderBy t =>
    match t.term with
    | .ok (some _) => .orderBy
    | _ => .none
  | .compound _ => .compound
  | _ => .none

/-- What a call makes for refinements to apply to, given that it sets the cursor. -/
def Builder.made (b : Builder) : Call → List Place
  | .allColumns | .expr _ => [.item b.body.earlier.length b.body.current.projection.length]
  | .columns names =>
    (List.range' b.body.current.projection.length names.length).map
      (.item b.body.earlier.length)
  | .readFrom _ => [.source b.body.earlier.length]
  | .join _ => [.join b.body.earlier.length b.body.current.joins.length]
  | .orderBy t =>
    match t.term with
    | .ok (some _) => [.term b.body.trailing.orderBy.length]
    | _ => []
  | _ => []

/-! ### Cursors and layouts -/

/-- How many parts of each kind a body has: closed blocks, the items, source and joins of the
current block, and terms of the order. -/
structure Layout where
  closed : Nat
  items : Nat
  reads : Bool
  joins : Nat
  terms : Nat
deriving DecidableEq, Repr

def Body.layout (b : Body Query) : Layout where
  closed := b.earlier.length
  items := b.current.projection.length
  reads := b.current.source.isSome
  joins := b.current.joins.length
  terms := b.trailing.orderBy.length

/-- The places that a cursor stands for. -/
def Cursor.places (l : Layout) : Cursor → List Place
  | .projection start => (List.range' start (l.items - start)).map (.item l.closed)
  | .source => [.source l.closed]
  | .join => [.join l.closed (l.joins - 1)]
  | .orderBy => [.term (l.terms - 1)]
  | .none | .compound => []

/-- There is something where the cursor points. -/
def Cursor.Anchored (l : Layout) : Cursor → Prop
  | .projection start => start ≤ l.items
  | .source => l.reads = true
  | .join => 0 < l.joins
  | .orderBy => 0 < l.terms
  | .compound => 0 < l.closed
  | .none => True

/-- There is a part at a place of the current block or of the order. -/
def Layout.Has (l : Layout) : Place → Prop
  | .item block index => block = l.closed ∧ index < l.items
  | .source block => block = l.closed ∧ l.reads = true
  | .join block index => block = l.closed ∧ index < l.joins
  | .term index => index < l.terms

/-- What an anchored cursor stands for is there. -/
theorem Cursor.Anchored.has {l : Layout} {c : Cursor} (h : c.Anchored l) {place : Place}
    (stands : place ∈ c.places l) : l.Has place := by
  cases c with
  | projection start =>
    have start_le : start ≤ l.items := h
    obtain ⟨index, inside, rfl⟩ := List.mem_map.mp stands
    rw [List.mem_range'_1] at inside
    exact ⟨rfl, by omega⟩
  | source =>
    obtain rfl := List.mem_singleton.mp stands
    exact ⟨rfl, h⟩
  | join =>
    obtain rfl := List.mem_singleton.mp stands
    exact ⟨rfl, Nat.sub_lt h Nat.one_pos⟩
  | orderBy =>
    obtain rfl := List.mem_singleton.mp stands
    exact Nat.sub_lt h Nat.one_pos
  | none => cases stands
  | compound => cases stands

theorem length_modifyLast {α : Type} (f : α → α) (l : List α) :
    (modifyLast f l).length = l.length := List.length_modify ..

theorem length_modifyFrom {α : Type} (start : Nat) (f : α → α) (l : List α) :
    (modifyFrom start f l).length = l.length := by
  rw [modifyFrom, List.length_append, List.length_map, ← List.length_append, List.take_append_drop]

namespace Builder

/-- The cursor is anchored, and it stands for these places. -/
structure Points (b : Builder) (places : List Place) : Prop where
  anchored : b.cursor.Anchored b.body.layout
  places : b.cursor.places b.body.layout = places

/-- The cursor is as it was, and so is the layout of the body. -/
structure Kept (b next : Builder) : Prop where
  cursor : next.cursor = b.cursor
  layout : next.body.layout = b.body.layout

variable {b next : Builder}

theorem Kept.points {places : List Place} (kept : b.Kept next) (h : b.Points places) :
    next.Points places := by
  obtain ⟨anchored, stands⟩ := h
  exact ⟨by rw [kept.cursor, kept.layout]; exact anchored,
    by rw [kept.cursor, kept.layout]; exact stands⟩

/-! ### One call -/

theorem kept_fail (b : Builder) (e : QueryError) : b.Kept (b.fail e) := ⟨rfl, rfl⟩

/-- Changes of the items, the source and the joins that add and remove none. -/
theorem kept_block {f : Block Query → Block Query}
    (items : (f b.body.current).projection.length = b.body.current.projection.length)
    (source : (f b.body.current).source.isSome = b.body.current.source.isSome)
    (joins : (f b.body.current).joins.length = b.body.current.joins.length) :
    b.Kept (b.modifyBlock f) := by
  refine ⟨rfl, ?_⟩
  simp only [modifyBlock, Body.layout, items, source, joins]

theorem kept_all (b : Builder) : b.Kept b.all := by
  unfold all
  split
  · refine ⟨rfl, ?_⟩
    simp only [Body.layout, length_modifyLast]
  · exact kept_block rfl rfl rfl

theorem kept_aliasAs (b : Builder) (name : String) : b.Kept (b.aliasAs name) := by
  unfold aliasAs
  split
  · split
    · exact kept_block (length_modifyLast ..) rfl rfl
    · exact kept_fail b _
    · exact kept_fail b _
  · exact kept_block rfl (Option.isSome_map ..) rfl
  · exact kept_block rfl rfl (length_modifyLast ..)
  · exact kept_fail b _

theorem kept_refineItems (b : Builder) (r : Refinement) (f : Item Query → Item Query) :
    b.Kept (b.refineItems r f) := by
  unfold refineItems
  split
  · exact kept_block (length_modifyFrom ..) rfl rfl
  · exact kept_fail b _

theorem kept_constrain (b : Builder) (c : JoinConstraint Query) : b.Kept (b.constrain c) :=
  kept_block rfl rfl (length_modifyLast ..)

theorem kept_on (b : Builder) (p : Clause) (given : List Param) : b.Kept (b.on p given) := by
  unfold on
  split
  · rcases p.predicate given with e | (_ | e)
    · exact kept_fail b e
    · exact ⟨rfl, rfl⟩
    · exact kept_constrain b _
  · exact kept_fail b _

theorem kept_sharedColumns (b : Builder) (names : List String) :
    b.Kept (b.sharedColumns names) := by
  unfold sharedColumns
  split
  · split
    · exact kept_fail b _
    · exact kept_constrain b _
  · exact kept_fail b _

theorem kept_refineOrder (b : Builder) (r : Refinement) (f : OrderTerm Query → OrderTerm Query) :
    b.Kept (b.refineOrder r f) := by
  unfold refineOrder
  split
  · refine ⟨rfl, ?_⟩
    simp only [modifyTrailing, Body.layout, length_modifyLast]
  · exact kept_fail b _

/-- A call that leaves the cursor alone keeps what it points at. -/
theorem kept_apply (b : Builder) {c : Call} (h : c.setsCursor = false) : b.Kept (b.apply c) := by
  cases c with
  | distinct => exact ⟨rfl, rfl⟩
  | all => exact kept_all b
  | expr e =>
    obtain ⟨e', refused⟩ := exists_eq_error h
    simp only [apply, expr, refused]
    exact kept_fail b e'
  | aliasAs name => exact kept_aliasAs b name
  | qualify table => exact kept_refineItems b _ _
  | aliasByName => exact kept_refineItems b _ _
  | readFrom source =>
    obtain ⟨e', refused⟩ := exists_eq_error h
    simp only [apply, readFrom, refused]
    exact kept_fail b e'
  | left => exact ⟨rfl, rfl⟩
  | cross => exact ⟨rfl, rfl⟩
  | natural => exact ⟨rfl, rfl⟩
  | join target =>
    obtain ⟨e', refused⟩ := exists_eq_error h
    simp only [apply, join, refused]
    exact ⟨rfl, rfl⟩
  | on p given => exact kept_on b p given
  | sharedColumns names => exact kept_sharedColumns b names
  | orderBy t =>
    obtain ⟨e', refused⟩ := exists_eq_error h
    simp only [apply, orderBy, refused]
    exact kept_fail b e'
  | direct d => exact kept_refineOrder b _ _
  | collate collation => exact kept_refineOrder b _ _
  | _ => cases h

theorem cursor_attempt {α : Type} {r : Except QueryError α} {f : α → Builder}
    (cursor : b.cursor = .none) (ok : ∀ a, (f a).cursor = .none) :
    (b.attempt (r.map f)).cursor = .none := by
  cases r with
  | ok a => exact ok a
  | error e => exact cursor

theorem cursor_having (b : Builder) (p : Clause) (given : List Param) :
    (b.having p given).cursor = .none := by
  unfold having
  rcases p.predicate given with e | (_ | e)
  · rfl
  · rfl
  · simp only [Except.bind]
    split <;> rfl

theorem cursor_limit (b : Builder) (arg : LimitArg) : (b.limit arg).cursor = .none := by
  unfold limit
  split
  · exact cursor_attempt rfl fun _ => rfl
  · rfl

theorem cursor_offset (b : Builder) (arg : LimitArg) : (b.offset arg).cursor = .none := by
  unfold offset
  split
  · split
    · rfl
    · exact cursor_attempt rfl fun _ => rfl
  · rfl

/-- A call that sets the cursor sets it to this. -/
theorem cursor_apply (b : Builder) {c : Call} (h : c.setsCursor = true) :
    (b.apply c).cursor = b.cursorAfter c := by
  cases c with
  | expr e =>
    obtain ⟨e', accepted⟩ := exists_eq_ok h
    simp only [apply, expr, accepted]
    rfl
  | readFrom source =>
    obtain ⟨s, accepted⟩ := exists_eq_ok h
    simp only [apply, readFrom, accepted]
    rfl
  | join target =>
    obtain ⟨t, accepted⟩ := exists_eq_ok h
    simp only [apply, join, accepted]
    rfl
  | orderBy t =>
    obtain ⟨e, accepted⟩ := exists_eq_ok h
    simp only [apply, orderBy, cursorAfter, accepted]
    cases e <;> rfl
  | filter p given => exact cursor_attempt rfl fun _ => rfl
  | groupBy t => exact cursor_attempt rfl fun _ => rfl
  | having p given => exact cursor_having b p given
  | limit arg => exact cursor_limit b arg
  | offset arg => exact cursor_offset b arg
  | select | allColumns | columns _ | compound _ => rfl
  | _ => cases h

/-- With no cursor there is nothing to point at. -/
theorem points_nothing (h : b.cursor = .none) : b.Points [] := by
  constructor
  · rw [h]
    trivial
  · rw [h]
    rfl

theorem points_project (b : Builder) (items : List (Item Query)) :
    (b.project items).Points ((List.range' b.body.current.projection.length items.length).map
      (Place.item b.body.earlier.length)) := by
  constructor
  · show _ ≤ (b.body.current.projection ++ items).length
    rw [List.length_append]
    exact Nat.le_add_right ..
  · show (List.range' b.body.current.projection.length
      ((b.body.current.projection ++ items).length - b.body.current.projection.length)).map
        (Place.item b.body.earlier.length) = _
    rw [List.length_append, Nat.add_sub_cancel_left]

theorem points_orderBy (b : Builder) {t : Clause} (h : (Call.orderBy t).setsCursor = true) :
    (b.orderBy t).Points (b.made (.orderBy t)) := by
  have cursor : (b.orderBy t).cursor = b.cursorAfter (.orderBy t) := cursor_apply b h
  obtain ⟨e, accepted⟩ := exists_eq_ok h
  simp only [cursorAfter, accepted] at cursor
  simp only [made, accepted]
  cases e with
  | none => exact points_nothing cursor
  | some e =>
    have appended : (b.orderBy t).body.trailing.orderBy.length =
        b.body.trailing.orderBy.length + 1 := by
      simp only [orderBy, accepted]
      exact List.length_append
    constructor
    · rw [cursor]
      show 0 < (b.orderBy t).body.trailing.orderBy.length
      omega
    · rw [cursor]
      show [Place.term ((b.orderBy t).body.trailing.orderBy.length - 1)] = _
      rw [appended, Nat.add_sub_cancel]

theorem points_join (b : Builder) {s : SourceArg} (h : (Call.join s).setsCursor = true) :
    (b.join s).Points (b.made (.join s)) := by
  have cursor : (b.join s).cursor = .join := cursor_apply b h
  obtain ⟨target, accepted⟩ := exists_eq_ok h
  have appended : (b.join s).body.current.joins.length = b.body.current.joins.length + 1 := by
    simp only [join, accepted]
    exact List.length_append
  have closed : (b.join s).body.earlier = b.body.earlier := by
    simp only [join, accepted]
    rfl
  constructor
  · rw [cursor]
    show 0 < (b.join s).body.current.joins.length
    omega
  · rw [cursor]
    show [Place.join (b.join s).body.earlier.length ((b.join s).body.current.joins.length - 1)] = _
    rw [appended, closed, Nat.add_sub_cancel]
    rfl

/-- A call that sets the cursor points it at what it made. -/
theorem points_apply (b : Builder) {c : Call} (h : c.setsCursor = true) :
    (b.apply c).Points (b.made c) := by
  cases c with
  | allColumns => exact points_project b _
  | columns names =>
    have points := points_project b (names.map fun name => .expr (.column none name) none)
    rw [List.length_map] at points
    exact points
  | expr e =>
    obtain ⟨e', accepted⟩ := exists_eq_ok h
    simp only [apply, expr, accepted]
    exact points_project b _
  | readFrom source =>
    obtain ⟨s, accepted⟩ := exists_eq_ok h
    simp only [apply, readFrom, accepted]
    exact ⟨rfl, rfl⟩
  | join target => exact points_join b h
  | orderBy t => exact points_orderBy b h
  | compound op =>
    refine ⟨?_, rfl⟩
    show 0 < (b.body.earlier ++ [_]).length
    rw [List.length_append]
    exact Nat.succ_pos _
  | select | filter _ _ | groupBy _ | having _ _ | limit _ | offset _ =>
    exact points_nothing (cursor_apply b h)
  | _ => cases h

/-- What a call makes is there after the call and was not there before, except that a source may
take the place of another one. -/
theorem made_new (b : Builder) {c : Call} (h : c.setsCursor = true) {place : Place}
    (made : place ∈ b.made c) : (b.apply c).body.layout.Has place ∧
      (b.body.layout.Has place → ∃ s, c = .readFrom s) := by
  obtain ⟨anchored, stands⟩ := points_apply b h
  refine ⟨anchored.has (stands ▸ made), fun before => ?_⟩
  cases c with
  | allColumns =>
    obtain rfl := List.mem_singleton.mp made
    exact absurd before.2 (Nat.lt_irrefl _)
  | expr e =>
    obtain rfl := List.mem_singleton.mp made
    exact absurd before.2 (Nat.lt_irrefl _)
  | columns names =>
    obtain ⟨index, inside, rfl⟩ := List.mem_map.mp made
    rw [List.mem_range'_1] at inside
    exact absurd before.2 (Nat.not_lt.mpr inside.1)
  | readFrom s => exact ⟨s, rfl⟩
  | join s =>
    obtain rfl := List.mem_singleton.mp made
    exact absurd before.2 (Nat.lt_irrefl _)
  | orderBy t =>
    obtain ⟨e, accepted⟩ := exists_eq_ok h
    simp only [Builder.made, accepted] at made
    cases e with
    | none => cases made
    | some e =>
      obtain rfl := List.mem_singleton.mp made
      exact absurd before (Nat.lt_irrefl _)
  | _ => cases made

/-! ### Every run of calls -/

/-- The places made by the last call of a run that set the cursor, or these if there was none. -/
def lastMade (b : Builder) (places : List Place) : List Call → List Place
  | [] => places
  | c :: rest => (b.apply c).lastMade (if c.setsCursor then b.made c else places) rest

theorem points_run {places : List Place} (h : b.Points places) (calls : List Call) :
    (b.run calls).Points (b.lastMade places calls) := by
  induction calls generalizing b places with
  | nil => exact h
  | cons c rest ih =>
    refine ih ?_
    cases sets : c.setsCursor with
    | true => exact points_apply b sets
    | false => exact (kept_apply b sets).points h

end Builder

end SqlSelect
