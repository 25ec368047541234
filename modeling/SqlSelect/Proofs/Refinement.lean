import SqlSelect.Proofs.Cursor

/-! Refinements.

A refinement is a call that changes what an earlier call made: it names or constrains one part
(`Call.refinesOne`), or it changes each item of a projection (`Call.refinesEach?`). Which body a
refinement of one part leads to is said by `Refines`, where everything but the part at one place is
written down unchanged.

The main statement is `refinements_stay_in_place`: at every point of a run a refinement is refused,
and records an error, or it changes just the last place that the last call to set the cursor made;
or, if it is for items, the items that this call made. -/
namespace SqlSelect

/-- Whether there is a predicate or a term. -/
def Clause.present : Clause → Bool
  | .absent => false
  | .text sql => !Text.isBlank sql
  | .expr _ => true

theorem exists_some_of_map {ε α : Type} {r : Except ε α} {o : Option α} (h : r.map some = .ok o) :
    ∃ a, o = some a := by
  cases r with
  | ok a =>
    cases h
    exact ⟨a, rfl⟩
  | error e => cases h

/-- A predicate that there is leaves an expression when it is accepted. -/
theorem Clause.predicate_present {p : Clause} (h : p.present = true) {given : List Param}
    {e : Option (Expr Query)} (accepted : p.predicate given = .ok e) : ∃ e', e = some e' := by
  cases p with
  | absent => cases h
  | text sql =>
    have worded : ¬ Text.isBlank sql = true := by simpa [present] using h
    rw [predicate, if_neg worded] at accepted
    exact exists_some_of_map accepted
  | expr e₀ => exact exists_some_of_map accepted

/-- Whether a call refines one part. An absent predicate refines nothing. -/
def Call.refinesOne : Call → Bool
  | .aliasAs _ | .sharedColumns _ | .direct _ | .collate _ => true
  | .on p _ => p.present
  | _ => false

/-- What a call that refines the items of a projection makes of each. -/
def Call.refinesEach? : Call → Option (Item Query → Item Query)
  | .qualify table => some (Item.qualify table)
  | .aliasByName => some Item.aliasByName
  | _ => none

/-- `Refines b c place b'`: the body after a refinement of the part at a place, which is the only
one that is different. -/
inductive Refines (b : Body Query) : Call → Place → Body Query → Prop where
  | aliasItem {items : List (Item Query)} {e : Expr Query} {old : Option String} (name : String)
      (was : b.current.projection = items ++ [.expr e old]) :
      Refines b (.aliasAs name) (.item b.earlier.length items.length)
        { b with current := { b.current with projection := items ++ [.expr e (some name)] } }
  | aliasSource {s : FromClause Query} (name : String) (was : b.current.source = some s) :
      Refines b (.aliasAs name) (.source b.earlier.length)
        { b with current :=
          { b.current with source := some { s with aliasName := some name } } }
  | aliasJoin {joins : List (Join Query)} {j : Join Query} (name : String)
      (was : b.current.joins = joins ++ [j]) :
      Refines b (.aliasAs name) (.join b.earlier.length joins.length)
        { b with current :=
          { b.current with joins := joins ++ [{ j with aliasName := some name }] } }
  | on {joins : List (Join Query)} {j : Join Query} {p : Clause} {given : List Param}
      {e : Expr Query} (accepted : p.predicate given = .ok (some e))
      (was : b.current.joins = joins ++ [j]) :
      Refines b (.on p given) (.join b.earlier.length joins.length)
        { b with current :=
          { b.current with joins := joins ++ [{ j with constraint := some (.on e) }] } }
  | sharedColumns {joins : List (Join Query)} {j : Join Query} (names : List String)
      (was : b.current.joins = joins ++ [j]) :
      Refines b (.sharedColumns names) (.join b.earlier.length joins.length)
        { b with current :=
          { b.current with
            joins := joins ++ [{ j with constraint := some (.sharedColumns names) }] } }
  | direct {terms : List (OrderTerm Query)} {t : OrderTerm Query} (d : Direction)
      (was : b.trailing.orderBy = terms ++ [t]) :
      Refines b (.direct d) (.term terms.length)
        { b with trailing :=
          { b.trailing with orderBy := terms ++ [{ t with direction := some d }] } }
  | collate {terms : List (OrderTerm Query)} {t : OrderTerm Query} (collation : String)
      (was : b.trailing.orderBy = terms ++ [t]) :
      Refines b (.collate collation) (.term terms.length)
        { b with trailing :=
          { b.trailing with orderBy := terms ++ [{ t with collation := some collation }] } }

/-- A body after a change of the items at some places of the current block. -/
def Body.mapItems (b : Body Query) (places : List Place) (f : Item Query → Item Query) :
    Body Query :=
  { b with current := { b.current with
    projection := b.current.projection.mapIdx fun index item =>
      if .item b.earlier.length index ∈ places then f item else item } }

/-- Changing the elements from an index on is changing those whose index is no less. -/
theorem modifyFrom_eq_mapIdx {α : Type} (start : Nat) (f : α → α) (l : List α) :
    modifyFrom start f l = l.mapIdx fun index a => if start ≤ index then f a else a := by
  induction l generalizing start with
  | nil => simp [modifyFrom]
  | cons a l ih =>
    rw [List.mapIdx_cons]
    cases start with
    | zero =>
      have rest : l.map f = modifyFrom 0 f l := rfl
      show f a :: l.map f = _
      rw [rest, ih]
      simp
    | succ start =>
      have rest : modifyFrom (start + 1) f (a :: l) = a :: modifyFrom start f l := rfl
      rw [rest, ih]
      simp

/-- A list with something in it is changed in its last element. -/
theorem exists_modifyLast {α : Type} {l : List α} (h : 0 < l.length) (f : α → α) :
    ∃ before last, l = before ++ [last] ∧ l.length - 1 = before.length ∧
      modifyLast f l = before ++ [f last] := by
  rcases List.eq_nil_or_concat l with rfl | ⟨before, last, rfl⟩
  · cases h
  · rw [List.concat_eq_append, List.length_append, List.length_singleton, Nat.add_sub_cancel]
    exact ⟨before, last, rfl, rfl, modifyLast_concat f before last⟩

namespace Builder
variable {b : Builder} {places : List Place}

/-- The call is refused: an error is recorded, and the query is as it was. -/
def Refused (b : Builder) (c : Call) : Prop :=
  ∃ e, b.refusal? c = some e ∧ (b.apply c).error = b.error.or (some e) ∧
    (b.apply c).body = b.body

theorem refused_or (b : Builder) (c : Call) : b.Refused c ∨ b.refusal? c = none := by
  cases reason : b.refusal? c with
  | none => exact .inr rfl
  | some e =>
    have taken := taken_apply b c
    rw [reason] at taken
    exact .inl ⟨e, reason, taken.error, taken.body (Option.some_ne_none e)⟩

/-- A call that is not refused is neither misplaced nor wrong in its arguments. -/
theorem refusal?_eq_none {c : Call} :
    b.refusal? c = none ↔ b.misuse? c = none ∧ c.argumentError? = none := by
  rw [refusal?, Option.or_eq_none_iff, Option.map_eq_none_iff]

theorem applies_of_misplaced? {r : Refinement} {applies : Bool}
    (h : misplaced? r applies = none) : applies = true := by
  cases applies with
  | true => rfl
  | false => cases h

/-! ### Refinements of one part -/

/-- The call changes the last of these places. -/
def RefinesLast (b : Builder) (places : List Place) (c : Call) : Prop :=
  ∃ place, places.getLast? = some place ∧ Refines b.body c place (b.apply c).body

/-- A cursor at the last join: there is one, and it is what the cursor stands for. -/
theorem Points.last_join (h : b.Points places) (cursor : b.cursor = .join)
    (f : Join Query → Join Query) : ∃ joins j, b.body.current.joins = joins ++ [j] ∧
      modifyLast f b.body.current.joins = joins ++ [f j] ∧
      places.getLast? = some (.join b.body.earlier.length joins.length) := by
  obtain ⟨anchored, stands⟩ := h
  rw [cursor] at anchored stands
  obtain ⟨joins, j, was, index, changed⟩ := exists_modifyLast anchored f
  refine ⟨joins, j, was, changed, ?_⟩
  rw [← stands, ← index]
  rfl

/-- The same at the last term of the order. -/
theorem Points.last_term (h : b.Points places) (cursor : b.cursor = .orderBy)
    (f : OrderTerm Query → OrderTerm Query) : ∃ terms t, b.body.trailing.orderBy = terms ++ [t] ∧
      modifyLast f b.body.trailing.orderBy = terms ++ [f t] ∧
      places.getLast? = some (.term terms.length) := by
  obtain ⟨anchored, stands⟩ := h
  rw [cursor] at anchored stands
  obtain ⟨terms, t, was, index, changed⟩ := exists_modifyLast anchored f
  refine ⟨terms, t, was, changed, ?_⟩
  rw [← stands, ← index]
  rfl

/-- The same at an item that is the last one of its projection call. -/
theorem Points.last_item (h : b.Points places) {start : Nat} (cursor : b.cursor = .projection start)
    {item : Item Query} (last : (b.body.current.projection.drop start).getLast? = some item)
    (f : Item Query → Item Query) : ∃ items, b.body.current.projection = items ++ [item] ∧
      modifyLast f b.body.current.projection = items ++ [f item] ∧
      places.getLast? = some (.item b.body.earlier.length items.length) := by
  have inside : start < b.body.current.projection.length := by
    by_cases past : b.body.current.projection.length ≤ start
    · rw [List.drop_of_length_le past] at last
      cases last
    · omega
  rw [List.getLast?_drop, if_neg (by omega)] at last
  obtain ⟨items, was⟩ := List.getLast?_eq_some_iff.mp last
  have length : b.body.current.projection.length = items.length + 1 := by
    rw [was, List.length_append, List.length_singleton]
  refine ⟨items, was, by rw [was, modifyLast_concat], ?_⟩
  rw [← h.places, cursor]
  show ((List.range' start (b.body.current.projection.length - start)).map
    (Place.item b.body.earlier.length)).getLast? = _
  rw [List.getLast?_map, List.getLast?_range', if_neg (by omega)]
  have index : start + (b.body.current.projection.length - start) - 1 = items.length := by omega
  rw [index, Option.map_some]

theorem refinesLast_aliasAs (h : b.Points places) {name : String}
    (accepted : b.refusal? (.aliasAs name) = none) : b.RefinesLast places (.aliasAs name) := by
  have misuse : b.misuse? (.aliasAs name) = none := (refusal?_eq_none.mp accepted).1
  unfold RefinesLast
  simp only [apply, aliasAs]
  cases cursor : b.cursor with
  | projection start =>
    rcases last : (b.body.current.projection.drop start).getLast? with _ | (table | ⟨e, old⟩)
    · simp [misuse?, cursor, last, misplaced?] at misuse
    · simp [misuse?, cursor, last] at misuse
    · obtain ⟨items, was, changed, place⟩ := h.last_item cursor last (Item.withAlias name)
      refine ⟨_, place, ?_⟩
      simp only [last, modifyBlock, changed]
      exact .aliasItem name was
  | source =>
    obtain ⟨anchored, stands⟩ := h
    rw [cursor] at anchored stands
    obtain ⟨s, was⟩ := Option.isSome_iff_exists.mp anchored
    refine ⟨.source b.body.earlier.length, by rw [← stands]; rfl, ?_⟩
    simp only [modifyBlock, was, Option.map_some]
    exact .aliasSource name was
  | join =>
    obtain ⟨joins, j, was, changed, place⟩ :=
      h.last_join cursor ({ · with aliasName := some name })
    refine ⟨_, place, ?_⟩
    simp only [modifyBlock, changed]
    exact .aliasJoin name was
  | _ => simp [misuse?, cursor, misplaced?] at misuse

theorem last_constrained (h : b.Points places) (cursor : b.cursor = .join)
    (c : JoinConstraint Query) : ∃ joins j, b.body.current.joins = joins ++ [j] ∧
      (b.constrain c).body = { b.body with current :=
        { b.body.current with joins := joins ++ [{ j with constraint := some c }] } } ∧
      places.getLast? = some (.join b.body.earlier.length joins.length) := by
  obtain ⟨joins, j, was, changed, place⟩ := h.last_join cursor ({ · with constraint := some c })
  refine ⟨joins, j, was, ?_, place⟩
  simp only [constrain, modifyBlock, changed]

theorem refinesLast_on (h : b.Points places) {p : Clause} {given : List Param}
    (present : p.present = true) (accepted : b.refusal? (.on p given) = none) :
    b.RefinesLast places (.on p given) := by
  obtain ⟨misuse, argument⟩ := refusal?_eq_none.mp accepted
  have cursor : b.cursor = .join := by simpa using applies_of_misplaced? misuse
  obtain ⟨e, predicate⟩ : ∃ e, p.predicate given = .ok e :=
    exists_eq_ok (Option.isNone_iff_eq_none.mpr argument)
  obtain ⟨e, rfl⟩ := Clause.predicate_present present predicate
  obtain ⟨joins, j, was, constrained, place⟩ := last_constrained h cursor (.on e)
  have applied : b.apply (.on p given) = b.constrain (.on e) := by
    show b.on p given = _
    rw [on, if_pos cursor, predicate]
    rfl
  refine ⟨_, place, ?_⟩
  rw [applied, constrained]
  exact .on predicate was

theorem refinesLast_sharedColumns (h : b.Points places) {names : List String}
    (accepted : b.refusal? (.sharedColumns names) = none) :
    b.RefinesLast places (.sharedColumns names) := by
  obtain ⟨misuse, argument⟩ := refusal?_eq_none.mp accepted
  have cursor : b.cursor = .join := by simpa using applies_of_misplaced? misuse
  have listed : ¬ names.isEmpty = true := by
    intro empty
    rw [Call.argumentError?, if_pos empty] at argument
    cases argument
  obtain ⟨joins, j, was, constrained, place⟩ :=
    last_constrained h cursor (.sharedColumns names)
  have applied : b.apply (.sharedColumns names) = b.constrain (.sharedColumns names) := by
    show b.sharedColumns names = _
    rw [sharedColumns, if_pos cursor, if_neg listed]
  refine ⟨_, place, ?_⟩
  rw [applied, constrained]
  exact .sharedColumns names was

theorem last_reordered (h : b.Points places) (applies : b.orders = true)
    (r : Refinement) (f : OrderTerm Query → OrderTerm Query) :
    ∃ terms t, b.body.trailing.orderBy = terms ++ [t] ∧
      (b.refineOrder r f).body =
        { b.body with trailing := { b.body.trailing with orderBy := terms ++ [f t] } } ∧
      places.getLast? = some (.term terms.length) := by
  have ordered : b.cursor = .orderBy ∧ b.body.trailing.orderBy ≠ [] := by
    simpa [orders] using applies
  obtain ⟨terms, t, was, changed, place⟩ := h.last_term ordered.1 f
  refine ⟨terms, t, was, ?_, place⟩
  rw [refineOrder, if_pos ordered]
  simp only [modifyTrailing, changed]

theorem refinesLast_direct (h : b.Points places) {d : Direction}
    (accepted : b.refusal? (.direct d) = none) : b.RefinesLast places (.direct d) := by
  have applies : b.orders = true := by
    cases d <;> exact applies_of_misplaced? (refusal?_eq_none.mp accepted).1
  obtain ⟨terms, t, was, refined, place⟩ :=
    last_reordered h applies _ ({ · with direction := some d })
  refine ⟨_, place, ?_⟩
  show Refines b.body _ _ (b.refineOrder _ _).body
  rw [refined]
  exact .direct d was

theorem refinesLast_collate (h : b.Points places) {collation : String}
    (accepted : b.refusal? (.collate collation) = none) :
    b.RefinesLast places (.collate collation) := by
  have applies : b.orders = true := applies_of_misplaced? (refusal?_eq_none.mp accepted).1
  obtain ⟨terms, t, was, refined, place⟩ :=
    last_reordered h applies .collate ({ · with collation := some collation })
  refine ⟨_, place, ?_⟩
  show Refines b.body _ _ (b.refineOrder _ _).body
  rw [refined]
  exact .collate collation was

/-- A refinement of one part is refused or changes the last place that the cursor stands for. -/
theorem refused_or_refinesLast (h : b.Points places) {c : Call} (one : c.refinesOne = true) :
    b.Refused c ∨ b.RefinesLast places c := by
  rcases b.refused_or c with refused | accepted
  · exact .inl refused
  refine .inr ?_
  cases c with
  | aliasAs name => exact refinesLast_aliasAs h accepted
  | on p given => exact refinesLast_on h one accepted
  | sharedColumns names => exact refinesLast_sharedColumns h accepted
  | direct d => exact refinesLast_direct h accepted
  | collate collation => exact refinesLast_collate h accepted
  | _ => cases one

/-! ### Refinements of items -/

/-- The places that a cursor at a projection stands for are those of the items from there on. -/
theorem Points.item_mem (h : b.Points places) {start : Nat} (cursor : b.cursor = .projection start)
    {index : Nat} (inside : index < b.body.current.projection.length) :
    .item b.body.earlier.length index ∈ places ↔ start ≤ index := by
  have anchored : start ≤ b.body.current.projection.length := by
    have anchored := h.anchored
    rwa [cursor] at anchored
  rw [← h.places, cursor]
  show _ ∈ (List.range' start (b.body.current.projection.length - start)).map
    (Place.item b.body.earlier.length) ↔ _
  simp only [List.mem_map, List.mem_range'_1, Place.item.injEq, true_and, exists_eq_right]
  omega

theorem body_refineItems (h : b.Points places) (applies : b.projects = true) (r : Refinement)
    (f : Item Query → Item Query) : (b.refineItems r f).body = b.body.mapItems places f := by
  cases cursor : b.cursor with
  | projection start =>
    have same : modifyFrom start f b.body.current.projection =
        b.body.current.projection.mapIdx fun index item =>
          if .item b.body.earlier.length index ∈ places then f item else item := by
      rw [modifyFrom_eq_mapIdx]
      refine List.mapIdx_eq_mapIdx_iff.mpr fun index inside => ?_
      simp only [h.item_mem cursor inside]
    simp only [refineItems, cursor, modifyBlock, Body.mapItems, same]
  | _ => simp [projects, cursor] at applies

/-- A refinement of items is refused or changes the items that the cursor stands for. -/
theorem refused_or_mapItems (h : b.Points places) {c : Call} {f : Item Query → Item Query}
    (each : c.refinesEach? = some f) :
    b.Refused c ∨ (b.apply c).body = b.body.mapItems places f := by
  rcases b.refused_or c with refused | accepted
  · exact .inl refused
  refine .inr ?_
  have misuse := (refusal?_eq_none.mp accepted).1
  cases c with
  | qualify table =>
    cases each
    exact body_refineItems h (applies_of_misplaced? misuse) _ _
  | aliasByName =>
    cases each
    exact body_refineItems h (applies_of_misplaced? misuse) _ _
  | _ => cases each

end Builder

/-- At every point of a run there is something where the cursor points. A refinement of one part is
refused there, and leaves the query as it was, or it changes just the last part that the last call to
set the cursor made; a refinement of items is refused, or it changes just the items that this call
made. -/
theorem refinements_stay_in_place {start : Builder} (detached : start.cursor = .none)
    (calls : List Call) :
    (start.run calls).cursor.Anchored (start.run calls).body.layout ∧
    (∀ c : Call, c.refinesOne = true → (start.run calls).Refused c ∨
      ∃ place, (start.lastMade [] calls).getLast? = some place ∧
        Refines (start.run calls).body c place (start.run (calls ++ [c])).body) ∧
    (∀ (c : Call) f, c.refinesEach? = some f → (start.run calls).Refused c ∨
      (start.run (calls ++ [c])).body =
        (start.run calls).body.mapItems (start.lastMade [] calls) f) := by
  have points := Builder.points_run (Builder.points_nothing detached) calls
  have next : ∀ c, start.run (calls ++ [c]) = (start.run calls).apply c :=
    fun c => Builder.run_append start calls [c]
  refine ⟨points.anchored, fun c one => ?_, fun c f each => ?_⟩
  · rw [next]
    exact Builder.refused_or_refinesLast points one
  · rw [next]
    exact Builder.refused_or_mapItems points each

/-- A join that is to be named, with calls before it that refine nothing. -/
def namedJoinCalls : List Call :=
  [.columns ["a", "b"], .readFrom (.table "t"), .left, .join (.table "u"), .distinct]

theorem refinements_stay_in_place_join :
    (Builder.run {} namedJoinCalls).cursor = .join ∧
      Refines (Builder.run {} namedJoinCalls).body (.aliasAs "v") (.join 0 0)
        (Builder.run {} (namedJoinCalls ++ [.aliasAs "v"])).body := by
  refine ⟨rfl, ?_⟩
  have detached : ({} : Builder).cursor = .none := rfl
  obtain ⟨_, one, _⟩ := refinements_stay_in_place detached namedJoinCalls
  rcases one (.aliasAs "v") rfl with ⟨e, refused, _⟩ | ⟨place, last, refines⟩
  · cases refused
  · cases last
    exact refines

end SqlSelect
