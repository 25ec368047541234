import SqlSelect.Proofs.Account
import SqlSelect.Proofs.Growth
import SqlSelect.Proofs.Parts
import SqlSelect.Proofs.Refusal
import Mathlib.Data.List.DropRight

/-! The kinds of joins.

A call can choose the kind of the next join in its block. The latest choice since the join before
counts (`chosenKind`), and a join without one is an inner join. A join that is refused uses up the
choice as well.

The main statement, `joins_are_of_chosen_kinds`, is that in every block the joins are of the kinds
that the calls for that block chose, and that a choice without a join in the last block is reported.
For a block that a set operator closed the latter is false (`not_every_choice_used_or_reported`): the
operator takes the choice back. -/
namespace SqlSelect

/-! ### What calls choose -/

namespace Call

/-- The kind that the call chooses for the next join. -/
def kind? : Call → Option JoinKind
  | left => some .left
  | cross => some .cross
  | natural => some .natural
  | _ => none

/-- Whether no choice waits behind the call. -/
def settlesKind : Call → Bool
  | join _ | compound _ => true
  | _ => false

/-- Whether the call appends a join. -/
def joins : Call → Bool
  | join s => (errorOf? s.resolve).isNone
  | _ => false

end Call

/-- The latest kind that was chosen since the last join. -/
def chosenKind (calls : List Call) : Option JoinKind :=
  ((calls.rtakeWhile fun c => !c.settlesKind).filterMap Call.kind?).getLast?

/-- The kinds of the joins that the calls behind others in a block append. -/
def joinKindsBehind (before : List Call) : List Call → List JoinKind
  | [] => []
  | c :: rest =>
    (if c.joins then [(chosenKind before).getD .inner] else []) ++
      joinKindsBehind (before ++ [c]) rest

/-- The kinds of the joins that the calls for a block append. -/
def joinKinds (calls : List Call) : List JoinKind := joinKindsBehind [] calls

theorem chosenKind_concat (calls : List Call) (c : Call) : chosenKind (calls ++ [c]) =
    if c.settlesKind then none else c.kind?.or (chosenKind calls) := by
  rw [chosenKind, List.rtakeWhile_concat]
  cases settles : c.settlesKind with
  | true => rfl
  | false =>
    simp only [Bool.not_false, if_true, List.filterMap_append]
    cases chosen : c.kind? with
    | none => simp [chosen, chosenKind]
    | some kind => simp [chosen]

theorem joinKindsBehind_concat (before calls : List Call) (c : Call) :
    joinKindsBehind before (calls ++ [c]) = joinKindsBehind before calls ++
      if c.joins then [(chosenKind (before ++ calls)).getD .inner] else [] := by
  induction calls generalizing before with
  | nil => simp [joinKindsBehind]
  | cons d rest ih => simp [joinKindsBehind, ih]

theorem joinKinds_concat (calls : List Call) (c : Call) : joinKinds (calls ++ [c]) =
    joinKinds calls ++ if c.joins then [(chosenKind calls).getD .inner] else [] :=
  joinKindsBehind_concat [] calls c

/-- A call that opens no block goes to the last one. -/
theorem splitOnP_concat {p : Call → Bool} {c : Call} (inside : p c = false) {calls : List Call}
    {closed : List (List Call)} {last : List Call} (split : calls.splitOnP p = closed ++ [last]) :
    (calls ++ [c]).splitOnP p = closed ++ [last ++ [c]] := by
  induction calls generalizing closed last with
  | nil =>
    have alone : [] ++ [[]] = closed ++ [last] := split
    obtain ⟨rfl, same⟩ := List.append_inj' alone rfl
    cases same
    simp [List.splitOnP_cons_eq_if_modifyHead, inside]
  | cons d rest ih =>
    obtain ⟨closed', last', split'⟩ : ∃ closed' last', rest.splitOnP p = closed' ++ [last'] :=
      ⟨_, _, (List.dropLast_append_getLast (List.splitOnP_ne_nil p rest)).symm⟩
    rw [List.splitOnP_cons_eq_if_modifyHead, split'] at split
    rw [List.cons_append, List.splitOnP_cons_eq_if_modifyHead, ih split']
    by_cases opens : p d = true
    · rw [if_pos opens, ← List.cons_append] at split
      obtain ⟨rfl, same⟩ := List.append_inj' split rfl
      cases same
      rw [if_pos opens, List.cons_append]
    · rw [if_neg opens] at split ⊢
      cases closed' with
      | nil =>
        have alone : [] ++ [d :: last'] = closed ++ [last] := split
        obtain ⟨rfl, same⟩ := List.append_inj' alone rfl
        cases same
        rfl
      | cons first others =>
        have behind : ((d :: first) :: others) ++ [last'] = closed ++ [last] := split
        obtain ⟨rfl, same⟩ := List.append_inj' behind rfl
        cases same
        rfl

namespace Builder
variable {b : Builder}

/-! ### One call -/

theorem pendingJoin_apply (b : Builder) (c : Call) : (b.apply c).pendingJoin =
    if c.settlesKind then none else c.kind?.or b.pendingJoin := by
  have others : .joinKind ∉ c.writes → (b.apply c).pendingJoin = b.pendingJoin :=
    agrees_apply b
  cases c with
  | join s =>
    show (b.join s).pendingJoin = none
    unfold join
    rcases s.resolve with e | t <;> rfl
  | left | cross | natural | compound op => rfl
  | _ => exact others (by simp [Call.writes])

theorem kinds_aliasAs (b : Builder) (name : String) :
    (b.aliasAs name).body.current.joins.map Join.kind = b.body.current.joins.map Join.kind := by
  unfold aliasAs
  split
  · split <;> rfl
  · rfl
  · exact map_modifyLast_eq (f := fun j : Join Query => { j with aliasName := some name })
      (fun _ => rfl) _
  · rfl

theorem kinds_constrain (b : Builder) (constraint : JoinConstraint Query) :
    (b.constrain constraint).body.current.joins.map Join.kind =
      b.body.current.joins.map Join.kind :=
  map_modifyLast_eq (f := fun j : Join Query => { j with constraint := some constraint })
    (fun _ => rfl) _

theorem kinds_on (b : Builder) (p : Clause) (given : List Param) :
    (b.on p given).body.current.joins.map Join.kind = b.body.current.joins.map Join.kind := by
  unfold on
  split
  · rcases p.predicate given with e | (_ | e)
    · rfl
    · rfl
    · exact kinds_constrain b _
  · rfl

theorem kinds_sharedColumns (b : Builder) (names : List String) :
    (b.sharedColumns names).body.current.joins.map Join.kind =
      b.body.current.joins.map Join.kind := by
  unfold sharedColumns
  split
  · split
    · rfl
    · exact kinds_constrain b _
  · rfl

/-- A join is of the kind that waits, and no call changes the kind of another one. -/
theorem kinds_apply (b : Builder) {c : Call} (inside : c.opensBlock = false) :
    (b.apply c).body.current.joins.map Join.kind = b.body.current.joins.map Join.kind ++
      if c.joins then [b.pendingJoin.getD .inner] else [] := by
  have others : .joins ∉ c.writes → c.joins = false →
      (b.apply c).body.current.joins.map Join.kind = b.body.current.joins.map Join.kind ++
        if c.joins then [b.pendingJoin.getD .inner] else [] := by
    intro unwritten none
    have same : (b.apply c).body.current.joins = b.body.current.joins := agrees_apply b unwritten
    rw [same, none]
    exact (List.append_nil _).symm
  cases c with
  | aliasAs name => exact (kinds_aliasAs b name).trans (List.append_nil _).symm
  | on p given => exact (kinds_on b p given).trans (List.append_nil _).symm
  | sharedColumns names => exact (kinds_sharedColumns b names).trans (List.append_nil _).symm
  | join s =>
    show (b.join s).body.current.joins.map Join.kind = _
    unfold join
    cases resolved : s.resolve with
    | error e => simp [Call.joins, resolved, errorOf?, attempt, Except.map, fail]
    | ok t =>
      simp [Call.joins, resolved, errorOf?, attempt, Except.map, modifyBlock]
      rfl
  | compound op => cases inside
  | _ => exact others (by simp [Call.writes]) rfl

end Builder

/-! ### Every run of calls -/

/-- So far the joins are of the chosen kinds, block by block, and the latest choice waits. -/
theorem Grown.kinds {calls : List Call} {b : Builder} (h : Grown calls b) :
    ∃ closed last, calls.splitOnP Call.opensBlock = closed ++ [last] ∧
      b.body.earlier.map (fun l => l.block.joins.map Join.kind) = closed.map joinKinds ∧
      b.body.current.joins.map Join.kind = joinKinds last ∧ b.pendingJoin = chosenKind last := by
  refine h.along (P := fun calls b => ∃ closed last,
    calls.splitOnP Call.opensBlock = closed ++ [last] ∧
    b.body.earlier.map (fun l => l.block.joins.map Join.kind) = closed.map joinKinds ∧
    b.body.current.joins.map Join.kind = joinKinds last ∧ b.pendingJoin = chosenKind last) ?_ ?_ ?_
  · exact ⟨[], [], List.splitOnP_nil, rfl, rfl, rfl⟩
  · rintro calls b q - ⟨closed, last, split, earlier, current, waits⟩ built
    obtain ⟨_, none, _, rfl⟩ := Builder.build_eq_ok.mp built
    exact ⟨closed, last, split, earlier, current, none.symm.trans waits⟩
  · rintro calls b c - ⟨closed, last, split, earlier, current, waits⟩ - -
    have pending := b.pendingJoin_apply c
    cases opens : c.opensBlock with
    | true =>
      obtain ⟨op, rfl⟩ := Call.exists_of_opensBlock opens
      refine ⟨closed ++ [last], [], ?_, ?_, rfl, rfl⟩
      · rw [List.splitOnP_append_cons _ _ rfl, split, List.splitOnP_nil]
      · show (b.body.earlier ++ [(⟨b.body.current, op⟩ : Link Query)]).map _ = _
        rw [List.map_append, List.map_append, earlier, List.map_singleton, List.map_singleton,
          current]
    | false =>
      refine ⟨closed, last ++ [c], splitOnP_concat opens split, ?_, ?_, ?_⟩
      · have inside : ∀ op, c ≠ .compound op := by
          rintro op rfl
          cases opens
        have same := congrArg (List.map fun block : Block Query => block.joins.map Join.kind)
          (b.closed_apply inside)
        rw [List.map_map, List.map_map] at same
        exact same.trans earlier
      · rw [b.kinds_apply opens, joinKinds_concat, current, waits]
      · rw [pending, chosenKind_concat, waits]

/-- In every block the joins are of the kinds that the calls for it chose: for each the latest kind
since the join before, and an inner join without one. A choice in the last block that no join follows
is what building reports, unless there is an error already. -/
theorem joins_are_of_chosen_kinds {calls : List Call} {b : Builder} (grown : Grown calls b) :
    b.body.blocks.map (fun block => block.joins.map Join.kind) =
        (calls.splitOnP Call.opensBlock).map joinKinds ∧
      ∀ closed last kind, calls.splitOnP Call.opensBlock = closed ++ [last] →
        chosenKind last = some kind →
        b.build = .error (b.error.getD (.invalidState (.joinPending kind))) := by
  obtain ⟨closed, last, split, earlier, current, waits⟩ := grown.kinds
  refine ⟨?_, fun closed' last' kind split' chosen => ?_⟩
  · rw [Body.blocks, List.map_append, List.map_map, split, List.map_append, ← earlier,
      List.map_singleton, List.map_singleton, current]
    rfl
  · obtain ⟨_, same⟩ := List.append_inj' (split.symm.trans split') rfl
    cases same
    rw [chosen] at waits
    cases error : b.error <;> simp [Builder.build, error, waits]

/-- Two joins in the first block, and none in the second. -/
def joinedCalls : List Call :=
  [.readFrom (.table "a"), .cross, .left, .filter (.text "x") [], .join (.table "b"),
    .join (.table "c"), .aliasAs "d", .compound .union, .readFrom (.table "e"), .natural]

theorem joins_are_of_chosen_kinds_joined :
    (Builder.run {} joinedCalls).body.blocks.map (fun block => block.joins.map Join.kind) =
        [[.left, .inner], []] ∧
      (Builder.run {} joinedCalls).build = .error (.invalidState (.joinPending .natural)) := by
  have grown : Grown joinedCalls (Builder.run {} joinedCalls) :=
    Grown.empty.run joinedCalls
      (by simp [joinedCalls, Call.queries, SourceArg.queries, Clause.queries])
      (by simp [joinedCalls, Call.builders, SourceArg.builders])
  obtain ⟨kinds, waits⟩ := joins_are_of_chosen_kinds grown
  exact ⟨kinds, waits [_] _ .natural rfl rfl⟩

/-- A kind for a join that the first block does not come to have. -/
def unjoinedCalls : List Call :=
  [.readFrom (.table "a"), .left, .compound .union, .readFrom (.table "b")]

/-- Building does not report it. -/
theorem not_every_choice_used_or_reported :
    ¬ ∀ calls b, Grown calls b →
      (∃ block ∈ calls.splitOnP Call.opensBlock, chosenKind block ≠ none) →
      ∃ e, b.build = .error e := by
  intro reported
  have grown : Grown unjoinedCalls (Builder.run {} unjoinedCalls) :=
    Grown.empty.run unjoinedCalls (by simp [unjoinedCalls, Call.queries, SourceArg.queries])
      (by simp [unjoinedCalls, Call.builders, SourceArg.builders])
  obtain ⟨e, failed⟩ := reported _ _ grown
    ⟨[.readFrom (.table "a"), .left], List.mem_cons_self,
      by simp [chosenKind, List.rtakeWhile, Call.settlesKind, Call.kind?]⟩
  cases failed

end SqlSelect
