import SqlSelect.Proofs.Lineage
import SqlSelect.Proofs.OuterWords
import SqlSelect.Proofs.Parts
import SqlSelect.Proofs.Refusal

/-! The limit and the offset of a chain.

The limit is set once. What one call does to it is `Builder.limit_apply`: nothing, or the call is a
limit that is not refused, and there was none before. Asking for no limit is also asking. An offset
is set only under a limit that has a value (`Builder.offset_apply`), and both stay as they are from
then on, since they belong to the chain and not to a block.

The main statement, `limit_taken_once`, says so for every path of builders, through copies, queries
that are reopened and set operators, and says where the limit and the offset are written. -/
namespace SqlSelect

namespace Builder
variable {b next : Builder} {steps : List Step}

/-! ### The limit -/

/-- The argument of a limit that is not refused. -/
def limitTaken? (b : Builder) : Step → Option LimitArg
  | .call (.limit arg) => if (b.refusal? (.limit arg)).isNone then some arg else none
  | _ => none

/-- The limits on a path that are not refused, each judged on the builder it meets. -/
def limitsTaken (b : Builder) : List Step → List LimitArg
  | [] => []
  | s :: rest => (b.limitTaken? s).toList ++ (b.step? s).elim [] (·.limitsTaken rest)

theorem limitsTaken_cons {s : Step} (step : b.step? s = some next) (rest : List Step) :
    b.limitsTaken (s :: rest) = (b.limitTaken? s).toList ++ next.limitsTaken rest := by
  rw [limitsTaken, step]
  rfl

/-- How the limit comes of limits that were not refused: it is as it was without one, and else it
was not set before and is what the only one asked for. -/
def LimitOf (limit : Limit Query) (taken : List LimitArg) (now : Limit Query) : Prop :=
  taken = [] ∧ now = limit ∨
    limit = .unset ∧ ∃ arg e, taken = [arg] ∧ arg.resolve = .ok e ∧ now = e.elim .null .value

theorem LimitOf.of_set {limit now : Limit Query} {taken : List LimitArg}
    (h : LimitOf limit taken now) (set : limit ≠ .unset) : taken = [] ∧ now = limit := by
  rcases h with kept | ⟨unset, _⟩
  · exact kept
  · exact absurd unset set

/-- A limit that was asked for is set, also when no limit was asked for. -/
theorem LimitOf.set {limit now : Limit Query} {taken : List LimitArg}
    (h : LimitOf limit taken now) (asked : taken ≠ []) : now ≠ .unset := by
  rcases h with ⟨none, _⟩ | ⟨_, _, e, _, _, rfl⟩
  · exact absurd none asked
  · cases e <;> simp

theorem limit_apply (b : Builder) (c : Call) :
    LimitOf b.body.trailing.limit (b.limitTaken? (.call c)).toList
      (b.apply c).body.trailing.limit := by
  cases c with
  | limit arg =>
    have taken := b.taken_apply (.limit arg)
    cases refused : b.refusal? (.limit arg) with
    | some e =>
      refine .inl ⟨?_, congrArg (·.trailing.limit) (taken.body (by rw [refused]; simp))⟩
      simp [limitTaken?, refused]
    | none =>
      have unset : b.body.trailing.limit = .unset := by
        cases limit : b.body.trailing.limit <;> simp [refusal?, misuse?, limit] at refused ⊢
      obtain ⟨e, resolved⟩ : ∃ e, arg.resolve = .ok e := by
        refine exists_eq_ok ?_
        have accepted : errorOf? arg.resolve = none := by
          simpa [refusal?, misuse?, unset, Call.argumentError?] using refused
        rw [accepted]
        rfl
      refine .inr ⟨unset, arg, e, by simp [limitTaken?, refused], resolved, ?_⟩
      show (b.limit arg).body.trailing.limit = _
      simp only [Builder.limit, unset, resolved]
      rfl
  | _ => exact .inl ⟨rfl, (b.agrees_apply (by simp [Call.writes]) : b.Agrees _ .limit)⟩

theorem limit_step {s : Step} (step : b.step? s = some next) :
    LimitOf b.body.trailing.limit (b.limitTaken? s).toList next.body.trailing.limit := by
  rcases step?_cases step with ⟨c, rfl, rfl⟩ | ⟨other, same⟩
  · exact b.limit_apply c
  · have none : b.limitTaken? s = none := by
      cases s with
      | call c => exact absurd rfl (other c)
      | _ => rfl
    rw [none, same]
    exact .inl ⟨rfl, rfl⟩

/-- At most one limit on a path is not refused. -/
theorem limit_follow? (path : b.follow? steps = some next) :
    LimitOf b.body.trailing.limit (b.limitsTaken steps) next.body.trailing.limit := by
  induction steps generalizing b with
  | nil =>
    cases path
    exact .inl ⟨rfl, rfl⟩
  | cons s rest ih =>
    rw [follow?_cons] at path
    obtain ⟨mid, step, path⟩ := Option.bind_eq_some_iff.mp path
    have later := ih path
    rw [limitsTaken_cons step]
    rcases limit_step step with ⟨none, same⟩ | ⟨unset, arg, e, one, resolved, now⟩
    · rw [none, ← same]
      exact later
    · have set : mid.body.trailing.limit ≠ .unset := (limit_step step).set (by rw [one]; simp)
      obtain ⟨none, same⟩ := later.of_set set
      rw [one, none, same]
      exact .inr ⟨unset, arg, e, rfl, resolved, now⟩

/-- A limit is refused where there is one already. -/
theorem limit_of_set (set : b.body.trailing.limit ≠ .unset) (arg : LimitArg) :
    (b.apply (.limit arg)).error = b.error.or (some (.invalidState .limitRepeated)) ∧
      (b.apply (.limit arg)).body = b.body := by
  have refused : b.refusal? (.limit arg) = some (.invalidState .limitRepeated) := by
    cases limit : b.body.trailing.limit with
    | unset => exact absurd limit set
    | _ => simp [refusal?, misuse?, limit]
  have taken := b.taken_apply (.limit arg)
  rw [refused] at taken
  exact ⟨taken.error, taken.body (by simp)⟩

/-! ### The offset -/

/-- A call leaves the offset as it is, unless there is none, and a limit that has a value. -/
theorem offset_apply (b : Builder) (c : Call) :
    (b.apply c).body.trailing.offset = b.body.trailing.offset ∨
      b.body.trailing.offset = none ∧ b.body.trailing.limit.value?.isSome ∧
        (b.apply c).body.trailing.limit = b.body.trailing.limit := by
  cases c with
  | offset arg =>
    have same : (b.apply (.offset arg)).body.trailing.limit = b.body.trailing.limit :=
      (b.agrees_apply (by simp [Call.writes]) : b.Agrees _ .limit)
    rw [same]
    cases refused : b.refusal? (.offset arg) with
    | some e =>
      have taken := b.taken_apply (.offset arg)
      exact .inl (congrArg (·.trailing.offset) (taken.body (by rw [refused]; simp)))
    | none =>
      cases limit : b.body.trailing.limit with
      | value e =>
        cases offset : b.body.trailing.offset with
        | none => exact .inr ⟨rfl, rfl, rfl⟩
        | some o => simp [refusal?, misuse?, limit, offset] at refused
      | _ => simp [refusal?, misuse?, limit] at refused
  | _ => exact .inl (b.agrees_apply (by simp [Call.writes]) : b.Agrees _ .offset)

/-- An offset is there only with a limit that has a value. -/
theorem limited_follow? (start : b.body.trailing.offset.isSome → b.body.trailing.limit.value?.isSome)
    (path : b.follow? steps = some next) :
    next.body.trailing.offset.isSome → next.body.trailing.limit.value?.isSome := by
  refine kept_follow? (P := fun body => body.trailing.offset.isSome →
    body.trailing.limit.value?.isSome) (fun b c limited offset => ?_) start path
  rcases b.offset_apply c with same | ⟨_, value, same⟩
  · rw [same] at offset
    have value := limited offset
    -- A limit that has a value was set before, so the call did not change it.
    have set : b.body.trailing.limit ≠ .unset := by
      intro unset
      rw [unset] at value
      cases value
    rw [((b.limit_apply c).of_set set).2]
    exact value
  · rw [same]
    exact value

/-- An offset that is there is not replaced. -/
theorem offset_follow? (present : b.body.trailing.offset.isSome)
    (path : b.follow? steps = some next) :
    next.body.trailing.offset = b.body.trailing.offset := by
  refine kept_follow? (P := fun body => body.trailing.offset = b.body.trailing.offset)
    (fun mid c same => ?_) rfl path
  rcases mid.offset_apply c with kept | ⟨none, _⟩
  · rw [kept, same]
  · rw [same] at none
    rw [none] at present
    cases present

end Builder

/-- Along every path of builders from a new one, at most one limit is taken, and that is the limit
from then on; every later one is refused, through copies, set operators and reopened queries. An
offset is there only with a limit that has a value, and is not replaced. Both are written once,
behind all the blocks of the chain. -/
theorem limit_taken_once {before after : List Step} {b next : Builder}
    (past : ({} : Builder).follow? before = some b) (future : b.follow? after = some next) :
    Builder.LimitOf .unset (({} : Builder).limitsTaken (before ++ after))
      next.body.trailing.limit ∧
    (({} : Builder).limitsTaken before ≠ [] →
      next.body.trailing.limit = b.body.trailing.limit ∧
      ∀ arg, (next.apply (.limit arg)).error =
          next.error.or (some (.invalidState .limitRepeated)) ∧
        (next.apply (.limit arg)).body = next.body) ∧
    (next.body.trailing.offset.isSome → next.body.trailing.limit.value?.isSome) ∧
    (b.body.trailing.offset.isSome →
      next.body.trailing.offset = b.body.trailing.offset) ∧
    ∀ q, next.build = .ok q →
      q.pieces = next.body.chainPieces ++ next.body.trailing.pagingPieces ∧
      q.pieces.outerWords = (next.body.blocks.map fun _ => "SELECT ") ++
        (next.body.trailing.limit.value?.toList.map fun _ => " LIMIT ") ++
        (next.body.trailing.offset.toList.map fun _ => " OFFSET ") := by
  have path : ({} : Builder).follow? (before ++ after) = some next := by
    rw [Builder.follow?, List.foldlM_append]
    exact Option.bind_eq_some_iff.mpr ⟨b, past, future⟩
  have limited := Builder.limited_follow? (fun h => by cases h) path
  refine ⟨Builder.limit_follow? path, fun taken => ?_, limited,
    fun present => Builder.offset_follow? present future, fun q built => ?_⟩
  · have set := (Builder.limit_follow? past).set taken
    have same := ((Builder.limit_follow? future).of_set set).2
    exact ⟨same, Builder.limit_of_set (by rwa [same])⟩
  · obtain ⟨_, _, _, rfl⟩ := Builder.build_eq_ok.mp built
    rw [Query.pieces_mk]
    exact ⟨Body.pieces_eq limited, Body.outerWords_pieces limited⟩

/-- A limit set in the first of two blocks. -/
def limitedSteps : List Step :=
  [.call (.readFrom (.table "t")), .call (.limit (.integer 5)), .copy,
    .call (.compound .union), .call (.readFrom (.table "u"))]

/-- The query is reopened behind the second block. -/
def offsetSteps : List Step := [.build, .reopen, .call (.offset (.integer 2)), .copy]

theorem limit_taken_once_union : ∃ b next q, ({} : Builder).follow? limitedSteps = some b ∧
    b.follow? offsetSteps = some next ∧ next.build = .ok q ∧
    q.pieces.outerWords = ["SELECT ", "SELECT ", " LIMIT ", " OFFSET "] ∧
    (next.apply (.limit .absent)).error = some (.invalidState .limitRepeated) := by
  obtain ⟨b, past⟩ : ∃ b, ({} : Builder).follow? limitedSteps = some b := ⟨_, rfl⟩
  obtain ⟨next, future⟩ : ∃ next, b.follow? offsetSteps = some next := by
    cases past
    exact ⟨_, rfl⟩
  have taken : ({} : Builder).limitsTaken limitedSteps = [.integer 5] := rfl
  obtain ⟨_, later, _, _, written⟩ := limit_taken_once past future
  have refused := ((later (by rw [taken]; simp)).2 .absent).1
  cases past
  cases future
  exact ⟨_, _, _, rfl, rfl, rfl, (written _ rfl).2, refused⟩

end SqlSelect
