import SqlSelect.Proofs.Cursor
import SqlSelect.Proofs.Parts

/-! `DISTINCT`, and the operators between blocks.

The two calls that speak of `DISTINCT` say whether there is to be one, and the latest one decides
(`latestMark`). The exception is an `all` behind a `UNION`: it turns that into a `UNION ALL` and
says nothing of the new block. Which calls may stand between the two is a parameter here
(`turning?`), so that what a run comes to can be said for any choice of them
(`Builder.Distinguishes`).

The main statement, `run_distinguishes`, has the calls that leave the cursor alone for it. With none
at all, so that only an `all` directly behind the `UNION` would turn it, the same statement is false
(`not_only_direct_all`): a `DISTINCT` asked for in between is not taken back. -/
namespace SqlSelect

/-! ### What calls say -/

/-- Whether there is to be a `DISTINCT`, if a call says so. -/
def Call.mark? : Call → Option Bool
  | .distinct => some true
  | .all => some false
  | _ => none

/-- What the latest of the calls says that does say something. -/
def latestMark (calls : List Call) (old : Bool) : Bool :=
  (calls.filterMap Call.mark?).getLast?.getD old

theorem latestMark_cons (c : Call) (rest : List Call) (old : Bool) :
    latestMark (c :: rest) old = latestMark rest (c.mark?.getD old) := by
  cases said : c.mark? with
  | none => simp only [latestMark, List.filterMap_cons, said, Option.getD_none]
  | some mark =>
    simp only [latestMark, List.filterMap_cons, said, List.getLast?_cons, Option.getD_some]

/-- The calls behind a `UNION` without the `all` that turns it, if one does: the first, with only
calls before it that keep it close. -/
def turning? (keeps : Call → Bool) : List Call → Option (List Call)
  | [] => none
  | .all :: rest => some rest
  | c :: rest => if keeps c then (turning? keeps rest).map (c :: ·) else none

/-- What a set operator comes to be by the calls behind it, and those that speak of its block. -/
def settle (keeps : Call → Bool) (op : SetOp) (since : List Call) : SetOp × List Call :=
  match op, turning? keeps since with
  | .union, some rest => (.unionAll, rest)
  | op, _ => (op, since)

theorem turning?_cons {keeps : Call → Bool} {c : Call} (other : c ≠ .all) (rest : List Call) :
    turning? keeps (c :: rest) =
      if keeps c then (turning? keeps rest).map (c :: ·) else none := by
  cases c with
  | all => exact absurd rfl other
  | _ => rfl

/-- A call that keeps an `all` close to the operator changes nothing for it. -/
theorem settle_cons_keeps {keeps : Call → Bool} {c : Call} (other : c ≠ .all)
    (close : keeps c = true) (op : SetOp) (rest : List Call) : settle keeps op (c :: rest) =
      ((settle keeps op rest).1, c :: (settle keeps op rest).2) := by
  unfold settle
  rw [turning?_cons other, if_pos close]
  cases op <;> cases turning? keeps rest <;> rfl

/-- Any other call settles the operator as it is. -/
theorem settle_cons_settles {keeps : Call → Bool} {c : Call} (other : c ≠ .all)
    (close : keeps c = false) (op : SetOp) (rest : List Call) :
    settle keeps op (c :: rest) = (op, c :: rest) := by
  unfold settle
  rw [turning?_cons other, close]
  cases op <;> rfl

theorem settle_other (keeps : Call → Bool) {op : SetOp} (other : op ≠ .union)
    (since : List Call) : settle keeps op since = (op, since) := by
  cases op with
  | union => exact absurd rfl other
  | _ => rfl

/-- What a run comes to: the latest call decides on the `DISTINCT` of the open block, and apart from
a `UNION` that is turned every operator stays what it was. -/
structure Builder.Distinguishes (keeps : Call → Bool) (start : Builder) (calls : List Call) :
    Prop where
  /-- As long as there is no new block. -/
  same : (∀ op, .compound op ∉ calls) →
    (start.run calls).body.earlier = start.body.earlier ∧
      (start.run calls).body.current.distinct = latestMark calls start.body.current.distinct
  /-- By the calls since the last operator. -/
  opened : ∀ before op since, calls = before ++ .compound op :: since →
    (∀ op, .compound op ∉ since) →
    (start.run calls).body.earlier = (start.run before).body.earlier ++
        [⟨(start.run before).body.current, (settle keeps op since).1⟩] ∧
      (start.run calls).body.current.distinct = latestMark (settle keeps op since).2 false

namespace Builder
variable {b next : Builder}

/-! ### One call -/

/-- The closed blocks with their operators are as they were, and so is the `DISTINCT` unless a call
spoke of it. -/
structure Marked (b : Builder) (mark : Option Bool) (next : Builder) : Prop where
  earlier : next.body.earlier = b.body.earlier
  distinct : next.body.current.distinct = mark.getD b.body.current.distinct

/-- The next `all` turns a `UNION`. -/
def Turns (b : Builder) : Prop :=
  b.cursor = .compound ∧ ∃ link, b.body.earlier.getLast? = some link ∧ link.op = .union

theorem marked_all (settled : ¬ b.Turns) : b.Marked (some false) b.all := by
  unfold all
  split
  case h_1 cursor last => exact absurd ⟨cursor, _, last, rfl⟩ settled
  case h_2 => exact ⟨rfl, rfl⟩

/-- Apart from an `all` that turns a `UNION`, a call in a block does what it says. -/
theorem marked_apply {c : Call} (inside : ∀ op, c ≠ .compound op) (settled : c = .all → ¬ b.Turns) :
    b.Marked c.mark? (b.apply c) := by
  have others : .closed ∉ c.writes → .distinct ∉ c.writes → b.Marked none (b.apply c) :=
    fun closed distinct => ⟨agrees_apply b closed, agrees_apply b distinct⟩
  cases c with
  | distinct => exact ⟨rfl, rfl⟩
  | all => exact marked_all (settled rfl)
  | compound op => exact absurd rfl (inside op)
  | _ => exact others (by simp [Call.writes]) (by simp [Call.writes])

/-- Only an operator sets the cursor to an operator. -/
theorem cursor_apply_ne {c : Call} (sets : c.setsCursor = true) (inside : ∀ op, c ≠ .compound op) :
    (b.apply c).cursor ≠ .compound := by
  rw [cursor_apply b sets]
  intro same
  cases c with
  | compound op => exact inside op rfl
  | orderBy t =>
    rcases accepted : t.term with e | (_ | e) <;> simp [cursorAfter, accepted] at same
  | _ => cases same

theorem not_turns_apply {c : Call} (inside : ∀ op, c ≠ .compound op) (settled : ¬ b.Turns) :
    ¬ (b.apply c).Turns := by
  rintro ⟨cursor, link, last, union⟩
  cases sets : c.setsCursor with
  | true => exact cursor_apply_ne sets inside cursor
  | false =>
    rw [(kept_apply b sets).cursor] at cursor
    rw [(marked_apply inside fun _ => settled).earlier] at last
    exact settled ⟨cursor, link, last, union⟩

/-! ### Every run of calls -/

theorem inside_cons {c : Call} {rest : List Call} (inside : ∀ op, .compound op ∉ c :: rest) :
    (∀ op, c ≠ .compound op) ∧ ∀ op, .compound op ∉ rest :=
  ⟨fun op same => inside op (List.mem_cons.mpr (.inl same.symm)),
    fun op later => inside op (List.mem_cons_of_mem c later)⟩

/-- In a block where there is nothing to turn the latest call decides. -/
theorem marked_run {calls : List Call} (inside : ∀ op, .compound op ∉ calls)
    (settled : ¬ b.Turns) :
    (b.run calls).body.earlier = b.body.earlier ∧
      (b.run calls).body.current.distinct = latestMark calls b.body.current.distinct := by
  induction calls generalizing b with
  | nil => exact ⟨rfl, rfl⟩
  | cons c rest ih =>
    obtain ⟨here, later⟩ := inside_cons inside
    have marked := marked_apply here fun _ => settled
    obtain ⟨earlier, distinct⟩ := ih later (not_turns_apply here settled)
    rw [marked.earlier] at earlier
    rw [marked.distinct, ← latestMark_cons] at distinct
    exact ⟨earlier, distinct⟩

theorem not_turns_of_last {links : List (Link Query)} {link : Link Query}
    (last : b.body.earlier = links ++ [link]) (other : link.op ≠ .union) : ¬ b.Turns := by
  rintro ⟨_, _, there, union⟩
  rw [last, List.getLast?_concat] at there
  cases there
  exact other union

theorem all_of_turns {links : List (Link Query)} {block : Block Query}
    (cursor : b.cursor = .compound) (last : b.body.earlier = links ++ [⟨block, .union⟩]) :
    b.all = { b with body := { b.body with earlier := links ++ [⟨block, .unionAll⟩] } } := by
  unfold all
  rw [cursor, last, List.getLast?_concat, modifyLast_concat]

/-- Behind a `UNION` the first `all` turns it, if the calls before leave the cursor alone. -/
theorem marked_run_union {calls : List Call} (inside : ∀ op, .compound op ∉ calls)
    (cursor : b.cursor = .compound) {links : List (Link Query)} {block : Block Query}
    (last : b.body.earlier = links ++ [⟨block, .union⟩]) :
    (b.run calls).body.earlier =
        links ++ [⟨block, (settle (fun c => !c.setsCursor) .union calls).1⟩] ∧
      (b.run calls).body.current.distinct =
        latestMark (settle (fun c => !c.setsCursor) .union calls).2 b.body.current.distinct := by
  induction calls generalizing b with
  | nil => exact ⟨last, rfl⟩
  | cons c rest ih =>
    obtain ⟨here, later⟩ := inside_cons inside
    show ((b.apply c).run rest).body.earlier = _ ∧ ((b.apply c).run rest).body.current.distinct = _
    by_cases turned : c = .all
    · subst turned
      have turns : b.apply .all = _ := all_of_turns cursor last
      rw [turns]
      exact marked_run later (not_turns_of_last rfl (by nofun))
    · have marked : b.Marked c.mark? (b.apply c) :=
        marked_apply here fun same => absurd same turned
      cases sets : c.setsCursor with
      | true =>
        have settled : ¬ (b.apply c).Turns := fun turns => cursor_apply_ne sets here turns.1
        obtain ⟨earlier, distinct⟩ := marked_run later settled
        rw [settle_cons_settles turned (by rw [sets]; rfl), earlier, distinct, latestMark_cons,
          marked.earlier, marked.distinct]
        exact ⟨last, rfl⟩
      | false =>
        have cursor' : (b.apply c).cursor = .compound := by rw [(kept_apply b sets).cursor, cursor]
        obtain ⟨earlier, distinct⟩ := ih later cursor' (by rw [marked.earlier, last])
        rw [settle_cons_keeps turned (by rw [sets]; rfl), earlier, distinct, latestMark_cons,
          marked.distinct]
        exact ⟨rfl, rfl⟩

end Builder

/-- The latest call to speak of `DISTINCT` decides on it in its block, and no call but an `all`
changes an operator: the first one behind a `UNION` does, as long as all calls between the two leave
the cursor alone. -/
theorem run_distinguishes {start : Builder} (settled : start.cursor ≠ .compound)
    (calls : List Call) : start.Distinguishes (fun c => !c.setsCursor) calls := by
  constructor
  · intro inside
    exact Builder.marked_run inside fun turns => settled turns.1
  · rintro before op since rfl inside
    rw [Builder.run_append]
    show ((((start.run before).compound op).run since).body.earlier = _) ∧ _
    by_cases union : op = .union
    · subst union
      exact Builder.marked_run_union inside rfl rfl
    · rw [settle_other _ union]
      exact Builder.marked_run inside (Builder.not_turns_of_last rfl union)

/-- Two blocks with a `UNION` between them; the second is to be without `DISTINCT` after all. -/
def takenBackCalls : List Call :=
  [.readFrom (.table "a"), .compound .union, .distinct, .all, .readFrom (.table "b")]

theorem run_distinguishes_takenBack :
    (Builder.run {} takenBackCalls).body.earlier.map Link.op = [.unionAll] ∧
      (Builder.run {} takenBackCalls).body.current.distinct = true := by
  have settled : ({} : Builder).cursor ≠ .compound := nofun
  obtain ⟨_, opened⟩ := run_distinguishes settled takenBackCalls
  obtain ⟨earlier, distinct⟩ := opened [.readFrom (.table "a")] .union
    [.distinct, .all, .readFrom (.table "b")] rfl (by simp)
  exact ⟨by rw [earlier]; rfl, distinct⟩

/-- If only an `all` directly behind the operator were to turn a `UNION`, this `all` would have taken
the `DISTINCT` back. -/
theorem not_only_direct_all :
    ¬ ∀ calls, Builder.Distinguishes (fun _ => false) {} calls := by
  intro direct
  have distinct := ((direct takenBackCalls).opened [.readFrom (.table "a")] .union
    [.distinct, .all, .readFrom (.table "b")] rfl (by simp)).2
  cases distinct

end SqlSelect
