import SqlSelect.Proofs.Topics

/-! Calls with their refinements.

A run of calls falls into bundles (`bundlesOf`): each is a call with the refinements that apply to
what it made. Calls that leave that to be refined may stand between them, and so the refinements
are gathered behind their call. `run_bundlesOf` says that this makes no difference. The kind chosen
for a join is a bundle of its own, about joins as the join is, and so it stays in front of it.

The main statement, `run_bundle`, carries the locality of calls over to bundles: a bundle about a
topic comes to the same on what a builder holds on it. -/
namespace SqlSelect

/-- A call with its refinements. A call that leaves what is before it to be refined has none. -/
structure Bundle where
  head : Call
  refinements : List Call
  leads : head.refines = false
  refine : ∀ r ∈ refinements, r.refines = true
  alone : head.passes = true → refinements = []

namespace Bundle

def calls (u : Bundle) : List Call := u.head :: u.refinements

end Bundle

/-- The refinements in a run that are for what was made before it. -/
def waiting (calls : List Call) : List Call :=
  (calls.takeWhile fun c => c.refines || c.passes).filter Call.refines

theorem waiting_cons (c : Call) (rest : List Call) : waiting (c :: rest) =
    if c.refines then c :: waiting rest else if c.passes then waiting rest else [] := by
  cases refines : c.refines <;> cases passes : c.passes <;>
    simp [waiting, refines, passes]

theorem refines_of_waiting (calls : List Call) : ∀ r ∈ waiting calls, r.refines = true :=
  fun _ hr => (List.mem_filter.mp hr).2

/-- The refinements for a call that others follow. -/
def refinementsOf (c : Call) (rest : List Call) : List Call := if c.passes then [] else waiting rest

/-- The bundles of a run, in the order of their first calls. -/
def bundlesOf : List Call → List Bundle
  | [] => []
  | c :: rest =>
    if refines : c.refines = true then bundlesOf rest
    else
      { head := c
        refinements := refinementsOf c rest
        leads := Bool.eq_false_iff.mpr refines
        refine := fun r hr => by
          unfold refinementsOf at hr
          split at hr
          · cases hr
          · exact refines_of_waiting rest r hr
        alone := fun passes => if_pos passes } :: bundlesOf rest

namespace Builder
variable {b x next : Builder} {t : Topic} {c : Call}

/-- The builder after the calls of some bundles. -/
def runs (b : Builder) (bundles : List Bundle) : Builder := b.run (bundles.flatMap Bundle.calls)

theorem runs_cons (b : Builder) (u : Bundle) (rest : List Bundle) :
    b.runs (u :: rest) = (b.run u.calls).runs rest := run_append ..

/-! ### Gathering refinements -/

/-- A builder with another mark for `DISTINCT` and another kind for the next join. -/
def mark (b : Builder) (d : Bool → Bool) (k : Option JoinKind → Option JoinKind) : Builder :=
  { b.modifyBlock fun block => { block with distinct := d block.distinct } with
    pendingJoin := k b.pendingJoin }

theorem exists_mark (passes : c.passes = true) : ∃ d k, ∀ b : Builder, b.apply c = b.mark d k := by
  cases c with
  | distinct => exact ⟨fun _ => true, id, fun _ => rfl⟩
  | left => exact ⟨id, fun _ => some .left, fun _ => rfl⟩
  | cross => exact ⟨id, fun _ => some .cross, fun _ => rfl⟩
  | natural => exact ⟨id, fun _ => some .natural, fun _ => rfl⟩
  | _ => cases passes

theorem spares_mark (b : Builder) (d : Bool → Bool) (k : Option JoinKind → Option JoinKind) :
    Spares (mark · d k) b :=
  ⟨rfl, fun _ => rfl, fun _ _ => ⟨rfl, fun _ => rfl⟩, fun _ _ => rfl, fun _ _ => rfl,
    fun _ => ⟨rfl, fun _ => rfl⟩⟩

/-- A call that leaves what is before it to be refined may as well come behind the refinements. -/
theorem run_refinements_passing (b : Builder) (passes : c.passes = true) {rs : List Call}
    (refine : ∀ r ∈ rs, r.refines = true) : (b.apply c).run rs = (b.run rs).apply c := by
  obtain ⟨d, k, marks⟩ := exists_mark passes
  induction rs generalizing b with
  | nil => rfl
  | cons r rs ih =>
    obtain ⟨first, others⟩ := List.forall_mem_cons.mp refine
    have commutes : (b.apply c).apply r = (b.apply r).apply c := by
      rw [marks, marks]
      exact apply_spared (spares_mark b d k) first
    show ((b.apply c).apply r).run rs = ((b.apply r).run rs).apply c
    rw [commutes, ih _ others]

/-- A run is the run of its bundles, behind the refinements for what was made before it. -/
theorem run_bundlesOf (b : Builder) (calls : List Call) :
    b.run calls = (b.run (waiting calls)).runs (bundlesOf calls) := by
  induction calls generalizing b with
  | nil => rfl
  | cons c rest ih =>
    show (b.apply c).run rest = _
    rw [ih, waiting_cons, bundlesOf]
    by_cases refines : c.refines = true
    · rw [if_pos refines, dif_pos refines]
      rfl
    · rw [if_neg refines, dif_neg refines, runs_cons]
      by_cases passes : c.passes = true
      · rw [if_pos passes, run_refinements_passing b passes (refines_of_waiting rest)]
        simp only [Bundle.calls, refinementsOf, if_pos passes]
        rfl
      · rw [if_neg passes]
        simp only [Bundle.calls, refinementsOf, if_neg passes]
        rfl

/-! ### Errors -/

theorem error_of_run {calls : List Call} (clean : (b.run calls).error = none) : b.error = none := by
  rw [error_run, Option.or_eq_none_iff] at clean
  exact clean.1

theorem error_of_apply (clean : (b.apply c).error = none) : b.refusal? c = none := by
  rw [(b.taken_apply c).error, Option.or_eq_none_iff] at clean
  exact clean.2

/-- With nothing to refine, every refinement is refused. -/
theorem refusal?_of_idle (idle : b.cursor.topic? = none) (refines : c.refines = true) :
    b.refusal? c ≠ none := by
  have aside : b.misuse? c ≠ none → b.refusal? c ≠ none := by
    intro misused accepted
    rw [refusal?, Option.or_eq_none_iff, Option.map_eq_none_iff] at accepted
    exact misused accepted.1
  refine aside ?_
  cases cursor : b.cursor with
  | none | compound =>
    cases c with
    | direct d => cases d <;> simp [misuse?, misplaced?, orders, cursor]
    | aliasAs _ | qualify _ | aliasByName | on _ _ | sharedColumns _ | collate _ =>
      simp [misuse?, misplaced?, projects, orders, cursor]
    | _ => cases refines
  | _ =>
    rw [cursor] at idle
    cases idle

/-- Where nothing is refused and there is nothing to refine, there are no refinements. -/
theorem eq_nil_of_idle (idle : b.cursor.topic? = none) {rs : List Call}
    (refine : ∀ r ∈ rs, r.refines = true) (clean : (b.run rs).error = none) : rs = [] := by
  cases rs with
  | nil => rfl
  | cons r rs =>
    have later : ((b.apply r).run rs).error = none := clean
    exact absurd (error_of_apply (error_of_run later))
      (refusal?_of_idle idle (refine r List.mem_cons_self))

/-! ### Bundles about a topic -/

theorem cursorAfter_only (b : Builder) (topic : c.topic? = some t) :
    (b.only t).cursorAfter c = b.cursorAfter c := by
  cases c <;> cases topic <;> rfl

/-- What a call about a topic makes to be refined is on the topic. -/
theorem inside_of_cursorAfter (topic : c.topic? = some t) (cursor : x.cursor = b.cursorAfter c) :
    x.Inside t := by
  intro s refined
  rw [cursor] at refined
  cases c with
  | orderBy term =>
    cases topic
    rcases accepted : term.term with e | (_ | e) <;>
      simp [cursorAfter, accepted, Cursor.topic?] at refined
    exact refined.symm
  | allColumns | columns _ | expr _ | readFrom _ | join _ =>
    cases topic
    exact (Option.some.inj refined).symm
  | _ => cases topic <;> cases refined

/-- A call about a topic that is accepted sets the cursor, or it leaves what is before it to be
refined. -/
theorem setsCursor_of_accepted (topic : c.topic? = some t) (leads : c.passes = false)
    (accepted : b.refusal? c = none) : c.setsCursor = true := by
  have argument : c.argumentError? = none := (Option.or_eq_none_iff.mp accepted).2
  cases c with
  | expr _ | readFrom _ | join _ | orderBy _ => exact Option.isNone_iff_eq_none.mpr argument
  | distinct | left | cross | natural => cases leads
  | allColumns | columns _ | filter _ _ | groupBy _ | having _ _ | limit _ | offset _ => rfl
  | _ => cases topic

theorem eq_of_detached {b' : Builder} (same : b.detached = b'.detached)
    (cursor : b.cursor = b'.cursor) : b = b' := by
  have all : { b.detached with cursor := b.cursor } = { b'.detached with cursor := b'.cursor } := by
    rw [same, cursor]
  exact all

/-- An accepted call about a topic also leaves the same to be refined. -/
theorem apply_eq_taking (topic : c.topic? = some t) (leads : c.passes = false)
    (accepted : (b.apply c).error = none) :
    ((b.only t).apply c).Inside t ∧ b.apply c = b.taking ((b.only t).apply c) t := by
  have sets := setsCursor_of_accepted topic leads (error_of_apply accepted)
  have cursor := cursor_apply b sets
  have cursor' := cursor_apply (b.only t) sets
  refine ⟨inside_of_cursorAfter topic cursor', eq_of_detached (apply_topic b topic) ?_⟩
  rw [cursor, ← cursorAfter_only b topic]
  exact cursor'.symm

theorem run_refinements {rs : List Call} (refine : ∀ r ∈ rs, r.refines = true) (h : x.Inside t) :
    (b.taking x t).run rs = b.taking (x.run rs) t := by
  induction rs generalizing x with
  | nil => rfl
  | cons r rs ih =>
    obtain ⟨first, others⟩ := List.forall_mem_cons.mp refine
    have kept : (x.apply r).cursor = x.cursor :=
      (kept_apply x (Call.setsCursor_of_refines first)).cursor
    show ((b.taking x t).apply r).run rs = b.taking ((x.apply r).run rs) t
    rw [apply_refinement b h first]
    refine ih others ?_
    unfold Inside
    rwa [kept]

theorem TakesOver.error (h : b.TakesOver t x next) : next.error = b.error.or x.error :=
  congrArg Builder.error h

/-- A bundle about a topic is accepted, and comes to the same, on what the builder holds on it. -/
theorem run_bundle {u : Bundle} (topic : u.head.topic? = some t) (clean : b.error = none) :
    ((b.run u.calls).error = none ↔ ((b.only t).run u.calls).error = none) ∧
      ((b.run u.calls).error = none → b.TakesOver t ((b.only t).run u.calls) (b.run u.calls)) := by
  have head : b.TakesOver t ((b.only t).apply u.head) (b.apply u.head) := apply_topic b topic
  have errors := head.error
  rw [clean, Option.none_or] at errors
  show (((b.apply u.head).run u.refinements).error = none ↔
      (((b.only t).apply u.head).run u.refinements).error = none) ∧
    (((b.apply u.head).run u.refinements).error = none →
      b.TakesOver t (((b.only t).apply u.head).run u.refinements)
        ((b.apply u.head).run u.refinements))
  by_cases passes : u.head.passes = true
  · rw [u.alone passes]
    exact ⟨by rw [run, run, List.foldl_nil, List.foldl_nil, errors], fun _ => head⟩
  · by_cases accepted : (b.apply u.head).error = none
    · obtain ⟨inside, same⟩ := apply_eq_taking topic (Bool.eq_false_iff.mpr passes) accepted
      have takes : b.TakesOver t (((b.only t).apply u.head).run u.refinements)
          ((b.apply u.head).run u.refinements) := by
        rw [same, run_refinements u.refine inside]
        rfl
      have errors' := takes.error
      rw [clean, Option.none_or] at errors'
      exact ⟨by rw [errors'], fun _ => takes⟩
    · have refused : ¬ ((b.apply u.head).run u.refinements).error = none :=
        fun none => accepted (error_of_run none)
      have refused' : ¬ (((b.only t).apply u.head).run u.refinements).error = none :=
        fun none => accepted (errors.trans (error_of_run none))
      exact ⟨iff_of_false refused refused', fun none => absurd none refused⟩

end Builder

end SqlSelect
