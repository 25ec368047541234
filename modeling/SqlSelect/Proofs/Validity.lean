import Mathlib.Data.List.DropRight
import SqlSelect.Proofs.Account
import SqlSelect.Proofs.Growth
import SqlSelect.Proofs.Parts
import SqlSelect.Proofs.Refinement

/-! Built queries are well-formed, at every depth.

What a block must have is said clause by clause (`Block.WellFormed`), and that is what building
checks (`Block.fault?_eq_none`). It is checked for the blocks of one query. That it holds of all the
queries inside of it as well takes that what a call attaches was itself built
(`Grown.attached_built`); then it goes down any number of levels (`Query.Built.inside`).

Of the three rules one is never left to the check: in every body that calls can grow, built or not,
predicates on groups stand only where there are groups (`grouped_apply`), as they are refused
anywhere else. The main statement is `built_queries_are_well_formed`. -/
namespace SqlSelect
variable {κ : Type}

/-! ### Well-formed blocks -/

/-- Predicates on groups have groups, joins have a source to join to, and a block that reads from
nothing says what it projects, without any `*`. -/
structure Block.WellFormed (b : Block κ) : Prop where
  grouped : b.having ≠ [] → b.groupBy ≠ []
  joined : b.joins ≠ [] → b.source ≠ none
  projected : b.source = none → b.projection ≠ [] ∧ ∀ table, .allColumns table ∉ b.projection

theorem Block.projectsExplicitly_iff {b : Block κ} : b.projectsExplicitly = true ↔
    b.projection ≠ [] ∧ ∀ table, .allColumns table ∉ b.projection := by
  have explicit : ∀ i : Item κ, i.isExplicit = true ↔ ∀ table, i ≠ .allColumns table := by
    intro i
    cases i <;> simp [Item.isExplicit]
  simp only [projectsExplicitly, Bool.and_eq_true, Bool.not_eq_true', List.isEmpty_eq_false_iff,
    List.all_eq_true, explicit]
  refine and_congr_right fun _ => ⟨fun h table there => h _ there table rfl, ?_⟩
  rintro h i hi table rfl
  exact h table hi

/-- A block is without fault just when it is well-formed. -/
theorem Block.fault?_eq_none {b : Block κ} : b.fault? = none ↔ b.WellFormed := by
  have wellFormed : b.WellFormed ↔ (b.having ≠ [] → b.groupBy ≠ []) ∧
      (b.joins ≠ [] → b.source ≠ none) ∧ (b.source = none → b.projectsExplicitly = true) := by
    rw [projectsExplicitly_iff]
    exact ⟨fun ⟨grouped, joined, projected⟩ => ⟨grouped, joined, projected⟩,
      fun ⟨grouped, joined, projected⟩ => ⟨grouped, joined, projected⟩⟩
  rw [wellFormed, fault?]
  by_cases grouped : (!b.having.isEmpty && b.groupBy.isEmpty) = true
  · rw [if_pos grouped]
    simp only [Bool.and_eq_true, Bool.not_eq_true', List.isEmpty_eq_false_iff,
      List.isEmpty_iff] at grouped
    simp [grouped.1, grouped.2]
  · rw [if_neg grouped]
    have filtered : b.having ≠ [] → b.groupBy ≠ [] := by simpa using grouped
    cases source : b.source with
    | some s => simpa using filtered
    | none =>
      by_cases joins : b.joins = []
      · simpa [joins] using fun _ => filtered
      · simp [joins]

theorem Block.fault?_ne_of_grouped {b : Block κ} (grouped : b.having ≠ [] → b.groupBy ≠ []) :
    b.fault? ≠ some .havingWithoutGroupBy := by
  have groups : ¬ (!b.having.isEmpty && b.groupBy.isEmpty) = true := by simpa using grouped
  rw [fault?, if_neg groups]
  split_ifs <;> simp

theorem Body.fault?_eq_none {b : Body κ} :
    b.fault? = none ↔ ∀ block ∈ b.blocks, block.WellFormed := by
  rw [fault?, List.findSome?_eq_none_iff]
  exact forall₂_congr fun block _ => Block.fault?_eq_none

/-! ### Queries inside of queries -/

/-- A query is inside of another one if it is that query, or is embedded in one inside of it. -/
inductive Query.Inside (outer : Query) : Query → Prop where
  | self : Inside outer outer
  | embedded {q inner} : Inside outer q → inner ∈ q.body.queries → Inside outer inner

section Attached
variable {Q : κ → Prop}

theorem Source.Attached.queries {s : Source κ} (h : s.Attached Q) : ∀ q ∈ s.queries, Q q := by
  cases s with
  | table name => exact List.forall_mem_nil _
  | subquery q => exact List.forall_mem_singleton.mpr h

theorem Block.Attached.queries {b : Block κ} (h : b.Attached Q) : ∀ q ∈ b.queries, Q q := by
  have exprs : ∀ es : List (Expr κ), (∀ e ∈ es, e.Attached Q) →
      ∀ q ∈ es.flatMap Expr.queries, Q q :=
    fun es attached => List.forall_mem_flatMap.mpr fun e he => (attached e he).queries
  simp only [Block.queries, List.forall_mem_append]
  refine ⟨⟨⟨⟨⟨?_, ?_⟩, ?_⟩, exprs _ h.selection⟩, exprs _ h.groupBy⟩, exprs _ h.having⟩
  · refine List.forall_mem_flatMap.mpr fun i hi => ?_
    cases i with
    | allColumns table => exact List.forall_mem_nil _
    | expr e aliasName => exact (h.projection e aliasName hi).queries
  · refine List.forall_mem_flatMap.mpr fun c hc => ?_
    exact (h.source c (Option.mem_toList.mp hc)).queries
  · refine List.forall_mem_flatMap.mpr fun j hj => ?_
    refine List.forall_mem_append.mpr ⟨(h.targets j hj).queries, ?_⟩
    refine List.forall_mem_flatMap.mpr fun c hc => ?_
    cases c with
    | on e => exact (h.constraints j hj e (Option.mem_toList.mp hc)).queries
    | sharedColumns names => exact List.forall_mem_nil _

theorem Trailing.Attached.queries {t : Trailing κ} (h : t.Attached Q) : ∀ q ∈ t.queries, Q q := by
  simp only [Trailing.queries, List.forall_mem_append]
  refine ⟨⟨?_, ?_⟩, ?_⟩
  · exact List.forall_mem_flatMap.mpr fun term hterm => (h.orderBy term hterm).queries
  · cases limit : t.limit with
    | value e => exact (h.limit e limit).queries
    | _ => exact List.forall_mem_nil _
  · exact List.forall_mem_flatMap.mpr fun e he => (h.offset e (Option.mem_toList.mp he)).queries

/-- What is embedded in attached parts is as `Q` says. -/
theorem Body.Attached.queries {b : Body κ} (h : b.Attached Q) : ∀ q ∈ b.queries, Q q :=
  List.forall_mem_append.mpr
    ⟨List.forall_mem_flatMap.mpr fun block hblock => (h.blocks block hblock).queries,
      h.trailing.queries⟩

end Attached

/-- Every query that is attached to what was grown was built. -/
theorem Grown.attached_built {calls : List Call} {b : Builder} (h : Grown calls b) :
    b.body.Attached Query.Built := by
  refine h.along (P := fun _ b => b.body.Attached Query.Built) Builder.attached_empty ?_ ?_
  · intro calls b q _ attached built
    obtain ⟨_, _, _, rfl⟩ := Builder.build_eq_ok.mp built
    exact attached
  · intro calls b c _ attached queries builders
    exact Builder.attached_apply attached queries fun b' hb' q built =>
      .build (builders b' hb') built

/-- All queries inside of a built one were built. -/
theorem Query.Built.inside {q inner : Query} (h : q.Built) (there : q.Inside inner) :
    inner.Built := by
  induction there with
  | self => exact h
  | embedded _ embedded ih =>
    obtain ⟨_, _, grown, rfl⟩ := ih.grown
    exact grown.attached_built.queries _ embedded

theorem Query.Built.wellFormed {q : Query} (h : q.Built) :
    ∀ block ∈ q.body.blocks, block.WellFormed := by
  obtain ⟨_, built⟩ := h
  obtain ⟨_, _, faultless, rfl⟩ := Builder.build_eq_ok.mp built
  exact Body.fault?_eq_none.mp faultless

/-! ### Groups and predicates on them -/

/-- Predicates on groups stand only in blocks that have groups. -/
def Body.Grouped (b : Body κ) : Prop := ∀ block ∈ b.blocks, block.having ≠ [] → block.groupBy ≠ []

/-- Whether the call groups by anything: a term that is absent or refused does not. -/
def Call.groups : Call → Bool
  | .groupBy t =>
    match t.term with
    | .ok (some _) => true
    | _ => false
  | _ => false

/-- The calls since the last set operator, which are those for the open block. -/
def sinceOperator (calls : List Call) : List Call := calls.rtakeWhile fun c => !c.opensBlock

theorem sinceOperator_concat (calls : List Call) (c : Call) : sinceOperator (calls ++ [c]) =
    if c.opensBlock then [] else sinceOperator calls ++ [c] := by
  rw [sinceOperator, List.rtakeWhile_concat]
  cases c.opensBlock <;> rfl

theorem Body.Grouped.current {b : Body κ} (h : b.Grouped) :
    b.current.having ≠ [] → b.current.groupBy ≠ [] :=
  h _ (List.mem_append_right _ List.mem_cons_self)

theorem Body.Grouped.of_blocks {b next : Body κ} (h : b.Grouped)
    (closed : next.earlier.map Link.block = b.earlier.map Link.block)
    (current : next.current.having ≠ [] → next.current.groupBy ≠ []) : next.Grouped := by
  simp only [Grouped, blocks, List.forall_mem_append, closed] at h ⊢
  exact ⟨h.1, List.forall_mem_singleton.mpr current⟩

namespace Builder
variable {b next : Builder}

/-- Nothing changes about it while groups and predicates stay what they were. -/
theorem grouped_of_agrees (h : b.body.Grouped)
    (closed : next.body.earlier.map Link.block = b.body.earlier.map Link.block)
    (groupBy : b.Agrees next .groupBy) (having : b.Agrees next .having) : next.body.Grouped := by
  refine h.of_blocks closed fun filtered => ?_
  have groups : next.body.current.groupBy = b.body.current.groupBy := groupBy
  have predicates : next.body.current.having = b.body.current.having := having
  rw [groups]
  exact h.current (predicates ▸ filtered)

theorem grouped_groupBy (h : b.body.Grouped) (t : Clause) : (b.groupBy t).body.Grouped := by
  unfold groupBy
  rcases t.term with e | e
  · exact h
  · refine h.of_blocks rfl fun filtered => ?_
    exact List.append_ne_nil_of_left_ne_nil (h.current filtered) _

theorem grouped_having (h : b.body.Grouped) (p : Clause) (given : List Param) :
    (b.having p given).body.Grouped := by
  unfold having
  rcases p.predicate given with e | (_ | e)
  · exact h
  · exact h
  · simp only [Except.bind]
    by_cases ungrouped : b.body.current.groupBy.isEmpty = true
    · rw [if_pos ungrouped]
      exact h
    · rw [if_neg ungrouped]
      exact h.of_blocks rfl fun _ => mt List.isEmpty_iff.mpr ungrouped

theorem grouped_compound (h : b.body.Grouped) (op : SetOp) : (b.compound op).body.Grouped := by
  have blocks : (b.compound op).body.blocks = b.body.blocks ++ [({} : Block Query)] := by
    simp only [compound, Body.blocks, List.map_append, List.map_cons, List.map_nil]
  rw [Body.Grouped, blocks]
  exact List.forall_mem_append.mpr ⟨h, List.forall_mem_singleton.mpr fun none => absurd rfl none⟩

/-- No call puts a predicate on groups into a block without groups. -/
theorem grouped_apply (h : b.body.Grouped) (c : Call) : (b.apply c).body.Grouped := by
  have others : (∀ op, c ≠ .compound op) → .groupBy ∉ c.writes → .having ∉ c.writes →
      (b.apply c).body.Grouped := fun inside groupBy having =>
    grouped_of_agrees h (closed_apply b inside) (agrees_apply b groupBy) (agrees_apply b having)
  cases c with
  | groupBy t => exact grouped_groupBy h t
  | having p given => exact grouped_having h p given
  | compound op => exact grouped_compound h op
  | _ => exact others (by simp) (by simp [Call.writes]) (by simp [Call.writes])

/-- Only a call that groups brings groups into the open block. -/
theorem groupBy_apply {c : Call} (h : b.body.current.groupBy = []) (idle : c.groups = false) :
    (b.apply c).body.current.groupBy = [] := by
  have others : .groupBy ∉ c.writes → (b.apply c).body.current.groupBy = [] := fun unwritten =>
    (agrees_apply b unwritten : b.Agrees (b.apply c) .groupBy).trans h
  cases c with
  | groupBy t =>
    simp only [apply, groupBy]
    rcases accepted : t.term with e | (_ | e)
    · exact h
    · exact (List.append_nil _).trans h
    · simp [Call.groups, accepted] at idle
  | compound op => rfl
  | _ => exact others (by simp [Call.writes])

/-- Where there are no groups, a predicate on them is refused, whatever else is wrong with it. -/
theorem refusal?_having {p : Clause} {given : List Param} (present : p.present = true)
    (ungrouped : b.body.current.groupBy = []) : b.refusal? (.having p given) ≠ none := by
  intro accepted
  obtain ⟨misuse, argument⟩ := refusal?_eq_none.mp accepted
  obtain ⟨e, predicate⟩ : ∃ e, p.predicate given = .ok e :=
    exists_eq_ok (Option.isNone_iff_eq_none.mpr argument)
  obtain ⟨e, rfl⟩ := Clause.predicate_present present predicate
  simp [misuse?, predicate, ungrouped] at misuse

end Builder

/-! ### What was grown -/

theorem Grown.grouped {calls : List Call} {b : Builder} (h : Grown calls b) : b.body.Grouped := by
  refine h.along (P := fun _ b => b.body.Grouped) ?_ ?_ ?_
  · exact List.forall_mem_singleton.mpr fun none => absurd rfl none
  · intro calls b q _ grouped built
    obtain ⟨_, _, _, rfl⟩ := Builder.build_eq_ok.mp built
    exact grouped
  · exact fun _ _ c _ grouped _ _ => Builder.grouped_apply grouped c

/-- As long as no call groups in it, the open block has no groups. -/
theorem Grown.ungrouped {calls : List Call} {b : Builder} (h : Grown calls b) :
    (∀ c ∈ sinceOperator calls, c.groups = false) → b.body.current.groupBy = [] := by
  refine h.along (P := fun calls b => (∀ c ∈ sinceOperator calls, c.groups = false) →
    b.body.current.groupBy = []) ?_ ?_ ?_
  · exact fun _ => rfl
  · intro calls b q _ ungrouped built idle
    obtain ⟨_, _, _, rfl⟩ := Builder.build_eq_ok.mp built
    exact ungrouped idle
  · intro calls b c _ ungrouped _ _ idle
    rw [sinceOperator_concat] at idle
    cases opens : c.opensBlock with
    | true =>
      obtain ⟨op, rfl⟩ := Call.exists_of_opensBlock opens
      rfl
    | false =>
      rw [opens] at idle
      obtain ⟨before, last⟩ := List.forall_mem_append.mp idle
      exact Builder.groupBy_apply (ungrouped before) (last c List.mem_cons_self)

/-- A call that is refused wherever the calls before it lead leaves an error for good. -/
theorem Grown.error_of_refused {calls : List Call} {b : Builder} (h : Grown calls b)
    {before : List Call} {c : Call} (refused : ∀ b, Grown before b → b.refusal? c ≠ none) :
    ∀ after, calls = before ++ c :: after → b.error ≠ none := by
  refine h.along (P := fun calls b => ∀ after, calls = before ++ c :: after → b.error ≠ none)
    ?_ ?_ ?_
  · exact fun after split => by simp at split
  · intro calls b q _ error built after split
    exact absurd (Builder.build_eq_ok.mp built).1 (error after split)
  · intro calls b d grown error _ _ after split
    have recorded : (b.apply d).error = b.error.or (b.refusal? d) := (b.taken_apply d).error
    rw [recorded, ne_eq, Option.or_eq_none_iff, not_and_or]
    rcases List.eq_nil_or_concat after with rfl | ⟨between, last, rfl⟩
    · obtain ⟨rfl, same⟩ := List.append_inj' split rfl
      cases same
      exact .inr (refused b grown)
    · refine .inl (error between ?_)
      rw [List.concat_eq_append, ← List.cons_append, ← List.append_assoc] at split
      exact List.append_inj_left' split rfl

/-- A query that was built is well-formed in every block, and so is every query inside of it. In
whatever calls grow, built or not, predicates on groups stand only in blocks with groups, so that no
block has that fault; and such a predicate, asked for before anything is grouped by in its block,
makes building fail from then on. -/
theorem built_queries_are_well_formed {calls : List Call} {b : Builder} (grown : Grown calls b) :
    (∀ q, b.build = .ok q → ∀ inner, q.Inside inner →
      ∀ block ∈ inner.body.blocks, block.WellFormed) ∧
    (∀ block ∈ b.body.blocks, (block.having ≠ [] → block.groupBy ≠ []) ∧
      block.fault? ≠ some .havingWithoutGroupBy) ∧
    (∀ before p given after, calls = before ++ .having p given :: after → p.present = true →
      (∀ c ∈ sinceOperator before, c.groups = false) → ∃ e, b.build = .error e) := by
  refine ⟨fun q built inner inside => ?_, fun block hblock => ?_,
    fun before p given after split present idle => ?_⟩
  · have reached : q.Built := .build (.grown grown) built
    exact (reached.inside inside).wellFormed
  · have grouped := grown.grouped block hblock
    exact ⟨grouped, Block.fault?_ne_of_grouped grouped⟩
  · have refused : ∀ b, Grown before b → b.refusal? (.having p given) ≠ none :=
      fun b reached => Builder.refusal?_having present (reached.ungrouped idle)
    obtain ⟨e, error⟩ := Option.ne_none_iff_exists'.mp (grown.error_of_refused refused after split)
    exact ⟨e, Builder.build_of_error error⟩

/-- Groups with a predicate on them, in a query that is left for the one around it to build. -/
def groupedCalls : List Call :=
  [.readFrom (.table "t"), .groupBy (.text "k"), .having (.text "count(*) > 1") []]

def groupedSourceCalls : List Call := [.readFrom (.builder (Builder.run {} groupedCalls))]

/-- The groups of the first block do not count for the second, and a blank term is none. -/
def ungroupedCalls : List Call :=
  groupedCalls ++ [.compound .union, .readFrom (.table "u"), .groupBy (.text " "),
    .having (.text "count(*) > 1") [], .groupBy (.text "k")]

theorem built_queries_are_well_formed_grouped :
    (∀ block ∈ (Builder.run {} groupedCalls).body.blocks, block.WellFormed) ∧
      ∃ e, (Builder.run {} ungroupedCalls).build = .error e := by
  have grouped : Grown groupedCalls (Builder.run {} groupedCalls) :=
    Grown.empty.run groupedCalls
      (by simp [groupedCalls, Call.queries, SourceArg.queries, Clause.queries])
      (by simp [groupedCalls, Call.builders, SourceArg.builders])
  have outer : Grown groupedSourceCalls (Builder.run {} groupedSourceCalls) := by
    refine Grown.empty.run groupedSourceCalls ?_ ?_
    · simp [groupedSourceCalls, Call.queries, SourceArg.queries]
    · simp [groupedSourceCalls, Call.builders, SourceArg.builders]
      exact .grown grouped
  have ungrouped : Grown ungroupedCalls (Builder.run {} ungroupedCalls) :=
    Grown.empty.run ungroupedCalls
      (by simp [ungroupedCalls, groupedCalls, Call.queries, SourceArg.queries, Clause.queries])
      (by simp [ungroupedCalls, groupedCalls, Call.builders, SourceArg.builders])
  constructor
  · have inside : (Query.mk (Builder.run {} groupedSourceCalls).body).Inside
        (.mk (Builder.run {} groupedCalls).body) := .embedded .self (.head _)
    exact (built_queries_are_well_formed outer).1 _ rfl _ inside
  · exact (built_queries_are_well_formed ungrouped).2.2
      (groupedCalls ++ [.compound .union, .readFrom (.table "u"), .groupBy (.text " ")])
      (.text "count(*) > 1") [] [.groupBy (.text "k")] rfl rfl (by decide)

end SqlSelect
