import SqlSelect.Builder.Call
import SqlSelect.Proofs.Binding

/-! What can be reached by calls.

`Grown calls b` says that `b` was grown from an empty builder by these calls, one after the other,
where the query may have been built and reopened in between. The queries and builders that a call
attaches were grown and built in the same way. `Grown.attached` is the invariant of growth: all
expressions of the body are complete, every embedded query writes all its placeholders with their
values, and an offset stands only under a limit. -/
namespace SqlSelect

/-! ### What a call attaches -/

def Clause.queries : Clause → List Query
  | .expr e => e.queries
  | .absent | .text _ => []

def LimitArg.queries : LimitArg → List Query
  | .expr e => e.queries
  | .absent | .integer _ | .text _ => []

def SourceArg.queries : SourceArg → List Query
  | .query q => [q]
  | .table _ | .builder _ => []

def SourceArg.builders : SourceArg → List Builder
  | .builder b => [b]
  | .table _ | .query _ => []

/-- The built queries in the arguments of a call. -/
def Call.queries : Call → List Query
  | .expr e => e.queries
  | .readFrom s | .join s => s.queries
  | .on p _ | .filter p _ | .having p _ => p.queries
  | .groupBy t | .orderBy t => t.queries
  | .limit arg | .offset arg => arg.queries
  | _ => []

/-- The unbuilt builders in the arguments of a call. -/
def Call.builders : Call → List Builder
  | .readFrom s | .join s => s.builders
  | _ => []

/-! ### Growth -/

mutual

/-- The builder was grown from an empty one by these calls. -/
inductive Grown : List Call → Builder → Prop where
  | empty : Grown [] {}
  | reopened {calls b q} : Grown calls b → b.build = .ok q → Grown calls (.upon q)
  | call {calls b c} : Grown calls b → (∀ q ∈ c.queries, Query.Built q) →
      (∀ b' ∈ c.builders, Builder.Reachable b') → Grown (calls ++ [c]) (b.apply c)

/-- Some calls grow this builder. -/
inductive Builder.Reachable : Builder → Prop where
  | grown {calls b} : Grown calls b → Builder.Reachable b

/-- The query is what some builder builds. -/
inductive Query.Built : Query → Prop where
  | build {b q} : Builder.Reachable b → b.build = .ok q → Query.Built q

end

/-- A built query is the body of a builder that was grown. -/
theorem Query.Built.grown {q : Query} (h : q.Built) :
    ∃ calls b, Grown calls b ∧ q = .mk b.body := by
  obtain ⟨⟨grown⟩, built⟩ := h
  obtain ⟨_, _, _, rfl⟩ := Builder.build_eq_ok.mp built
  exact ⟨_, _, grown, rfl⟩

/-- Growth goes on by any number of calls. -/
theorem Grown.run {calls : List Call} {b : Builder} (h : Grown calls b) (more : List Call)
    (queries : ∀ c ∈ more, ∀ q ∈ c.queries, Query.Built q)
    (builders : ∀ c ∈ more, ∀ b' ∈ c.builders, Builder.Reachable b') :
    Grown (calls ++ more) (b.run more) := by
  induction more generalizing calls b with
  | nil =>
    rw [List.append_nil]
    exact h
  | cons c more ih =>
    have next := h.call (queries c List.mem_cons_self) (builders c List.mem_cons_self)
    have rest := ih next (fun d hd => queries d (List.mem_cons_of_mem c hd))
      fun d hd => builders d (List.mem_cons_of_mem c hd)
    rw [List.append_assoc] at rest
    exact rest

/-- Calls that attach neither queries nor builders may be any. -/
theorem Grown.of_unattached (calls : List Call) (queries : calls.flatMap Call.queries = [])
    (builders : calls.flatMap Call.builders = []) : Grown calls (Builder.run {} calls) := by
  refine Grown.empty.run calls (fun c hc => ?_) fun c hc => ?_
  · rw [List.flatMap_eq_nil_iff.mp queries c hc]
    exact List.forall_mem_nil _
  · rw [List.flatMap_eq_nil_iff.mp builders c hc]
    exact List.forall_mem_nil _

/-- Induction over growth, with the hypothesis for everything that a call attaches. -/
theorem Grown.induct {P : List Call → Builder → Prop} (empty : P [] {})
    (reopened : ∀ calls b q, P calls b → b.build = .ok q → P calls (.upon q))
    (call : ∀ calls b c, P calls b →
      (∀ q ∈ c.queries, ∃ calls' b', P calls' b' ∧ b'.build = .ok q) →
      (∀ b' ∈ c.builders, ∃ calls', P calls' b') → P (calls ++ [c]) (b.apply c))
    {calls : List Call} {b : Builder} (h : Grown calls b) : P calls b := by
  refine Grown.rec (motive_1 := fun calls b _ => P calls b)
    (motive_2 := fun b _ => ∃ calls, P calls b)
    (motive_3 := fun q _ => ∃ calls b, P calls b ∧ b.build = .ok q) ?_ ?_ ?_ ?_ ?_ h
  · exact empty
  · exact fun _ built ih => reopened _ _ _ ih built
  · exact fun _ _ _ ih queries builders => call _ _ _ ih queries builders
  · exact fun _ ih => ⟨_, ih⟩
  · rintro b q _ built ⟨calls, ih⟩
    exact ⟨calls, b, ih, built⟩

/-- Induction along the calls alone, with what is known of everything that a call attaches. -/
theorem Grown.along {P : List Call → Builder → Prop} (empty : P [] {})
    (reopened : ∀ calls b q, Grown calls b → P calls b → b.build = .ok q → P calls (.upon q))
    (call : ∀ calls b c, Grown calls b → P calls b → (∀ q ∈ c.queries, q.Built) →
      (∀ b' ∈ c.builders, b'.Reachable) → P (calls ++ [c]) (b.apply c))
    {calls : List Call} {b : Builder} (h : Grown calls b) : P calls b := by
  refine Grown.rec (motive_1 := fun calls b _ => P calls b) (motive_2 := fun _ _ => True)
    (motive_3 := fun _ _ => True) ?_ ?_ ?_ ?_ ?_ h
  · exact empty
  · exact fun grown built ih => reopened _ _ _ grown ih built
  · exact fun grown queries builders ih _ _ => call _ _ _ grown ih queries builders
  · exact fun _ _ => trivial
  · exact fun _ _ _ => trivial

theorem Except.map_eq_ok {ε α β : Type} {f : α → β} {x : Except ε α} {b : β} :
    x.map f = .ok b ↔ ∃ a, x = .ok a ∧ f a = b := by
  cases x <;> simp [Except.map]

/-! ### What is accepted -/

section Accepted
variable {Q : Query → Prop}

theorem Clause.predicate_attached {p : Clause} {values : List Param} {e : Expr Query}
    (h : p.predicate values = .ok (some e)) (queries : ∀ q ∈ p.queries, Q q) : e.Attached Q := by
  cases p with
  | absent => cases h
  | text sql =>
    simp only [predicate] at h
    split at h
    · cases h
    · obtain ⟨e', raw, he⟩ := Except.map_eq_ok.mp h
      cases he
      obtain ⟨rfl, complete⟩ := Expr.ofRaw_eq_ok raw
      exact ⟨complete, by simp [Expr.queries]⟩
  | expr e₀ =>
    obtain ⟨e', bound, he⟩ := Except.map_eq_ok.mp h
    cases he
    obtain ⟨rfl, complete⟩ := Expr.bind_eq_ok bound
    exact ⟨complete, by simpa [Clause.queries] using queries⟩

theorem Clause.term_attached {t : Clause} {e : Expr Query} (h : t.term = .ok (some e))
    (queries : ∀ q ∈ t.queries, Q q) : e.Attached Q := by
  cases t with
  | absent => cases h
  | text sql =>
    simp only [term] at h
    split at h
    · cases h
    · obtain ⟨e', raw, he⟩ := Except.map_eq_ok.mp h
      cases he
      obtain ⟨rfl, complete⟩ := Expr.ofRaw_eq_ok raw
      exact ⟨complete, by simp [Expr.queries]⟩
  | expr e₀ =>
    obtain ⟨e', bound, he⟩ := Except.map_eq_ok.mp h
    cases he
    obtain ⟨rfl, complete⟩ := Expr.fullyBound_eq_ok.mp bound
    exact ⟨complete, queries⟩

theorem LimitArg.resolve_attached {arg : LimitArg} {e : Expr Query}
    (h : arg.resolve = .ok (some e)) (queries : ∀ q ∈ arg.queries, Q q) : e.Attached Q := by
  cases arg with
  | absent => cases h
  | integer n =>
    simp only [resolve] at h
    split at h
    · cases h
      exact ⟨Expr.complete_literal _, by simp [Expr.queries]⟩
    · cases h
  | text sql =>
    obtain ⟨e', raw, he⟩ := Except.map_eq_ok.mp h
    cases he
    obtain ⟨rfl, complete⟩ := Expr.ofRaw_eq_ok raw
    exact ⟨complete, by simp [Expr.queries]⟩
  | expr e₀ =>
    obtain ⟨e', bound, he⟩ := Except.map_eq_ok.mp h
    cases he
    obtain ⟨rfl, complete⟩ := Expr.fullyBound_eq_ok.mp bound
    exact ⟨complete, queries⟩

theorem SourceArg.resolve_attached {s : SourceArg} {source : Source Query}
    (h : s.resolve = .ok source) (queries : ∀ q ∈ s.queries, Q q)
    (builders : ∀ b ∈ s.builders, ∀ q, b.build = .ok q → Q q) : source.Attached Q := by
  cases s with
  | table name =>
    cases h
    trivial
  | query q =>
    cases h
    exact queries q List.mem_cons_self
  | builder b =>
    obtain ⟨q, built, hq⟩ := Except.map_eq_ok.mp h
    cases hq
    exact builders b List.mem_cons_self q built

end Accepted

/-! ### One call -/

namespace Builder
variable {Q : Query → Prop} {b : Builder}

/-- Nothing is attached to an empty builder. -/
theorem attached_empty : ({} : Builder).body.Attached Q := by
  refine ⟨fun block hblock => ?_, ?_⟩
  · cases List.mem_singleton.mp hblock
    constructor <;> simp
  · constructor <;> simp

theorem attached_modifyBlock {f : Block Query → Block Query} (h : b.body.Attached Q)
    (current : b.body.current.Attached Q → (f b.body.current).Attached Q) :
    (b.modifyBlock f).body.Attached Q := by
  refine ⟨?_, h.trailing⟩
  have blocks := h.blocks
  simp only [modifyBlock, Body.blocks, List.mem_append, List.mem_singleton] at blocks ⊢
  rintro block (earlier | rfl)
  · exact blocks block (.inl earlier)
  · exact current (blocks _ (.inr rfl))

theorem attached_modifyTrailing {f : Trailing Query → Trailing Query} (h : b.body.Attached Q)
    (trailing : b.body.trailing.Attached Q → (f b.body.trailing).Attached Q) :
    (b.modifyTrailing f).body.Attached Q :=
  ⟨h.blocks, trailing h.trailing⟩

theorem attached_attempt {r : Except QueryError Builder} (h : b.body.Attached Q)
    (ok : ∀ next, r = .ok next → next.body.Attached Q) : (b.attempt r).body.Attached Q := by
  cases r with
  | ok next => exact ok next rfl
  | error e => exact h

/-- An attempt to use an argument, when using it keeps everything attached. -/
theorem attached_attempt_map {α : Type} {r : Except QueryError α} {f : α → Builder}
    (h : b.body.Attached Q) (ok : ∀ a, r = .ok a → (f a).body.Attached Q) :
    (b.attempt (r.map f)).body.Attached Q := by
  apply attached_attempt h
  intro next hnext
  obtain ⟨a, ha, rfl⟩ := Except.map_eq_ok.mp hnext
  exact ok a ha

theorem attached_project {items : List (Item Query)} (h : b.body.Attached Q)
    (attached : ∀ e aliasName, .expr e aliasName ∈ items → e.Attached Q) :
    (b.project items).body.Attached Q := by
  refine attached_modifyBlock
    (f := fun block => { block with projection := block.projection ++ items }) h ?_
  intro current
  refine { current with projection := ?_ }
  intro e aliasName hmem
  rcases List.mem_append.mp hmem with hmem | hmem
  · exact current.projection e aliasName hmem
  · exact attached e aliasName hmem

theorem attached_columns (h : b.body.Attached Q) (names : List String) :
    (b.columns names).body.Attached Q := by
  refine attached_project h fun e aliasName hmem => ?_
  obtain ⟨name, _, he⟩ := List.mem_map.mp hmem
  cases he
  exact ⟨Expr.complete_column none name, by simp [Expr.queries]⟩

/-- Items may be replaced by items whose expressions are attached as well. -/
theorem attached_items {items : List (Item Query) → List (Item Query)} (h : b.body.Attached Q)
    (from_ : ∀ e aliasName, .expr e aliasName ∈ items b.body.current.projection →
      (∃ name, .expr e name ∈ b.body.current.projection) ∨ ∃ table name, e = .column table name) :
    (b.modifyBlock fun block => { block with projection := items block.projection }).body.Attached Q := by
  refine attached_modifyBlock h ?_
  intro current
  refine { current with projection := ?_ }
  intro e aliasName hmem
  rcases from_ e aliasName hmem with ⟨name, hmem⟩ | ⟨table, name, rfl⟩
  · exact current.projection e name hmem
  · exact ⟨Expr.complete_column table name, by simp [Expr.queries]⟩

theorem attached_refineItems {r : Refinement} {f : Item Query → Item Query} (h : b.body.Attached Q)
    (item : ∀ i e aliasName, f i = .expr e aliasName →
      (∃ name, i = .expr e name) ∨ ∃ table name, e = .column table name) :
    (b.refineItems r f).body.Attached Q := by
  unfold refineItems
  split
  · refine attached_items h fun e aliasName hmem => ?_
    rcases mem_modifyFrom hmem with hmem | ⟨i, hi, he⟩
    · exact .inl ⟨aliasName, hmem⟩
    · rcases item i e aliasName he.symm with ⟨name, rfl⟩ | column
      · exact .inl ⟨name, hi⟩
      · exact .inr column
  · exact h

theorem attached_qualify (h : b.body.Attached Q) (table : String) :
    (b.qualify table).body.Attached Q := by
  refine attached_refineItems h fun i e aliasName hi => ?_
  unfold Item.qualify at hi
  split at hi
  · cases hi
  · cases hi
    exact .inr ⟨_, _, rfl⟩
  · exact .inl ⟨aliasName, hi⟩

theorem attached_aliasByName (h : b.body.Attached Q) : b.aliasByName.body.Attached Q := by
  refine attached_refineItems h fun i e aliasName hi => ?_
  unfold Item.aliasByName at hi
  split at hi
  · cases hi
    exact .inr ⟨_, _, rfl⟩
  · exact .inl ⟨aliasName, hi⟩

/-- Joins may be replaced by joins with the same targets and constraints. -/
theorem attached_aliasAs (h : b.body.Attached Q) (name : String) :
    (b.aliasAs name).body.Attached Q := by
  unfold aliasAs
  split
  · split
    · refine attached_items h fun e aliasName hmem => ?_
      rcases mem_modifyLast hmem with hmem | ⟨i, hi, he⟩
      · exact .inl ⟨aliasName, hmem⟩
      · cases i with
        | allColumns table => cases he
        | expr e₀ name₀ =>
          cases he
          exact .inl ⟨name₀, hi⟩
    · exact h
    · exact h
  · refine attached_modifyBlock h ?_
    intro current
    refine { current with source := ?_ }
    intro c hc
    obtain ⟨c₀, hc₀, rfl⟩ := Option.map_eq_some_iff.mp hc
    exact current.source c₀ hc₀
  · refine attached_modifyBlock h ?_
    intro current
    refine { current with targets := ?_, constraints := ?_ }
    · intro j hj
      rcases mem_modifyLast hj with hj | ⟨j₀, hj₀, rfl⟩
      · exact current.targets j hj
      · exact current.targets j₀ hj₀
    · intro j hj e he
      rcases mem_modifyLast hj with hj | ⟨j₀, hj₀, rfl⟩
      · exact current.constraints j hj e he
      · exact current.constraints j₀ hj₀ e he
  · exact h

theorem attached_all (h : b.body.Attached Q) : b.all.body.Attached Q := by
  unfold all
  split
  · refine ⟨?_, h.trailing⟩
    have blocks := h.blocks
    simp only [Body.blocks, List.mem_append, List.mem_map, List.mem_singleton] at blocks ⊢
    rintro block (⟨l, hl, rfl⟩ | rfl)
    · rcases mem_modifyLast hl with hl | ⟨l₀, hl₀, rfl⟩
      · exact blocks l.block (.inl ⟨l, hl, rfl⟩)
      · exact blocks l₀.block (.inl ⟨l₀, hl₀, rfl⟩)
    · exact blocks _ (.inr rfl)
  · exact attached_modifyBlock h fun current => { current with }

theorem attached_constrain {c : JoinConstraint Query} (h : b.body.Attached Q)
    (attached : ∀ e, c = .on e → e.Attached Q) : (b.constrain c).body.Attached Q := by
  refine attached_modifyBlock h ?_
  intro current
  refine { current with targets := ?_, constraints := ?_ }
  · intro j hj
    rcases mem_modifyLast hj with hj | ⟨j₀, hj₀, rfl⟩
    · exact current.targets j hj
    · exact current.targets j₀ hj₀
  · intro j hj e he
    rcases mem_modifyLast hj with hj | ⟨j₀, hj₀, rfl⟩
    · exact current.constraints j hj e he
    · cases he
      exact attached e rfl

theorem attached_readFrom {s : SourceArg} (h : b.body.Attached Q) (queries : ∀ q ∈ s.queries, Q q)
    (builders : ∀ b ∈ s.builders, ∀ q, b.build = .ok q → Q q) :
    (b.readFrom s).body.Attached Q := by
  refine attached_attempt_map h fun source resolved => ?_
  refine attached_modifyBlock (f := fun block => { block with source := some ⟨source, none⟩ }) h ?_
  intro current
  refine { current with source := ?_ }
  intro c hc
  cases hc
  exact SourceArg.resolve_attached resolved queries builders

theorem attached_join {s : SourceArg} (h : b.body.Attached Q) (queries : ∀ q ∈ s.queries, Q q)
    (builders : ∀ b ∈ s.builders, ∀ q, b.build = .ok q → Q q) : (b.join s).body.Attached Q := by
  have settled : ({ b with pendingJoin := none } : Builder).body.Attached Q := h
  refine attached_attempt_map settled fun target resolved => ?_
  refine attached_modifyBlock (f := fun block =>
    { block with joins := block.joins ++ [⟨b.pendingJoin.getD default, target, none, none⟩] })
    settled ?_
  intro current
  refine { current with targets := ?_, constraints := ?_ }
  · intro j hj
    rcases List.mem_append.mp hj with hj | hj
    · exact current.targets j hj
    · cases List.mem_singleton.mp hj
      exact SourceArg.resolve_attached resolved queries builders
  · intro j hj e he
    rcases List.mem_append.mp hj with hj | hj
    · exact current.constraints j hj e he
    · cases List.mem_singleton.mp hj
      cases he

theorem attached_on {p : Clause} {values : List Param} (h : b.body.Attached Q)
    (queries : ∀ q ∈ p.queries, Q q) : (b.on p values).body.Attached Q := by
  unfold on
  split
  · refine attached_attempt_map h fun e accepted => ?_
    cases e with
    | none => exact h
    | some e =>
      refine attached_constrain h fun e' he => ?_
      cases he
      exact Clause.predicate_attached accepted queries
  · exact h

theorem attached_sharedColumns (h : b.body.Attached Q) (names : List String) :
    (b.sharedColumns names).body.Attached Q := by
  unfold sharedColumns
  split
  · split
    · exact h
    · exact attached_constrain h fun e he => by cases he
  · exact h

/-- A list of expressions that may get one more. -/
theorem attached_append {es : List (Expr Query)} {e : Option (Expr Query)}
    (h : ∀ e ∈ es, e.Attached Q) (attached : ∀ e', e = some e' → e'.Attached Q) :
    ∀ e' ∈ es ++ e.toList, e'.Attached Q := by
  intro e' he'
  rcases List.mem_append.mp he' with he' | he'
  · exact h e' he'
  · exact attached e' (by simpa using he')

theorem attached_filter {p : Clause} {values : List Param} (h : b.body.Attached Q)
    (queries : ∀ q ∈ p.queries, Q q) : (b.filter p values).body.Attached Q := by
  have detached : b.detached.body.Attached Q := h
  refine attached_attempt_map detached fun e accepted => ?_
  refine attached_modifyBlock detached ?_
  intro current
  refine { current with selection := ?_ }
  refine attached_append current.selection fun e' he' => ?_
  exact Clause.predicate_attached (he' ▸ accepted) queries

theorem attached_groupBy {t : Clause} (h : b.body.Attached Q) (queries : ∀ q ∈ t.queries, Q q) :
    (b.groupBy t).body.Attached Q := by
  have detached : b.detached.body.Attached Q := h
  refine attached_attempt_map detached fun e accepted => ?_
  refine attached_modifyBlock detached ?_
  intro current
  refine { current with groupBy := ?_ }
  exact attached_append current.groupBy fun e' he' => Clause.term_attached (he' ▸ accepted) queries

theorem attached_having {p : Clause} {values : List Param} (h : b.body.Attached Q)
    (queries : ∀ q ∈ p.queries, Q q) : (b.having p values).body.Attached Q := by
  have detached : b.detached.body.Attached Q := h
  refine attached_attempt detached fun next hnext => ?_
  cases accepted : p.predicate values with
  | error e =>
    rw [accepted] at hnext
    cases hnext
  | ok e =>
    rw [accepted] at hnext
    simp only [Except.bind] at hnext
    split at hnext
    · cases hnext
      exact detached
    · rename_i e
      split at hnext
      · cases hnext
      · cases hnext
        refine attached_modifyBlock detached ?_
        intro current
        refine { current with having := ?_ }
        exact attached_append (e := some e) current.having fun e' he' =>
          Clause.predicate_attached (he' ▸ accepted) queries

theorem attached_orderBy {t : Clause} (h : b.body.Attached Q) (queries : ∀ q ∈ t.queries, Q q) :
    (b.orderBy t).body.Attached Q := by
  refine attached_attempt_map h fun e accepted => ?_
  cases e with
  | none => exact h
  | some e =>
    refine attached_modifyTrailing
      (f := fun t => { t with orderBy := t.orderBy ++ [⟨e, none, none⟩] }) h ?_
    intro trailing
    refine { trailing with orderBy := ?_ }
    intro term hterm
    rcases List.mem_append.mp hterm with hterm | hterm
    · exact trailing.orderBy term hterm
    · cases List.mem_singleton.mp hterm
      exact Clause.term_attached accepted queries

theorem attached_refineOrder {r : Refinement} {f : OrderTerm Query → OrderTerm Query}
    (h : b.body.Attached Q) (same : ∀ term, (f term).expr = term.expr) :
    (b.refineOrder r f).body.Attached Q := by
  unfold refineOrder
  split
  · refine attached_modifyTrailing h ?_
    intro trailing
    refine { trailing with orderBy := ?_ }
    intro term hterm
    rcases mem_modifyLast hterm with hterm | ⟨term₀, hterm₀, rfl⟩
    · exact trailing.orderBy term hterm
    · rw [same]
      exact trailing.orderBy term₀ hterm₀
  · exact h

theorem attached_limit {arg : LimitArg} (h : b.body.Attached Q) (queries : ∀ q ∈ arg.queries, Q q) :
    (b.limit arg).body.Attached Q := by
  have detached : b.detached.body.Attached Q := h
  unfold limit
  split
  · rename_i unset
    refine attached_attempt_map detached fun e accepted => ?_
    refine attached_modifyTrailing detached ?_
    intro trailing
    refine { trailing with limit := ?_, limited := ?_ }
    · intro e' he'
      cases e with
      | none => cases he'
      | some e =>
        cases he'
        exact LimitArg.resolve_attached accepted queries
    · intro o ho
      obtain ⟨e', he'⟩ := trailing.limited o ho
      have impossible : Limit.unset = Limit.value e' := unset.symm.trans he'
      cases impossible
  · exact detached

theorem attached_offset {arg : LimitArg} (h : b.body.Attached Q) (queries : ∀ q ∈ arg.queries, Q q) :
    (b.offset arg).body.Attached Q := by
  have detached : b.detached.body.Attached Q := h
  unfold offset
  split
  · rename_i limit hlimit
    split
    · exact detached
    · refine attached_attempt_map detached fun e accepted => ?_
      refine attached_modifyTrailing detached ?_
      intro trailing
      refine { trailing with offset := ?_, limited := ?_ }
      · intro e' he'
        cases he'
        exact LimitArg.resolve_attached accepted queries
      · exact fun _ _ => ⟨limit, hlimit⟩
  · exact detached

theorem attached_compound (h : b.body.Attached Q) (op : SetOp) :
    (b.compound op).body.Attached Q := by
  refine ⟨?_, h.trailing⟩
  have blocks := h.blocks
  simp only [compound, Body.blocks, List.map_append, List.map_cons, List.map_nil, List.mem_append,
    List.mem_singleton] at blocks ⊢
  rintro block ((earlier | rfl) | rfl)
  · exact blocks block (.inl earlier)
  · exact blocks _ (.inr rfl)
  · constructor <;> simp

/-- A call keeps everything attached, provided that what it attaches is as `Q` says. -/
theorem attached_apply {c : Call} (h : b.body.Attached Q) (queries : ∀ q ∈ c.queries, Q q)
    (builders : ∀ b' ∈ c.builders, ∀ q, b'.build = .ok q → Q q) : (b.apply c).body.Attached Q := by
  cases c with
  | select => exact h
  | distinct => exact attached_modifyBlock h fun current => { current with }
  | all => exact attached_all h
  | allColumns => exact attached_project h fun e aliasName hmem => by simp at hmem
  | columns names => exact attached_columns h names
  | expr e =>
    refine attached_attempt_map h fun e' accepted => ?_
    obtain ⟨rfl, complete⟩ := Expr.fullyBound_eq_ok.mp accepted
    refine attached_project h fun e aliasName hmem => ?_
    cases List.mem_singleton.mp hmem
    exact ⟨complete, queries⟩
  | aliasAs name => exact attached_aliasAs h name
  | qualify table => exact attached_qualify h table
  | aliasByName => exact attached_aliasByName h
  | readFrom source => exact attached_readFrom h queries builders
  | left => exact h
  | cross => exact h
  | natural => exact h
  | join target => exact attached_join h queries builders
  | on p values => exact attached_on h queries
  | sharedColumns names => exact attached_sharedColumns h names
  | filter p values => exact attached_filter h queries
  | groupBy t => exact attached_groupBy h queries
  | having p values => exact attached_having h queries
  | orderBy t => exact attached_orderBy h queries
  | direct d => exact attached_refineOrder h fun _ => rfl
  | collate collation => exact attached_refineOrder h fun _ => rfl
  | limit arg => exact attached_limit h queries
  | offset arg => exact attached_offset h queries
  | compound op => exact attached_compound h op

end Builder

/-! ### Every run of calls -/

/-- A query with attached parts writes all its placeholders with their values. -/
theorem Query.settled_of_attached {body : Body Query} (h : body.Attached fun q => q.pieces.Settled) :
    (Query.mk body).pieces.Settled := by
  rw [Query.pieces_mk]
  exact Pieces.settled_of_slots (Body.slots_eq h)

/-- Whatever was grown is complete, with embedded queries that are as `Q` says, if every query is
whose own embedded queries are. -/
theorem Grown.attached_of {Q : Query → Prop} (mk : ∀ body, body.Attached Q → Q (.mk body))
    {calls : List Call} {b : Builder} (h : Grown calls b) : b.body.Attached Q := by
  refine Grown.induct (P := fun _ b => b.body.Attached Q) Builder.attached_empty ?_ ?_ h
  · intro calls b q ih built
    obtain ⟨_, _, _, rfl⟩ := Builder.build_eq_ok.mp built
    exact ih
  · intro calls b c ih queries builders
    have holds : ∀ b' : Builder, b'.body.Attached Q → ∀ q, b'.build = .ok q → Q q := by
      intro b' hb' q built
      obtain ⟨_, _, _, rfl⟩ := Builder.build_eq_ok.mp built
      exact mk _ hb'
    refine Builder.attached_apply ih (fun q hq => ?_) fun b' hb' => ?_
    · obtain ⟨_, b', hb', built⟩ := queries q hq
      exact holds b' hb' q built
    · obtain ⟨_, hb'⟩ := builders b' hb'
      exact holds b' hb'

/-- Whatever was grown is complete, with embedded queries that have all their values. -/
theorem Grown.attached {calls : List Call} {b : Builder} (h : Grown calls b) :
    b.body.Attached fun q => q.pieces.Settled :=
  h.attached_of fun _ => Query.settled_of_attached

end SqlSelect
