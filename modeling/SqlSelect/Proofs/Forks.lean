import Mathlib.Logic.Relation
import SqlSelect.Proofs.Growth

/-! Forks add no behaviour.

A built query keeps the body of its builder, but neither the cursor, nor the chosen join kind, nor
the error. After a build that went well the last two are empty, and the cursor is what `select`
forgets, so a reopened query is the builder with one more `select` (`upon_eq_select`).

Programs need not follow one path: they may keep several builders, copy them, build and reopen them
in any order, and attach what came of one to another. `Bench` is all that such a program has at
hand, and `Bench.Move` what it may do next. Every move keeps everything on the bench linear, that
is, made by one run of calls on a new builder, whose arguments were made in the same way
(`Bench.Move.linear`). The main statement is `forks_add_nothing`. -/
namespace SqlSelect

/-! ### Reopening -/

namespace Builder
variable {b : Builder} {q : Query}

/-- What a snapshot drops of a builder was empty, or `select` drops it too. -/
theorem upon_eq_select (built : b.build = .ok q) : upon q = b.select := by
  obtain ⟨error, pendingJoin, _, rfl⟩ := build_eq_ok.mp built
  have parts : b.select = ⟨b.body, .none, b.pendingJoin, b.error⟩ := rfl
  rw [parts, error, pendingJoin]
  rfl

/-- The cursor is not looked at when a query is built. -/
theorem build_select (b : Builder) : b.select.build = b.build := rfl

/-- A snapshot passes every check again. -/
theorem build_upon (built : b.build = .ok q) : (upon q).build = .ok q := by
  rw [upon_eq_select built, build_select, built]

end Builder

/-! ### One run of calls -/

mutual

/-- The builder is what one run of calls makes of a new one, with arguments made likewise. -/
inductive Builder.Linear : Builder → Prop where
  | run {calls} : (∀ c ∈ calls, ∀ q ∈ c.queries, Query.Linear q) →
      (∀ c ∈ calls, ∀ b ∈ c.builders, Builder.Linear b) → Builder.Linear (Builder.run {} calls)

/-- The query is built after one run of calls. -/
inductive Query.Linear : Query → Prop where
  | build {b q} : Builder.Linear b → b.build = .ok q → Query.Linear q

end

namespace Builder.Linear
variable {b : Builder} {q : Query}

theorem empty : Linear {} := @run [] (by simp) (by simp)

theorem apply {c : Call} (h : Linear b) (queries : ∀ q ∈ c.queries, q.Linear)
    (builders : ∀ b ∈ c.builders, Linear b) : Linear (b.apply c) := by
  cases h with
  | @run calls before before' =>
    have next : Linear (Builder.run {} (calls ++ [c])) := by
      refine run (fun d hd => ?_) fun d hd => ?_
      · rcases List.mem_append.mp hd with hd | hd
        · exact before d hd
        · rwa [List.mem_singleton.mp hd]
      · rcases List.mem_append.mp hd with hd | hd
        · exact before' d hd
        · rwa [List.mem_singleton.mp hd]
    rwa [run_append] at next

theorem upon (h : Linear b) (built : b.build = .ok q) : Linear (.upon q) := by
  rw [upon_eq_select built]
  exact h.apply (c := .select) (by simp [Call.queries]) (by simp [Call.builders])

end Builder.Linear

/-- Some run of calls on a new builder builds a linear query. -/
theorem Query.Linear.run {q : Query} (h : q.Linear) :
    ∃ calls, (Builder.run {} calls).build = .ok q := by
  obtain ⟨⟨_, _⟩, built⟩ := h
  exact ⟨_, built⟩

theorem Builder.Linear.reachable {b : Builder} (h : b.Linear) : b.Reachable := by
  refine Builder.Linear.rec (motive_1 := fun b _ => b.Reachable)
    (motive_2 := fun q _ => q.Built) ?_ ?_ h
  · intro calls _ _ queries builders
    exact .grown (Grown.empty.run calls queries builders)
  · intro b q _ built reachable
    exact .build reachable built

/-- Growing with queries reopened in between comes to the same as growing without. -/
theorem Builder.reachable_iff_linear {b : Builder} : b.Reachable ↔ b.Linear := by
  refine ⟨fun ⟨grown⟩ => ?_, Builder.Linear.reachable⟩
  refine Grown.induct (P := fun _ b => b.Linear) .empty ?_ ?_ grown
  · exact fun _ _ _ made built => made.upon built
  · intro _ _ _ made queries builders
    refine made.apply (fun q hq => ?_) fun b' hb' => ?_
    · obtain ⟨_, _, made', built⟩ := queries q hq
      exact .build made' built
    · exact (builders b' hb').choose_spec

/-! ### Many builders -/

/-- The builders and queries that a program has at hand. One that was used may be used again. -/
structure Bench where
  builders : List Builder := []
  queries : List Query := []

namespace Bench

/-- What a program may do next. Calls take their arguments from the bench. -/
inductive Move : Bench → Bench → Prop where
  | start {w} : Move w { w with builders := {} :: w.builders }
  | call {w b c} : b ∈ w.builders → (∀ q ∈ c.queries, q ∈ w.queries) →
      (∀ b' ∈ c.builders, b' ∈ w.builders) → Move w { w with builders := b.apply c :: w.builders }
  | copy {w b} : b ∈ w.builders → Move w { w with builders := b :: w.builders }
  | build {w b q} : b ∈ w.builders → b.build = .ok q → Move w { w with queries := q :: w.queries }
  | reopen {w q} : q ∈ w.queries → Move w { w with builders := .upon q :: w.builders }

/-- Whether a program can have this at hand, after any moves in any order. -/
def Reached (w : Bench) : Prop := Relation.ReflTransGen Move {} w

/-- Whether everything at hand could have been made by single runs of calls. -/
structure Linear (w : Bench) : Prop where
  builders : ∀ b ∈ w.builders, b.Linear
  queries : ∀ q ∈ w.queries, q.Linear

variable {w next : Bench}

theorem Linear.withBuilder {b : Builder} (h : w.Linear) (made : b.Linear) :
    Linear { w with builders := b :: w.builders } :=
  ⟨List.forall_mem_cons.mpr ⟨made, h.builders⟩, h.queries⟩

theorem Move.linear (move : Move w next) (h : w.Linear) : next.Linear := by
  cases move with
  | start => exact h.withBuilder .empty
  | call hb queries builders =>
    refine h.withBuilder ((h.builders _ hb).apply (fun q hq => ?_) fun b' hb' => ?_)
    · exact h.queries q (queries q hq)
    · exact h.builders b' (builders b' hb')
  | copy hb => exact h.withBuilder (h.builders _ hb)
  | build hb built =>
    exact ⟨h.builders, List.forall_mem_cons.mpr ⟨.build (h.builders _ hb) built, h.queries⟩⟩
  | reopen hq =>
    obtain ⟨made, built⟩ := h.queries _ hq
    exact h.withBuilder (made.upon built)

theorem Reached.linear (h : w.Reached) : w.Linear := by
  induction h with
  | refl => exact ⟨by simp, by simp⟩
  | tail _ move ih => exact move.linear ih

end Bench

/-- Whatever a program does with its builders, a reopened query answers as its builder does after
`select`, whatever calls follow, and building it again gives the same query. Everything that the
program can come to have is made by one run of calls on a new builder. -/
theorem forks_add_nothing {w : Bench} (reached : w.Reached) :
    (∀ b ∈ w.builders, ∀ q, b.build = .ok q →
      (Builder.upon q).build = .ok q ∧
      ∀ calls, ((Builder.upon q).run calls).build = (b.select.run calls).build ∧
        ((Builder.upon q).run calls).error = (b.select.run calls).error ∧
        ((Builder.upon q).run calls).tables = (b.select.run calls).tables) ∧
    (∀ b ∈ w.builders, b.Linear) ∧ ∀ q ∈ w.queries, q.Linear := by
  refine ⟨fun b _ q built => ⟨Builder.build_upon built, fun calls => ?_⟩, ?_⟩
  · rw [Builder.upon_eq_select built]
    exact ⟨rfl, rfl, rfl⟩
  · exact ⟨reached.linear.builders, reached.linear.queries⟩

/-- The builder that the forks come of. -/
def forkedBase : Builder := Builder.run {} [.readFrom (.table "t"), .orderBy (.text "a")]

def forkedQuery : Query := .mk forkedBase.body

/-- The query is reopened, and reads from the builder it was built of as well. -/
def forkJoined : Builder := (Builder.upon forkedQuery).apply (.join (.builder forkedBase))

/-- The fork and the builder it comes of, which goes on by itself. -/
def forkedBench : Bench where
  builders := [forkedBase.distinct, forkJoined, .upon forkedQuery, forkedBase,
    Builder.run {} [.readFrom (.table "t")], {}]
  queries := [.mk forkJoined.body, forkedQuery]

theorem forks_add_nothing_join : forkedBench.Reached ∧
    (Builder.upon forkedQuery).build = .ok forkedQuery ∧
    ((Builder.upon forkedQuery).run [.direct .desc]).error =
      some (.invalidState (.misplaced .desc)) ∧
    ∃ calls, (Builder.run {} calls).build = .ok (.mk forkJoined.body) := by
  have reached : forkedBench.Reached :=
    Relation.ReflTransGen.refl.tail .start
      |>.tail (.call (c := .readFrom (.table "t")) List.mem_cons_self
        (by simp [Call.queries, SourceArg.queries]) (by simp [Call.builders, SourceArg.builders]))
      |>.tail (.call (c := .orderBy (.text "a")) List.mem_cons_self
        (by simp [Call.queries, Clause.queries]) (by simp [Call.builders]))
      |>.tail (.build (b := forkedBase) (q := forkedQuery) List.mem_cons_self rfl)
      |>.tail (.reopen List.mem_cons_self)
      |>.tail (.call (c := .join (.builder forkedBase)) List.mem_cons_self
        (by simp [Call.queries, SourceArg.queries])
        fun b' hb' => List.mem_singleton.mp hb' ▸ .tail _ (.head _))
      |>.tail (.build (b := forkJoined) List.mem_cons_self rfl)
      |>.tail (.call (c := .distinct) (b := forkedBase) (.tail _ (.tail _ (.head _)))
        (by simp [Call.queries]) (by simp [Call.builders]))
  obtain ⟨forks, _, linear⟩ := forks_add_nothing reached
  obtain ⟨again, same⟩ := forks forkedBase (by simp [forkedBench]) forkedQuery rfl
  exact ⟨reached, again, (same [.direct .desc]).2.1, (linear _ (by simp [forkedBench])).run⟩

end SqlSelect
