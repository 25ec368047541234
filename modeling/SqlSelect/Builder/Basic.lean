import SqlSelect.Query.Tables
import SqlSelect.Query.Valid

/-! Builders: queries under construction.

A builder holds the body put together so far, what the last call left for a refinement to
apply to (`Cursor`), the kind chosen for the next join, and the first error. Calls never fail:
an error is recorded, later ones do not replace it (`error_fail`), and building reports it. -/
namespace SqlSelect

/-- What a refinement, such as an alias, applies to. -/
inductive Cursor where
  | none
  /-- The items of the projection from `start` on. -/
  | projection (start : Nat)
  | source
  /-- The last join. -/
  | join
  /-- The last term of the order. -/
  | orderBy
  /-- The set operator that opened the current block. -/
  | compound
deriving DecidableEq, Repr

structure Builder where
  body : Body Query := {}
  cursor : Cursor := .none
  pendingJoin : Option JoinKind := none
  error : Option QueryError := none

namespace Builder

/-- A builder whose query continues a given one. -/
def upon (q : Query) : Builder := { body := q.body }

/-- Records an error unless one is recorded already. -/
def fail (b : Builder) (e : QueryError) : Builder := { b with error := b.error.or (some e) }

/-- Records that a refinement has nothing to apply to. -/
def misplaced (b : Builder) (r : Refinement) : Builder := b.fail (.invalidState (.misplaced r))

/-- Goes on with what an attempt made of the builder, or records why it failed. -/
def attempt (b : Builder) : Except QueryError Builder → Builder
  | .ok next => next
  | .error e => b.fail e

/-- Leaves nothing for a refinement to apply to. -/
def detached (b : Builder) : Builder := { b with cursor := .none }

def modifyBlock (b : Builder) (f : Block Query → Block Query) : Builder :=
  { b with body := { b.body with current := f b.body.current } }

def modifyTrailing (b : Builder) (f : Trailing Query → Trailing Query) : Builder :=
  { b with body := { b.body with trailing := f b.body.trailing } }

theorem error_fail (b : Builder) (e : QueryError) : (b.fail e).error = b.error.or (some e) := rfl

theorem body_fail (b : Builder) (e : QueryError) : (b.fail e).body = b.body := rfl

/-! ### What a builder answers -/

/-- The tables read anywhere in the query so far. -/
def tables (b : Builder) : NameSet := b.body.tables

/-- The query so far, if there is nothing wrong with it. The builder stays usable. -/
def build (b : Builder) : Except QueryError Query :=
  match b.error, b.pendingJoin, b.body.fault? with
  | some e, _, _ => .error e
  | none, some kind, _ => .error (.invalidState (.joinPending kind))
  | none, none, some fault => .error (.invalidState fault)
  | none, none, none => .ok (.mk b.body)

theorem build_eq_ok {b : Builder} {q : Query} : b.build = .ok q ↔
    b.error = none ∧ b.pendingJoin = none ∧ b.body.fault? = none ∧ q = .mk b.body := by
  rw [build]
  cases b.error <;> cases b.pendingJoin <;> cases b.body.fault? <;> simp [eq_comm]

end Builder

end SqlSelect
