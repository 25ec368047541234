import SqlSelect.Builder.Call

/-! Lines of builders.

Builders are values. Calls make the next one of a builder, a copy goes on as the same builder, and
building leaves a builder as it was; a query that was built can be reopened, any number of times, as
a new builder. So the builders that come of one form a tree, and along each path of it one goes from
builder to builder by `Step`s. Where they lead is `Builder.follow?`, which is nothing only if a
query is to be reopened that cannot be built. -/
namespace SqlSelect

/-- What leads from a builder to the next one. -/
inductive Step where
  | call (c : Call)
  /-- Going on with a copy. -/
  | copy
  /-- Building the query, and going on with the builder. -/
  | build
  /-- Building the query, and going on with the query reopened. -/
  | reopen

namespace Builder
variable {b next : Builder} {steps : List Step}

def step? (b : Builder) : Step → Option Builder
  | .call c => some (b.apply c)
  | .copy | .build => some b
  | .reopen =>
    match b.build with
    | .ok q => some (.upon q)
    | .error _ => none

/-- The builder at the end of a path. -/
def follow? (b : Builder) (steps : List Step) : Option Builder := steps.foldlM step? b

theorem follow?_cons (b : Builder) (s : Step) (rest : List Step) :
    b.follow? (s :: rest) = (b.step? s).bind (·.follow? rest) := by
  rw [follow?, List.foldlM_cons]
  rfl

theorem step?_reopen (h : b.step? .reopen = some next) :
    ∃ q, b.build = .ok q ∧ next = .upon q := by
  simp only [step?] at h
  cases built : b.build with
  | ok q =>
    rw [built] at h
    exact ⟨q, rfl, (Option.some.inj h).symm⟩
  | error e =>
    rw [built] at h
    cases h

/-- A step is a call, or it changes nothing in the query. -/
theorem step?_cases {s : Step} (h : b.step? s = some next) :
    (∃ c, s = .call c ∧ next = b.apply c) ∨ (∀ c, s ≠ .call c) ∧ next.body = b.body := by
  cases s with
  | call c => exact .inl ⟨c, rfl, (Option.some.inj h).symm⟩
  | copy | build =>
    obtain rfl := Option.some.inj h
    exact .inr ⟨fun c => by simp, rfl⟩
  | reopen =>
    obtain ⟨q, built, rfl⟩ := step?_reopen h
    obtain ⟨_, _, _, rfl⟩ := build_eq_ok.mp built
    exact .inr ⟨fun c => by simp, rfl⟩

/-- What calls keep of a body is kept along every path. -/
theorem kept_follow? {P : Body Query → Prop} (call : ∀ b c, P b.body → P (apply b c).body)
    (start : P b.body) (path : b.follow? steps = some next) : P next.body := by
  induction steps generalizing b with
  | nil =>
    cases path
    exact start
  | cons s rest ih =>
    rw [follow?_cons] at path
    obtain ⟨mid, step, path⟩ := Option.bind_eq_some_iff.mp path
    refine ih ?_ path
    rcases step?_cases step with ⟨c, _, rfl⟩ | ⟨_, same⟩
    · exact call b c start
    · rw [same]
      exact start

end Builder

end SqlSelect
