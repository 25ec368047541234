import SqlSelect.Proofs.Account
import SqlSelect.Proofs.Bundles

/-! The order of calls.

A run may make its calls in another order, as long as each keeps its refinements, calls about one
topic come in the same order, and calls for a block stay in it (`Rearranged`). What a builder holds
on a topic then depends on the bundles that concern the topic and on nothing else (`runs_filter`),
and a run is accepted where it is accepted topic by topic (`accepted_of_topics`).

The main statement, `rearranged_runs_build_alike`, is that the other run is accepted as well and
comes to the same query. -/
namespace SqlSelect

/-! ### Rearrangements -/

theorem Call.opensBlock_of_topic {c : Call} {t : Topic} (topic : c.topic? = some t) :
    c.opensBlock = false := by
  cases c with
  | compound op => cases topic
  | _ => rfl

/-- Whether a bundle has to do with a topic: it is about the topic, or it is a set operator and each
block has its own. -/
def Topic.concerns (t : Topic) (u : Bundle) : Bool :=
  u.head.topic? == some t || t.ofBlock && u.head.opensBlock

theorem Topic.concerns_of_topic {t s : Topic} {u : Bundle} (topic : u.head.topic? = some s) :
    t.concerns u = true ↔ s = t := by
  simp [concerns, topic, Call.opensBlock_of_topic topic]

theorem Topic.concerns_of_compound {t : Topic} {u : Bundle} {op : SetOp}
    (head : u.head = .compound op) : t.concerns u = t.ofBlock := by
  simp [concerns, head, Call.topic?, Call.opensBlock]

theorem Topic.concerns_of_select {t : Topic} {u : Bundle} (head : u.head = .select) :
    t.concerns u = false := by
  simp [concerns, head, Call.topic?, Call.opensBlock]

/-- The same bundles in another order. Those about one topic are in the same order, and those for a
block stand between the same set operators. -/
structure Rearranged (bundles others : List Bundle) : Prop where
  perm : bundles.Perm others
  order : ∀ t : Topic, bundles.filter t.concerns = others.filter t.concerns

/-- A bundle is about a topic, or it is a set operator or a `select`, and nothing refines those. -/
def Bundle.Regular (u : Bundle) : Prop :=
  (∃ t, u.head.topic? = some t) ∨
    u.refinements = [] ∧ (u.head = .select ∨ ∃ op, u.head = .compound op)

namespace Builder
variable {b b' x next : Builder} {t : Topic} {u : Bundle} {bundles : List Bundle}

/-- In an accepted run all bundles are regular. -/
theorem regular_of_runs (plain : ∀ u ∈ bundles, u.head ≠ .all)
    (accepted : (b.runs bundles).error = none) : ∀ u ∈ bundles, u.Regular := by
  induction bundles generalizing b with
  | nil => exact List.forall_mem_nil _
  | cons u rest ih =>
    obtain ⟨here, later⟩ := List.forall_mem_cons.mp plain
    rw [runs_cons] at accepted
    refine List.forall_mem_cons.mpr ⟨?_, ih later accepted⟩
    have first : ((b.apply u.head).run u.refinements).error = none := error_of_run accepted
    have leads := u.leads
    cases head : u.head with
    | select =>
      rw [head] at first
      exact .inr ⟨eq_nil_of_idle rfl u.refine first, .inl head⟩
    | compound op =>
      rw [head] at first
      exact .inr ⟨eq_nil_of_idle rfl u.refine first, .inr ⟨op, head⟩⟩
    | all => exact absurd head here
    | aliasAs _ | qualify _ | aliasByName | on _ _ | sharedColumns _ | direct _ | collate _ =>
      rw [head] at leads
      cases leads
    | _ => exact .inl ⟨_, congrArg Call.topic? head⟩

/-! ### One bundle -/

theorem run_alone (alone : u.refinements = []) : b.run u.calls = b.apply u.head := by
  rw [Bundle.calls, alone]
  rfl

theorem TakesOver.only (h : b.TakesOver t x next) (s : Topic) :
    next.only s = (b.taking x t).only s := by
  show next.detached.only s = _
  rw [h]
  rfl

theorem only_compound_block (op : SetOp) (block : t.ofBlock = true) :
    (b.compound op).only t = ((b.only t).compound op).detached := by
  cases t with
  | order | paging => cases block
  | _ =>
    simp only [Builder.only, compound, detached, Topic.ofBlock, if_true, List.map_append]
    rfl

theorem only_compound_chain (op : SetOp) (chain : t.ofBlock = false) :
    (b.compound op).only t = b.only t := by
  cases t with
  | order | paging => rfl
  | _ => cases chain

/-- A bundle that concerns a topic sees of a builder what it holds on that. -/
theorem run_concerned (regular : u.Regular) (concerned : t.concerns u = true)
    (same : b.only t = b'.only t) (clean : b.error = none) (clean' : b'.error = none) :
    ((b.run u.calls).error = none ↔ (b'.run u.calls).error = none) ∧
      ((b.run u.calls).error = none → (b.run u.calls).only t = (b'.run u.calls).only t) := by
  rcases regular with ⟨s, topic⟩ | ⟨alone, head | ⟨op, head⟩⟩
  · obtain rfl := (Topic.concerns_of_topic topic).mp concerned
    obtain ⟨errors, takes⟩ := run_bundle topic clean
    obtain ⟨errors', takes'⟩ := run_bundle topic clean'
    rw [← same] at errors' takes'
    refine ⟨errors.trans errors'.symm, fun accepted => ?_⟩
    have accepted' := errors'.mpr (errors.mp accepted)
    rw [(takes accepted).only, (takes' accepted').only, only_taking, only_taking, same]
  · rw [Topic.concerns_of_select head] at concerned
    cases concerned
  · rw [Topic.concerns_of_compound head] at concerned
    rw [run_alone alone, run_alone alone, head]
    refine ⟨iff_of_true clean clean', fun _ => ?_⟩
    show (b.compound op).only t = (b'.compound op).only t
    rw [only_compound_block op concerned, only_compound_block op concerned, same]

/-- Any other bundle leaves alone what there is on the topic. -/
theorem run_unconcerned (regular : u.Regular) (other : ¬ t.concerns u = true)
    (accepted : (b.run u.calls).error = none) : (b.run u.calls).only t = b.only t := by
  rcases regular with ⟨s, topic⟩ | ⟨alone, head | ⟨op, head⟩⟩
  · have different : t ≠ s := fun same => other ((Topic.concerns_of_topic topic).mpr same.symm)
    have takes := (run_bundle topic (error_of_run accepted)).2 accepted
    rw [takes.only, only_taking_ne _ _ different]
  · rw [run_alone alone, head]
    rfl
  · rw [Topic.concerns_of_compound head, Bool.not_eq_true] at other
    rw [run_alone alone, head]
    exact only_compound_chain op other

/-! ### Every run of bundles -/

/-- What a run comes to on a topic depends on the bundles that concern it. -/
theorem runs_filter (t : Topic) (regular : ∀ u ∈ bundles, u.Regular)
    (same : b.only t = b'.only t) (clean : b'.error = none)
    (accepted : (b.runs bundles).error = none) :
    (b'.runs (bundles.filter t.concerns)).error = none ∧
      (b.runs bundles).only t = (b'.runs (bundles.filter t.concerns)).only t := by
  induction bundles generalizing b b' with
  | nil => exact ⟨clean, same⟩
  | cons u rest ih =>
    obtain ⟨here, later⟩ := List.forall_mem_cons.mp regular
    rw [runs_cons] at accepted ⊢
    have first : (b.run u.calls).error = none := error_of_run accepted
    by_cases concerned : t.concerns u = true
    · obtain ⟨errors, views⟩ := run_concerned here concerned same (error_of_run first) clean
      rw [List.filter_cons_of_pos concerned, runs_cons]
      exact ih later (views first) (errors.mp first) accepted
    · rw [List.filter_cons_of_neg concerned]
      exact ih later ((run_unconcerned here concerned first).trans same) clean accepted

/-- A run is accepted if it is accepted topic by topic. -/
theorem accepted_of_topics (regular : ∀ u ∈ bundles, u.Regular) (clean : b.error = none)
    (parts : Topic → Builder) (same : ∀ t, b.only t = (parts t).only t)
    (accepted : ∀ t : Topic, ((parts t).runs (bundles.filter t.concerns)).error = none) :
    (b.runs bundles).error = none := by
  induction bundles generalizing b parts with
  | nil => exact clean
  | cons u rest ih =>
    obtain ⟨here, later⟩ := List.forall_mem_cons.mp regular
    have ahead : ∀ {t : Topic}, t.concerns u = true →
        (((parts t).run u.calls).runs (rest.filter t.concerns)).error = none := by
      intro t concerned
      have all := accepted t
      rwa [List.filter_cons_of_pos concerned, runs_cons] at all
    -- A topic that the bundle concerns tells whether it is accepted.
    have enough : ∀ {t : Topic}, t.concerns u = true → (b.run u.calls).error = none := by
      intro t concerned
      have views := run_concerned here concerned (same t) clean (error_of_run (accepted t))
      exact views.1.mpr (error_of_run (ahead concerned))
    have first : (b.run u.calls).error = none := by
      rcases here with ⟨t, topic⟩ | ⟨alone, head | ⟨op, head⟩⟩
      · exact enough ((Topic.concerns_of_topic topic).mpr rfl)
      · rw [run_alone alone, head]
        exact clean
      · exact enough (t := .distinct) (Topic.concerns_of_compound head)
    rw [runs_cons]
    refine ih later first (fun t => if t.concerns u then (parts t).run u.calls else parts t)
      (fun t => ?_) fun t => ?_
    · by_cases concerned : t.concerns u = true
      · have views := run_concerned here concerned (same t) clean (error_of_run (accepted t))
        simp only [if_pos concerned]
        exact views.2 first
      · simp only [if_neg concerned]
        exact (run_unconcerned here concerned first).trans (same t)
    · by_cases concerned : t.concerns u = true
      · simp only [if_pos concerned]
        exact ahead concerned
      · simp only [if_neg concerned]
        have all := accepted t
        rwa [List.filter_cons_of_neg concerned] at all

end Builder

/-! ### Topics together -/

theorem Block.eq_of_only {b b' : Block Query} (same : ∀ t : Topic, t.ofBlock = true →
    b.only t = b'.only t) : b = b' := by
  have distinct := congrArg Block.distinct (same .distinct rfl)
  have projection := congrArg Block.projection (same .projection rfl)
  have source := congrArg Block.source (same .source rfl)
  have joins := congrArg Block.joins (same .joins rfl)
  have selection := congrArg Block.selection (same .selection rfl)
  have groupBy := congrArg Block.groupBy (same .grouping rfl)
  have having := congrArg Block.having (same .grouping rfl)
  cases b
  cases b'
  simp only [Block.only] at *
  simp [*]

theorem Link.eq_of_only {links links' : List (Link Query)} (same : ∀ t : Topic, t.ofBlock = true →
    links.map (Link.only · t) = links'.map (Link.only · t)) : links = links' := by
  induction links generalizing links' with
  | nil => exact (List.map_eq_nil_iff.mp (same .distinct rfl).symm).symm
  | cons l links ih =>
    cases links' with
    | nil => cases same .distinct rfl
    | cons l' links' =>
      have heads : ∀ t : Topic, t.ofBlock = true → l.only t = l'.only t :=
        fun t block => (List.cons.inj (same t block)).1
      have block : l.block = l'.block :=
        Block.eq_of_only fun t block => congrArg Link.block (heads t block)
      have op : (l.only .distinct).op = (l'.only .distinct).op :=
        congrArg Link.op (heads .distinct rfl)
      rw [ih fun t block => (List.cons.inj (same t block)).2]
      obtain ⟨_, _⟩ := l
      obtain ⟨_, _⟩ := l'
      cases block
      cases op
      rfl

/-- Builders that hold the same on all topics have the same body, and the same kind waits. -/
theorem Builder.eq_of_only {b b' : Builder} (same : ∀ t, b.only t = b'.only t) :
    b.body = b'.body ∧ b.pendingJoin = b'.pendingJoin := by
  have earlier : b.body.earlier = b'.body.earlier := by
    refine Link.eq_of_only fun t block => ?_
    have links := congrArg (·.body.earlier) (same t)
    simpa only [Builder.only, block, if_true] using links
  have current : b.body.current = b'.body.current :=
    Block.eq_of_only fun t _ => congrArg (·.body.current) (same t)
  have orderBy := congrArg (·.body.trailing.orderBy) (same .order)
  have limit := congrArg (·.body.trailing.limit) (same .paging)
  have offset := congrArg (·.body.trailing.offset) (same .paging)
  have joinKind := congrArg Builder.pendingJoin (same .joins)
  refine ⟨?_, joinKind⟩
  obtain ⟨⟨_, _, ⟨_, _, _⟩⟩, _, _, _⟩ := b
  obtain ⟨⟨_, _, ⟨_, _, _⟩⟩, _, _, _⟩ := b'
  simp_all [Builder.only, Trailing.only]

theorem head_ne_all {calls : List Call} (plain : ∀ c ∈ calls, c ≠ .all) :
    ∀ u ∈ bundlesOf calls, u.head ≠ .all := by
  induction calls with
  | nil => exact List.forall_mem_nil _
  | cons c rest ih =>
    obtain ⟨here, later⟩ := List.forall_mem_cons.mp plain
    rw [bundlesOf]
    by_cases refines : c.refines = true
    · rw [dif_pos refines]
      exact ih later
    · rw [dif_neg refines]
      exact List.forall_mem_cons.mpr ⟨here, ih later⟩

/-- A run without an `all` in which nothing is refused may be rearranged: the bundles it falls into,
in any order in which those about one topic stay in theirs and those for a block stay in it, are
accepted as well, and come to the same query. -/
theorem rearranged_runs_build_alike {start : Builder} (idle : start.cursor = .none)
    {calls : List Call} (plain : ∀ c ∈ calls, c ≠ .all)
    (accepted : (start.run calls).error = none) {others : List Bundle}
    (rearranged : Rearranged (bundlesOf calls) others) :
    start.run calls = start.runs (bundlesOf calls) ∧
      (start.runs others).error = none ∧
      (start.runs others).body = (start.run calls).body ∧
      (start.runs others).build = (start.run calls).build := by
  have gathered := start.run_bundlesOf calls
  have noneWaits : waiting calls = [] := by
    have clean : (start.run (waiting calls)).error = none :=
      Builder.error_of_run (gathered ▸ accepted)
    exact Builder.eq_nil_of_idle (by rw [idle]; rfl) (refines_of_waiting calls) clean
  rw [noneWaits] at gathered
  have original : (start.runs (bundlesOf calls)).error = none := gathered ▸ accepted
  have clean : start.error = none := Builder.error_of_run accepted
  have regular := Builder.regular_of_runs (head_ne_all plain) original
  have regular' : ∀ u ∈ others, u.Regular := fun u hu => regular u (rearranged.perm.mem_iff.mpr hu)
  have error : (start.runs others).error = none := by
    refine Builder.accepted_of_topics regular' clean (fun _ => start) (fun t => rfl) fun t => ?_
    rw [← rearranged.order t]
    exact (Builder.runs_filter t regular rfl clean original).1
  have views : ∀ t, (start.runs others).only t = (start.run calls).only t := by
    intro t
    rw [(Builder.runs_filter t regular' rfl clean error).2, ← rearranged.order t,
      ← (Builder.runs_filter t regular rfl clean original).2, gathered]
    rfl
  obtain ⟨body, joinKind⟩ := Builder.eq_of_only views
  refine ⟨gathered, error, body, ?_⟩
  simp only [Builder.build, error, accepted, body, joinKind]

/-- Two blocks, and an order between them. -/
def orderedCalls : List Call :=
  [.readFrom (.table "a"), .columns ["x"], .distinct, .aliasAs "y", .orderBy (.text "x"),
    .direct .desc, .compound .union, .readFrom (.table "b"), .filter (.text "z = ?") [⟨"1"⟩]]

/-- The clauses of the first block are turned around, and the order comes last. -/
def reorderedCalls : List Call :=
  [.distinct, .columns ["x"], .aliasAs "y", .readFrom (.table "a"), .compound .union,
    .readFrom (.table "b"), .filter (.text "z = ?") [⟨"1"⟩], .orderBy (.text "x"), .direct .desc]

/-- What both runs come to. -/
def orderedQuery : Query :=
  .mk {
    earlier := [{
      block := {
        distinct := true
        projection := [.expr (.column none "x") (some "y")]
        source := some { source := .table "a" } }
      op := .union }]
    current := {
      source := some { source := .table "b" }
      selection := [.raw "z = ?" [⟨"1"⟩]] }
    trailing := { orderBy := [{ expr := .raw "x" [], direction := some .desc }] } }

theorem rearranged_runs_build_alike_reordered :
    (Builder.run {} reorderedCalls).error = none ∧
      (Builder.run {} orderedCalls).build = .ok orderedQuery ∧
      (Builder.run {} reorderedCalls).build = .ok orderedQuery ∧
      orderedQuery.statement.sql =
        "SELECT DISTINCT x AS y FROM a UNION SELECT * FROM b WHERE (z = ?) ORDER BY x DESC" ∧
      orderedQuery.statement.args = ["1"] := by
  have rearranged : Rearranged (bundlesOf orderedCalls) (bundlesOf reorderedCalls) := by
    refine ⟨?_, fun t => by cases t <;> rfl⟩
    show ((bundlesOf orderedCalls).take 3 ++
        (((bundlesOf orderedCalls).drop 3).take 1 ++ (bundlesOf orderedCalls).drop 4)).Perm
      (((bundlesOf orderedCalls).take 3).reverse ++
        ((bundlesOf orderedCalls).drop 4 ++ ((bundlesOf orderedCalls).drop 3).take 1))
    exact (List.reverse_perm _).symm.append List.perm_append_comm
  have plain : ∀ c ∈ orderedCalls, c ≠ .all := by simp [orderedCalls]
  have idle : ({} : Builder).cursor = .none := rfl
  have accepted : (Builder.run {} orderedCalls).error = none := rfl
  have built : (Builder.run {} orderedCalls).build = .ok orderedQuery := rfl
  obtain ⟨_, error, _, build⟩ := rearranged_runs_build_alike idle plain accepted rearranged
  exact ⟨error, built, build.trans built, rfl, rfl⟩

end SqlSelect
