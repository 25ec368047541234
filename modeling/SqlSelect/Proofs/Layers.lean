import SqlSelect.Execution.Layer

/-! Layers of instrumentation observe, and do nothing else.

Who is told what, and when, is written down as a list of `Telling`s: the leaves of the hooks that
were given, in the order they were given, and the leaves of the monitor. All of it is read off the
settings of a layer: the monitor, the tag, the threshold and whether monitoring is on are what was
said last (`foldl_set_eq`), and of the tree of composites that the hooks become, only the leaves are
told (`leaves_hook_setUp`), both by induction on the settings. What a leaf shows depends on its kind
(`Telling.observed`).

One layer puts its `opening` before the trace of what is below it and its `closing` behind
(`observed_around`), so a stack of layers opens from the outside to the inside and closes the other
way round, by induction on the stack. The main statement is `layers_only_observe`. -/
namespace SqlSelect.Execution

/-! ### Setting up a layer -/

inductive Setting where
  | withConfig (config : Config)
  | withMonitor (monitor : Monitor)
  | withHook (hook : Hook)
  | addHook (hook : Hook)
  | withTag (tag : String)
  | monitoring (enabled : Bool)

def Layer.set (l : Layer) : Setting → Layer
  | .withConfig config => l.withConfig config
  | .withMonitor monitor => l.withMonitor monitor
  | .withHook hook => l.withHook hook
  | .addHook hook => l.addHook hook
  | .withTag tag => l.withTag tag
  | .monitoring enabled => l.monitoring enabled

/-- A new layer, set up one setting after the other. -/
def setUp (settings : List Setting) : Layer := settings.foldl Layer.set {}

/-! ### What the settings give -/

/-- What the last of the settings that say something says. -/
def lastSaid {α : Type} (about : Setting → Option α) (settings : List Setting) : Option α :=
  (settings.filterMap about).getLast?

def Setting.monitor? : Setting → Option Monitor
  | .withMonitor monitor => some monitor
  | _ => none

def Setting.threshold? : Setting → Option (Option Nat)
  | .withConfig config => some config.threshold
  | _ => none

/-- A configuration says whether monitoring is on, and so does the switch for it. -/
def Setting.enabled? : Setting → Option Bool
  | .withConfig config => some config.enabled
  | .monitoring enabled => some enabled
  | _ => none

def Setting.tag? : Setting → Option (Option String)
  | .withTag tag => some (some tag)
  | _ => none

def monitorGiven (settings : List Setting) : Monitor :=
  (lastSaid Setting.monitor? settings).getD .silent

def thresholdGiven (settings : List Setting) : Option Nat :=
  (lastSaid Setting.threshold? settings).getD none

/-- Monitoring is off until it is switched on. -/
def monitored (settings : List Setting) : Bool := (lastSaid Setting.enabled? settings).getD false

def tagGiven (settings : List Setting) : Option String :=
  (lastSaid Setting.tag? settings).getD none

/-- What is told of a statement. -/
def contextGiven (s : Statement) (settings : List Setting) : Context where
  sql := s.sql
  argCount := s.args.length
  tag := tagGiven settings

theorem lastSaid_cons {α : Type} (about : Setting → Option α) (setting : Setting)
    (settings : List Setting) :
    lastSaid about (setting :: settings) = (lastSaid about settings).or (about setting) := by
  rw [lastSaid, lastSaid]
  cases said : about setting with
  | none => rw [List.filterMap_cons_none said, Option.or_none]
  | some value =>
    rw [List.filterMap_cons_some said, List.getLast?_cons]
    cases (settings.filterMap about).getLast? <;> rfl

/-- A field that each setting either leaves as it is or sets to what it says comes to what was said
last. -/
theorem foldl_set_eq {α : Type} (field : Layer → α) (about : Setting → Option α)
    (each : ∀ (l : Layer) (setting : Setting),
      field (l.set setting) = (about setting).getD (field l))
    (l : Layer) (settings : List Setting) :
    field (settings.foldl Layer.set l) = (lastSaid about settings).getD (field l) := by
  induction settings generalizing l with
  | nil => rfl
  | cons setting rest ih =>
    rw [List.foldl_cons, ih, each, lastSaid_cons]
    cases lastSaid about rest <;> rfl

section Given
variable (settings : List Setting)

theorem monitor_setUp : (setUp settings).monitor = monitorGiven settings :=
  foldl_set_eq Layer.monitor Setting.monitor? (fun l setting => by cases setting <;> rfl) {} settings

theorem threshold_setUp : (setUp settings).config.threshold = thresholdGiven settings :=
  foldl_set_eq (fun l => l.config.threshold) Setting.threshold?
    (fun l setting => by cases setting <;> rfl) {} settings

theorem enabled_setUp : (setUp settings).config.enabled = monitored settings :=
  foldl_set_eq (fun l => l.config.enabled) Setting.enabled?
    (fun l setting => by cases setting <;> rfl) {} settings

theorem context_setUp (s : Statement) : (setUp settings).context s = contextGiven s settings := by
  have tag : (setUp settings).tag = tagGiven settings :=
    foldl_set_eq Layer.tag Setting.tag? (fun l setting => by cases setting <;> rfl) {} settings
  rw [Layer.context, tag, contextGiven]

end Given

/-- The hooks that count after one more setting. -/
def Setting.giving (given : List Hook) : Setting → List Hook
  | .withHook hook => [hook]
  | .addHook hook => given ++ [hook]
  | _ => given

/-- The hooks that were given and not replaced, in the order they were given. -/
def hooksGiven (settings : List Setting) : List Hook := settings.foldl Setting.giving []

section Hooks
variable {l : Layer} {given : List Hook}

theorem leaves_hook_set (h : l.hook.toList.flatMap Hook.leaves = given.flatMap Hook.leaves)
    (setting : Setting) :
    (l.set setting).hook.toList.flatMap Hook.leaves =
      (setting.giving given).flatMap Hook.leaves := by
  cases setting with
  | withConfig | withMonitor | withTag | monitoring => exact h
  | withHook hook => rfl
  | addHook hook =>
    have one : given.flatMap Hook.leaves ++ hook.leaves =
        (Setting.giving given (.addHook hook)).flatMap Hook.leaves := by simp [Setting.giving]
    rw [← one, ← h]
    cases first : l.hook with
    | none => simp [Layer.set, Layer.addHook, first]
    | some _ => simp [Layer.set, Layer.addHook, first, Hook.leaves, Hook.leavesOfAll]

/-- However the hooks of a layer were composed, its leaves are those of the hooks given to it. -/
theorem leaves_hook_setUp (settings : List Setting) :
    (setUp settings).hook.toList.flatMap Hook.leaves =
      (hooksGiven settings).flatMap Hook.leaves := by
  suffices ∀ l given, l.hook.toList.flatMap Hook.leaves = given.flatMap Hook.leaves →
      (settings.foldl Layer.set l).hook.toList.flatMap Hook.leaves =
        (settings.foldl Setting.giving given).flatMap Hook.leaves from this {} [] rfl
  induction settings with
  | nil => exact fun _ _ h => h
  | cons setting rest ih => exact fun l given h => ih _ _ (leaves_hook_set h setting)

example : (setUp [.addHook (.observer "replaced"), .withHook (.observer "a"),
    .addHook (.all [.observer "b", .quiet]), .addHook (.observer "c")]).hook.toList.flatMap
      Hook.leaves = [.observer "a", .observer "b", .quiet, .observer "c"] := rfl

end Hooks

/-! ### Who is told what -/

/-- A hook or a monitor, and the notice it gets. -/
inductive Telling where
  | hook (leaf : Hook) (notice : HookNotice)
  | monitor (leaf : Monitor) (notice : MonitorNotice)

/-- The one event that a log writes for a notice: ahead of a statement at the severity of the log,
and behind it a warning if the statement failed. -/
def LogHook.event? (h : LogHook) : HookNotice → Option LogEvent
  | .before ctx => some {
      severity := h.severity
      target := "fluentsql.sql"
      fields := [("tag", ctx.tag.getD "-"), ("arg_count", Nat.repr ctx.argCount),
        ("sql", h.shortened ctx.sql), ("fields", ctx.fieldsText)] }
  | .after ctx elapsed outcome => outcome.message?.map fun message => {
      severity := .warn
      target := "fluentsql.sql"
      fields := [("message", "query failed"), ("tag", ctx.tag.getD "-"),
        ("elapsed_ms", Nat.repr (elapsed / 1000000 % UInt64.size)), ("error", message)] }

theorem LogHook.events_eq (h : LogHook) (notice : HookNotice) :
    h.events notice = (h.event? notice).toList := by
  cases notice with
  | before ctx => rfl
  | after ctx elapsed outcome => cases outcome <;> rfl

/-- What each kind of leaf shows of what it is told. A composite passes on what it is told, and
shows nothing of its own. -/
def Telling.observed : Telling → List Observation
  | .hook .quiet _ => []
  | .hook (.observer id) notice => [.hook id notice]
  | .hook (.log h) notice => (h.event? notice).toList.map .log
  | .hook (.all _) _ => []
  | .monitor .silent _ => []
  | .monitor (.stats id) notice => [.counted id notice]
  | .monitor (.observer id) notice => [.monitor id notice]
  | .monitor (.all _) _ => []

/-- The hooks are told in the order they were given, and composites from their first leaf to their
last one. -/
def hooksTold (settings : List Setting) (notice : HookNotice) : List Telling :=
  ((hooksGiven settings).flatMap Hook.leaves).map fun leaf => .hook leaf notice

def monitorsTold (settings : List Setting) (notice : MonitorNotice) : List Telling :=
  (monitorGiven settings).leaves.map fun leaf => .monitor leaf notice

/-- What a layer tells before the statement goes further down. -/
def opening (s : Statement) (settings : List Setting) : List Telling :=
  let ctx := contextGiven s settings
  hooksTold settings (.before ctx) ++
    if monitored settings then monitorsTold settings (.started ctx) else []

/-- What a layer tells when the statement has run, which took `elapsed` by its clock. -/
def closing (s : Statement) (outcome : Outcome) (settings : List Setting) (elapsed : Nat) :
    List Telling :=
  let ctx := contextGiven s settings
  let slow := (thresholdGiven settings).any fun threshold => threshold < elapsed
  hooksTold settings (.after ctx elapsed outcome) ++
    if monitored settings then
      monitorsTold settings (.completed ctx elapsed outcome) ++
        if slow then monitorsTold settings (.slow ctx elapsed) else []
    else []

mutual

/-- Of a hook is observed what its leaves show, one after the other. -/
theorem Hook.observations_eq (notice : HookNotice) :
    (h : Hook) → h.observations notice =
      h.leaves.flatMap fun leaf => (Telling.hook leaf notice).observed
  | .quiet => rfl
  | .observer _ => rfl
  | .log hook => by simp [leaves, observations, Telling.observed, hook.events_eq]
  | .all hooks => by
    rw [observations, leaves]
    exact observationsOfHooks_eq notice hooks

private theorem Hook.observationsOfHooks_eq (notice : HookNotice) :
    (hs : List Hook) → observationsOfAll notice hs =
      (leavesOfAll hs).flatMap fun leaf => (Telling.hook leaf notice).observed
  | [] => rfl
  | h :: hs => by
    rw [observationsOfAll, leavesOfAll, List.flatMap_append, h.observations_eq notice,
      observationsOfHooks_eq notice hs]

end

mutual

/-- Of a monitor is observed what its leaves show, one after the other. -/
theorem Monitor.observations_eq (notice : MonitorNotice) :
    (m : Monitor) → m.observations notice =
      m.leaves.flatMap fun leaf => (Telling.monitor leaf notice).observed
  | .silent => rfl
  | .stats _ => rfl
  | .observer _ => rfl
  | .all monitors => by
    rw [observations, leaves]
    exact observationsOfMonitors_eq notice monitors

private theorem Monitor.observationsOfMonitors_eq (notice : MonitorNotice) :
    (ms : List Monitor) → observationsOfAll notice ms =
      (leavesOfAll ms).flatMap fun leaf => (Telling.monitor leaf notice).observed
  | [] => rfl
  | m :: ms => by
    rw [observationsOfAll, leavesOfAll, List.flatMap_append, m.observations_eq notice,
      observationsOfMonitors_eq notice ms]

end

section Told
variable (settings : List Setting)

theorem tellHook_setUp (notice : HookNotice) :
    (setUp settings).tellHook notice = (hooksTold settings notice).flatMap Telling.observed := by
  have leaves : (setUp settings).tellHook notice =
      ((setUp settings).hook.toList.flatMap Hook.leaves).flatMap fun leaf =>
        (Telling.hook leaf notice).observed := by
    rw [Layer.tellHook, List.flatMap_assoc]
    simp only [← Hook.observations_eq]
  rw [leaves, leaves_hook_setUp, hooksTold, List.flatMap_map]

theorem tellMonitor_setUp (notice : MonitorNotice) :
    (setUp settings).tellMonitor notice = (if monitored settings then
      monitorsTold settings notice else []).flatMap Telling.observed := by
  rw [Layer.tellMonitor, enabled_setUp, monitor_setUp]
  split
  · rw [monitorsTold, List.flatMap_map, Monitor.observations_eq]
  · rfl

theorem isSlow_setUp (elapsed : Nat) :
    (setUp settings).config.isSlow elapsed =
      (thresholdGiven settings).any fun threshold => threshold < elapsed := by
  rw [Config.isSlow, threshold_setUp]
  cases thresholdGiven settings <;> rfl

end Told

/-! ### What reaches the database -/

def Observation.statement? : Observation → Option Statement
  | .statement s => some s
  | _ => none

/-- The statements that reached the database, in order. -/
def statements (observed : List Observation) : List Statement :=
  observed.filterMap Observation.statement?

/-- An executor that answers alike, and of which only what it is asked for can be observed. -/
def noting {ρ ε : Type} (inner : Executor ρ ε) : Executor ρ ε :=
  fun s => ⟨[.statement s], (inner s).result⟩

theorem statements_append (before after : List Observation) :
    statements (before ++ after) = statements before ++ statements after :=
  List.filterMap_append

/-- No leaf sends anything to the database. -/
theorem statements_observed (t : Telling) : statements t.observed = [] := by
  cases t with
  | hook leaf notice =>
    cases leaf with
    | log hook =>
      rw [Telling.observed, statements, List.filterMap_map]
      exact List.filterMap_eq_nil_iff.mpr fun _ _ => rfl
    | quiet | observer | all => rfl
  | monitor leaf notice => cases leaf <;> rfl

/-- Telling hooks and monitors sends nothing to the database. -/
theorem statements_told (told : List Telling) :
    statements (told.flatMap Telling.observed) = [] := by
  induction told with
  | nil => rfl
  | cons t rest ih =>
    rw [List.flatMap_cons, statements_append, ih, List.append_nil, statements_observed]

/-! ### One layer, and a stack of them -/

section Stack
variable {ρ ε : Type} (describe : ε → String)

/-- A layer tells nothing between its opening and its closing but what is told below it. -/
theorem observed_around (settings : List Setting) (elapsed : Nat) (below : Executor ρ ε)
    (s : Statement) :
    ((setUp settings).around describe elapsed below s).observed =
      (opening s settings).flatMap Telling.observed ++ (below s).observed ++
        (closing s (Layer.outcome describe (below s).result) settings elapsed).flatMap
          Telling.observed := by
  rw [Layer.around, context_setUp, tellHook_setUp, tellHook_setUp, tellMonitor_setUp,
    tellMonitor_setUp, tellMonitor_setUp, isSlow_setUp, opening, closing]
  cases monitored settings with
  | false => simp
  | true =>
    cases (thresholdGiven settings).any fun threshold => decide (threshold < elapsed) with
    | false => simp
    | true => simp

/-- An executor behind layers, the outermost first, each set up by its settings and with what its
clock measures. -/
def instrumented (stack : List (List Setting × Nat)) (inner : Executor ρ ε) : Executor ρ ε :=
  layered describe (stack.map fun (settings, elapsed) => (setUp settings, elapsed)) inner

theorem instrumented_cons (settings : List Setting) (elapsed : Nat)
    (stack : List (List Setting × Nat)) (inner : Executor ρ ε) :
    instrumented describe ((settings, elapsed) :: stack) inner =
      (setUp settings).around describe elapsed (instrumented describe stack inner) := rfl

theorem result_instrumented (stack : List (List Setting × Nat)) (inner : Executor ρ ε)
    (s : Statement) : (instrumented describe stack inner s).result = (inner s).result := by
  induction stack with
  | nil => rfl
  | cons layer rest ih => exact ih

/-- The layers open from the outside to the inside, and close from the inside to the outside. -/
theorem observed_instrumented (stack : List (List Setting × Nat)) (inner : Executor ρ ε)
    (s : Statement) :
    (instrumented describe stack inner s).observed =
      (stack.flatMap fun (settings, _) => opening s settings).flatMap Telling.observed ++
        (inner s).observed ++
        (stack.reverse.flatMap fun (settings, elapsed) =>
          closing s (Layer.outcome describe (inner s).result) settings elapsed).flatMap
            Telling.observed := by
  induction stack with
  | nil => simp [instrumented, layered]
  | cons layer rest ih =>
    obtain ⟨settings, elapsed⟩ := layer
    rw [instrumented_cons, observed_around, result_instrumented, ih, List.reverse_cons,
      List.flatMap_append, List.flatMap_append, List.flatMap_cons, List.flatMap_append]
    simp only [List.flatMap_cons, List.flatMap_nil, List.append_nil, List.append_assoc]

theorem isError_outcome (result : Except ε ρ) :
    (Layer.outcome describe result).isError = true ↔ ∃ e, result = .error e := by
  cases result <;> simp [Layer.outcome, Outcome.ofError, Outcome.isError]

/-- What a run behind a stack of layers is, by the run it is around: the same result, the same
statements, and what the layers tell before and after it. The outcome they tell of is an error just
when the result is one. -/
structure Watched (stack : List (List Setting × Nat)) (s : Statement) (below ran : Run ρ ε) :
    Prop where
  result : ran.result = below.result
  statements : statements ran.observed = statements below.observed
  observed : ran.observed =
    (stack.flatMap fun (settings, _) => opening s settings).flatMap Telling.observed ++
      below.observed ++
      (stack.reverse.flatMap fun (settings, elapsed) =>
        closing s (Layer.outcome describe below.result) settings elapsed).flatMap Telling.observed
  outcome : (Layer.outcome describe below.result).isError = true ↔ ∃ e, below.result = .error e

end Stack

/-- Whatever layers are around an executor, it is asked once, for the statement that was given, and
its result is passed on. Before that each layer tells its hooks, in the order they were given, and
its monitors if monitoring is on there, the outer layers first. After it each layer tells them of
the outcome, the inner layers first, and the monitors once more if the statement was slow. The same
holds when a query is performed, behind the one event that is logged for that. -/
theorem layers_only_observe {ρ ε : Type} (describe : ε → String)
    (stack : List (List Setting × Nat)) (inner : Executor ρ ε) :
    (∀ s, Watched describe stack s (inner s) (instrumented describe stack inner s)) ∧
    (∀ s, statements (instrumented describe stack (noting inner) s).observed = [s]) ∧
    ∀ q : Query, ∃ ran : Run ρ ε, Watched describe stack q.statement (inner q.statement) ran ∧
      q.perform (instrumented describe stack inner) =
        ⟨.log (performEvent q.statement) :: ran.observed, ran.result⟩ := by
  have watched (inner : Executor ρ ε) (s : Statement) :
      Watched describe stack s (inner s) (instrumented describe stack inner s) := by
    have observed := observed_instrumented describe stack inner s
    refine ⟨result_instrumented describe stack inner s, ?_, observed, isError_outcome describe _⟩
    rw [observed, statements_append, statements_append, statements_told, statements_told,
      List.append_nil, List.nil_append]
  refine ⟨watched inner, fun s => (watched (noting inner) s).statements, fun q => ?_⟩
  exact ⟨_, watched inner q.statement, rfl⟩

end SqlSelect.Execution
