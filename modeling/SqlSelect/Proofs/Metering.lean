import SqlSelect.Execution.Stats
import Mathlib.Algebra.GroupWithZero.Nat
import Mathlib.Data.List.DropRight
import Mathlib.Data.List.MinMax

/-! What a meter shows.

A meter is told of notices and resets. What it shows is a summary of the notices behind the last
reset (`Stats.Sums`), read off all of them at once: the counts modulo the number of words, the
times in nanoseconds added up exactly and then cut down to the largest word. The meter itself adds
word by word and mends a sum that wrapped, so one step is where the two meet (`addTime_toNat`), and
the invariant `Meter.Tracks` carries the summary and the slowest statement along a run. The main
statements are `statistics_sum_up` and `slowest_comes_first`. -/
namespace SqlSelect.Execution

/-! ### Runs of a meter -/

/-- A completed statement. -/
structure Completion where
  ctx : Context
  elapsed : Nat
  outcome : Outcome

def MonitorNotice.completion? : MonitorNotice → Option Completion
  | .completed ctx elapsed outcome => some ⟨ctx, elapsed, outcome⟩
  | _ => none

def MonitorNotice.isSlow : MonitorNotice → Bool
  | .slow .. => true
  | _ => false

/-- The completed statements among the notices, in order. -/
def completions (notices : List MonitorNotice) : List Completion :=
  notices.filterMap MonitorNotice.completion?

theorem completions_append (notices more : List MonitorNotice) :
    completions (notices ++ more) = completions notices ++ completions more :=
  List.filterMap_append

namespace Meter

/-- What happens to a meter. -/
inductive Event where
  | told (notice : MonitorNotice)
  | reset

def Event.notice? : Event → Option MonitorNotice
  | .told notice => some notice
  | .reset => none

def handle (m : Meter) : Event → Meter
  | .told notice => m.next notice
  | .reset => m.reset

/-- A new meter after these events. -/
def run (events : List Event) : Meter := events.foldl handle {}

/-- The notices behind the last reset, all of them if there was none. -/
def sinceReset (events : List Event) : List MonitorNotice :=
  (events.rtakeWhile fun e => e.notice?.isSome).filterMap Event.notice?

theorem run_concat (events : List Event) (e : Event) :
    run (events ++ [e]) = (run events).handle e := by
  rw [run, List.foldl_append]
  rfl

theorem sinceReset_told (events : List Event) (notice : MonitorNotice) :
    sinceReset (events ++ [.told notice]) = sinceReset events ++ [notice] := by
  rw [sinceReset, List.rtakeWhile_concat_pos _ _ _ rfl, List.filterMap_append]
  rfl

theorem sinceReset_reset (events : List Event) : sinceReset (events ++ [.reset]) = [] := by
  rw [sinceReset, List.rtakeWhile_concat_neg _ _ _ (by simp [Event.notice?])]
  rfl

theorem sinceReset_told_all (events : List Event) (notices : List MonitorNotice) :
    sinceReset (events ++ notices.map .told) = sinceReset events ++ notices := by
  induction notices generalizing events with
  | nil => simp
  | cons notice notices ih =>
    rw [List.map_cons, List.append_cons, ih, sinceReset_told, ← List.append_cons]

end Meter

/-! ### Words -/

namespace Meter

theorem ceiling_toNat : ceiling.toNat = UInt64.size - 1 := rfl

theorem capped_toNat (nanos : Nat) : (capped nanos).toNat = min nanos (UInt64.size - 1) := by
  by_cases fits : nanos < UInt64.size
  · rw [capped, if_pos fits, UInt64.toNat_ofNat_of_lt' fits]
    omega
  · rw [capped, if_neg fits, ceiling_toNat]
    omega

/-- The total after an addition is the exact sum, or the largest word where the sum is larger. -/
theorem addTime_toNat (m : Meter) (nanos : UInt64) :
    (m.addTime nanos).totalNanos.toNat =
      min (m.totalNanos.toNat + nanos.toNat) (UInt64.size - 1) := by
  by_cases fits : m.totalNanos.toNat + nanos.toNat < UInt64.size
  · have kept : m.addTime nanos = { m with totalNanos := m.totalNanos + nanos } := by
      simp [addTime, checkedSum?, fits]
    have exact : (m.totalNanos + nanos).toNat = m.totalNanos.toNat + nanos.toNat :=
      (UInt64.toNat_add ..).trans (Nat.mod_eq_of_lt fits)
    rw [kept, exact]
    omega
  · have mended : (m.addTime nanos).totalNanos = ceiling := by
      simp [addTime, checkedSum?, fits]
    rw [mended, ceiling_toNat]
    omega

theorem toNat_succ (word : UInt64) : (word + 1).toNat = (word.toNat + 1) % UInt64.size :=
  UInt64.toNat_add word 1

theorem larger_toNat (a b : UInt64) : (if a < b then b else a).toNat = max a.toNat b.toNat := by
  by_cases more : a < b
  · rw [if_pos more]
    exact (Nat.max_eq_right (UInt64.lt_iff_toNat_lt.mp more).le).symm
  · rw [if_neg more]
    exact (Nat.max_eq_left (UInt64.not_lt.mp more)).symm

/-- What one completed statement does to each word. -/
theorem complete_eq (m : Meter) (ctx : Context) (elapsed : Nat) (outcome : Outcome) :
    m.complete ctx elapsed outcome =
      { total := m.total + 1
        failed := if outcome.isError then m.failed + 1 else m.failed
        slow := m.slow
        totalNanos := (m.addTime (capped elapsed)).totalNanos
        maxNanos := if m.maxNanos < capped elapsed then capped elapsed else m.maxNanos
        slowest := if m.maxNanos < capped elapsed then some ctx.sql else m.slowest } := by
  by_cases fits : (checkedSum? m.totalNanos (capped elapsed)).isNone <;>
    by_cases error : outcome.isError <;>
    by_cases more : m.maxNanos < capped elapsed <;>
    simp [complete, addTime, countFailure, raise, fits, error, more]

end Meter

/-! ### The summary of the notices -/

/-- The exact time that all the statements took together. -/
def totalTime (runs : List Completion) : Nat := (runs.map Completion.elapsed).sum

/-- The exact time of a statement that took longest. -/
def longestTime (runs : List Completion) : Nat := (runs.map Completion.elapsed).foldr max 0

theorem totalTime_append (runs more : List Completion) :
    totalTime (runs ++ more) = totalTime runs + totalTime more := by
  rw [totalTime, List.map_append, List.sum_append]
  rfl

theorem longestTime_concat (runs : List Completion) (r : Completion) :
    longestTime (runs ++ [r]) = max (longestTime runs) r.elapsed := by
  rw [longestTime, List.map_append, List.foldr_append]
  show (runs.map Completion.elapsed).foldr max (max r.elapsed 0) = _
  rw [Nat.max_comm, List.foldr_assoc]
  rfl

theorem elapsed_le_longestTime {runs : List Completion} {r : Completion} (h : r ∈ runs) :
    r.elapsed ≤ longestTime runs :=
  List.le_max_of_le' 0 (List.mem_map_of_mem h) (Nat.le_refl _)

/-- The statistics sum up these notices. Counts are kept modulo the number of words, times are cut
down to the largest word. -/
structure Stats.Sums (s : Stats) (notices : List MonitorNotice) : Prop where
  total : s.total.toNat = (completions notices).length % UInt64.size
  failed : s.failed.toNat = (completions notices).countP (·.outcome.isError) % UInt64.size
  slow : s.slow.toNat = notices.countP MonitorNotice.isSlow % UInt64.size
  totalNanos : s.totalNanos = min (totalTime (completions notices)) (UInt64.size - 1)
  maxNanos : s.maxNanos = min (longestTime (completions notices)) (UInt64.size - 1)

namespace Meter
variable {m : Meter} {notices : List MonitorNotice}

/-- One more completed statement enters the counts and the times. -/
theorem sums_completed (h : m.stats.Sums notices) (ctx : Context) (elapsed : Nat)
    (outcome : Outcome) :
    (m.complete ctx elapsed outcome).stats.Sums (notices ++ [.completed ctx elapsed outcome]) := by
  have runs : completions (notices ++ [.completed ctx elapsed outcome]) =
      completions notices ++ [⟨ctx, elapsed, outcome⟩] := completions_append ..
  have total : m.total.toNat = _ := h.total
  have failed : m.failed.toNat = _ := h.failed
  have slow : m.slow.toNat = _ := h.slow
  have summed : m.totalNanos.toNat = _ := h.totalNanos
  have longest : m.maxNanos.toNat = _ := h.maxNanos
  rw [complete_eq]
  refine ⟨?total, ?failed, ?slow, ?totalNanos, ?maxNanos⟩
  case total =>
    show (m.total + 1).toNat = _
    rw [toNat_succ, total, runs, List.length_append, Nat.mod_add_mod]
    rfl
  case failed =>
    rw [runs, List.countP_append, List.countP_singleton]
    cases error : outcome.isError with
    | false => simpa [stats] using failed
    | true =>
      show (m.failed + 1).toNat = _
      rw [toNat_succ, failed, Nat.mod_add_mod]
      rfl
  case slow =>
    rw [List.countP_append]
    exact slow
  case totalNanos =>
    show (m.addTime (capped elapsed)).totalNanos.toNat = _
    have added : totalTime [⟨ctx, elapsed, outcome⟩] = elapsed := rfl
    rw [addTime_toNat, capped_toNat, summed, runs, totalTime_append, added]
    omega
  case maxNanos =>
    show (if m.maxNanos < capped elapsed then capped elapsed else m.maxNanos).toNat = _
    rw [larger_toNat, capped_toNat, longest, runs, longestTime_concat]
    show _ = min (max (longestTime (completions notices)) elapsed) (UInt64.size - 1)
    omega

/-- One more notice enters the summary. -/
theorem sums_next (h : m.stats.Sums notices) (notice : MonitorNotice) :
    (m.next notice).stats.Sums (notices ++ [notice]) := by
  cases notice with
  | started ctx =>
    have runs : completions (notices ++ [.started ctx]) = completions notices := by
      simp [completions, MonitorNotice.completion?]
    have counted : (notices ++ [MonitorNotice.started ctx]).countP MonitorNotice.isSlow =
        notices.countP MonitorNotice.isSlow := List.countP_append
    exact ⟨runs ▸ h.total, runs ▸ h.failed, counted ▸ h.slow, runs ▸ h.totalNanos,
      runs ▸ h.maxNanos⟩
  | completed ctx elapsed outcome => exact sums_completed h ctx elapsed outcome
  | slow ctx elapsed =>
    have runs : completions (notices ++ [.slow ctx elapsed]) = completions notices := by
      simp [completions, MonitorNotice.completion?]
    have slow : m.slow.toNat = _ := h.slow
    refine ⟨runs ▸ h.total, runs ▸ h.failed, ?_, runs ▸ h.totalNanos, runs ▸ h.maxNanos⟩
    show (m.slow + 1).toNat = _
    rw [toNat_succ, slow, List.countP_append, Nat.mod_add_mod]
    rfl

end Meter

/-! ### The slowest statement -/

/-- The time a statement took, as far as a word holds it. -/
def Completion.nanos (r : Completion) : Nat := min r.elapsed (UInt64.size - 1)

/-- The statement took longest by this time, and it is the first that did: those before it took
less, and those behind it no more. -/
def FirstSlowest (time : Completion → Nat) (runs : List Completion) (r : Completion) : Prop :=
  ∃ before after, runs = before ++ r :: after ∧
    (∀ other ∈ before, time other < time r) ∧ ∀ other ∈ after, time other ≤ time r

namespace FirstSlowest
variable {time : Completion → Nat} {runs : List Completion} {r next : Completion}

theorem mem (h : FirstSlowest time runs r) : r ∈ runs := by
  obtain ⟨before, after, rfl, _, _⟩ := h
  simp

/-- None took longer. -/
theorem le (h : FirstSlowest time runs r) {other : Completion} (there : other ∈ runs) :
    time other ≤ time r := by
  obtain ⟨before, after, rfl, less, notMore⟩ := h
  rcases List.mem_append.mp there with earlier | there
  · exact (less other earlier).le
  · rcases List.mem_cons.mp there with rfl | later
    · exact Nat.le_refl _
    · exact notMore other later

/-- A statement that took longer than all before it comes to the front. -/
theorem new (more : ∀ other ∈ runs, time other < time next) :
    FirstSlowest time (runs ++ [next]) next :=
  ⟨runs, [], rfl, more, fun _ none => by cases none⟩

/-- A statement that took no longer leaves the slowest as it was. -/
theorem kept (h : FirstSlowest time runs r) (noMore : time next ≤ time r) :
    FirstSlowest time (runs ++ [next]) r := by
  obtain ⟨before, after, rfl, less, notMore⟩ := h
  refine ⟨before, after ++ [next], by simp, less, fun other there => ?_⟩
  rcases List.mem_append.mp there with earlier | last
  · exact notMore other earlier
  · rw [List.mem_singleton.mp last]
    exact noMore

end FirstSlowest

/-- A meter that is up to date with these notices. The slowest statement has the time of the
maximum; while the maximum is zero, none is known. -/
structure Meter.Tracks (m : Meter) (notices : List MonitorNotice) : Prop where
  sums : m.stats.Sums notices
  unknown : completions notices = [] → m.slowest = none
  known : 0 < m.maxNanos.toNat → ∃ r, FirstSlowest Completion.nanos (completions notices) r ∧
    m.slowest = some r.ctx.sql ∧ r.nanos = m.maxNanos.toNat

namespace Meter
variable {m : Meter} {notices : List MonitorNotice}

/-- No statement took longer than the maximum says, as far as a word holds it. -/
theorem Tracks.nanos_le (h : m.Tracks notices) {r : Completion} (there : r ∈ completions notices) :
    r.nanos ≤ m.maxNanos.toNat := by
  have longest : m.maxNanos.toNat = _ := h.sums.maxNanos
  have below := elapsed_le_longestTime there
  rw [longest, Completion.nanos]
  omega

theorem Tracks.empty : Tracks {} [] where
  sums := ⟨rfl, rfl, rfl, rfl, rfl⟩
  unknown _ := rfl
  known more := absurd more (by decide)

theorem Tracks.completed (h : m.Tracks notices) (ctx : Context) (elapsed : Nat)
    (outcome : Outcome) :
    (m.complete ctx elapsed outcome).Tracks (notices ++ [.completed ctx elapsed outcome]) := by
  have runs : completions (notices ++ [.completed ctx elapsed outcome]) =
      completions notices ++ [⟨ctx, elapsed, outcome⟩] := completions_append ..
  have time : (⟨ctx, elapsed, outcome⟩ : Completion).nanos = (capped elapsed).toNat :=
    (capped_toNat elapsed).symm
  refine ⟨sums_completed h.sums ctx elapsed outcome, fun none => by simp [runs] at none, ?_⟩
  rw [runs, complete_eq]
  -- The maximum and the SQL change together or not at all.
  by_cases more : m.maxNanos < capped elapsed
  · intro _
    simp only [if_pos more]
    refine ⟨_, .new fun other there => ?_, rfl, time⟩
    rw [time]
    exact Nat.lt_of_le_of_lt (h.nanos_le there) (UInt64.lt_iff_toNat_lt.mp more)
  · simp only [if_neg more]
    intro positive
    obtain ⟨r, first, shown, same⟩ := h.known positive
    refine ⟨r, first.kept ?_, shown, same⟩
    rw [time, same]
    exact UInt64.not_lt.mp more

theorem Tracks.next (h : m.Tracks notices) (notice : MonitorNotice) :
    (m.next notice).Tracks (notices ++ [notice]) := by
  have other : notice.completion? = none → (m.next notice).slowest = m.slowest →
      (m.next notice).maxNanos = m.maxNanos → (m.next notice).Tracks (notices ++ [notice]) := by
    intro none slowest maxNanos
    have runs : completions (notices ++ [notice]) = completions notices := by
      simp [completions, none]
    refine ⟨sums_next h.sums notice, ?_, ?_⟩
    · rw [runs, slowest]
      exact h.unknown
    · rw [runs, slowest, maxNanos]
      exact h.known
  cases notice with
  | completed ctx elapsed outcome => exact h.completed ctx elapsed outcome
  | started ctx => exact other rfl rfl rfl
  | slow ctx elapsed => exact other rfl rfl rfl

/-- A meter is up to date with the notices behind the last reset. -/
theorem tracks_run (events : List Event) : (run events).Tracks (sinceReset events) := by
  -- By the last event: either the summary grows by one notice, or all of it is forgotten.
  induction events using List.reverseRecOn with
  | nil => exact .empty
  | append_singleton events e ih =>
    rw [run_concat]
    cases e with
    | told notice =>
      rw [sinceReset_told]
      exact ih.next notice
    | reset =>
      rw [sinceReset_reset]
      exact .empty

end Meter

/-! ### What is shown -/

/-- At every point, the statistics sum up what a meter was told since the last reset, and until the
next one the total time does not become less. -/
theorem statistics_sum_up (events : List Meter.Event) :
    (Meter.run events).stats.Sums (Meter.sinceReset events) ∧
      ∀ later : List MonitorNotice, (Meter.run events).stats.totalNanos ≤
        (Meter.run (events ++ later.map .told)).stats.totalNanos := by
  have now := (Meter.tracks_run events).sums
  refine ⟨now, fun later => ?_⟩
  have afterwards := (Meter.tracks_run (events ++ later.map .told)).sums
  rw [now.totalNanos, afterwards.totalNanos, Meter.sinceReset_told_all, completions_append,
    totalTime_append]
  omega

/-- Adding the second time wraps around; the total is mended to the largest word. -/
example : (Meter.run [.told (.completed ⟨"a", 0, none, []⟩ 18446744073709551605 .success),
    .told (.completed ⟨"b", 0, none, []⟩ 100 .success)]).stats.totalNanos =
      18446744073709551615 := by decide

/-- At every point, no statement is shown as the slowest if none was completed since the last
reset, and as soon as one took any time at all, the first of those is shown that took longest as
far as a word holds their times. -/
theorem slowest_comes_first (events : List Meter.Event) :
    (completions (Meter.sinceReset events) = [] → (Meter.run events).stats.slowest = none) ∧
      ((∃ r ∈ completions (Meter.sinceReset events), 0 < r.elapsed) →
        ∃ r, FirstSlowest Completion.nanos (completions (Meter.sinceReset events)) r ∧
          (Meter.run events).stats.slowest = some r.ctx.sql) := by
  have tracks := Meter.tracks_run events
  refine ⟨tracks.unknown, fun ⟨r, there, positive⟩ => ?_⟩
  have least : 0 < r.nanos := lt_min positive (by decide)
  obtain ⟨first, slowest, shown, _⟩ := tracks.known (Nat.lt_of_lt_of_le least (tracks.nanos_le there))
  exact ⟨first, slowest, shown⟩

/-- A reset leaves none to show. Of two that then took equally long, the first is shown, also when
a faster one came before. -/
theorem slowest_comes_first_tied :
    let run (sql : String) (elapsed : Nat) : Meter.Event :=
      .told (.completed ⟨sql, 0, none, []⟩ elapsed .success)
    let forgotten := [run "old" 9, .reset]
    let events := forgotten ++ [run "fast" 1, run "slow" 5, run "again" 5]
    (completions (Meter.sinceReset forgotten) = [] ∧ (Meter.run forgotten).stats.slowest = none) ∧
      (∃ r ∈ completions (Meter.sinceReset events), 0 < r.elapsed) ∧
      (Meter.run events).stats.slowest = some "slow" ∧
      ∃ r, FirstSlowest Completion.nanos (completions (Meter.sinceReset events)) r ∧
        (Meter.run events).stats.slowest = some r.ctx.sql := by
  intro run forgotten events
  have positive : ∃ r ∈ completions (Meter.sinceReset events), 0 < r.elapsed :=
    ⟨⟨⟨"slow", 0, none, []⟩, 5, .success⟩, .tail _ (.head _), by decide⟩
  exact ⟨⟨rfl, (slowest_comes_first forgotten).1 rfl⟩, positive, rfl,
    (slowest_comes_first events).2 positive⟩

/-- The first of the statements that took longest is shown, by their exact times, and none only if
no statement was completed. -/
def Meter.ShowsSlowest (events : List Meter.Event) : Prop :=
  ((run events).stats.slowest = none ↔ completions (sinceReset events) = []) ∧
    (completions (sinceReset events) ≠ [] →
      ∃ r, FirstSlowest Completion.elapsed (completions (sinceReset events)) r ∧
        (run events).stats.slowest = some r.ctx.sql)

/-- Times beyond the largest word are not told apart, and a statement that took no time at all is
not shown. -/
theorem not_always_slowest_shown :
    ¬ Meter.ShowsSlowest [.told (.completed ⟨"long", 0, none, []⟩ 18446744073709551616 .success),
        .told (.completed ⟨"longer", 0, none, []⟩ 18446744073709551617 .success)] ∧
      ¬ Meter.ShowsSlowest [.told (.completed ⟨"instant", 0, none, []⟩ 0 .success)] := by
  constructor
  · rintro ⟨-, shows⟩
    obtain ⟨r, first, shown⟩ := shows (List.cons_ne_nil _ _)
    have longer := first.le (.tail _ (.head _))
    rcases List.mem_cons.mp first.mem with rfl | last
    · exact absurd longer (by decide)
    · rw [List.mem_singleton.mp last] at shown
      exact absurd shown (by decide)
  · rintro ⟨none, -⟩
    exact absurd (none.mp rfl) (List.cons_ne_nil _ _)

end SqlSelect.Execution
