import CubeCl.Linalg.Tiling
import Mathlib.Data.List.Nodup

/-!
# The double-buffering event listener (`global/multi_stage/double_buffering/matmul.rs`)

While the stage matmul runs its `total` tile matmuls, the listener interleaves the
loading tasks of the other buffer: on the event `TmmCompleted { current, total }` it
runs the next lhs task if `current` is that task's event, then the next rhs task
likewise; on `Finish` it runs what is left. The events are computed by `create_event`
at kernel expansion, in `u32`: the first task's event is `start = total - (nl + nr)`,
for the `nl` lhs and `nr` rhs tasks.

When the tasks fit the events (`nl + nr <= total`), every task runs once, in order,
lhs task `k` at event `start + k` and rhs task `k` at event `start + nl + k`, and
`Finish` has nothing left (`run_events_of_fit`). When they do not, `create_event`
underflows at the first event (`run_events_eq_none_iff`), which panics at kernel
expansion: the `Finish` path that would run the tasks left over is never reached.
-/

namespace CubeCl.Linalg

set_option autoImplicit false

namespace DoubleBuffering

/-- Modelled from the spec: `StageEvent` is not in the source; the stage matmul sends
`TmmCompleted { current, total }` after each of its tile matmuls, then `Finish`. -/
inductive StageEvent
  | tmmCompleted (current total : Nat)
  | finish
deriving DecidableEq, Repr

/-- Modelled from the spec: a job of a `SyncBufferLoader` is not in the source; the listener
reads its `num_tasks` and `current.counter`, the tasks it has executed. -/
structure JobState where
  numTasks : Nat
  counter : Nat
deriving DecidableEq, Repr

/-- `Event`. -/
structure Event where
  lhs : Nat
  lhsCompleted : Bool
  rhs : Nat
  rhsCompleted : Bool
deriving DecidableEq, Repr

/-- `STEP`. -/
def step : Nat := 1

/-- A task a job ran: the job, the task's index, and the `current` of the event that ran it
(`none` at `Finish`). -/
structure Execution where
  ident : InputIdent
  task : Nat
  event : Option Nat
deriving DecidableEq, Repr

/-- `DoubleBufferingEventListener`: the task counts of the jobs the two loaders create, the
jobs pushed so far, and (ghost) the tasks executed, oldest first. -/
structure Listener where
  lhsTasks : Nat
  rhsTasks : Nat
  stateLhs : List JobState
  stateRhs : List JobState
  executed : List Execution
deriving DecidableEq, Repr

namespace Listener

/-- `DoubleBufferingEventListener::new`: `Sequence::new()` for both jobs. -/
def new (lhsTasks rhsTasks : Nat) : Listener := ⟨lhsTasks, rhsTasks, [], [], []⟩

/-- `init`: push a new job of each loader, with no task executed. -/
def init (l : Listener) : Listener :=
  { l with
    stateLhs := l.stateLhs ++ [⟨l.lhsTasks, 0⟩]
    stateRhs := l.stateRhs ++ [⟨l.rhsTasks, 0⟩] }

/-- The jobs of one loader. -/
def jobs (l : Listener) : InputIdent → List JobState
  | .lhs => l.stateLhs
  | .rhs => l.stateRhs

/-- The listener with the jobs of one loader replaced. -/
def setJobs (l : Listener) : InputIdent → List JobState → Listener
  | .lhs, jobs => { l with stateLhs := jobs }
  | .rhs, jobs => { l with stateRhs := jobs }

/-- Modelled from the spec: `SyncBufferLoader::execute_task` is not in the source. On the first
job of a loader, it runs the task the job's counter names and advances the counter by one. -/
def execute (l : Listener) (ident : InputIdent) (event : Option Nat) : Listener :=
  match l.jobs ident with
  | job :: jobs =>
    { l.setJobs ident ({ job with counter := job.counter + 1 } :: jobs) with
      executed := l.executed ++ [⟨ident, job.counter, event⟩] }
  | [] => l

/-- `create_event`; `none` where `index(0)` finds no job or `total - STEP * num_tasks_total`
underflows. -/
def createEvent (l : Listener) (total : Nat) : Option Event := do
  let lhsJob ← l.stateLhs.head?
  let rhsJob ← l.stateRhs.head?
  let numTasksTotal := lhsJob.numTasks + rhsJob.numTasks
  let lhsNumTaskExecuted := lhsJob.counter
  let rhsNumTaskExecuted := rhsJob.counter
  let start ← checkedSub total (step * numTasksTotal)
  some ⟨lhsNumTaskExecuted * step + start, decide (lhsJob.numTasks ≤ lhsNumTaskExecuted),
    rhsNumTaskExecuted * step + lhsJob.numTasks * step + start,
    decide (rhsJob.numTasks ≤ rhsNumTaskExecuted)⟩

/-- The inherent `on_event`: run the task whose event is `current`, of each job. -/
def onEvent (l : Listener) (event : Event) (current : Nat) : Listener :=
  let l := if !event.lhsCompleted && event.lhs == current then l.execute .lhs (some current) else l
  if !event.rhsCompleted && event.rhs == current then l.execute .rhs (some current) else l

/-- `n` iterations of the unrolled loop of `Finish` over the tasks left to one loader. -/
def cleanup (ident : InputIdent) : Nat → Listener → Listener
  | 0, l => l
  | n + 1, l => cleanup ident n (l.execute ident none)

/-- `StageEventListener::on_event`; `none` where the kernel expansion panics. -/
def onStageEvent (l : Listener) : StageEvent → Option Listener
  | .tmmCompleted current total => do
    let l := if current = 0 then l.init else l
    let event ← l.createEvent total
    some (l.onEvent event current)
  | .finish => do
    let lhsJob ← l.stateLhs.head?
    let l := cleanup .lhs (lhsJob.numTasks - lhsJob.counter) l
    let rhsJob ← l.stateRhs.head?
    some (cleanup .rhs (rhsJob.numTasks - rhsJob.counter) l)

/-- The listener after `events` in order; `none` where one of them panics. -/
def run (l : Listener) : List StageEvent → Option Listener
  | [] => some l
  | e :: events => (l.onStageEvent e).bind fun l' => l'.run events

end Listener

/-- The events of one stage matmul: `TmmCompleted { current, total }` for each `current`, then
`Finish`. -/
def events (total : Nat) : List StageEvent :=
  (List.range total).map (StageEvent.tmmCompleted · total) ++ [.finish]

/-- The schedule of one stage matmul whose tasks fit its events: lhs task `k` at event
`start + k`, then rhs task `k` at event `start + nl + k`, where `start = total - (nl + nr)`. -/
def schedule (total nl nr : Nat) : List Execution :=
  (List.range nl).map (fun k => ⟨.lhs, k, some (total - (nl + nr) + k)⟩) ++
    (List.range nr).map (fun k => ⟨.rhs, k, some (total - (nl + nr) + nl + k)⟩)

/-! ## The schedule when the tasks fit the events -/

namespace Listener

variable {total nl nr : Nat}

/-- The listener of a matmul of `total` events whose jobs have run, on schedule, their first
`cl` and `cr` tasks. -/
def onSchedule (total nl nr cl cr : Nat) : Listener :=
  ⟨nl, nr, [⟨nl, cl⟩], [⟨nr, cr⟩],
    (List.range cl).map (fun k => ⟨.lhs, k, some (total - (nl + nr) + k)⟩) ++
      (List.range cr).map (fun k => ⟨.rhs, k, some (total - (nl + nr) + nl + k)⟩)⟩

/-- The listener after the events `0 .. c - 1`. -/
def after (total nl nr c : Nat) : Listener :=
  onSchedule total nl nr (min nl (c - (total - (nl + nr)))) (min nr (c - (total - (nl + nr)) - nl))

theorem createEvent_onSchedule (hfit : nl + nr ≤ total) (cl cr : Nat) :
    (onSchedule total nl nr cl cr).createEvent total = some
      ⟨cl + (total - (nl + nr)), decide (nl ≤ cl), cr + nl + (total - (nl + nr)), decide (nr ≤ cr)⟩ := by
  simp [createEvent, onSchedule, step, checkedSub_of_le hfit]

/-- The lhs job runs its next task on schedule. -/
theorem execute_lhs_onSchedule {cl : Nat} :
    (onSchedule total nl nr cl 0).execute .lhs (some (total - (nl + nr) + cl)) =
      onSchedule total nl nr (cl + 1) 0 := by
  simp [onSchedule, execute, jobs, setJobs, List.range_succ]

/-- The rhs job runs its next task on schedule, once the lhs job is done. -/
theorem execute_rhs_onSchedule {cr : Nat} :
    (onSchedule total nl nr nl cr).execute .rhs (some (total - (nl + nr) + nl + cr)) =
      onSchedule total nl nr nl (cr + 1) := by
  simp [onSchedule, execute, jobs, setJobs, List.range_succ]

/-- `on_event` at the event `create_event` gives a listener on schedule: a task runs where its
job is not done and the event is its own. -/
theorem onEvent_onSchedule (cl cr c : Nat) :
    (onSchedule total nl nr cl cr).onEvent ⟨cl + (total - (nl + nr)), decide (nl ≤ cl),
        cr + nl + (total - (nl + nr)), decide (nr ≤ cr)⟩ c =
      let l := onSchedule total nl nr cl cr
      let l := if cl < nl ∧ cl + (total - (nl + nr)) = c then l.execute .lhs (some c) else l
      if cr < nr ∧ cr + nl + (total - (nl + nr)) = c then l.execute .rhs (some c) else l := by
  simp only [onEvent, Bool.and_eq_true, Bool.not_eq_true', decide_eq_false_iff_not, Nat.not_le,
    beq_iff_eq]

/-- Up to the first task's event, nothing has run. -/
theorem after_of_le_start {c : Nat} (hc : c ≤ total - (nl + nr)) :
    after total nl nr c = onSchedule total nl nr 0 0 := by
  rw [after]; congr 1 <;> omega

/-- Over the lhs tasks' events, the lhs job has run one task per event. -/
theorem after_of_le_lhs {c : Nat} (hc : total - (nl + nr) ≤ c) (hc' : c ≤ total - (nl + nr) + nl) :
    after total nl nr c = onSchedule total nl nr (c - (total - (nl + nr))) 0 := by
  rw [after]; congr 1 <;> omega

/-- Over the rhs tasks' events, the lhs job is done and the rhs job has run one task per
event. -/
theorem after_of_le_rhs {c : Nat} (hc : total - (nl + nr) + nl ≤ c) (hfit : nl + nr ≤ total)
    (hc' : c ≤ total) :
    after total nl nr c = onSchedule total nl nr nl (c - (total - (nl + nr)) - nl) := by
  rw [after]; congr 1 <;> omega

/-- After the last event, both jobs are done. -/
theorem after_total (hfit : nl + nr ≤ total) : after total nl nr total = onSchedule total nl nr nl nr := by
  rw [after]; congr 1 <;> omega

/-- **One event of the schedule.** Event `c`, past `create_event`, runs the lhs task of event
`c` if there is one, else the rhs task of event `c` if there is one. -/
theorem handle_after (hfit : nl + nr ≤ total) {c : Nat} (hc : c < total) :
    ((after total nl nr c).createEvent total >>= fun ev => some ((after total nl nr c).onEvent ev c)) =
      some (after total nl nr (c + 1)) := by
  by_cases hA : c < total - (nl + nr)
  · -- before the first task's event: nothing runs
    rw [after_of_le_start (by omega), after_of_le_start (by omega), createEvent_onSchedule hfit,
      Option.bind_eq_bind, Option.some_bind, onEvent_onSchedule]
    split_ifs <;> first | rfl | omega
  by_cases hB : c < total - (nl + nr) + nl
  · -- the event of lhs task `c - start`
    rw [after_of_le_lhs (by omega) (by omega), after_of_le_lhs (by omega) (by omega),
      createEvent_onSchedule hfit, Option.bind_eq_bind, Option.some_bind, onEvent_onSchedule,
      show c + 1 - (total - (nl + nr)) = c - (total - (nl + nr)) + 1 by omega,
      ← execute_lhs_onSchedule, Nat.add_sub_of_le (Nat.le_of_not_lt hA)]
    split_ifs <;> first | rfl | omega
  · -- the event of rhs task `c - start - nl`
    rw [after_of_le_rhs (by omega) hfit (by omega), after_of_le_rhs (by omega) hfit (by omega),
      createEvent_onSchedule hfit, Option.bind_eq_bind, Option.some_bind, onEvent_onSchedule,
      show c + 1 - (total - (nl + nr)) - nl = c - (total - (nl + nr)) - nl + 1 by omega,
      ← execute_rhs_onSchedule,
      show total - (nl + nr) + nl + (c - (total - (nl + nr)) - nl) = c by omega]
    split_ifs <;> first | rfl | omega

theorem init_new (total : Nat) : (new nl nr).init = after total nl nr 0 := by
  simp [after, onSchedule, init, new]

theorem onStageEvent_new (hfit : nl + nr ≤ total) (htot : 0 < total) :
    (new nl nr).onStageEvent (.tmmCompleted 0 total) = some (after total nl nr 1) := by
  simp only [onStageEvent, if_pos, init_new total]
  exact handle_after hfit htot

theorem onStageEvent_after (hfit : nl + nr ≤ total) {c : Nat} (hc : c < total) (hc0 : c ≠ 0) :
    (after total nl nr c).onStageEvent (.tmmCompleted c total) = some (after total nl nr (c + 1)) := by
  simp only [onStageEvent, if_neg hc0]
  exact handle_after hfit hc

/-- The events `c .. c + n - 1` take the listener along the schedule. -/
theorem run_after (hfit : nl + nr ≤ total) (rest : List StageEvent) :
    ∀ n c, 0 < c → c + n ≤ total →
      (after total nl nr c).run ((List.range' c n).map (StageEvent.tmmCompleted · total) ++ rest) =
        (after total nl nr (c + n)).run rest
  | 0, _, _, _ => rfl
  | n + 1, c, hc0, hcn => by
    simp only [List.range', List.map_cons, List.cons_append, run,
      onStageEvent_after hfit (c := c) (by omega) (Nat.pos_iff_ne_zero.1 hc0), Option.some_bind,
      List.append_eq]
    rw [run_after hfit rest n (c + 1) (Nat.succ_pos c) (by omega), Nat.add_right_comm, Nat.add_assoc]

/-- After the last event both jobs are done, and `Finish` runs nothing. -/
theorem onStageEvent_finish (hfit : nl + nr ≤ total) :
    (after total nl nr total).onStageEvent .finish = some (after total nl nr total) := by
  rw [after_total hfit]
  simp only [onStageEvent, onSchedule, List.head?_cons, Option.bind_eq_bind, Option.some_bind,
    Nat.sub_self, cleanup]

end Listener

/-- **The schedule when the tasks fit.** Fed the events of a stage matmul of `total >= 1`
tile matmuls, a listener whose loaders' jobs have `nl + nr <= total` tasks runs lhs task `k`
at event `total - (nl + nr) + k` and rhs task `k` at event `total - (nl + nr) + nl + k`, and
nothing else. -/
theorem run_events_of_fit {total nl nr : Nat} (htot : 0 < total) (hfit : nl + nr ≤ total) :
    ∃ l, (Listener.new nl nr).run (events total) = some l ∧ l.executed = schedule total nl nr := by
  refine ⟨Listener.after total nl nr total, ?_, ?_⟩
  · obtain ⟨t, rfl⟩ : ∃ t, total = t + 1 := ⟨total - 1, by omega⟩
    simp only [events, List.range_eq_range', List.range', List.map_cons, List.cons_append,
      Listener.run, Listener.onStageEvent_new hfit htot, Option.some_bind, Nat.zero_add]
    rw [Listener.run_after hfit [.finish] t 1 Nat.one_pos (by omega), Nat.add_comm 1 t]
    simp only [Listener.run, Listener.onStageEvent_finish hfit, Option.some_bind]
  · rw [Listener.after_total hfit]
    rfl

/-- Where the tasks do not fit, the first event's `create_event` underflows. -/
theorem run_events_eq_none_iff {total nl nr : Nat} (htot : 0 < total) :
    (Listener.new nl nr).run (events total) = none ↔ total < nl + nr := by
  constructor
  · intro h
    refine Nat.lt_of_not_le fun hfit => ?_
    obtain ⟨l, hl, -⟩ := run_events_of_fit htot hfit
    rw [h] at hl
    cases hl
  · intro h
    obtain ⟨t, rfl⟩ : ∃ t, total = t + 1 := ⟨total - 1, by omega⟩
    simp [events, List.range_eq_range', List.range', Listener.run, Listener.onStageEvent,
      Listener.init, Listener.new, Listener.createEvent, step, checkedSub_eq_none.2 h]

/-- In the schedule, each job runs its tasks once each, in increasing order, and no event
runs more than one task. -/
theorem schedule_runs_tasks_once (total nl nr : Nat) :
    (schedule total nl nr).filterMap (fun e => if e.ident = .lhs then some e.task else none) =
      List.range nl ∧
    (schedule total nl nr).filterMap (fun e => if e.ident = .rhs then some e.task else none) =
      List.range nr ∧
    ((schedule total nl nr).map Execution.event).Nodup := by
  refine ⟨by simp [schedule, List.filterMap_append, List.filterMap_map, Function.comp_def],
    by simp [schedule, List.filterMap_append, List.filterMap_map, Function.comp_def], ?_⟩
  simp only [schedule, List.map_append, List.map_map, Function.comp_def]
  refine List.nodup_append.2 ⟨(List.nodup_range nl).map fun _ _ h => by simpa using h,
    (List.nodup_range nr).map fun _ _ h => by simpa using h, ?_⟩
  rintro _ h h'
  simp only [List.mem_map, List.mem_range] at h h'
  obtain ⟨k, hk, rfl⟩ := h
  obtain ⟨k', -, h'⟩ := h'
  simp only [Option.some.injEq] at h'
  omega

/-- **The double-buffering schedule.** Fed the events of a stage matmul of `total >= 1` tile
matmuls, the listener panics exactly when its jobs have more than `total` tasks; otherwise it
runs each lhs task and each rhs task once, in increasing order, at most one task per event,
lhs task `k` at event `total - (nl + nr) + k` and rhs task `k` at event
`total - (nl + nr) + nl + k`. -/
theorem double_buffering_schedule {total nl nr : Nat} (htot : 0 < total) :
    ((Listener.new nl nr).run (events total) = none ↔ total < nl + nr) ∧
    (nl + nr ≤ total → ∃ l, (Listener.new nl nr).run (events total) = some l ∧
      l.executed = schedule total nl nr ∧
      l.executed.filterMap (fun e => if e.ident = .lhs then some e.task else none) = List.range nl ∧
      l.executed.filterMap (fun e => if e.ident = .rhs then some e.task else none) = List.range nr ∧
      (l.executed.map Execution.event).Nodup) := by
  refine ⟨run_events_eq_none_iff htot, fun hfit => ?_⟩
  obtain ⟨l, hrun, hl⟩ := run_events_of_fit htot hfit
  exact ⟨l, hrun, hl, hl ▸ schedule_runs_tasks_once total nl nr⟩

theorem double_buffering_schedule_four_events :
    0 < 4 ∧
    (((Listener.new 1 2).run (events 4) = none ↔ 4 < 1 + 2) ∧
    (1 + 2 ≤ 4 → ∃ l, (Listener.new 1 2).run (events 4) = some l ∧
      l.executed = schedule 4 1 2 ∧
      l.executed.filterMap (fun e => if e.ident = .lhs then some e.task else none) = List.range 1 ∧
      l.executed.filterMap (fun e => if e.ident = .rhs then some e.task else none) = List.range 2 ∧
      (l.executed.map Execution.event).Nodup)) :=
  ⟨by decide, @double_buffering_schedule 4 1 2 (by decide)⟩

/-- One tile matmul, one lhs and one rhs task: the first event's `create_event` computes
`1 - 2` in `u32`, which underflows. -/
theorem double_buffering_create_event_underflows :
    (Listener.new 1 1).init.createEvent 1 = none ∧ (Listener.new 1 1).run (events 1) = none :=
  ⟨rfl, rfl⟩

/-! ## `DoubleBufferingMatmul::execute`: the stage matmuls of a `k` range -/

/-- `BufferId`. -/
inductive BufferId
  | a
  | b
deriving DecidableEq, Repr

/-- One stage matmul of `execute`: the buffer it reads, the buffer its event listener loads
(`none` for the last, run by `SMM::execute`), and the offset along `k`, from `k_range.0`, of
the chunk it reads: buffer `A` at the view's offset, buffer `B` one `buffer_step` further. -/
structure StageMatmul where
  reads : BufferId
  loads : Option BufferId
  kOffset : Nat
deriving DecidableEq, Repr

/-- `num_stage_matmuls`: `div_ceil(range, buffer_step)` made even, in `u32` on the device. -/
def numStageMatmuls (bufferStep : Nat) (kRange : Nat × Nat) : Nat :=
  let range := wrappingSub kRange.2 kRange.1
  let neededStageMatmuls := Std.divCeil range bufferStep
  wrappingAdd neededStageMatmuls (neededStageMatmuls % 2)

/-- `num_loops = (num_stage_matmuls - 2) / 2`, in `u32` on the device. -/
def numLoops (bufferStep : Nat) (kRange : Nat × Nat) : Nat :=
  wrappingSub (numStageMatmuls bufferStep kRange) 2 / 2

/-- The stage matmuls of one pass of the loop, the view advanced by `loop_step` per pass. -/
def loopPass (bufferStep i : Nat) : List StageMatmul :=
  [⟨.a, some .b, i * (bufferStep * 2)⟩, ⟨.b, some .a, i * (bufferStep * 2) + bufferStep⟩]

/-- The stage matmuls `execute` runs for a `buffer_step` and a `k_range`: `num_loops` passes
of the loop, then `A` with its listener and `B` without. -/
def stageMatmuls (bufferStep : Nat) (kRange : Nat × Nat) : List StageMatmul :=
  let numLoops := numLoops bufferStep kRange
  (List.range numLoops).flatMap (loopPass bufferStep) ++
    [⟨.a, some .b, numLoops * (bufferStep * 2)⟩, ⟨.b, none, numLoops * (bufferStep * 2) + bufferStep⟩]

/-- `DoubleBufferingMatmul::execute` (`cubecl-linalg`), with
`buffer_step = config.tiling_dimensions(Ident::Lhs).total_col()`. -/
def DoubleBufferingMatmul.execute (totalCol : Nat) (kRange : Nat × Nat) : List StageMatmul :=
  stageMatmuls totalCol kRange

/-- What the stage matmuls of a `k` range are for: the least even number of chunks of
`buffer_step` that covers `range`, each chunk read by one stage matmul, none passing the
range's end by two buffers or more. -/
structure CoversRange (stages : List StageMatmul) (bufferStep range : Nat) : Prop where
  even : stages.length % 2 = 0
  least : (range + bufferStep - 1) / bufferStep ≤ stages.length ∧
    ∀ e, e % 2 = 0 → (range + bufferStep - 1) / bufferStep ≤ e → stages.length ≤ e
  covers : ∀ x < range, ∃ s ∈ stages, s.kOffset ≤ x ∧ x < s.kOffset + bufferStep
  within : ∀ s ∈ stages, s.kOffset + bufferStep < range + 2 * bufferStep

/-- The offsets of `n` passes of the loop: one chunk after another. -/
theorem loopPasses_kOffsets (bufferStep n : Nat) :
    ((List.range n).flatMap (loopPass bufferStep)).map StageMatmul.kOffset =
      (List.range (2 * n)).map (· * bufferStep) := by
  induction n with
  | zero => rfl
  | succ n ih =>
    rw [List.range_succ, List.flatMap_append, List.map_append, ih,
      show 2 * (n + 1) = 2 * n + 1 + 1 by omega, List.range_succ, List.range_succ]
    simp [loopPass, Nat.add_mul, Nat.mul_add, Nat.mul_comm, Nat.mul_left_comm]

/-- `execute` runs `2 * num_loops + 2` stage matmuls, the `j`-th on the `j`-th chunk of `k`. -/
theorem stageMatmuls_kOffsets (bufferStep : Nat) (kRange : Nat × Nat) :
    (stageMatmuls bufferStep kRange).map StageMatmul.kOffset =
      (List.range (2 * numLoops bufferStep kRange + 2)).map (· * bufferStep) := by
  rw [stageMatmuls, List.map_append, loopPasses_kOffsets, show 2 * numLoops bufferStep kRange + 2 =
    2 * numLoops bufferStep kRange + 1 + 1 by omega, List.range_succ, List.range_succ]
  simp [Nat.add_mul, Nat.mul_add, Nat.mul_assoc, Nat.mul_comm, Nat.mul_left_comm]

theorem length_stageMatmuls (bufferStep : Nat) (kRange : Nat × Nat) :
    (stageMatmuls bufferStep kRange).length = 2 * numLoops bufferStep kRange + 2 := by
  simpa using congrArg List.length (stageMatmuls_kOffsets bufferStep kRange)

/-- On an empty range, `execute` runs `2 ^ 32` stage matmuls: `num_stage_matmuls` is `0`, so
`num_stage_matmuls - 2` wraps. -/
theorem stageMatmuls_empty {bufferStep k : Nat} (hb : 0 < bufferStep) (hb32 : bufferStep < 2 ^ 32)
    (hk : k < 2 ^ 32) :
    numStageMatmuls bufferStep (k, k) = 0 ∧ (stageMatmuls bufferStep (k, k)).length = 2 ^ 32 := by
  have hnsm : numStageMatmuls bufferStep (k, k) = 0 := by
    rw [numStageMatmuls, wrappingSub_of_le hk (Nat.le_refl k), Nat.sub_self,
      Std.divCeil_eq hb (by omega), Nat.div_eq_of_lt (by omega)]
    rfl
  refine ⟨hnsm, ?_⟩
  rw [length_stageMatmuls, numLoops, hnsm, wrappingSub_of_lt (by decide) (by decide)]
  decide

end DoubleBuffering

end CubeCl.Linalg
