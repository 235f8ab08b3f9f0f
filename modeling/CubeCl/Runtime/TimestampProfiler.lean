import Mathlib.Data.List.AList
import Mathlib.Algebra.Order.Ring.Nat

/-!
# `TimestampProfiler` (`cubecl-runtime/src/timestamp_profiler.rs`)

The profiler maps each open `ProfilingToken` to the instant `start` read, or to the error
`error` broadcast since; `counter` is the next id. The `HashMap` is an `AList`, whose
entries have distinct keys; no call observes their order. An `Instant` is a reading of a
monotonic clock, which each call that reads the clock receives. `counter` is a `u64`:
`start` panics (`none` here) where `counter += 1` overflows.

A session is the profiler with the events of the calls made on it, newest first: the
token each `start` returned, the token each `stop` was given, the error each `error`
broadcast. `openStatus` reads from the events whether a token is open and which error,
if any, was broadcast last since its start; every profiler a session reaches agrees
with it (`Session.Inv`).
-/

namespace CubeCl.Runtime

set_option autoImplicit false

/-- Modelled from the spec: `ProfilingToken` (`server.rs`) is not in the source; the spec calls
it a monotonically increasing id. -/
structure ProfilingToken where
  id : Nat
deriving DecidableEq, Repr

/-- Modelled from the spec: `ProfileError` (`server.rs`) is not in the source; the spec names its
"not registered" value and the device-level errors that `error` broadcasts. -/
inductive ProfileError
  | unknown (reason : String)
  | notRegistered
deriving DecidableEq, Repr

/-- `web_time::Instant`: a reading of a monotonic clock. -/
abbrev Instant := Nat

/-- `State` of an open token. -/
inductive TimestampProfiler.State
  | start (instant : Instant)
  | error (error : ProfileError)
deriving DecidableEq, Repr

/-- `TimestampProfiler`. -/
structure TimestampProfiler where
  state : AList fun _ : ProfilingToken => TimestampProfiler.State
  counter : Nat

section SetAll

variable {α β : Type}

/-- The map with every value replaced by `v`. -/
def setAll (v : β) (s : AList fun _ : α => β) : AList fun _ : α => β :=
  ⟨s.entries.map fun x => ⟨x.1, v⟩, by
    simpa [List.NodupKeys, List.keys, Function.comp_def] using s.nodupKeys⟩

@[simp] theorem keys_setAll (v : β) (s : AList fun _ : α => β) : (setAll v s).keys = s.keys := by
  simp [setAll, AList.keys, List.keys, Function.comp_def]

theorem dlookup_map_const [DecidableEq α] (v : β) (a : α) :
    ∀ l : List (Σ _ : α, β),
      (l.map fun x => (⟨x.1, v⟩ : Σ _ : α, β)).dlookup a = (l.dlookup a).map fun _ => v
  | [] => rfl
  | ⟨a', _⟩ :: l => by
    by_cases h : a = a'
    · subst h; simp [List.dlookup_cons_eq]
    · simp [List.dlookup_cons_ne _ ⟨a', _⟩ h, dlookup_map_const v a l]

@[simp] theorem lookup_setAll [DecidableEq α] (v : β) (s : AList fun _ : α => β) (a : α) :
    (setAll v s).lookup a = (s.lookup a).map fun _ => v :=
  dlookup_map_const v a s.entries

end SetAll

namespace TimestampProfiler

/-- `#[derive(Default)]`: no token open, the counter at zero. -/
def default : TimestampProfiler := ⟨∅, 0⟩

/-- `is_empty`. -/
def isEmpty (p : TimestampProfiler) : Bool := p.state.entries.isEmpty

/-- `start`: the token is the counter's value; `none` where `counter += 1` overflows. -/
def start (p : TimestampProfiler) (now : Instant) : Option (TimestampProfiler × ProfilingToken) :=
  if p.counter + 1 < 2 ^ 64 then
    some (⟨p.state.insert ⟨p.counter⟩ (.start now), p.counter + 1⟩, ⟨p.counter⟩)
  else none

/-- `stop`: `remove` the token, then the ticks since its start
(`ProfileDuration::from_duration(start.elapsed())`), its error, or `NotRegistered`. -/
def stop (p : TimestampProfiler) (token : ProfilingToken) (now : Instant) :
    TimestampProfiler × Except ProfileError Nat :=
  let (state, rest) := p.state.extract token
  ({ p with state := rest },
    match state with
    | some (.start instant) => .ok (now - instant)
    | some (.error e) => .error e
    | none => .error .notRegistered)

/-- `error`: every open token's state becomes the error. -/
def error (p : TimestampProfiler) (e : ProfileError) : TimestampProfiler :=
  { p with state := setAll (.error e) p.state }

/-- The error a state holds, if any. -/
def State.poison : State → Option ProfileError
  | .start _ => none
  | .error e => some e

theorem isEmpty_iff (p : TimestampProfiler) :
    p.isEmpty = true ↔ ∀ t, p.state.lookup t = none := by
  simp only [isEmpty, List.isEmpty_iff, AList.lookup_eq_none, AList.mem_keys, AList.keys,
    List.keys]
  rw [← List.map_eq_nil_iff, List.eq_nil_iff_forall_not_mem]

@[simp] theorem stop_state (p : TimestampProfiler) (t : ProfilingToken) (now : Instant) :
    (p.stop t now).1.state = p.state.erase t := by
  simp [stop, AList.extract_eq_lookup_erase]

/-- `stop` answers `Ok` exactly on a token whose state is a start. -/
theorem stop_ok_iff (p : TimestampProfiler) (t : ProfilingToken) (now : Instant) :
    (∃ d, (p.stop t now).2 = .ok d) ↔ (p.state.lookup t).map State.poison = some none := by
  rcases hl : p.state.lookup t with _ | _ | _ <;>
    simp [stop, AList.extract_eq_lookup_erase, hl, State.poison]

theorem stop_of_poison {p : TimestampProfiler} {t : ProfilingToken} {e : ProfileError}
    (h : (p.state.lookup t).map State.poison = some (some e)) (now : Instant) :
    (p.stop t now).2 = .error e := by
  rcases hl : p.state.lookup t with _ | _ | _ <;>
    simp_all [stop, AList.extract_eq_lookup_erase, State.poison]

theorem stop_of_lookup_none {p : TimestampProfiler} {t : ProfilingToken}
    (h : p.state.lookup t = none) (now : Instant) : (p.stop t now).2 = .error .notRegistered := by
  simp [stop, AList.extract_eq_lookup_erase, h]

end TimestampProfiler

/-- One call on the profiler, with the clock's reading where the call reads it. -/
inductive Call
  | start (now : Instant)
  | stop (token : ProfilingToken) (now : Instant)
  | error (e : ProfileError)
deriving DecidableEq, Repr

def Call.isStart : Call → Bool
  | .start _ => true
  | _ => false

/-- What a call did: the token `start` returned, the token `stop` was given, the error
`error` broadcast. -/
inductive Event
  | started (token : ProfilingToken)
  | stopped (token : ProfilingToken)
  | errored (e : ProfileError)
deriving DecidableEq, Repr

def Event.startedToken : Event → Option ProfilingToken
  | .started t => some t
  | _ => none

/-! ## Reading a token's status from the events -/

/-- Whether `t` is open after `log` (newest first), and the last error broadcast since its
start: `none` when no start returned `t` or a stop was given `t` since. -/
def openStatus (t : ProfilingToken) : List Event → Option (Option ProfileError)
  | [] => none
  | .started t' :: log => if t' = t then some none else openStatus t log
  | .stopped t' :: log => if t' = t then none else openStatus t log
  | .errored e :: log => (openStatus t log).map fun _ => some e

/-- The newest error broadcast in `log`. -/
def newestError : List Event → Option ProfileError
  | [] => none
  | .errored e :: _ => some e
  | _ :: log => newestError log

/-- A start returned `t` and no stop was given `t` since; `newer` are the events since. -/
def StartedSince (log : List Event) (t : ProfilingToken) (newer : List Event) : Prop :=
  ∃ older, log = newer ++ .started t :: older ∧ .stopped t ∉ newer

theorem newestError_eq_none_iff : ∀ {log : List Event},
    newestError log = none ↔ ∀ e, .errored e ∉ log
  | [] => by simp [newestError]
  | .started _ :: _ => by simp [newestError, newestError_eq_none_iff]
  | .stopped _ :: _ => by simp [newestError, newestError_eq_none_iff]
  | .errored e :: _ => ⟨nofun, fun h => absurd (List.mem_cons_self _ _) (h e)⟩

theorem newestError_append_errored {n₁ n₂ : List Event} {e : ProfileError}
    (h : ∀ e', .errored e' ∉ n₁) : newestError (n₁ ++ .errored e :: n₂) = some e := by
  induction n₁ with
  | nil => rfl
  | cons ev n₁ ih =>
    have ih := ih fun e' he' => h e' (List.mem_cons_of_mem _ he')
    cases ev
    case errored e' => exact absurd (List.mem_cons_self _ _) (h e')
    all_goals exact ih

/-- Since the start of `t`, with no other event about `t`, the status is open with the newest
error of the events since. -/
theorem openStatus_split {t : ProfilingToken} {older : List Event} :
    ∀ {newer : List Event}, (∀ ev ∈ newer, ev ≠ .started t ∧ ev ≠ .stopped t) →
      openStatus t (newer ++ .started t :: older) = some (newestError newer)
  | [], _ => by simp [openStatus, newestError]
  | ev :: newer, h => by
    have ih : openStatus t (newer ++ .started t :: older) = some (newestError newer) :=
      openStatus_split fun ev' hev' => h ev' (List.mem_cons_of_mem _ hev')
    have hev := h ev (List.mem_cons_self _ _)
    cases ev with
    | started t' => simp_all [openStatus, newestError]
    | stopped t' => simp_all [openStatus, newestError]
    | errored e => simp [openStatus, newestError, ih]

theorem split_of_openStatus {t : ProfilingToken} {p : Option ProfileError} :
    ∀ {log : List Event}, openStatus t log = some p →
      ∃ newer older, log = newer ++ .started t :: older ∧
        ∀ ev ∈ newer, ev ≠ .started t ∧ ev ≠ .stopped t
  | [], h => by simp [openStatus] at h
  | ev :: log, h => by
    have extend : ∀ {p'}, openStatus t log = some p' → (ev ≠ .started t ∧ ev ≠ .stopped t) →
        ∃ newer older, ev :: log = newer ++ .started t :: older ∧
          ∀ ev ∈ newer, ev ≠ .started t ∧ ev ≠ .stopped t := fun h' hev => by
      obtain ⟨newer, older, rfl, hnewer⟩ := split_of_openStatus h'
      exact ⟨ev :: newer, older, rfl, by simpa [hev] using hnewer⟩
    cases ev with
    | started t' =>
      by_cases ht : t' = t
      · exact ⟨[], log, by rw [ht]; rfl, by simp⟩
      · simp only [openStatus, ht, if_false] at h
        exact extend h (by simp [ht])
    | stopped t' =>
      by_cases ht : t' = t
      · simp [openStatus, ht] at h
      · simp only [openStatus, ht, if_false] at h
        exact extend h (by simp [ht])
    | errored e =>
      obtain ⟨p', h', -⟩ := Option.map_eq_some'.1 h
      exact extend h' (by simp)

theorem not_started_of_nodup {log newer older : List Event} {t : ProfilingToken}
    (hnodup : (log.filterMap Event.startedToken).Nodup) (hlog : log = newer ++ .started t :: older) :
    .started t ∉ newer := fun hmem => by
  rw [hlog, List.filterMap_append, List.filterMap_cons] at hnodup
  exact List.disjoint_of_nodup_append hnodup (List.mem_filterMap.2 ⟨_, hmem, rfl⟩)
    (List.mem_cons_self _ _)

/-- With each token started once, a token is open exactly when a start returned it and no
stop was given it since, and its error is the newest broadcast since. -/
theorem openStatus_eq_some_iff {log : List Event} {t : ProfilingToken} {p : Option ProfileError}
    (hnodup : (log.filterMap Event.startedToken).Nodup) :
    openStatus t log = some p ↔ ∃ newer, StartedSince log t newer ∧ newestError newer = p := by
  constructor
  · intro h
    obtain ⟨newer, older, hlog, hnewer⟩ := split_of_openStatus h
    rw [hlog, openStatus_split hnewer, Option.some_inj] at h
    exact ⟨newer, ⟨older, hlog, fun hmem => (hnewer _ hmem).2 rfl⟩, h⟩
  · rintro ⟨newer, ⟨older, hlog, hstop⟩, rfl⟩
    have hstart := not_started_of_nodup hnodup hlog
    rw [hlog]
    exact openStatus_split fun ev hev => ⟨fun h => hstart (h ▸ hev), fun h => hstop (h ▸ hev)⟩

theorem openStatus_eq_none_iff {log : List Event} {t : ProfilingToken}
    (hnodup : (log.filterMap Event.startedToken).Nodup) :
    openStatus t log = none ↔ ¬∃ newer, StartedSince log t newer := by
  rw [← not_iff_not, not_not, ← ne_eq, Option.ne_none_iff_exists']
  simp only [openStatus_eq_some_iff hnodup]
  exact ⟨fun ⟨_, newer, h, _⟩ => ⟨newer, h⟩, fun ⟨newer, h⟩ => ⟨_, newer, h, rfl⟩⟩

/-! ## Sessions -/

/-- The profiler and the events of the calls made on it, newest first. -/
structure Session where
  profiler : TimestampProfiler
  log : List Event

namespace Session

/-- Before any call. -/
def init : Session := ⟨.default, []⟩

/-- One call; `none` where the code panics. -/
def step (s : Session) : Call → Option Session
  | .start now => (s.profiler.start now).map fun r => ⟨r.1, .started r.2 :: s.log⟩
  | .stop token now => some ⟨(s.profiler.stop token now).1, .stopped token :: s.log⟩
  | .error e => some ⟨s.profiler.error e, .errored e :: s.log⟩

/-- The session after `calls` in order; `none` where one of them panics. -/
def run (s : Session) : List Call → Option Session
  | [] => some s
  | c :: calls => (s.step c).bind fun s' => s'.run calls

/-- The profiler agrees with its events: the starts returned the ids below the counter, newest
first; every open token is below the counter; and each token's state is its `openStatus`. -/
structure Inv (s : Session) : Prop where
  started_eq : s.log.filterMap Event.startedToken =
    ((List.range s.profiler.counter).map ProfilingToken.mk).reverse
  keys_below : ∀ t ∈ s.profiler.state, t.id < s.profiler.counter
  lookup_eq : ∀ t, (s.profiler.state.lookup t).map TimestampProfiler.State.poison =
    openStatus t s.log

theorem inv_init : init.Inv :=
  ⟨rfl, fun _ h => absurd h (AList.not_mem_empty _), fun _ => rfl⟩

variable {s : Session}

theorem Inv.start (hs : s.Inv) (now : Instant) :
    Inv ⟨⟨s.profiler.state.insert ⟨s.profiler.counter⟩ (.start now), s.profiler.counter + 1⟩,
      .started ⟨s.profiler.counter⟩ :: s.log⟩ := by
  refine ⟨?_, fun t ht => ?_, fun t => ?_⟩
  · simp [Event.startedToken, hs.started_eq, List.range_succ]
  · rcases (AList.mem_insert _).1 ht with rfl | ht
    · exact Nat.lt_succ_self _
    · exact Nat.lt_succ_of_lt (hs.keys_below t ht)
  · by_cases ht : t = ⟨s.profiler.counter⟩
    · subst ht
      simp [AList.lookup_insert, openStatus, TimestampProfiler.State.poison]
    · simp [AList.lookup_insert_ne ht, openStatus, Ne.symm ht, hs.lookup_eq t]

theorem Inv.stop (hs : s.Inv) (token : ProfilingToken) (now : Instant) :
    Inv ⟨(s.profiler.stop token now).1, .stopped token :: s.log⟩ := by
  refine ⟨hs.started_eq, fun t ht => ?_, fun t => ?_⟩
  · simp only [TimestampProfiler.stop_state, AList.mem_erase] at ht
    exact hs.keys_below t ht.2
  · by_cases ht : t = token
    · subst ht
      simp [AList.lookup_erase, openStatus]
    · simp [AList.lookup_erase_ne ht, openStatus, Ne.symm ht, hs.lookup_eq t]

theorem Inv.error (hs : s.Inv) (e : ProfileError) :
    Inv ⟨s.profiler.error e, .errored e :: s.log⟩ := by
  refine ⟨hs.started_eq, fun t ht => hs.keys_below t ?_, fun t => ?_⟩
  · simpa [TimestampProfiler.error, AList.mem_keys] using ht
  · simp [TimestampProfiler.error, openStatus, ← hs.lookup_eq t, Option.map_map,
      Function.comp_def, TimestampProfiler.State.poison]

/-- A run whose starts do not overflow the counter returns, and keeps the invariant. -/
theorem run_inv : ∀ {s : Session} {calls : List Call}, s.Inv →
    s.profiler.counter + (calls.filter Call.isStart).length < 2 ^ 64 →
      ∃ s', s.run calls = some s' ∧ s'.Inv
  | s, [], hs, _ => ⟨s, rfl, hs⟩
  | s, .start now :: calls, hs, hc => by
    simp only [List.filter_cons, Call.isStart, if_true, List.length_cons] at hc
    simp only [run, step, TimestampProfiler.start, if_pos (show s.profiler.counter + 1 < 2 ^ 64 by omega),
      Option.map_some', Option.some_bind]
    exact run_inv (hs.start now) (by dsimp only; omega)
  | s, .stop token now :: calls, hs, hc => @run_inv _ calls (hs.stop token now) hc
  | s, .error e :: calls, hs, hc => @run_inv _ calls (hs.error e) hc

/-- The token lifecycle in a session, as the calls made it: the tokens starts returned are
pairwise distinct, and every open token is below the counter; `stop t` answers `Ok` exactly
when a start returned `t`, no stop was given `t` since, and no error was broadcast since; it
answers the newest error broadcast since the start of `t` if there is one; it answers
`NotRegistered` when no start returned `t` or a stop was given `t` since; it takes `t` out;
and the profiler is empty exactly when every started token has been stopped since. -/
structure Lifecycle (s : Session) : Prop where
  tokens_distinct : (s.log.filterMap Event.startedToken).Nodup
  registered_below : ∀ t ∈ s.profiler.state, t.id < s.profiler.counter
  stop_ok_iff : ∀ t now, (∃ d, (s.profiler.stop t now).2 = .ok d) ↔
    ∃ newer, StartedSince s.log t newer ∧ ∀ e, .errored e ∉ newer
  stop_poisoned : ∀ t now e n₁ n₂, StartedSince s.log t (n₁ ++ .errored e :: n₂) →
    (∀ e', .errored e' ∉ n₁) → (s.profiler.stop t now).2 = .error e
  stop_unregistered : ∀ t now, (¬∃ newer, StartedSince s.log t newer) →
    (s.profiler.stop t now).2 = .error .notRegistered
  stop_removes : ∀ t now, t ∉ (s.profiler.stop t now).1.state
  isEmpty_iff : s.profiler.isEmpty = true ↔
    ∀ t newer older, s.log = newer ++ .started t :: older → .stopped t ∈ newer

theorem Inv.lifecycle (hs : s.Inv) : s.Lifecycle := by
  have hnodup : (s.log.filterMap Event.startedToken).Nodup := by
    rw [hs.started_eq, List.nodup_reverse]
    exact (List.nodup_range _).map fun _ _ h => ProfilingToken.mk.inj h
  have hnone : ∀ t, s.profiler.state.lookup t = none ↔ ¬∃ newer, StartedSince s.log t newer :=
    fun t => by rw [← openStatus_eq_none_iff hnodup, ← hs.lookup_eq, Option.map_eq_none']
  refine ⟨hnodup, hs.keys_below, fun t now => ?_, fun t now e n₁ n₂ h hn₁ => ?_,
    fun t now h => TimestampProfiler.stop_of_lookup_none ((hnone t).2 h) now,
    fun t now => by simp [AList.mem_erase], ?_⟩
  · rw [TimestampProfiler.stop_ok_iff, hs.lookup_eq, openStatus_eq_some_iff hnodup]
    simp only [newestError_eq_none_iff]
  · refine TimestampProfiler.stop_of_poison ?_ now
    rw [hs.lookup_eq, openStatus_eq_some_iff hnodup]
    exact ⟨_, h, newestError_append_errored hn₁⟩
  · simp only [TimestampProfiler.isEmpty_iff, hnone, StartedSince, not_exists, not_and, not_not]

/-- **Token lifecycle of the timestamp profiler.** After any sequence of `start`, `stop` and
`error` calls with fewer than `2^64` starts, the profiler has not panicked, and its tokens
follow the lifecycle. -/
theorem timestamp_profiler_token_lifecycle {calls : List Call}
    (hstarts : (calls.filter Call.isStart).length < 2 ^ 64) :
    ∃ s, init.run calls = some s ∧ s.Lifecycle := by
  obtain ⟨s, hrun, hs⟩ := run_inv inv_init (by simpa [init, TimestampProfiler.default] using hstarts)
  exact ⟨s, hrun, hs.lifecycle⟩

theorem token_lifecycle_across_error :
    ([Call.start 0, .error (.unknown "lost"), .start 5].filter Call.isStart).length < 2 ^ 64 ∧
    ∃ s, init.run [.start 0, .error (.unknown "lost"), .start 5] = some s ∧ s.Lifecycle :=
  ⟨by decide, timestamp_profiler_token_lifecycle (by decide)⟩

end Session

end CubeCl.Runtime
