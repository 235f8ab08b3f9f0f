import CubeCl.Runtime.ExclusivePool
import Mathlib.Logic.Function.Basic

/-!
# The exclusive pool among its callers

`World` is the pool with what lies outside it: the clones of each slice handle
held by callers (the `Arc` count less the pool's own copy), the buffers the
storage has allocated and not freed, the `alloc_nr` of the last `cleanup`, and,
per handle, the checks that found its page free since the pool last handed it
out. The last two are ghost state; the code keeps no copy of them.

A run is any interleaving of `try_reserve`, `alloc`, `cleanup` and drops of
returned handles (`Op`), each as its callers promise (`World.Allowed`): `alloc`
with `size >= min_alloc_size` and with ids that `storage.alloc` and
`SliceHandle::new` have not given to a page still in the pool, `cleanup` with a
non-decreasing `alloc_nr`, a drop only of a handle held.
-/

namespace CubeCl.Runtime

set_option autoImplicit false

/-- One call on the pool, or one drop of a handle it returned. -/
inductive Op
  | tryReserve (size : Nat)
  | alloc (size : Nat) (storage : StorageId) (handle : SliceId)
  | cleanup (allocNr : Nat)
  | drop (handle : SliceId)
deriving DecidableEq, Repr

/-- The pool, the handles held outside it, the storage's live buffers, and ghost history. -/
structure World where
  pool : ExclusiveMemoryPool
  holders : SliceId → Nat
  live : StorageId → Bool
  lastAllocNr : Nat
  freeChecks : SliceId → Nat

namespace ExclusiveMemoryPool

/-- The rate limit of `cleanup` lets this call inspect the pages. -/
def checkDue (pool : ExclusiveMemoryPool) (allocNr : Nat) : Prop :=
  pool.deallocPeriod / allocAfterFree ≤ allocNr - pool.lastDeallocCheck

instance (pool : ExclusiveMemoryPool) (allocNr : Nat) : Decidable (pool.checkDue allocNr) :=
  inferInstanceAs (Decidable (_ ≤ _))

/-- The handles of the free pages. -/
def freeHandles (holders : SliceId → Nat) (pool : ExclusiveMemoryPool) : List SliceId :=
  (pool.pages.filter (·.slice.isFree holders)).map (·.slice.handle)

end ExclusiveMemoryPool

namespace World

variable (overAlloc : Nat → Nat)

/-- Before any call: the pool `new` built, nothing held, nothing allocated. -/
def init (pool : ExclusiveMemoryPool) : World := ⟨pool, fun _ => 0, fun _ => false, 0, fun _ => 0⟩

/-- The pool hands handle `h` out: one more clone held, no free check since. -/
def handOut (w : World) (pool : ExclusiveMemoryPool) (h : SliceId) : World :=
  { w with
    pool
    holders := Function.update w.holders h (w.holders h + 1)
    freeChecks := Function.update w.freeChecks h 0 }

/-- The free checks after a call of `cleanup` at `allocNr`. -/
def countFreeChecks (w : World) (allocNr : Nat) : SliceId → Nat :=
  if w.pool.checkDue allocNr then
    fun h => if h ∈ w.pool.freeHandles w.holders then w.freeChecks h + 1 else w.freeChecks h
  else w.freeChecks

/-- One operation; `none` where the code panics. -/
def step (w : World) : Op → Option World
  | .tryReserve size =>
    match w.pool.tryReserve w.holders size with
    | (pool, some h) => some (w.handOut pool h)
    | (pool, none) => some { w with pool }
  | .alloc size storage handle =>
    (w.pool.alloc overAlloc storage handle size).map fun r =>
      { w.handOut r.1 r.2 with live := Function.update w.live storage true }
  | .cleanup allocNr =>
    (w.pool.cleanup w.holders allocNr).map fun r =>
      { w with
        pool := r.1
        live := fun id => w.live id && !decide (id ∈ r.2)
        lastAllocNr := allocNr
        freeChecks := w.countFreeChecks allocNr }
  | .drop h => some { w with holders := Function.update w.holders h (w.holders h - 1) }

/-- The world after `ops` in order; `none` where one of them panics. -/
def run (w : World) : List Op → Option World
  | [] => some w
  | op :: ops => (w.step overAlloc op).bind fun w' => w'.run ops

/-- What the callers promise of each operation. -/
def Allowed (w : World) : Op → Prop
  | .tryReserve _ => True
  | .alloc size storage handle =>
    w.pool.minAllocSize ≤ size ∧ storage ∉ w.pool.storageIds ∧ handle ∉ w.pool.handles
  | .cleanup allocNr => w.lastAllocNr ≤ allocNr
  | .drop handle => 0 < w.holders handle

/-- A run of allowed operations from `w` to `w'`. -/
inductive Steps : World → List Op → World → Prop
  | nil (w : World) : Steps w [] w
  | cons {w w₁ w₂ : World} {op : Op} {ops : List Op} :
      w.Allowed op → w.step overAlloc op = some w₁ → Steps w₁ ops w₂ → Steps w (op :: ops) w₂

/-- A world some run reaches from a pool fresh from `new`. -/
def Reachable (w : World) : Prop :=
  ∃ minAllocSize alignment deallocPeriod pool ops,
    ExclusiveMemoryPool.new minAllocSize alignment deallocPeriod = some pool ∧
      Steps overAlloc (init pool) ops w

variable {overAlloc}

/-- A property that every allowed step of a kind `Q` keeps holds along any run of such steps. -/
theorem Steps.invariant {P : World → Prop} {Q : Op → Prop}
    (hstep : ∀ {w op w'}, P w → w.Allowed op → Q op → w.step overAlloc op = some w' → P w')
    {w w' : World} {ops : List Op} (hrun : Steps overAlloc w ops w') (hops : ∀ op ∈ ops, Q op)
    (hw : P w) : P w' := by
  induction hrun with
  | nil => exact hw
  | cons hallowed hs _ ih =>
    exact ih (fun op hop => hops op (List.mem_cons_of_mem _ hop))
      (hstep hw hallowed (hops _ (List.mem_cons_self _ _)) hs)

/-- A property that every step of a kind `Q` keeps holds after any sequence of such steps. -/
theorem run_invariant {P : World → Prop} {Q : Op → Prop}
    (hstep : ∀ {w op w'}, P w → Q op → w.step overAlloc op = some w' → P w') :
    ∀ {w w' : World} {ops : List Op}, w.run overAlloc ops = some w' → (∀ op ∈ ops, Q op) →
      P w → P w'
  | _, _, [], hrun, _, hw => by cases hrun; exact hw
  | w, _, op :: ops, hrun, hops, hw => by
    obtain ⟨w₁, hs, hrun⟩ := Option.bind_eq_some.1 hrun
    exact run_invariant hstep hrun (fun op' hop => hops op' (List.mem_cons_of_mem _ hop))
      (hstep hw (hops op (List.mem_cons_self _ _)) hs)

/-- `Steps.invariant` for properties every allowed step keeps. -/
theorem Reachable.invariant {P : World → Prop}
    (hinit : ∀ pool : ExclusiveMemoryPool, pool.pages = [] → pool.lastDeallocCheck = 0 →
      pool.biggestAlloc = pool.minAllocSize → P (init pool))
    (hstep : ∀ {w op w'}, P w → w.Allowed op → w.step overAlloc op = some w' → P w')
    {w : World} (hw : Reachable overAlloc w) : P w := by
  obtain ⟨minAllocSize, alignment, deallocPeriod, pool, ops, hnew, hrun⟩ := hw
  refine Steps.invariant (Q := fun _ => True) (fun hP ha _ hs => hstep hP ha hs) hrun
    (fun _ _ => trivial) ?_
  unfold ExclusiveMemoryPool.new at hnew
  split at hnew
  · cases hnew; exact hinit _ rfl rfl rfl
  · cases hnew

@[simp] theorem handOut_pool (w : World) (pool : ExclusiveMemoryPool) (h : SliceId) :
    (w.handOut pool h).pool = pool := rfl

@[simp] theorem handOut_live (w : World) (pool : ExclusiveMemoryPool) (h : SliceId) :
    (w.handOut pool h).live = w.live := rfl

@[simp] theorem handOut_lastAllocNr (w : World) (pool : ExclusiveMemoryPool) (h : SliceId) :
    (w.handOut pool h).lastAllocNr = w.lastAllocNr := rfl

/-- Everything a `try_reserve` step can do: nothing, or hand out the handle of the page
`get_free_page` picks, narrowed in place. -/
theorem step_tryReserve_cases {w w' : World} {size : Nat}
    (h : w.step overAlloc (.tryReserve size) = some w') :
    w' = w ∨ ∃ i page, w.pool.getFreePage w.holders size = some (i, page) ∧
      w' = w.handOut
        { w.pool with pages := w.pool.pages.set i (page.reserve size (calculatePadding size w.pool.alignment)) }
        page.slice.handle := by
  simp only [step] at h
  rcases ExclusiveMemoryPool.tryReserve_cases w.holders w.pool size with
    hr | ⟨i, page, -, hfp, hr⟩ <;> rw [hr] at h <;> cases h
  · exact .inl rfl
  · exact .inr ⟨i, page, hfp, rfl⟩

end World

end CubeCl.Runtime
