import CubeCl.Runtime.Storage
import Mathlib.Data.List.MinMax

/-!
# `ExclusiveMemoryPool` (`memory_pool/exclusive_pool.rs`)

One slice per page. `try_reserve` narrows the smallest free page that fits
(`get_free_page`, a `filter` then `min_by_key`), `alloc` pushes a new page of
`size * OVER_ALLOC` bytes rounded up to the alignment (`alloc_page`), and
`cleanup` counts idle checks per free page and deallocates a page once the
count reaches `ALLOC_AFTER_FREE`, at most once per `dealloc_period /
ALLOC_AFTER_FREE` allocations.

The `f64` product `(size as f64 * OVER_ALLOC).round() as u64` is the parameter
`overAlloc`: floating point is outside the model. `u64` arithmetic is `Nat`,
except where a history of calls can push it out of `u64`: the subtraction
`alloc_nr - last_dealloc_check` and the addition in `next_multiple_of` are
`none` (a panic) where they leave it.
-/

namespace CubeCl.Runtime

set_option autoImplicit false

/-- `MemoryPage`: a coarse buffer holding exactly one slice. -/
structure MemoryPage where
  slice : Slice
  allocSize : Nat
  freeCount : Nat
deriving DecidableEq, Repr

/-- `ALLOC_AFTER_FREE`. -/
def allocAfterFree : Nat := 5

/-- `ExclusiveMemoryPool`. Its constructor asserts `min_alloc_size % alignment == 0`,
which panics on a zero alignment, so every pool's alignment is positive. -/
structure ExclusiveMemoryPool where
  pages : List MemoryPage
  alignment : Nat
  deallocPeriod : Nat
  lastDeallocCheck : Nat
  minAllocSize : Nat
  biggestAlloc : Nat
  alignment_pos : 0 < alignment

/-- `MemoryUsage`, as `get_memory_usage` fills it. -/
structure MemoryUsage where
  numberAllocs : Nat
  bytesInUse : Nat
  bytesPadding : Nat
  bytesReserved : Nat
deriving DecidableEq, Repr

/-- The update `try_reserve` makes to the page it picks: the window narrowed to
`{offset: 0, size}`, the padding recomputed, the idle count lowered by one. -/
def MemoryPage.reserve (page : MemoryPage) (size padding : Nat) : MemoryPage :=
  { page with
    slice := { page.slice with storage := { page.slice.storage with utilization := ⟨0, size⟩ }, padding }
    freeCount := page.freeCount - 1 }

/-- The closure `cleanup` passes to `retain_mut`: a free page counts one more idle
check and is dropped (`none`) once the count reaches `ALLOC_AFTER_FREE`. -/
def MemoryPage.checkIdle (holders : SliceId → Nat) (page : MemoryPage) : Option MemoryPage :=
  if page.slice.isFree holders then
    if allocAfterFree ≤ page.freeCount + 1 then none
    else some { page with freeCount := page.freeCount + 1 }
  else some page

namespace ExclusiveMemoryPool

variable (holders : SliceId → Nat) (overAlloc : Nat → Nat)

/-- `ExclusiveMemoryPool::new`; `none` where its assertion panics. -/
def new (minAllocSize alignment deallocPeriod : Nat) : Option ExclusiveMemoryPool :=
  if h : 0 < alignment ∧ minAllocSize % alignment = 0 then
    some ⟨[], alignment, deallocPeriod, 0, minAllocSize, minAllocSize, h.1⟩
  else none

/-- The handles of the pool's slices, page by page. -/
def handles (pool : ExclusiveMemoryPool) : List SliceId := pool.pages.map (·.slice.handle)

/-- The buffers of the pool's pages, page by page. -/
def storageIds (pool : ExclusiveMemoryPool) : List StorageId := pool.pages.map (·.slice.storage.id)

/-- `get_free_page`: the smallest free page of at least `size` bytes and its index;
like `min_by_key`, the first of several equally small ones. -/
def getFreePage (pool : ExclusiveMemoryPool) (size : Nat) : Option (Nat × MemoryPage) :=
  (pool.pages.enum.filter fun p => decide (size ≤ p.2.allocSize) && p.2.slice.isFree holders).argmin
    (·.2.allocSize)

/-- `alloc_page`: pushes a page of `next_multiple_of(overAlloc size, alignment)` bytes,
narrowed to `{offset: 0, size}`, and returns its index. `storage` and `handle` are
what `storage.alloc` and `SliceHandle::new` return. -/
def allocPage (pool : ExclusiveMemoryPool) (storage : StorageId) (handle : SliceId) (size : Nat) :
    Option (ExclusiveMemoryPool × Nat) :=
  let allocSize := nextMultipleOf (overAlloc size) pool.alignment
  if 2 ^ 64 ≤ allocSize then none
  else
    let padding := calculatePadding size pool.alignment
    let slice : Slice := ⟨⟨storage, ⟨0, size⟩⟩, handle, padding⟩
    some ({ pool with
      biggestAlloc := max pool.biggestAlloc allocSize
      pages := pool.pages ++ [⟨slice, allocSize, 0⟩] }, pool.pages.length)

/-- `MemoryPool::get`: the storage of the page whose slice has the binding's id. -/
def get (pool : ExclusiveMemoryPool) (binding : SliceId) : Option StorageHandle :=
  (pool.pages.find? fun page => page.slice.id == binding).map (·.slice.storage)

/-- `MemoryPool::try_reserve`: the pool after the call and the handle it returns. -/
def tryReserve (pool : ExclusiveMemoryPool) (size : Nat) : ExclusiveMemoryPool × Option SliceId :=
  if pool.biggestAlloc < size then (pool, none)
  else
    let padding := calculatePadding size pool.alignment
    match pool.getFreePage holders size with
    | some (i, page) =>
      ({ pool with pages := pool.pages.set i (page.reserve size padding) }, some page.slice.handle)
    | none => (pool, none)

/-- `MemoryPool::alloc`; `none` where its assertion (or `alloc_page`) panics. -/
def alloc (pool : ExclusiveMemoryPool) (storage : StorageId) (handle : SliceId) (size : Nat) :
    Option (ExclusiveMemoryPool × SliceId) :=
  if size < pool.minAllocSize then none
  else do
    let (pool, idx) ← pool.allocPage overAlloc storage handle size
    some ({ pool with
      pages := pool.pages.modify (fun page => { page with freeCount := allocAfterFree - 1 }) idx },
      handle)

/-- `MemoryPool::get_memory_usage`. -/
def getMemoryUsage (pool : ExclusiveMemoryPool) : MemoryUsage :=
  let usedSlices := pool.pages.filter fun page => !page.slice.isFree holders
  { numberAllocs := usedSlices.length
    bytesInUse := (usedSlices.map (·.slice.storage.size)).sum
    bytesPadding := (usedSlices.map (·.slice.padding)).sum
    bytesReserved := (pool.pages.map (·.allocSize)).sum }

/-- `MemoryPool::handles_alloc`. -/
def handlesAlloc (pool : ExclusiveMemoryPool) (size : Nat) : Bool := pool.minAllocSize ≤ size

/-- `MemoryPool::cleanup`: the pool after the call and the buffers it passes to
`storage.dealloc`, in order; `none` where `alloc_nr - last_dealloc_check` underflows. -/
def cleanup (pool : ExclusiveMemoryPool) (allocNr : Nat) :
    Option (ExclusiveMemoryPool × List StorageId) :=
  if allocNr < pool.lastDeallocCheck then none
  else if allocNr - pool.lastDeallocCheck < pool.deallocPeriod / allocAfterFree then some (pool, [])
  else
    some ({ pool with
      lastDeallocCheck := allocNr
      pages := pool.pages.filterMap (MemoryPage.checkIdle holders) },
      (pool.pages.filter fun page => (page.checkIdle holders).isNone).map (·.slice.storage.id))

/-! ## One lemma per function -/

section Lemmas

variable {holders overAlloc} {pool : ExclusiveMemoryPool}

theorem getFreePage_eq_some {size i : Nat} {page : MemoryPage}
    (h : pool.getFreePage holders size = some (i, page)) :
    pool.pages[i]? = some page ∧ size ≤ page.allocSize ∧ page.slice.isFree holders = true ∧
      ∀ q ∈ pool.pages, q.slice.isFree holders = true → size ≤ q.allocSize →
        page.allocSize ≤ q.allocSize := by
  unfold getFreePage at h
  have hmem := List.argmin_mem h
  simp only [List.mem_filter, List.mem_enum_iff_getElem?, Bool.and_eq_true,
    decide_eq_true_eq] at hmem
  refine ⟨hmem.1, hmem.2.1, hmem.2.2, fun q hq hfree hsize => ?_⟩
  obtain ⟨j, hj⟩ := List.mem_iff_getElem?.1 hq
  have hjq : (j, q) ∈ pool.pages.enum.filter
      (fun p => decide (size ≤ p.2.allocSize) && p.2.slice.isFree holders) := by
    simp only [List.mem_filter, List.mem_enum_iff_getElem?, hj, hfree, hsize, decide_True,
      Bool.and_self, and_self]
  exact List.le_of_mem_argmin (f := fun p : Nat × MemoryPage => p.2.allocSize) hjq h

theorem getFreePage_eq_none {size : Nat} :
    pool.getFreePage holders size = none ↔
      ∀ q ∈ pool.pages, q.slice.isFree holders = true → q.allocSize < size := by
  simp only [getFreePage, List.argmin_eq_none, List.filter_eq_nil_iff, Bool.and_eq_true,
    decide_eq_true_eq, not_and, Prod.forall, List.mem_enum_iff_getElem?]
  constructor
  · intro h q hq hfree
    obtain ⟨j, hj⟩ := List.mem_iff_getElem?.1 hq
    exact Nat.lt_of_not_le fun hle => h j q hj hle hfree
  · intro h j q hj hle hfree
    exact absurd hle (Nat.not_le_of_lt (h q (List.getElem?_mem hj) hfree))

/-- Everything `try_reserve` can do: nothing, or narrow the page `get_free_page` picks. -/
theorem tryReserve_cases (holders : SliceId → Nat) (pool : ExclusiveMemoryPool) (size : Nat) :
    pool.tryReserve holders size = (pool, none) ∨
      ∃ i page, size ≤ pool.biggestAlloc ∧ pool.getFreePage holders size = some (i, page) ∧
        pool.tryReserve holders size =
          ({ pool with pages := pool.pages.set i (page.reserve size (calculatePadding size pool.alignment)) },
            some page.slice.handle) := by
  unfold tryReserve
  split
  · exact .inl rfl
  · split
    · exact .inr ⟨_, _, by omega, ‹_›, rfl⟩
    · exact .inl rfl

/-- A handle from `try_reserve` names the page `get_free_page` picks, narrowed in place. -/
theorem tryReserve_eq_some {size : Nat} {pool' : ExclusiveMemoryPool} {h : SliceId}
    (hr : pool.tryReserve holders size = (pool', some h)) :
    ∃ i page, pool.getFreePage holders size = some (i, page) ∧ h = page.slice.handle ∧
      pool' = { pool with pages := pool.pages.set i (page.reserve size (calculatePadding size pool.alignment)) } := by
  rcases tryReserve_cases holders pool size with hr' | ⟨i, page, -, hfp, hr'⟩ <;>
    rw [hr'] at hr <;> cases hr
  exact ⟨i, page, hfp, rfl, rfl⟩

theorem tryReserve_snd_eq_none_iff {size : Nat} :
    (pool.tryReserve holders size).2 = none ↔
      pool.biggestAlloc < size ∨ pool.getFreePage holders size = none := by
  unfold tryReserve
  split
  · simp_all
  · split <;> simp_all

@[simp] theorem reserve_slice_handle (page : MemoryPage) (size padding : Nat) :
    (page.reserve size padding).slice.handle = page.slice.handle := rfl

@[simp] theorem reserve_slice_storage_id (page : MemoryPage) (size padding : Nat) :
    (page.reserve size padding).slice.storage.id = page.slice.storage.id := rfl

@[simp] theorem reserve_allocSize (page : MemoryPage) (size padding : Nat) :
    (page.reserve size padding).allocSize = page.allocSize := rfl

@[simp] theorem reserve_freeCount (page : MemoryPage) (size padding : Nat) :
    (page.reserve size padding).freeCount = page.freeCount - 1 := rfl

private theorem modify_concat_length {α : Type} (f : α → α) (l : List α) (a : α) :
    (l ++ [a]).modify f l.length = l ++ [f a] := by
  induction l <;> simp_all

/-- `alloc` pushes one page, of `next_multiple_of(overAlloc size)` bytes and idle
count `ALLOC_AFTER_FREE - 1`, and returns its handle. -/
theorem alloc_eq_some {storage : StorageId} {handle : SliceId} {size : Nat}
    {res : ExclusiveMemoryPool × SliceId} :
    pool.alloc overAlloc storage handle size = some res ↔
      pool.minAllocSize ≤ size ∧ nextMultipleOf (overAlloc size) pool.alignment < 2 ^ 64 ∧
        res = ({ pool with
          biggestAlloc := max pool.biggestAlloc (nextMultipleOf (overAlloc size) pool.alignment)
          pages := pool.pages ++ [⟨⟨⟨storage, ⟨0, size⟩⟩, handle, calculatePadding size pool.alignment⟩,
            nextMultipleOf (overAlloc size) pool.alignment, allocAfterFree - 1⟩] }, handle) := by
  unfold alloc allocPage
  by_cases hmin : size < pool.minAllocSize
  · simp only [hmin, if_true]
    exact ⟨nofun, fun h => absurd h.1 (by omega)⟩
  · by_cases hbig : 2 ^ 64 ≤ nextMultipleOf (overAlloc size) pool.alignment
    · simp only [hmin, hbig, if_true, if_false, Option.bind_eq_bind, Option.none_bind]
      exact ⟨nofun, fun h => absurd h.2.1 (by omega)⟩
    · simp only [hmin, hbig, if_false, Option.bind_eq_bind, Option.some_bind, modify_concat_length]
      constructor
      · intro h; exact ⟨by omega, by omega, (Option.some.inj h).symm⟩
      · rintro ⟨-, -, rfl⟩; rfl

theorem mem_get {b : SliceId} {s : StorageHandle} (h : pool.get b = some s) :
    ∃ page ∈ pool.pages, page.slice.handle = b ∧ page.slice.storage = s := by
  obtain ⟨page, hfind, rfl⟩ := Option.map_eq_some'.1 h
  exact ⟨page, List.mem_of_find?_eq_some hfind, by simpa [Slice.id] using List.find?_some hfind, rfl⟩

theorem get_isSome_of_mem {b : SliceId} (h : b ∈ pool.handles) : (pool.get b).isSome := by
  obtain ⟨page, hpage, rfl⟩ := List.mem_map.1 h
  simp only [get, Option.isSome_map', List.find?_isSome]
  exact ⟨page, hpage, by simp [Slice.id]⟩

theorem checkIdle_eq_none {page : MemoryPage} :
    page.checkIdle holders = none ↔
      page.slice.isFree holders = true ∧ allocAfterFree ≤ page.freeCount + 1 := by
  unfold MemoryPage.checkIdle
  split <;> (try split) <;> simp_all

theorem checkIdle_eq_some {page q : MemoryPage} (h : page.checkIdle holders = some q) :
    q.slice = page.slice ∧ q.allocSize = page.allocSize ∧
      (page.slice.isFree holders = true →
        q.freeCount = page.freeCount + 1 ∧ page.freeCount + 1 < allocAfterFree) ∧
      (page.slice.isFree holders = false → q = page) := by
  unfold MemoryPage.checkIdle at h
  split at h
  · split at h
    · cases h
    · cases h; simp_all
  · cases h; simp_all

theorem checkIdle_of_not_free {page : MemoryPage} (h : page.slice.isFree holders = false) :
    page.checkIdle holders = some page := by
  simp [MemoryPage.checkIdle, h]

/-- `retain_mut` keeps the slices of the pages it does not drop, in order. -/
theorem filterMap_checkIdle_map {β : Type} (g : Slice → β) (pages : List MemoryPage) :
    (pages.filterMap (MemoryPage.checkIdle holders)).map (fun page => g page.slice) =
      (pages.filter fun page => (page.checkIdle holders).isSome).map (fun page => g page.slice) := by
  induction pages with
  | nil => rfl
  | cons page pages ih =>
    cases hp : page.checkIdle holders with
    | none => simp [List.filterMap_cons, List.filter_cons, hp, ih]
    | some q => simp [List.filterMap_cons, List.filter_cons, hp, ih, (checkIdle_eq_some hp).1]

/-- Everything `cleanup` can do: return early under the rate limit, or run the idle check. -/
theorem cleanup_eq_some {allocNr : Nat} {res : ExclusiveMemoryPool × List StorageId}
    (h : pool.cleanup holders allocNr = some res) :
    pool.lastDeallocCheck ≤ allocNr ∧
      (allocNr - pool.lastDeallocCheck < pool.deallocPeriod / allocAfterFree ∧ res = (pool, []) ∨
        pool.deallocPeriod / allocAfterFree ≤ allocNr - pool.lastDeallocCheck ∧
          res = ({ pool with
            lastDeallocCheck := allocNr
            pages := pool.pages.filterMap (MemoryPage.checkIdle holders) },
            (pool.pages.filter fun page => (page.checkIdle holders).isNone).map (·.slice.storage.id))) := by
  unfold cleanup at h
  split at h
  · cases h
  · split at h
    · exact ⟨by omega, .inl ⟨‹_›, (Option.some.inj h).symm⟩⟩
    · exact ⟨by omega, .inr ⟨by omega, (Option.some.inj h).symm⟩⟩

end Lemmas

end ExclusiveMemoryPool

end CubeCl.Runtime
