import CubeCl.Runtime.PoolInvariant

/-!
# No double use, and the fast path of `try_reserve`

From `World.Inv`: the pool never hands out a page a caller still holds, never
deallocates one, and never deallocates a buffer twice. Whatever the callers do,
the `size > biggest_alloc` early return of `try_reserve` agrees with the
best-fit search it skips.
-/

namespace CubeCl.Runtime

set_option autoImplicit false

namespace World

variable {overAlloc : Nat → Nat} {w : World}

/-- Pages of a world with unique buffers that share a buffer are the same page. -/
theorem Inv.page_eq_of_storage (hw : w.Inv) {p q : MemoryPage} (hp : p ∈ w.pool.pages)
    (hq : q ∈ w.pool.pages) (h : p.slice.storage.id = q.slice.storage.id) : p = q :=
  List.inj_on_of_nodup_map hw.storageIds_nodup hp hq h

/-- The world after one `alloc` of 100 bytes on buffer `7` with handle `0`, from a pool `new`
built with `min_alloc_size = alignment = 4` and `dealloc_period = 5`, is reachable. -/
theorem reachable_after_alloc : Reachable (· * 2)
    { (init ⟨[], 4, 5, 0, 4, 4, Nat.succ_pos 3⟩).handOut
        ⟨[⟨⟨⟨7, ⟨0, 100⟩⟩, 0, 0⟩, 200, 4⟩], 4, 5, 0, 4, 200, Nat.succ_pos 3⟩ 0 with
      live := Function.update (fun _ => false) 7 true } :=
  ⟨4, 4, 5, _, [.alloc 100 7 0], rfl, .cons ⟨by decide, by decide, by decide⟩ rfl (.nil _)⟩

/-- No double use in a world: a handle is held outside the pool at most once and resolves to
its page; two handles never resolve to one buffer, and only to live ones; `try_reserve` returns
only a handle no caller holds; `cleanup` deallocates only free pages, each buffer at most once
and only while live, and drops their pages so that `get` no longer returns them. -/
structure NoDoubleUse (w : World) : Prop where
  held_at_most_once : ∀ h, w.holders h ≤ 1
  held_resolves : ∀ h, 0 < w.holders h → (w.pool.get h).isSome
  buffers_distinct : ∀ h₁ h₂ s₁ s₂,
    w.pool.get h₁ = some s₁ → w.pool.get h₂ = some s₂ → s₁.id = s₂.id → h₁ = h₂
  resolves_live : ∀ h s, w.pool.get h = some s → w.live s.id = true
  reserve_free : ∀ size pool' h, w.pool.tryReserve w.holders size = (pool', some h) → w.holders h = 0
  cleanup_safe : ∀ allocNr pool' freed, w.pool.cleanup w.holders allocNr = some (pool', freed) →
    freed.Nodup ∧
    (∀ id ∈ freed, w.live id = true ∧
      ∃ page ∈ w.pool.pages, page.slice.storage.id = id ∧ w.holders page.slice.handle = 0) ∧
    ∀ h s, pool'.get h = some s → s.id ∉ freed

/-- `cleanup` deallocates only live buffers of free pages, each once, and drops their pages. -/
theorem Inv.cleanup_safe (hw : w.Inv) {allocNr : Nat} {pool' : ExclusiveMemoryPool}
    {freed : List StorageId} (hc : w.pool.cleanup w.holders allocNr = some (pool', freed)) :
    freed.Nodup ∧
    (∀ id ∈ freed, w.live id = true ∧
      ∃ page ∈ w.pool.pages, page.slice.storage.id = id ∧ w.holders page.slice.handle = 0) ∧
    ∀ h s, pool'.get h = some s → s.id ∉ freed := by
  obtain ⟨-, ⟨-, hres⟩ | ⟨-, hres⟩⟩ := ExclusiveMemoryPool.cleanup_eq_some hc
  · obtain ⟨rfl, rfl⟩ := Prod.mk.inj hres
    simp
  obtain ⟨rfl, rfl⟩ := Prod.mk.inj hres
  refine ⟨hw.storageIds_nodup.sublist ((List.filter_sublist _).map _), ?freed, ?dropped⟩
  case freed =>
    intro id hid
    obtain ⟨p, hp, rfl⟩ := List.mem_map.1 hid
    obtain ⟨hp, hnone⟩ := List.mem_filter.1 hp
    obtain ⟨hfree, -⟩ := ExclusiveMemoryPool.checkIdle_eq_none.1 (Option.isNone_iff_eq_none.1 hnone)
    exact ⟨(hw.live_iff _).2 (List.mem_map_of_mem _ hp), p, hp, rfl, by simpa using hfree⟩
  case dropped =>
    intro h s hs hfreed
    obtain ⟨q, hq, -, rfl⟩ := ExclusiveMemoryPool.mem_get hs
    obtain ⟨p, hp, hpq⟩ := List.mem_filterMap.1 hq
    obtain ⟨r, hr, hrq⟩ := List.mem_map.1 hfreed
    obtain ⟨hr, hnone⟩ := List.mem_filter.1 hr
    rw [(ExclusiveMemoryPool.checkIdle_eq_some hpq).1] at hrq
    rw [hw.page_eq_of_storage hr hp hrq, hpq] at hnone
    cases hnone

/-- **No double use.** Every reachable world has no double use. -/
theorem exclusive_pool_no_double_use (hw : Reachable overAlloc w) : w.NoDoubleUse := by
  have hinv := reachable_inv hw
  refine ⟨hinv.holders_le_one, fun h hpos => ExclusiveMemoryPool.get_isSome_of_mem (hinv.held_mem h hpos),
    ?distinct, ?live, ?reserve, fun _ _ _ => hinv.cleanup_safe⟩
  case distinct =>
    intro h₁ h₂ s₁ s₂ hs₁ hs₂ hid
    obtain ⟨p₁, hp₁, rfl, rfl⟩ := ExclusiveMemoryPool.mem_get hs₁
    obtain ⟨p₂, hp₂, rfl, rfl⟩ := ExclusiveMemoryPool.mem_get hs₂
    rw [hinv.page_eq_of_storage hp₁ hp₂ hid]
  case live =>
    intro h s hs
    obtain ⟨p, hp, -, rfl⟩ := ExclusiveMemoryPool.mem_get hs
    exact (hinv.live_iff _).2 (List.mem_map_of_mem _ hp)
  case reserve =>
    intro size pool' h hr
    obtain ⟨_, page, hfp, rfl, -⟩ := ExclusiveMemoryPool.tryReserve_eq_some hr
    simpa using (ExclusiveMemoryPool.getFreePage_eq_some hfp).2.2.1

theorem no_double_use_after_alloc : Reachable (· * 2)
      { (init ⟨[], 4, 5, 0, 4, 4, Nat.succ_pos 3⟩).handOut
        ⟨[⟨⟨⟨7, ⟨0, 100⟩⟩, 0, 0⟩, 200, 4⟩], 4, 5, 0, 4, 200, Nat.succ_pos 3⟩ 0 with
      live := Function.update (fun _ => false) 7 true } ∧
    World.NoDoubleUse
      { (init ⟨[], 4, 5, 0, 4, 4, Nat.succ_pos 3⟩).handOut
        ⟨[⟨⟨⟨7, ⟨0, 100⟩⟩, 0, 0⟩, 200, 4⟩], 4, 5, 0, 4, 200, Nat.succ_pos 3⟩ 0 with
      live := Function.update (fun _ => false) 7 true } :=
  ⟨reachable_after_alloc, exclusive_pool_no_double_use reachable_after_alloc⟩

/-- `biggest_alloc` bounds every page. -/
def BiggestBounds (w : World) : Prop := ∀ page ∈ w.pool.pages, page.allocSize ≤ w.pool.biggestAlloc

theorem biggestBounds_step {w' : World} (hw : w.BiggestBounds) {op : Op}
    (h : w.step overAlloc op = some w') : w'.BiggestBounds := by
  cases op with
  | tryReserve size =>
    obtain rfl | ⟨i, page, hfp, rfl⟩ := step_tryReserve_cases h
    · exact hw
    intro q hq
    rcases List.mem_or_eq_of_mem_set hq with hq | rfl
    · exact hw q hq
    · exact hw page (List.getElem?_mem (ExclusiveMemoryPool.getFreePage_eq_some hfp).1)
  | alloc size storage handle =>
    simp only [step, Option.map_eq_some'] at h
    obtain ⟨r, hr, rfl⟩ := h
    obtain ⟨-, -, rfl⟩ := ExclusiveMemoryPool.alloc_eq_some.1 hr
    intro q hq
    simp only [handOut_pool, List.mem_append, List.mem_singleton] at hq
    rcases hq with hq | rfl
    · exact Nat.le_trans (hw q hq) (Nat.le_max_left _ _)
    · exact Nat.le_max_right _ _
  | cleanup allocNr =>
    simp only [step, Option.map_eq_some'] at h
    obtain ⟨r, hr, rfl⟩ := h
    obtain ⟨-, ⟨-, rfl⟩ | ⟨-, rfl⟩⟩ := ExclusiveMemoryPool.cleanup_eq_some hr
    · exact hw
    · intro q hq
      obtain ⟨p, hp, hpq⟩ := List.mem_filterMap.1 hq
      rw [(ExclusiveMemoryPool.checkIdle_eq_some hpq).2.1]
      exact hw p hp
  | drop handle =>
    simp only [step, Option.some.injEq] at h
    subst h
    exact hw

/-- The fast path of `try_reserve` at `size` agrees with best fit: `biggest_alloc` bounds
every page, a handle comes back exactly when some free page fits, the page it names is a
smallest free page that fits, and the call changes only that page: its window becomes
`{offset: 0, size}` of the same buffer, its padding `calculate_padding(size, alignment)`,
its idle count one less; a call that returns nothing leaves the pool as it was. -/
structure BestFit (w : World) (size : Nat) : Prop where
  biggest_bounds : w.BiggestBounds
  some_iff_fits : (w.pool.tryReserve w.holders size).2.isSome ↔
    ∃ page ∈ w.pool.pages, page.slice.isFree w.holders = true ∧ size ≤ page.allocSize
  smallest_fit : ∀ pool' h, w.pool.tryReserve w.holders size = (pool', some h) →
    ∃ page ∈ w.pool.pages, page.slice.handle = h ∧ page.slice.isFree w.holders = true ∧
      size ≤ page.allocSize ∧
      (∀ q ∈ w.pool.pages, q.slice.isFree w.holders = true → size ≤ q.allocSize →
        page.allocSize ≤ q.allocSize) ∧
      ∃ i, w.pool.pages[i]? = some page ∧
        pool' = { w.pool with
          pages := w.pool.pages.set i ⟨⟨⟨page.slice.storage.id, ⟨0, size⟩⟩, h,
            calculatePadding size w.pool.alignment⟩, page.allocSize, page.freeCount - 1⟩ }
  none_unchanged : (w.pool.tryReserve w.holders size).2 = none →
    (w.pool.tryReserve w.holders size).1 = w.pool

/-- Where `biggest_alloc` bounds every page, `try_reserve` returns a handle exactly when a
free page fits. -/
theorem BiggestBounds.tryReserve_isSome_iff (hb : w.BiggestBounds) (size : Nat) :
    (w.pool.tryReserve w.holders size).2.isSome ↔
      ∃ page ∈ w.pool.pages, page.slice.isFree w.holders = true ∧ size ≤ page.allocSize := by
  rcases ExclusiveMemoryPool.tryReserve_cases w.holders w.pool size with
    hr | ⟨i, page, -, hfp, hr⟩
  · rw [hr]
    simp only [Option.isSome_none, Bool.false_eq_true, false_iff, not_exists, not_and, not_le]
    intro page hp hfree
    rcases ExclusiveMemoryPool.tryReserve_snd_eq_none_iff.1 (congrArg Prod.snd hr) with hbig | hnone
    · exact Nat.lt_of_le_of_lt (hb page hp) hbig
    · exact ExclusiveMemoryPool.getFreePage_eq_none.1 hnone page hp hfree
  · obtain ⟨hi, hsize, hfree, -⟩ := ExclusiveMemoryPool.getFreePage_eq_some hfp
    simp only [hr, Option.isSome_some, true_iff]
    exact ⟨page, List.getElem?_mem hi, hfree, hsize⟩

/-- **The fast path agrees with best fit.** After any sequence of operations on a pool from
`new`, for every size. -/
theorem try_reserve_agrees_with_best_fit {minAllocSize alignment deallocPeriod : Nat}
    {pool : ExclusiveMemoryPool} {ops : List Op}
    (hnew : ExclusiveMemoryPool.new minAllocSize alignment deallocPeriod = some pool)
    (hrun : (init pool).run overAlloc ops = some w) (size : Nat) : w.BestFit size := by
  have hinit : (init pool).BiggestBounds := by
    unfold ExclusiveMemoryPool.new at hnew
    split at hnew
    · cases hnew; intro page hp; cases hp
    · cases hnew
  have hb : w.BiggestBounds :=
    run_invariant (Q := fun _ => True) (fun hw _ hs => biggestBounds_step hw hs) hrun
      (fun _ _ => trivial) hinit
  refine ⟨hb, hb.tryReserve_isSome_iff size, ?smallest, ?unchanged⟩
  case smallest =>
    intro pool' h hr
    obtain ⟨i, page, hfp, rfl, rfl⟩ := ExclusiveMemoryPool.tryReserve_eq_some hr
    obtain ⟨hi, hsize, hfree, hmin⟩ := ExclusiveMemoryPool.getFreePage_eq_some hfp
    exact ⟨page, List.getElem?_mem hi, rfl, hfree, hsize, hmin, i, hi, rfl⟩
  case unchanged =>
    intro hnone
    rcases ExclusiveMemoryPool.tryReserve_cases w.holders w.pool size with hr | ⟨_, _, -, -, hr⟩
    · rw [hr]
    · rw [hr] at hnone; cases hnone

theorem best_fit_after_alloc :
    ExclusiveMemoryPool.new 4 4 5 = some ⟨[], 4, 5, 0, 4, 4, Nat.succ_pos 3⟩ ∧
    (init ⟨[], 4, 5, 0, 4, 4, Nat.succ_pos 3⟩).run (· * 2) [.alloc 100 7 0] = some
      { (init ⟨[], 4, 5, 0, 4, 4, Nat.succ_pos 3⟩).handOut
        ⟨[⟨⟨⟨7, ⟨0, 100⟩⟩, 0, 0⟩, 200, 4⟩], 4, 5, 0, 4, 200, Nat.succ_pos 3⟩ 0 with
      live := Function.update (fun _ => false) 7 true } ∧
    World.BestFit
      { (init ⟨[], 4, 5, 0, 4, 4, Nat.succ_pos 3⟩).handOut
        ⟨[⟨⟨⟨7, ⟨0, 100⟩⟩, 0, 0⟩, 200, 4⟩], 4, 5, 0, 4, 200, Nat.succ_pos 3⟩ 0 with
      live := Function.update (fun _ => false) 7 true } 90 := by
  refine ⟨?hnew, ?hrun, try_reserve_agrees_with_best_fit ?hnew ?hrun 90⟩
  · rfl
  · rfl

end World

end CubeCl.Runtime
