import Mathlib.Data.Nat.Bitwise
import Mathlib.Algebra.BigOperators.Group.Finset
import Mathlib.Order.Bounds.Basic
import Mathlib.Data.List.FinRange
import Mathlib.Algebra.Order.Ring.Nat

/-!
# Plane operations in the C++ backends (`cubecl-cpp/src/shared/warp.rs`)

`Display for WarpInstruction` lowers each plane (warp) operation of the IR to a loop of warp
shuffles, run once for each component of the variable. What that code computes, lane by lane,
is modelled here on a warp of `warpSizeChecked` lanes, all active and in lock step: a
variable is its value on each lane, `Fin w → Fin v → α` for `v` components.

Over it stands what each plane operation is for: every unit of the plane receives the sum,
product, greatest or least value, conjunction or disjunction of the whole plane, or the value of
the unit it names (`planeSum` and the others). The lowering meets it as follows.

* `reduceSum_eq_planeSum`, `reduceProd_eq_planeProd`: the xor butterfly of `reduce_operator`
  gives every lane the plane's sum or product, on a warp of `2 ^ t` lanes.
* `reduceMax_isGreatest`, `reduceMin_isLeast`: the shuffle-down tree of `reduce_comparison`
  gives lane `i` the greatest (least) value of the lanes from `i` on; lane `0` receives the
  plane's, the others in general do not.
* `reduceAll_eq_planeAll`, `reduceAny_eq_planeAny`, `broadcast_eq`: the votes are right on every
  warp; the broadcast, where its loop runs at all.
* `elect_eq_planeElect`, `elect_iff_dvd`: `Elect` compares `threadIdx.x % warpSize`, not the
  lane, with the leader, so it elects one unit per warp only where the cube's `x` dimension is
  a multiple of the warp size.
-/

namespace CubeCl.Cpp

set_option autoImplicit false

variable {α : Type} {w v : Nat}

/-! ## Shuffles and the loops around them -/

/-- Modelled from the spec: the dialect's `warp_shuffle_xor` is not in the source; it emits
`__shfl_xor_sync(mask, var, offset)`, with which lane `i` reads `var` of lane `i ^ offset`, and
keeps its own value where that lane is past the warp. -/
def shflXor (var : Fin w → α) (laneMask : Nat) (i : Fin w) : α :=
  if h : i.val ^^^ laneMask < w then var ⟨_, h⟩ else var i

/-- Modelled from the spec: the dialect's `warp_shuffle_down` is not in the source; it emits
`__shfl_down_sync(mask, var, offset)`, with which lane `i` reads `var` of lane `i + offset`, and
keeps its own value where that lane is past the warp. -/
def shflDown (var : Fin w → α) (delta : Nat) (i : Fin w) : α :=
  if h : i.val + delta < w then var ⟨_, h⟩ else var i

/-- Modelled from the spec: the dialect's `warp_shuffle` is not in the source; it emits
`__shfl_sync(mask, var, id)`, with which lane `i` reads `var` of lane `id` modulo the warp. -/
def shfl (var : Fin w → α) (srcLane : Nat) (i : Fin w) : α :=
  var ⟨srcLane % w, Nat.mod_lt _ (Nat.lt_of_le_of_lt (Nat.zero_le _) i.isLt)⟩

/-- Modelled from the spec: the dialect's `warp_all` is not in the source; it emits
`__all_sync(mask, var)`, true on every lane when `var` is true on all of them. -/
def warpAll (var : Fin w → Bool) : Bool := (List.finRange w).all var

/-- Modelled from the spec: the dialect's `warp_any` is not in the source; it emits
`__any_sync(mask, var)`, true on every lane when `var` is true on one of them. -/
def warpAny (var : Fin w → Bool) : Bool := (List.finRange w).any var

/-- The offsets of `for (int offset = 1; offset < warpSizeChecked; offset *= 2)`. -/
def upOffsets (warpSizeChecked : Nat) : List Nat :=
  ((List.range warpSizeChecked).map (2 ^ ·)).filter (· < warpSizeChecked)

/-- The offsets of `for (int offset = warpSizeChecked / 2; offset > 0; offset /= 2)`. -/
def downOffsets (warpSizeChecked : Nat) : List Nat :=
  ((List.range warpSizeChecked).map fun s => warpSizeChecked / 2 ^ (s + 1)).filter (0 < ·)

/-- The loop `reduce_operator` emits for one component: `indexed op= __shfl_xor_sync(..)`. -/
def operatorLoop (op : α → α → α) (var : Fin w → α) : Fin w → α :=
  (upOffsets w).foldl (fun var offset i => op (var i) (shflXor var offset i)) var

/-- The loop `reduce_comparison` emits for one component:
`indexed = instruction(indexed, __shfl_down_sync(..))`. -/
def comparisonLoop (instruction : α → α → α) (var : Fin w → α) : Fin w → α :=
  (downOffsets w).foldl (fun var offset i => instruction (var i) (shflDown var offset i)) var

/-- The loop `reduce_quantifier` emits for one component: `indexed = quantifier(indexed)`. -/
def quantifierLoop (quantifier : (Fin w → Bool) → Bool) (var : Fin w → Bool) : Fin w → Bool :=
  (upOffsets w).foldl (fun var _ _ => quantifier var) var

/-- The loop `Broadcast` emits for one component: `indexed = __shfl_sync(.., input, id)`. -/
def broadcastLoop (input : Fin w → α) (id : Fin w → Nat) (indexed : Fin w → α) : Fin w → α :=
  (upOffsets w).foldl (fun _ _ i => shfl input (id i) i) indexed

/-! ## Components -/

/-- Component `k` of a variable, on every lane: `optimized.index(k)`. -/
def column (var : Fin w → Fin v → α) (k : Fin v) : Fin w → α := fun i => var i k

/-- The variable with component `k` replaced. -/
def setColumn (var : Fin w → Fin v → α) (k : Fin v) (col : Fin w → α) : Fin w → Fin v → α :=
  fun i c => if c = k then col i else var i c

/-- `for k in 0..optimized.item().vectorization`: the loop of each component in turn, on the
variable as the previous ones left it. -/
def perComponent (loop : Fin v → (Fin w → α) → Fin w → α) (out : Fin w → Fin v → α) :
    Fin w → Fin v → α :=
  (List.finRange v).foldl (fun out k => setColumn out k (loop k (column out k))) out

/-! ## `Display for WarpInstruction` -/

/-- `reduce_operator`: `out = input`, then the xor-shuffle loop of `op` on each component. -/
def reduceOperator (op : α → α → α) (input : Fin w → Fin v → α) : Fin w → Fin v → α :=
  perComponent (fun _ => operatorLoop op) input

/-- `reduce_comparison`: `out = input`, then the shuffle-down loop of `instruction` on each
component; `__hmax`, `__hmax2` and `max` alike compute the greater value. -/
def reduceComparison (instruction : α → α → α) (input : Fin w → Fin v → α) : Fin w → Fin v → α :=
  perComponent (fun _ => comparisonLoop instruction) input

/-- `reduce_quantifier`: `out = input`, then the loop of `quantifier` on each component. -/
def reduceQuantifier (quantifier : (Fin w → Bool) → Bool) (input : Fin w → Fin v → Bool) :
    Fin w → Fin v → Bool :=
  perComponent (fun _ => quantifierLoop quantifier) input

/-- `WarpInstruction::ReduceSum`: `reduce_operator` with `+=`. -/
def reduceSum [Add α] : (Fin w → Fin v → α) → Fin w → Fin v → α := reduceOperator (· + ·)

/-- `WarpInstruction::ReduceProd`: `reduce_operator` with `*=`. -/
def reduceProd [Mul α] : (Fin w → Fin v → α) → Fin w → Fin v → α := reduceOperator (· * ·)

/-- `WarpInstruction::ReduceMax`: `reduce_comparison` with `max`. -/
def reduceMax [Max α] : (Fin w → Fin v → α) → Fin w → Fin v → α := reduceComparison max

/-- `WarpInstruction::ReduceMin`: `reduce_comparison` with `min`. -/
def reduceMin [Min α] : (Fin w → Fin v → α) → Fin w → Fin v → α := reduceComparison min

/-- `WarpInstruction::All`: `reduce_quantifier` with `warp_all`. -/
def reduceAll : (Fin w → Fin v → Bool) → Fin w → Fin v → Bool := reduceQuantifier warpAll

/-- `WarpInstruction::Any`: `reduce_quantifier` with `warp_any`. -/
def reduceAny : (Fin w → Fin v → Bool) → Fin w → Fin v → Bool := reduceQuantifier warpAny

/-- `WarpInstruction::Broadcast`: on each component, the shuffle from lane `id`, on every pass
of the loop; `out` is not set before it. -/
def broadcast (input : Fin w → Fin v → α) (id : Fin w → Nat) (out : Fin w → Fin v → α) :
    Fin w → Fin v → α :=
  perComponent (fun k => broadcastLoop (column input k) id) out

/-- `__ffs(x)` on the 32-bit `x`: one more than the position of its least significant set bit,
or `0` where `x` is `0`. -/
def ffs (x : Nat) : Nat := ((List.range 32).find? x.testBit).elim 0 (· + 1)

/-- `WarpInstruction::Elect` on lane `lane` of warp `warp`, in a cube whose `x` dimension is
`cubeDimX`:
`unsigned int mask = __activemask(); unsigned int leader = __ffs(mask) - 1;`
`out = threadIdx.x % warpSize == leader;`. The warps of a cube take its threads in linear
order, so the thread's `threadIdx.x` is `warp * warpSize + lane` modulo `cubeDimX`. -/
def elect (warpSize cubeDimX warp activeMask lane : Nat) : Bool :=
  let mask := activeMask % 2 ^ 32
  let leader := (ffs mask + (2 ^ 32 - 1)) % 2 ^ 32
  (warp * warpSize + lane) % cubeDimX % warpSize == leader

/-! ## What the plane operations mean -/

/-- `plane_sum`: every unit receives, component by component, the sum over the plane. -/
def planeSum [AddCommMonoid α] (input : Fin w → Fin v → α) : Fin w → Fin v → α :=
  fun _ c => ∑ j, input j c

/-- `plane_prod`: every unit receives, component by component, the product over the plane. -/
def planeProd [CommMonoid α] (input : Fin w → Fin v → α) : Fin w → Fin v → α :=
  fun _ c => ∏ j, input j c

/-- `plane_all`: every unit receives whether the component is true on the whole plane. -/
def planeAll (input : Fin w → Fin v → Bool) : Fin w → Fin v → Bool :=
  fun _ c => warpAll (column input c)

/-- `plane_any`: every unit receives whether the component is true on a unit of the plane. -/
def planeAny (input : Fin w → Fin v → Bool) : Fin w → Fin v → Bool :=
  fun _ c => warpAny (column input c)

/-- `plane_max`: every unit receives, component by component, the greatest value of the plane. -/
def IsPlaneMax [LinearOrder α] (input out : Fin w → Fin v → α) : Prop :=
  ∀ i c, IsGreatest (Set.range (column input c)) (out i c)

/-- `plane_broadcast`: every unit receives the value of the unit it names. -/
def planeBroadcast (input : Fin w → Fin v → α) (id : Fin w → Fin w) : Fin w → Fin v → α :=
  fun i c => input (id i) c

/-- `plane_elect`: the lowest active unit of the plane, and it alone. -/
def planeElect (activeMask lane : Nat) : Bool :=
  activeMask.testBit lane && (List.range lane).all fun l => !activeMask.testBit l

/-! ## Components run independently -/

theorem column_setColumn_of_ne {var : Fin w → Fin v → α} {k c : Fin v} (col : Fin w → α)
    (h : c ≠ k) : column (setColumn var k col) c = column var c := by
  funext i; simp [column, setColumn, h]

theorem foldl_setColumn (loop : Fin v → (Fin w → α) → Fin w → α) :
    ∀ ks : List (Fin v), ks.Nodup → ∀ out i c,
      ks.foldl (fun out k => setColumn out k (loop k (column out k))) out i c =
        if c ∈ ks then loop c (column out c) i else out i c
  | [], _, out, i, c => by simp
  | k :: ks, hnd, out, i, c => by
    obtain ⟨hk, hnd⟩ := List.nodup_cons.1 hnd
    rw [List.foldl_cons, foldl_setColumn loop ks hnd]
    by_cases hc : c ∈ ks
    · have hck : c ≠ k := fun h => hk (h ▸ hc)
      simp [hc, column_setColumn_of_ne _ hck]
    · by_cases hck : c = k
      · subst hck; simp [hc, setColumn]
      · simp [hc, hck, setColumn]

/-- Each component ends as its own loop leaves it, run on that component of the input. -/
@[simp] theorem perComponent_apply (loop : Fin v → (Fin w → α) → Fin w → α)
    (out : Fin w → Fin v → α) (i : Fin w) (c : Fin v) :
    perComponent loop out i c = loop c (column out c) i := by
  rw [perComponent, foldl_setColumn loop _ (List.nodup_finRange v), if_pos (List.mem_finRange c)]

/-! ## The offsets on a warp of `2 ^ t` lanes -/

theorem range_filter_lt {t n : Nat} (h : t ≤ n) : (List.range n).filter (· < t) = List.range t := by
  rw [show n = t + (n - t) by omega, List.range_add, List.filter_append,
    List.filter_eq_self.2 (fun a ha => by simpa using List.mem_range.1 ha),
    List.filter_eq_nil_iff.2 (fun a ha => by simp at ha ⊢; omega), List.append_nil]

theorem upOffsets_two_pow (t : Nat) : upOffsets (2 ^ t) = (List.range t).map (2 ^ ·) := by
  rw [upOffsets, List.filter_map]
  have hlt : (fun s => decide (2 ^ s < 2 ^ t)) = fun s => decide (s < t) := by
    funext s; simp [Nat.pow_lt_pow_iff_right (by decide : 1 < 2)]
  simp only [Function.comp_def, hlt, range_filter_lt (Nat.lt_two_pow t).le]

theorem downOffsets_two_pow (t : Nat) :
    downOffsets (2 ^ t) = (List.range t).map fun s => 2 ^ (t - (s + 1)) := by
  rw [downOffsets, List.filter_map]
  have hpos : (fun s => decide (0 < 2 ^ t / 2 ^ (s + 1))) = fun s => decide (s < t) := by
    funext s
    rw [decide_eq_decide, Nat.div_pos_iff (Nat.two_pow_pos _).ne',
      Nat.pow_le_pow_iff_right (by decide)]
    omega
  simp only [Function.comp_def, hpos, range_filter_lt (Nat.lt_two_pow t).le]
  exact List.map_congr_left fun s hs => Nat.pow_div (List.mem_range.1 hs) (by decide)

/-- The loops over `1, 2, ..` run at all exactly on warps of two lanes or more. -/
theorem upOffsets_eq_nil_iff : upOffsets w = [] ↔ w ≤ 1 := by
  rw [upOffsets, List.filter_eq_nil_iff]
  constructor
  · intro h
    by_contra hw
    exact absurd (h 1 (List.mem_map.2 ⟨0, List.mem_range.2 (by omega), rfl⟩)) (by simp; omega)
  · intro hw a ha
    obtain ⟨s, -, rfl⟩ := List.mem_map.1 ha
    simpa using Nat.le_trans hw Nat.one_le_two_pow

/-! ## The xor butterfly of `reduce_operator` -/

theorem shiftRight_eq_iff {i j s : Nat} :
    i >>> s = j >>> s ↔ ∀ b, s ≤ b → i.testBit b = j.testBit b := by
  constructor
  · intro h b hb
    simpa [Nat.testBit_shiftRight, Nat.add_sub_cancel' hb] using congrArg (Nat.testBit · (b - s)) h
  · intro h
    exact Nat.eq_of_testBit_eq fun b => by simpa [Nat.testBit_shiftRight] using h (s + b) (by omega)

theorem testBit_xor_two_pow (i s b : Nat) :
    (i ^^^ 2 ^ s).testBit b = (i.testBit b ^^ decide (s = b)) := by
  rw [Nat.testBit_xor, Nat.testBit_two_pow]

/-- The lanes whose bits from `s` up are those of `i`: what the butterfly has gathered into
lane `i` after the offsets `1, 2, .., 2 ^ (s - 1)`. -/
def block (s : Nat) (i : Fin w) : Finset (Fin w) :=
  Finset.univ.filter fun j => j.val >>> s = i.val >>> s

/-- With offset `2 ^ s`, lane `i` meets lane `i ^ 2 ^ s`, whose block is the other half of the
next one. -/
theorem block_succ {s : Nat} (i p : Fin w) (hp : p.val = i.val ^^^ 2 ^ s) :
    block (s + 1) i = block s i ∪ block s p := by
  ext j
  simp only [block, Finset.mem_union, Finset.mem_filter, Finset.mem_univ, true_and,
    shiftRight_eq_iff, hp, testBit_xor_two_pow]
  constructor
  · intro h
    by_cases hs : j.val.testBit s = i.val.testBit s
    · left; intro b hb
      rcases Nat.eq_or_lt_of_le hb with rfl | hb
      · exact hs
      · exact h b hb
    · right; intro b hb
      rcases Nat.eq_or_lt_of_le hb with rfl | hb
      · revert hs; cases j.val.testBit s <;> cases i.val.testBit s <;> simp
      · simp [h b hb, show s ≠ b by omega]
  · rintro (h | h) b hb
    · exact h b (by omega)
    · simpa [show s ≠ b by omega] using h b (by omega)

theorem disjoint_block {s : Nat} (i p : Fin w) (hp : p.val = i.val ^^^ 2 ^ s) :
    Disjoint (block s i) (block s p) := by
  rw [Finset.disjoint_left]
  intro j hi hpj
  simp only [block, Finset.mem_filter, Finset.mem_univ, true_and, shiftRight_eq_iff] at hi hpj
  have hbit := (hi s le_rfl).symm.trans (hpj s le_rfl)
  rw [hp, testBit_xor_two_pow] at hbit
  simp at hbit

theorem block_zero (i : Fin w) : block 0 i = {i} := by
  ext j; simp [block, Fin.ext_iff]

theorem block_top {t : Nat} (i : Fin (2 ^ t)) : block t i = Finset.univ := by
  ext j
  simp only [block, Finset.mem_filter, Finset.mem_univ, true_and, iff_true,
    Nat.shiftRight_eq_div_pow, Nat.div_eq_of_lt j.isLt, Nat.div_eq_of_lt i.isLt]

section Butterfly

variable {M : Type} [CommMonoid M] {t : Nat}

/-- One pass of the butterfly: from the products over blocks of `2 ^ s` lanes to those over
blocks of `2 ^ (s + 1)`. -/
theorem butterfly_step {s : Nat} (hs : s < t) (x var : Fin (2 ^ t) → M)
    (hvar : ∀ i, var i = ∏ j ∈ block s i, x j) (i : Fin (2 ^ t)) :
    var i * shflXor var (2 ^ s) i = ∏ j ∈ block (s + 1) i, x j := by
  have hlt : i.val ^^^ 2 ^ s < 2 ^ t :=
    Nat.xor_lt_two_pow i.isLt (Nat.pow_lt_pow_right (by decide) hs)
  rw [shflXor, dif_pos hlt, block_succ i ⟨_, hlt⟩ rfl,
    Finset.prod_union (disjoint_block i ⟨_, hlt⟩ rfl), hvar, hvar]

theorem foldl_butterfly (x : Fin (2 ^ t) → M) :
    ∀ s, s ≤ t → ∀ i, ((List.range s).map (2 ^ ·)).foldl
      (fun var offset i => var i * shflXor var offset i) x i = ∏ j ∈ block s i, x j
  | 0, _, i => by simp [block_zero]
  | s + 1, hs, i => by
    rw [List.range_succ, List.map_append, List.foldl_append]
    exact butterfly_step hs x _ (foldl_butterfly x s (by omega)) i

theorem operatorLoop_mul (x : Fin (2 ^ t) → M) (i : Fin (2 ^ t)) :
    operatorLoop (· * ·) x i = ∏ j, x j := by
  rw [operatorLoop, upOffsets_two_pow, foldl_butterfly x t le_rfl, block_top]

end Butterfly

theorem operatorLoop_add [AddCommMonoid α] {t : Nat} (x : Fin (2 ^ t) → α) (i : Fin (2 ^ t)) :
    operatorLoop (· + ·) x i = ∑ j, x j :=
  operatorLoop_mul (M := Multiplicative α) x i

theorem reduceSum_eq_planeSum [AddCommMonoid α] {t : Nat} (input : Fin (2 ^ t) → Fin v → α) :
    reduceSum input = planeSum input := by
  funext i c; simp [reduceSum, reduceOperator, planeSum, operatorLoop_add, column]

theorem reduceProd_eq_planeProd [CommMonoid α] {t : Nat} (input : Fin (2 ^ t) → Fin v → α) :
    reduceProd input = planeProd input := by
  funext i c; simp [reduceProd, reduceOperator, planeProd, operatorLoop_mul, column]

/-! ## The shuffle-down tree of `reduce_comparison` -/

/-- `o ∣ d` splits on the parity of the quotient. -/
theorem dvd_iff_two_mul_dvd_or {o d : Nat} : o ∣ d ↔ 2 * o ∣ d ∨ (o ≤ d ∧ 2 * o ∣ d - o) := by
  constructor
  · rintro ⟨q, rfl⟩
    rcases Nat.even_or_odd' q with ⟨r, rfl | rfl⟩
    · exact .inl ⟨r, by rw [Nat.mul_assoc, Nat.mul_left_comm]⟩
    · refine .inr ⟨Nat.le_mul_of_pos_right _ (by omega), r, ?_⟩
      rw [Nat.mul_add, Nat.mul_one, Nat.add_sub_cancel, Nat.mul_assoc, Nat.mul_left_comm]
  · rintro (h | ⟨hle, q, hq⟩)
    · exact Nat.dvd_trans (Nat.dvd_mul_left o 2) h
    · exact ⟨2 * q + 1, by
        rw [Nat.mul_add, Nat.mul_one, ← Nat.mul_assoc, Nat.mul_comm o 2, ← hq]; omega⟩

/-- The lanes the tree has gathered into lane `i` after its first `s` offsets: those from `i`
on, at a multiple of `2 ^ (t - s)` from it. -/
def reach (t s : Nat) (i : Fin (2 ^ t)) : Set (Fin (2 ^ t)) :=
  {j | i ≤ j ∧ 2 ^ (t - s) ∣ j.val - i.val}

theorem two_pow_sub_eq {t s : Nat} (hs : s < t) : 2 ^ (t - s) = 2 * 2 ^ (t - (s + 1)) := by
  rw [← Nat.pow_succ']; congr 1; omega

theorem reach_succ {t s : Nat} (hs : s < t) (i : Fin (2 ^ t))
    (hlt : i.val + 2 ^ (t - (s + 1)) < 2 ^ t) :
    reach t (s + 1) i = reach t s i ∪ reach t s ⟨_, hlt⟩ := by
  have ho := Nat.two_pow_pos (t - (s + 1))
  ext j
  simp only [reach, Set.mem_union, Set.mem_setOf_eq, two_pow_sub_eq hs, Fin.le_def]
  rw [dvd_iff_two_mul_dvd_or]
  constructor
  · rintro ⟨hij, h | ⟨hle, h⟩⟩
    · exact .inl ⟨hij, h⟩
    · exact .inr ⟨by omega, by rwa [Nat.sub_sub] at h⟩
  · rintro (⟨hij, h⟩ | ⟨hij, h⟩)
    · exact ⟨hij, .inl h⟩
    · exact ⟨by omega, .inr ⟨by omega, by rwa [Nat.sub_sub]⟩⟩

/-- Where lane `i + offset` is past the warp, lane `i` keeps what it had. -/
theorem reach_succ_of_le {t s : Nat} (hs : s < t) (i : Fin (2 ^ t))
    (hge : 2 ^ t ≤ i.val + 2 ^ (t - (s + 1))) : reach t (s + 1) i = reach t s i := by
  ext j
  simp only [reach, Set.mem_setOf_eq, two_pow_sub_eq hs, Fin.le_def]
  rw [dvd_iff_two_mul_dvd_or]
  constructor
  · rintro ⟨hij, h | ⟨hle, -⟩⟩
    · exact ⟨hij, h⟩
    · have := j.isLt; omega
  · rintro ⟨hij, h⟩
    exact ⟨hij, .inl h⟩

theorem reach_zero {t : Nat} (i : Fin (2 ^ t)) : reach t 0 i = {i} := by
  ext j
  simp only [reach, Nat.sub_zero, Set.mem_setOf_eq, Set.mem_singleton_iff, Fin.le_def]
  constructor
  · rintro ⟨hij, h⟩
    have := Nat.eq_zero_of_dvd_of_lt h (by have := j.isLt; omega)
    exact Fin.ext (by omega)
  · rintro rfl; exact ⟨le_rfl, by simp⟩

theorem reach_top {t : Nat} (i : Fin (2 ^ t)) : reach t t i = {j | i ≤ j} := by
  ext j; simp [reach]

section ShuffleDown

variable [LinearOrder α] {t : Nat}

/-- One pass of the tree: lane `i` takes the greater of its value and that of lane
`i + 2 ^ (t - (s + 1))`. -/
theorem shuffleDown_step {s : Nat} (hs : s < t) (x var : Fin (2 ^ t) → α)
    (hvar : ∀ i, IsGreatest (x '' reach t s i) (var i)) (i : Fin (2 ^ t)) :
    IsGreatest (x '' reach t (s + 1) i) (max (var i) (shflDown var (2 ^ (t - (s + 1))) i)) := by
  unfold shflDown
  split
  · rename_i hlt
    rw [reach_succ hs i hlt, Set.image_union]
    exact (hvar i).union (hvar _)
  · rw [max_self, reach_succ_of_le hs i (by omega)]
    exact hvar i

theorem foldl_shuffleDown (x : Fin (2 ^ t) → α) :
    ∀ s, s ≤ t → ∀ i, IsGreatest (x '' reach t s i)
      (((List.range s).map fun s => 2 ^ (t - (s + 1))).foldl
        (fun var offset i => max (var i) (shflDown var offset i)) x i)
  | 0, _, i => by rw [reach_zero, Set.image_singleton]; exact isGreatest_singleton
  | s + 1, hs, i => by
    rw [List.range_succ, List.map_append, List.foldl_append]
    exact shuffleDown_step hs x _ (foldl_shuffleDown x s (by omega)) i

theorem comparisonLoop_max (x : Fin (2 ^ t) → α) (i : Fin (2 ^ t)) :
    IsGreatest (x '' {j | i ≤ j}) (comparisonLoop max x i) := by
  rw [comparisonLoop, downOffsets_two_pow, ← reach_top]
  exact foldl_shuffleDown x t le_rfl i

/-- Lane `i` of `ReduceMax` receives the greatest value of the lanes from `i` on. -/
theorem reduceMax_isGreatest (input : Fin (2 ^ t) → Fin v → α) (i : Fin (2 ^ t)) (c : Fin v) :
    IsGreatest (column input c '' {j | i ≤ j}) (reduceMax input i c) := by
  simpa [reduceMax, reduceComparison] using comparisonLoop_max (column input c) i

/-- Lane `i` of `ReduceMin` receives the least value of the lanes from `i` on. -/
theorem reduceMin_isLeast (input : Fin (2 ^ t) → Fin v → α) (i : Fin (2 ^ t)) (c : Fin v) :
    IsLeast (column input c '' {j | i ≤ j}) (reduceMin input i c) :=
  reduceMax_isGreatest (α := αᵒᵈ) input i c

/-- Lane `0` of `ReduceMax` receives what `plane_max` means. -/
theorem reduceMax_zero (input : Fin (2 ^ t) → Fin v → α) (c : Fin v) :
    IsGreatest (Set.range (column input c)) (reduceMax input ⟨0, Nat.two_pow_pos t⟩ c) := by
  simpa [Set.image_univ, Fin.le_def] using reduceMax_isGreatest input ⟨0, Nat.two_pow_pos t⟩ c

end ShuffleDown

/-- On two lanes, the second misses a greater value on the first. -/
example :
    reduceMax (w := 2) (v := 1) (fun i _ => if i.val = 0 then 1 else 0) ⟨1, by decide⟩ 0 = 0 := by
  decide

/-! ## Votes and broadcast -/

theorem foldl_const_step {β : Type} {f : (Fin w → β) → Fin w → β}
    (hf : ∀ var, f (f var) = f var) :
    ∀ (os : List Nat) (var : Fin w → β), os.foldl (fun var _ => f var) (f var) = f var
  | [], _ => rfl
  | _ :: os, var => by rw [List.foldl_cons, hf]; exact foldl_const_step hf os var

theorem warpAll_const (b : Bool) (i : Fin w) : warpAll (fun _ : Fin w => b) = b := by
  cases b <;> simp [warpAll, List.all_eq_false]
  exact ⟨i, trivial⟩

theorem warpAny_const (b : Bool) (i : Fin w) : warpAny (fun _ : Fin w => b) = b := by
  cases b <;> simp [warpAny, List.any_eq_true]
  exact ⟨i, trivial⟩

/-- A vote repeated on a vote gives it again, so the loop gives every lane the vote, also on a
warp of one lane where it does not run. -/
theorem quantifierLoop_eq {quantifier : (Fin w → Bool) → Bool}
    (hq : ∀ (b : Bool), Fin w → quantifier (fun _ => b) = b)
    (h1 : ∀ (var : Fin w → Bool) (i : Fin w), w = 1 → quantifier var = var i)
    (var : Fin w → Bool) (i : Fin w) : quantifierLoop quantifier var i = quantifier var := by
  unfold quantifierLoop
  rcases h : upOffsets w with _ | ⟨o, os⟩
  · have hw : w = 1 := by have := upOffsets_eq_nil_iff.1 h; have := i.isLt; omega
    exact (h1 var i hw).symm
  · rw [List.foldl_cons, foldl_const_step (f := fun var _ => quantifier var)
      (fun var => funext fun j => hq _ j) os var]

theorem reduceAll_eq_planeAll (input : Fin w → Fin v → Bool) :
    reduceAll input = planeAll input := by
  funext i c
  simp only [reduceAll, reduceQuantifier, perComponent_apply, planeAll]
  refine quantifierLoop_eq (fun b j => warpAll_const b j) ?_ _ i
  rintro var j rfl; rw [Subsingleton.elim j 0]; simp [warpAll, List.finRange_succ]

theorem reduceAny_eq_planeAny (input : Fin w → Fin v → Bool) :
    reduceAny input = planeAny input := by
  funext i c
  simp only [reduceAny, reduceQuantifier, perComponent_apply, planeAny]
  refine quantifierLoop_eq (fun b j => warpAny_const b j) ?_ _ i
  rintro var j rfl; rw [Subsingleton.elim j 0]; simp [warpAny, List.finRange_succ]

/-- The broadcast loop sets every lane where it runs, and leaves `indexed` where it does not. -/
theorem broadcastLoop_eq (input : Fin w → α) (id : Fin w → Nat) (indexed : Fin w → α) :
    broadcastLoop input id indexed = if w ≤ 1 then indexed else fun i => shfl input (id i) i := by
  unfold broadcastLoop
  rcases h : upOffsets w with _ | ⟨o, os⟩
  · rw [if_pos (upOffsets_eq_nil_iff.1 h)]; rfl
  · rw [if_neg (fun hw => by simp [upOffsets_eq_nil_iff.2 hw] at h), List.foldl_cons]
    exact foldl_const_step (f := fun _ i => shfl input (id i) i) (fun _ => rfl) os indexed

theorem broadcast_eq (input : Fin w → Fin v → α) (id : Fin w → Fin w) (out : Fin w → Fin v → α) :
    broadcast input (fun i => (id i).val) out = if w ≤ 1 then out else planeBroadcast input id := by
  funext i c
  simp only [broadcast, perComponent_apply, broadcastLoop_eq]
  split
  · rfl
  · simp [shfl, planeBroadcast, column, Nat.mod_eq_of_lt (id i).isLt]

/-! ## `Elect` -/

theorem ffs_of_testBit_zero {x : Nat} (h : x.testBit 0 = true) : ffs x = 1 := by
  rw [ffs, show List.range 32 = 0 :: List.range' 1 31 from rfl, List.find?_cons_of_pos _ h]; rfl

theorem ffs_zero : ffs 0 = 0 := by
  rw [ffs, List.find?_eq_none.2 fun b _ => by simp [Nat.zero_testBit]]; rfl

/-- Where lane `0` is active, the leader is `0`, and `Elect` elects the lanes whose
`threadIdx.x` is a multiple of the warp size. -/
theorem elect_iff_of_testBit_zero {warpSize cubeDimX warp activeMask lane : Nat}
    (h : activeMask.testBit 0 = true) :
    elect warpSize cubeDimX warp activeMask lane = true ↔
      (warp * warpSize + lane) % cubeDimX % warpSize = 0 := by
  have hmask : (activeMask % 2 ^ 32).testBit 0 = true := by
    rw [Nat.testBit_mod_two_pow]; simpa using h
  simp only [elect, ffs_of_testBit_zero hmask, beq_iff_eq]
  exact Iff.rfl

/-- With `warpSize` dividing the `x` dimension, `threadIdx.x % warpSize` is the lane. -/
theorem elect_eq_planeElect {warpSize cubeDimX warp activeMask lane : Nat}
    (h : activeMask.testBit 0 = true) (hlane : lane < warpSize) (hdvd : warpSize ∣ cubeDimX) :
    elect warpSize cubeDimX warp activeMask lane = planeElect activeMask lane := by
  have hplane : planeElect activeMask lane = true ↔ lane = 0 := by
    constructor
    · intro hp
      by_contra hl
      simp only [planeElect, Bool.and_eq_true, List.all_eq_true, List.mem_range,
        Bool.not_eq_true'] at hp
      exact absurd (hp.2 0 (by omega)) (by simp [h])
    · rintro rfl; simp [planeElect, h]
  rw [Bool.eq_iff_iff, hplane, elect_iff_of_testBit_zero h, Nat.mod_mod_of_dvd _ hdvd,
    Nat.mul_comm warp, Nat.mul_add_mod, Nat.mod_eq_of_lt hlane]

/-- With the `x` dimension dividing `warpSize`, every lane at a multiple of it is elected. -/
theorem elect_iff_dvd {warpSize cubeDimX warp activeMask lane : Nat}
    (h : activeMask.testBit 0 = true) (hpos : 0 < cubeDimX) (hdvd : cubeDimX ∣ warpSize) :
    elect warpSize cubeDimX warp activeMask lane = true ↔ cubeDimX ∣ lane := by
  obtain ⟨q, rfl⟩ := hdvd
  rw [elect_iff_of_testBit_zero h, Nat.mul_left_comm warp, Nat.mul_add_mod,
    Nat.dvd_iff_mod_eq_zero]
  rcases Nat.eq_zero_or_pos q with rfl | hq
  · rw [Nat.mul_zero, Nat.mod_zero]
  · rw [Nat.mod_eq_of_lt (Nat.lt_of_lt_of_le (Nat.mod_lt _ hpos) (Nat.le_mul_of_pos_right _ hq))]

/-- Where no lane below `32` is active, as on a 64-lane wavefront, the 32-bit mask is `0`, the
leader wraps to `2 ^ 32 - 1`, and no lane is elected. -/
theorem elect_eq_false {warpSize cubeDimX warp activeMask lane : Nat}
    (h : activeMask % 2 ^ 32 = 0) (hws : 0 < warpSize) (hws' : warpSize < 2 ^ 32) :
    elect warpSize cubeDimX warp activeMask lane = false := by
  have := Nat.mod_lt ((warp * warpSize + lane) % cubeDimX) hws
  simp only [elect, h, ffs_zero, Nat.zero_add, beq_eq_false_iff_ne]
  omega

/-! ## The lowering, operation by operation -/

/-- **Sum and product.** On a warp of `2 ^ t` lanes, `ReduceSum` and `ReduceProd` as the C++
backends emit them give every lane and component the sum or product of the plane. -/
theorem warp_sum_prod_lowering (t v : Nat) :
    (∀ {α : Type} [AddCommMonoid α] (input : Fin (2 ^ t) → Fin v → α),
      reduceSum input = planeSum input) ∧
    (∀ {M : Type} [CommMonoid M] (input : Fin (2 ^ t) → Fin v → M),
      reduceProd input = planeProd input) :=
  ⟨fun input => reduceSum_eq_planeSum input, fun input => reduceProd_eq_planeProd input⟩

/-- **Greatest and least.** On a warp of `2 ^ t` lanes, `ReduceMax` and `ReduceMin` give lane `i`
the greatest and least value of the lanes from `i` on: lane `0` receives the plane's, as
`plane_max` means, and lane `i` only where the plane's lies at or after it. -/
theorem warp_max_min_lowering [LinearOrder α] (t v : Nat) (input : Fin (2 ^ t) → Fin v → α)
    (i : Fin (2 ^ t)) (c : Fin v) :
    IsGreatest (column input c '' {j | i ≤ j}) (reduceMax input i c) ∧
    IsLeast (column input c '' {j | i ≤ j}) (reduceMin input i c) ∧
    IsGreatest (Set.range (column input c)) (reduceMax input ⟨0, Nat.two_pow_pos t⟩ c) :=
  ⟨reduceMax_isGreatest input i c, reduceMin_isLeast input i c, reduceMax_zero input c⟩

/-- **Votes and broadcast.** On every warp, `All` and `Any` give every lane the plane's
conjunction and disjunction; `Broadcast` gives every lane the value of the lane it names where
the warp has two lanes or more, and leaves `out` as it was on a warp of one lane. -/
theorem warp_vote_broadcast_lowering (w v : Nat) :
    (∀ input : Fin w → Fin v → Bool,
      reduceAll input = planeAll input ∧ reduceAny input = planeAny input) ∧
    ∀ {α : Type} (input : Fin w → Fin v → α) (id : Fin w → Fin w) (out : Fin w → Fin v → α),
      broadcast input (fun i => (id i).val) out = if w ≤ 1 then out else planeBroadcast input id :=
  ⟨fun input => ⟨reduceAll_eq_planeAll input, reduceAny_eq_planeAny input⟩, broadcast_eq⟩

/-- **Elect.** With lane `0` active, `Elect` elects lane `0` alone, as `plane_elect` means, where
the warp size divides the cube's `x` dimension; where that dimension divides the warp size, it
elects every lane at a multiple of it. With no lane below `32` active, it elects none. -/
theorem warp_elect_lowering (warpSize cubeDimX warp activeMask lane : Nat) (hpos : 0 < cubeDimX)
    (hlane : lane < warpSize) (hws : warpSize < 2 ^ 32) :
    (activeMask.testBit 0 = true → warpSize ∣ cubeDimX →
      elect warpSize cubeDimX warp activeMask lane = planeElect activeMask lane) ∧
    (activeMask.testBit 0 = true → cubeDimX ∣ warpSize →
      (elect warpSize cubeDimX warp activeMask lane = true ↔ cubeDimX ∣ lane)) ∧
    (activeMask % 2 ^ 32 = 0 → elect warpSize cubeDimX warp activeMask lane = false) :=
  ⟨fun h hdvd => elect_eq_planeElect h hlane hdvd, fun h hdvd => elect_iff_dvd h hpos hdvd,
    fun h => elect_eq_false h (by omega) hws⟩

/-- On a cube of `16 × 16` units and warps of `32`, lane `16` of a full warp is elected besides
lane `0`, where `plane_elect` elects lane `0` alone. -/
theorem warp_elect_second_lane :
    elect 32 16 0 (2 ^ 32 - 1) 16 = true ∧ planeElect (2 ^ 32 - 1) 16 = false :=
  ⟨((warp_elect_lowering 32 16 0 (2 ^ 32 - 1) 16 (by decide) (by decide) (by decide)).2.1
    (by decide) (by decide)).2 (by decide), by decide⟩

end CubeCl.Cpp
