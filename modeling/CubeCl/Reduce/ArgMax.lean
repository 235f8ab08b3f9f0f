import Mathlib.Data.Prod.Lex
import Mathlib.Order.Bounds.Basic
import Mathlib.Order.WithBot
import Mathlib.Data.List.FinRange
import Mathlib.Order.Fin.Basic
import Mathlib.Data.Fin.VecNotation
import Mathlib.Algebra.Order.Ring.Nat

/-!
# `ArgMax` (`cubecl-reduce/src/instructions/argmax.rs`)

An accumulator is a line of items and a line of their `u32` coordinates along the reduced
axis. `choose_argmax` keeps, lane by lane, the greater item, or of equal items the smaller
coordinate; `reduce` meets an accumulator with an input line (or, with planes, with the best of
the plane's lines), `fuse_accumulators` meets two accumulators, and `merge_line` scans the
lanes of the last one. Items are compared with `==`, `<` and `>` of a total order: integers,
or floats without NaN, where `-0.0 == 0.0` makes the two zeros one value.

Lane by lane, `choose_argmax` is the maximum of the order "greater item, then smaller
coordinate" (`lane_chooseArgmax`), so every way of folding input lines with `reduce` and
`fuse_accumulators` from `null_accumulator` ends at the greatest of its elements and of
`(In::min_value(), u32::MAX)` (`Plan.isGreatest_run`), and `merge_line` takes the greatest over
the lanes (`isGreatest_mergeLine`). That is the argmax of the elements when one of them is at
least `In::min_value()`, and `u32::MAX` when every item is below it.
-/

namespace CubeCl.Reduce

set_option autoImplicit false

/-- `u32` values. -/
abbrev U32 := Fin (2 ^ 32)

/-- `u32::MAX`. -/
def u32Max : U32 := ⟨2 ^ 32 - 1, by decide⟩

theorem le_u32Max (c : U32) : c ≤ u32Max := Fin.le_iff_val_le_val.2 (by
  have := c.isLt
  simp only [u32Max]
  omega)

/-- `Line<E>` of `n` lanes. -/
abbrev Line (α : Type) (n : Nat) := Fin n → α

namespace Line

variable {α : Type} {n : Nat}

/-- `Line::empty(n).fill(value)`. -/
def fill (value : α) : Line α n := fun _ => value

/-- `Line::equal`, lane by lane. -/
def equal [DecidableEq α] (a b : Line α n) : Line Bool n := fun k => a k = b k

/-- `Line::less_than`, lane by lane. -/
def lessThan [LinearOrder α] (a b : Line α n) : Line Bool n :=
  fun k => a k < b k

/-- `Line::greater_than`, lane by lane. -/
def greaterThan [LinearOrder α] (a b : Line α n) : Line Bool n :=
  fun k => a k > b k

end Line

/-- Modelled from the spec: `select_many` is not in the source. Lane by lane, the lane of the
first line where the condition holds, of the second elsewhere. -/
def selectMany {α : Type} {n : Nat} (condition : Line Bool n) (a b : Line α n) : Line α n :=
  fun k => if condition k then a k else b k

variable {α : Type} [LinearOrder α] {n : Nat}

/-- `ArgMax::choose_argmax`. -/
def chooseArgmax (items0 : Line α n) (coordinates0 : Line U32 n) (items1 : Line α n)
    (coordinates1 : Line U32 n) : Line α n × Line U32 n :=
  let toKeep := selectMany (items0.equal items1) (coordinates0.lessThan coordinates1)
    (items0.greaterThan items1)
  (selectMany toKeep items0 items1, selectMany toKeep coordinates0 coordinates1)

/-- `ArgMax::AccumulatorItem`: the items and their coordinates. -/
abbrev Accumulator (α : Type) (n : Nat) := Line α n × Line U32 n

/-- `ArgMax::null_input`. -/
def nullInput (minValue : α) : Line α n := Line.fill minValue

/-- `ArgMax::null_accumulator`. -/
def nullAccumulator (minValue : α) : Accumulator α n := (nullInput minValue, Line.fill u32Max)

/-- Modelled from the spec: `plane_max` is not in the source. Lane by lane, the greatest item
of the plane's units: `items`, this unit's, and the others'. -/
def planeMax (items : Line α n) (others : List (Line α n)) : Line α n :=
  fun k => others.foldl (fun m u => max m (u k)) (items k)

/-- Modelled from the spec: `plane_min` is not in the source. Lane by lane, the least value of
the plane's units. -/
def planeMin (values : Line U32 n) (others : List (Line U32 n)) : Line U32 n :=
  fun k => others.foldl (fun m u => min m (u k)) (values k)

/-- Modelled from the spec: `lowest_coordinate_matching` is not in the source. Lane by lane,
`plane_min` of the coordinates selected where a unit's item equals `target`, `u32::MAX`
elsewhere. -/
def lowestCoordinateMatching (target : Line α n) (unit : Accumulator α n)
    (others : List (Accumulator α n)) : Line U32 n :=
  let select (u : Accumulator α n) : Line U32 n := selectMany (u.1.equal target) u.2 (Line.fill u32Max)
  planeMin (select unit) (others.map select)

/-- `ArgMax::reduce`, on a required coordinate. With `use_planes`, `others` are the items and
coordinates of the other units of the plane. -/
def reduce (accumulator : Accumulator α n) (item : Line α n) (coordinate : Line U32 n)
    (usePlanes : Bool) (others : List (Accumulator α n)) : Accumulator α n :=
  let (candidateItem, candidateCoordinate) :=
    if usePlanes then
      let candidateItem := planeMax item (others.map Prod.fst)
      (candidateItem, lowestCoordinateMatching candidateItem (item, coordinate) others)
    else (item, coordinate)
  chooseArgmax candidateItem candidateCoordinate accumulator.1 accumulator.2

/-- `ArgMax::fuse_accumulators`. -/
def fuseAccumulators (lhs rhs : Accumulator α n) : Accumulator α n :=
  chooseArgmax lhs.1 lhs.2 rhs.1 rhs.2

/-- One lane of the loop of `ArgMax::merge_line`, on `(max, coordinate)`. -/
def mergeStep (accumulator : Accumulator α n) (state : α × U32) (k : Fin n) : α × U32 :=
  let (max, coordinate) := state
  let accElement := accumulator.1 k
  let accCoordinate := accumulator.2 k
  if accElement = max ∧ accCoordinate < coordinate then (max, accCoordinate)
  else if accElement > max then (accElement, accCoordinate)
  else (max, coordinate)

/-- `ArgMax::merge_line`: the coordinate it casts to `Out`. -/
def mergeLine (minValue : α) (accumulator : Accumulator α (n + 1)) : U32 :=
  if n + 1 > 1 then ((List.finRange (n + 1)).foldl (mergeStep accumulator) (minValue, u32Max)).2
  else accumulator.2 0

/-! ## The order ArgMax selects by -/

/-- An item with its coordinate. -/
@[ext] structure Candidate (α : Type) where
  item : α
  coordinate : U32
deriving DecidableEq, Repr

namespace Candidate

/-- Greater item, then smaller coordinate. -/
def key (c : Candidate α) : α ×ₗ U32ᵒᵈ := toLex (c.item, OrderDual.toDual c.coordinate)

instance : LinearOrder (Candidate α) :=
  LinearOrder.lift' key fun a b h => by
    have h' : (a.item, OrderDual.toDual a.coordinate) = (b.item, OrderDual.toDual b.coordinate) := h
    simp only [Prod.mk.injEq] at h'
    exact Candidate.ext h'.1 h'.2

theorem le_iff {a b : Candidate α} :
    a ≤ b ↔ a.item < b.item ∨ (a.item = b.item ∧ b.coordinate ≤ a.coordinate) :=
  (Prod.Lex.le_iff _ _).trans (by rw [OrderDual.toDual_le_toDual])

theorem lt_iff {a b : Candidate α} :
    a < b ↔ a.item < b.item ∨ (a.item = b.item ∧ b.coordinate < a.coordinate) :=
  (Prod.Lex.lt_iff _ _).trans (by rw [OrderDual.toDual_lt_toDual])

end Candidate

/-- `(In::min_value(), u32::MAX)`, where `null_accumulator` and `merge_line` start. -/
def nullCandidate (minValue : α) : Candidate α := ⟨minValue, u32Max⟩

omit [LinearOrder α] in
/-- Lane `k` of an accumulator. -/
def lane (accumulator : Accumulator α n) (k : Fin n) : Candidate α :=
  ⟨accumulator.1 k, accumulator.2 k⟩

omit [LinearOrder α] in
theorem accumulator_ext {a b : Accumulator α n} (h : ∀ k, lane a k = lane b k) : a = b := by
  refine Prod.ext (funext fun k => ?_) (funext fun k => ?_)
  · exact congrArg Candidate.item (h k)
  · exact congrArg Candidate.coordinate (h k)

/-- `choose_argmax` keeps its first pair exactly where the second is below it. -/
theorem lane_chooseArgmax (items0 : Line α n) (coordinates0 : Line U32 n) (items1 : Line α n)
    (coordinates1 : Line U32 n) (k : Fin n) :
    lane (chooseArgmax items0 coordinates0 items1 coordinates1) k =
      max ⟨items0 k, coordinates0 k⟩ ⟨items1 k, coordinates1 k⟩ := by
  simp only [lane, chooseArgmax, selectMany, Line.equal, Line.lessThan, Line.greaterThan, max_def,
    Candidate.le_iff, decide_eq_true_eq]
  rcases lt_trichotomy (items0 k) (items1 k) with h | h | h
  · simp [h.ne, not_lt_of_lt h, h]
  · rcases lt_trichotomy (coordinates0 k) (coordinates1 k) with hc | hc | hc
    · simp [h, hc, not_le_of_lt hc]
    · simp [h, hc]
    · simp [h, not_lt_of_lt hc, le_of_lt hc]
  · simp [h.ne', not_lt_of_lt h, not_le_of_lt h]

theorem lane_fuseAccumulators (lhs rhs : Accumulator α n) (k : Fin n) :
    lane (fuseAccumulators lhs rhs) k = max (lane lhs k) (lane rhs k) :=
  lane_chooseArgmax _ _ _ _ k

/-! ## Folds of `max` and `min` -/

section Folds

variable {β : Type} [LinearOrder β]

/-- A left fold of `max` ends at the greatest of its start and the values it folds in. -/
theorem isGreatest_foldl_max : ∀ (l : List β) (a : β), IsGreatest {x | x ∈ a :: l} (l.foldl max a)
  | [], a => by simp
  | b :: l, a => by
    obtain ⟨hmem, hub⟩ := isGreatest_foldl_max l (max a b)
    rw [List.foldl_cons]
    refine ⟨?_, fun x hx => ?_⟩
    · rcases List.mem_cons.1 hmem with h | h
      · rw [h]
        rcases max_choice a b with hm | hm <;> simp [hm]
      · exact List.mem_cons_of_mem _ (List.mem_cons_of_mem _ h)
    · have hmax := hub (List.mem_cons_self _ _)
      rcases List.mem_cons.1 hx with rfl | hx
      · exact le_trans (le_max_left _ _) hmax
      rcases List.mem_cons.1 hx with rfl | hx
      · exact le_trans (le_max_right _ _) hmax
      · exact hub (List.mem_cons_of_mem _ hx)

/-- A left fold of `min` ends at the least of its start and the values it folds in. -/
theorem isLeast_foldl_min : ∀ (l : List β) (a : β), IsLeast {x | x ∈ a :: l} (l.foldl min a)
  | [], a => by simp
  | b :: l, a => by
    obtain ⟨hmem, hlb⟩ := isLeast_foldl_min l (min a b)
    rw [List.foldl_cons]
    refine ⟨?_, fun x hx => ?_⟩
    · rcases List.mem_cons.1 hmem with h | h
      · rw [h]
        rcases min_choice a b with hm | hm <;> simp [hm]
      · exact List.mem_cons_of_mem _ (List.mem_cons_of_mem _ h)
    · have hmin := hlb (List.mem_cons_self _ _)
      rcases List.mem_cons.1 hx with rfl | hx
      · exact le_trans hmin (min_le_left _ _)
      rcases List.mem_cons.1 hx with rfl | hx
      · exact le_trans hmin (min_le_right _ _)
      · exact hlb (List.mem_cons_of_mem _ hx)

end Folds

/-! ## The plane's candidate -/

/-- With planes, the candidate of `reduce` is the greatest of the units of the plane. -/
theorem isGreatest_planeCandidate (item : Line α n) (coordinate : Line U32 n)
    (others : List (Accumulator α n)) (k : Fin n) :
    IsGreatest {c | c ∈ ((item, coordinate) :: others).map (lane · k)}
      ⟨planeMax item (others.map Prod.fst) k,
        lowestCoordinateMatching (planeMax item (others.map Prod.fst)) (item, coordinate) others k⟩ := by
  have hmax : planeMax item (others.map Prod.fst) k = (others.map fun u => u.1 k).foldl max (item k) := by
    simp only [planeMax, List.foldl_map]
  generalize hm : planeMax item (others.map Prod.fst) = target at hmax ⊢
  let select (u : Accumulator α n) : U32 := if u.1 k = target k then u.2 k else u32Max
  have hmin : lowestCoordinateMatching target (item, coordinate) others k =
      (others.map select).foldl min (select (item, coordinate)) := by
    simp only [lowestCoordinateMatching, planeMin, selectMany, Line.equal, Line.fill, List.foldl_map,
      List.map_map, decide_eq_true_eq]
  have hitems := isGreatest_foldl_max (others.map fun u => u.1 k) (item k)
  have hcoords := isLeast_foldl_min (others.map select) (select (item, coordinate))
  rw [← hmax] at hitems
  rw [← hmin] at hcoords
  generalize lowestCoordinateMatching target (item, coordinate) others k = c at hcoords ⊢
  change IsGreatest {x | x ∈ ((item, coordinate) :: others).map fun u => u.1 k} (target k) at hitems
  change IsLeast {x | x ∈ ((item, coordinate) :: others).map select} c at hcoords
  obtain ⟨u, hu, hum⟩ := List.mem_map.1 hitems.1
  refine ⟨?_, fun x hx => ?_⟩
  · obtain ⟨v, hv, hvc⟩ := List.mem_map.1 hcoords.1
    by_cases hvm : v.1 k = target k
    · simp only [select, if_pos hvm] at hvc
      exact List.mem_map.2 ⟨v, hv, Candidate.ext hvm hvc⟩
    · have hcu := hcoords.2 (List.mem_map_of_mem select hu)
      simp only [select, if_neg hvm] at hvc
      simp only [select, if_pos hum] at hcu
      exact List.mem_map.2 ⟨u, hu, Candidate.ext hum (le_antisymm (hvc ▸ le_u32Max _) (hvc ▸ hcu))⟩
  · obtain ⟨w, hw, rfl⟩ := List.mem_map.1 hx
    have hwm : w.1 k ≤ target k := hitems.2 (List.mem_map_of_mem (fun u => u.1 k) hw)
    rw [Candidate.le_iff]
    rcases lt_or_eq_of_le hwm with hlt | heq
    · exact .inl hlt
    · have hcw := hcoords.2 (List.mem_map_of_mem select hw)
      simp only [select, if_pos heq] at hcw
      exact .inr ⟨heq, hcw⟩

/-- The candidate `reduce` meets the accumulator with: the unit's own, or with planes the
plane's best. -/
theorem lane_reduce (accumulator : Accumulator α n) (item : Line α n) (coordinate : Line U32 n)
    (usePlanes : Bool) (others : List (Accumulator α n)) (k : Fin n) :
    ∃ candidate, IsGreatest {c | c ∈ ((item, coordinate) ::
        if usePlanes then others else []).map (lane · k)} candidate ∧
      lane (reduce accumulator item coordinate usePlanes others) k = max candidate (lane accumulator k) := by
  cases usePlanes
  · exact ⟨lane (item, coordinate) k, by simp, lane_chooseArgmax _ _ _ _ k⟩
  · exact ⟨_, isGreatest_planeCandidate item coordinate others k, lane_chooseArgmax _ _ _ _ k⟩

/-! ## Every order and grouping of `reduce` and `fuse_accumulators` -/

/-- A way to build an accumulator: from `null_accumulator`, by `reduce` with an input line (with
planes, also the lines of the plane's other units), and by `fuse_accumulators`, in any order and
grouping. -/
inductive Plan (α : Type) (n : Nat)
  | null
  | reduce (accumulator : Plan α n) (item : Line α n) (coordinate : Line U32 n) (usePlanes : Bool)
      (others : List (Accumulator α n))
  | fuse (lhs rhs : Plan α n)

namespace Plan

/-- The accumulator a plan builds. -/
def run (minValue : α) : Plan α n → Accumulator α n
  | null => nullAccumulator minValue
  | reduce accumulator item coordinate usePlanes others =>
    CubeCl.Reduce.reduce (accumulator.run minValue) item coordinate usePlanes others
  | fuse lhs rhs => fuseAccumulators (lhs.run minValue) (rhs.run minValue)

omit [LinearOrder α] in
/-- The input elements a plan reads in lane `k`. -/
def elements (k : Fin n) : Plan α n → List (Candidate α)
  | null => []
  | reduce accumulator item coordinate usePlanes others =>
    ((item, coordinate) :: if usePlanes then others else []).map (lane · k) ++ accumulator.elements k
  | fuse lhs rhs => lhs.elements k ++ rhs.elements k

omit [LinearOrder α] in
/-- The input elements a plan reads, over all lanes. -/
def allElements (p : Plan α n) : List (Candidate α) := (List.finRange n).flatMap p.elements

/-- Lane by lane, a plan builds the greatest of its elements and of `null_accumulator`'s lane. -/
theorem isGreatest_run (minValue : α) (k : Fin n) : ∀ p : Plan α n,
    IsGreatest {c | c ∈ nullCandidate minValue :: p.elements k} (lane (p.run minValue) k)
  | null => ⟨List.mem_singleton_self _, fun _ hc => le_of_eq (List.mem_singleton.1 hc)⟩
  | reduce accumulator item coordinate usePlanes others => by
    obtain ⟨candidate, hcandidate, hlane⟩ := lane_reduce (accumulator.run minValue) item coordinate
      usePlanes others k
    rw [run, hlane]
    convert hcandidate.union (isGreatest_run minValue k accumulator) using 1
    ext c
    simp only [elements, Set.mem_setOf_eq, Set.mem_union, List.mem_cons, List.mem_append, or_left_comm]
  | fuse lhs rhs => by
    rw [run, lane_fuseAccumulators]
    convert (isGreatest_run minValue k lhs).union (isGreatest_run minValue k rhs) using 1
    ext c
    simp only [elements, Set.mem_setOf_eq, Set.mem_union, List.mem_cons, List.mem_append, or_assoc,
      or_left_comm, or_self_left]

end Plan

/-! ## What ArgMax answers -/

/-- `coordinate` is the argmax of `elements`: the coordinate of an element of greatest item, the
smallest among the elements of that item. -/
def IsArgmax (elements : List (Candidate α)) (coordinate : U32) : Prop :=
  ∃ b ∈ elements, b.coordinate = coordinate ∧
    ∀ x ∈ elements, x.item ≤ b.item ∧ (x.item = b.item → b.coordinate ≤ x.coordinate)

instance (elements : List (Candidate α)) (coordinate : U32) :
    Decidable (IsArgmax elements coordinate) := by
  unfold IsArgmax; infer_instance

theorem item_le_of_le {x b : Candidate α} (h : x ≤ b) :
    x.item ≤ b.item ∧ (x.item = b.item → b.coordinate ≤ x.coordinate) := by
  rcases Candidate.le_iff.1 h with h | ⟨h, hc⟩
  · exact ⟨le_of_lt h, fun he => absurd he (ne_of_lt h)⟩
  · exact ⟨le_of_eq h, fun _ => hc⟩

/-- The greatest of the elements and `(In::min_value(), u32::MAX)` answers the argmax when an
element is at least `In::min_value()`. -/
theorem isArgmax_of_isGreatest {elements : List (Candidate α)} {minValue : α} {c : Candidate α}
    (h : IsGreatest {x | x ∈ nullCandidate minValue :: elements} c)
    (hreal : ∃ e ∈ elements, minValue ≤ e.item) : IsArgmax elements c.coordinate := by
  rcases List.mem_cons.1 h.1 with hc | hc
  · obtain ⟨e, he, hmin⟩ := hreal
    have hle := item_le_of_le (h.2 (List.mem_cons_of_mem _ he))
    rw [hc] at hle
    have hitem : e.item = minValue := le_antisymm hle.1 hmin
    have hcoord : e.coordinate = u32Max := le_antisymm (le_u32Max _) (hle.2 hitem)
    refine ⟨e, he, by rw [hc, hcoord]; rfl, fun x hx => ?_⟩
    have := item_le_of_le (h.2 (List.mem_cons_of_mem _ hx))
    rw [hc] at this
    exact ⟨hitem ▸ this.1, fun hx' => hcoord ▸ this.2 (hx'.trans hitem)⟩
  · exact ⟨c, hc, rfl, fun x hx => item_le_of_le (h.2 (List.mem_cons_of_mem _ hx))⟩

/-- Where every element is below `In::min_value()`, the greatest is `(In::min_value(), u32::MAX)`
itself. -/
theorem eq_null_of_lt {elements : List (Candidate α)} {minValue : α} {c : Candidate α}
    (h : IsGreatest {x | x ∈ nullCandidate minValue :: elements} c)
    (hbelow : ∀ e ∈ elements, e.item < minValue) : c = nullCandidate minValue := by
  rcases List.mem_cons.1 h.1 with hc | hc
  · exact hc
  · have := item_le_of_le (h.2 (List.mem_cons_self _ _))
    exact absurd (lt_of_le_of_lt this.1 (hbelow c hc)) (lt_irrefl _)

/-- A nonempty list of elements has an argmax: the coordinate of its greatest element. -/
theorem exists_isArgmax {elements : List (Candidate α)} (h : elements ≠ []) :
    ∃ c, IsArgmax elements c := by
  obtain ⟨e, rest, rfl⟩ := List.exists_cons_of_ne_nil h
  obtain ⟨hmem, hub⟩ := isGreatest_foldl_max rest e
  exact ⟨_, _, hmem, rfl, fun x hx => item_le_of_le (hub hx)⟩

/-- One lane of `merge_line`'s loop meets `(max, coordinate)` with the lane as `choose_argmax`
does. -/
theorem mergeStep_eq_max (accumulator : Accumulator α n) (state : α × U32) (k : Fin n) :
    (⟨(mergeStep accumulator state k).1, (mergeStep accumulator state k).2⟩ : Candidate α) =
      max ⟨state.1, state.2⟩ (lane accumulator k) := by
  obtain ⟨m, c⟩ := state
  simp only [mergeStep, lane, max_def, Candidate.le_iff]
  rcases lt_trichotomy (accumulator.1 k) m with h | rfl | h
  · simp [h.ne, h.ne', not_lt_of_lt h]
  · rcases lt_trichotomy (accumulator.2 k) c with hc | rfl | hc
    · simp [hc, le_of_lt hc]
    · simp
    · simp [not_lt_of_lt hc, not_le_of_lt hc]
  · simp [h, h.ne']

theorem foldl_mergeStep (accumulator : Accumulator α n) : ∀ (ks : List (Fin n)) (state : α × U32),
    (⟨(ks.foldl (mergeStep accumulator) state).1, (ks.foldl (mergeStep accumulator) state).2⟩ :
      Candidate α) = (ks.map (lane accumulator)).foldl max ⟨state.1, state.2⟩
  | [], _ => rfl
  | k :: ks, state => by
    rw [List.foldl_cons, foldl_mergeStep accumulator ks, List.map_cons, List.foldl_cons,
      mergeStep_eq_max]

/-- `merge_line` answers the coordinate of the greatest of the lanes and
`(In::min_value(), u32::MAX)`, when no lane is below the latter. -/
theorem isGreatest_mergeLine (minValue : α) (accumulator : Accumulator α (n + 1))
    (hnull : ∀ k, nullCandidate minValue ≤ lane accumulator k) :
    ∃ c, IsGreatest {c | c = nullCandidate minValue ∨ ∃ k, c = lane accumulator k} c ∧
      c.coordinate = mergeLine minValue accumulator := by
  have hset : {c | c = nullCandidate minValue ∨ ∃ k, c = lane accumulator k} =
      {c | c ∈ nullCandidate minValue :: (List.finRange (n + 1)).map (lane accumulator)} := by
    ext c
    simp only [Set.mem_setOf_eq, List.mem_cons, List.mem_map, List.mem_finRange, true_and, eq_comm]
  by_cases hn : n + 1 > 1
  · refine ⟨_, hset ▸ isGreatest_foldl_max _ (nullCandidate minValue), ?_⟩
    rw [mergeLine, if_pos hn]
    exact congrArg Candidate.coordinate (foldl_mergeStep accumulator _ (minValue, u32Max)).symm
  · obtain rfl : n = 0 := by omega
    refine ⟨lane accumulator 0, ⟨.inr ⟨0, rfl⟩, ?_⟩, rfl⟩
    rintro c (rfl | ⟨k, rfl⟩)
    · exact hnull 0
    · have hk := k.isLt
      rw [show k = 0 from Fin.ext (by rw [Fin.val_zero]; omega)]

/-- Where every lane is `(In::min_value(), u32::MAX)`, `merge_line` answers `u32::MAX`. -/
theorem mergeLine_eq_u32Max (minValue : α) (accumulator : Accumulator α (n + 1))
    (hnull : ∀ k, lane accumulator k = nullCandidate minValue) :
    mergeLine minValue accumulator = u32Max := by
  obtain ⟨c, hc, hcoord⟩ := isGreatest_mergeLine minValue accumulator fun k => (hnull k).ge
  have hnullc : c = nullCandidate minValue := by
    rcases hc.1 with h | ⟨k, h⟩
    · exact h
    · exact h.trans (hnull k)
  rw [← hcoord, hnullc]
  rfl

/-- A lane of a plan whose elements are all below `In::min_value()` stays at
`null_accumulator`'s lane. -/
theorem Plan.lane_run_eq_null (minValue : α) (p : Plan α n) (k : Fin n)
    (hbelow : ∀ e ∈ p.elements k, e.item < minValue) :
    lane (p.run minValue) k = nullCandidate minValue :=
  eq_null_of_lt (p.isGreatest_run minValue k) hbelow

/-- **`ArgMax` is an order-independent maximum, once an element reaches `In::min_value()`.**
Lane by lane, `choose_argmax` is the maximum of the order "greater item, then smaller
coordinate", so `fuse_accumulators` is associative, commutative and idempotent. Every order and
grouping of `reduce` (with or without planes) and `fuse_accumulators` from `null_accumulator`
answers, in a lane with an element whose item is at least `In::min_value()`, the argmax of that
lane's elements; and `merge_line` answers the argmax of all the elements when one of them is at
least `In::min_value()`. -/
theorem argmax_order_independent (minValue : α) :
    (∀ (items0 : Line α n) coordinates0 items1 coordinates1 k,
      lane (chooseArgmax items0 coordinates0 items1 coordinates1) k =
        max ⟨items0 k, coordinates0 k⟩ ⟨items1 k, coordinates1 k⟩) ∧
    (∀ a b c : Accumulator α n,
      fuseAccumulators (fuseAccumulators a b) c = fuseAccumulators a (fuseAccumulators b c)) ∧
    (∀ a b : Accumulator α n, fuseAccumulators a b = fuseAccumulators b a) ∧
    (∀ a : Accumulator α n, fuseAccumulators a a = a) ∧
    (∀ (p : Plan α n) (k : Fin n), (∃ e ∈ p.elements k, minValue ≤ e.item) →
      IsArgmax (p.elements k) ((p.run minValue).2 k)) ∧
    (∀ p : Plan α (n + 1), (∃ e ∈ p.allElements, minValue ≤ e.item) →
      IsArgmax p.allElements (mergeLine minValue (p.run minValue))) := by
  refine ⟨lane_chooseArgmax, fun a b c => accumulator_ext fun k => ?_,
    fun a b => accumulator_ext fun k => ?_, fun a => accumulator_ext fun k => ?_,
    fun p k hreal => isArgmax_of_isGreatest (p.isGreatest_run minValue k) hreal,
    fun p hreal => ?_⟩
  · simp only [lane_fuseAccumulators, max_assoc]
  · simp only [lane_fuseAccumulators, max_comm]
  · simp only [lane_fuseAccumulators, max_self]
  · obtain ⟨c, hc, hcoord⟩ := isGreatest_mergeLine minValue (p.run minValue)
      fun k => (p.isGreatest_run minValue k).2 (List.mem_cons_self _ _)
    rw [← hcoord]
    refine isArgmax_of_isGreatest ⟨?_, fun x hx => ?_⟩ hreal
    · rcases hc.1 with h | ⟨k, h⟩
      · exact List.mem_cons.2 (.inl h)
      · rcases List.mem_cons.1 (h ▸ (p.isGreatest_run minValue k).1) with h' | h'
        · exact List.mem_cons.2 (.inl h')
        · exact List.mem_cons_of_mem _ (List.mem_flatMap.2 ⟨k, List.mem_finRange k, h'⟩)
    · rcases List.mem_cons.1 hx with rfl | hx
      · exact hc.2 (.inl rfl)
      · obtain ⟨k, -, hk⟩ := List.mem_flatMap.1 hx
        exact le_trans ((p.isGreatest_run minValue k).2 (List.mem_cons_of_mem _ hk)) (hc.2 (.inr ⟨k, rfl⟩))

example : mergeLine (-128 : ℤ) ((Plan.fuse (.reduce .null ![3, 5] ![0, 1] false [])
    (.reduce .null ![5, 2] ![2, 3] false [])).run (-128)) = 1 := by
  decide

/-- **Below `In::min_value()`, `ArgMax` answers `u32::MAX`.** Every order and grouping of `reduce`
and `fuse_accumulators` from `null_accumulator` leaves the coordinate `u32::MAX` in a lane whose
elements all have items below `In::min_value()`; and on a nonempty set of such elements, none at
coordinate `u32::MAX`, `merge_line` answers `u32::MAX`, which is not their argmax, though they
have one. -/
theorem argmax_below_min_value (minValue : α) :
    (∀ (p : Plan α n) (k : Fin n), (∀ e ∈ p.elements k, e.item < minValue) →
      (p.run minValue).2 k = u32Max) ∧
    ∀ p : Plan α (n + 1), p.allElements ≠ [] →
      (∀ e ∈ p.allElements, e.item < minValue ∧ e.coordinate ≠ u32Max) →
      mergeLine minValue (p.run minValue) = u32Max ∧ (∃ c, IsArgmax p.allElements c) ∧
        ¬ IsArgmax p.allElements (mergeLine minValue (p.run minValue)) := by
  refine ⟨fun p k h => congrArg Candidate.coordinate (p.lane_run_eq_null minValue k h),
    fun p hne hall => ?_⟩
  have hmerge : mergeLine minValue (p.run minValue) = u32Max :=
    mergeLine_eq_u32Max minValue _ fun k => p.lane_run_eq_null minValue k fun e he =>
      (hall e (List.mem_flatMap.2 ⟨k, List.mem_finRange k, he⟩)).1
  refine ⟨hmerge, exists_isArgmax hne, ?_⟩
  rw [hmerge]
  rintro ⟨b, hb, hbc, -⟩
  exact (hall b hb).2 hbc

/-- `f32::MIN`, the least finite `f32`, an integer. -/
def f32Min : WithBot ℤ := ((-340282346638528859811704183484516925440 : ℤ) : WithBot ℤ)

/-- Items ordered as `f32` without NaN, as far as needed here: `-∞` is `⊥`, below the finite
values, which are integers here. With `In::min_value()` the least finite value, one element
`-∞` at coordinate 0, reduced into `null_accumulator`: `merge_line` answers `u32::MAX`, where
the argmax is `0`. -/
theorem argmax_all_negative_infinity :
    (Plan.reduce .null (fun _ => ⊥) (fun _ => 0) false [] : Plan (WithBot ℤ) 1).allElements =
      [⟨⊥, 0⟩] ∧
    mergeLine f32Min
      ((Plan.reduce .null (fun _ => ⊥) (fun _ => 0) false [] : Plan (WithBot ℤ) 1).run f32Min) =
      u32Max ∧
    IsArgmax [(⟨⊥, 0⟩ : Candidate (WithBot ℤ))] 0 ∧
    ¬ IsArgmax [(⟨⊥, 0⟩ : Candidate (WithBot ℤ))] u32Max := by
  have hel : (Plan.reduce .null (fun _ => ⊥) (fun _ => 0) false [] : Plan (WithBot ℤ) 1).allElements =
      [⟨⊥, 0⟩] := by decide
  obtain ⟨hmerge, -, hnot⟩ := (argmax_below_min_value (n := 0) f32Min).2
    (.reduce .null (fun _ => ⊥) (fun _ => 0) false []) (by rw [hel]; exact List.cons_ne_nil _ _)
    (by rw [hel]; decide)
  rw [hel, hmerge] at hnot
  exact ⟨hel, hmerge, by decide, hnot⟩

end CubeCl.Reduce
