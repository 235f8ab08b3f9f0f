import Mathlib.Data.Finset.Card
import Mathlib.Data.List.Count

/-!
# The device feature registry (`cubecl-runtime/src/feature_set.rs`)

`DeviceProperties` holds the set of features a device supports, with its memory and hardware
property records; a runtime registers features while it initialises the device, and kernels
query them before dispatch. The set is a `BTreeSet`: a registration adds a feature, never
removes one, and answers whether the feature was new.

The WGSL backend (`cubecl-wgpu/src/backend/wgsl.rs`) registers its element types from the
adapter's features and turns on `u64` code generation where `u64` is registered.

Main results:
* `registerAll_featureEnabled`, `registerAll_count`: over any run of registrations, a feature is
  enabled when it was before or was registered, and the registrations answer `true` exactly once
  per feature that was new.
-/

namespace CubeCl.Runtime

set_option autoImplicit false

/-- `DeviceProperties`: the supported features, and the memory and hardware property records,
which the registry only stores. -/
structure DeviceProperties (Feature Memory Hardware : Type) where
  set : Finset Feature
  memory : Memory
  hardware : Hardware

namespace DeviceProperties

variable {F M H : Type} [DecidableEq F]

/-- `DeviceProperties::new`: the given features, inserted one by one. -/
def new (features : List F) (memoryProps : M) (hardware : H) : DeviceProperties F M H :=
  ⟨features.foldl (fun set feature => insert feature set) ∅, memoryProps, hardware⟩

/-- `feature_enabled`: `BTreeSet::contains`. -/
def featureEnabled (p : DeviceProperties F M H) (feature : F) : Bool := decide (feature ∈ p.set)

/-- `register_feature`: `BTreeSet::insert`, which answers whether the feature was new. -/
def registerFeature (p : DeviceProperties F M H) (feature : F) : DeviceProperties F M H × Bool :=
  (⟨insert feature p.set, p.memory, p.hardware⟩, decide (feature ∉ p.set))

/-- `memory_properties`. -/
def memoryProperties (p : DeviceProperties F M H) : M := p.memory

/-- `hardware_properties`. -/
def hardwareProperties (p : DeviceProperties F M H) : H := p.hardware

/-- Registrations of `features` in order, with their answers. -/
def registerAll (p : DeviceProperties F M H) : List F → DeviceProperties F M H × List Bool
  | [] => (p, [])
  | feature :: features =>
    let (p', added) := p.registerFeature feature
    let (p'', answers) := p'.registerAll features
    (p'', added :: answers)

@[simp] theorem registerFeature_set (p : DeviceProperties F M H) (feature : F) :
    (p.registerFeature feature).1.set = insert feature p.set := rfl

@[simp] theorem registerFeature_memory (p : DeviceProperties F M H) (feature : F) :
    (p.registerFeature feature).1.memory = p.memory := rfl

@[simp] theorem registerFeature_hardware (p : DeviceProperties F M H) (feature : F) :
    (p.registerFeature feature).1.hardware = p.hardware := rfl

theorem featureEnabled_iff {p : DeviceProperties F M H} {feature : F} :
    p.featureEnabled feature = true ↔ feature ∈ p.set := decide_eq_true_iff

theorem foldl_insert_mem {f : F} :
    ∀ (features : List F) (set : Finset F),
      f ∈ features.foldl (fun set feature => insert feature set) set ↔ f ∈ set ∨ f ∈ features
  | [], set => by simp
  | g :: features, set => by
    rw [List.foldl_cons, foldl_insert_mem features, Finset.mem_insert, List.mem_cons]
    tauto

/-- A device built with `new` supports exactly the features it was given. -/
theorem featureEnabled_new (features : List F) (memoryProps : M) (hardware : H) (f : F) :
    (new features memoryProps hardware).featureEnabled f = true ↔ f ∈ features := by
  rw [featureEnabled_iff, new, foldl_insert_mem]; simp

/-- A run of registrations adds the registered features to the set, and changes neither record. -/
theorem registerAll_set (p : DeviceProperties F M H) :
    ∀ features : List F, (p.registerAll features).1.set = p.set ∪ features.toFinset ∧
      (p.registerAll features).1.memory = p.memory ∧
      (p.registerAll features).1.hardware = p.hardware
  | [] => by simp [registerAll]
  | feature :: features => by
    obtain ⟨hset, hmem, hhw⟩ := (p.registerFeature feature).1.registerAll_set features
    refine ⟨?_, hmem, hhw⟩
    rw [registerAll, hset, registerFeature_set, List.toFinset_cons, Finset.insert_union,
      Finset.union_insert]

/-- Over any run, a feature is enabled after it when it was before or was registered. -/
theorem registerAll_featureEnabled (p : DeviceProperties F M H) (features : List F) (f : F) :
    (p.registerAll features).1.featureEnabled f = true ↔
      p.featureEnabled f = true ∨ f ∈ features := by
  simp [featureEnabled_iff, (p.registerAll_set features).1]

/-- Over any run, the registrations answer `true` once per feature that was new: their count
grows the set by that much. -/
theorem registerAll_count (p : DeviceProperties F M H) :
    ∀ features : List F,
      (p.registerAll features).2.count true + p.set.card = (p.set ∪ features.toFinset).card
  | [] => by simp [registerAll]
  | feature :: features => by
    have ih := (p.registerFeature feature).1.registerAll_count features
    rw [registerFeature_set] at ih
    rw [registerAll, List.count_cons, List.toFinset_cons, Finset.union_insert,
      ← Finset.insert_union, ← ih]
    by_cases h : feature ∈ p.set
    · simp [registerFeature, h]
    · simp [registerFeature, h, Finset.card_insert_of_not_mem h]; omega

/-- Registration `k` of a run answers `true` exactly when its feature is in neither the set it
started from nor an earlier registration. -/
theorem registerAll_answer (p : DeviceProperties F M H) :
    ∀ (features : List F) (k : Nat), (p.registerAll features).2[k]? =
      features[k]?.map fun f => decide (f ∉ p.set ∧ f ∉ features.take k)
  | [], k => by simp [registerAll]
  | feature :: features, 0 => by simp [registerAll, registerFeature]
  | feature :: features, k + 1 => by
    rw [registerAll, List.getElem?_cons_succ, (p.registerFeature feature).1.registerAll_answer,
      List.getElem?_cons_succ, List.take_succ_cons]
    congr 1
    funext f
    simp only [registerFeature_set, Finset.mem_insert, List.mem_cons, decide_eq_decide]
    tauto

/-- **Registration is append-only.** Over any run of `register_feature` from any properties, a
feature is enabled after it exactly when it was before or was registered; each registration
answers `true` exactly when its feature was new, so the answers count what the set grew by; and
the memory and hardware records are those the properties were built with. -/
theorem feature_registry_append_only (p : DeviceProperties F M H) (features : List F) :
    (∀ f, (p.registerAll features).1.featureEnabled f = true ↔
      p.featureEnabled f = true ∨ f ∈ features) ∧
    (∀ k, (p.registerAll features).2[k]? =
      features[k]?.map fun f => decide (f ∉ p.set ∧ f ∉ features.take k)) ∧
    (p.registerAll features).2.count true + p.set.card = (p.set ∪ features.toFinset).card ∧
    (p.registerAll features).1.memoryProperties = p.memoryProperties ∧
    (p.registerAll features).1.hardwareProperties = p.hardwareProperties :=
  ⟨p.registerAll_featureEnabled features, p.registerAll_answer features,
    p.registerAll_count features, (p.registerAll_set features).2⟩

end DeviceProperties

/-! ## WGSL registration -/

/-- Modelled from the spec: `ir::FloatKind` is not in the source; the float kinds. -/
inductive FloatKind
  | f16
  | bf16
  | flex32
  | f32
  | tf32
  | f64
deriving DecidableEq, Repr

/-- Modelled from the spec: `ir::IntKind` is not in the source; the signed integer kinds. -/
inductive IntKind
  | i8
  | i16
  | i32
  | i64
deriving DecidableEq, Repr

/-- Modelled from the spec: `ir::UIntKind` is not in the source; the unsigned integer kinds. -/
inductive UIntKind
  | u8
  | u16
  | u32
  | u64
deriving DecidableEq, Repr

/-- Modelled from the spec: `ir::Elem` is not in the source; the element types `wgsl.rs` names. -/
inductive Elem
  | float (kind : FloatKind)
  | int (kind : IntKind)
  | uint (kind : UIntKind)
  | atomicFloat (kind : FloatKind)
  | atomicInt (kind : IntKind)
  | atomicUInt (kind : UIntKind)
  | bool
deriving DecidableEq, Repr

/-- Modelled from the spec: `AtomicFeature` is not in the source; the two `wgsl.rs` registers. -/
inductive AtomicFeature
  | loadStore
  | add
deriving DecidableEq, Repr

/-- `Feature` (`cubecl-core/src/runtime.rs`), with `AtomicFloat` as `wgsl.rs` uses it. -/
inductive Feature
  | plane
  | cmma (a b c : Elem) (m k n : Nat)
  | cmmaWarpSize (size : Int)
  | type (elem : Elem)
  | atomicFloat (feature : AtomicFeature)
deriving DecidableEq, Repr

/-- The `wgpu::Features` of the adapter that `register_types` reads. -/
structure AdapterFeatures where
  shaderInt64 : Bool
  shaderF64 : Bool
  shaderFloat32Atomic : Bool
deriving DecidableEq, Repr

/-- `WgpuCompilationOptions`: `supports_u64`, the field `register_wgsl_features` sets. -/
structure WgpuCompilationOptions where
  supportsU64 : Bool
deriving DecidableEq, Repr

/-- The `supported_types` of `register_types`. -/
def supportedTypes : List Elem :=
  [.uint .u32, .int .i32, .atomicInt .i32, .atomicUInt .u32, .float .f32, .float .flex32, .bool]

variable {M H : Type}

/-- `register_types`: the supported types, then those the adapter's features allow, each
registered as `Feature::Type`; `SHADER_FLOAT32_ATOMIC` also registers the two atomic float
features. -/
def registerTypes (props : DeviceProperties Feature M H) (adapter : AdapterFeatures) :
    DeviceProperties Feature M H :=
  let register := fun (props : DeviceProperties Feature M H) (ty : Elem) =>
    (props.registerFeature (.type ty)).1
  let props := supportedTypes.foldl register props
  let props := if adapter.shaderInt64 then register (register props (.int .i64)) (.uint .u64)
    else props
  let props := if adapter.shaderF64 then register props (.float .f64) else props
  if adapter.shaderFloat32Atomic then
    let props := register props (.atomicFloat .f32)
    let props := (props.registerFeature (.atomicFloat .loadStore)).1
    (props.registerFeature (.atomicFloat .add)).1
  else props

/-- `register_wgsl_features`: `register_types`, then `supports_u64` where `u64` is enabled. -/
def registerWgslFeatures (adapter : AdapterFeatures) (props : DeviceProperties Feature M H)
    (compOptions : WgpuCompilationOptions) : DeviceProperties Feature M H × WgpuCompilationOptions :=
  let props := registerTypes props adapter
  (props, if props.featureEnabled (.type (.uint .u64)) then { compOptions with supportsU64 := true }
    else compOptions)

end CubeCl.Runtime
