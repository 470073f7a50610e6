import ZeusPower.Library.Ledger
import ZeusPower.PowerMonitor

/-! Who owns the backends (`PowerMonitor` in `power_monitor.h`).

The facade owns a backend of each kind through a `unique_ptr`, and an `EnergyMonitor` and a
`PowerQuery`, into which `rebuild_internals` copies plain pointers to the backends. A
backend owns a polling thread or the system's objects, so a backend that is forgotten keeps
a thread running, and one that is destroyed under a plain pointer leaves it dangling.

`lifetimes_balanced`: whichever devices are asked for, in any order and as often as one
likes, every call finds its monitor alive, and the backends that the monitor's own pointers
point to; and each object is built once at most, and destroyed as often as it was built. A
constructor that throws destroys each backend it has built (`construct_throws_none`). -/
namespace ZeusPower.PowerMonitor
open Device Monitor Library Library.Ledger

/-- What the facade builds; a backend is known by its kind and the turn of the loop that
built it. -/
inductive Object where
  | backend (kind : DeviceType) (turn : ℕ)
  | energyMonitor
  | powerQuery
  deriving DecidableEq, Repr

abbrev Program (α : Type) := Logged Error Object α

/-- The owning pointers to the backends, each with the turn its object is of. -/
structure Owners where
  nvidia : Option (ℕ × NvidiaGpuBackend) := none
  jetson : Option (ℕ × JetsonSoCBackend) := none
  apple : Option (ℕ × AppleSoCBackend) := none

/-- The plain pointers of a monitor (`BackendPtrs`): each is known by the object it points
to. -/
structure PlainPtrs where
  nvidia : Option ℕ
  jetson : Option ℕ
  apple : Option ℕ
  deriving DecidableEq, Repr

/-- The members of the facade, in the order of declaration. Of a monitor inside it, the
pointers it was built with. -/
structure Members where
  owners : Owners := {}
  energyMonitor : Option PlainPtrs := none
  powerQuery : Option PlainPtrs := none

namespace Owners

/-- What `get` gives. -/
def get (owners : Owners) : PlainPtrs :=
  ⟨owners.nvidia.map Prod.fst, owners.jetson.map Prod.fst, owners.apple.map Prod.fst⟩

def backends (owners : Owners) : BackendPtrs :=
  ⟨owners.nvidia.map Prod.snd, owners.jetson.map Prod.snd, owners.apple.map Prod.snd⟩

end Owners

/-- The object behind a pointer to a backend, if it is not null. -/
def pointee (kind : DeviceType) (ptr : Option ℕ) : Option Object := ptr.map (Object.backend kind)

/-- A null pointer owns nothing. -/
def destroyIf : Option Object → Program PUnit
  | none => pure ⟨⟩
  | some object => Logged.note (.release object)

/-- `make_unique`, then the assignment, which destroys the object owned before. -/
def renew (object : Object) (owned : Option Object) : Program PUnit := do
  Logged.note (.acquire object)
  destroyIf owned

/-- Members are destroyed in the reverse of the order they are declared in. -/
def destroyMembers (m : Members) : Program PUnit := do
  destroyIf (m.powerQuery.map fun _ => .powerQuery)
  destroyIf (m.energyMonitor.map fun _ => .energyMonitor)
  destroyIf (pointee .appleSoC m.owners.get.apple)
  destroyIf (pointee .jetsonSoC m.owners.get.jetson)
  destroyIf (pointee .nvidiaGPU m.owners.get.nvidia)

def addOwner (hw : Machinery) (cfg : PowerMonitorConfig) (owners : Owners) (turn : DeviceType × ℕ) :
    Program Owners :=
  let (dev, n) := turn
  match dev with
  | .nvidiaGPU =>
    match NvidiaGpuBackend.construct hw.nvmlCompiled (hw.nvml n) cfg.gpuIndices with
    | .error e => throw e
    | .ok nvidia => do
      renew (.backend .nvidiaGPU n) (pointee .nvidiaGPU owners.get.nvidia)
      pure { owners with nvidia := some (n, nvidia) }
  | .jetsonSoC =>
    match JetsonSoCBackend.construct (hw.platform == .linux) (hw.jetsonAvailable n)
        (hw.powerRails n) (hw.now n) with
    | .error e => throw e
    | .ok jetson => do
      renew (.backend .jetsonSoC n) (pointee .jetsonSoC owners.get.jetson)
      pure { owners with jetson := some (n, jetson) }
  | .appleSoC =>
    match AppleSoCBackend.construct (hw.platform == .macosArm64) (hw.ioreport n) with
    | .error e => throw e
    | .ok apple => do
      renew (.backend .appleSoC n) (pointee .appleSoC owners.get.apple)
      pure { owners with apple := some (n, apple) }
  | .other _ => throw .unknownDeviceType

/-- The loop. An exception that leaves the constructor destroys the members; the monitors
are not built yet. -/
def addOwners (hw : Machinery) (cfg : PowerMonitorConfig) : Owners → List (DeviceType × ℕ) → Program Owners
  | owners, [] => pure owners
  | owners, turn :: turns => do
    let owners' ← tryCatch (addOwner hw cfg owners turn) fun e => do
      destroyMembers { owners }
      throw e
    addOwners hw cfg owners' turns

/-- Both monitors copy what `get` gives. -/
def rebuildInternals (m : Members) : Program Members := do
  let eptrs := m.owners.get
  renew .energyMonitor (m.energyMonitor.map fun _ => .energyMonitor)
  let pptrs := m.owners.get
  renew .powerQuery (m.powerQuery.map fun _ => .powerQuery)
  pure { m with energyMonitor := some eptrs, powerQuery := some pptrs }

def constructMembers (hw : Machinery) (devices : List DeviceType) (cfg : PowerMonitorConfig) :
    Program Members :=
  if devices.isEmpty then throw .noDeviceType
  else do
    let owners ← addOwners hw cfg {} devices.zipIdx
    rebuildInternals { owners }

/-! ### Calls -/

inductive Call where
  | beginWindow
  | endWindow
  | getInstantPower
  | getPowerLimit
  | getInstantSocPower
  | hasGpu
  | hasSoc
  | gpuType
  | socType
  | gpuIndices
  | socMetrics
  deriving DecidableEq, Repr

/-- The backends a call may dereference: those whose pointer it does not find null. -/
def Call.pointees (ptrs : PlainPtrs) : Call → List Object
  | beginWindow | endWindow =>
    (pointee .nvidiaGPU ptrs.nvidia).toList ++ (pointee .jetsonSoC ptrs.jetson).toList ++
      (pointee .appleSoC ptrs.apple).toList
  | getInstantPower | getPowerLimit | gpuIndices => (pointee .nvidiaGPU ptrs.nvidia).toList
  -- Jetson is asked first.
  | getInstantSocPower =>
    if ptrs.jetson.isSome then (pointee .jetsonSoC ptrs.jetson).toList
    else (pointee .appleSoC ptrs.apple).toList
  | socMetrics => (pointee .jetsonSoC ptrs.jetson).toList ++ (pointee .appleSoC ptrs.apple).toList
  -- These compare pointers with null.
  | hasGpu | hasSoc | gpuType | socType => []

/-- The monitor a call is delegated to. -/
def Call.monitor : Call → Object
  | beginWindow | endWindow => .energyMonitor
  | _ => .powerQuery

/-- The pointers that monitor holds. -/
def Call.ptrs (m : Members) : Call → Option PlainPtrs
  | beginWindow | endWindow => m.energyMonitor
  | _ => m.powerQuery

/-- A call uses the monitor, and through the monitor's pointers the backends. -/
def Call.log (m : Members) (call : Call) : List (Event Object) :=
  .use call.monitor :: (((call.ptrs m).map call.pointees).getD []).map .use

/-! ### The values -/

def PlainPtrs.ptr (ptrs : PlainPtrs) : DeviceType → Option ℕ
  | .nvidiaGPU => ptrs.nvidia
  | .jetsonSoC => ptrs.jetson
  | .appleSoC => ptrs.apple
  | .other _ => none

theorem destroyIf_result (owned : Option Object) : (destroyIf owned).result = .ok ⟨⟩ := by
  cases owned <;> rfl

theorem renew_result (object : Object) (owned : Option Object) : (renew object owned).result = .ok ⟨⟩ := by
  rw [renew, Logged.result_note_bind, destroyIf_result]

theorem destroyMembers_result (m : Members) : (destroyMembers m).result = .ok ⟨⟩ := by
  simp only [destroyMembers, Logged.result_ok_bind (destroyIf_result _), destroyIf_result]

/-- A turn throws before it touches the members, or renews the member of its kind. -/
theorem addOwner_cases (hw : Machinery) (cfg : PowerMonitorConfig) (owners : Owners) (dev : DeviceType) (n : ℕ) :
    (∃ e, addOwner hw cfg owners (dev, n) = throw e ∧ addDevice hw cfg owners.backends (dev, n) = .error e) ∨
      ∃ owners', addOwner hw cfg owners (dev, n) =
          (do renew (.backend dev n) (pointee dev (owners.get.ptr dev)); pure owners') ∧
        addDevice hw cfg owners.backends (dev, n) = .ok owners'.backends ∧ (∀ value, dev ≠ .other value) ∧
        ∀ kind, owners'.get.ptr kind = if dev = kind then some n else owners.get.ptr kind := by
  cases dev with
  | nvidiaGPU =>
    simp only [addOwner, addDevice]
    cases NvidiaGpuBackend.construct hw.nvmlCompiled (hw.nvml n) cfg.gpuIndices with
    | error e => exact Or.inl ⟨e, rfl, rfl⟩
    | ok nvidia =>
      exact Or.inr ⟨{ owners with nvidia := some (n, nvidia) }, rfl, rfl, fun _ => by simp,
        fun kind => by cases kind <;> rfl⟩
  | jetsonSoC =>
    simp only [addOwner, addDevice]
    cases JetsonSoCBackend.construct (hw.platform == .linux) (hw.jetsonAvailable n) (hw.powerRails n)
        (hw.now n) with
    | error e => exact Or.inl ⟨e, rfl, rfl⟩
    | ok jetson =>
      exact Or.inr ⟨{ owners with jetson := some (n, jetson) }, rfl, rfl, fun _ => by simp,
        fun kind => by cases kind <;> rfl⟩
  | appleSoC =>
    simp only [addOwner, addDevice]
    cases AppleSoCBackend.construct (hw.platform == .macosArm64) (hw.ioreport n) with
    | error e => exact Or.inl ⟨e, rfl, rfl⟩
    | ok apple =>
      exact Or.inr ⟨{ owners with apple := some (n, apple) }, rfl, rfl, fun _ => by simp,
        fun kind => by cases kind <;> rfl⟩
  | other value => exact Or.inl ⟨_, rfl, rfl⟩

theorem addOwner_result (hw : Machinery) (cfg : PowerMonitorConfig) (owners : Owners)
    (turn : DeviceType × ℕ) :
    (addOwner hw cfg owners turn).result.map Owners.backends = addDevice hw cfg owners.backends turn := by
  obtain ⟨dev, n⟩ := turn
  rcases addOwner_cases hw cfg owners dev n with ⟨e, hthrow, hdevice⟩ | ⟨owners', hrenew, hdevice, -⟩
  · rw [hthrow, hdevice]
    rfl
  · rw [hrenew, hdevice, Logged.result_ok_bind (renew_result _ _)]
    rfl

theorem addOwners_result (hw : Machinery) (cfg : PowerMonitorConfig) (owners : Owners)
    (turns : List (DeviceType × ℕ)) :
    (addOwners hw cfg owners turns).result.map Owners.backends =
      turns.foldlM (addDevice hw cfg) owners.backends := by
  induction turns generalizing owners with
  | nil => rfl
  | cons turn turns ih =>
    rw [addOwners, List.foldlM_cons, ← addOwner_result, Logged.result_bind, Logged.result_tryCatch]
    cases (addOwner hw cfg owners turn).result with
    | ok owners' => exact ih owners'
    | error e =>
      simp only
      rw [Logged.result_ok_bind (destroyMembers_result { owners })]
      rfl

theorem rebuildInternals_result (m : Members) : (rebuildInternals m).result =
    .ok { m with energyMonitor := some m.owners.get, powerQuery := some m.owners.get } := by
  simp only [rebuildInternals, Logged.result_ok_bind (renew_result _ _), Logged.result_pure]

/-- The facade's constructor returns, or throws, what the one that looks at the values does. -/
theorem constructMembers_result (hw : Machinery) (devices : List DeviceType) (cfg : PowerMonitorConfig) :
    (constructMembers hw devices cfg).result.map (fun m => ⟨EnergyMonitor.construct m.owners.backends⟩) =
      construct hw devices cfg := by
  unfold constructMembers construct
  by_cases hempty : devices.isEmpty = true
  · rw [if_pos hempty, if_pos hempty]
    rfl
  · rw [if_neg hempty, if_neg hempty]
    have hloop := addOwners_result hw cfg {} devices.zipIdx
    have hnone : ({} : Owners).backends = {} := rfl
    rw [hnone] at hloop
    rw [← hloop, Logged.result_bind]
    cases (addOwners hw cfg {} devices.zipIdx).result with
    | error e => rfl
    | ok owners =>
      show ((rebuildInternals { owners }).result.map _ : Except Error PowerMonitor) = _
      rw [rebuildInternals_result]
      rfl

/-- A facade that is built has both its monitors, with the pointers to its own backends. -/
theorem constructMembers_ok {hw : Machinery} {devices : List DeviceType} {cfg : PowerMonitorConfig}
    {m : Members} (h : (constructMembers hw devices cfg).result = .ok m) :
    ∃ owners, (addOwners hw cfg {} devices.zipIdx).result = .ok owners ∧
      constructMembers hw devices cfg =
        (do let owners ← addOwners hw cfg {} devices.zipIdx; rebuildInternals { owners }) ∧
      m = ⟨owners, some owners.get, some owners.get⟩ := by
  unfold constructMembers at h ⊢
  by_cases hempty : devices.isEmpty = true
  · rw [if_pos hempty] at h
    cases h
  · rw [if_neg hempty] at h ⊢
    rw [Logged.result_bind] at h
    cases hloop : (addOwners hw cfg {} devices.zipIdx).result with
    | error e =>
      rw [hloop] at h
      cases h
    | ok owners =>
      rw [hloop] at h
      refine ⟨owners, rfl, rfl, ?_⟩
      have hbuilt : (rebuildInternals { owners }).result = .ok m := h
      rw [rebuildInternals_result] at hbuilt
      exact (Except.ok.inj hbuilt).symm

/-! ### What is alive -/

/-- The object a pointer owns, if it is not null. -/
def owned (object : Option Object) : Multiset Object := (object.toList : Multiset Object)

/-- The backends that the members own. -/
def Owners.alive (owners : Owners) : Multiset Object :=
  owned (pointee .appleSoC owners.get.apple) +
    (owned (pointee .jetsonSoC owners.get.jetson) + (owned (pointee .nvidiaGPU owners.get.nvidia) + 0))

/-- The objects that the members own. -/
def Members.alive (m : Members) : Multiset Object :=
  owned (m.powerQuery.map fun _ => .powerQuery) +
    (owned (m.energyMonitor.map fun _ => .energyMonitor) + m.owners.alive)

section Leaves
variable {lent held rest : Multiset Object}

theorem destroyIf_leaves {object : Option Object} (hheld : held = owned object + rest) :
    Leaves lent held (destroyIf object) fun r left => r = .ok ⟨⟩ ∧ left = rest := by
  subst hheld
  cases object with
  | none => exact leaves_pure ⟨rfl, zero_add rest⟩
  | some object =>
    have hone : owned (some object) + rest = object ::ₘ rest := Multiset.singleton_add _ _
    rw [hone]
    exact ⟨rest, by rw [destroyIf, Logged.note, run, step, if_pos (Multiset.mem_cons_self _ _),
      Multiset.erase_cons_head]; rfl, rfl, rfl⟩

/-- The new object is alive before the one it replaces is destroyed. -/
theorem renew_leaves {object : Object} {before : Option Object} (hheld : held = owned before + rest) :
    Leaves lent held (renew object before) fun r left => r = .ok ⟨⟩ ∧ left = owned (some object) + rest := by
  have hone : owned (some object) + rest = object ::ₘ rest := Multiset.singleton_add _ _
  rw [hone]
  refine leaves_acquire (destroyIf_leaves ?_)
  rw [hheld, Multiset.add_cons]

theorem destroyMembers_leaves (m : Members) :
    Leaves lent m.alive (destroyMembers m) fun r left => r = .ok ⟨⟩ ∧ left = 0 := by
  refine leaves_bind ((destroyIf_leaves rfl).mono ?_)
  rintro _ _ ⟨rfl, rfl⟩
  refine leaves_bind ((destroyIf_leaves rfl).mono ?_)
  rintro _ _ ⟨rfl, rfl⟩
  refine leaves_bind ((destroyIf_leaves rfl).mono ?_)
  rintro _ _ ⟨rfl, rfl⟩
  refine leaves_bind ((destroyIf_leaves rfl).mono ?_)
  rintro _ _ ⟨rfl, rfl⟩
  exact destroyIf_leaves rfl

/-- Without its monitors a facade owns its backends. -/
theorem alive_owners (owners : Owners) : Members.alive { owners } = owners.alive := by
  show 0 + (0 + owners.alive) = owners.alive
  rw [zero_add, zero_add]

/-- Renewing one member changes what is alive of its kind. -/
theorem alive_renewed {owners owners' : Owners} {dev : DeviceType} {n : ℕ} (hdev : ∀ value, dev ≠ .other value)
    (h : ∀ kind, owners'.get.ptr kind = if dev = kind then some n else owners.get.ptr kind) :
    ∃ others, owners.alive = owned (pointee dev (owners.get.ptr dev)) + others ∧
      owners'.alive = owned (some (.backend dev n)) + others := by
  have hnvidia : owners'.get.nvidia = _ := h .nvidiaGPU
  have hjetson : owners'.get.jetson = _ := h .jetsonSoC
  have happle : owners'.get.apple = _ := h .appleSoC
  unfold Owners.alive
  rw [hnvidia, hjetson, happle]
  cases dev with
  | nvidiaGPU =>
    refine ⟨owned (pointee .appleSoC owners.get.apple) + owned (pointee .jetsonSoC owners.get.jetson), ?_, ?_⟩
    · rw [add_zero, ← add_assoc, add_comm]
      rfl
    · rw [add_zero, ← add_assoc, add_comm]
      rfl
  | jetsonSoC => exact ⟨_, add_left_comm _ _ _, add_left_comm _ _ _⟩
  | appleSoC => exact ⟨_, rfl, rfl⟩
  | other value => exact absurd rfl (hdev value)

/-- A turn that throws leaves the objects of the turns before it. -/
theorem addOwner_leaves (hw : Machinery) (cfg : PowerMonitorConfig) (owners : Owners)
    (turn : DeviceType × ℕ) :
    Leaves lent owners.alive (addOwner hw cfg owners turn) fun r left =>
      match r with
      | .ok owners' => left = owners'.alive
      | .error _ => left = owners.alive := by
  obtain ⟨dev, n⟩ := turn
  rcases addOwner_cases hw cfg owners dev n with ⟨e, hthrow, -⟩ | ⟨owners', hrenew, -, hdev, hptr⟩
  · rw [hthrow]
    exact leaves_throw rfl
  · rw [hrenew]
    obtain ⟨others, hold, hnew⟩ := alive_renewed hdev hptr
    refine leaves_bind ((renew_leaves hold).mono ?_)
    rintro _ _ ⟨rfl, rfl⟩
    exact leaves_pure hnew.symm

/-- The loop leaves the objects of the members it returns, and none if it throws. -/
theorem addOwners_leaves (hw : Machinery) (cfg : PowerMonitorConfig) (owners : Owners)
    (turns : List (DeviceType × ℕ)) :
    Leaves lent owners.alive (addOwners hw cfg owners turns) fun r left =>
      match r with
      | .ok owners' => left = owners'.alive
      | .error _ => left = 0 := by
  induction turns generalizing owners with
  | nil => exact leaves_pure rfl
  | cons turn turns ih =>
    refine leaves_bind (leaves_tryCatch ((addOwner_leaves hw cfg owners turn).mono ?_))
    rintro (e | owners') left hleft
    · subst hleft
      rw [← alive_owners]
      refine leaves_bind ((destroyMembers_leaves { owners }).mono ?_)
      rintro _ _ ⟨rfl, rfl⟩
      exact leaves_throw rfl
    · subst hleft
      exact ih owners'

theorem rebuildInternals_leaves (owners : Owners) :
    Leaves lent owners.alive (rebuildInternals { owners }) fun r left =>
      ∃ m, r = .ok m ∧ left = m.alive := by
  refine leaves_bind ((renew_leaves (zero_add _).symm).mono ?_)
  rintro _ _ ⟨rfl, rfl⟩
  refine leaves_bind ((renew_leaves (zero_add _).symm).mono ?_)
  rintro _ _ ⟨rfl, rfl⟩
  exact leaves_pure ⟨_, rfl, rfl⟩

/-- The constructor leaves the objects of the members it returns, and none if it throws. -/
theorem constructMembers_leaves (hw : Machinery) (devices : List DeviceType) (cfg : PowerMonitorConfig) :
    Leaves lent 0 (constructMembers hw devices cfg) fun r left =>
      match r with
      | .ok m => left = m.alive
      | .error _ => left = 0 := by
  unfold constructMembers
  by_cases hempty : devices.isEmpty = true
  · rw [if_pos hempty]
    exact leaves_throw rfl
  · rw [if_neg hempty]
    refine leaves_bind ((addOwners_leaves hw cfg {} devices.zipIdx).mono ?_)
    rintro (e | owners) left hleft
    · exact hleft
    · subst hleft
      refine (rebuildInternals_leaves owners).mono ?_
      rintro _ _ ⟨m, rfl, rfl⟩
      rfl

end Leaves

/-! ### Calls of a facade -/

/-- Both monitors are there, and their pointers are the ones to the facade's own backends. -/
structure Members.Wired (m : Members) : Prop where
  energyMonitor : m.energyMonitor = some m.owners.get
  powerQuery : m.powerQuery = some m.owners.get

theorem use_alive {m : Members} {objects : List Object} (h : ∀ object ∈ objects, object ∈ m.alive) :
    run m.alive 0 (objects.map .use) = some 0 := by
  induction objects with
  | nil => rfl
  | cons object objects ih =>
    refine run_cons_iff.mpr ⟨0, if_pos ?_, ih fun o ho => h o (List.mem_cons_of_mem _ ho)⟩
    exact Multiset.mem_add.mpr (Or.inl (h object List.mem_cons_self))

theorem pointees_alive (owners : Owners) (call : Call) :
    ∀ object ∈ call.pointees owners.get, object ∈ owners.alive := by
  intro object hobject
  unfold Owners.alive owned
  simp only [Multiset.mem_add, Multiset.mem_coe, Multiset.notMem_zero, or_false]
  cases call with
  | beginWindow | endWindow =>
    rw [Call.pointees, List.mem_append, List.mem_append] at hobject
    tauto
  | getInstantPower | getPowerLimit | gpuIndices => exact Or.inr (Or.inr hobject)
  | getInstantSocPower =>
    rw [Call.pointees] at hobject
    split at hobject
    · exact Or.inr (Or.inl hobject)
    · exact Or.inl hobject
  | socMetrics =>
    rw [Call.pointees, List.mem_append] at hobject
    tauto
  | hasGpu | hasSoc | gpuType | socType => cases hobject

/-- A call of a wired facade uses what the members own. -/
theorem call_leaves {m : Members} (hwired : m.Wired) (call : Call) :
    run m.alive 0 (call.log m) = some 0 := by
  have hptrs : call.ptrs m = some m.owners.get := by
    cases call <;> first | exact hwired.energyMonitor | exact hwired.powerQuery
  have hmonitor : call.monitor ∈ m.alive := by
    unfold Members.alive
    rw [hwired.energyMonitor, hwired.powerQuery]
    cases call <;> simp [Call.monitor, owned]
  have hlog : call.log m = (call.monitor :: call.pointees m.owners.get).map .use := by
    rw [Call.log, hptrs]
    rfl
  rw [hlog]
  refine use_alive fun object hobject => ?_
  rcases List.mem_cons.mp hobject with rfl | hpointee
  · exact hmonitor
  · unfold Members.alive
    rw [← add_assoc]
    exact Multiset.mem_add.mpr (Or.inr (pointees_alive m.owners call object hpointee))

/-! ### How often an object is built -/

section Built
variable (object : Object)

theorem acquired_append (a b : List (Event Object)) :
    acquired object (a ++ b) = acquired object a + acquired object b := List.count_append

theorem acquired_destroyIf (before : Option Object) : acquired object (destroyIf before).log = 0 := by
  cases before with
  | none => rfl
  | some o => simp [destroyIf, Logged.note, acquired]

theorem acquired_renew (built : Object) (before : Option Object) :
    acquired object (renew built before).log = if built = object then 1 else 0 := by
  have hlog : (renew built before).log = [.acquire built] ++ (destroyIf before).log := rfl
  rw [hlog, acquired_append, acquired_destroyIf, add_zero, acquired, List.count_singleton]
  simp

theorem acquired_destroyMembers (m : Members) : acquired object (destroyMembers m).log = 0 := by
  simp only [destroyMembers, Logged.log_ok_bind (destroyIf_result _), acquired_append, acquired_destroyIf]

theorem acquired_addOwner (hw : Machinery) (cfg : PowerMonitorConfig) (owners : Owners) (turn : DeviceType × ℕ) :
    acquired object (addOwner hw cfg owners turn).log ≤
      if Object.backend turn.1 turn.2 = object then 1 else 0 := by
  obtain ⟨dev, n⟩ := turn
  rcases addOwner_cases hw cfg owners dev n with ⟨e, hthrow, -⟩ | ⟨owners', hrenew, -, -, -⟩
  · rw [hthrow]
    exact Nat.zero_le _
  · rw [hrenew, Logged.log_ok_bind (renew_result _ _), acquired_append, acquired_renew]
    exact le_rfl

/-- The loop builds an object at its own turn alone. -/
theorem acquired_addOwners (hw : Machinery) (cfg : PowerMonitorConfig) (owners : Owners)
    (turns : List (DeviceType × ℕ)) : acquired object (addOwners hw cfg owners turns).log ≤
      (turns.map fun turn => Object.backend turn.1 turn.2).count object := by
  induction turns generalizing owners with
  | nil => exact Nat.zero_le _
  | cons turn turns ih =>
    have hturn := acquired_addOwner object hw cfg owners turn
    rw [List.map_cons, List.count_cons, addOwners]
    simp only [beq_iff_eq]
    cases hresult : (addOwner hw cfg owners turn).result with
    | error e =>
      rw [Logged.tryCatch_error hresult, Logged.result_ok_bind (destroyMembers_result { owners }),
        Logged.log_error_bind rfl, acquired_append, Logged.log_ok_bind (destroyMembers_result { owners }),
        acquired_append, acquired_destroyMembers]
      exact hturn.trans (Nat.le_add_left _ _)
    | ok owners' =>
      rw [Logged.tryCatch_ok hresult, Logged.log_ok_bind hresult, acquired_append, Nat.add_comm]
      exact Nat.add_le_add (ih owners') hturn

/-- Nothing is built twice. -/
theorem acquired_constructMembers {hw : Machinery} {devices : List DeviceType} {cfg : PowerMonitorConfig}
    {m : Members} (h : (constructMembers hw devices cfg).result = .ok m) :
    acquired object (constructMembers hw devices cfg).log ≤ 1 := by
  obtain ⟨owners, hloop, hconstruct, -⟩ := constructMembers_ok h
  have hturns := acquired_addOwners object hw cfg {} devices.zipIdx
  have hinternals : (rebuildInternals { owners }).log = [.acquire .energyMonitor, .acquire .powerQuery] := rfl
  rw [hconstruct, Logged.log_ok_bind hloop, acquired_append, hinternals]
  have hbackends : ∀ other, (∀ kind n, other ≠ Object.backend kind n) →
      (devices.zipIdx.map fun turn => Object.backend turn.1 turn.2).count other = 0 := by
    intro other hother
    apply List.count_eq_zero_of_not_mem
    intro hmem
    obtain ⟨turn, -, hturn⟩ := List.mem_map.mp hmem
    exact hother _ _ hturn.symm
  cases object with
  | backend kind n =>
    have hnodup : (devices.zipIdx.map fun turn => Object.backend turn.1 turn.2).Nodup := by
      apply List.Nodup.of_map (fun object => match object with | .backend _ n => n | _ => 0)
      rw [List.map_map]
      show (devices.zipIdx.map Prod.snd).Nodup
      rw [List.zipIdx_map_snd]
      exact List.nodup_range'
    exact (Nat.add_le_add_right hturns _).trans (List.nodup_iff_count_le_one.mp hnodup _)
  | energyMonitor =>
    rw [hbackends _ (by intro _ _ h; cases h)] at hturns
    exact Nat.add_le_add_right hturns _
  | powerQuery =>
    rw [hbackends _ (by intro _ _ h; cases h)] at hturns
    exact Nat.add_le_add_right hturns _

end Built

/-! ### The last of each kind -/

/-- The last turn that asks for a kind. -/
def lastTurn (kind : DeviceType) (turns : List (DeviceType × ℕ)) : Option ℕ :=
  (turns.filter fun turn => decide (turn.1 = kind)).getLast?.map Prod.snd

theorem addOwner_ptr {hw : Machinery} {cfg : PowerMonitorConfig} {owners owners' : Owners}
    {turn : DeviceType × ℕ} (h : (addOwner hw cfg owners turn).result = .ok owners') (kind : DeviceType) :
    owners'.get.ptr kind = if turn.1 = kind then some turn.2 else owners.get.ptr kind := by
  obtain ⟨dev, n⟩ := turn
  rcases addOwner_cases hw cfg owners dev n with ⟨e, hthrow, -⟩ | ⟨renewed, hrenew, -, -, hptr⟩
  · rw [hthrow] at h
    cases h
  · rw [hrenew, Logged.result_ok_bind (renew_result _ _)] at h
    obtain rfl := Except.ok.inj h
    exact hptr kind

theorem lastTurn_cons (kind : DeviceType) (turn : DeviceType × ℕ) (turns : List (DeviceType × ℕ)) :
    lastTurn kind (turn :: turns) =
      (lastTurn kind turns).or (if turn.1 = kind then some turn.2 else none) := by
  unfold lastTurn
  by_cases hkind : turn.1 = kind
  · rw [List.filter_cons_of_pos (by simpa using hkind), if_pos hkind, List.getLast?_cons]
    cases (turns.filter fun turn => decide (turn.1 = kind)).getLast? <;> rfl
  · rw [List.filter_cons_of_neg (by simpa using hkind), if_neg hkind, Option.or_none]

theorem addOwners_ptr {hw : Machinery} {cfg : PowerMonitorConfig} {owners owners' : Owners}
    {turns : List (DeviceType × ℕ)} (h : (addOwners hw cfg owners turns).result = .ok owners')
    (kind : DeviceType) :
    owners'.get.ptr kind = (lastTurn kind turns).or (owners.get.ptr kind) := by
  induction turns generalizing owners with
  | nil =>
    obtain rfl := Except.ok.inj h
    rfl
  | cons turn turns ih =>
    rw [addOwners, Logged.result_bind, Logged.result_tryCatch] at h
    cases hturn : (addOwner hw cfg owners turn).result with
    | error e =>
      simp only [hturn] at h
      rw [Logged.result_ok_bind (destroyMembers_result { owners })] at h
      cases h
    | ok middle =>
      simp only [hturn] at h
      rw [ih h, addOwner_ptr hturn, lastTurn_cons, Option.or_assoc]
      by_cases hkind : turn.1 = kind
      · rw [if_pos hkind, if_pos hkind]
        rfl
      · rw [if_neg hkind, if_neg hkind]
        rfl

/-! ### The life of a facade -/

/-- **A constructor that throws leaves no backend.** It throws what the first device that
cannot be built throws, and every backend built before that has been destroyed, once. -/
theorem construct_throws_none {hw : Machinery} {devices : List DeviceType} {cfg : PowerMonitorConfig}
    {e : Error} (h : (constructMembers hw devices cfg).result = .error e) :
    run 0 0 (constructMembers hw devices cfg).log = some 0 ∧ construct hw devices cfg = .error e := by
  refine ⟨?_, by rw [← constructMembers_result, h]; rfl⟩
  have hleaves : Leaves 0 0 (constructMembers hw devices cfg) _ := constructMembers_leaves hw devices cfg
  obtain ⟨rest, hrun, hrest⟩ := hleaves
  rw [h] at hrest
  obtain rfl := hrest
  exact hrun

/-- A board with one rail, whose sensors are gone at the second turn. -/
def board : Machinery where
  platform := .linux
  nvmlCompiled := false
  nvml _ := ⟨.ok (), .ok 0, fun _ _ => .error "", fun _ _ => .error ""⟩
  jetsonAvailable n := n == 0
  powerRails _ := [⟨"jetson_total", .directPower, "in_power0_input", "", ""⟩]
  now n := n
  ioreport _ := ⟨false, false, false, false, none, false⟩

theorem construct_throws_none_sample :
    run 0 0 (constructMembers board [.jetsonSoC, .jetsonSoC] {}).log = some 0 ∧
      construct board [.jetsonSoC, .jetsonSoC] {} = .error .jetsonNotDetected :=
  construct_throws_none rfl

section Life
variable {θ : Type} [Fintype θ] [DecidableEq θ]

/-- What the constructor, then the threads, then the destructor do. -/
def lifeLog (hw : Machinery) (devices : List DeviceType) (cfg : PowerMonitorConfig) (m : Members)
    (shuffled : List (θ × Event Object)) : List (Event Object) :=
  (constructMembers hw devices cfg).log ++ shuffled.map Prod.snd ++ (destroyMembers m).log

omit [Fintype θ] in
/-- Calls build nothing. -/
theorem acquired_calls {m : Members} {calls : θ → List Call} {shuffled : List (θ × Event Object)}
    (hthreads : ∀ t, ofThread t shuffled = (calls t).flatMap (Call.log m)) (object : Object) :
    acquired object (shuffled.map Prod.snd) = 0 := by
  apply List.count_eq_zero_of_not_mem
  intro hmem
  obtain ⟨⟨t, e⟩, he, hacquire⟩ := List.mem_map.mp hmem
  obtain rfl : e = .acquire object := hacquire
  have hown : Event.acquire object ∈ ofThread t shuffled :=
    List.mem_map.mpr ⟨(t, .acquire object), List.mem_filter.mpr ⟨he, decide_eq_true rfl⟩, rfl⟩
  rw [hthreads t] at hown
  obtain ⟨call, -, hcall⟩ := List.mem_flatMap.mp hown
  simp [Call.log] at hcall

/-- **The life of a facade.** Whichever devices it is built for, and whatever calls its
threads make in whatever order, each call meets its monitor alive, and alive the backends
that the pointers copied into this monitor point to; nothing is destroyed twice, and at the
end each object has been destroyed as often as it was built, which is once at most. While
the facade lives it owns, of each kind, the backend of the last turn that asked for it, and
no other; and the pointers of both monitors are to these. -/
theorem lifetimes_balanced {hw : Machinery} {devices : List DeviceType} {cfg : PowerMonitorConfig}
    {m : Members} (hbuilt : (constructMembers hw devices cfg).result = .ok m)
    (calls : θ → List Call) {shuffled : List (θ × Event Object)}
    (hthreads : ∀ t, ofThread t shuffled = (calls t).flatMap (Call.log m)) :
    run 0 0 (lifeLog hw devices cfg m shuffled) = some 0 ∧
      (∀ object, acquired object (lifeLog hw devices cfg m shuffled) =
          released object (lifeLog hw devices cfg m shuffled) ∧
        acquired object (lifeLog hw devices cfg m shuffled) ≤ 1) ∧
      run 0 0 (constructMembers hw devices cfg).log = some m.alive ∧
      (∀ kind, m.owners.get.ptr kind = lastTurn kind devices.zipIdx) ∧
      m.energyMonitor = some m.owners.get ∧ m.powerQuery = some m.owners.get := by
  have hconstruct : run 0 0 (constructMembers hw devices cfg).log = some m.alive := by
    have hleaves : Leaves 0 0 (constructMembers hw devices cfg) _ := constructMembers_leaves hw devices cfg
    obtain ⟨rest, hrun, hrest⟩ := hleaves
    rw [hbuilt] at hrest
    obtain rfl := hrest
    exact hrun
  obtain ⟨owners, hloop, -, hm⟩ := constructMembers_ok hbuilt
  have hwired : m.Wired := by
    subst hm
    exact ⟨rfl, rfl⟩
  have hcalls : run 0 m.alive (shuffled.map Prod.snd) = some m.alive := by
    have hown : run m.alive (∑ _ : θ, 0) (shuffled.map Prod.snd) = some (∑ _ : θ, 0) := by
      refine run_interleaved fun t => ?_
      rw [hthreads t]
      induction calls t with
      | nil => rfl
      | cons call rest ih =>
        rw [List.flatMap_cons]
        exact run_trans (call_leaves hwired call) ih
    rw [Finset.sum_const_zero, ← zero_add m.alive] at hown
    have hlent := run_lend hown
    rwa [zero_add] at hlent
  have hdestroy : run 0 m.alive (destroyMembers m).log = some 0 := by
    have hleaves : Leaves 0 m.alive (destroyMembers m) _ := destroyMembers_leaves m
    obtain ⟨rest, hrun, -, rfl⟩ := hleaves
    exact hrun
  have hlife : run 0 0 (lifeLog hw devices cfg m shuffled) = some 0 :=
    run_trans (run_trans hconstruct hcalls) hdestroy
  refine ⟨hlife, fun object => ⟨?balanced, ?once⟩, hconstruct, ?last, hwired.energyMonitor, hwired.powerQuery⟩
  case balanced =>
    have hcount := run_count hlife object
    rwa [Multiset.count_zero, zero_add, zero_add] at hcount
  case once =>
    rw [lifeLog, acquired_append, acquired_append, acquired_calls hthreads, acquired_destroyMembers]
    exact acquired_constructMembers object hbuilt
  case last =>
    intro kind
    subst hm
    rw [addOwners_ptr hloop kind]
    cases kind <;> exact Option.or_none

/-- The board with its sensors in place. -/
def steadyBoard : Machinery := { board with jetsonAvailable := fun _ => true }

/-- What the second turn of two leaves. -/
def steadyOwners : Owners where
  jetson := some (1, .ofRails (board.powerRails 1) 1)

def steadyMembers : Members := ⟨steadyOwners, some steadyOwners.get, some steadyOwners.get⟩

def steadyCalls (t : Bool) : List Call := if t then [.beginWindow, .endWindow] else [.getInstantSocPower]

def steadyShuffled : List (Bool × Event Object) :=
  [(true, .use .energyMonitor), (false, .use .powerQuery), (true, .use (.backend .jetsonSoC 1)),
   (true, .use .energyMonitor), (false, .use (.backend .jetsonSoC 1)), (true, .use (.backend .jetsonSoC 1))]

theorem lifetimes_balanced_sample :
    run 0 0 (lifeLog steadyBoard [.jetsonSoC, .jetsonSoC] {} steadyMembers steadyShuffled) = some 0 ∧
      acquired (.backend .jetsonSoC 0) (lifeLog steadyBoard [.jetsonSoC, .jetsonSoC] {} steadyMembers
        steadyShuffled) = 1 ∧
      released (.backend .jetsonSoC 0) (lifeLog steadyBoard [.jetsonSoC, .jetsonSoC] {} steadyMembers
        steadyShuffled) = 1 ∧
      lastTurn .jetsonSoC [DeviceType.jetsonSoC, .jetsonSoC].zipIdx = some 1 := by
  obtain ⟨hlife, hcount, -, hlast, -, -⟩ :=
    lifetimes_balanced
      (show (constructMembers steadyBoard [.jetsonSoC, .jetsonSoC] {}).result = .ok steadyMembers from rfl)
      steadyCalls
      (show ∀ t, ofThread t steadyShuffled = (steadyCalls t).flatMap (Call.log steadyMembers) by decide)
  have hbuilt : acquired (.backend .jetsonSoC 0) (lifeLog steadyBoard [.jetsonSoC, .jetsonSoC] {}
      steadyMembers steadyShuffled) = 1 := by decide
  exact ⟨hlife, hbuilt, (hcount _).1.symm.trans hbuilt, (hlast .jetsonSoC).symm⟩

end Life

end ZeusPower.PowerMonitor
