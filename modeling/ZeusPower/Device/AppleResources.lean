import ZeusPower.Device.Apple
import ZeusPower.Library.Ledger

/-! What the Apple backend holds (`open_ioreport_lib`, `load_functions`, the constructor,
`cleanup`, `snapshot_energy_j`).

The constructor loads a library, subscribes, and keeps a baseline sample; each snapshot
creates a sample and a delta. Here every function writes down, in the source's order,
what it takes, what it reads or calls, and what it gives back. A null answer of the
system takes nothing; where the code tests a pointer, so does the model.

`construct_result` and `queries_result` connect these functions with the ones that only
look at the values. `lifecycle_balanced`: from the constructor to the destructor, with
the calls of any threads in any order between them, nothing is used after it was given
back or given back twice, and all is given back but the subscription, which the source
leaves to the system on purpose. -/
namespace ZeusPower.Device.AppleSoCBackend
open Library Library.Ledger

/-! ### The system -/

/-- What a process takes and gives back. -/
inductive Handle where
  /-- A reference of `dlopen` to a loaded library. -/
  | library (lib : ℕ)
  /-- A reference to a CoreFoundation object. -/
  | object (ref : ℕ)
  | subscription (ref : ℕ)
  deriving DecidableEq, Repr

/-- The dynamic linker. A null pointer is `none`. -/
structure Loader where
  dlopen : String → Option ℕ
  dlsym : ℕ → String → Bool

/-- What IOReport answers to the constructor: the references, and the sample's value. -/
structure SetupCalls extends Loader where
  copyChannels : Option ℕ
  /-- The subscription, and what it has written to `subbed_channels_`. -/
  createSubscription : Option ℕ × Option ℕ
  createSamples : Option (ℕ × IOReportSample)

/-- What IOReport answers to one snapshot. -/
structure SnapshotCalls where
  createSamples : Option (ℕ × IOReportSample)
  createSamplesDelta : IOReportSample → IOReportSample → Option (ℕ × IOReportSample)

abbrev Program (α : Type) := Logged Error Handle α

def acquire (r : Handle) : Program PUnit := Logged.note (.acquire r)
def use (r : Handle) : Program PUnit := Logged.note (.use r)
def release (r : Handle) : Program PUnit := Logged.note (.release r)

/-! ### Loading -/

/-- One of the three tries of `open_ioreport_lib`. -/
def tryOpen (loader : Loader) (path : String) : Program (Option ℕ) :=
  match loader.dlopen path with
  | none => pure none
  | some lib => do
    acquire (.library lib)
    use (.library lib)
    if loader.dlsym lib "IOReportCopyChannelsInGroup" then
      pure (some lib)
    else
      release (.library lib)
      pure none

/-- The paths it tries, in order. -/
def ioreportPaths : List String :=
  ["/System/Library/Frameworks/IOKit.framework/IOKit",
   "/usr/lib/libIOReport.dylib",
   "/System/Library/PrivateFrameworks/IOReport.framework/IOReport"]

def openFirst (loader : Loader) : List String → Program (Option ℕ)
  | [] => pure none
  | path :: paths => do
    match ← tryOpen loader path with
    | some lib => pure (some lib)
    | none => openFirst loader paths

def openIoreportLib (loader : Loader) : Program (Option ℕ) := openFirst loader ioreportPaths

/-- The symbols `load_functions` resolves, in order, and which of them it asks for. -/
def ioreportFunctions : List (String × Bool) :=
  [("IOReportCopyChannelsInGroup", true),
   ("IOReportCreateSubscription", true),
   ("IOReportCreateSamples", true),
   ("IOReportCreateSamplesDelta", true),
   ("IOReportChannelGetChannelName", true),
   ("IOReportChannelGetGroup", false),
   ("IOReportChannelGetSubGroup", false),
   ("IOReportSimpleGetIntegerValue", true),
   ("IOReportChannelGetUnitLabel", false)]

/-- Every symbol is looked up; whether those that are needed were found. -/
def resolve (loader : Loader) (lib : ℕ) : List (String × Bool) → Program Bool
  | [] => pure true
  | (name, needed) :: names => do
    use (.library lib)
    let rest ← resolve loader lib names
    pure ((!needed || loader.dlsym lib name) && rest)

def loadFunctions (loader : Loader) (lib : ℕ) : Program Bool := resolve loader lib ioreportFunctions

/-- Runtime check: can IOReport be loaded? -/
def isAvailable (loader : Loader) : Program Bool := do
  match ← openIoreportLib loader with
  | none => pure false
  | some lib => do
    use (.library lib)
    let ok := loader.dlsym lib "IOReportCopyChannelsInGroup"
    release (.library lib)
    pure ok

/-! ### Construction and destruction -/

/-- The pointers of the object; null until they are set. -/
structure Members where
  lib : Option ℕ := none
  subscription : Option ℕ := none
  subbedChannels : Option ℕ := none
  baselineSample : Option ℕ := none

/-- A pointer that is released if it is not null. -/
def releaseIf (handle : ℕ → Handle) : Option ℕ → Program PUnit
  | none => pure ⟨⟩
  | some ref => release (handle ref)

/-- The subscription is forgotten, not released. -/
def cleanup (m : Members) : Program Members := do
  releaseIf .object m.baselineSample
  releaseIf .object m.subbedChannels
  releaseIf .library m.lib
  pure {}

/-- A pointer whose answer is taken over if it is not null. -/
def acquireIf (handle : ℕ → Handle) : Option ℕ → Program PUnit
  | none => pure ⟨⟩
  | some ref => acquire (handle ref)

/-- The pointers of a constructed object. -/
structure Resources where
  lib : ℕ
  subscription : ℕ
  subbedChannels : ℕ
  baselineSample : ℕ
  deriving DecidableEq, Repr

def Resources.members (r : Resources) : Members :=
  ⟨some r.lib, some r.subscription, some r.subbedChannels, some r.baselineSample⟩

/-- From the baseline sample on. -/
def discover (r : Resources) (hasUnitLabel : Bool) (baseline : IOReportSample) :
    Program (Resources × AppleSoCBackend) := do
  use (.object r.baselineSample)
  use (.library r.lib)
  if (discoverMetrics baseline).isEmpty then
    let _ ← cleanup r.members
    throw .appleNoMetrics
  else
    pure (r, ofBaseline hasUnitLabel baseline)

/-- From the subscription on. -/
def subscribe (calls : SetupCalls) (lib channels : ℕ) : Program (Resources × AppleSoCBackend) := do
  use (.library lib)
  use (.object channels)
  acquireIf .subscription calls.createSubscription.1
  acquireIf .object calls.createSubscription.2
  release (.object channels)
  match calls.createSubscription with
  | (some subscription, some subbed) => do
    use (.library lib)
    use (.subscription subscription)
    use (.object subbed)
    match calls.createSamples with
    | none => do
      let _ ← cleanup { lib := some lib, subscription := some subscription, subbedChannels := some subbed }
      throw .appleBaselineFailed
    | some (ref, baseline) => do
      acquire (.object ref)
      let r : Resources := ⟨lib, subscription, subbed, ref⟩
      discover r (calls.dlsym lib "IOReportChannelGetUnitLabel") baseline
  | (subscription, subbed) => do
    let _ ← cleanup { lib := some lib, subscription := subscription, subbedChannels := subbed }
    throw .appleSubscriptionFailed

/-- The constructor, on macOS on ARM64. -/
def constructHeld (calls : SetupCalls) : Program (Resources × AppleSoCBackend) := do
  match ← openIoreportLib calls.toLoader with
  | none => throw .appleCannotLoad
  | some lib => do
    if !(← loadFunctions calls.toLoader lib) then
      release (.library lib)
      throw .appleFunctionsMissing
    else
      use (.library lib)
      match calls.copyChannels with
      | none => do
        let _ ← cleanup { lib := some lib }
        throw .appleNoChannels
      | some channels => do
        acquire (.object channels)
        subscribe calls lib channels

/-- The destructor. -/
def destruct (r : Resources) : Program Members := cleanup r.members

/-! ### Queries -/

section Queries
variable (r : Resources) (b : AppleSoCBackend)

def snapshotHeld [Rounding] (calls : SnapshotCalls) : Program (Map String Double) := do
  use (.library r.lib)
  use (.subscription r.subscription)
  use (.object r.subbedChannels)
  match calls.createSamples with
  | none => throw .appleSamplesFailed
  | some (current, sample) => do
    acquire (.object current)
    use (.library r.lib)
    use (.object r.baselineSample)
    use (.object current)
    let delta := calls.createSamplesDelta b.baselineSample sample
    acquireIf .object (delta.map Prod.fst)
    -- released before the delta is tested
    release (.object current)
    match delta with
    | none => throw .appleSamplesDeltaFailed
    | some (ref, sample) => do
      use (.object ref)
      use (.library r.lib)
      let result := parseEnergySample b.hasUnitLabel sample
      release (.object ref)
      pure result

def computeEnergyDeltaHeld [Rounding] (calls : SnapshotCalls) (startSnap : Map String Double) :
    Program (Map String Double) := do
  let endSnap ← snapshotHeld r b calls
  pure (Library.Map.overwrite (fun key endE => fl (endE - startSnap[key]?.getD 0)) ∅ endSnap)

def instantPowerHeld [Rounding] (calls1 calls2 : SnapshotCalls) (t1 t2 : Double) (metric : String) :
    Program Double := do
  let snap1 ← snapshotHeld r b calls1
  let snap2 ← snapshotHeld r b calls2
  match snap1[metric]?, snap2[metric]? with
  | some e1, some e2 =>
    let dt := if fl (t2 - t1) ≤ 0 then fl (1 / 1000) else fl (t2 - t1)
    pure (fl (fl (e2 - e1) / dt))
  | _, _ => throw (.appleUnknownMetric metric)

end Queries

/-- A call that any thread may make while the object lives. -/
inductive Query where
  | snapshot (calls : SnapshotCalls)
  | energyDelta (calls : SnapshotCalls) (startSnap : Map String Double)
  | instantPower (calls1 calls2 : SnapshotCalls) (t1 t2 : Double) (metric : String)
  | available (loader : Loader)

def Query.log [Rounding] (r : Resources) (b : AppleSoCBackend) : Query → List (Event Handle)
  | snapshot calls => (snapshotHeld r b calls).log
  | energyDelta calls startSnap => (computeEnergyDeltaHeld r b calls startSnap).log
  | instantPower calls1 calls2 t1 t2 metric => (instantPowerHeld r b calls1 calls2 t1 t2 metric).log
  | available loader => (isAvailable loader).log

/-! ### The values

What the functions return is what the ones that look at the values alone return. -/

/-- The library that `open_ioreport_lib` finds. -/
def ioreportLib (loader : Loader) : Option ℕ :=
  ioreportPaths.findSome? fun path =>
    (loader.dlopen path).filter fun lib => loader.dlsym lib "IOReportCopyChannelsInGroup"

def SetupCalls.setup (calls : SetupCalls) : IOReportSetup where
  loads := (ioreportLib calls.toLoader).isSome
  functionsFound := (ioreportLib calls.toLoader).any fun lib =>
    ioreportFunctions.all fun f => !f.2 || calls.dlsym lib f.1
  copyChannels := calls.copyChannels.isSome
  createSubscription := calls.createSubscription.1.isSome && calls.createSubscription.2.isSome
  baseline := calls.createSamples.map Prod.snd
  hasUnitLabel := (ioreportLib calls.toLoader).any fun lib =>
    calls.dlsym lib "IOReportChannelGetUnitLabel"

def SnapshotCalls.ioreport (calls : SnapshotCalls) : IOReport where
  createSamples := calls.createSamples.map Prod.snd
  createSamplesDelta baseline current := (calls.createSamplesDelta baseline current).map Prod.snd

theorem tryOpen_result (loader : Loader) (path : String) :
    (tryOpen loader path).result =
      .ok ((loader.dlopen path).filter fun lib => loader.dlsym lib "IOReportCopyChannelsInGroup") := by
  unfold tryOpen
  cases loader.dlopen path with
  | none => rfl
  | some lib =>
    cases hsym : loader.dlsym lib "IOReportCopyChannelsInGroup" with
    | true => simp [acquire, use, Option.filter, hsym]
    | false => simp [acquire, use, release, Option.filter, hsym]

theorem openIoreportLib_result (loader : Loader) :
    (openIoreportLib loader).result = .ok (ioreportLib loader) := by
  unfold openIoreportLib ioreportLib
  induction ioreportPaths with
  | nil => rfl
  | cons path paths ih =>
    rw [openFirst, Logged.result_bind, tryOpen_result, List.findSome?_cons]
    cases (loader.dlopen path).filter fun lib => loader.dlsym lib "IOReportCopyChannelsInGroup" with
    | none => exact ih
    | some lib => rfl

theorem resolve_result (loader : Loader) (lib : ℕ) (names : List (String × Bool)) :
    (resolve loader lib names).result = .ok (names.all fun f => !f.2 || loader.dlsym lib f.1) := by
  induction names with
  | nil => rfl
  | cons f names ih =>
    obtain ⟨name, needed⟩ := f
    rw [resolve, use, Logged.result_note_bind, Logged.result_bind, ih]
    rfl

theorem releaseIf_result (handle : ℕ → Handle) (ref : Option ℕ) :
    (releaseIf handle ref).result = .ok ⟨⟩ := by
  cases ref <;> rfl

theorem acquireIf_result (handle : ℕ → Handle) (ref : Option ℕ) :
    (acquireIf handle ref).result = .ok ⟨⟩ := by
  cases ref <;> rfl

theorem cleanup_result (m : Members) : (cleanup m).result = .ok {} := by
  simp only [cleanup, Logged.result_bind, releaseIf_result]
  rfl

/-- `is_available` is whether the constructor can load the library. -/
theorem isAvailable_result (loader : Loader) :
    (isAvailable loader).result = .ok (ioreportLib loader).isSome := by
  rw [isAvailable, Logged.result_bind, openIoreportLib_result]
  cases hlib : ioreportLib loader with
  | none => rfl
  | some lib =>
    obtain ⟨path, -, hpath⟩ := List.exists_of_findSome?_eq_some hlib
    have hsym := (Option.filter_eq_some_iff.mp hpath).2
    show Except.ok (loader.dlsym lib "IOReportCopyChannelsInGroup") = _
    rw [hsym]
    rfl

theorem discover_result (r : Resources) (hasUnitLabel : Bool) (baseline : IOReportSample) :
    (discover r hasUnitLabel baseline).result =
      if (discoverMetrics baseline).isEmpty then .error .appleNoMetrics
      else .ok (r, ofBaseline hasUnitLabel baseline) := by
  unfold discover
  rw [use, use, Logged.result_note_bind, Logged.result_note_bind]
  by_cases hempty : (discoverMetrics baseline).isEmpty = true
  · rw [if_pos hempty, if_pos hempty, Logged.result_ok_bind (cleanup_result _)]
    rfl
  · rw [if_neg hempty, if_neg hempty]
    rfl

theorem subscribe_result (calls : SetupCalls) (lib channels : ℕ) :
    (subscribe calls lib channels).result.map Prod.snd =
      if !(calls.createSubscription.1.isSome && calls.createSubscription.2.isSome) then
        .error .appleSubscriptionFailed
      else
        match calls.createSamples.map Prod.snd with
        | none => .error .appleBaselineFailed
        | some baseline =>
          if (discoverMetrics baseline).isEmpty then .error .appleNoMetrics
          else .ok (ofBaseline (calls.dlsym lib "IOReportChannelGetUnitLabel") baseline) := by
  obtain ⟨loader, copyChannels, ⟨subscription, subbed⟩, createSamples⟩ := calls
  rw [subscribe, use, use, Logged.result_note_bind, Logged.result_note_bind,
    Logged.result_ok_bind (acquireIf_result _ _), Logged.result_ok_bind (acquireIf_result _ _), release,
    Logged.result_note_bind]
  cases subscription with
  | none =>
    rw [Logged.result_ok_bind (cleanup_result _)]
    rfl
  | some subscription =>
    cases subbed with
    | none =>
      rw [Logged.result_ok_bind (cleanup_result _)]
      rfl
    | some subbed =>
      cases createSamples with
      | none =>
        show ((cleanup _ >>= fun _ => throw Error.appleBaselineFailed :
          Program (Resources × AppleSoCBackend)).result).map _ = _
        rw [Logged.result_ok_bind (cleanup_result _)]
        rfl
      | some sample =>
        obtain ⟨ref, baseline⟩ := sample
        show (discover _ _ _).result.map _ = _
        rw [discover_result]
        by_cases hempty : (discoverMetrics baseline).isEmpty = true
        · simp [hempty, Except.map]
        · simp [hempty, Except.map]

/-- **The constructor returns the backend, or throws the error, that its answers alone decide.** -/
theorem construct_result (calls : SetupCalls) :
    (constructHeld calls).result.map Prod.snd = construct true calls.setup := by
  rw [constructHeld, Logged.result_ok_bind (openIoreportLib_result _)]
  cases hlib : ioreportLib calls.toLoader with
  | none =>
    simp [construct, SetupCalls.setup, hlib]
    rfl
  | some lib =>
    simp only []
    rw [loadFunctions, Logged.result_ok_bind (resolve_result _ _ _)]
    cases hfound : ioreportFunctions.all fun f => !f.2 || calls.dlsym lib f.1 with
    | false => simp [construct, SetupCalls.setup, hlib, hfound]; rfl
    | true =>
      cases hchannels : calls.copyChannels with
      | none =>
        simp only [Bool.not_true, Bool.false_eq_true, if_false, use, Logged.result_note_bind]
        rw [Logged.result_ok_bind (cleanup_result _)]
        simp [construct, SetupCalls.setup, hlib, hfound, hchannels]
        rfl
      | some channels =>
        show (subscribe calls lib channels).result.map _ = _
        rw [subscribe_result]
        simp only [construct, SetupCalls.setup, hlib, hfound, hchannels, Option.isSome_some, Option.any_some]
        cases calls.createSubscription.1.isSome && calls.createSubscription.2.isSome with
        | false => rfl
        | true =>
          cases calls.createSamples.map Prod.snd with
          | none => rfl
          | some baseline => cases hempty : (discoverMetrics baseline).isEmpty <;> simp [hempty] <;> rfl

theorem snapshot_result [Rounding] (r : Resources) (b : AppleSoCBackend) (calls : SnapshotCalls) :
    (snapshotHeld r b calls).result = b.snapshotEnergyJ calls.ioreport := by
  obtain ⟨createSamples, createSamplesDelta⟩ := calls
  cases createSamples with
  | none => rfl
  | some sample =>
    obtain ⟨current, sample⟩ := sample
    simp only [snapshotHeld, acquire, use, release, Logged.result_note_bind, snapshotEnergyJ,
      SnapshotCalls.ioreport, Option.map_some]
    rw [Logged.result_ok_bind (acquireIf_result _ _)]
    cases createSamplesDelta b.baselineSample sample <;> rfl

theorem energyDelta_result [Rounding] (r : Resources) (b : AppleSoCBackend) (calls : SnapshotCalls)
    (startSnap : Map String Double) :
    (computeEnergyDeltaHeld r b calls startSnap).result = b.computeEnergyDeltaJ calls.ioreport startSnap := by
  rw [computeEnergyDeltaHeld, Logged.result_bind, snapshot_result]
  rfl

theorem instantPower_result [Rounding] (r : Resources) (b : AppleSoCBackend) (calls1 calls2 : SnapshotCalls)
    (t1 t2 : Double) (metric : String) :
    (instantPowerHeld r b calls1 calls2 t1 t2 metric).result =
      b.getInstantPowerW calls1.ioreport calls2.ioreport t1 t2 metric := by
  rw [instantPowerHeld, Logged.result_bind, snapshot_result, getInstantPowerW]
  cases b.snapshotEnergyJ calls1.ioreport with
  | error e => rfl
  | ok snap1 =>
    show ((snapshotHeld r b calls2 >>= _ : Program _).result) = _
    rw [Logged.result_bind, snapshot_result]
    cases b.snapshotEnergyJ calls2.ioreport with
    | error e => rfl
    | ok snap2 =>
      simp only [bind, Except.bind]
      cases snap1[metric]? <;> cases snap2[metric]? <;> rfl

/-- The queries answer what the ones that look at the values alone answer. -/
theorem queries_result [Rounding] (r : Resources) (b : AppleSoCBackend) :
    (∀ calls, (snapshotHeld r b calls).result = b.snapshotEnergyJ calls.ioreport) ∧
    (∀ calls startSnap,
      (computeEnergyDeltaHeld r b calls startSnap).result = b.computeEnergyDeltaJ calls.ioreport startSnap) ∧
    (∀ calls1 calls2 t1 t2 metric, (instantPowerHeld r b calls1 calls2 t1 t2 metric).result =
      b.getInstantPowerW calls1.ioreport calls2.ioreport t1 t2 metric) ∧
    ∀ loader, (isAvailable loader).result = .ok (ioreportLib loader).isSome :=
  ⟨snapshot_result r b, energyDelta_result r b, instantPower_result r b, isAvailable_result⟩

/-! ### What each function leaves -/

/-- The reference behind a pointer, if it is not null. -/
def refs (handle : ℕ → Handle) (ref : Option ℕ) : Multiset Handle :=
  (ref.map fun ref => ({handle ref} : Multiset Handle)).getD 0

/-- What the object holds. -/
def Resources.held (r : Resources) : Multiset Handle :=
  {.object r.baselineSample, .object r.subbedChannels, .library r.lib, .subscription r.subscription}

theorem Resources.held_eq (r : Resources) :
    r.held = refs .object r.members.baselineSample + (refs .object r.members.subbedChannels +
      (refs .library r.members.lib + {.subscription r.subscription})) := rfl

section Leaves
variable {lent held : Multiset Handle}

theorem acquireIf_leaves {β : Type} {handle : ℕ → Handle} {ref : Option ℕ} {g : PUnit → Program β}
    {Q : Except Error β → Multiset Handle → Prop}
    (h : Leaves lent (refs handle ref + held) (g ⟨⟩) Q) :
    Leaves lent held (acquireIf handle ref >>= g) Q := by
  cases ref with
  | none =>
    rw [refs, Option.map_none, Option.getD_none, zero_add] at h
    exact leaves_bind (leaves_pure h)
  | some ref =>
    rw [refs, Option.map_some, Option.getD_some, Multiset.singleton_add] at h
    exact leaves_acquire h

theorem releaseIf_leaves {β : Type} {handle : ℕ → Handle} {ref : Option ℕ} {rest : Multiset Handle}
    {g : PUnit → Program β} {Q : Except Error β → Multiset Handle → Prop}
    (hheld : held = refs handle ref + rest) (h : Leaves lent rest (g ⟨⟩) Q) :
    Leaves lent held (releaseIf handle ref >>= g) Q := by
  cases ref with
  | none =>
    rw [refs, Option.map_none, Option.getD_none, zero_add] at hheld
    subst hheld
    exact leaves_bind (leaves_pure h)
  | some ref =>
    rw [refs, Option.map_some, Option.getD_some, Multiset.singleton_add] at hheld
    exact leaves_release hheld h

/-- `cleanup` gives back all its pointers hold, but for the subscription. -/
theorem cleanup_leaves {m : Members} {rest : Multiset Handle}
    {Q : Except Error Members → Multiset Handle → Prop}
    (hheld : held = refs .object m.baselineSample +
      (refs .object m.subbedChannels + (refs .library m.lib + rest)))
    (h : Q (.ok {}) rest) : Leaves lent held (cleanup m) Q :=
  releaseIf_leaves hheld (releaseIf_leaves rfl (releaseIf_leaves rfl (leaves_pure h)))

theorem tryOpen_leaves (loader : Loader) (path : String) :
    Leaves lent held (tryOpen loader path) fun r rest =>
      ∃ lib, r = .ok lib ∧ rest = refs .library lib + held := by
  unfold tryOpen
  cases loader.dlopen path with
  | none => exact leaves_pure ⟨none, rfl, (zero_add held).symm⟩
  | some lib =>
    refine leaves_acquire (leaves_use (by simp) ?_)
    cases loader.dlsym lib "IOReportCopyChannelsInGroup" with
    | true => exact leaves_pure ⟨some lib, rfl, (Multiset.singleton_add _ _).symm⟩
    | false => exact leaves_release rfl (leaves_pure ⟨none, rfl, (zero_add held).symm⟩)

/-- What opening leaves is the library it returns. -/
theorem openIoreportLib_leaves (loader : Loader) :
    Leaves lent held (openIoreportLib loader) fun r rest =>
      ∃ lib, r = .ok lib ∧ rest = refs .library lib + held := by
  unfold openIoreportLib
  induction ioreportPaths with
  | nil => exact leaves_pure ⟨none, rfl, (zero_add held).symm⟩
  | cons path paths ih =>
    refine leaves_bind ((tryOpen_leaves loader path).mono ?_)
    rintro _ _ ⟨lib, rfl, rfl⟩
    cases lib with
    | none =>
      rw [refs, Option.map_none, Option.getD_none, zero_add]
      exact ih
    | some lib => exact leaves_pure ⟨some lib, rfl, rfl⟩

/-- Looking symbols up leaves what was there. -/
theorem resolve_leaves {loader : Loader} {lib : ℕ} (hlib : .library lib ∈ lent + held)
    (names : List (String × Bool)) :
    Leaves lent held (resolve loader lib names) fun r rest => ∃ found, r = .ok found ∧ rest = held := by
  induction names with
  | nil => exact leaves_pure ⟨true, rfl, rfl⟩
  | cons f names ih =>
    refine leaves_use hlib (leaves_bind (ih.mono ?_))
    rintro _ _ ⟨found, rfl, rfl⟩
    exact leaves_pure ⟨_, rfl, rfl⟩

theorem isAvailable_leaves (loader : Loader) :
    Leaves lent held (isAvailable loader) fun _ rest => rest = held := by
  refine leaves_bind ((openIoreportLib_leaves loader).mono ?_)
  rintro _ _ ⟨lib, rfl, rfl⟩
  cases lib with
  | none => exact leaves_pure (zero_add held)
  | some lib => exact leaves_use (by simp [refs]) (leaves_release rfl (leaves_pure rfl))

/-- A snapshot uses what the object holds, and leaves nothing of its own. -/
theorem snapshot_leaves [Rounding] (r : Resources) (b : AppleSoCBackend) (calls : SnapshotCalls) :
    Leaves r.held 0 (snapshotHeld r b calls) fun _ rest => rest = 0 := by
  have hlib : ∀ own : Multiset Handle, .library r.lib ∈ r.held + own := by simp [Resources.held]
  have hbaseline : ∀ own : Multiset Handle, .object r.baselineSample ∈ r.held + own := by simp [Resources.held]
  have hsubbed : ∀ own : Multiset Handle, .object r.subbedChannels ∈ r.held + own := by simp [Resources.held]
  have hsubscription : ∀ own : Multiset Handle, .subscription r.subscription ∈ r.held + own := by
    simp [Resources.held]
  refine leaves_use (hlib 0) (leaves_use (hsubscription 0) (leaves_use (hsubbed 0) ?_))
  cases calls.createSamples with
  | none => exact leaves_throw rfl
  | some sample =>
    obtain ⟨current, sample⟩ := sample
    refine leaves_acquire (leaves_use (hlib _) (leaves_use (hbaseline _) (leaves_use (by simp) ?_)))
    cases calls.createSamplesDelta b.baselineSample sample with
    | none => exact acquireIf_leaves (leaves_release (zero_add _) (leaves_throw rfl))
    | some delta =>
      obtain ⟨ref, delta⟩ := delta
      refine acquireIf_leaves (leaves_release (Multiset.add_cons _ _ _) ?_)
      refine leaves_use (by simp [refs]) (leaves_use (hlib _) ?_)
      exact leaves_release (Multiset.singleton_add _ _) (leaves_pure rfl)

theorem query_leaves [Rounding] (r : Resources) (b : AppleSoCBackend) (query : Query) :
    run r.held 0 (query.log r b) = some 0 := by
  have hsnapshot : ∀ calls, run r.held 0 (snapshotHeld r b calls).log = some 0 := by
    intro calls
    obtain ⟨rest, hrun, rfl⟩ := snapshot_leaves r b calls
    exact hrun
  cases query with
  | snapshot calls => exact hsnapshot calls
  | energyDelta calls startSnap =>
    have hleaves : Leaves r.held 0 (computeEnergyDeltaHeld r b calls startSnap) fun _ rest => rest = 0 := by
      refine leaves_bind ((snapshot_leaves r b calls).mono ?_)
      rintro (e | endSnap) _ rfl
      · rfl
      · exact leaves_pure rfl
    obtain ⟨rest, hrun, rfl⟩ := hleaves
    exact hrun
  | instantPower calls1 calls2 t1 t2 metric =>
    have hleaves : Leaves r.held 0 (instantPowerHeld r b calls1 calls2 t1 t2 metric) fun _ rest => rest = 0 := by
      refine leaves_bind ((snapshot_leaves r b calls1).mono ?_)
      rintro (e | snap1) _ rfl
      · rfl
      refine leaves_bind ((snapshot_leaves r b calls2).mono ?_)
      rintro (e | snap2) _ rfl
      · rfl
      simp only
      cases snap1[metric]? <;> cases snap2[metric]? <;> exact ⟨0, rfl, rfl⟩
    obtain ⟨rest, hrun, rfl⟩ := hleaves
    exact hrun
  | available loader =>
    have hleaves : Leaves r.held 0 (isAvailable loader) fun _ rest => rest = 0 := isAvailable_leaves loader
    obtain ⟨rest, hrun, rfl⟩ := hleaves
    exact hrun

theorem queries_leave [Rounding] (r : Resources) (b : AppleSoCBackend) (queries : List Query) :
    run r.held 0 (queries.flatMap (Query.log r b)) = some 0 := by
  induction queries with
  | nil => rfl
  | cons query queries ih =>
    rw [List.flatMap_cons]
    exact run_trans (query_leaves r b query) ih

theorem destruct_leaves (r : Resources) :
    Leaves lent r.held (destruct r) fun _ rest => rest = {.subscription r.subscription} :=
  cleanup_leaves r.held_eq rfl

end Leaves

/-! ### The constructor -/

/-- What a constructor that throws leaves: a subscription it has made, if it came that far. -/
def leftOver (calls : SetupCalls) : Error → Multiset Handle
  | .appleSubscriptionFailed | .appleBaselineFailed | .appleNoMetrics =>
    refs .subscription calls.createSubscription.1
  | _ => 0

/-- The constructor leaves what the object holds, or what it left over. -/
def Constructed (calls : SetupCalls) : Except Error (Resources × AppleSoCBackend) → Multiset Handle → Prop
  | .ok built, rest => rest = built.1.held ∧ calls.createSubscription.1 = some built.1.subscription
  | .error e, rest => rest = leftOver calls e

theorem discover_leaves {calls : SetupCalls} {r : Resources} (hasUnitLabel : Bool) (baseline : IOReportSample)
    (hsubscription : calls.createSubscription.1 = some r.subscription) :
    Leaves 0 r.held (discover r hasUnitLabel baseline) (Constructed calls) := by
  refine leaves_use (by simp [Resources.held]) (leaves_use (by simp [Resources.held]) ?_)
  by_cases hempty : (discoverMetrics baseline).isEmpty = true
  · rw [if_pos hempty]
    refine leaves_bind (cleanup_leaves r.held_eq (leaves_throw ?_))
    rw [Constructed, leftOver, hsubscription]
    rfl
  · rw [if_neg hempty]
    exact leaves_pure ⟨rfl, hsubscription⟩

theorem subscribe_leaves (calls : SetupCalls) (lib channels : ℕ) :
    Leaves 0 {.object channels, .library lib} (subscribe calls lib channels) (Constructed calls) := by
  refine leaves_use (by simp) (leaves_use (by simp) (acquireIf_leaves (acquireIf_leaves ?_)))
  have hheld : refs .object calls.createSubscription.2 + (refs .subscription calls.createSubscription.1 +
      {.object channels, .library lib}) = .object channels ::ₘ (refs .object calls.createSubscription.2 +
        (refs .library (some lib) + refs .subscription calls.createSubscription.1)) := by
    show refs .object calls.createSubscription.2 + (refs .subscription calls.createSubscription.1 +
      (.object channels ::ₘ {.library lib})) = _
    rw [Multiset.add_cons, Multiset.add_cons, add_comm (refs Handle.subscription _)]
    rfl
  refine leaves_release hheld ?_
  have hfailed : ∀ subscription subbed, calls.createSubscription = (subscription, subbed) →
      Leaves 0 (refs .object calls.createSubscription.2 +
        (refs .library (some lib) + refs .subscription calls.createSubscription.1))
        (cleanup { lib := some lib, subscription := subscription, subbedChannels := subbed } >>= fun _ =>
          (throw .appleSubscriptionFailed : Program (Resources × AppleSoCBackend))) (Constructed calls) := by
    intro subscription subbed hcalls
    rw [hcalls]
    refine leaves_bind (cleanup_leaves (zero_add _).symm (leaves_throw ?_))
    rw [Constructed, leftOver, hcalls]
  match hcalls : calls.createSubscription with
  | (none, subbed) =>
    have h := hfailed none subbed hcalls
    rw [hcalls] at h
    exact h
  | (some subscription, none) =>
    have h := hfailed (some subscription) none hcalls
    rw [hcalls] at h
    exact h
  | (some subscription, some subbed) =>
    refine leaves_use (by simp [refs]) (leaves_use (by simp [refs]) (leaves_use (by simp [refs]) ?_))
    cases calls.createSamples with
    | none =>
      refine leaves_bind (cleanup_leaves (zero_add _).symm (leaves_throw ?_))
      rw [Constructed, leftOver, hcalls]
    | some sample =>
      obtain ⟨ref, baseline⟩ := sample
      exact leaves_acquire (discover_leaves (r := ⟨lib, subscription, subbed, ref⟩) _ baseline (by rw [hcalls]))

theorem constructHeld_leaves (calls : SetupCalls) : Leaves 0 0 (constructHeld calls) (Constructed calls) := by
  refine leaves_bind ((openIoreportLib_leaves calls.toLoader).mono ?_)
  rintro _ _ ⟨lib, rfl, rfl⟩
  cases lib with
  | none => exact leaves_throw rfl
  | some lib =>
    refine leaves_bind ((resolve_leaves (by simp [refs]) ioreportFunctions).mono ?_)
    rintro _ _ ⟨found, rfl, rfl⟩
    cases found with
    | false => exact leaves_release rfl (leaves_throw rfl)
    | true =>
      refine leaves_use (by simp [refs]) ?_
      cases calls.copyChannels with
      | none => exact leaves_bind (cleanup_leaves rfl (leaves_throw rfl))
      | some channels => exact leaves_acquire (subscribe_leaves calls lib channels)

/-- **A constructor that throws leaves nothing but a subscription.** Every library it has
opened is closed, every object released, once, and none was used after that; where it
throws before IOReport has made a subscription, nothing at all is left. -/
theorem construct_throws_clean {calls : SetupCalls} {e : Error} (h : (constructHeld calls).result = .error e) :
    run 0 0 (constructHeld calls).log = some (leftOver calls e) ∧ construct true calls.setup = .error e ∧
      ∀ handle, (∀ ref, handle ≠ .subscription ref) →
        acquired handle (constructHeld calls).log = released handle (constructHeld calls).log := by
  obtain ⟨rest, hrun, hleft⟩ := constructHeld_leaves calls
  rw [h] at hleft
  subst hleft
  refine ⟨hrun, ?_, fun handle hhandle => ?_⟩
  · rw [← construct_result, h]
    rfl
  · have hcount := run_count hrun handle
    have hleft : (leftOver calls e).count handle = 0 := by
      refine Multiset.count_eq_zero.mpr fun hmem => ?_
      have hrefs : handle ∉ refs .subscription calls.createSubscription.1 := by
        cases calls.createSubscription.1 with
        | none => exact Multiset.notMem_zero handle
        | some ref => exact fun hmem => hhandle ref (Multiset.mem_singleton.mp hmem)
      cases e <;> first | exact hrefs hmem | exact Multiset.notMem_zero handle hmem
    rw [hleft, Multiset.count_zero] at hcount
    omega

/-- A library that has the symbols, and a sample without a channel of a known name. -/
def sampleLoader : Loader where
  dlopen path := if path = "/usr/lib/libIOReport.dylib" then some 2 else none
  dlsym _ _ := true

def unknownCalls : SetupCalls :=
  { sampleLoader with
    copyChannels := some 7
    createSubscription := (some 8, some 9)
    createSamples := some (10, ⟨some [some ⟨"DISP", none, 0⟩]⟩) }

theorem construct_throws_clean_sample :
    run 0 0 (constructHeld unknownCalls).log = some (leftOver unknownCalls .appleNoMetrics) ∧
      construct true unknownCalls.setup = .error .appleNoMetrics ∧
      ∀ handle, (∀ ref, handle ≠ .subscription ref) →
        acquired handle (constructHeld unknownCalls).log = released handle (constructHeld unknownCalls).log :=
  construct_throws_clean rfl

/-! ### The life of an object -/

section Life
variable {θ : Type} [Fintype θ] [DecidableEq θ]

/-- All that a process does with the object: the constructor, the calls of its threads in
some order, the destructor. -/
def lifeLog (calls : SetupCalls) (r : Resources) (shuffled : List (θ × Event Handle)) :
    List (Event Handle) :=
  (constructHeld calls).log ++ shuffled.map Prod.snd ++ (destruct r).log

/-- **The life of an object.** From the constructor to the destructor, with the calls of any
threads in any order of their steps between them, nothing is used after it was given back,
nothing is given back twice, and at the end all is given back but the subscription. -/
theorem lifecycle_balanced [Rounding] {calls : SetupCalls} {r : Resources} {b : AppleSoCBackend}
    (hbuilt : (constructHeld calls).result = .ok (r, b)) (queries : θ → List Query)
    {shuffled : List (θ × Event Handle)}
    (hthreads : ∀ t, ofThread t shuffled = (queries t).flatMap (Query.log r b)) :
    run 0 0 (lifeLog calls r shuffled) = some {.subscription r.subscription} ∧
      ∀ handle, handle ≠ .subscription r.subscription →
        acquired handle (lifeLog calls r shuffled) = released handle (lifeLog calls r shuffled) := by
  obtain ⟨rest, hconstruct, hheld⟩ := constructHeld_leaves calls
  rw [hbuilt] at hheld
  obtain ⟨rfl, -⟩ := hheld
  have hqueries : run 0 r.held (shuffled.map Prod.snd) = some r.held := by
    have hown : run r.held (∑ _ : θ, 0) (shuffled.map Prod.snd) = some (∑ _ : θ, 0) := by
      refine run_interleaved fun t => ?_
      rw [hthreads t]
      exact queries_leave r b (queries t)
    rw [Finset.sum_const_zero, ← zero_add r.held] at hown
    have hlent := run_lend hown
    rwa [zero_add] at hlent
  have hdestruct : Leaves 0 r.held (destruct r) fun _ rest => rest = {.subscription r.subscription} :=
    destruct_leaves r
  obtain ⟨rest, hdestruct, rfl⟩ := hdestruct
  have hlife := run_trans (run_trans hconstruct hqueries) hdestruct
  refine ⟨hlife, fun handle hhandle => ?_⟩
  have hcount := run_count hlife handle
  rw [Multiset.count_zero, Multiset.count_singleton, if_neg hhandle] at hcount
  exact (zero_add _).symm.trans (hcount.trans (zero_add _))

def cpuSample (value : Int) : IOReportSample := ⟨some [some ⟨"CPU Energy", some "mJ", value⟩]⟩

def cpuCalls : SetupCalls :=
  { sampleLoader with
    copyChannels := some 7
    createSubscription := (some 8, some 9)
    createSamples := some (10, cpuSample 5) }

def cpuResources : Resources := ⟨2, 8, 9, 10⟩

def cpuBackend : AppleSoCBackend := ofBaseline true (cpuSample 5)

def cpuQuery : Query := .snapshot ⟨some (11, cpuSample 25), fun _ _ => some (12, cpuSample 20)⟩

/-- One thread takes a snapshot while another opens and closes the library. -/
def cpuShuffled : List (Bool × Event Handle) :=
  [(true, .use (.library 2)), (false, .acquire (.library 2)), (true, .use (.subscription 8)),
   (true, .use (.object 9)), (true, .acquire (.object 11)), (false, .use (.library 2)),
   (true, .use (.library 2)), (true, .use (.object 10)), (false, .use (.library 2)),
   (true, .use (.object 11)), (true, .acquire (.object 12)), (false, .release (.library 2)),
   (true, .release (.object 11)), (true, .use (.object 12)), (true, .use (.library 2)),
   (true, .release (.object 12))]

def cpuQueries (t : Bool) : List Query := if t then [cpuQuery] else [.available sampleLoader]

attribute [local instance] Library.Rounding.binary64 in
theorem lifecycle_balanced_sample :
    run 0 0 (lifeLog cpuCalls cpuResources cpuShuffled) = some {.subscription 8} ∧
      ∀ handle, handle ≠ .subscription 8 →
        acquired handle (lifeLog cpuCalls cpuResources cpuShuffled) =
          released handle (lifeLog cpuCalls cpuResources cpuShuffled) :=
  lifecycle_balanced (b := cpuBackend) rfl cpuQueries (by decide)

end Life

end ZeusPower.Device.AppleSoCBackend
