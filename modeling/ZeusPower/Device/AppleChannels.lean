import Mathlib.Algebra.BigOperators.Group.List.Lemmas
import Mathlib.Data.List.Forall2
import ZeusPower.Device.AppleMetrics

/-! Which channels count for a metric.

A walk over the channel array leaves in the two buckets the last summary of a metric
and the sum of its individual channels (`bucketsOf_fold`), so a parsed metric is a sum
over the channels that count for it: its last summary, or its individual channels where
it has none (`lookup_parseEnergySample`). Where no summary name occurs twice this sum
does not depend on the case of the names, nor on the order of the array but for rounding
(`aggregates_channels`). -/
namespace ZeusPower.Device
open Library Rounding

namespace AppleSoCBackend

/-! ### The metric of a name -/

/-- The metric of a channel name, if it has one. -/
def metricOf (name : String) : Option String :=
  let key := classifyChannel name
  if key.isEmpty then none else some key

theorem metricOf_eq_some {name key : String} :
    metricOf name = some key ↔ key ≠ "" ∧ classifyChannel name = key := by
  unfold metricOf
  by_cases hclass : classifyChannel name = ""
  · simp only [String.isEmpty_iff, hclass, if_true]
    constructor
    · intro h
      cases h
    · intro h
      exact absurd h.2.symm h.1
  · simp only [String.isEmpty_iff, hclass, if_false, Option.some.injEq]
    constructor
    · intro h
      exact ⟨h ▸ hclass, h⟩
    · intro h
      exact h.2

/-- Classification and summary detection see the lowered name alone. -/
theorem metricOf_congr {a b : String} (h : toLower a = toLower b) : metricOf a = metricOf b := by
  unfold metricOf classifyChannel
  simp only [h]

theorem isSummaryChannel_congr {a b : String} (h : toLower a = toLower b) :
    isSummaryChannel a = isSummaryChannel b := by
  unfold isSummaryChannel
  rw [h]

/-- A summary's metric says which of the two summary names it has. -/
theorem summary_name {name key : String} (hsummary : isSummaryChannel name = true)
    (hkey : metricOf name = some key) :
    (toLower name = "cpu energy".toList ∧ key = "apple_cpu_total") ∨
      (toLower name = "gpu energy".toList ∧ key = "apple_gpu") := by
  have hcpu : metricOf "cpu energy" = some "apple_cpu_total" := by decide +kernel
  have hgpu : metricOf "gpu energy" = some "apple_gpu" := by decide +kernel
  have hcpuLow : toLower "cpu energy" = "cpu energy".toList := by decide +kernel
  have hgpuLow : toLower "gpu energy" = "gpu energy".toList := by decide +kernel
  simp only [isSummaryChannel, Bool.or_eq_true, beq_iff_eq] at hsummary
  rcases hsummary with hname | hname
  · left
    rw [metricOf_congr (hname.trans hcpuLow.symm), hcpu] at hkey
    exact ⟨hname, (Option.some.inj hkey).symm⟩
  · right
    rw [metricOf_congr (hname.trans hgpuLow.symm), hgpu] at hkey
    exact ⟨hname, (Option.some.inj hkey).symm⟩

/-! ### The channels that count -/

section Rows
variable {ρ ρ' : Type} (name : ρ → String) (key : String)

/-- The summaries of a metric, in the order of the array. -/
def summaries (rows : List (Option ρ)) : List ρ :=
  (rows.filterMap id).filter fun r => decide (metricOf (name r) = some key) && isSummaryChannel (name r)

/-- Its other channels. -/
def individuals (rows : List (Option ρ)) : List ρ :=
  (rows.filterMap id).filter fun r => decide (metricOf (name r) = some key) && !isSummaryChannel (name r)

/-- The channels that count for a metric: the last summary, or the individual channels
where there is no summary. -/
def counted (rows : List (Option ρ)) : List ρ :=
  match (summaries name key rows).getLast? with
  | some r => [r]
  | none => individuals name key rows

theorem mem_summaries {rows : List (Option ρ)} {r : ρ} :
    r ∈ summaries name key rows ↔
      some r ∈ rows ∧ metricOf (name r) = some key ∧ isSummaryChannel (name r) = true := by
  simp [summaries]

theorem mem_individuals {rows : List (Option ρ)} {r : ρ} :
    r ∈ individuals name key rows ↔
      some r ∈ rows ∧ metricOf (name r) = some key ∧ isSummaryChannel (name r) = false := by
  simp [individuals]

theorem mem_counted {rows : List (Option ρ)} {r : ρ} (h : r ∈ counted name key rows) :
    some r ∈ rows ∧ metricOf (name r) = some key := by
  unfold counted at h
  split at h
  next last hlast =>
    obtain rfl := List.mem_singleton.mp h
    obtain ⟨hrow, hkey, -⟩ := (mem_summaries name key).mp (List.mem_of_getLast? hlast)
    exact ⟨hrow, hkey⟩
  next =>
    obtain ⟨hrow, hkey, -⟩ := (mem_individuals name key).mp h
    exact ⟨hrow, hkey⟩

/-- The channels that count are a matter of the names. -/
theorem counted_map (f : ρ → ρ') (name : ρ' → String) (rows : List (Option ρ)) :
    counted name key (rows.map (Option.map f)) = (counted (fun r => name (f r)) key rows).map f := by
  have hrows : (rows.map (Option.map f)).filterMap id = (rows.filterMap id).map f := by
    rw [List.filterMap_map, List.map_filterMap]
    rfl
  unfold counted summaries individuals
  rw [hrows, List.filter_map, List.filter_map, List.getLast?_map]
  simp only [Function.comp_def]
  cases ((rows.filterMap id).filter fun r => decide (metricOf (name (f r)) = some key) &&
    isSummaryChannel (name (f r))).getLast? <;> rfl

end Rows

/-! ### The walk over the array -/

/-- The Joules in one of a channel's own unit; without a label, that of nJ. -/
def ownFactor (hasUnitLabel : Bool) (ch : Channel) : Double :=
  (ch.unitLabel.bind fun label => if hasUnitLabel then unitFactors.lookup label else none).getD (1 / 10 ^ 9)

/-- The Joules of one channel: a negative reading counts as 0. -/
def joulesOf [Rounding] (hasUnitLabel : Bool) (ch : Channel) : Double :=
  fl (fl (max ch.value 0 : Int) * fl (ownFactor hasUnitLabel ch))

theorem factorOf_unitOf (hasUnitLabel : Bool) (ch : Channel) :
    factorOf (unitOf hasUnitLabel ch) = ownFactor hasUnitLabel ch := by
  have hnano : factorOf "nJ" = 1 / 10 ^ 9 := rfl
  have hempty : unitFactors.lookup "" = none := by decide
  unfold unitOf ownFactor
  cases ch.unitLabel with
  | none => exact hnano
  | some label =>
    cases hasUnitLabel with
    | false => exact hnano
    | true =>
      by_cases hlabel : label = ""
      · rw [hlabel]
        show factorOf "nJ" = (unitFactors.lookup "").getD (1 / 10 ^ 9)
        rw [hnano, hempty, Option.getD_none]
      · simp only [Bool.true_and, Bool.not_eq_true', String.isEmpty_eq_false_iff, if_true, Option.bind_some]
        rw [if_pos hlabel]
        rfl

/-- What one channel does to the buckets. -/
theorem parseChannel_eq [Rounding] (hasUnitLabel : Bool) (buckets : Buckets) (ch : Channel) :
    parseChannel hasUnitLabel buckets (some ch) =
      match metricOf ch.name with
      | none => buckets
      | some key =>
        if isSummaryChannel ch.name then
          { buckets with summaryValues := buckets.summaryValues.insert key (joulesOf hasUnitLabel ch) }
        else
          let individual := fl (buckets.individualValues[key]?.getD 0 + joulesOf hasUnitLabel ch)
          { buckets with individualValues := buckets.individualValues.insert key individual } := by
  have hjoules : convertToJoules (if ch.value < 0 then 0 else ch.value) (unitOf hasUnitLabel ch) =
      joulesOf hasUnitLabel ch := by
    have hraw : (if ch.value < 0 then 0 else ch.value) = max ch.value 0 := by
      split <;> omega
    rw [convertToJoules_eq, factorOf_unitOf, hraw, joulesOf]
  unfold parseChannel
  dsimp only
  rw [hjoules]
  by_cases hclass : classifyChannel ch.name = ""
  · have hnone : metricOf ch.name = none := by
      unfold metricOf
      simp only [String.isEmpty_iff, hclass, if_true]
    simp only [hnone, String.isEmpty_iff, hclass, if_true, ite_self]
  · have hsome : metricOf ch.name = some (classifyChannel ch.name) :=
      metricOf_eq_some.mpr ⟨hclass, rfl⟩
    have hname : ch.name ≠ "" := fun hempty => hclass (hempty ▸ classifyChannel_empty)
    simp only [hsome, String.isEmpty_iff, hclass, hname, if_false]

section Append
variable {ρ : Type} (name : ρ → String) (key : String)

theorem summaries_append (xs ys : List (Option ρ)) :
    summaries name key (xs ++ ys) = summaries name key xs ++ summaries name key ys := by
  simp [summaries]

theorem individuals_append (xs ys : List (Option ρ)) :
    individuals name key (xs ++ ys) = individuals name key xs ++ individuals name key ys := by
  simp [individuals]

theorem summaries_singleton (r : ρ) : summaries name key [some r] =
    if metricOf (name r) = some key ∧ isSummaryChannel (name r) = true then [r] else [] := by
  simp only [summaries, List.filterMap_cons, List.filterMap_nil, id_eq, List.filter_cons, List.filter_nil,
    Bool.and_eq_true, decide_eq_true_eq]

theorem individuals_singleton (r : ρ) : individuals name key [some r] =
    if metricOf (name r) = some key ∧ isSummaryChannel (name r) = false then [r] else [] := by
  simp only [individuals, List.filterMap_cons, List.filterMap_nil, id_eq, List.filter_cons,
    List.filter_nil, Bool.and_eq_true, decide_eq_true_eq, Bool.not_eq_true']

end Append

/-- What a bucket of sums holds after some channels of a metric. -/
def summed [Rounding] (hasUnitLabel : Bool) (channels : List Channel) : Option Double :=
  if channels = [] then none else some (Rounding.sum (channels.map (joulesOf hasUnitLabel)))

theorem summed_append [Rounding] (hasUnitLabel : Bool) (channels : List Channel) (ch : Channel) :
    summed hasUnitLabel (channels ++ [ch]) =
      some (fl ((summed hasUnitLabel channels).getD 0 + joulesOf hasUnitLabel ch)) := by
  unfold summed
  rw [if_neg (by simp), List.map_append, List.map_singleton, sum_append]
  by_cases hnil : channels = []
  · rw [if_pos hnil, hnil]
    rfl
  · rw [if_neg hnil, Option.getD_some]

theorem summed_singleton [Rounding] (hasUnitLabel : Bool) (ch : Channel) :
    summed hasUnitLabel [ch] = some (joulesOf hasUnitLabel ch) := by
  rw [summed, if_neg (List.cons_ne_nil ch []), List.map_singleton, sum_singleton, joulesOf, fl_fl]

/-- The buckets of an array hold, of each metric, its last summary and the sum of its
individual channels. -/
theorem bucketsOf_fold [Rounding] (hasUnitLabel : Bool) (channels : List (Option Channel)) (key : String) :
    (channels.foldl (parseChannel hasUnitLabel) ⟨∅, ∅⟩).summaryValues[key]? =
        (summaries Channel.name key channels).getLast?.map (joulesOf hasUnitLabel) ∧
      (channels.foldl (parseChannel hasUnitLabel) ⟨∅, ∅⟩).individualValues[key]? =
        summed hasUnitLabel (individuals Channel.name key channels) := by
  induction channels using List.reverseRecOn with
  | nil => exact ⟨Std.ExtTreeMap.getElem?_empty, Std.ExtTreeMap.getElem?_empty⟩
  | append_singleton done ch ih =>
    obtain ⟨hsummary, hindividual⟩ := ih
    rw [List.foldl_append, List.foldl_cons, List.foldl_nil, summaries_append, individuals_append]
    cases ch with
    | none =>
      have hsum : summaries Channel.name key [none] = [] := rfl
      have hind : individuals Channel.name key [none] = [] := rfl
      rw [hsum, hind, List.append_nil, List.append_nil]
      exact ⟨hsummary, hindividual⟩
    | some ch =>
      rw [parseChannel_eq, summaries_singleton, individuals_singleton]
      cases hmetric : metricOf ch.name with
      | none =>
        simp only [reduceCtorEq, false_and, if_false, List.append_nil]
        exact ⟨hsummary, hindividual⟩
      | some k =>
        cases hs : isSummaryChannel ch.name with
        | true =>
          simp only [if_true, and_true, Bool.true_eq_false, and_false, if_false, List.append_nil,
            Option.some.injEq, Map.lookup_insert]
          refine ⟨?_, hindividual⟩
          by_cases hk : k = key
          · rw [if_pos hk, if_pos hk, List.getLast?_append, List.getLast?_singleton, Option.some_or,
              Option.map_some]
          · rw [if_neg hk, if_neg hk, List.append_nil]
            exact hsummary
        | false =>
          simp only [Bool.false_eq_true, if_false, and_true, and_false, List.append_nil,
            Option.some.injEq, Map.lookup_insert]
          refine ⟨hsummary, ?_⟩
          by_cases hk : k = key
          · rw [if_pos hk, if_pos hk, summed_append, hk, hindividual]
          · rw [if_neg hk, if_neg hk, List.append_nil]
            exact hindividual

/-- **A metric is a sum over the channels that count for it.** -/
theorem lookup_parseEnergySample [Rounding] (hasUnitLabel : Bool) (channels : List (Option Channel))
    (key : String) :
    (parseEnergySample hasUnitLabel ⟨some channels⟩)[key]? =
      summed hasUnitLabel (counted Channel.name key channels) := by
  obtain ⟨hsummary, hindividual⟩ := bucketsOf_fold hasUnitLabel channels key
  show (mergeBuckets (channels.foldl (parseChannel hasUnitLabel) ⟨∅, ∅⟩))[key]? = _
  rw [lookup_mergeBuckets, hsummary, hindividual, counted]
  cases (summaries Channel.name key channels).getLast? with
  | some ch => exact (summed_singleton hasUnitLabel ch).symm
  | none => rfl

/-! ### Order, case and idle channels -/

/-- Each of the two summary names occurs at most once, up to letter case. -/
def SummariesOnce (channels : List (Option Channel)) : Prop :=
  ∀ low ∈ ["cpu energy".toList, "gpu energy".toList],
    ((channels.filterMap id).filter fun ch => decide (toLower ch.name = low)).length ≤ 1

instance (channels : List (Option Channel)) : Decidable (SummariesOnce channels) :=
  inferInstanceAs (Decidable (∀ low ∈ ["cpu energy".toList, "gpu energy".toList],
    ((channels.filterMap id).filter fun ch => decide (toLower ch.name = low)).length ≤ 1))

/-- An entry that counts for nothing: a null one, one of no metric, or an individual
channel of a metric that has a summary. -/
def Idle (channels : List (Option Channel)) (entry : Option Channel) : Prop :=
  ∀ ch key, entry = some ch → key ≠ "" → classifyChannel ch.name = key →
    isSummaryChannel ch.name = false ∧
      ∃ s, some s ∈ channels ∧ classifyChannel s.name = key ∧ isSummaryChannel s.name = true

/-- The same entry, up to the letter case of its name. -/
def Recased : Option Channel → Option Channel → Prop :=
  Option.Rel fun a b => toLower a.name = toLower b.name ∧ a.unitLabel = b.unitLabel ∧ a.value = b.value

theorem parseChannel_recased [Rounding] (hasUnitLabel : Bool) (buckets : Buckets) {a b : Option Channel}
    (h : Recased a b) : parseChannel hasUnitLabel buckets a = parseChannel hasUnitLabel buckets b := by
  cases h with
  | none => rfl
  | some h =>
    obtain ⟨hname, hunit, hvalue⟩ := h
    rw [parseChannel_eq, parseChannel_eq]
    simp only [metricOf_congr hname, isSummaryChannel_congr hname, joulesOf, ownFactor, hunit, hvalue]

theorem foldl_recased [Rounding] (hasUnitLabel : Bool) {xs ys : List (Option Channel)}
    (h : List.Forall₂ Recased xs ys) (buckets : Buckets) :
    xs.foldl (parseChannel hasUnitLabel) buckets = ys.foldl (parseChannel hasUnitLabel) buckets := by
  induction h generalizing buckets with
  | nil => rfl
  | cons hhead _ ih =>
    rw [List.foldl_cons, List.foldl_cons, parseChannel_recased hasUnitLabel buckets hhead]
    exact ih _

section Once
variable {channels : List (Option Channel)} {key : String}

/-- Where no summary name repeats, a metric has one summary at most. -/
theorem summaries_length (honce : SummariesOnce channels) :
    (summaries Channel.name key channels).length ≤ 1 := by
  cases hs : summaries Channel.name key channels with
  | nil => exact Nat.zero_le 1
  | cons ch rest =>
    have hch : ch ∈ summaries Channel.name key channels := hs ▸ List.mem_cons_self
    obtain ⟨-, hmetric, hsummary⟩ := (mem_summaries Channel.name key).mp hch
    -- The metric says which of the two names all its summaries have.
    obtain ⟨low, hlow, hnames⟩ : ∃ low ∈ ["cpu energy".toList, "gpu energy".toList],
        ∀ c ∈ summaries Channel.name key channels, toLower c.name = low := by
      have hcpugpu : "apple_cpu_total" ≠ "apple_gpu" := by decide
      rcases summary_name hsummary hmetric with ⟨-, hkey⟩ | ⟨-, hkey⟩
      · refine ⟨"cpu energy".toList, List.mem_cons_self, fun c hc => ?_⟩
        obtain ⟨-, hcmetric, hcsummary⟩ := (mem_summaries Channel.name key).mp hc
        rcases summary_name hcsummary hcmetric with ⟨hname, -⟩ | ⟨-, hother⟩
        · exact hname
        · exact absurd (hkey.symm.trans hother) hcpugpu
      · refine ⟨"gpu energy".toList, List.mem_cons_of_mem _ List.mem_cons_self, fun c hc => ?_⟩
        obtain ⟨-, hcmetric, hcsummary⟩ := (mem_summaries Channel.name key).mp hc
        rcases summary_name hcsummary hcmetric with ⟨-, hother⟩ | ⟨hname, -⟩
        · exact absurd (hother.symm.trans hkey) hcpugpu
        · exact hname
    have hsub : (summaries Channel.name key channels).Sublist
        ((channels.filterMap id).filter fun ch => decide (toLower ch.name = low)) := by
      have hall : (summaries Channel.name key channels).filter (fun ch => decide (toLower ch.name = low)) =
          summaries Channel.name key channels :=
        List.filter_eq_self.mpr fun c hc => decide_eq_true (hnames c hc)
      rw [← hall]
      exact List.filter_sublist.filter _
    rw [← hs]
    exact hsub.length_le.trans (honce low hlow)

theorem summaries_cases (honce : SummariesOnce channels) :
    summaries Channel.name key channels = [] ∨ ∃ ch, summaries Channel.name key channels = [ch] :=
  (Nat.le_one_iff_eq_zero_or_eq_one.mp (summaries_length honce)).imp List.length_eq_zero_iff.mp
    List.length_eq_one_iff.mp

theorem counted_of_summary (honce : SummariesOnce channels) {ch : Channel}
    (hch : ch ∈ summaries Channel.name key channels) : counted Channel.name key channels = [ch] := by
  rcases summaries_cases honce with hs | ⟨c, hs⟩
  · rw [hs] at hch
    cases hch
  · rw [hs] at hch
    obtain rfl := List.mem_singleton.mp hch
    unfold counted
    rw [hs]
    rfl

/-- The channels of a metric, in the order of the array. -/
def ofMetric (key : String) (channels : List (Option Channel)) : List Channel :=
  (channels.filterMap id).filter fun ch => decide (classifyChannel ch.name = key)

theorem counted_of_no_summary (hkey : key ≠ "") (hnone : summaries Channel.name key channels = []) :
    counted Channel.name key channels = ofMetric key channels := by
  unfold counted
  rw [hnone]
  apply List.filter_congr
  intro ch hch
  have hmetric : metricOf ch.name = some key ↔ classifyChannel ch.name = key :=
    metricOf_eq_some.trans (and_iff_right hkey)
  simp only [hmetric]
  cases hs : isSummaryChannel ch.name with
  | false => simp
  | true =>
    have hnot : classifyChannel ch.name ≠ key := by
      intro hclass
      have hmem := (mem_summaries Channel.name key).mpr ⟨by simpa using hch, hmetric.mpr hclass, hs⟩
      rw [hnone] at hmem
      cases hmem
    simp [hnot]

theorem summed_perm [Rounding] [Exact] (hasUnitLabel : Bool) {xs ys : List Channel} (h : xs.Perm ys) :
    summed hasUnitLabel xs = summed hasUnitLabel ys := by
  unfold summed
  rw [sum_eq, sum_eq, (h.map _).sum_eq]
  simp only [← List.length_eq_zero_iff, h.length_eq]

theorem counted_perm (honce : SummariesOnce channels) {channels' : List (Option Channel)}
    (h : channels'.Perm channels) :
    (counted Channel.name key channels').Perm (counted Channel.name key channels) := by
  have hrows := h.filterMap id
  have hsummaries : (summaries Channel.name key channels').Perm (summaries Channel.name key channels) :=
    hrows.filter _
  unfold counted
  rcases summaries_cases honce with hs | ⟨c, hs⟩
  · rw [hs] at hsummaries
    rw [hs, hsummaries.eq_nil]
    exact hrows.filter _
  · rw [hs] at hsummaries
    rw [hs, hsummaries.eq_singleton]
    exact List.Perm.refl _

/-- Entries dropped that fail the test anyway. -/
theorem filter_rows_keep {ρ : Type} {keep : Option ρ → Bool} {p : ρ → Bool} {rows : List (Option ρ)}
    (h : ∀ r, some r ∈ rows → keep (some r) = false → p r = false) :
    ((rows.filter keep).filterMap id).filter p = (rows.filterMap id).filter p := by
  induction rows with
  | nil => rfl
  | cons row rest ih =>
    have hrest := ih fun r hr => h r (List.mem_cons_of_mem row hr)
    cases row with
    | none =>
      by_cases hkeep : keep none = true
      · rw [List.filter_cons_of_pos hkeep]
        exact hrest
      · rw [List.filter_cons_of_neg hkeep]
        exact hrest
    | some r =>
      by_cases hkeep : keep (some r) = true
      · rw [List.filter_cons_of_pos hkeep, List.filterMap_cons_some (show id (some r) = some r from rfl),
          List.filterMap_cons_some (show id (some r) = some r from rfl), List.filter_cons, List.filter_cons,
          hrest]
      · have hfails := h r List.mem_cons_self (Bool.eq_false_iff.mpr hkeep)
        rw [List.filter_cons_of_neg hkeep, List.filterMap_cons_some (show id (some r) = some r from rfl),
          List.filter_cons_of_neg (by rw [hfails]; exact Bool.false_ne_true), hrest]

theorem counted_keep {keep : Option Channel → Bool}
    (hidle : ∀ entry ∈ channels, keep entry = false → Idle channels entry) :
    counted Channel.name key (channels.filter keep) = counted Channel.name key channels := by
  have hsummaries : summaries Channel.name key (channels.filter keep) =
      summaries Channel.name key channels := by
    apply filter_rows_keep
    intro ch hch hdropped
    by_contra hp
    simp only [Bool.not_eq_false, Bool.and_eq_true, decide_eq_true_eq, metricOf_eq_some] at hp
    have hindividual := (hidle _ hch hdropped ch key rfl hp.1.1 hp.1.2).1
    rw [hp.2] at hindividual
    cases hindividual
  unfold counted
  rw [hsummaries]
  cases hlast : (summaries Channel.name key channels).getLast? with
  | some ch => rfl
  | none =>
    apply filter_rows_keep
    intro ch hch hdropped
    by_contra hp
    simp only [Bool.not_eq_false, Bool.and_eq_true, decide_eq_true_eq, metricOf_eq_some] at hp
    obtain ⟨s, hs, hskey, hssummary⟩ := (hidle _ hch hdropped ch key rfl hp.1.1 hp.1.2).2
    have hmem := (mem_summaries Channel.name key).mpr
      ⟨hs, metricOf_eq_some.mpr ⟨hp.1.1, hskey⟩, hssummary⟩
    rw [List.getLast?_eq_none_iff.mp hlast] at hmem
    cases hmem

end Once

/-- In an array rearranged, a metric can change only where three of its channels or more
are added up in another order. -/
theorem lookup_perm [Rounding] (hasUnitLabel : Bool) (honce : SummariesOnce channels)
    {channels' : List (Option Channel)} (hperm : channels'.Perm channels)
    (hkey : (∃ ch, some ch ∈ channels ∧ classifyChannel ch.name = key ∧ isSummaryChannel ch.name = true) ∨
      ofMetric key channels' = ofMetric key channels ∨ (ofMetric key channels).length ≤ 2) :
    (parseEnergySample hasUnitLabel ⟨some channels'⟩)[key]? =
      (parseEnergySample hasUnitLabel ⟨some channels⟩)[key]? := by
  have hcounted : (counted Channel.name key channels').Perm (counted Channel.name key channels) :=
    counted_perm honce hperm
  have hrows : (summaries Channel.name key channels').Perm (summaries Channel.name key channels) :=
    (hperm.filterMap id).filter _
  rw [lookup_parseEnergySample, lookup_parseEnergySample]
  by_cases hempty : key = ""
  · have hnone : counted Channel.name key channels = [] := by
      apply List.eq_nil_iff_forall_not_mem.mpr
      intro ch hch
      exact (metricOf_eq_some.mp (mem_counted _ _ hch).2).1 hempty
    rw [hnone] at hcounted
    rw [hnone, hcounted.eq_nil]
  have hsummaries : summaries Channel.name key channels = [] ∨
      ∃ ch, summaries Channel.name key channels = [ch] := summaries_cases honce
  rcases hsummaries with hs | ⟨ch, hs⟩
  · rw [hs] at hrows
    rw [counted_of_no_summary hempty hs, counted_of_no_summary hempty hrows.eq_nil] at hcounted ⊢
    rcases hkey with ⟨ch, hch, hclass, hsummary⟩ | hsame | hlength
    · have hmem := (mem_summaries Channel.name key).mpr
        ⟨hch, metricOf_eq_some.mpr ⟨hempty, hclass⟩, hsummary⟩
      rw [hs] at hmem
      cases hmem
    · rw [hsame]
    · have hnumbers : ∀ x ∈ (ofMetric key channels).map (joulesOf hasUnitLabel), fl x = x := by
        intro x hx
        obtain ⟨ch, -, rfl⟩ := List.mem_map.mp hx
        exact fl_fl _
      unfold summed
      rw [sum_perm_of_length_le hnumbers (hcounted.map _) (by rwa [List.length_map])]
      simp only [← List.length_eq_zero_iff, hcounted.length_eq]
  · have hch : ch ∈ summaries Channel.name key channels := hs ▸ List.mem_cons_self
    rw [counted_of_summary honce hch] at hcounted ⊢
    rw [hcounted.eq_singleton]

/-- **Every channel is counted once at most.** Where no summary name repeats, a metric is
there exactly when a channel is classified to it; its value is its summary's, or else the
sum over its channels, each in its own unit; and the idle entries and the case of the
names are of no account. Nor is the order of the array, but that a sum of three channels or
more is rounded in the order they come in. -/
theorem aggregates_channels [Rounding] (hasUnitLabel : Bool) {channels : List (Option Channel)}
    (honce : SummariesOnce channels) :
    (∀ key, key ∈ parseEnergySample hasUnitLabel ⟨some channels⟩ ↔
      key ≠ "" ∧ ∃ ch, some ch ∈ channels ∧ classifyChannel ch.name = key) ∧
    (∀ key ch, key ≠ "" → some ch ∈ channels → classifyChannel ch.name = key →
      isSummaryChannel ch.name = true →
      (parseEnergySample hasUnitLabel ⟨some channels⟩)[key]? =
        some (fl (fl (max ch.value 0 : Int) * fl (ownFactor hasUnitLabel ch)))) ∧
    (∀ key, key ≠ "" → (∃ ch, some ch ∈ channels ∧ classifyChannel ch.name = key) →
      (∀ ch, some ch ∈ channels → classifyChannel ch.name = key → isSummaryChannel ch.name = false) →
      (parseEnergySample hasUnitLabel ⟨some channels⟩)[key]? =
        some (Rounding.sum ((ofMetric key channels).map
          fun ch => fl (fl (max ch.value 0 : Int) * fl (ownFactor hasUnitLabel ch))))) ∧
    (∀ keep : Option Channel → Bool, (∀ entry ∈ channels, keep entry = false → Idle channels entry) →
      parseEnergySample hasUnitLabel ⟨some (channels.filter keep)⟩ =
        parseEnergySample hasUnitLabel ⟨some channels⟩) ∧
    (∀ channels' : List (Option Channel), channels'.Perm channels →
      (∀ key, key ∈ parseEnergySample hasUnitLabel ⟨some channels'⟩ ↔
        key ∈ parseEnergySample hasUnitLabel ⟨some channels⟩) ∧
      (∀ key, (∃ ch, some ch ∈ channels ∧ classifyChannel ch.name = key ∧ isSummaryChannel ch.name = true) ∨
          ofMetric key channels' = ofMetric key channels ∨ (ofMetric key channels).length ≤ 2 →
        (parseEnergySample hasUnitLabel ⟨some channels'⟩)[key]? =
          (parseEnergySample hasUnitLabel ⟨some channels⟩)[key]?) ∧
      (Exact → parseEnergySample hasUnitLabel ⟨some channels'⟩ =
        parseEnergySample hasUnitLabel ⟨some channels⟩)) ∧
    ∀ channels' : List (Option Channel), List.Forall₂ Recased channels' channels →
      parseEnergySample hasUnitLabel ⟨some channels'⟩ = parseEnergySample hasUnitLabel ⟨some channels⟩ := by
  refine ⟨?keys, ?summary, ?individuals, ?idle, ?order, ?letters⟩
  case keys =>
    intro key
    rw [mem_parseEnergySample, hasMetric_iff (show (⟨some channels⟩ : IOReportSample).channels = some channels from rfl)]
    constructor
    · intro ⟨entry, hentry, ch, hch, hname, hne, hclass⟩
      exact ⟨hclass ▸ hne, ch, hch ▸ hentry, hclass⟩
    · intro ⟨hkey, ch, hch, hclass⟩
      refine ⟨some ch, hch, ch, rfl, ?_, hclass ▸ hkey, hclass⟩
      intro hempty
      rw [hempty, classifyChannel_empty] at hclass
      exact hkey hclass.symm
  case summary =>
    intro key ch hkey hch hclass hsummary
    have hmem := (mem_summaries Channel.name key).mpr
      ⟨hch, metricOf_eq_some.mpr ⟨hkey, hclass⟩, hsummary⟩
    rw [lookup_parseEnergySample, counted_of_summary honce hmem, summed_singleton, joulesOf]
  case individuals =>
    intro key hkey hsome hall
    have hnone : summaries Channel.name key channels = [] := by
      apply List.eq_nil_iff_forall_not_mem.mpr
      intro ch hch
      obtain ⟨hrow, hmetric, hsummary⟩ := (mem_summaries Channel.name key).mp hch
      rw [hall ch hrow (metricOf_eq_some.mp hmetric).2] at hsummary
      cases hsummary
    obtain ⟨ch, hch, hclass⟩ := hsome
    have hne : ofMetric key channels ≠ [] := by
      apply List.ne_nil_of_mem (a := ch)
      exact List.mem_filter.mpr ⟨by simpa using hch, decide_eq_true hclass⟩
    rw [lookup_parseEnergySample, counted_of_no_summary hkey hnone, summed, if_neg hne]
    rfl
  case idle =>
    intro keep hidle
    apply Std.ExtTreeMap.ext_getElem?
    intro key
    rw [lookup_parseEnergySample, lookup_parseEnergySample, counted_keep hidle]
  case order =>
    intro channels' hperm
    refine ⟨?_, fun key => lookup_perm hasUnitLabel honce hperm, ?_⟩
    · intro key
      rw [mem_parseEnergySample, mem_parseEnergySample, hasMetric_iff rfl, hasMetric_iff rfl]
      simp only [hperm.mem_iff]
    · intro _
      apply Std.ExtTreeMap.ext_getElem?
      intro key
      rw [lookup_parseEnergySample, lookup_parseEnergySample]
      exact summed_perm hasUnitLabel (counted_perm honce hperm)
  case letters =>
    intro channels' hcase
    exact congrArg mergeBuckets (foldl_recased hasUnitLabel hcase ⟨∅, ∅⟩)

/-- A summary between the channels it replaces, and a channel of no metric. -/
def sampleChannels : List (Option Channel) :=
  [some ⟨"PCPU0", some "mJ", 40⟩, some ⟨"CPU Energy", some "mJ", 90⟩, none, some ⟨"ECPU0", none, 7⟩,
    some ⟨"DRAM", some "uJ", 12⟩, some ⟨"ISP", some "mJ", 3⟩]

attribute [local instance] Rounding.binary64 in
theorem aggregates_channels_sample :
    (parseEnergySample true ⟨some sampleChannels⟩)["apple_cpu_total"]? = some (fl (90 / 1000)) ∧
    (parseEnergySample true ⟨some sampleChannels⟩)["apple_dram"]? = some (fl (12 / 1000000)) := by
  have hcounts := aggregates_channels true (show SummariesOnce sampleChannels by decide +kernel)
  have hnone : ∀ ch, some ch ∈ sampleChannels → classifyChannel ch.name = "apple_dram" →
      isSummaryChannel ch.name = false := by
    have hall : ∀ entry ∈ sampleChannels, ∀ ch ∈ entry, classifyChannel ch.name = "apple_dram" →
        isSummaryChannel ch.name = false := by decide +kernel
    exact fun ch hch => hall (some ch) hch ch rfl
  constructor
  · exact (hcounts.2.1 "apple_cpu_total" ⟨"CPU Energy", some "mJ", 90⟩ (by decide) (by decide)
      (by decide +kernel) (by decide +kernel)).trans (by decide +kernel)
  · exact (hcounts.2.2.1 "apple_dram" (by decide) ⟨⟨"DRAM", some "uJ", 12⟩, by decide, by decide +kernel⟩
      hnone).trans (by decide +kernel)

def threeCores : List (Option Channel) :=
  [some ⟨"ECPU0", some "mJ", 100⟩, some ⟨"ECPU1", some "mJ", 200⟩, some ⟨"ECPU2", some "mJ", 300⟩]

def threeCoresBack : List (Option Channel) := threeCores.reverse

attribute [local instance] Rounding.binary64 in
/-- **The order of the cores is in the last digit.** Three cores of 100, 200 and 300 mJ come
to 0.6000000000000001 J in this order, and to 0.6 J in the other. -/
theorem order_of_cores :
    SummariesOnce threeCores ∧ threeCoresBack.Perm threeCores ∧
    (parseEnergySample true ⟨some threeCores⟩)["apple_cpu_total"]? = some (5404319552844596 / 2 ^ 53) ∧
    (parseEnergySample true ⟨some threeCoresBack⟩)["apple_cpu_total"]? = some (5404319552844595 / 2 ^ 53) ∧
    ¬ ∀ channels channels' : List (Option Channel), SummariesOnce channels → channels'.Perm channels →
      parseEnergySample true ⟨some channels'⟩ = parseEnergySample true ⟨some channels⟩ := by
  have hforth : (parseEnergySample true ⟨some threeCores⟩)["apple_cpu_total"]? =
      some (5404319552844596 / 2 ^ 53) := by decide +kernel
  have hback : (parseEnergySample true ⟨some threeCoresBack⟩)["apple_cpu_total"]? =
      some (5404319552844595 / 2 ^ 53) := by decide +kernel
  have honce : SummariesOnce threeCores := by decide +kernel
  refine ⟨honce, List.reverse_perm _, hforth, hback, ?_⟩
  intro hall
  have hsame := hall threeCores threeCoresBack honce (List.reverse_perm _)
  rw [hsame, hforth] at hback
  exact absurd (Option.some.inj hback) (by norm_num)

end AppleSoCBackend

end ZeusPower.Device
