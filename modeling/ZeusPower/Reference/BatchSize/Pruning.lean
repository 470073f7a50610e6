import Mathlib.Data.List.Sort
import ZeusPower.Library.Dialogue
import ZeusPower.Reference.BatchSize.Server

/-! Pruning as one loop.

The pruning stage is a loop that trains: `pruning` writes it as one, with a training as a
question whose answer is the cost, or that it did not converge. The explorer has no such
loop. It is asked from outside, by clients whose trainings overlap, fail or never come
back, and each time it starts over from the table of trials.

`Follows.next` says that this is the same: as long as the explorations in the table are the
questions of the loop so far, in the loop's order, with at most the last one unanswered, the
explorer answers the loop's next question. -/
namespace ZeusPower.Reference.BatchSize
open Library

/-! ### The loop -/

/-- The batch sizes that converged in a round, with their costs. -/
abbrev Found := List (Int × Double)

/-- The first of the cheapest. -/
def cheapest (found : Found) : Int := ((found.argmin Prod.snd).map Prod.fst).getD 0

def downFrom (default : Int) (batchSizes : List Int) : List Int :=
  (batchSizes.filter (· ≤ default)).insertionSort (· ≥ ·)

def upFrom (default : Int) (batchSizes : List Int) : List Int :=
  (batchSizes.filter (default < ·)).insertionSort (· ≤ ·)

/-- One batch size after the other, until one does not converge. -/
def pruneList (found : Found) : List Int → Dialogue Int (Option Double) Found
  | [] => pure found
  | bs :: rest => do
    match ← Dialogue.answerTo bs with
    | some cost => pruneList (found ++ [(bs, cost)]) rest
    | none => pure found

def pruneRound (default : Int) (batchSizes : List Int) : Dialogue Int (Option Double) Found := do
  let found ← pruneList [] (downFrom default batchSizes)
  pruneList found (upFrom default batchSizes)

/-- Some rounds; nothing is left if a round finds nothing. -/
def pruneRounds : ℕ → Int → List Int → Dialogue Int (Option Double) (Option (List Int))
  | 0, _, batchSizes => pure (some (batchSizes.insertionSort (· ≤ ·)))
  | n + 1, default, batchSizes => do
    let found ← pruneRound default batchSizes
    if found.isEmpty then pure none else pruneRounds n (cheapest found) (found.map Prod.fst)

def pruning (spec : JobSpec) : Dialogue Int (Option Double) (Option (List Int)) :=
  pruneRounds spec.numPruningRounds spec.defaultBatchSize spec.batchSizes

/-! ### The order of a round -/

section Order
variable {default : Int} {batchSizes : List Int}

theorem sorted_split {l : List Int} (hsorted : l.Pairwise (· < ·)) {idx : ℕ}
    (hidx : l.idxOf? default = some idx) :
    l.take (idx + 1) = l.filter (· ≤ default) ∧ l.drop (idx + 1) = l.filter (default < ·) := by
  obtain ⟨hlt, hget, -⟩ := List.idxOf?_eq_some_iff.mp hidx
  have hle : ∀ a ∈ l.take (idx + 1), a ≤ default := by
    intro a ha
    obtain ⟨i, hi, rfl⟩ := List.mem_take_iff_getElem.mp ha
    rw [← hget]
    rcases Nat.lt_or_ge i idx with hless | hge
    · exact (List.pairwise_iff_getElem.mp hsorted i idx _ hlt hless).le
    · have heq : i = idx := by omega
      subst heq
      exact Int.le_refl _
  have hgt : ∀ a ∈ l.drop (idx + 1), default < a := by
    intro a ha
    obtain ⟨i, hi, rfl⟩ := List.mem_drop_iff_getElem.mp ha
    rw [← hget]
    exact List.pairwise_iff_getElem.mp hsorted idx (idx + 1 + i) hlt (by omega) (by omega)
  have hparts : l = l.take (idx + 1) ++ l.drop (idx + 1) := (List.take_append_drop _ _).symm
  constructor
  · conv_rhs => rw [hparts]
    rw [List.filter_append, List.filter_eq_self.mpr fun a ha => decide_eq_true (hle a ha),
      List.filter_eq_nil_iff.mpr fun a ha => ?_, List.append_nil]
    rw [decide_eq_true_iff, not_le]
    exact hgt a ha
  · conv_rhs => rw [hparts]
    rw [List.filter_append, List.filter_eq_nil_iff.mpr fun a ha => ?_,
      List.filter_eq_self.mpr fun a ha => decide_eq_true (hgt a ha), List.nil_append]
    rw [decide_eq_true_iff, not_lt]
    exact hle a ha

theorem insertionSort_perm_eq (r : Int → Int → Prop) [DecidableRel r] [Std.Total r] [IsTrans Int r]
    [Std.Antisymm r]
    {l l' : List Int} (h : l.Perm l') : l.insertionSort r = l'.insertionSort r :=
  ((List.perm_insertionSort r l).trans (h.trans (List.perm_insertionSort r l').symm)).eq_of_pairwise'
    (List.pairwise_insertionSort r l) (List.pairwise_insertionSort r l')

/-- The two lists of a round, as the explorer cuts them out. -/
theorem lists_eq (hnodup : batchSizes.Nodup) {idx : ℕ}
    (hidx : (batchSizes.insertionSort (· ≤ ·)).idxOf? default = some idx) :
    PruningExploreManager.down (batchSizes.insertionSort (· ≤ ·)) idx = downFrom default batchSizes ∧
      PruningExploreManager.up (batchSizes.insertionSort (· ≤ ·)) idx = upFrom default batchSizes := by
  have hperm := List.perm_insertionSort (· ≤ ·) batchSizes
  have hsorted : (batchSizes.insertionSort (· ≤ ·)).Pairwise (· < ·) := by
    have hle := List.pairwise_insertionSort (· ≤ ·) batchSizes
    exact (hle.and (hperm.nodup_iff.mpr hnodup)).imp fun h => lt_of_le_of_ne h.1 h.2
  obtain ⟨htake, hdrop⟩ := sorted_split hsorted hidx
  unfold PruningExploreManager.down PruningExploreManager.up downFrom upFrom
  rw [htake, hdrop]
  exact ⟨insertionSort_perm_eq (· ≥ ·) (hperm.filter _), insertionSort_perm_eq (· ≤ ·) (hperm.filter _)⟩

/-- Together the two lists are the batch sizes. -/
theorem lists_perm (default : Int) (batchSizes : List Int) :
    (downFrom default batchSizes ++ upFrom default batchSizes).Perm batchSizes := by
  unfold downFrom upFrom
  refine ((List.perm_insertionSort _ _).append (List.perm_insertionSort _ _)).trans ?_
  have hnot : (fun a : Int => decide (default < a)) = fun a => !decide (a ≤ default) := by
    funext a
    rw [← decide_not, decide_eq_decide]
    omega
  rw [hnot]
  exact List.filter_append_perm _ _

/-! ### The size of the loop -/

theorem pruneList_within (found : Found) (l : List Int) :
    (pruneList found l).Within (· ∈ l)
      (fun found' => ∃ l' : List Int, l'.Sublist l ∧ found'.map Prod.fst = found.map Prod.fst ++ l') l.length := by
  induction l generalizing found with
  | nil => exact ⟨[], List.Sublist.refl _, (List.append_nil _).symm⟩
  | cons bs rest ih =>
    refine ⟨List.mem_cons_self, fun answer => ?_⟩
    cases answer with
    | none => exact .of_finished ⟨[], List.nil_sublist _, (List.append_nil _).symm⟩
    | some cost =>
      refine (ih (found ++ [(bs, cost)])).mono (fun _ h => List.mem_cons_of_mem _ h) ?_ (Nat.le_refl _)
      rintro found' ⟨l', hsub, hfound'⟩
      refine ⟨bs :: l', hsub.cons_cons _, ?_⟩
      rw [hfound', List.map_append, List.append_assoc]
      rfl

theorem pruneRound_within (default : Int) (batchSizes : List Int) :
    (pruneRound default batchSizes).Within (· ∈ batchSizes)
      (fun found => (found.map Prod.fst).Subperm batchSizes) batchSizes.length := by
  have hperm := lists_perm default batchSizes
  rw [← hperm.length_eq, List.length_append]
  refine Dialogue.Within.bind ((pruneList_within [] _).mono (fun bs h => ?_) (fun _ h => h) (Nat.le_refl _)) ?_
  · exact hperm.subset (List.mem_append_left _ h)
  rintro found ⟨l, hsub, hfound⟩
  refine (pruneList_within found _).mono (fun bs h => ?_) ?_ (Nat.le_refl _)
  · exact hperm.subset (List.mem_append_right _ h)
  rintro found' ⟨l', hsub', hfound'⟩
  rw [hfound', hfound]
  exact (hsub.append hsub').subperm.trans hperm.subperm

theorem pruneRounds_within {all : List Int} (n : ℕ) (default : Int) (hsub : batchSizes.Subperm all) :
    (pruneRounds n default batchSizes).Within (· ∈ all) (fun left => ∀ goodBs ∈ left, goodBs.Subperm all)
      (n * all.length) := by
  induction n generalizing default batchSizes with
  | zero =>
    refine .of_finished fun goodBs hgood => ?_
    obtain rfl := Option.some.inj hgood
    exact (List.perm_insertionSort _ _).subperm.trans hsub
  | succ n ih =>
    rw [Nat.succ_mul, Nat.add_comm]
    refine Dialogue.Within.bind ((pruneRound_within default batchSizes).mono (fun _ h => hsub.subset h)
      (fun _ h => h) hsub.length_le) fun found hfound => ?_
    split
    · refine .of_finished fun goodBs hgood => ?_
      cases hgood
    · exact ih _ (hfound.trans hsub)

/-- The loop trains listed batch sizes, each at most once in a round, and leaves some of them. -/
theorem pruning_within (spec : JobSpec) :
    (pruning spec).Within (· ∈ spec.batchSizes) (fun left => ∀ goodBs ∈ left, goodBs.Subperm spec.batchSizes)
      (spec.numPruningRounds * spec.batchSizes.length) :=
  pruneRounds_within _ _ (List.Subperm.refl _)

/-! ### What the loop leaves -/

/-- What the trainings of a batch size came to. -/
def answersOn (history : List (Int × Option Double)) (bs : Int) : List (Option Double) :=
  (history.filter (·.1 = bs)).map Prod.snd

theorem answersOn_append (first second : List (Int × Option Double)) (bs : Int) :
    answersOn (first ++ second) bs = answersOn first bs ++ answersOn second bs := by
  unfold answersOn
  rw [List.filter_append, List.map_append]

theorem answersOn_cons (entry : Int × Option Double) (history : List (Int × Option Double)) (bs : Int) :
    answersOn (entry :: history) bs =
      if entry.1 = bs then entry.2 :: answersOn history bs else answersOn history bs := by
  unfold answersOn
  rw [List.filter_cons]
  by_cases heq : entry.1 = bs
  · rw [if_pos (decide_eq_true heq), if_pos heq]
    rfl
  · rw [if_neg (by simpa using heq), if_neg heq]

theorem answersOn_nil {history : List (Int × Option Double)} {bs : Int} (h : ∀ entry ∈ history, entry.1 ≠ bs) :
    answersOn history bs = [] := by
  unfold answersOn
  rw [List.filter_eq_nil_iff.mpr fun entry hentry => by simpa using h entry hentry]
  rfl

theorem pruneList_leaves {found found' : Found} {l : List Int} {history : List (Int × Option Double)}
    (hnodup : l.Nodup) (h : (pruneList found l).after history = some (.finished found')) :
    ∃ new : Found, found' = found ++ new ∧ (∀ entry ∈ history, entry.1 ∈ l) ∧
      ∀ entry ∈ new, entry.1 ∈ l ∧ answersOn history entry.1 = [some entry.2] := by
  induction l generalizing found history with
  | nil =>
    cases history with
    | nil =>
      obtain rfl := Dialogue.finished.inj (Option.some.inj h)
      exact ⟨[], (List.append_nil _).symm, List.forall_mem_nil _, List.forall_mem_nil _⟩
    | cons entry history => cases h
  | cons bs rest ih =>
    cases history with
    | nil => cases h
    | cons entry history =>
      obtain ⟨asked, answer⟩ := entry
      obtain ⟨hnotin, hrestnodup⟩ := List.nodup_cons.mp hnodup
      obtain ⟨next, hask, hrest⟩ := Dialogue.after_cons.mp h
      obtain ⟨rfl, rfl⟩ := Dialogue.ask.inj hask
      cases answer with
      | none =>
        cases history with
        | cons entry history => cases hrest
        | nil =>
          obtain rfl := Dialogue.finished.inj (Option.some.inj hrest)
          refine ⟨[], (List.append_nil _).symm, fun entry hentry => ?_, List.forall_mem_nil _⟩
          obtain rfl := List.mem_singleton.mp hentry
          exact List.mem_cons_self
      | some cost =>
        obtain ⟨new, hfound, hasked, hnew⟩ := ih hrestnodup hrest
        refine ⟨(bs, cost) :: new, ?_, ?_, ?_⟩
        · rw [hfound, List.append_assoc]
          rfl
        · intro entry hentry
          rcases List.mem_cons.mp hentry with rfl | hentry
          · exact List.mem_cons_self
          · exact List.mem_cons_of_mem _ (hasked entry hentry)
        · intro entry hentry
          have hnone : answersOn history bs = [] := answersOn_nil fun e he heq => hnotin (heq ▸ hasked e he)
          rw [answersOn_cons]
          rcases List.mem_cons.mp hentry with rfl | hentry
          · refine ⟨List.mem_cons_self, ?_⟩
            rw [if_pos rfl, hnone]
          · obtain ⟨hmem, hanswers⟩ := hnew entry hentry
            refine ⟨List.mem_cons_of_mem _ hmem, ?_⟩
            have hne : bs ≠ entry.1 := by
              rintro rfl
              exact hnotin hmem
            rw [if_neg hne, hanswers]

theorem pruneRound_leaves {found : Found} {history : List (Int × Option Double)} (hnodup : batchSizes.Nodup)
    (h : (pruneRound default batchSizes).after history = some (.finished found)) :
    ∀ entry ∈ found, answersOn history entry.1 = [some entry.2] := by
  have hperm := lists_perm default batchSizes
  obtain ⟨hdown, hup, hdisjoint⟩ := List.nodup_append.mp (hperm.nodup_iff.mpr hnodup)
  rcases Dialogue.after_bind h with ⟨bs, next, -, heq⟩ | ⟨first, second, found₁, rfl, hfirst, hsecond⟩
  · cases heq
  obtain ⟨new₁, rfl, hasked₁, hnew₁⟩ := pruneList_leaves hdown hfirst
  obtain ⟨new₂, rfl, hasked₂, hnew₂⟩ := pruneList_leaves hup hsecond
  intro entry hentry
  rw [answersOn_append]
  rcases List.mem_append.mp hentry with hentry | hentry
  · obtain ⟨hmem, hanswers⟩ := hnew₁ entry hentry
    rw [hanswers, answersOn_nil fun e he heq => hdisjoint _ hmem _ (hasked₂ e he) heq.symm]
    rfl
  · obtain ⟨hmem, hanswers⟩ := hnew₂ entry hentry
    rw [hanswers, answersOn_nil fun e he heq => hdisjoint _ (hasked₁ e he) _ hmem heq]
    rfl

/-- A batch size that is left was trained once in every round, and has always converged. -/
theorem pruneRounds_leaves {n : ℕ} {goodBs : List Int} {history : List (Int × Option Double)}
    (hnodup : batchSizes.Nodup) (h : (pruneRounds n default batchSizes).after history = some (.finished (some goodBs))) :
    ∀ bs ∈ goodBs, (answersOn history bs).length = n ∧ ∀ answer ∈ answersOn history bs, answer.isSome = true := by
  induction n generalizing default batchSizes history with
  | zero =>
    cases history with
    | nil =>
      intro bs _
      exact ⟨rfl, List.forall_mem_nil _⟩
    | cons entry history => cases h
  | succ n ih =>
    rcases Dialogue.after_bind h with ⟨bs, next, -, heq⟩ | ⟨first, second, found, rfl, hfirst, hsecond⟩
    · cases heq
    obtain ⟨-, k, -, hwithin⟩ := (pruneRound_within default batchSizes).after hfirst
    obtain ⟨l, hperm, hsub⟩ := hwithin.result
    cases hempty : found.isEmpty with
    | true =>
      rw [hempty] at hsecond
      cases second with
      | nil => cases hsecond
      | cons entry second => cases hsecond
    | false =>
      rw [hempty] at hsecond
      obtain ⟨-, k, -, hwithin⟩ := (pruneRounds_within n _ (List.Subperm.refl _)).after hsecond
      intro bs hbs
      obtain ⟨entry, hentry, rfl⟩ := List.mem_map.mp ((hwithin.result goodBs rfl).subset hbs)
      obtain ⟨hlength, hall⟩ := ih (hperm.nodup_iff.mp (hsub.nodup hnodup)) hsecond _ hbs
      rw [answersOn_append, pruneRound_leaves hnodup hfirst entry hentry]
      refine ⟨congrArg (· + 1) hlength, fun answer hanswer => ?_⟩
      rcases List.mem_cons.mp hanswer with rfl | hanswer
      · rfl
      · exact hall answer hanswer

end Order

/-! ### What the explorer has found -/

namespace PruningExploreManager

/-- The explorer's round state for what a round has found. -/
def RoundState.of (found : Found) : RoundState :=
  ⟨found.map Prod.fst, (found.argmin Prod.snd).map Prod.snd, cheapest found⟩

theorem RoundState.of_snoc (found : Found) (bs : Int) (cost : Double) :
    RoundState.converged (RoundState.of found) bs cost = RoundState.of (found ++ [(bs, cost)]) := by
  unfold RoundState.converged RoundState.of cheapest
  rw [List.argmin_concat, List.map_append, List.map_singleton]
  cases hleast : found.argmin Prod.snd with
  | none => rfl
  | some least =>
    by_cases hless : cost < least.2
    · have hbelow : below cost (some least.2) = true := decide_eq_true hless
      simp only [Option.map_some, hbelow, if_true, if_pos hless, Option.getD_some]
    · have hbelow : below cost (some least.2) = false := decide_eq_false hless
      simp only [Option.map_some, hbelow, Bool.false_eq_true, if_false, if_neg hless, Option.getD_some]

end PruningExploreManager

theorem cheapest_mem {found : Found} (hne : found ≠ []) : cheapest found ∈ found.map Prod.fst := by
  unfold cheapest
  cases hleast : found.argmin Prod.snd with
  | none => exact absurd (List.argmin_eq_none.mp hleast) hne
  | some least => exact List.mem_map_of_mem (List.argmin_mem hleast)

/-! ### The explorer replays the loop -/

/-- What a training came to, as the answer to the loop's question. -/
def Trial.answer [Rounding] (job : JobState) (t : Trial) : Int × Option Double :=
  (t.batchSize,
    match t.status with
    | .succeeded time energy true => some (job.cost energy time)
    | _ => none)

def Trial.Answered (t : Trial) : Prop := ∃ time energy converged, t.status = .succeeded time energy converged

section Replay
open PruningExploreManager
variable {job : JobState} {all pre post : List Trial} {t : Trial}

theorem explorations_append (a b : List Trial) (bs : Int) :
    explorationsPerBs (a ++ b) bs = explorationsPerBs a bs ++ explorationsPerBs b bs :=
  List.filter_append a b

theorem explorations_snoc (pre : List Trial) (t : Trial) (bs : Int) :
    (explorationsPerBs (pre ++ [t]) bs).length =
      (explorationsPerBs pre bs).length + if t.batchSize = bs then 1 else 0 := by
  rw [explorations_append, List.length_append]
  unfold explorationsPerBs
  by_cases heq : t.batchSize = bs
  · rw [List.filter_cons_of_pos (by simpa using heq), if_pos heq]
    rfl
  · rw [List.filter_cons_of_neg (by simpa using heq), if_neg heq]
    rfl

/-- A trial is in its batch size's history after as many as were before it. -/
theorem history_at {round : ℕ} (hcount : (explorationsPerBs pre t.batchSize).length = round) :
    (explorationsPerBs (pre ++ t :: post) t.batchSize)[round]? = some t := by
  rw [explorations_append, List.getElem?_append_right (Nat.le_of_eq hcount), hcount, Nat.sub_self]
  unfold explorationsPerBs
  rw [List.filter_cons_of_pos (by simp)]
  rfl

theorem history_end {round : ℕ} {bs : Int} (hcount : (explorationsPerBs pre bs).length = round) :
    (explorationsPerBs pre bs)[round]? = none :=
  List.getElem?_eq_none (Nat.le_of_eq hcount)

/-- One batch size of a list: what the table says of it is where the loop goes. -/
theorem exploreList_answered [Rounding] {round : ℕ} {found : Found} {rest : List Int}
    (hall : all = pre ++ t :: post)
    (hcount : (explorationsPerBs pre t.batchSize).length = round) (hanswered : t.Answered) :
    exploreList job (explorationsPerBs all) round (RoundState.of found) (t.batchSize :: rest) =
      match (t.answer job).2 with
      | some cost =>
        exploreList job (explorationsPerBs all) round (RoundState.of (found ++ [(t.batchSize, cost)])) rest
      | none => .finished (RoundState.of found) := by
  obtain ⟨time, energy, converged, hstatus⟩ := hanswered
  rw [exploreList, hall, history_at hcount]
  unfold Trial.answer
  cases converged with
  | true => simp only [hstatus, RoundState.of_snoc]
  | false => simp only [hstatus]

/-- One batch size of a list: it is the one the loop asks for, and the loop goes on with
what it came to. -/
theorem pruneList_after [Rounding] {found : Found} {bs : Int} {rest : List Int} {ts : List Trial}
    {d : Dialogue Int (Option Double) Found}
    (h : (pruneList found (bs :: rest)).after ((t :: ts).map (Trial.answer job)) = some d) :
    t.batchSize = bs ∧
      (match (t.answer job).2 with
        | some cost => pruneList (found ++ [(bs, cost)]) rest
        | none => .finished found : Dialogue Int (Option Double) Found).after (ts.map (Trial.answer job)) =
        some d := by
  obtain ⟨next, hask, hrest⟩ := Dialogue.after_cons.mp h
  obtain ⟨rfl, rfl⟩ := Dialogue.ask.inj hask
  exact ⟨rfl, hrest⟩

/-- An exploration of the first batch size of a list is none of the others'. -/
theorem count_rest {round : ℕ} {t : Trial} {rest : List Int} {pre : List Trial} (hnotin : t.batchSize ∉ rest)
    (hcount : ∀ bs ∈ t.batchSize :: rest, (explorationsPerBs pre bs).length = round) :
    ∀ bs ∈ rest, (explorationsPerBs (pre ++ [t]) bs).length = round := by
  intro bs hbs
  have hne : t.batchSize ≠ bs := by
    rintro rfl
    exact hnotin hbs
  rw [explorations_snoc, if_neg hne, hcount bs (List.mem_cons_of_mem _ hbs)]
  rfl

/-- A list of the loop that is over in the history is over for the explorer. -/
theorem exploreList_over [Rounding] {round : ℕ} {found found' : Found} {l : List Int} {pre ts : List Trial}
    (hall : all = pre ++ (ts ++ post)) (hnodup : l.Nodup)
    (hcount : ∀ bs ∈ l, (explorationsPerBs pre bs).length = round) (hanswered : ∀ t ∈ ts, t.Answered)
    (hafter : (pruneList found l).after (ts.map (Trial.answer job)) = some (.finished found')) :
    exploreList job (explorationsPerBs all) round (RoundState.of found) l = .finished (RoundState.of found') ∧
      ∃ l' : List Int, l'.Sublist l ∧ found'.map Prod.fst = found.map Prod.fst ++ l' ∧
        (∀ bs ∈ l', (explorationsPerBs (pre ++ ts) bs).length = round + 1) ∧
        ∀ bs, bs ∉ l → (explorationsPerBs (pre ++ ts) bs).length = (explorationsPerBs pre bs).length := by
  induction l generalizing pre ts found with
  | nil =>
    cases ts with
    | nil =>
      obtain rfl := Dialogue.finished.inj (Option.some.inj hafter)
      refine ⟨rfl, [], List.Sublist.refl _, (List.append_nil _).symm, nofun, fun bs _ => ?_⟩
      rw [List.append_nil]
    | cons t ts => cases hafter
  | cons bs rest ih =>
    cases ts with
    | nil => cases hafter
    | cons t ts =>
      obtain ⟨hnotin, hrestnodup⟩ := List.nodup_cons.mp hnodup
      obtain ⟨rfl, hrest⟩ := pruneList_after hafter
      have hfirst := hcount _ List.mem_cons_self
      have hmore := explorations_snoc pre t
      have hassoc : pre ++ t :: ts = pre ++ [t] ++ ts := by simp
      rw [exploreList_answered hall hfirst (hanswered t List.mem_cons_self)]
      cases hcost : (t.answer job).2 with
      | none =>
        rw [hcost] at hrest
        cases ts with
        | cons t' ts => cases hrest
        | nil =>
          obtain rfl := Dialogue.finished.inj (Option.some.inj hrest)
          refine ⟨rfl, [], List.nil_sublist _, (List.append_nil _).symm, nofun, fun bs hbs => ?_⟩
          rw [hmore, if_neg (Ne.symm (List.ne_of_not_mem_cons hbs)), Nat.add_zero]
      | some cost =>
        rw [hcost] at hrest
        obtain ⟨hover, l', hsub, hfound, hvisited, hother⟩ := ih (by rw [hall]; simp) hrestnodup
          (count_rest hnotin hcount) (fun t ht => hanswered t (List.mem_cons_of_mem _ ht)) hrest
        refine ⟨hover, t.batchSize :: l', hsub.cons_cons _, ?_, ?_, ?_⟩
        · rw [hfound, List.map_append, List.append_assoc]
          rfl
        · intro bs hbs
          rw [hassoc]
          rcases List.mem_cons.mp hbs with rfl | hbs
          · rw [hother _ hnotin, hmore, if_pos rfl, hfirst]
          · exact hvisited bs hbs
        · intro bs hbs
          rw [hassoc, hother bs (List.not_mem_of_not_mem_cons hbs), hmore,
            if_neg (Ne.symm (List.ne_of_not_mem_cons hbs)), Nat.add_zero]

/-- The trial for a question of the loop: an exploration, unless that is being trained. -/
def trialFor (job : JobState) (out : Option Trial) (bs : Int) : TrialType × Int :=
  match out with
  | none => (.exploration, bs)
  | some _ => (.concurrent, job.minCostBatchSize)

/-- Where the loop asks, the explorer dispatches. -/
theorem exploreList_asks [Rounding] {round : ℕ} {found : Found} {l : List Int} {pre ts : List Trial}
    {out : Option Trial}
    {bs : Int} {next : Option Double → Dialogue Int (Option Double) Found}
    (hall : all = pre ++ (ts ++ out.toList)) (hnodup : l.Nodup)
    (hcount : ∀ bs ∈ l, (explorationsPerBs pre bs).length = round) (hanswered : ∀ t ∈ ts, t.Answered)
    (hafter : (pruneList found l).after (ts.map (Trial.answer job)) = some (.ask bs next))
    (hout : ∀ t ∈ out, t.status = .dispatched ∧ t.batchSize = bs) :
    exploreList job (explorationsPerBs all) round (RoundState.of found) l =
      .createTrial (trialFor job out bs).1 (trialFor job out bs).2 := by
  induction l generalizing pre ts found with
  | nil =>
    cases ts with
    | nil => cases hafter
    | cons t ts => cases hafter
  | cons bs' rest ih =>
    cases ts with
    | nil =>
      obtain rfl : bs' = bs := (Dialogue.ask.inj (Option.some.inj hafter)).1
      have hfirst := hcount _ List.mem_cons_self
      cases out with
      | none =>
        have hsame : all = pre := by rw [hall]; simp
        rw [exploreList, hsame, history_end hfirst]
        rfl
      | some t =>
        obtain ⟨hdispatched, rfl⟩ := hout t rfl
        have hsame : all = pre ++ t :: [] := hall
        rw [exploreList, hsame, history_at hfirst]
        simp only [hdispatched]
        rfl
    | cons t ts =>
      obtain ⟨hnotin, hrestnodup⟩ := List.nodup_cons.mp hnodup
      obtain ⟨rfl, hrest⟩ := pruneList_after hafter
      rw [exploreList_answered hall (hcount _ List.mem_cons_self) (hanswered t List.mem_cons_self)]
      cases hcost : (t.answer job).2 with
      | none =>
        rw [hcost] at hrest
        cases ts with
        | nil => cases hrest
        | cons t' ts => cases hrest
      | some cost =>
        rw [hcost] at hrest
        have hall' : all = pre ++ [t] ++ (ts ++ out.toList) := by
          rw [hall]
          simp
        exact ih hall' hrestnodup (count_rest hnotin hcount)
          (fun t ht => hanswered t (List.mem_cons_of_mem _ ht)) hrest

/-! ### Rounds -/

section Round
variable {round : ℕ} {batchSizes : List Int} {default : Int}

/-- A round of the explorer is its two lists. -/
theorem exploreRound_eq [Rounding] (hnodup : batchSizes.Nodup) (hdefault : default ∈ batchSizes)
    (history : Int → List Trial) :
    exploreRound job history round batchSizes default =
      match exploreList job history round (RoundState.of []) (downFrom default batchSizes) with
      | .createTrial type bs => .ok (.createTrial type bs)
      | .finished found => .ok (exploreList job history round found (upFrom default batchSizes)) := by
  have hmem : default ∈ batchSizes.insertionSort (· ≤ ·) := (List.mem_insertionSort _).mpr hdefault
  obtain ⟨idx, hidx⟩ := Option.isSome_iff_exists.mp (List.isSome_idxOf?.mpr hmem)
  obtain ⟨hdown, hup⟩ := lists_eq hnodup hidx
  unfold exploreRound
  simp only [hidx, hdown, hup]
  rfl

theorem lists_nodup (default : Int) (hnodup : batchSizes.Nodup) :
    (downFrom default batchSizes ++ upFrom default batchSizes).Nodup := (lists_perm default batchSizes).nodup_iff.mpr hnodup

/-- The counts for the second list after the first. -/
theorem second_count {l l' : List Int} {pre ts : List Trial} (hnodup : (l ++ l').Nodup)
    (hcount : ∀ bs ∈ l ++ l', (explorationsPerBs pre bs).length = round)
    (hother : ∀ bs, bs ∉ l → (explorationsPerBs (pre ++ ts) bs).length = (explorationsPerBs pre bs).length) :
    ∀ bs ∈ l', (explorationsPerBs (pre ++ ts) bs).length = round := by
  intro bs hbs
  rw [hother bs fun hmem => (List.nodup_append.mp hnodup).2.2 bs hmem bs hbs rfl,
    hcount bs (List.mem_append_right _ hbs)]

theorem exploreRound_asks [Rounding] {pre ts : List Trial} {out : Option Trial} {bs : Int}
    {next : Option Double → Dialogue Int (Option Double) Found} (hall : all = pre ++ (ts ++ out.toList))
    (hnodup : batchSizes.Nodup) (hdefault : default ∈ batchSizes)
    (hcount : ∀ bs ∈ batchSizes, (explorationsPerBs pre bs).length = round) (hanswered : ∀ t ∈ ts, t.Answered)
    (hafter : (pruneRound default batchSizes).after (ts.map (Trial.answer job)) = some (.ask bs next))
    (hout : ∀ t ∈ out, t.status = .dispatched ∧ t.batchSize = bs) :
    exploreRound job (explorationsPerBs all) round batchSizes default =
      .ok (.createTrial (trialFor job out bs).1 (trialFor job out bs).2) := by
  have hlists := lists_nodup default hnodup
  have hcounts : ∀ bs ∈ downFrom default batchSizes ++ upFrom default batchSizes,
      (explorationsPerBs pre bs).length = round := fun bs hbs => hcount bs ((lists_perm default batchSizes).mem_iff.mp hbs)
  obtain ⟨hdown, hup, -⟩ := List.nodup_append.mp hlists
  have hcountDown := fun bs hbs => hcounts bs (List.mem_append_left _ hbs)
  rw [exploreRound_eq hnodup hdefault]
  rcases Dialogue.after_bind hafter with ⟨bs', next', hask, heq⟩ | ⟨first, second, found, hsplit, hover, hrest⟩
  · obtain ⟨rfl, -⟩ := Dialogue.ask.inj heq
    rw [exploreList_asks hall hdown hcountDown hanswered hask hout]
  · obtain ⟨ts₁, ts₂, rfl, rfl, rfl⟩ := List.map_eq_append_iff.mp hsplit
    have hall₁ : all = pre ++ (ts₁ ++ (ts₂ ++ out.toList)) := by rw [hall, List.append_assoc]
    have hall₂ : all = pre ++ ts₁ ++ (ts₂ ++ out.toList) := by rw [hall₁, List.append_assoc]
    obtain ⟨hlist, l', -, -, -, hother⟩ := exploreList_over hall₁ hdown hcountDown
      (fun t ht => hanswered t (List.mem_append_left _ ht)) hover
    rw [hlist]
    dsimp only
    rw [exploreList_asks hall₂ hup (second_count hlists hcounts hother)
      (fun t ht => hanswered t (List.mem_append_right _ ht)) hrest hout]

theorem exploreRound_over [Rounding] {pre ts : List Trial} {found : Found} (hall : all = pre ++ (ts ++ post))
    (hnodup : batchSizes.Nodup) (hdefault : default ∈ batchSizes)
    (hcount : ∀ bs ∈ batchSizes, (explorationsPerBs pre bs).length = round) (hanswered : ∀ t ∈ ts, t.Answered)
    (hafter : (pruneRound default batchSizes).after (ts.map (Trial.answer job)) = some (.finished found)) :
    exploreRound job (explorationsPerBs all) round batchSizes default = .ok (.finished (RoundState.of found)) ∧
      (found.map Prod.fst).Nodup ∧ (∀ bs ∈ found.map Prod.fst, bs ∈ batchSizes) ∧
      ∀ bs ∈ found.map Prod.fst, (explorationsPerBs (pre ++ ts) bs).length = round + 1 := by
  have hlists := lists_nodup default hnodup
  have hcounts : ∀ bs ∈ downFrom default batchSizes ++ upFrom default batchSizes,
      (explorationsPerBs pre bs).length = round := fun bs hbs => hcount bs ((lists_perm default batchSizes).mem_iff.mp hbs)
  obtain ⟨hdown, hup, hdisjoint⟩ := List.nodup_append.mp hlists
  rw [exploreRound_eq hnodup hdefault]
  rcases Dialogue.after_bind hafter with ⟨bs', next', -, heq⟩ | ⟨first, second, found₁, hsplit, hover, hrest⟩
  · cases heq
  obtain ⟨ts₁, ts₂, rfl, rfl, rfl⟩ := List.map_eq_append_iff.mp hsplit
  have hall₁ : all = pre ++ (ts₁ ++ (ts₂ ++ post)) := by rw [hall, List.append_assoc]
  have hall₂ : all = pre ++ ts₁ ++ (ts₂ ++ post) := by rw [hall₁, List.append_assoc]
  obtain ⟨hlist, l₁, hsub₁, hfound₁, hvisited₁, hother₁⟩ := exploreList_over hall₁ hdown
    (fun bs hbs => hcounts bs (List.mem_append_left _ hbs))
    (fun t ht => hanswered t (List.mem_append_left _ ht)) hover
  obtain ⟨hlist', l₂, hsub₂, hfound₂, hvisited₂, hother₂⟩ := exploreList_over hall₂ hup
    (second_count hlists hcounts hother₁) (fun t ht => hanswered t (List.mem_append_right _ ht)) hrest
  have hfound : found.map Prod.fst = l₁ ++ l₂ := by
    rw [hfound₂, hfound₁]
    rfl
  have hsub : (found.map Prod.fst).Sublist (downFrom default batchSizes ++ upFrom default batchSizes) := by
    rw [hfound]
    exact hsub₁.append hsub₂
  rw [hlist]
  refine ⟨congrArg Except.ok hlist', hsub.nodup hlists, fun bs hbs => (lists_perm default batchSizes).mem_iff.mp (hsub.subset hbs),
    fun bs hbs => ?_⟩
  rw [hfound] at hbs
  rw [← List.append_assoc]
  rcases List.mem_append.mp hbs with hbs | hbs
  · rw [hother₂ bs fun hmem => hdisjoint bs (hsub₁.subset hbs) bs hmem rfl]
    exact hvisited₁ bs hbs
  · exact hvisited₂ bs hbs

end Round

/-- What the explorer answers where the loop stands. -/
def reply (job : JobState) (out : Option Trial) :
    Dialogue Int (Option Double) (Option (List Int)) → Except BsoError NextBatchSize
  | .ask bs _ => .ok (.createTrial (trialFor job out bs).1 (trialFor job out bs).2)
  | .finished (some goodBs) => .ok (.goodBatchSizes goodBs)
  | .finished none =>
    .error (.serverRuntime
      "No converged batch sizes has observed. Reconfigure batch_sizes and re-launch the job.")

theorem exploreRounds_follows [Rounding] {n round : ℕ} {default : Int} {batchSizes : List Int}
    {pre ts : List Trial}
    {out : Option Trial} {d : Dialogue Int (Option Double) (Option (List Int))}
    (hall : all = pre ++ (ts ++ out.toList)) (hnodup : batchSizes.Nodup) (hdefault : default ∈ batchSizes)
    (hcount : ∀ bs ∈ batchSizes, (explorationsPerBs pre bs).length = round) (hanswered : ∀ t ∈ ts, t.Answered)
    (hafter : (pruneRounds n default batchSizes).after (ts.map (Trial.answer job)) = some d)
    (hout : ∀ t ∈ out, t.status = .dispatched ∧ ∃ next, d = .ask t.batchSize next) :
    exploreRounds job (explorationsPerBs all) (List.range' round n) batchSizes default = reply job out d := by
  induction n generalizing round default batchSizes pre ts with
  | zero =>
    cases ts with
    | nil =>
      obtain rfl := Option.some.inj hafter
      rfl
    | cons t ts => cases hafter
  | succ n ih =>
    rw [List.range'_succ, exploreRounds]
    rcases Dialogue.after_bind hafter with ⟨bs, next, hask, rfl⟩ | ⟨first, second, found, hsplit, hover, hrest⟩
    · rw [exploreRound_asks hall hnodup hdefault hcount hanswered hask fun t ht => ?_]
      · rfl
      · obtain ⟨hdispatched, next', heq⟩ := hout t ht
        exact ⟨hdispatched, (Dialogue.ask.inj heq).1.symm⟩
    · obtain ⟨ts₁, ts₂, rfl, rfl, rfl⟩ := List.map_eq_append_iff.mp hsplit
      have hall₁ : all = pre ++ (ts₁ ++ (ts₂ ++ out.toList)) := by rw [hall, List.append_assoc]
      have hall₂ : all = pre ++ ts₁ ++ (ts₂ ++ out.toList) := by rw [hall₁, List.append_assoc]
      obtain ⟨hround, hfoundNodup, -, hfoundCount⟩ := exploreRound_over hall₁ hnodup hdefault hcount
        (fun t ht => hanswered t (List.mem_append_left _ ht)) hover
      rw [hround]
      show (if (found.map Prod.fst).isEmpty then _ else
        exploreRounds job _ _ (found.map Prod.fst) (cheapest found)) = _
      rw [List.isEmpty_map]
      cases hempty : found.isEmpty with
      | true =>
        rw [hempty] at hrest
        cases ts₂ with
        | nil =>
          obtain rfl := Option.some.inj hrest
          rfl
        | cons t ts => cases hrest
      | false =>
        rw [hempty] at hrest
        have hne : found ≠ [] := by
          rintro rfl
          cases hempty
        exact ih hall₂ hfoundNodup (cheapest_mem hne) hfoundCount
          (fun t ht => hanswered t (List.mem_append_right _ ht)) hrest

/-- The explorations of a job against its loop: the questions that are answered, and
perhaps one whose training has not ended. -/
structure Follows [Rounding] (job : JobState) (answered : List Trial) (training : Option Trial)
    (d : Dialogue Int (Option Double) (Option (List Int))) : Prop where
  ended : ∀ t ∈ answered, t.Answered
  stands : (pruning job.spec).after (answered.map (Trial.answer job)) = some d
  asked : ∀ t ∈ training, t.status = .dispatched ∧ ∃ next, d = .ask t.batchSize next

/-- **The explorer follows the loop**: it answers where the loop stands. -/
theorem Follows.next [Rounding] {answered : List Trial} {training : Option Trial}
    {d : Dialogue Int (Option Double) (Option (List Int))} (h : Follows job answered training d) :
    nextBatchSize job (answered ++ training.toList) = reply job training d := by
  have hall : answered ++ training.toList = [] ++ (answered ++ training.toList) := rfl
  have hstart : ∀ bs ∈ job.spec.batchSizes, (explorationsPerBs [] bs).length = 0 := fun _ _ => rfl
  unfold nextBatchSize
  rw [List.range_eq_range']
  exact exploreRounds_follows hall job.distinct job.spec.default_mem hstart h.ended h.stands h.asked

end Replay

end ZeusPower.Reference.BatchSize
