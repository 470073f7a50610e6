import Mathlib.Data.List.DropRight
import ZeusPower.Device.JetsonRounds

/-! How the Jetson backend finds its power rails (`discover_power_rails` of
`device/soc_jetson.h`).

The walk goes over the device directories of two drivers, their sub-directories and the
directories in these, and looks in each for files that name a rail. The tree is a
parameter, and so is the order in which `readdir` gives out a directory at each pass over
it. The rails found so far have distinct keys by construction (`Discovery`), and every
loop of the walk adds the keys of the label files it meets, and no other (`Adds`). So the
keys are those of all usable label files, in whatever order they are met
(`discovers_rails`). -/
namespace ZeusPower.Device

namespace JetsonSoCBackend

/-- The driver trees: what each directory lists, which paths `stat` finds, and the texts
of the files that can be opened. -/
structure Tree where
  entries : String → Option (List String)
  fileExists : String → Bool
  text : String → Option String

/-- The passes that are made over one directory. -/
inductive Pass where
  | walk
  | labels
  | railNames
  deriving DecidableEq, Repr

/-- The order in which `readdir` gives out the entries of a directory at a pass. -/
structure Readdir where
  order : Pass → String → List String → List String
  perm : ∀ pass path entries, (order pass path entries).Perm entries

namespace Tree

/-- The directory can be opened, and `name` is in it. -/
def Lists (tree : Tree) (path name : String) : Prop :=
  ∃ entries, tree.entries path = some entries ∧ name ∈ entries

/-- The first line of a file, without the white space at its end; `""` if the file cannot
be opened. -/
def readSysfsString (tree : Tree) (path : String) : String :=
  match tree.text path with
  | none => ""
  | some text =>
    let val := text.toList.takeWhile fun c => c != '\n'
    String.ofList (val.rdropWhile fun c => c == '\n' || c == '\r' || c == ' ')

end Tree

/-! ### Names of label files -/

/-- `text.find(pattern)`: the place of the first occurrence. -/
def find (pattern : List Char) : List Char → Option ℕ
  | [] => if pattern = [] then some 0 else none
  | c :: rest => if pattern <+: c :: rest then some 0 else (find pattern rest).map (· + 1)

/-- The two ways in which a file names a rail. -/
inductive Naming where
  | labels
  | railNames
  deriving DecidableEq, Repr

namespace Naming

/-- The index in a file's name, if the name matches `in{N}_label` or `rail_name_{N}`. -/
def index (naming : Naming) (fname : String) : Option String :=
  let name := fname.toList
  match naming with
  | labels =>
    if name.length < 3 ∨ name.take 2 ≠ "in".toList then none
    else (find "_label".toList name).map fun labelPos =>
      String.ofList ((name.drop 2).take (labelPos - 2))
  | railNames =>
    let lead := "rail_name_".toList
    if name.length ≤ lead.length ∨ name.take lead.length ≠ lead then none
    else some (String.ofList (name.drop lead.length))

def power : Naming → String
  | labels => "power"
  | railNames => "in_power"

def voltage : Naming → String
  | labels => "in"
  | railNames => "in_voltage"

def current : Naming → String
  | labels => "curr"
  | railNames => "in_current"

end Naming

/-- A label file: its directory, its name, and the index in its name. -/
structure Label where
  naming : Naming
  dir : String
  fname : String
  idx : String

namespace Label
variable (l : Label)

def powerPath : String := l.dir ++ "/" ++ l.naming.power ++ l.idx ++ "_input"

def voltagePath : String := l.dir ++ "/" ++ l.naming.voltage ++ l.idx ++ "_input"

def currentPath : String := l.dir ++ "/" ++ l.naming.current ++ l.idx ++ "_input"

/-- The rail a label file stands for, measured by the power file if there is one. -/
def rail (tree : Tree) (key : String) : PowerRail :=
  if tree.fileExists l.powerPath then ⟨key, .directPower, l.powerPath, "", ""⟩
  else ⟨key, .voltageCurrentProduct, "", l.voltagePath, l.currentPath⟩

/-- There is something to measure beside the label file. -/
def usable (tree : Tree) : Bool :=
  tree.fileExists l.powerPath || (tree.fileExists l.voltagePath && tree.fileExists l.currentPath)

end Label

/-! ### The walk -/

/-- The rails found so far: `power_rails_` and `found`. -/
structure Discovery where
  powerRails : List PowerRail
  found : Std.ExtTreeSet String
  mem_found : ∀ key, key ∈ found ↔ ∃ rail ∈ powerRails, rail.key = key
  nodup_keys : (powerRails.map PowerRail.key).Nodup

namespace Discovery

def empty : Discovery := ⟨[], ∅, by simp, List.nodup_nil⟩

/-- A rail under a new key. -/
def push (d : Discovery) (rail : PowerRail) (fresh : rail.key ∉ d.found) : Discovery where
  powerRails := d.powerRails ++ [rail]
  found := d.found.insert rail.key
  mem_found := by
    intro key
    rw [Std.ExtTreeSet.mem_insert, Std.LawfulEqOrd.compare_eq_iff_eq, d.mem_found]
    simp only [List.mem_append, List.mem_singleton, or_and_right, exists_or, exists_eq_left]
    exact or_comm
  nodup_keys := by
    rw [List.map_append, List.map_singleton]
    apply d.nodup_keys.append (List.nodup_singleton _)
    intro key hkey hnew
    obtain rfl := List.mem_singleton.mp hnew
    obtain ⟨old, hold, hsame⟩ := List.mem_map.mp hkey
    exact fresh ((d.mem_found _).mpr ⟨old, hold, hsame⟩)

end Discovery

section Walk
variable (tree : Tree) (readdir : Readdir)

/-- `opendir`, a loop over what `readdir` gives out, `closedir`. -/
def eachEntry (pass : Pass) (path : String) (turn : Discovery → String → Discovery) (d : Discovery) :
    Discovery :=
  match tree.entries path with
  | none => d
  | some entries => (readdir.order pass path entries).foldl turn d

/-- One file of a directory, at the pass that looks for names of the kind `naming`. -/
def discoverEntry (naming : Naming) (path : String) (d : Discovery) (fname : String) : Discovery :=
  match naming.index fname with
  | none => d
  | some idx =>
    let railName := tree.readSysfsString (path ++ "/" ++ fname)
    if railName.isEmpty then d
    else if hfound : railName ∈ d.found then d
    else
      let label : Label := ⟨naming, path, fname, idx⟩
      if tree.fileExists label.powerPath then
        d.push ⟨railName, .directPower, label.powerPath, "", ""⟩ hfound
      else if tree.fileExists label.voltagePath && tree.fileExists label.currentPath then
        d.push ⟨railName, .voltageCurrentProduct, "", label.voltagePath, label.currentPath⟩ hfound
      else d

def discoverFromLabels (path : String) : Discovery → Discovery :=
  eachEntry tree readdir .labels path (discoverEntry tree .labels path)

def discoverFromRailNames (path : String) : Discovery → Discovery :=
  eachEntry tree readdir .railNames path (discoverEntry tree .railNames path)

def discoverFromDir (path : String) (d : Discovery) : Discovery :=
  discoverFromRailNames tree readdir path (discoverFromLabels tree readdir path d)

/-- `"."` or `".."`. -/
def isDots (name : String) : Bool := name == "." || name == ".."

/-- An entry of a driver's directory that is no device. -/
def isNoDevice (name : String) : Bool :=
  isDots name || name == "bind" || name == "unbind" || name == "module" || name == "uevent"

/-- A directory two levels below a base, and the directories in it. -/
def discoverSub (devicePath : String) (d : Discovery) (subName : String) : Discovery :=
  if isDots subName then d
  else
    let subPath := devicePath ++ "/" ++ subName
    eachEntry tree readdir .walk subPath (fun d sub2Name =>
      if isDots sub2Name then d else discoverFromDir tree readdir (subPath ++ "/" ++ sub2Name) d)
      (discoverFromDir tree readdir subPath d)

def discoverDevice (base : String) (d : Discovery) (deviceName : String) : Discovery :=
  if isNoDevice deviceName then d
  else
    let devicePath := base ++ "/" ++ deviceName
    eachEntry tree readdir .walk devicePath (discoverSub tree readdir devicePath) d

def bases : List String := ["/sys/bus/i2c/drivers/ina3221", "/sys/bus/i2c/drivers/ina3221x"]

def discover : Discovery :=
  bases.foldl (fun d base => eachEntry tree readdir .walk base (discoverDevice tree readdir base) d) .empty

def discoverPowerRails : List PowerRail := (discover tree readdir).powerRails

end Walk

/-! ### What the names spell -/

/-- `find` gives the first occurrence. -/
theorem find_eq_some {pattern : List Char} (hpattern : pattern ≠ []) {text : List Char} {pos : ℕ} :
    find pattern text = some pos ↔ ∃ before rest, text = before ++ (pattern ++ rest) ∧
      before.length = pos ∧
      ∀ before' rest', text = before' ++ (pattern ++ rest') → before.length ≤ before'.length := by
  induction text generalizing pos with
  | nil =>
    rw [find, if_neg hpattern]
    constructor
    · intro h
      cases h
    · intro ⟨before, rest, htext, _⟩
      simp [hpattern] at htext
  | cons c text ih =>
    by_cases hhere : pattern <+: c :: text
    · rw [find, if_pos hhere]
      obtain ⟨rest, hrest⟩ := hhere
      constructor
      · intro h
        obtain rfl := Option.some.inj h
        exact ⟨[], rest, hrest.symm, rfl, fun before' _ _ => Nat.zero_le before'.length⟩
      · intro ⟨before, _, _, hlen, hfirst⟩
        have hzero := hfirst [] rest hrest.symm
        rw [List.length_nil, Nat.le_zero] at hzero
        rw [← hlen, hzero]
    · rw [find, if_neg hhere, Option.map_eq_some_iff]
      -- No occurrence stands at the front, so each is one of the text after it.
      have htail : ∀ before rest, c :: text = before ++ (pattern ++ rest) →
          ∃ before', before = c :: before' ∧ text = before' ++ (pattern ++ rest) := by
        intro before rest h
        cases before with
        | nil => exact absurd ⟨rest, h.symm⟩ hhere
        | cons d before' =>
          obtain ⟨rfl, htext⟩ := List.cons.inj h
          exact ⟨before', rfl, htext⟩
      constructor
      · intro ⟨q, hq, hpos⟩
        obtain ⟨before, rest, htext, hlen, hfirst⟩ := ih.mp hq
        refine ⟨c :: before, rest, by rw [htext]; rfl, by rw [List.length_cons, hlen, hpos], ?_⟩
        intro before' rest' h
        obtain ⟨before'', rfl, htext'⟩ := htail before' rest' h
        exact Nat.succ_le_succ (hfirst before'' rest' htext')
      · intro ⟨before, rest, h, hlen, hfirst⟩
        obtain ⟨before', rfl, htext⟩ := htail before rest h
        refine ⟨before'.length, ih.mpr ⟨before', rest, htext, rfl, ?_⟩, hlen⟩
        intro before'' rest' htext'
        exact Nat.le_of_succ_le_succ (hfirst (c :: before'') rest' (by rw [htext']; rfl))

namespace Naming

/-- `fname` begins with `in` and `idx` is what stands between that and the first `_label`;
or `fname` is `rail_name_` and then `idx`, which is not empty. -/
def Spells : Naming → String → String → Prop
  | labels, fname, idx =>
    ∃ rest, fname.toList = "in".toList ++ (idx.toList ++ ("_label".toList ++ rest)) ∧
      ∀ idx' rest', fname.toList = "in".toList ++ (idx' ++ ("_label".toList ++ rest')) →
        idx.toList.length ≤ idx'.length
  | railNames, fname, idx => idx ≠ "" ∧ fname = "rail_name_" ++ idx

/-- The pattern cannot begin in the two letters in front. -/
theorem find_after_in (text : List Char) :
    find "_label".toList ("in".toList ++ text) = (find "_label".toList text).map (· + 2) := by
  have hletter : ∀ (c : Char) (rest : List Char), c ≠ '_' → ¬ "_label".toList <+: c :: rest := by
    intro c rest hc h
    obtain ⟨after, hafter⟩ := h
    exact hc (List.cons.inj hafter).1.symm
  show find "_label".toList ('i' :: 'n' :: text) = _
  rw [find, if_neg (hletter 'i' _ (by decide)), find, if_neg (hletter 'n' _ (by decide)), Option.map_map]
  rfl

theorem index_labels (fname idx : String) : labels.index fname = some idx ↔ labels.Spells fname idx := by
  have hpattern : "_label".toList ≠ [] := by decide
  unfold index Spells
  dsimp only
  by_cases hlead : fname.toList.take 2 = "in".toList
  · obtain ⟨text, hname⟩ : ∃ text, fname.toList = "in".toList ++ text :=
      ⟨fname.toList.drop 2, by rw [← hlead, List.take_append_drop]⟩
    have hfind : ∀ pos, find "_label".toList text = some pos ↔ ∃ before rest,
        text = before ++ ("_label".toList ++ rest) ∧ before.length = pos ∧
        ∀ before' rest', text = before' ++ ("_label".toList ++ rest') → before.length ≤ before'.length :=
      fun pos => find_eq_some hpattern
    have hlong : ∀ {before rest}, text = before ++ ("_label".toList ++ rest) →
        ¬ (fname.toList.length < 3 ∨ fname.toList.take 2 ≠ "in".toList) := by
      intro before rest htext h
      rcases h with h | h
      · rw [hname, htext] at h
        simp only [List.length_append] at h
        have hten : "in".toList.length + "_label".toList.length = 8 := by decide
        omega
      · exact h hlead
    rw [hname, find_after_in]
    rw [hname] at hlong
    constructor
    · intro h
      by_cases hshort : ("in".toList ++ text).length < 3 ∨ ("in".toList ++ text).take 2 ≠ "in".toList
      · rw [if_pos hshort] at h
        cases h
      · rw [if_neg hshort, Option.map_map, Option.map_eq_some_iff] at h
        obtain ⟨pos, hpos, hidx⟩ := h
        obtain ⟨before, rest, htext, hlen, hfirst⟩ := (hfind pos).mp hpos
        have hbefore : idx.toList = before := by
          rw [← hidx]
          show (String.ofList (text.take pos)).toList = before
          rw [String.toList_ofList, htext, ← hlen, List.take_left]
        refine ⟨rest, by rw [hbefore, htext], ?_⟩
        intro idx' rest' h'
        rw [hbefore]
        exact hfirst idx' rest' (List.append_cancel_left h')
    · intro ⟨rest, h, hfirst⟩
      have htext := List.append_cancel_left h
      rw [if_neg (hlong htext), Option.map_map, Option.map_eq_some_iff]
      refine ⟨idx.toList.length, (hfind _).mpr ⟨idx.toList, rest, htext, rfl, ?_⟩, ?_⟩
      · intro before' rest' h'
        exact hfirst before' rest' (by rw [h'])
      · show String.ofList (text.take idx.toList.length) = idx
        rw [htext, List.take_left, String.ofList_toList]
  · rw [if_pos (Or.inr hlead)]
    constructor
    · intro h
      cases h
    · intro ⟨rest, h, _⟩
      rw [h] at hlead
      exact absurd rfl hlead

theorem index_railNames (fname idx : String) :
    railNames.index fname = some idx ↔ railNames.Spells fname idx := by
  unfold index Spells
  dsimp only
  constructor
  · intro h
    by_cases hno : fname.toList.length ≤ "rail_name_".toList.length ∨
        fname.toList.take "rail_name_".toList.length ≠ "rail_name_".toList
    · rw [if_pos hno] at h
      cases h
    · rw [if_neg hno] at h
      rw [not_or, not_le, not_not] at hno
      have hidx := Option.some.inj h
      refine ⟨?_, ?_⟩
      · intro hempty
        rw [← hidx] at hempty
        have hnil : fname.toList.drop "rail_name_".toList.length = [] := by
          rw [← String.toList_ofList (l := fname.toList.drop _), hempty]
          rfl
        rw [List.drop_eq_nil_iff] at hnil
        omega
      · have hsplit := List.take_append_drop "rail_name_".toList.length fname.toList
        rw [hno.2] at hsplit
        have hdigits : idx.toList = fname.toList.drop "rail_name_".toList.length := by
          rw [← hidx]
          exact String.toList_ofList
        rw [← String.toList_inj, String.toList_append, hdigits]
        exact hsplit.symm
  · intro ⟨hidx, hname⟩
    have hlist : fname.toList = "rail_name_".toList ++ idx.toList := by
      rw [hname, String.toList_append]
    have hlen : idx.toList ≠ [] := by
      intro hnil
      exact hidx (String.toList_inj.mp hnil)
    have hpos := List.length_pos_iff.mpr hlen
    rw [hlist, List.take_left, List.drop_left, List.length_append,
      if_neg (by rw [not_or, not_le, not_not]; exact ⟨by omega, rfl⟩), String.ofList_toList]

theorem index_eq_some {naming : Naming} {fname idx : String} :
    naming.index fname = some idx ↔ naming.Spells fname idx := by
  cases naming with
  | labels => exact index_labels fname idx
  | railNames => exact index_railNames fname idx

end Naming

/-! ### What the walk should find -/

namespace Tree
variable (tree : Tree)

/-- The directories two or three levels below a base. -/
inductive Scanned : String → Prop where
  | two {base device sub : String} : base ∈ bases → tree.Lists base device → isNoDevice device = false →
      tree.Lists (base ++ "/" ++ device) sub → isDots sub = false →
      Scanned (base ++ "/" ++ device ++ "/" ++ sub)
  | three {base device sub sub2 : String} : base ∈ bases → tree.Lists base device →
      isNoDevice device = false → tree.Lists (base ++ "/" ++ device) sub → isDots sub = false →
      tree.Lists (base ++ "/" ++ device ++ "/" ++ sub) sub2 → isDots sub2 = false →
      Scanned (base ++ "/" ++ device ++ "/" ++ sub ++ "/" ++ sub2)

/-- `l` is a file of the directory `path`, and its name spells its index. -/
structure LabelIn (path : String) (l : Label) : Prop where
  dir : l.dir = path
  lists : tree.Lists path l.fname
  spells : l.naming.Spells l.fname l.idx

/-- A label file in a directory that is looked into. -/
def IsLabel (l : Label) : Prop := tree.Scanned l.dir ∧ tree.LabelIn l.dir l

end Tree

/-- The file carries the name `key`, and there is something to measure beside it. -/
structure Label.Offers (l : Label) (tree : Tree) (key : String) : Prop where
  carries : tree.readSysfsString (l.dir ++ "/" ++ l.fname) = key
  named : key ≠ ""
  usable : l.usable tree = true

/-- `turn` adds a rail for each new key that a label file of `labels` offers, and no other. -/
structure Adds (tree : Tree) (labels : Label → Prop) (turn : Discovery → Discovery) : Prop where
  keys : ∀ d key, key ∈ (turn d).found ↔ key ∈ d.found ∨ ∃ l, labels l ∧ l.Offers tree key
  rails : ∀ d, ∀ rail ∈ (turn d).powerRails, rail ∈ d.powerRails ∨
    ∃ l, labels l ∧ l.Offers tree rail.key ∧ rail = l.rail tree rail.key

namespace Adds
variable {tree : Tree} {labels labels' : Label → Prop} {turn turn' : Discovery → Discovery}

theorem congr (h : Adds tree labels turn) (hsame : ∀ l, labels l ↔ labels' l) :
    Adds tree labels' turn := by
  obtain rfl : labels = labels' := funext fun l => propext (hsame l)
  exact h

theorem skip : Adds tree (fun _ => False) fun d => d where
  keys := by simp
  rails := fun _ _ hrail => Or.inl hrail

theorem comp (h : Adds tree labels turn) (h' : Adds tree labels' turn') :
    Adds tree (fun l => labels l ∨ labels' l) fun d => turn' (turn d) where
  keys := by
    intro d key
    rw [h'.keys, h.keys, or_assoc, ← exists_or]
    simp only [or_and_right]
  rails := by
    intro d rail hrail
    obtain hrail | ⟨l, hl, hoffers⟩ := h'.rails (turn d) rail hrail
    · obtain hrail | ⟨l, hl, hoffers⟩ := h.rails d rail hrail
      · exact Or.inl hrail
      · exact Or.inr ⟨l, Or.inl hl, hoffers⟩
    · exact Or.inr ⟨l, Or.inr hl, hoffers⟩

theorem guarded (h : Adds tree labels turn) (b : Bool) :
    Adds tree (fun l => b = false ∧ labels l) fun d => if b then d else turn d := by
  cases b with
  | false => exact h.congr fun l => by simp
  | true => exact skip.congr fun l => by simp

/-- A loop adds what its turns add. -/
theorem foldl {α : Type} {labels : α → Label → Prop} {turn : Discovery → α → Discovery}
    (h : ∀ x, Adds tree (labels x) fun d => turn d x) (xs : List α) :
    Adds tree (fun l => ∃ x ∈ xs, labels x l) fun d => xs.foldl turn d := by
  induction xs with
  | nil => exact skip.congr fun l => by simp
  | cons x xs ih => exact ((h x).comp ih).congr fun l => by rw [List.exists_mem_cons_iff]

/-- The order of `readdir` does not matter for what a directory adds. -/
theorem eachEntry {labels : String → Label → Prop} {turn : Discovery → String → Discovery}
    (h : ∀ name, Adds tree (labels name) fun d => turn d name) (readdir : Readdir) (pass : Pass)
    (path : String) :
    Adds tree (fun l => ∃ name, tree.Lists path name ∧ labels name l)
      (eachEntry tree readdir pass path turn) := by
  unfold JetsonSoCBackend.eachEntry Tree.Lists
  cases hentries : tree.entries path with
  | none => exact skip.congr fun l => by simp
  | some entries =>
    refine (foldl h (readdir.order pass path entries)).congr fun l => ?_
    simp only [(readdir.perm pass path entries).mem_iff, Option.some.injEq, exists_eq_left']

end Adds

theorem Discovery.mem_push (d : Discovery) (rail : PowerRail) (fresh : rail.key ∉ d.found) (key : String) :
    key ∈ (d.push rail fresh).found ↔ key ∈ d.found ∨ rail.key = key := by
  rw [Discovery.push, Std.ExtTreeSet.mem_insert, Std.LawfulEqOrd.compare_eq_iff_eq, or_comm]

/-- Either the file's rail is pushed, or the file offers no key that is new. -/
theorem discoverEntry_cases {tree : Tree} {l : Label} (hidx : l.naming.index l.fname = some l.idx)
    (d : Discovery) :
    (∃ rail fresh, discoverEntry tree l.naming l.dir d l.fname = d.push rail fresh ∧
      l.Offers tree rail.key ∧ rail = l.rail tree rail.key) ∨
    (discoverEntry tree l.naming l.dir d l.fname = d ∧ ∀ key, l.Offers tree key → key ∈ d.found) := by
  unfold discoverEntry
  rw [hidx]
  dsimp only
  by_cases hempty : (tree.readSysfsString (l.dir ++ "/" ++ l.fname)).isEmpty = true
  · rw [if_pos hempty]
    refine Or.inr ⟨rfl, fun key h => absurd ?_ h.named⟩
    rw [← h.carries]
    exact String.isEmpty_iff.mp hempty
  · have hnamed := fun h => hempty (String.isEmpty_iff.mpr h)
    rw [if_neg hempty]
    by_cases hfound : tree.readSysfsString (l.dir ++ "/" ++ l.fname) ∈ d.found
    · rw [dif_pos hfound]
      refine Or.inr ⟨rfl, fun key h => ?_⟩
      rw [← h.carries]
      exact hfound
    · rw [dif_neg hfound]
      by_cases hpower : tree.fileExists l.powerPath = true
      · have husable : l.usable tree = true := by rw [Label.usable, hpower, Bool.true_or]
        rw [if_pos hpower]
        exact Or.inl ⟨_, hfound, rfl, ⟨rfl, hnamed, husable⟩, by rw [Label.rail, if_pos hpower]⟩
      · rw [if_neg hpower]
        rw [Bool.not_eq_true] at hpower
        by_cases hpair : (tree.fileExists l.voltagePath && tree.fileExists l.currentPath) = true
        · have husable : l.usable tree = true := by rw [Label.usable, hpair, Bool.or_true]
          rw [if_pos hpair]
          refine Or.inl ⟨_, hfound, rfl, ⟨rfl, hnamed, husable⟩, ?_⟩
          rw [Label.rail, hpower, if_neg Bool.false_ne_true]
        · rw [if_neg hpair]
          refine Or.inr ⟨rfl, fun key h => absurd h.usable ?_⟩
          rw [Label.usable, hpower, Bool.false_or]
          exact hpair

theorem adds_label {tree : Tree} {l : Label} (hidx : l.naming.index l.fname = some l.idx) :
    Adds tree (fun l' => l' = l) fun d => discoverEntry tree l.naming l.dir d l.fname where
  keys := by
    intro d key
    simp only [exists_eq_left]
    obtain ⟨rail, fresh, hpush, hoffers, _⟩ | ⟨hsame, hold⟩ := discoverEntry_cases hidx d
    · have hkey : rail.key = key ↔ l.Offers tree key := by
        constructor
        · intro h
          rw [← h]
          exact hoffers
        · intro h
          exact hoffers.carries.symm.trans h.carries
      rw [hpush, Discovery.mem_push, hkey]
    · rw [hsame]
      exact (or_iff_left_of_imp (hold key)).symm
  rails := by
    intro d rail' hrail'
    obtain ⟨rail, fresh, hpush, hoffers, hrail⟩ | ⟨hsame, _⟩ := discoverEntry_cases hidx d
    · rw [hpush] at hrail'
      obtain hold | hnew := List.mem_append.mp hrail'
      · exact Or.inl hold
      · obtain rfl := List.mem_singleton.mp hnew
        exact Or.inr ⟨l, rfl, hoffers, hrail⟩
    · rw [hsame] at hrail'
      exact Or.inl hrail'

/-- A file adds at most its own rail: the one it offers, if its name spells an index. -/
theorem adds_discoverEntry (tree : Tree) (naming : Naming) (path fname : String) :
    Adds tree (fun l => l.naming = naming ∧ l.dir = path ∧ l.fname = fname ∧ naming.Spells fname l.idx)
      fun d => discoverEntry tree naming path d fname := by
  cases hidx : naming.index fname with
  | none =>
    have hskip : (fun d => discoverEntry tree naming path d fname) = fun d => d := by
      funext d
      rw [discoverEntry, hidx]
    rw [hskip]
    refine Adds.skip.congr fun l => ⟨False.elim, ?_⟩
    intro ⟨_, _, _, hspells⟩
    rw [Naming.index_eq_some.mpr hspells] at hidx
    cases hidx
  | some idx =>
    let l : Label := ⟨naming, path, fname, idx⟩
    have hown : ∀ l' : Label, l'.naming = naming ∧ l'.dir = path ∧ l'.fname = fname ∧
        naming.Spells fname l'.idx ↔ l' = l := by
      intro ⟨naming', path', fname', idx'⟩
      rw [← Naming.index_eq_some, hidx, Option.some.injEq]
      simp only [l, Label.mk.injEq, eq_comm]
    exact (adds_label (l := l) hidx).congr fun l' => (hown l').symm

section Walk
variable (tree : Tree) (readdir : Readdir)

/-- The files of one kind in a directory. -/
theorem adds_files (naming : Naming) (pass : Pass) (path : String) :
    Adds tree (fun l => l.naming = naming ∧ tree.LabelIn path l)
      (eachEntry tree readdir pass path (discoverEntry tree naming path)) := by
  refine (Adds.eachEntry (adds_discoverEntry tree naming path) readdir pass path).congr fun l => ?_
  constructor
  · intro ⟨name, hlists, hnaming, hdir, hname, hspells⟩
    subst hnaming hname
    exact ⟨rfl, hdir, hlists, hspells⟩
  · intro ⟨hnaming, hdir, hlists, hspells⟩
    subst hnaming
    exact ⟨l.fname, hlists, rfl, hdir, rfl, hspells⟩

theorem adds_discoverFromDir (path : String) :
    Adds tree (tree.LabelIn path) (discoverFromDir tree readdir path) := by
  have hlabels := adds_files tree readdir .labels .labels path
  have hrailNames := adds_files tree readdir .railNames .railNames path
  refine (hlabels.comp hrailNames).congr fun l => ?_
  rw [← or_and_right, and_iff_right]
  cases l.naming with
  | labels => exact Or.inl rfl
  | railNames => exact Or.inr rfl

theorem adds_discoverSub (devicePath subName : String) :
    Adds tree (fun l => isDots subName = false ∧ (tree.LabelIn (devicePath ++ "/" ++ subName) l ∨
        ∃ sub2Name, tree.Lists (devicePath ++ "/" ++ subName) sub2Name ∧ isDots sub2Name = false ∧
          tree.LabelIn (devicePath ++ "/" ++ subName ++ "/" ++ sub2Name) l))
      fun d => discoverSub tree readdir devicePath d subName := by
  have hbelow := Adds.eachEntry (fun sub2Name =>
    (adds_discoverFromDir tree readdir (devicePath ++ "/" ++ subName ++ "/" ++ sub2Name)).guarded
      (isDots sub2Name)) readdir .walk (devicePath ++ "/" ++ subName)
  exact ((adds_discoverFromDir tree readdir (devicePath ++ "/" ++ subName)).comp hbelow).guarded _

theorem adds_discoverDevice (base deviceName : String) :
    Adds tree (fun l => isNoDevice deviceName = false ∧ ∃ subName,
        tree.Lists (base ++ "/" ++ deviceName) subName ∧ isDots subName = false ∧
          (tree.LabelIn (base ++ "/" ++ deviceName ++ "/" ++ subName) l ∨ ∃ sub2Name,
            tree.Lists (base ++ "/" ++ deviceName ++ "/" ++ subName) sub2Name ∧ isDots sub2Name = false ∧
              tree.LabelIn (base ++ "/" ++ deviceName ++ "/" ++ subName ++ "/" ++ sub2Name) l))
      fun d => discoverDevice tree readdir base d deviceName :=
  (Adds.eachEntry (adds_discoverSub tree readdir (base ++ "/" ++ deviceName)) readdir .walk _).guarded _

/-- The whole walk adds the rails of the label files. -/
theorem adds_discover :
    Adds tree tree.IsLabel fun d => bases.foldl (fun d base =>
      eachEntry tree readdir .walk base (discoverDevice tree readdir base) d) d := by
  refine (Adds.foldl (fun base =>
    Adds.eachEntry (adds_discoverDevice tree readdir base) readdir .walk base) bases).congr fun l => ?_
  constructor
  · intro ⟨base, hbase, device, hdevice, hisDevice, sub, hsub, hdots, h⟩
    unfold Tree.IsLabel
    obtain h | ⟨sub2, hsub2, hdots2, h⟩ := h
    · rw [h.dir]
      exact ⟨.two hbase hdevice hisDevice hsub hdots, h⟩
    · rw [h.dir]
      exact ⟨.three hbase hdevice hisDevice hsub hdots hsub2 hdots2, h⟩
  · intro ⟨hscanned, h⟩
    generalize l.dir = path at hscanned h
    cases hscanned with
    | two hbase hdevice hisDevice hsub hdots =>
      exact ⟨_, hbase, _, hdevice, hisDevice, _, hsub, hdots, Or.inl h⟩
    | three hbase hdevice hisDevice hsub hdots hsub2 hdots2 =>
      exact ⟨_, hbase, _, hdevice, hisDevice, _, hsub, hdots, Or.inr ⟨_, hsub2, hdots2, h⟩⟩

theorem mem_discover (key : String) :
    key ∈ (discoverPowerRails tree readdir).map PowerRail.key ↔
      ∃ l, tree.IsLabel l ∧ l.Offers tree key := by
  have hfound := (adds_discover tree readdir).keys .empty key
  rw [Discovery.empty, or_iff_right Std.ExtTreeSet.not_mem_empty] at hfound
  rw [List.mem_map, ← hfound]
  exact ((discover tree readdir).mem_found key).symm

end Walk

/-- One device whose rail has a label file of each kind: only the second has a power file. -/
def sampleTree : Tree where
  entries path :=
    if path = "/sys/bus/i2c/drivers/ina3221" then some [".", "..", "bind", "1-0040"]
    else if path = "/sys/bus/i2c/drivers/ina3221/1-0040" then some ["iio"]
    else if path = "/sys/bus/i2c/drivers/ina3221/1-0040/iio" then some ["in1_label", "rail_name_0"]
    else none
  fileExists path := path == "/sys/bus/i2c/drivers/ina3221/1-0040/iio/in_power0_input"
  text _ := some "VDD_IN \n"

example : discoverPowerRails sampleTree ⟨fun _ _ entries => entries, fun _ _ _ => .refl _⟩ =
    [⟨"VDD_IN", .directPower, "/sys/bus/i2c/drivers/ina3221/1-0040/iio/in_power0_input", "", ""⟩] := by
  decide +kernel

end JetsonSoCBackend

end ZeusPower.Device
