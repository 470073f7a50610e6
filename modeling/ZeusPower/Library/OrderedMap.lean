import Mathlib.Algebra.BigOperators.Group.List.Basic
import Mathlib.Data.List.Nodup
import Mathlib.Data.List.Perm.Basic

/-! Ordered maps and the loops that fill them.

Two loops cover what programs do with `std::map`: writing every entry of one map
over another (`overwrite`), and visiting a list and writing at most one entry at
each turn, any turn being allowed to fail (`writeEach`). What a key holds after
such a loop is what the last turn that wrote it wrote. `total` adds up the values
of a map in key order, and `Related` compares two maps key by key. -/
namespace ZeusPower.Library

abbrev Map (κ ν : Type) [Ord κ] := Std.ExtTreeMap κ ν compare

namespace Map
variable {κ μ ν ε ι : Type} [Ord κ] [Std.TransOrd κ] [Std.LawfulEqOrd κ]

theorem lookup_insert [DecidableEq κ] (m : Map κ ν) (k a : κ) (v : ν) :
    (m.insert k v)[a]? = if k = a then some v else m[a]? := by
  rw [Std.ExtTreeMap.getElem?_insert]
  simp only [Std.LawfulEqOrd.compare_eq_iff_eq]

theorem lookup_insert_ne (m : Map κ ν) {k a : κ} (v : ν) (h : k ≠ a) :
    (m.insert k v)[a]? = m[a]? := by
  classical
  rw [lookup_insert, if_neg h]

theorem lookup_erase [DecidableEq κ] (m : Map κ ν) (k a : κ) :
    (m.erase k)[a]? = if k = a then none else m[a]? := by
  rw [Std.ExtTreeMap.getElem?_erase]
  simp only [Std.LawfulEqOrd.compare_eq_iff_eq]

omit [Std.LawfulEqOrd κ] in
theorem mem_iff_lookup (m : Map κ ν) (k : κ) : k ∈ m ↔ ∃ v, m[k]? = some v := by
  rw [Std.ExtTreeMap.mem_iff_isSome_getElem?, Option.isSome_iff_exists]

omit [Std.LawfulEqOrd κ] in
theorem not_mem_iff_lookup (m : Map κ ν) (k : κ) : k ∉ m ↔ m[k]? = none := by
  rw [Std.ExtTreeMap.mem_iff_isSome_getElem?, Option.not_isSome_iff_eq_none]

/-- `m[k]` on a key that is there inserts nothing. -/
theorem insertIfNew_of_mem {m : Map κ ν} {k : κ} (v : ν) (h : k ∈ m) : m.insertIfNew k v = m := by
  apply Std.ExtTreeMap.ext_getElem?
  intro a
  rw [Std.ExtTreeMap.getElem?_insertIfNew, if_neg (fun hk => hk.2 h)]

/-- A key is given the value it has. -/
theorem insert_self {m : Map κ ν} {k : κ} {v : ν} (h : m[k]? = some v) : m.insert k v = m := by
  classical
  apply Std.ExtTreeMap.ext_getElem?
  intro a
  rw [lookup_insert]
  split
  · next heq => rw [← heq, h]
  · rfl

theorem nodup_keys (m : Map κ ν) : (m.toList.map Prod.fst).Nodup := by
  refine List.pairwise_map.mpr (m.distinct_keys_toList.imp ?_)
  intro a b h he
  exact h (Std.LawfulEqOrd.compare_eq_iff_eq.mpr he)

/-! ### Writing one map over another -/

/-- `for (kv : src) if (!skip(kv.first)) dst[kv.first] = g(kv.first, kv.second)`. -/
def overwriteUnless (skip : κ → Prop) [DecidablePred skip] (g : κ → μ → ν) (dst : Map κ ν)
    (src : Map κ μ) : Map κ ν :=
  src.foldl (fun d k v => if skip k then d else d.insert k (g k v)) dst

/-- `for (kv : src) dst[kv.first] = g(kv.first, kv.second)`. -/
def overwrite (g : κ → μ → ν) (dst : Map κ ν) (src : Map κ μ) : Map κ ν :=
  src.foldl (fun d k v => d.insert k (g k v)) dst

section Overwrite
variable (skip : κ → Prop) [DecidablePred skip] (g : κ → μ → ν)

private theorem foldl_insert_skip (l : List (κ × μ)) (d : Map κ ν) {k : κ}
    (h : skip k ∨ k ∉ l.map Prod.fst) :
    (l.foldl (fun d b => if skip b.1 then d else d.insert b.1 (g b.1 b.2)) d)[k]? = d[k]? := by
  induction l generalizing d with
  | nil => rfl
  | cons b rest ih =>
    have hrest : skip k ∨ k ∉ rest.map Prod.fst :=
      h.imp_right fun hk hm => hk (List.mem_cons_of_mem _ hm)
    rw [List.foldl_cons, ih _ hrest]
    by_cases hb : skip b.1
    · rw [if_pos hb]
    · have hne : b.1 ≠ k := by
        intro he
        rcases h with h | h
        · exact hb (he ▸ h)
        · exact h (he ▸ List.mem_cons_self)
      rw [if_neg hb, lookup_insert_ne _ _ hne]

private theorem foldl_insert_write (l : List (κ × μ)) (d : Map κ ν)
    (hn : (l.map Prod.fst).Nodup) {k : κ} {v : μ} (h : (k, v) ∈ l) (hk : ¬ skip k) :
    (l.foldl (fun d b => if skip b.1 then d else d.insert b.1 (g b.1 b.2)) d)[k]? =
      some (g k v) := by
  induction l generalizing d with
  | nil => cases h
  | cons b rest ih =>
    rw [List.map_cons, List.nodup_cons] at hn
    rcases List.mem_cons.mp h with rfl | h
    · rw [List.foldl_cons, if_neg hk, foldl_insert_skip skip g rest _ (Or.inr hn.1),
        Std.ExtTreeMap.getElem?_insert_self]
    · exact ih _ hn.2 h

theorem lookup_overwriteUnless (dst : Map κ ν) (src : Map κ μ) (k : κ) :
    (overwriteUnless skip g dst src)[k]? =
      (if skip k then none else src[k]?.map (g k)).or dst[k]? := by
  rw [overwriteUnless, Std.ExtTreeMap.foldl_eq_foldl_toList]
  by_cases hskip : skip k
  · rw [if_pos hskip]
    exact foldl_insert_skip skip g _ _ (Or.inl hskip)
  · rw [if_neg hskip]
    cases hk : src[k]? with
    | none =>
      apply foldl_insert_skip skip g
      right
      intro hm
      obtain ⟨⟨k', v⟩, hkv, rfl⟩ := List.mem_map.mp hm
      rw [Std.ExtTreeMap.mem_toList_iff_getElem?_eq_some, hk] at hkv
      cases hkv
    | some v =>
      exact foldl_insert_write skip g _ _ (nodup_keys src)
        (Std.ExtTreeMap.mem_toList_iff_getElem?_eq_some.mpr hk) hskip

end Overwrite

theorem lookup_overwrite (g : κ → μ → ν) (dst : Map κ ν) (src : Map κ μ) (k : κ) :
    (overwrite g dst src)[k]? = (src[k]?.map (g k)).or dst[k]? := by
  show (overwriteUnless (fun _ => False) g dst src)[k]? = _
  rw [lookup_overwriteUnless, if_neg not_false]

/-- Over an empty map only the source's entries are there. -/
theorem lookup_overwrite_empty (g : κ → μ → ν) (src : Map κ μ) (k : κ) :
    (overwrite g ∅ src)[k]? = src[k]?.map (g k) := by
  rw [lookup_overwrite, Std.ExtTreeMap.getElem?_empty, Option.or_none]

theorem mem_overwrite (g : κ → μ → ν) (dst : Map κ ν) (src : Map κ μ) (k : κ) :
    k ∈ overwrite g dst src ↔ k ∈ src ∨ k ∈ dst := by
  simp only [Std.ExtTreeMap.mem_iff_isSome_getElem?, lookup_overwrite]
  cases src[k]? <;> simp

/-- Copying a map into an empty one gives the map. -/
theorem overwrite_copy (m : Map κ ν) : overwrite (fun _ v => v) ∅ m = m := by
  refine Std.ExtTreeMap.ext_getElem? fun k => ?_
  rw [lookup_overwrite_empty, Option.map_id']

/-! ### Loops that write at most one entry a turn -/

/-- Visit `xs` in order; a turn fails, writes its key, or leaves the map alone. -/
def writeEach (key : ι → κ) (f : ι → Except ε (Option ν)) (m : Map κ ν) (xs : List ι) :
    Except ε (Map κ ν) :=
  xs.foldlM (fun m x => do
    match ← f x with
    | some v => pure (m.insert (key x) v)
    | none => pure m) m

section WriteEach
variable (key : ι → κ) (f : ι → Except ε (Option ν))

omit [Std.LawfulEqOrd κ] in
theorem writeEach_cons (m : Map κ ν) (x : ι) (xs : List ι) :
    writeEach key f m (x :: xs) =
      match f x with
      | .error e => .error e
      | .ok none => writeEach key f m xs
      | .ok (some v) => writeEach key f (m.insert (key x) v) xs := by
  rw [writeEach, List.foldlM_cons]
  rcases f x with e | _ | v <;> rfl

omit [Std.LawfulEqOrd κ] in
/-- The loop completes exactly when every turn does. -/
theorem writeEach_ok_iff (m : Map κ ν) (xs : List ι) :
    (∃ m', writeEach key f m xs = .ok m') ↔ ∀ x ∈ xs, ∃ r, f x = .ok r := by
  induction xs generalizing m with
  | nil => exact ⟨fun _ x hx => absurd hx List.not_mem_nil, fun _ => ⟨m, rfl⟩⟩
  | cons x xs ih =>
    rw [writeEach_cons, List.forall_mem_cons]
    rcases f x with e | _ | v
    · simp
    · simpa using ih m
    · simpa using ih (m.insert (key x) v)

omit [Std.LawfulEqOrd κ] in
/-- The loop's failure is the failure of one of its turns. -/
theorem writeEach_error {m : Map κ ν} {xs : List ι} {e : ε} (h : writeEach key f m xs = .error e) :
    ∃ x ∈ xs, f x = .error e := by
  induction xs generalizing m with
  | nil => cases h
  | cons x xs ih =>
    rw [writeEach_cons] at h
    rcases hx : f x with e' | _ | v <;> rw [hx] at h
    · cases h
      exact ⟨x, List.mem_cons_self, hx⟩
    · obtain ⟨y, hy, hfy⟩ := ih h
      exact ⟨y, List.mem_cons_of_mem _ hy, hfy⟩
    · obtain ⟨y, hy, hfy⟩ := ih h
      exact ⟨y, List.mem_cons_of_mem _ hy, hfy⟩

/-- A key no turn writes is left alone. -/
theorem lookup_writeEach_skip {m m' : Map κ ν} {xs : List ι} (h : writeEach key f m xs = .ok m')
    {k : κ} (hk : ∀ x ∈ xs, key x = k → ∀ v, f x ≠ .ok (some v)) : m'[k]? = m[k]? := by
  induction xs generalizing m with
  | nil => cases h; rfl
  | cons x xs ih =>
    rw [writeEach_cons] at h
    have hrest := fun y hy => hk y (List.mem_cons_of_mem x hy)
    rcases hx : f x with e | _ | v <;> rw [hx] at h
    · cases h
    · exact ih h hrest
    · have hne : key x ≠ k := fun he => hk x List.mem_cons_self he v hx
      rw [ih h hrest, lookup_insert_ne _ _ hne]

/-- A key holds what the last turn that wrote it wrote. -/
theorem lookup_writeEach {m m' : Map κ ν} {pre post : List ι} {x : ι} {v : ν}
    (h : writeEach key f m (pre ++ x :: post) = .ok m') (hx : f x = .ok (some v))
    (hpost : ∀ y ∈ post, key y = key x → ∀ w, f y ≠ .ok (some w)) : m'[key x]? = some v := by
  induction pre generalizing m with
  | nil =>
    rw [List.nil_append, writeEach_cons, hx] at h
    rw [lookup_writeEach_skip key f h hpost, Std.ExtTreeMap.getElem?_insert_self]
  | cons y pre ih =>
    rw [List.cons_append, writeEach_cons] at h
    rcases hy : f y with e | _ | w <;> rw [hy] at h
    · cases h
    · exact ih h
    · exact ih h

theorem mem_writeEach {m m' : Map κ ν} {xs : List ι} (h : writeEach key f m xs = .ok m') (k : κ) :
    k ∈ m' ↔ k ∈ m ∨ ∃ x ∈ xs, key x = k ∧ ∃ v, f x = .ok (some v) := by
  induction xs generalizing m with
  | nil => cases h; simp
  | cons x xs ih =>
    rw [writeEach_cons] at h
    rcases hx : f x with e | _ | v <;> rw [hx] at h
    · cases h
    · simp [ih h, hx]
    · rw [ih h, Std.ExtTreeMap.mem_insert, Std.LawfulEqOrd.compare_eq_iff_eq]
      simp only [List.mem_cons, exists_eq_or_imp, hx, Except.ok.injEq, Option.some.injEq,
        exists_eq', and_true]
      tauto

/-- A loop over keys whose turns depend on the key alone: a key it visits holds what its
turn writes. -/
theorem lookup_writeEach_of_mem {f : κ → Except ε (Option ν)} {m m' : Map κ ν} {keys : List κ}
    (h : writeEach id f m keys = .ok m') {k : κ} {v : ν} (hk : k ∈ keys) (hv : f k = .ok (some v)) :
    m'[k]? = some v := by
  induction keys generalizing m with
  | nil => cases hk
  | cons x keys ih =>
    by_cases hlater : k ∈ keys
    · rw [writeEach_cons] at h
      rcases hx : f x with e | _ | w <;> rw [hx] at h
      · cases h
      · exact ih h hlater
      · exact ih h hlater
    · obtain rfl : k = x := (List.mem_cons.mp hk).resolve_right hlater
      have hrest : ∀ y ∈ keys, id y = id k → ∀ w, f y ≠ .ok (some w) := by
        intro y hy hsame
        obtain rfl : y = k := hsame
        exact absurd hy hlater
      exact lookup_writeEach id f (show writeEach id f m ([] ++ k :: keys) = .ok m' from h) hv hrest

omit [Std.LawfulEqOrd κ] in
/-- Turns that depend on their key alone. -/
theorem writeEach_key {f : ι → Except ε (Option ν)} {f' : κ → Except ε (Option ν)} {m : Map κ ν}
    {xs : List ι} (h : ∀ x ∈ xs, f x = f' (key x)) :
    writeEach key f m xs = writeEach id f' m (xs.map key) := by
  induction xs generalizing m with
  | nil => rfl
  | cons x xs ih =>
    have hrest := fun y hy => h y (List.mem_cons_of_mem x hy)
    rw [List.map_cons, writeEach_cons, writeEach_cons, h x List.mem_cons_self]
    cases f' (key x) with
    | error e => rfl
    | ok r =>
      cases r with
      | none => exact ih hrest
      | some v => exact ih hrest

/-- Such a loop reads and writes the same whatever the order and the repetitions of its keys. -/
theorem toOption_writeEach {f f' : κ → Except ε (Option ν)} {xs ys : List κ} (hkeys : ∀ k, k ∈ xs ↔ k ∈ ys)
    (h : ∀ k ∈ xs, f k = f' k) :
    (writeEach id f (∅ : Map κ ν) xs).toOption = (writeEach id f' (∅ : Map κ ν) ys).toOption := by
  have hcompletes : (∃ m, writeEach id f (∅ : Map κ ν) xs = .ok m) ↔
      ∃ m, writeEach id f' (∅ : Map κ ν) ys = .ok m := by
    rw [writeEach_ok_iff, writeEach_ok_iff]
    constructor
    · intro hx k hk
      have hk' := (hkeys k).mpr hk
      exact h k hk' ▸ hx k hk'
    · intro hy k hk
      exact h k hk ▸ hy k ((hkeys k).mp hk)
  cases hx : writeEach id f (∅ : Map κ ν) xs with
  | error e =>
    cases hy : writeEach id f' (∅ : Map κ ν) ys with
    | error e' => rfl
    | ok m' =>
      obtain ⟨m, hm⟩ := hcompletes.mpr ⟨m', hy⟩
      rw [hx] at hm
      cases hm
  | ok m =>
    obtain ⟨m', hy⟩ := hcompletes.mp ⟨m, hx⟩
    rw [hy]
    -- Each key holds what its turn writes, if it is visited at all.
    refine congrArg some (Std.ExtTreeMap.ext_getElem? fun k => ?_)
    by_cases hwrites : k ∈ xs ∧ ∃ v, f k = .ok (some v)
    · obtain ⟨hk, v, hv⟩ := hwrites
      rw [lookup_writeEach_of_mem hx hk hv, lookup_writeEach_of_mem hy ((hkeys k).mp hk) (h k hk ▸ hv)]
    · have hskip : ∀ k' ∈ xs, k' = k → ∀ v, f k' ≠ .ok (some v) := by
        intro k' hk' hsame v hv
        exact hwrites (hsame ▸ ⟨hk', v, hv⟩)
      rw [lookup_writeEach_skip id f hx hskip, lookup_writeEach_skip id f' hy]
      intro k' hk' hsame v hv
      have hk := (hkeys k').mpr hk'
      exact hskip k' hk hsame v ((h k' hk).trans hv)

end WriteEach

/-! ### Loops that cannot fail -/

/-- `for (k : keys) m[k] = f(k)`, where `f` may also leave the key out. -/
def fill (f : κ → Option ν) (m : Map κ ν) (keys : List κ) : Map κ ν :=
  keys.foldl (fun m k => match f k with
    | some v => m.insert k v
    | none => m) m

theorem lookup_fill [DecidableEq κ] (f : κ → Option ν) (m : Map κ ν) (keys : List κ) (k : κ) :
    (fill f m keys)[k]? = if k ∈ keys then (f k).or m[k]? else m[k]? := by
  induction keys generalizing m with
  | nil => rfl
  | cons x keys ih =>
    show (fill f (match f x with
      | some v => m.insert x v
      | none => m) keys)[k]? = _
    rw [ih]
    by_cases hx : x = k
    · subst hx
      cases hf : f x with
      | none => simp
      | some v => simp
    · have hskip : (match f x with
          | some v => m.insert x v
          | none => m)[k]? = m[k]? := by
        cases f x with
        | none => rfl
        | some v => exact lookup_insert_ne m v hx
      simp only [hskip, List.mem_cons, Ne.symm hx, false_or]

/-! ### Two maps side by side -/

/-- The same keys, and related values under each. -/
def Related (R : ν → μ → Prop) (m : Map κ ν) (m' : Map κ μ) : Prop :=
  ∀ k : κ, Option.Rel R m[k]? m'[k]?

namespace Related
variable {R : ν → μ → Prop} {m : Map κ ν} {m' : Map κ μ}

omit [Std.LawfulEqOrd κ] in
theorem empty : Related R (∅ : Map κ ν) (∅ : Map κ μ) := by
  intro k
  rw [Std.ExtTreeMap.getElem?_empty, Std.ExtTreeMap.getElem?_empty]
  exact Option.Rel.none

omit [Std.LawfulEqOrd κ] in
theorem lookup (h : Related R m m') (k : κ) : (m[k]? = none ∧ m'[k]? = none) ∨
    ∃ v v', m[k]? = some v ∧ m'[k]? = some v' ∧ R v v' := by
  have hk := h k
  generalize m[k]? = left, m'[k]? = right at hk
  cases hk with
  | none => exact Or.inl ⟨rfl, rfl⟩
  | some hv => exact Or.inr ⟨_, _, rfl, rfl, hv⟩

omit [Std.LawfulEqOrd κ] in
theorem mem_iff (h : Related R m m') (k : κ) : k ∈ m ↔ k ∈ m' := by
  rw [mem_iff_lookup, mem_iff_lookup]
  rcases h.lookup k with ⟨hm, hm'⟩ | ⟨v, v', hm, hm', -⟩
  · simp [hm, hm']
  · simp [hm, hm']

theorem insert [DecidableEq κ] (h : Related R m m') (k : κ) {v : ν} {v' : μ} (hv : R v v') :
    Related R (m.insert k v) (m'.insert k v') := by
  intro a
  rw [lookup_insert, lookup_insert]
  by_cases ha : k = a
  · rw [if_pos ha, if_pos ha]
    exact Option.Rel.some hv
  · rw [if_neg ha, if_neg ha]
    exact h a

theorem erase [DecidableEq κ] (h : Related R m m') (k : κ) : Related R (m.erase k) (m'.erase k) := by
  intro a
  rw [lookup_erase, lookup_erase]
  by_cases ha : k = a
  · rw [if_pos ha, if_pos ha]
    exact Option.Rel.none
  · rw [if_neg ha, if_neg ha]
    exact h a

end Related

/-! ### The values -/

/-- A map whose keys are listed once in `l` has the values over `l`. -/
theorem values_perm (m : Map κ ν) {l : List κ} (hl : l.Nodup) (f : κ → ν)
    (hin : ∀ k ∈ l, m[k]? = some (f k)) (hout : ∀ k, k ∉ l → m[k]? = none) :
    (m.toList.map Prod.snd).Perm (l.map f) := by
  have hperm : m.toList.Perm (l.map fun k => (k, f k)) := by
    refine (List.perm_ext_iff_of_nodup (nodup_keys m).of_map ?_).mpr ?_
    · exact List.Nodup.of_map Prod.fst (by simpa [List.map_map, Function.comp_def] using hl)
    · intro ⟨k, v⟩
      rw [Std.ExtTreeMap.mem_toList_iff_getElem?_eq_some]
      by_cases hk : k ∈ l
      · rw [hin k hk]
        aesop
      · rw [hout k hk]
        aesop
  have hvalues := hperm.map Prod.snd
  rwa [List.map_map] at hvalues

end Map

end ZeusPower.Library
