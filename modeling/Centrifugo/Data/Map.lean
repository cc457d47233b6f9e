import Mathlib.Data.List.AList

/-!
# Finite maps

A finite map is an association list without repeated keys. Two operations are
added to Mathlib's: changing the entry of one key, which may create or drop it, and
keeping the entries that a function rewrites.
-/

/-- A finite map with values of one type. -/
abbrev Map (κ : Type*) (ν : Type*) := AList fun _ : κ => ν

namespace Map

variable {κ ν : Type*} [DecidableEq κ]

theorem lookup_insert_eq (key other : κ) (value : ν) (m : Map κ ν) :
    (m.insert key value).lookup other = if other = key then some value else m.lookup other := by
  by_cases h : other = key
  · subst h
    rw [if_pos rfl, AList.lookup_insert]
  · rw [if_neg h, AList.lookup_insert_ne h]

theorem lookup_erase_eq (key other : κ) (m : Map κ ν) :
    (m.erase key).lookup other = if other = key then none else m.lookup other := by
  by_cases h : other = key
  · subst h
    rw [if_pos rfl, AList.lookup_erase]
  · rw [if_neg h, AList.lookup_erase_ne h]

theorem lookup_foldl_erase (keys : List κ) (m : Map κ ν) (other : κ) :
    (keys.foldl (fun (left : Map κ ν) key => left.erase key) m).lookup other =
      if other ∈ keys then none else m.lookup other := by
  induction keys generalizing m with
  | nil => rfl
  | cons key keys ih =>
      rw [List.foldl_cons, ih, lookup_erase_eq]
      by_cases same : other = key
      · simp [same]
      · simp [same]

theorem foldl_erase_empty (keys : List κ) :
    keys.foldl (fun (left : Map κ ν) key => left.erase key) ∅ = ∅ := by
  induction keys with
  | nil => rfl
  | cons key keys ih => exact ih

/-- Replace the entry of `key` by what `change` makes of it. -/
def alter (key : κ) (change : Option ν → Option ν) (m : Map κ ν) : Map κ ν :=
  match change (m.lookup key) with
  | some value => m.insert key value
  | none => m.erase key

theorem lookup_alter (key other : κ) (change : Option ν → Option ν) (m : Map κ ν) :
    (m.alter key change).lookup other =
      if other = key then change (m.lookup key) else m.lookup other := by
  unfold alter
  cases change (m.lookup key) with
  | none => exact lookup_erase_eq key other m
  | some value => exact lookup_insert_eq key other value m

@[simp] theorem lookup_alter_self (key : κ) (change : Option ν → Option ν) (m : Map κ ν) :
    (m.alter key change).lookup key = change (m.lookup key) := by
  simp [lookup_alter]

theorem lookup_alter_ne {key other : κ} (h : other ≠ key) (change : Option ν → Option ν)
    (m : Map κ ν) : (m.alter key change).lookup other = m.lookup other := by
  simp [lookup_alter, h]

/-- The entries as pairs, in the order of the list. -/
def toPairs (m : Map κ ν) : List (κ × ν) := m.entries.map fun entry => (entry.1, entry.2)

theorem mem_toPairs {m : Map κ ν} {pair : κ × ν} :
    pair ∈ m.toPairs ↔ m.lookup pair.1 = some pair.2 := by
  rw [toPairs, List.mem_map]
  constructor
  · intro h
    obtain ⟨entry, mem, rfl⟩ := h
    exact AList.mem_lookup_iff.mpr mem
  · intro h
    exact ⟨⟨pair.1, pair.2⟩, AList.mem_lookup_iff.mp h, rfl⟩

/-- Keep the entries for which `f` gives a new value. -/
def filterMap {ν' : Type*} (f : ν → Option ν') (m : Map κ ν) : Map κ ν' where
  entries := m.entries.filterMap fun entry => (f entry.2).map fun value => ⟨entry.1, value⟩
  nodupKeys := by
    refine List.Nodup.sublist ?_ m.nodupKeys
    simp only [List.keys]
    induction m.entries with
    | nil => exact .slnil
    | cons entry entries ih =>
        cases kept : f entry.2 with
        | none => simpa [List.filterMap_cons, kept] using ih.trans (List.sublist_cons_self _ _)
        | some value => simpa [List.filterMap_cons, kept] using ih.cons_cons entry.1

/-- Looking a key up among kept entries, on the lists. -/
private theorem dlookup_filterMap {ν' : Type*} (f : ν → Option ν')
    (entries : List (Sigma fun _ : κ => ν)) (nodup : entries.NodupKeys) (key : κ) :
    (List.dlookup key (entries.filterMap fun entry =>
      (f entry.2).map fun value => (⟨entry.1, value⟩ : Sigma fun _ : κ => ν')) : Option ν') =
      (List.dlookup key entries : Option ν).bind f := by
  induction entries with
  | nil => rfl
  | cons entry entries ih =>
      obtain ⟨fresh, rest⟩ := List.nodupKeys_cons.mp nodup
      have others := ih rest
      by_cases same : key = entry.1
      · subst same
        rw [List.dlookup_cons_eq, Option.bind_some, List.filterMap_cons]
        cases kept : f entry.2 with
        | none =>
            have absent : List.dlookup entry.1 entries = none := List.dlookup_eq_none.mpr fresh
            rw [absent] at others
            exact others
        | some value => exact List.dlookup_cons_eq _ _ _
      · rw [List.dlookup_cons_ne _ _ same, List.filterMap_cons, ← others]
        cases kept : f entry.2 with
        | none => rfl
        | some value => exact List.dlookup_cons_ne _ _ same

theorem lookup_filterMap {ν' : Type*} (f : ν → Option ν') (m : Map κ ν) (key : κ) :
    (m.filterMap f).lookup key = (m.lookup key).bind f :=
  dlookup_filterMap f m.entries m.nodupKeys key

/-- The entries that meet a condition. -/
def retain (keep : κ → ν → Bool) (m : Map κ ν) : Map κ ν where
  entries := m.entries.filter fun entry => keep entry.1 entry.2
  nodupKeys := m.nodupKeys.sublist List.filter_sublist

theorem lookup_retain (keep : κ → ν → Bool) (m : Map κ ν) (key : κ) :
    (m.retain keep).lookup key = (m.lookup key).filter (keep key) := by
  refine Option.ext fun value => ?_
  rw [Option.filter_eq_some_iff, ← Option.mem_def, ← Option.mem_def, AList.mem_lookup_iff,
    AList.mem_lookup_iff]
  exact List.mem_filter

/-- The kept entries put into another map one after the other. -/
theorem lookup_foldl_insert {ν' : Type*} (f : ν → Option ν') (m : Map κ ν) (key : κ) :
    (m.toPairs.foldl (fun (out : Map κ ν') pair =>
      match f pair.2 with
      | some value => out.insert pair.1 value
      | none => out) ∅).lookup key = (m.lookup key).bind f := by
  -- no key that is still to come is in the map so far
  suffices ∀ (entries : List (Sigma fun _ : κ => ν)) (out : Map κ ν'), entries.NodupKeys →
      (∀ entry ∈ entries, out.lookup entry.1 = none) →
      ((entries.map fun entry => (entry.1, entry.2)).foldl (fun (out : Map κ ν') pair =>
        match f pair.2 with
        | some value => out.insert pair.1 value
        | none => out) out).lookup key =
        ((List.dlookup key entries : Option ν).bind f).or (out.lookup key) by
    have whole := this m.entries ∅ m.nodupKeys fun _ _ => rfl
    rw [toPairs, whole]
    exact Option.or_none
  intro entries
  induction entries with
  | nil =>
      intro out _ _
      rfl
  | cons entry entries ih =>
      intro out nodup fresh
      obtain ⟨apart, rest⟩ := List.nodupKeys_cons.mp nodup
      have absent : (List.dlookup entry.1 entries : Option ν) = none :=
        List.dlookup_eq_none.mpr apart
      have others : ∀ other ∈ entries, other.1 ≠ entry.1 := by
        intro other mem same
        exact apart (same ▸ List.mem_map_of_mem mem)
      rw [List.map_cons, List.foldl_cons]
      cases kept : f entry.2 with
      | none =>
          rw [ih out rest fun other mem => fresh other (List.mem_cons_of_mem _ mem)]
          by_cases same : key = entry.1
          · subst same
            rw [absent, List.dlookup_cons_eq, Option.bind_some, kept]
            rfl
          · rw [List.dlookup_cons_ne _ _ same]
      | some value =>
          have fresh' : ∀ other ∈ entries, (out.insert entry.1 value).lookup other.1 = none := by
            intro other mem
            rw [AList.lookup_insert_ne (others other mem)]
            exact fresh other (List.mem_cons_of_mem _ mem)
          rw [ih _ rest fresh']
          by_cases same : key = entry.1
          · subst same
            rw [absent, List.dlookup_cons_eq, AList.lookup_insert, Option.bind_some, kept]
            rfl
          · rw [List.dlookup_cons_ne _ _ same, AList.lookup_insert_ne same]

/-- Every value rewritten. -/
def mapValues {ν' : Type*} (f : ν → ν') (m : Map κ ν) : Map κ ν' where
  entries := m.entries.map fun entry => ⟨entry.1, f entry.2⟩
  nodupKeys := by
    have keys : (m.entries.map fun entry => (⟨entry.1, f entry.2⟩ : Sigma fun _ : κ => ν')).keys =
        m.entries.keys := by
      simp only [List.keys, List.map_map]
      rfl
    rw [List.NodupKeys, keys]
    exact m.nodupKeys

omit [DecidableEq κ] in
theorem mapValues_mapValues_of {ν' : Type*} {f : ν → ν'} {g : ν' → ν} {m : Map κ ν}
    (inverse : ∀ pair ∈ m.toPairs, g (f pair.2) = pair.2) :
    mapValues g (mapValues f m) = m := by
  apply AList.ext
  show (m.entries.map _).map _ = m.entries
  rw [List.map_map]
  have same : ∀ entry ∈ m.entries, (⟨entry.1, g (f entry.2)⟩ : Sigma fun _ : κ => ν) = entry := by
    intro entry mem
    rw [inverse (entry.1, entry.2) (List.mem_map_of_mem mem)]
  exact (List.map_congr_left same).trans (List.map_id _)

end Map
