/-
**Maps that keep the order of insertion.**

A map is the list of its entries in the order in which their keys came. `set` writes a value over
the one that is there and leaves its place alone; `keep` leaves value and place alone.

* `keys_setAll` and `keys_keepAll` say which keys come out, and in which order: the first
  occurrences;
* `lookup_setAll` says that the last value of a key stays when entries are set, `lookup_keepAll`
  that the first one does when they are kept;
* `mem_iff_lookup` reads an entry off: no key comes out twice (`nodup_setAll`).
-/

import Mathlib.Data.List.Nodup

set_option linter.unusedSectionVars false

namespace WaAutomation.Library.Entries

variable {κ β : Type} [DecidableEq κ]

/-- The keys of the entries. -/
def keys (map : List (κ × β)) : List κ := map.map Prod.fst

/-- The key has an entry. -/
def has (map : List (κ × β)) (key : κ) : Bool := map.any fun entry => entry.1 == key

/-- Set a key: one that is present keeps its place. -/
def set (map : List (κ × β)) (key : κ) (value : β) : List (κ × β) :=
  if has map key then map.map fun entry => if entry.1 == key then (key, value) else entry
  else map ++ [(key, value)]

/-- Set a key that is not present. -/
def keep (map : List (κ × β)) (key : κ) (value : β) : List (κ × β) :=
  if has map key then map else map ++ [(key, value)]

/-- Set entries one after the other. -/
def setAll (map entries : List (κ × β)) : List (κ × β) :=
  entries.foldl (fun map entry => set map entry.1 entry.2) map

/-- Keep entries one after the other. -/
def keepAll (map entries : List (κ × β)) : List (κ × β) :=
  entries.foldl (fun map entry => keep map entry.1 entry.2) map

/-- The last value of a key. -/
def lastValue (key : κ) (entries : List (κ × β)) : Option β :=
  ((entries.filter fun entry => entry.1 == key).map Prod.snd).getLast?

variable {map entries : List (κ × β)} {key sought : κ} {value : β}

/-! ### Keys -/

theorem has_iff : has map key = true ↔ key ∈ keys map := by
  simp [has, keys]

theorem keys_set :
    keys (set map key value) = if key ∈ keys map then keys map else keys map ++ [key] := by
  unfold set
  by_cases present : key ∈ keys map
  · rw [if_pos (has_iff.mpr present), if_pos present]
    unfold keys
    rw [List.map_map]
    refine List.map_congr_left fun entry _ => ?_
    by_cases same : entry.1 = key
    · simp [same]
    · simp [same]
  · rw [if_neg (mt has_iff.mp present), if_neg present]
    exact List.map_append

theorem keys_keep : keys (keep map key value) = keys (set map key value) := by
  rw [keys_set]
  unfold keep
  by_cases present : key ∈ keys map
  · rw [if_pos (has_iff.mpr present), if_pos present]
  · rw [if_neg (mt has_iff.mp present), if_neg present]
    exact List.map_append

theorem nodup_empty : (keys ([] : List (κ × β))).Nodup := List.nodup_nil

theorem nodup_set (nodup : (keys map).Nodup) : (keys (set map key value)).Nodup := by
  rw [keys_set]
  split
  · exact nodup
  · rename_i absent
    exact List.nodup_append.mpr ⟨nodup, List.nodup_singleton _, fun _ left _ right equal =>
      absent (List.mem_singleton.mp right ▸ equal ▸ left)⟩

theorem nodup_setAll (nodup : (keys map).Nodup) : (keys (setAll map entries)).Nodup := by
  induction entries generalizing map with
  | nil => exact nodup
  | cons entry rest ih => exact ih (nodup_set nodup)

theorem nodup_keep (nodup : (keys map).Nodup) : (keys (keep map key value)).Nodup := by
  rw [keys_keep]
  exact nodup_set nodup

theorem nodup_keepAll (nodup : (keys map).Nodup) : (keys (keepAll map entries)).Nodup := by
  induction entries generalizing map with
  | nil => exact nodup
  | cons entry rest ih => exact ih (nodup_keep nodup)

theorem eraseDups_nodup {κ : Type} [DecidableEq κ] {list : List κ} (nodup : list.Nodup) :
    list.eraseDups = list := by
  induction list with
  | nil => rfl
  | cons first rest ih =>
    obtain ⟨absent, distinct⟩ := List.nodup_cons.mp nodup
    have others : (rest.filter fun other => !other == first) = rest := by
      refine List.filter_eq_self.mpr fun other member => ?_
      have different : other ≠ first := fun same => absent (same ▸ member)
      simpa using different
    rw [List.eraseDups_cons, others, ih distinct]

/-- An element that came before is not a first occurrence. -/
theorem eraseDups_again {list rest : List κ} (came : key ∈ list) :
    (list ++ key :: rest).eraseDups = (list ++ rest).eraseDups := by
  have dropped : (key :: rest).removeAll list = rest.removeAll list :=
    List.filter_cons_of_neg (by simpa using came)
  rw [List.eraseDups_append, List.eraseDups_append, dropped]

/-- The keys after one more, before others. -/
theorem eraseDups_set (rest : List κ) :
    (keys (set map key value) ++ rest).eraseDups = (keys map ++ key :: rest).eraseDups := by
  rw [keys_set]
  split
  · rename_i present
    exact (eraseDups_again present).symm
  · rw [List.append_assoc, List.singleton_append]

/-- **The keys that come out are the first occurrences.** -/
theorem keys_setAll (nodup : (keys map).Nodup) :
    keys (setAll map entries) = (keys map ++ keys entries).eraseDups := by
  induction entries generalizing map with
  | nil => exact ((congrArg _ (List.append_nil _)).trans (eraseDups_nodup nodup)).symm
  | cons entry rest ih => exact (ih (nodup_set nodup)).trans (eraseDups_set _)

theorem keys_keepAll (nodup : (keys map).Nodup) :
    keys (keepAll map entries) = (keys map ++ keys entries).eraseDups := by
  induction entries generalizing map with
  | nil => exact ((congrArg _ (List.append_nil _)).trans (eraseDups_nodup nodup)).symm
  | cons entry rest ih =>
    refine (ih (nodup_keep nodup)).trans ?_
    rw [keys_keep]
    exact eraseDups_set _

/-! ### Values -/

theorem lookup_entry (entry : κ × β) (rest : List (κ × β)) :
    (entry :: rest).lookup sought = if sought = entry.1 then some entry.2 else
      rest.lookup sought := by
  obtain ⟨key, value⟩ := entry
  rw [List.lookup_cons]
  by_cases same : sought = key
  · subst same
    simp
  · rw [beq_eq_false_iff_ne.mpr same, if_neg same]

theorem lookup_isSome : (map.lookup key).isSome = true ↔ key ∈ keys map := by
  induction map with
  | nil => exact iff_of_false Bool.false_ne_true List.not_mem_nil
  | cons entry rest ih =>
    have first : key ∈ keys (entry :: rest) ↔ key = entry.1 ∨ key ∈ keys rest := List.mem_cons
    rw [lookup_entry, first]
    by_cases same : key = entry.1
    · rw [if_pos same]
      exact iff_of_true rfl (.inl same)
    · rw [if_neg same, ih, or_iff_right same]

/-- Nothing is found under a key that is absent. -/
theorem lookup_absent (absent : key ∉ keys map) : map.lookup key = none := by
  cases found : map.lookup key with
  | none => rfl
  | some value => exact absurd (lookup_isSome.mp (found ▸ rfl)) absent

/-- What is found after the value of a key is written over. -/
theorem lookup_overwrite :
    (map.map fun entry => if entry.1 == key then (key, value) else entry).lookup
    sought = if sought = key then (map.lookup key).map fun _ => value else map.lookup sought := by
  induction map with
  | nil => exact (ite_self _).symm
  | cons entry rest ih =>
    rw [List.map_cons, lookup_entry, ih, lookup_entry, lookup_entry]
    by_cases here : entry.1 = key
    · by_cases same : sought = key <;> simp [here, same]
    · by_cases same : sought = key
      · subst same
        simp [here, Ne.symm here]
      · simp [here, same]

theorem lookup_set :
    (set map key value).lookup sought = if sought = key then some value else map.lookup sought := by
  unfold set
  by_cases present : key ∈ keys map
  · obtain ⟨old, found⟩ := Option.isSome_iff_exists.mp (lookup_isSome.mpr present)
    rw [if_pos (has_iff.mpr present), lookup_overwrite, found]
    rfl
  · rw [if_neg (mt has_iff.mp present), List.lookup_append, lookup_entry]
    by_cases same : sought = key
    · rw [if_pos same, if_pos same, same, lookup_absent present]
      rfl
    · rw [if_neg same, if_neg same]
      exact Option.or_none

theorem lookup_keep :
    (keep map key value).lookup sought =
      (map.lookup sought).or (if sought = key then some value else none) := by
  unfold keep
  by_cases present : key ∈ keys map
  · rw [if_pos (has_iff.mpr present)]
    by_cases same : sought = key
    · obtain ⟨old, found⟩ := Option.isSome_iff_exists.mp (lookup_isSome.mpr present)
      rw [same, found]
      rfl
    · rw [if_neg same]
      exact Option.or_none.symm
  · rw [if_neg (mt has_iff.mp present), List.lookup_append, lookup_entry]
    rfl

theorem lastValue_entry (entry : κ × β) (rest : List (κ × β)) :
    lastValue key (entry :: rest) =
      (lastValue key rest).or (if key = entry.1 then some entry.2 else none) := by
  unfold lastValue
  by_cases same : entry.1 = key
  · have hit : (entry.1 == key) = true := beq_iff_eq.mpr same
    rw [List.filter_cons, if_pos hit, List.map_cons, List.getLast?_cons, if_pos same.symm]
    cases ((rest.filter fun entry => entry.1 == key).map Prod.snd).getLast? <;> rfl
  · have miss : ¬(entry.1 == key) = true := mt beq_iff_eq.mp same
    rw [List.filter_cons, if_neg miss, if_neg (Ne.symm same), Option.or_none]

/-- **The last value that is set stays.** -/
theorem lookup_setAll : (setAll map entries).lookup key = (lastValue key entries).or
    (map.lookup key) := by
  induction entries generalizing map with
  | nil => exact (Option.none_or).symm
  | cons entry rest ih =>
    show (setAll (set map entry.1 entry.2) rest).lookup key = _
    rw [ih, lookup_set, lastValue_entry, Option.or_assoc]
    congr 1
    by_cases same : key = entry.1
    · rw [if_pos same, if_pos same]
      rfl
    · rw [if_neg same, if_neg same]
      rfl

/-- **The first value that is kept stays**, behind those that are there. -/
theorem lookup_keepAll : (keepAll map entries).lookup key = (map.lookup key).or
    (entries.lookup key) := by
  induction entries generalizing map with
  | nil => exact (Option.or_none).symm
  | cons entry rest ih =>
    show (keepAll (keep map entry.1 entry.2) rest).lookup key = _
    rw [ih, lookup_keep, lookup_entry, Option.or_assoc]
    congr 1
    by_cases same : key = entry.1
    · rw [if_pos same, if_pos same]
      rfl
    · rw [if_neg same, if_neg same]
      rfl

theorem mem_of_lookup (found : map.lookup key = some value) : (key, value) ∈ map := by
  obtain ⟨before, after, rfl, _⟩ := List.lookup_eq_some_iff.mp found
  exact List.mem_append_right _ List.mem_cons_self

/-- Keys that come once have one entry. -/
theorem mem_iff_lookup (nodup : (keys map).Nodup) :
    (key, value) ∈ map ↔ map.lookup key = some value := by
  induction map with
  | nil => exact ⟨fun none => (by cases none), fun none => (by cases none)⟩
  | cons entry rest ih =>
    obtain ⟨absent, distinct⟩ := List.nodup_cons.mp nodup
    rw [List.mem_cons, lookup_entry, ih distinct]
    by_cases same : key = entry.1
    · have gone : rest.lookup key = none := lookup_absent (same ▸ absent)
      rw [if_pos same, gone]
      constructor
      · rintro (first | none)
        · rw [← first]
        · cases none
      · intro found
        exact .inl (Prod.ext same (Option.some.inj found).symm)
    · rw [if_neg same]
      exact or_iff_right fun first => same (congrArg Prod.fst first)

end WaAutomation.Library.Entries
