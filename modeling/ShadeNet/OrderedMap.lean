/-
# Maps that remember insertion order

An `OrderedMap` is a list of keyed values in which no key occurs twice. A new
key goes to the end; a key that is already there keeps its place and gets the
new value. Every table of a scene, a catalog and a pass is one of these, so the
order in which things are written is the order in which they were added.

Key definitions: `OrderedMap.get?`, `OrderedMap.insert`, `OrderedMap.erase`,
`OrderedMap.ofList`.
Key theorems: `OrderedMap.get?_insert`, `OrderedMap.keys_insert`,
`OrderedMap.get?_erase`, `OrderedMap.erase_insert`,
`OrderedMap.mem_values_of_get?`, `OrderedMap.get?_of_mem_entries`.
-/

namespace ShadeNet

/-- A finite map whose entries stand in insertion order. -/
structure OrderedMap (κ α : Type) where
  /-- The entries, oldest key first. -/
  entries : List (κ × α)
  /-- No key has two entries. -/
  keys_nodup : (entries.map Prod.fst).Nodup
deriving DecidableEq

namespace OrderedMap

variable {κ α : Type}

instance : EmptyCollection (OrderedMap κ α) := ⟨⟨[], by simp⟩⟩

instance : Inhabited (OrderedMap κ α) := ⟨∅⟩

/-- The keys, oldest first. -/
def keys (m : OrderedMap κ α) : List κ := m.entries.map Prod.fst

/-- The values, in the order of their keys. -/
def values (m : OrderedMap κ α) : List α := m.entries.map Prod.snd

/-- The number of keys. -/
def size (m : OrderedMap κ α) : Nat := m.entries.length

theorem entries_empty : (∅ : OrderedMap κ α).entries = [] := rfl

theorem ext {m n : OrderedMap κ α} (h : m.entries = n.entries) : m = n := by
  cases m
  cases n
  cases h
  rfl

variable [DecidableEq κ]

/-- The value of the first entry for `key`. -/
def lookupEntry (key : κ) : List (κ × α) → Option α
  | [] => none
  | (k, a) :: rest => if k = key then some a else lookupEntry key rest

/-- The value stored under `key`. -/
def get? (m : OrderedMap κ α) (key : κ) : Option α := lookupEntry key m.entries

/-- Whether `key` has a value. -/
def contains (m : OrderedMap κ α) (key : κ) : Bool := (m.get? key).isSome

/-- The entries with `key` set to `value`: in place, or at the end. -/
def setEntry (key : κ) (value : α) : List (κ × α) → List (κ × α)
  | [] => [(key, value)]
  | (k, a) :: rest => if k = key then (key, value) :: rest else (k, a) :: setEntry key value rest

theorem keys_setEntry (key : κ) (value : α) : ∀ es : List (κ × α),
    (setEntry key value es).map Prod.fst =
      if key ∈ es.map Prod.fst then es.map Prod.fst else es.map Prod.fst ++ [key]
  | [] => rfl
  | (k, a) :: rest => by
    by_cases h : k = key
    · simp [setEntry, h]
    · have hne : ¬ key = k := fun e => h e.symm
      have ih := keys_setEntry key value rest
      simp only [setEntry, h, if_false, List.map_cons, ih, List.mem_cons, hne, false_or]
      split <;> rfl

theorem nodup_setEntry (key : κ) (value : α) {es : List (κ × α)}
    (h : (es.map Prod.fst).Nodup) : ((setEntry key value es).map Prod.fst).Nodup := by
  rw [keys_setEntry]
  split
  · exact h
  · rename_i hk
    refine List.nodup_append.mpr ⟨h, by simp, ?_⟩
    intro a ha b hb
    rw [List.mem_singleton.mp hb]
    exact fun e => hk (e ▸ ha)

/-- Sets `key` to `value`; a key that is already there keeps its place. -/
def insert (m : OrderedMap κ α) (key : κ) (value : α) : OrderedMap κ α :=
  ⟨setEntry key value m.entries, nodup_setEntry key value m.keys_nodup⟩

/-- Removes `key`; the other entries keep their order. -/
def erase (m : OrderedMap κ α) (key : κ) : OrderedMap κ α :=
  ⟨m.entries.filter (fun e => e.1 ≠ key),
    m.keys_nodup.sublist (List.filter_sublist.map Prod.fst)⟩

/-- Sets every entry of `other`, in its order. -/
def extend (m : OrderedMap κ α) (other : List (κ × α)) : OrderedMap κ α :=
  other.foldl (fun acc e => acc.insert e.1 e.2) m

/-- The map that results from setting the entries of a list one after another. -/
def ofList (entries : List (κ × α)) : OrderedMap κ α := extend ∅ entries

/-! ### What each operation does to look-up and to the order of keys -/

@[simp] theorem get?_empty (key : κ) : (∅ : OrderedMap κ α).get? key = none := rfl

theorem lookupEntry_setEntry (key : κ) (value : α) (k : κ) : ∀ es : List (κ × α),
    lookupEntry k (setEntry key value es) = if key = k then some value else lookupEntry k es
  | [] => rfl
  | (k', a) :: rest => by
    by_cases h : k' = key
    · by_cases hk : key = k <;> simp [setEntry, lookupEntry, h, hk]
    · by_cases hk : k' = k
      · have : ¬ key = k := fun e => h (hk.trans e.symm)
        rw [setEntry, if_neg h, lookupEntry, if_pos hk, lookupEntry, if_pos hk, if_neg this]
      · simp [setEntry, lookupEntry, h, hk, lookupEntry_setEntry key value k rest]

/-- After setting `key`, look-up finds the new value there and the old ones elsewhere. -/
theorem get?_insert (m : OrderedMap κ α) (key : κ) (value : α) (k : κ) :
    (m.insert key value).get? k = if key = k then some value else m.get? k :=
  lookupEntry_setEntry key value k m.entries

/-- Setting a key keeps the order of the keys and puts a new one last. -/
theorem keys_insert (m : OrderedMap κ α) (key : κ) (value : α) :
    (m.insert key value).keys = if key ∈ m.keys then m.keys else m.keys ++ [key] :=
  keys_setEntry key value m.entries

theorem lookupEntry_filter_ne (key k : κ) : ∀ es : List (κ × α),
    lookupEntry k (es.filter (fun e => e.1 ≠ key)) = if key = k then none else lookupEntry k es
  | [] => by simp [lookupEntry]
  | (k', a) :: rest => by
    have ih := lookupEntry_filter_ne key k rest
    by_cases h : k' = key
    · rw [List.filter_cons_of_neg (by simp [h]), ih]
      by_cases hk : key = k <;> simp [lookupEntry, h, hk]
    · rw [List.filter_cons_of_pos (by simp [h])]
      by_cases hk : k' = k
      · have : ¬ key = k := fun e => h (hk.trans e.symm)
        simp [lookupEntry, hk, this]
      · simp only [lookupEntry, hk, if_false, ih]

/-- After removing `key`, look-up finds nothing there and the old values elsewhere. -/
theorem get?_erase (m : OrderedMap κ α) (key k : κ) :
    (m.erase key).get? k = if key = k then none else m.get? k :=
  lookupEntry_filter_ne key k m.entries

theorem filter_setEntry {key : κ} (value : α) : ∀ {es : List (κ × α)},
    lookupEntry key es = none → (setEntry key value es).filter (fun e => e.1 ≠ key) = es
  | [], _ => by simp [setEntry]
  | (k, a) :: rest, h => by
    rw [lookupEntry] at h
    split at h
    · cases h
    · rename_i hne
      rw [setEntry, if_neg hne, List.filter_cons_of_pos (by simp [hne]), filter_setEntry value h]

/-- Removing a key that was added gives the map before. -/
theorem erase_insert {m : OrderedMap κ α} {key : κ} (value : α) (h : m.get? key = none) :
    (m.insert key value).erase key = m :=
  ext (filter_setEntry value h)

theorem mem_of_lookupEntry {key : κ} {value : α} : ∀ {es : List (κ × α)},
    lookupEntry key es = some value → (key, value) ∈ es
  | (k, a) :: rest, h => by
    rw [lookupEntry] at h
    split at h
    · rename_i hk
      rw [← hk, ← Option.some.inj h]
      exact List.mem_cons_self
    · exact List.mem_cons_of_mem _ (mem_of_lookupEntry h)

theorem lookupEntry_of_mem {key : κ} {value : α} : ∀ {es : List (κ × α)},
    (es.map Prod.fst).Nodup → (key, value) ∈ es → lookupEntry key es = some value
  | (k, a) :: rest, hnodup, h => by
    rw [List.map_cons, List.nodup_cons] at hnodup
    rcases List.mem_cons.mp h with heq | h
    · cases heq
      exact if_pos rfl
    · have hmem : key ∈ rest.map Prod.fst := List.mem_map_of_mem h
      have hne : k ≠ key := fun e => hnodup.1 (e ▸ hmem)
      rw [lookupEntry, if_neg hne]
      exact lookupEntry_of_mem hnodup.2 h

/-- Look-up finds every entry. -/
theorem get?_of_mem_entries {m : OrderedMap κ α} {key : κ} {value : α}
    (h : (key, value) ∈ m.entries) : m.get? key = some value :=
  lookupEntry_of_mem m.keys_nodup h

theorem mem_setEntry {key : κ} {value : α} {e : κ × α} : ∀ {es : List (κ × α)},
    e ∈ setEntry key value es → e = (key, value) ∨ e ∈ es
  | [], h => Or.inl (List.mem_singleton.mp h)
  | (k, a) :: rest, h => by
    rw [setEntry] at h
    split at h
    · exact (List.mem_cons.mp h).imp id fun h => List.mem_cons_of_mem _ h
    · rcases List.mem_cons.mp h with rfl | h
      · exact Or.inr List.mem_cons_self
      · exact (mem_setEntry h).imp id fun h => List.mem_cons_of_mem _ h

/-- What look-up finds is one of the values. -/
theorem mem_values_of_get? {m : OrderedMap κ α} {key : κ} {value : α}
    (h : m.get? key = some value) : value ∈ m.values :=
  List.mem_map_of_mem (mem_of_lookupEntry h)

/-- Look-up finds something under keys of the map only. -/
theorem mem_keys_of_get? {m : OrderedMap κ α} {key : κ} {value : α}
    (h : m.get? key = some value) : key ∈ m.keys :=
  List.mem_map_of_mem (mem_of_lookupEntry h)

/-- The entries of a map that is made from a list are entries of the list. -/
theorem mem_entries_ofList {entries : List (κ × α)} {e : κ × α}
    (h : e ∈ (ofList entries).entries) : e ∈ entries := by
  suffices ∀ (m : OrderedMap κ α), e ∈ (m.extend entries).entries → e ∈ m.entries ∨ e ∈ entries from
    (this ∅ h).resolve_left List.not_mem_nil
  clear h
  induction entries with
  | nil => exact fun _ h => Or.inl h
  | cons first rest ih =>
    intro m h
    rcases ih (m.insert first.1 first.2) h with h | h
    · rcases mem_setEntry h with rfl | h
      · exact Or.inr List.mem_cons_self
      · exact Or.inl h
    · exact Or.inr (List.mem_cons_of_mem _ h)

/-! ### Counting values -/

theorem countP_setEntry (p : α → Bool) (key : κ) (value : α) : ∀ es : List (κ × α),
    ((setEntry key value es).map Prod.snd).countP p + (lookupEntry key es).toList.countP p =
      (es.map Prod.snd).countP p + [value].countP p
  | [] => by simp [setEntry, lookupEntry]
  | (k, a) :: rest => by
    have ih := countP_setEntry p key value rest
    by_cases h : k = key
    · simp only [setEntry, lookupEntry, h, if_true, List.map_cons, List.countP_cons,
        Option.toList_some, List.countP_nil]
      omega
    · simp only [setEntry, lookupEntry, h, if_false, List.map_cons]
      rw [List.countP_cons, List.countP_cons]
      omega

/-- Setting a key counts the new value in place of the old one. -/
theorem countP_insert (p : α → Bool) (m : OrderedMap κ α) (key : κ) (value : α) :
    (m.insert key value).values.countP p + (m.get? key).toList.countP p =
      m.values.countP p + [value].countP p :=
  countP_setEntry p key value m.entries

theorem countP_filter_ne (p : α → Bool) (key : κ) : ∀ {es : List (κ × α)},
    (es.map Prod.fst).Nodup →
    ((es.filter (fun e => e.1 ≠ key)).map Prod.snd).countP p + (lookupEntry key es).toList.countP p =
      (es.map Prod.snd).countP p
  | [], _ => rfl
  | (k, a) :: rest, hnodup => by
    rw [List.map_cons, List.nodup_cons] at hnodup
    by_cases h : k = key
    · subst h
      -- the key does not occur again
      have hrest : rest.filter (fun e => e.1 ≠ k) = rest :=
        List.filter_eq_self.mpr fun e he => decide_eq_true fun heq =>
          hnodup.1 (List.mem_map.mpr ⟨e, he, heq⟩)
      rw [List.filter_cons_of_neg (by simp), hrest]
      simp only [lookupEntry, if_true, List.map_cons, List.countP_cons, Option.toList_some,
        List.countP_nil]
      omega
    · have ih := countP_filter_ne p key hnodup.2
      rw [List.filter_cons_of_pos (by simp [h])]
      simp only [lookupEntry, h, if_false, List.map_cons, List.countP_cons]
      omega

/-- Removing a key leaves its value out of the count. -/
theorem countP_erase (p : α → Bool) (m : OrderedMap κ α) (key : κ) :
    (m.erase key).values.countP p + (m.get? key).toList.countP p = m.values.countP p :=
  countP_filter_ne p key m.keys_nodup

end OrderedMap

end ShadeNet
