/-
# Merging catalogs

A catalog that is extended by another one files every description of it under the name that the
description gives. Where the other one has done the same, extending is what a reader of the two
expects: the other one is asked first, names keep their places and new ones follow in order, and
of three catalogs it does not matter which two are merged first. A catalog that is made by
registering and extending has always done so. One that comes from a document need not have, and
then it is not: a description that the document files under another name is not found under that
name any more.

Key definitions: `Catalog.Keyed`, `Catalog.Made`, `Catalog.Merges`.
Key theorems: `OrderedMap.ext_get?`, `Catalog.extend_register`, `Catalog.Made.keyed`,
`Catalog.merges_iff_keyed`.
-/
import Mathlib.Data.List.Induction
import ShadeNet.Document.Catalog
import ShadeNet.Schema.Builtin

namespace ShadeNet

/-! ### Maps by their keys -/

namespace OrderedMap

variable {κ α : Type} [DecidableEq κ]

/-- Look-up finds nothing under a key that does not occur. -/
theorem lookupEntry_eq_none {key : κ} {es : List (κ × α)} (h : key ∉ es.map Prod.fst) :
    lookupEntry key es = none := by
  cases hfound : lookupEntry key es with
  | none => rfl
  | some value => exact absurd (List.mem_map_of_mem (mem_of_lookupEntry hfound)) h

/-- Entries with the same keys in the same order are the same if look-up finds the same. -/
theorem entries_eq_of_lookup : ∀ {es fs : List (κ × α)}, (es.map Prod.fst).Nodup →
    es.map Prod.fst = fs.map Prod.fst →
    (∀ key, lookupEntry key es = lookupEntry key fs) → es = fs
  | [], [], _, _, _ => rfl
  | (k, a) :: es, (k', a') :: fs, hnodup, hkeys, hlook => by
    rw [List.map_cons, List.nodup_cons] at hnodup
    obtain ⟨hk, hrest⟩ := List.cons.inj hkeys
    change k = k' at hk
    subst hk
    have ha : a = a' := by simpa [lookupEntry] using hlook k
    have hes : es = fs := by
      refine entries_eq_of_lookup hnodup.2 hrest fun key => ?_
      by_cases h : k = key
      · -- the first key does not occur again on either side
        subst h
        rw [lookupEntry_eq_none hnodup.1, lookupEntry_eq_none (hrest ▸ hnodup.1)]
      · simpa [lookupEntry, h] using hlook key
    rw [ha, hes]

/-- A map is what look-up finds, and the order of its keys. -/
theorem ext_get? {m n : OrderedMap κ α} (hkeys : m.keys = n.keys)
    (hget : ∀ key, m.get? key = n.get? key) : m = n :=
  ext (entries_eq_of_lookup m.keys_nodup hkeys hget)

end OrderedMap

namespace Catalog

/-! ### Descriptions under their own names -/

/-- Every description stands under the name that it gives. -/
def Keyed (c : Catalog) : Prop := ∀ e ∈ c.plugins.entries, e.2.id = e.1

instance (c : Catalog) : Decidable c.Keyed :=
  inferInstanceAs (Decidable (∀ e ∈ c.plugins.entries, e.2.id = e.1))

theorem Keyed.ids {c : Catalog} (h : c.Keyed) : c.toList.map (·.id) = c.plugins.keys := by
  unfold toList OrderedMap.values OrderedMap.keys
  rw [List.map_map]
  exact List.map_congr_left h

theorem Keyed.register {c : Catalog} (h : c.Keyed) (desc : PluginDesc) :
    (c.register desc).Keyed := by
  intro e he
  rcases OrderedMap.mem_setEntry he with rfl | he
  · rfl
  · exact h e he

theorem Keyed.registerAll {c : Catalog} (h : c.Keyed) (descs : List PluginDesc) :
    (c.registerAll descs).Keyed := by
  induction descs generalizing c with
  | nil => exact h
  | cons desc rest ih => exact ih (h.register desc)

/-- Whatever a catalog is extended by, its descriptions stay under their own names. -/
theorem Keyed.extend {c : Catalog} (h : c.Keyed) (other : Catalog) : (c.extend other).Keyed :=
  h.registerAll other.toList

/-- A catalog that is made by registering plugins and by extending, starting with none. -/
inductive Made : Catalog → Prop
  | empty : Made ⟨∅⟩
  | register {c : Catalog} (h : Made c) (desc : PluginDesc) : Made (c.register desc)
  | extend {c : Catalog} (h : Made c) (other : Catalog) : Made (c.extend other)

theorem Made.keyed {c : Catalog} (h : c.Made) : c.Keyed := by
  induction h with
  | empty => exact fun e he => absurd he List.not_mem_nil
  | register _ desc ih => exact ih.register desc
  | extend _ other ih => exact ih.extend other

theorem Made.registerAll {c : Catalog} (h : c.Made) (descs : List PluginDesc) :
    (c.registerAll descs).Made := by
  induction descs generalizing c with
  | nil => exact h
  | cons desc rest ih => exact ih (h.register desc)

theorem made_builtin : builtin.Made := Made.empty.registerAll _

/-! ### Registering -/

theorem get?_register (c : Catalog) (desc : PluginDesc) (id : String) :
    (c.register desc).get? id = if desc.id = id then some desc else c.get? id :=
  OrderedMap.get?_insert c.plugins desc.id desc id

theorem keys_register (c : Catalog) (desc : PluginDesc) : (c.register desc).plugins.keys =
    if desc.id ∈ c.plugins.keys then c.plugins.keys else c.plugins.keys ++ [desc.id] :=
  OrderedMap.keys_insert c.plugins desc.id desc

theorem registerAll_concat (c : Catalog) (descs : List PluginDesc) (desc : PluginDesc) :
    c.registerAll (descs ++ [desc]) = (c.registerAll descs).register desc :=
  List.foldl_append ..

/-- Of descriptions that are registered one after another the last one of a name is found, and
names that none of them gives are not touched. -/
theorem get?_registerAll (c : Catalog) (descs : List PluginDesc) (id : String) :
    (c.registerAll descs).get? id = (descs.filter (·.id = id)).getLast?.or (c.get? id) := by
  induction descs using List.reverseRecOn with
  | nil => rfl
  | append_singleton descs desc ih =>
    rw [registerAll_concat, get?_register, ih]
    by_cases h : desc.id = id <;> simp [h]

/-- Where each description stands under its own name, the last one of a name is the only one. -/
theorem getLast?_filter_id (id : String) : ∀ {entries : List (String × PluginDesc)},
    (entries.map Prod.fst).Nodup → (∀ e ∈ entries, e.2.id = e.1) →
    ((entries.map Prod.snd).filter (·.id = id)).getLast? = OrderedMap.lookupEntry id entries
  | [], _, _ => rfl
  | (k, desc) :: rest, hnodup, hkeyed => by
    rw [List.map_cons, List.nodup_cons] at hnodup
    have hk : desc.id = k := hkeyed _ List.mem_cons_self
    have ih := getLast?_filter_id id hnodup.2 fun e he => hkeyed e (List.mem_cons_of_mem _ he)
    by_cases h : k = id
    · have hnone : OrderedMap.lookupEntry id rest = none :=
        OrderedMap.lookupEntry_eq_none (h ▸ hnodup.1)
      rw [hnone, List.getLast?_eq_none_iff] at ih
      simp [OrderedMap.lookupEntry, hk, h, ih]
    · simp [OrderedMap.lookupEntry, hk, h, ih]

/-- Names keep their places, and new ones follow in order. -/
theorem keys_registerAll {c : Catalog} : ∀ {descs : List PluginDesc}, (descs.map (·.id)).Nodup →
    (c.registerAll descs).plugins.keys =
      c.plugins.keys ++ (descs.map (·.id)).filter (· ∉ c.plugins.keys)
  | [], _ => by simp [registerAll]
  | desc :: rest, hnodup => by
    rw [List.map_cons, List.nodup_cons] at hnodup
    have ih := keys_registerAll (c := c.register desc) hnodup.2
    change ((c.register desc).registerAll rest).plugins.keys = _
    rw [ih, keys_register]
    by_cases h : desc.id ∈ c.plugins.keys
    · simp [h]
    · have hrest : (rest.map (·.id)).filter (· ∉ c.plugins.keys ++ [desc.id]) =
          (rest.map (·.id)).filter (· ∉ c.plugins.keys) := by
        refine List.filter_congr fun id hid => ?_
        have hne : id ≠ desc.id := fun e => hnodup.1 (e ▸ hid)
        simp [hne]
      rw [if_neg h, hrest]
      simp [h]

/-! ### Extending -/

/-- What is expected of extending by a catalog. -/
structure Merges (b : Catalog) : Prop where
  /-- A name means what it means in it, and if it means nothing there, what it meant before. -/
  get : ∀ (a : Catalog) id, (a.extend b).get? id = (b.get? id).or (a.get? id)
  /-- Names keep their places, and those that are new follow in its order. -/
  keys : ∀ a : Catalog, (a.extend b).plugins.keys =
    a.plugins.keys ++ b.plugins.keys.filter (· ∉ a.plugins.keys)
  /-- It may be extended itself before it is used, or what it was used for afterwards. -/
  assoc : ∀ a c : Catalog, (a.extend b).extend c = a.extend (b.extend c)

theorem Keyed.get?_extend {b : Catalog} (h : b.Keyed) (a : Catalog) (id : String) :
    (a.extend b).get? id = (b.get? id).or (a.get? id) := by
  have hlast : (b.toList.filter (·.id = id)).getLast? = b.get? id :=
    getLast?_filter_id id b.plugins.keys_nodup h
  rw [Catalog.extend, get?_registerAll, hlast]

theorem Keyed.keys_extend {b : Catalog} (h : b.Keyed) (a : Catalog) :
    (a.extend b).plugins.keys =
      a.plugins.keys ++ b.plugins.keys.filter (· ∉ a.plugins.keys) := by
  have hids : (b.toList.map (·.id)).Nodup := by
    rw [h.ids]
    exact b.plugins.keys_nodup
  rw [Catalog.extend, keys_registerAll hids, h.ids]

/-- One more plugin comes to the same, whether it is registered before extending or after it. -/
theorem extend_register {b : Catalog} (h : b.Keyed) (a : Catalog) (desc : PluginDesc) :
    (a.extend b).register desc = a.extend (b.register desc) := by
  have hplugins : ((a.extend b).register desc).plugins = (a.extend (b.register desc)).plugins := by
    apply OrderedMap.ext_get?
    · rw [keys_register, h.keys_extend, (h.register desc).keys_extend, keys_register]
      by_cases ha : desc.id ∈ a.plugins.keys <;> by_cases hb : desc.id ∈ b.plugins.keys <;>
        simp [ha, hb, List.filter_append]
    · intro id
      change ((a.extend b).register desc).get? id = (a.extend (b.register desc)).get? id
      rw [get?_register, h.get?_extend, (h.register desc).get?_extend, get?_register]
      by_cases hid : desc.id = id <;> simp [hid]
  exact congrArg Catalog.mk hplugins

theorem Keyed.extend_assoc {b : Catalog} (h : b.Keyed) (a c : Catalog) :
    (a.extend b).extend c = a.extend (b.extend c) := by
  unfold Catalog.extend
  generalize c.toList = descs
  induction descs generalizing b with
  | nil => rfl
  | cons desc rest ih =>
    have hstep := extend_register h a desc
    calc (a.extend b).registerAll (desc :: rest)
        = ((a.extend b).register desc).registerAll rest := rfl
      _ = (a.extend (b.register desc)).registerAll rest := by rw [hstep]
      _ = a.extend ((b.register desc).registerAll rest) := ih (h.register desc)

/-- A description that stands under another name is not found there after extending. -/
theorem keyed_of_get?_extend {b : Catalog}
    (h : ∀ id, ((⟨∅⟩ : Catalog).extend b).get? id = b.get? id) : b.Keyed := by
  intro e he
  have hthere : b.get? e.1 = some e.2 := OrderedMap.get?_of_mem_entries he
  have hfound : (b.toList.filter (·.id = e.1)).getLast?.or none = some e.2 :=
    (get?_registerAll ⟨∅⟩ b.toList e.1).symm.trans ((h e.1).trans hthere)
  rw [Option.or_none] at hfound
  have hmem := List.mem_of_getLast? hfound
  simpa using (List.mem_filter.mp hmem).2

/-- **Catalogs are merged by name.** After extending, a name means what the last description of
that name says, and it keeps its meaning if there is none. That is what is expected of extending
exactly if the catalog that comes in has its descriptions under their own names, and every catalog
has that is made by registering and extending. -/
theorem merges_iff_keyed (b : Catalog) :
    (∀ (a : Catalog) id, (a.extend b).get? id =
      (b.toList.filter (·.id = id)).getLast?.or (a.get? id)) ∧
    (b.Merges ↔ b.Keyed) ∧ (b.Made → b.Keyed) := by
  refine ⟨fun a id => get?_registerAll a b.toList id, ⟨fun h => ?_, fun h => ?_⟩, Made.keyed⟩
  · apply keyed_of_get?_extend
    intro id
    have hget := h.get ⟨∅⟩ id
    have hnone : (⟨∅⟩ : Catalog).get? id = none := rfl
    rw [hget, hnone, Option.or_none]
  · exact ⟨h.get?_extend, h.keys_extend, h.extend_assoc⟩

/-- A document that files two plugins of one name, the first of them under another one. -/
def misfiledText : String :=
  "(plugins: \x7b\"TexWood\": (id: \"TexBark\", category: Texture, params: []), " ++
    "\"TexBark\": (id: \"TexBark\", category: Light, params: [])\x7d)"

/-- The catalog that the document holds. -/
def misfiled : Catalog :=
  ⟨OrderedMap.ofList [("TexWood", ⟨"TexBark", .texture, []⟩), ("TexBark", ⟨"TexBark", .light, []⟩)]⟩

/-- A catalog with a plugin of the name that is free after the catalogs are merged. -/
def timber : Catalog := (⟨∅⟩ : Catalog).register ⟨"TexWood", .uvwgen, []⟩

/-- Once it has been merged itself, a catalog can be merged on, whatever it was merged with. -/
theorem merges_iff_keyed_misfiled : (builtin.extend misfiled).Made ∧
    (builtin.extend misfiled).Merges := by
  have hmade : (builtin.extend misfiled).Made := made_builtin.extend misfiled
  have hmerges := merges_iff_keyed (builtin.extend misfiled)
  exact ⟨hmade, hmerges.2.1.mpr (hmerges.2.2 hmade)⟩

/-- A plugin that a document files under another name is lost with that name. -/
theorem misfiled_plugin_lost :
    Catalog.ofText? misfiledText = some misfiled ∧
      misfiled.get? "TexWood" = some ⟨"TexBark", .texture, []⟩ ∧
      (builtin.extend misfiled).get? "TexWood" = none ∧
      (builtin.extend misfiled).extend timber ≠ builtin.extend (misfiled.extend timber) := by
  decide +kernel

end Catalog

end ShadeNet
