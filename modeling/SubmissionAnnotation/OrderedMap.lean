/-!
# Maps that keep insertion order

A map from strings is the list of its entries, oldest first. Writing a key that is present replaces
its value where it stands; a new key goes to the end. Lookup reads the first entry of a key, so
every operation is total on all entry lists, with or without repeated keys, and the laws below hold
for all of them.
-/
namespace SubmissionAnnotation

universe u v

/-- A map from strings whose entries keep the order of their first insertion. -/
structure OrderedMap (α : Type u) where
  entries : List (String × α)

namespace OrderedMap

variable {α : Type u} {β : Type v}

def empty : OrderedMap α := ⟨[]⟩

instance : EmptyCollection (OrderedMap α) := ⟨empty⟩

instance : Inhabited (OrderedMap α) := ⟨empty⟩

/-- The value of the first entry with this key. -/
def find (key : String) : List (String × α) → Option α
  | [] => none
  | entry :: rest => if entry.1 = key then some entry.2 else find key rest

/-- Writes one entry into a list of entries: in place if the key is there, else at the end. -/
def put (key : String) (value : α) : List (String × α) → List (String × α)
  | [] => [(key, value)]
  | entry :: rest => if entry.1 = key then (key, value) :: rest else entry :: put key value rest

def get? (m : OrderedMap α) (key : String) : Option α :=
  find key m.entries

def contains (m : OrderedMap α) (key : String) : Bool :=
  (m.get? key).isSome

def keys (m : OrderedMap α) : List String :=
  m.entries.map Prod.fst

def values (m : OrderedMap α) : List α :=
  m.entries.map Prod.snd

def insert (m : OrderedMap α) (key : String) (value : α) : OrderedMap α :=
  ⟨put key value m.entries⟩

/-- The map that results from writing the entries one after the other. -/
def ofList (entries : List (String × α)) : OrderedMap α :=
  entries.foldl (fun m entry => m.insert entry.1 entry.2) empty

def map (f : α → β) (m : OrderedMap α) : OrderedMap β :=
  ⟨m.entries.map fun entry => (entry.1, f entry.2)⟩

theorem ext {m n : OrderedMap α} (h : m.entries = n.entries) : m = n := by
  cases m
  cases n
  exact congrArg mk h

@[simp] theorem entries_empty : (empty : OrderedMap α).entries = [] := rfl

@[simp] theorem get?_empty (key : String) : (empty : OrderedMap α).get? key = none := rfl

@[simp] theorem keys_empty : (empty : OrderedMap α).keys = [] := rfl

theorem find_cons_self (key : String) (value : α) (rest : List (String × α)) :
    find key ((key, value) :: rest) = some value :=
  if_pos rfl

@[simp] theorem find_put_self (key : String) (value : α) (entries : List (String × α)) :
    find key (put key value entries) = some value := by
  induction entries with
  | nil => simp [put, find]
  | cons entry rest ih => by_cases h : entry.1 = key <;> simp [put, find, h, ih]

theorem find_put_of_ne {key other : String} (h : other ≠ key) (value : α)
    (entries : List (String × α)) : find other (put key value entries) = find other entries := by
  induction entries with
  | nil => simp [put, find, h.symm]
  | cons entry rest ih =>
    by_cases he : entry.1 = key
    · simp [put, find, he, h.symm]
    · simp [put, find, he, ih]

theorem put_of_find {key : String} {value : α} {entries : List (String × α)}
    (h : find key entries = some value) : put key value entries = entries := by
  induction entries with
  | nil => simp [find] at h
  | cons entry rest ih =>
    obtain ⟨k, v⟩ := entry
    by_cases he : k = key
    · simp only [find, he, ↓reduceIte, Option.some.injEq] at h
      simp [put, he, h]
    · simp only [find, he, ↓reduceIte] at h
      simp [put, he, ih h]

theorem put_put_self (key : String) (old new : α) (entries : List (String × α)) :
    put key new (put key old entries) = put key new entries := by
  induction entries with
  | nil => simp [put]
  | cons entry rest ih => by_cases h : entry.1 = key <;> simp [put, h, ih]

/-- If one of two keys is there already, it does not matter which of them is written first. -/
theorem put_put_of_mem {key other : String} {entries : List (String × α)} (hne : key ≠ other)
    (h : key ∈ entries.map Prod.fst) (v w : α) :
    put key v (put other w entries) = put other w (put key v entries) := by
  induction entries with
  | nil => cases h
  | cons entry rest ih =>
    by_cases hk : entry.1 = key
    · simp [put, hk, hne]
    · have hr : key ∈ rest.map Prod.fst :=
        (List.mem_cons.mp h).resolve_left fun he => hk he.symm
      by_cases ho : entry.1 = other
      · simp [put, ho, hne.symm]
      · simp [put, hk, ho, ih hr]

theorem mem_map_fst_iff_find {key : String} {entries : List (String × α)} :
    key ∈ entries.map Prod.fst ↔ (find key entries).isSome = true := by
  induction entries with
  | nil => simp [find]
  | cons entry rest ih =>
    by_cases h : entry.1 = key
    · simp [find, h]
    · rw [List.map_cons, List.mem_cons, ih]
      simp [find, h, Ne.symm h]

theorem map_fst_put_of_mem {key : String} {entries : List (String × α)} (value : α)
    (h : key ∈ entries.map Prod.fst) :
    (put key value entries).map Prod.fst = entries.map Prod.fst := by
  induction entries with
  | nil => simp at h
  | cons entry rest ih =>
    by_cases he : entry.1 = key
    · simp [put, he]
    · have hr : key ∈ rest.map Prod.fst :=
        (List.mem_cons.mp h).resolve_left fun hk => he hk.symm
      simp [put, he, ih hr]

theorem put_of_not_mem {key : String} {entries : List (String × α)} (value : α)
    (h : key ∉ entries.map Prod.fst) : put key value entries = entries ++ [(key, value)] := by
  induction entries with
  | nil => rfl
  | cons entry rest ih =>
    rw [List.map_cons, List.mem_cons, not_or] at h
    simp [put, Ne.symm h.1, ih h.2]

theorem map_fst_put_of_not_mem {key : String} {entries : List (String × α)} (value : α)
    (h : key ∉ entries.map Prod.fst) :
    (put key value entries).map Prod.fst = entries.map Prod.fst ++ [key] := by
  simp [put_of_not_mem value h]

@[simp] theorem get?_insert_self (m : OrderedMap α) (key : String) (value : α) :
    (m.insert key value).get? key = some value :=
  find_put_self key value m.entries

theorem get?_insert_of_ne {key other : String} (h : other ≠ key) (m : OrderedMap α) (value : α) :
    (m.insert key value).get? other = m.get? other :=
  find_put_of_ne h value m.entries

theorem get?_insert (m : OrderedMap α) (key other : String) (value : α) :
    (m.insert key value).get? other = if other = key then some value else m.get? other := by
  by_cases h : other = key
  · simp [h]
  · simp [h, get?_insert_of_ne h]

/-- Writing the value that is already there changes nothing, not even the order. -/
theorem insert_of_get?_eq {m : OrderedMap α} {key : String} {value : α}
    (h : m.get? key = some value) : m.insert key value = m :=
  ext (put_of_find h)

theorem insert_insert_self (m : OrderedMap α) (key : String) (old new : α) :
    (m.insert key old).insert key new = m.insert key new :=
  ext (put_put_self key old new m.entries)

theorem insert_comm_of_mem {m : OrderedMap α} {key other : String} (hne : key ≠ other)
    (h : key ∈ m.keys) (v w : α) :
    (m.insert other w).insert key v = (m.insert key v).insert other w :=
  ext (put_put_of_mem hne h v w)

theorem mem_keys_iff {m : OrderedMap α} {key : String} : key ∈ m.keys ↔ m.contains key = true :=
  mem_map_fst_iff_find

theorem mem_keys_of_get?_eq {m : OrderedMap α} {key : String} {value : α}
    (h : m.get? key = some value) : key ∈ m.keys :=
  mem_keys_iff.mpr (Option.isSome_iff_exists.mpr ⟨value, h⟩)

theorem get?_eq_none_iff {m : OrderedMap α} {key : String} : m.get? key = none ↔ key ∉ m.keys := by
  rw [mem_keys_iff, contains, Option.not_isSome_iff_eq_none]

theorem keys_insert_of_mem {m : OrderedMap α} {key : String} (value : α) (h : key ∈ m.keys) :
    (m.insert key value).keys = m.keys :=
  map_fst_put_of_mem value h

theorem keys_insert_of_not_mem {m : OrderedMap α} {key : String} (value : α) (h : key ∉ m.keys) :
    (m.insert key value).keys = m.keys ++ [key] :=
  map_fst_put_of_not_mem value h

theorem keys_prefix_insert (m : OrderedMap α) (key : String) (value : α) :
    m.keys <+: (m.insert key value).keys := by
  by_cases h : key ∈ m.keys
  · simp [keys_insert_of_mem value h]
  · rw [keys_insert_of_not_mem value h]
    exact List.prefix_append _ _

theorem mem_keys_insert {m : OrderedMap α} {key other : String} {value : α} :
    other ∈ (m.insert key value).keys ↔ other = key ∨ other ∈ m.keys := by
  by_cases h : key ∈ m.keys
  · rw [keys_insert_of_mem value h]
    constructor
    · exact Or.inr
    · rintro (rfl | ho)
      · exact h
      · exact ho
  · rw [keys_insert_of_not_mem value h, List.mem_append, List.mem_singleton, or_comm]

theorem nodup_keys_insert {m : OrderedMap α} (h : m.keys.Nodup) (key : String) (value : α) :
    (m.insert key value).keys.Nodup := by
  by_cases hk : key ∈ m.keys
  · rwa [keys_insert_of_mem value hk]
  · rw [keys_insert_of_not_mem value hk]
    refine List.nodup_append.mpr ⟨h, by simp, fun other ho _ hkey => ?_⟩
    rw [List.mem_singleton.mp hkey]
    exact fun he => hk (he ▸ ho)

/-- Entries under new and different keys are put behind those that are there. -/
theorem foldl_insert_of_nodup {m : OrderedMap α} {entries : List (String × α)}
    (h : (m.keys ++ entries.map Prod.fst).Nodup) :
    entries.foldl (fun m entry => m.insert entry.1 entry.2) m = ⟨m.entries ++ entries⟩ := by
  induction entries generalizing m with
  | nil => simp
  | cons entry rest ih =>
    rw [List.map_cons, List.append_cons] at h
    have hnew : entry.1 ∉ m.keys := fun hmem =>
      (List.nodup_append.mp (List.nodup_append.mp h).1).2.2 _ hmem _ (by simp) rfl
    have hentries : (m.insert entry.1 entry.2).entries = m.entries ++ [entry] :=
      put_of_not_mem entry.2 hnew
    rw [List.foldl_cons, ih (by rwa [keys_insert_of_not_mem entry.2 hnew]), hentries]
    simp

theorem ofList_of_nodup {entries : List (String × α)} (h : (entries.map Prod.fst).Nodup) :
    ofList entries = ⟨entries⟩ :=
  foldl_insert_of_nodup (by simpa using h)

/-- A key that comes again keeps its place and takes the later value. -/
theorem ofList_of_repeat {key : String} {before after : List (String × α)}
    (h : (key :: (before ++ after).map Prod.fst).Nodup) (old new : α) :
    ofList ((key, old) :: (before ++ (key, new) :: after)) =
      ⟨(key, new) :: (before ++ after)⟩ := by
  let write (m : OrderedMap α) (entry : String × α) := m.insert entry.1 entry.2
  have hbefore : before.foldl write ⟨[(key, old)]⟩ = ⟨(key, old) :: before⟩ := by
    refine foldl_insert_of_nodup (h.sublist ?_)
    rw [List.map_append]
    exact (List.sublist_append_left _ _).cons_cons key
  have hkey : write ⟨(key, old) :: before⟩ (key, new) = ⟨(key, new) :: before⟩ := by
    simp [write, insert, put]
  have hafter : after.foldl write ⟨(key, new) :: before⟩ = ⟨(key, new) :: before ++ after⟩ := by
    refine foldl_insert_of_nodup ?_
    rwa [List.map_append] at h
  calc
    _ = ((key, new) :: after).foldl write (before.foldl write ⟨[(key, old)]⟩) :=
      List.foldl_append
    _ = ⟨(key, new) :: before ++ after⟩ := by rw [hbefore, List.foldl_cons, hkey, hafter]

theorem nodup_keys_ofList (entries : List (String × α)) : (ofList entries).keys.Nodup := by
  suffices walk : ∀ m : OrderedMap α, m.keys.Nodup →
      (entries.foldl (fun m entry => m.insert entry.1 entry.2) m).keys.Nodup from
    walk empty List.nodup_nil
  induction entries with
  | nil => exact fun _ h => h
  | cons entry rest ih => exact fun m h => ih _ (nodup_keys_insert h entry.1 entry.2)

/--
`after` has all keys of `before` in their places, and differs from it under the listed keys only. No
key comes twice that did not do so before, so what is new stands under listed keys.
-/
structure ChangedOnlyAt (keys : List String) (before after : OrderedMap α) : Prop where
  keys_prefix : before.keys <+: after.keys
  keys_nodup : before.keys.Nodup → after.keys.Nodup
  get?_eq : ∀ key, key ∉ keys → after.get? key = before.get? key

namespace ChangedOnlyAt

variable {keys : List String} {before after : OrderedMap α} {key : String}

theorem refl (keys : List String) (m : OrderedMap α) : ChangedOnlyAt keys m m :=
  ⟨List.prefix_refl _, id, fun _ _ => rfl⟩

theorem trans {last : OrderedMap α} (h : ChangedOnlyAt keys before after)
    (h' : ChangedOnlyAt keys after last) : ChangedOnlyAt keys before last where
  keys_prefix := h.keys_prefix.trans h'.keys_prefix
  keys_nodup := fun distinct => h'.keys_nodup (h.keys_nodup distinct)
  get?_eq := fun key hk => (h'.get?_eq key hk).trans (h.get?_eq key hk)

theorem insert (h : ChangedOnlyAt keys before after) (listed : key ∈ keys) (value : α) :
    ChangedOnlyAt keys before (after.insert key value) := by
  refine ⟨h.keys_prefix.trans (keys_prefix_insert after key value), ?_, ?_⟩
  · exact fun distinct => nodup_keys_insert (h.keys_nodup distinct) key value
  · intro other hother
    have hne : other ≠ key := fun he => hother (he ▸ listed)
    rw [get?_insert_of_ne hne]
    exact h.get?_eq other hother

end ChangedOnlyAt

theorem changedOnlyAt_insert (m : OrderedMap α) (key : String) (value : α) :
    ChangedOnlyAt [key] m (m.insert key value) :=
  (ChangedOnlyAt.refl [key] m).insert List.mem_cons_self value

end OrderedMap

end SubmissionAnnotation
