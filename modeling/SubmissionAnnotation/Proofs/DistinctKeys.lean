import SubmissionAnnotation.Json.Reader
import SubmissionAnnotation.Proofs.Reading

/-!
# Values whose objects have distinct keys

The entries of an object are a list, in which a key might come twice. No value that was read
from a text is like that, since a member that comes again takes the place of the first one;
so it is no loss to speak of such values only where it matters what stands under a key.
-/
namespace SubmissionAnnotation

namespace OrderedMap

universe u

variable {α : Type u} {m : OrderedMap α} {key : String} {value : α} {entries : List (String × α)}

theorem eq_or_mem_of_mem_put {entry : String × α} (h : entry ∈ put key value entries) :
    entry = (key, value) ∨ entry ∈ entries := by
  induction entries with
  | nil => exact Or.inl (List.mem_singleton.mp h)
  | cons first rest ih =>
    unfold put at h
    split at h
    · rcases List.mem_cons.mp h with rfl | h
      · exact Or.inl rfl
      · exact Or.inr (List.mem_cons_of_mem first h)
    · rcases List.mem_cons.mp h with rfl | h
      · exact Or.inr List.mem_cons_self
      · exact (ih h).imp id (List.mem_cons_of_mem first)

theorem mem_iff_find (distinct : (entries.map Prod.fst).Nodup) :
    (key, value) ∈ entries ↔ find key entries = some value := by
  induction entries with
  | nil => simp [find]
  | cons first rest ih =>
    obtain ⟨hfirst, hrest⟩ := List.nodup_cons.mp distinct
    rw [List.mem_cons, find, ih hrest]
    by_cases hk : first.1 = key
    · have hnone : find key rest = none := by
        rw [← Option.not_isSome_iff_eq_none, ← mem_map_fst_iff_find, ← hk]
        exact hfirst
      rw [if_pos hk, hnone]
      constructor
      · rintro (h | h)
        · rw [← h]
        · cases h
      · intro h
        exact Or.inl (Prod.ext hk.symm (Option.some.inj h).symm)
    · rw [if_neg hk]
      exact or_iff_right fun h => hk (congrArg Prod.fst h).symm

theorem mem_entries_iff (distinct : m.keys.Nodup) :
    (key, value) ∈ m.entries ↔ m.get? key = some value :=
  mem_iff_find distinct

end OrderedMap

/-- What a record says of one field is a matter of what stands under the name of the field,
if no other field and no member that is kept has a part in it. -/
theorem Record.of_decode_member {ρ : Type} {r : Record ρ} {members : OrderedMap Json} {x : ρ}
    {f : Field ρ} {P : Option Json → ρ → Prop} (distinct : members.keys.Nodup) (name : String)
    (field : r.field? name = some f) (blank : P none r.blank)
    (own : ∀ v change, f.read v = .ok change → ∀ x, P (some v) (change x))
    (others : ∀ g ∈ r.fields, g.name ≠ name → ∀ found, g.Keeps (P found))
    (kept : ∀ add entries, r.others = .kept add entries →
      ∀ key v x found, P found x → P found (add key v x))
    (h : r.decode (.object members) = .ok x) : P (members.get? name) x := by
  -- Which of several members of one name would count is left open until keys are distinct.
  have read : (∃ v, (name, v) ∈ members.entries ∧ P (some v) x) ∨
      name ∉ members.entries.map Prod.fst ∧ P none x := by
    refine decode_induction (P := fun seen x => (∃ v, (name, v) ∈ seen ∧ P (some v) x) ∨
      name ∉ seen.map Prod.fst ∧ P none x) (Or.inr ⟨nofun, blank⟩) ?_ h
    intro seen entry change x _ hread hx
    obtain ⟨key, v⟩ := entry
    by_cases hk : key = name
    · subst hk
      rw [readMember_of_field? field] at hread
      exact Or.inl ⟨v, by simp, own v change hread x⟩
    · have keeps : ∀ found, P found x → P found (change x) := by
        intro found hfound
        rcases readMember_cases hread with ⟨g, hg, hname, hg'⟩ | rfl | ⟨add, entries, ho, -, rfl⟩
        · exact others g hg (hname.trans_ne hk) found v change hg' x hfound
        · exact hfound
        · exact kept add entries ho key v x found hfound
      rcases hx with ⟨w, hw, hx⟩ | ⟨hno, hx⟩
      · exact Or.inl ⟨w, List.mem_append_left _ hw, keeps _ hx⟩
      · exact Or.inr ⟨by simpa [Ne.symm hk] using hno, keeps _ hx⟩
  rcases read with ⟨v, hv, hx⟩ | ⟨hno, hx⟩
  · rwa [(OrderedMap.mem_entries_iff distinct).mp hv]
  · rwa [OrderedMap.get?_eq_none_iff.mpr hno]

namespace Json

/-- No object in the value has a key twice. -/
inductive DistinctKeys : Json → Prop
  | null : DistinctKeys .null
  | bool (b : Bool) : DistinctKeys (.bool b)
  | number (n : JsonNumber) : DistinctKeys (.number n)
  | string (s : String) : DistinctKeys (.string s)
  | array {items : List Json} (items_distinct : ∀ v ∈ items, DistinctKeys v) :
    DistinctKeys (.array items)
  | object {members : OrderedMap Json} (keys_nodup : members.keys.Nodup)
    (values : ∀ entry ∈ members.entries, DistinctKeys entry.2) : DistinctKeys (.object members)

namespace DistinctKeys

variable {members : OrderedMap Json} {items : List Json} {key : String} {v : Json}

theorem keys_nodup : DistinctKeys (.object members) → members.keys.Nodup
  | object distinct _ => distinct

theorem of_mem_entries : DistinctKeys (.object members) →
    ∀ entry ∈ members.entries, entry.2.DistinctKeys
  | object _ values => values

theorem of_mem_items : DistinctKeys (.array items) → ∀ v ∈ items, v.DistinctKeys
  | array values => values

theorem empty : DistinctKeys (.object .empty) :=
  .object List.nodup_nil nofun

theorem insert (h : DistinctKeys (.object members)) (hv : v.DistinctKeys) (key : String) :
    DistinctKeys (.object (members.insert key v)) := by
  refine .object (OrderedMap.nodup_keys_insert h.keys_nodup key v) fun entry he => ?_
  rcases OrderedMap.eq_or_mem_of_mem_put he with rfl | he
  · exact hv
  · exact h.of_mem_entries entry he

end DistinctKeys

attribute [simp] DistinctKeys.null DistinctKeys.bool DistinctKeys.number DistinctKeys.string

@[simp] theorem distinctKeys_array_iff {items : List Json} :
    DistinctKeys (.array items) ↔ ∀ v ∈ items, v.DistinctKeys :=
  ⟨fun h => h.of_mem_items, .array⟩

@[simp] theorem distinctKeys_ofEntries_iff {entries : List (String × Json)} :
    (ofEntries entries).DistinctKeys ↔
      (entries.map Prod.fst).Nodup ∧ ∀ entry ∈ entries, entry.2.DistinctKeys :=
  ⟨fun h => ⟨h.keys_nodup, h.of_mem_entries⟩, fun h => .object h.1 h.2⟩

@[simp] theorem distinctKeys_ofStrings (texts : List String) : (ofStrings texts).DistinctKeys := by
  simp [ofStrings]

section Reading

variable {depth : Nat} {s : List Char}

theorem eq_of_readName {value v : Json} {letters s : List Char} {r : Left s}
    (h : readName value letters s = .ok (v, r)) : v = value := by
  induction letters generalizing s with
  | nil =>
    cases h
    rfl
  | cons letter letters ih =>
    cases s with
    | nil => cases h
    | cons c s =>
      unfold readName at h
      split at h
      · obtain ⟨⟨w, rest⟩, hread, heq⟩ := map_eq_ok_iff.mp h
        cases heq
        exact ih hread
      · cases h

theorem distinctKeys_of_name {c : Char} {letters : List Char} {value : Json}
    (h : Start.ofChar c = .name letters value) : value.DistinctKeys := by
  unfold Start.ofChar at h
  split at h
  case h_8 =>
    split at h <;> cases h
  all_goals cases h
  · exact .null
  · exact .bool true
  · exact .bool false

/-- A value has distinct keys if those of the arrays and objects that begin behind its first
character have. -/
theorem distinctKeys_of_readValue {v : Json} {r : Rest s}
    (items : ∀ rest : List Char, rest.length < s.length → ∀ depth v r,
      readItems depth [] rest = .ok (v, r) → v.DistinctKeys)
    (members : ∀ rest : List Char, rest.length < s.length → ∀ depth v r,
      readMembers depth .empty rest = .ok (v, r) → v.DistinctKeys)
    (h : readValue depth s = .ok (v, r)) : v.DistinctKeys := by
  rw [readValue] at h
  split at h
  · cases h
  · next c rest hs =>
    have shorter : rest.length < s.length := length_lt_of_skipSpace_eq hs
    simp only at h
    split at h
    · next letters value hc =>
      obtain ⟨⟨w, t⟩, hread, heq⟩ := map_eq_ok_iff.mp h
      cases heq
      rw [eq_of_readName hread]
      exact distinctKeys_of_name hc
    · obtain ⟨⟨n, t⟩, -, heq⟩ := map_eq_ok_iff.mp h
      cases heq
      exact .number n
    · obtain ⟨⟨n, t⟩, -, heq⟩ := map_eq_ok_iff.mp h
      cases heq
      exact .number n
    · obtain ⟨⟨text, t⟩, -, heq⟩ := map_eq_ok_iff.mp h
      cases heq
      exact .string text
    · split at h
      · cases h
      · split at h
        · cases h
          exact .array (List.forall_mem_nil _)
        · obtain ⟨⟨w, t⟩, hread, heq⟩ := map_eq_ok_iff.mp h
          cases heq
          exact items rest shorter _ w t hread
    · split at h
      · cases h
      · split at h
        · cases h
          exact .empty
        · obtain ⟨⟨w, t⟩, hread, heq⟩ := map_eq_ok_iff.mp h
          cases heq
          exact members rest shorter _ w t hread
    · cases h

/-- Whatever a value is read from, and whatever items or members were read before the rest of
it, its keys are distinct if theirs are. -/
theorem distinctKeys_of_reading (n : Nat) : ∀ s : List Char, s.length < n →
    (∀ depth v r, readValue depth s = .ok (v, r) → v.DistinctKeys) ∧
    (∀ depth read v r, (∀ item ∈ read, item.DistinctKeys) →
      readItems depth read s = .ok (v, r) → v.DistinctKeys) ∧
    (∀ depth read v r, DistinctKeys (.object read) →
      readMembers depth read s = .ok (v, r) → v.DistinctKeys) := by
  -- The three readers call each other, each on a shorter text.
  induction n with
  | zero => exact fun s h => absurd h (Nat.not_lt_zero _)
  | succ n ih =>
    intro s hs
    have value : ∀ depth v r, readValue depth s = .ok (v, r) → v.DistinctKeys := by
      intro depth v r
      apply distinctKeys_of_readValue
      · intro rest hrest depth v r
        exact (ih rest (by omega)).2.1 depth [] v r nofun
      · intro rest hrest depth v r
        exact (ih rest (by omega)).2.2 depth .empty v r .empty
    refine ⟨value, ?_, ?_⟩
    · intro depth read v r hread h
      rw [readItems] at h
      obtain ⟨⟨item, rest, hrest⟩, hitem, h⟩ := bind_eq_ok_iff.mp h
      have hall : ∀ v ∈ item :: read, v.DistinctKeys :=
        List.forall_mem_cons.mpr ⟨value depth item _ hitem, hread⟩
      dsimp only at h
      split at h
      · next t ht _ =>
        obtain ⟨⟨w, u⟩, hmore, heq⟩ := bind_eq_ok_iff.mp h
        cases heq
        exact (ih t (by omega)).2.1 depth (item :: read) w u hall hmore
      · obtain ⟨t, -, heq⟩ := bind_eq_ok_iff.mp h
        cases heq
        exact .array fun v hv => hall v (List.mem_reverse.mp hv)
    · intro depth read v r hread h
      rw [readMembers] at h
      obtain ⟨⟨afterQuote, hquote⟩, -, h⟩ := bind_eq_ok_iff.mp h
      obtain ⟨⟨key, afterKey, hkey⟩, -, h⟩ := bind_eq_ok_iff.mp h
      obtain ⟨⟨afterColon, hcolon⟩, -, h⟩ := bind_eq_ok_iff.mp h
      obtain ⟨⟨item, rest, hrest⟩, hitem, h⟩ := bind_eq_ok_iff.mp h
      have hitem : item.DistinctKeys := (ih afterColon (by omega)).1 depth item _ hitem
      have hinsert := hread.insert hitem key
      dsimp only at h
      split at h
      · next t ht _ =>
        obtain ⟨⟨w, u⟩, hmore, heq⟩ := bind_eq_ok_iff.mp h
        cases heq
        exact (ih t (by omega)).2.2 depth (read.insert key item) w u hinsert hmore
      · obtain ⟨t, -, heq⟩ := bind_eq_ok_iff.mp h
        cases heq
        exact hinsert

theorem distinctKeys_of_parse {text : String} {v : Json} (h : parse text = .ok v) :
    v.DistinctKeys := by
  unfold parse at h
  obtain ⟨⟨w, rest, hrest⟩, hread, h⟩ := bind_eq_ok_iff.mp h
  obtain rfl : w = v := by
    dsimp only at h
    split at h
    · exact Except.ok.inj h
    · cases h
  exact (distinctKeys_of_reading _ text.toList (Nat.lt_succ_self _)).1 maxDepth w _ hread

end Reading

end Json

end SubmissionAnnotation
