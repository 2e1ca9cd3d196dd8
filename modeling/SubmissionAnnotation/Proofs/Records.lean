import SubmissionAnnotation.Proofs.Reading
import SubmissionAnnotation.Transcript

/-!
# Records read back what they wrote

A record is written field by field and read member by member, and what is not
written must be made up by the blank record. `Field.carry` is the change that
writing and reading one field makes; a record survives being stored if its fields
are legible and their changes, made one after the other, turn the blank record into
it. Transcripts and their revisions survive so, whatever optional parts they have. Where
not every value survives, it is enough that those do which can be read.
-/
namespace SubmissionAnnotation

namespace Codec

variable {α : Type} {c : Codec α}

theorem readsBack_list {xs : List α} (h : ∀ x ∈ xs, c.ReadsBack x) : (list c).ReadsBack xs := by
  induction xs with
  | nil => rfl
  | cons x xs ih =>
    obtain ⟨hx, hxs⟩ := List.forall_mem_cons.mp h
    have hrest : (xs.map c.encode).mapM c.decode = .ok xs := ih hxs
    have hfirst : c.decode (c.encode x) = .ok x := hx
    change ((x :: xs).map c.encode).mapM c.decode = .ok (x :: xs)
    rw [List.map_cons, List.mapM_cons, hfirst, hrest]
    rfl

theorem lawful_list (h : c.Lawful) : (list c).Lawful :=
  fun _ => readsBack_list fun x _ => h x

@[simp] theorem readsBack_strings (xs : List String) : (list string).ReadsBack xs :=
  lawful_list lawful_string xs

theorem stable_list (h : c.Stable) : (list c).Stable := by
  intro v xs hv
  cases v with
  | array items =>
    have hread : List.Forall₂ (fun item x => c.decode item = .ok x) items xs :=
      mapM_eq_ok_iff.mp hv
    apply readsBack_list
    intro x hx
    obtain ⟨i, hi, rfl⟩ := List.mem_iff_getElem.mp hx
    exact h _ _ (hread.get (hread.length_eq ▸ hi) hi)
  | _ => cases hv

theorem readsBack_map (h : c.Lawful) {m : OrderedMap α} (distinct : m.keys.Nodup) :
    (map c).ReadsBack m := by
  have hread : (m.entries.map fun entry => (entry.1, c.encode entry.2)).mapM
      (fun entry => (c.decode entry.2).map fun x => (entry.1, x)) = .ok m.entries := by
    apply mapM_eq_ok_iff.mpr
    apply List.forall₂_map_left_iff.mpr
    apply List.forall₂_same.mpr
    intro entry _
    exact map_eq_ok_iff.mpr ⟨entry.2, h entry.2, rfl⟩
  have hdecode : (map c).decode ((map c).encode m) = (Except.ok m.entries).map OrderedMap.ofList :=
    congrArg (Except.map OrderedMap.ofList) hread
  exact hdecode.trans (congrArg Except.ok (OrderedMap.ofList_of_nodup distinct))

theorem stable_map (h : c.Lawful) : (map c).Stable := by
  intro v m hv
  cases v with
  | object members =>
    obtain ⟨entries, -, rfl⟩ := map_eq_ok_iff.mp hv
    exact readsBack_map h (OrderedMap.nodup_keys_ofList entries)
  | _ => cases hv

end Codec

namespace Field

variable {ρ α : Type} {f : Field ρ} {x y : ρ} {name : String} {c : Codec α}

/-- The change that reading makes of what is written of `x`; none if nothing is written. -/
def carry (f : Field ρ) (x : ρ) : ρ → ρ :=
  match (f.write x).map f.read with
  | some (.ok change) => change
  | _ => id

/-- What is written of `x` can be read, and only a field that may be missing is not written. -/
structure Legible (f : Field ρ) (x : ρ) : Prop where
  read_eq : ∀ v, f.write x = some v → f.read v = .ok (f.carry x)
  not_required : f.write x = none → f.required = false

theorem carry_of_write_eq_none (h : f.write x = none) : f.carry x = id := by
  simp [carry, h]

theorem carry_of_read {v : Json} {change : ρ → ρ} (hw : f.write x = some v)
    (hr : f.read v = .ok change) : f.carry x = change := by
  simp [carry, hw, hr]

theorem legible_of_read {v : Json} {change : ρ → ρ} (hw : f.write x = some v)
    (hr : f.read v = .ok change) : f.Legible x := by
  constructor
  · intro w h
    obtain rfl : v = w := Option.some.inj (hw.symm.trans h)
    rw [carry_of_read hw hr, hr]
  · intro h
    cases hw.symm.trans h

section Plain

variable {get : ρ → α} {set : α → ρ → ρ}

theorem map_decode_of_readsBack {a : α} (h : c.ReadsBack a) (set : α → ρ → ρ) :
    (c.decode (c.encode a)).map set = .ok (set a) := by
  have hd : c.decode (c.encode a) = .ok a := h
  rw [hd]
  rfl

@[simp] theorem carry_needed (h : c.ReadsBack (get x)) :
    (needed name c get set).carry x = set (get x) :=
  carry_of_read rfl (map_decode_of_readsBack h set)

@[simp] theorem legible_needed (h : c.ReadsBack (get x)) : (needed name c get set).Legible x :=
  legible_of_read rfl (map_decode_of_readsBack h set)

@[simp] theorem carry_defaulted (h : c.ReadsBack (get x)) :
    (defaulted name c get set).carry x = set (get x) :=
  carry_of_read rfl (map_decode_of_readsBack h set)

@[simp] theorem legible_defaulted (h : c.ReadsBack (get x)) :
    (defaulted name c get set).Legible x :=
  legible_of_read rfl (map_decode_of_readsBack h set)

end Plain

section Optional

variable {get : ρ → Option α} {set : Option α → ρ → ρ}

theorem read_optional {a : α} (h : c.ReadsBack a) (hn : c.encode a ≠ .null) :
    (optional name c get set).read (c.encode a) = .ok (set (some a)) := by
  have hd : c.decode (c.encode a) = .ok a := h
  simp [optional, hd, Except.map]

@[simp] theorem carry_optional (h : ∀ a, get x = some a → c.ReadsBack a)
    (hn : ∀ a, get x = some a → c.encode a ≠ .null) (hy : set none y = y) :
    (optional name c get set).carry x y = set (get x) y := by
  cases hx : get x with
  | none =>
    have hw : (optional name c get set).write x = none := by simp [optional, hx]
    rw [carry_of_write_eq_none hw, hy]
    rfl
  | some a =>
    have hw : (optional name c get set).write x = some (c.encode a) := by simp [optional, hx]
    rw [carry_of_read hw (read_optional (h a hx) (hn a hx))]

@[simp] theorem legible_optional (h : ∀ a, get x = some a → c.ReadsBack a)
    (hn : ∀ a, get x = some a → c.encode a ≠ .null) : (optional name c get set).Legible x := by
  cases hx : get x with
  | none =>
    have hw : (optional name c get set).write x = none := by simp [optional, hx]
    exact ⟨fun v hv => (nomatch hw.symm.trans hv), fun _ => rfl⟩
  | some a =>
    have hw : (optional name c get set).write x = some (c.encode a) := by simp [optional, hx]
    exact legible_of_read hw (read_optional (h a hx) (hn a hx))

end Optional

end Field

namespace Record

variable {ρ : Type} {r : Record ρ} {x : ρ} {fields : List (Field ρ)}

def written (fields : List (Field ρ)) (x : ρ) : List (String × Json) :=
  fields.filterMap fun f => (f.write x).map fun v => (f.name, v)

theorem mem_written_keys {f : Field ρ} {v : Json} (hf : f ∈ fields) (hv : f.write x = some v) :
    f.name ∈ (written fields x).map Prod.fst := by
  refine List.mem_map.mpr ⟨(f.name, v), ?_, rfl⟩
  exact List.mem_filterMap.mpr ⟨f, hf, by simp [hv]⟩

theorem field?_of_mem (names : r.fieldNames.Nodup) {f : Field ρ} (hf : f ∈ r.fields) :
    r.field? f.name = some f := by
  unfold field?
  unfold fieldNames at names
  generalize r.fields = fields at names hf
  induction fields with
  | nil => cases hf
  | cons g rest ih =>
    rw [List.map_cons, List.nodup_cons] at names
    rcases List.mem_cons.mp hf with rfl | hf
    · simp
    · have hne : g.name ≠ f.name := fun h => names.1 (h ▸ List.mem_map_of_mem hf)
      simp [hne, ih names.2 hf]

theorem mapM_readMember_written (h : ∀ f ∈ fields, r.field? f.name = some f ∧ f.Legible x) :
    ∃ changes, (written fields x).mapM r.readMember = .ok changes ∧
      ∀ y, changes.foldl (fun y change => change y) y =
        fields.foldl (fun y f => f.carry x y) y := by
  induction fields with
  | nil => exact ⟨[], rfl, fun _ => rfl⟩
  | cons f rest ih =>
    obtain ⟨changes, hc, hfold⟩ := ih fun g hg => h g (List.mem_cons_of_mem f hg)
    obtain ⟨hf, legible⟩ := h f List.mem_cons_self
    cases hw : f.write x with
    | none =>
      refine ⟨changes, ?_, fun y => ?_⟩
      · simpa [written, hw] using hc
      · rw [List.foldl_cons, Field.carry_of_write_eq_none hw]
        exact hfold y
    | some v =>
      have hr : r.readMember (f.name, v) = .ok (f.carry x) := by
        simp [readMember, hf, legible.read_eq v hw]
      have hs : written (f :: rest) x = (f.name, v) :: written rest x := by simp [written, hw]
      refine ⟨f.carry x :: changes, ?_, fun y => ?_⟩
      · rw [hs, List.mapM_cons, hr, hc]
        rfl
      · rw [List.foldl_cons, List.foldl_cons]
        exact hfold _

theorem missing?_written (h : ∀ f ∈ r.fields, f.Legible x) :
    r.missing? ⟨written r.fields x⟩ = none := by
  refine List.find?_eq_none.mpr fun f hf => ?_
  cases hw : f.write x with
  | none => simp [(h f hf).not_required hw]
  | some v =>
    have hk : OrderedMap.contains ⟨written r.fields x⟩ f.name = true :=
      OrderedMap.mem_keys_iff.mp (mem_written_keys hf hw)
    simp [hk]

/-- A record is read back if its fields are legible, its other members can be read, and the
changes of all of them make it of the blank record. -/
theorem readsBack_of_members {others : List (String × Json)} {changes : List (ρ → ρ)}
    (members : r.members x = written r.fields x ++ others) (names : r.fieldNames.Nodup)
    (legible : ∀ f ∈ r.fields, f.Legible x) (readable : others.mapM r.readMember = .ok changes)
    (rebuilt : changes.foldl (fun y change => change y)
      (r.fields.foldl (fun y f => f.carry x y) r.blank) = x) : r.codec.ReadsBack x := by
  obtain ⟨own, hown, hfold⟩ :=
    mapM_readMember_written (r := r) (x := x) fun f hf => ⟨field?_of_mem names hf, legible f hf⟩
  have hread : (r.members x).mapM r.readMember = .ok (own ++ changes) := by
    rw [members, List.mapM_append, hown, readable]
    rfl
  have hmissing : r.missing? ⟨r.members x⟩ = none := by
    apply missing?_eq_none_iff.mpr
    intro f hf hr
    have hkey := missing?_eq_none_iff.mp (missing?_written legible) f hf hr
    have hkeys : OrderedMap.keys ⟨r.members x⟩ =
        OrderedMap.keys ⟨written r.fields x⟩ ++ others.map Prod.fst := by
      simp [OrderedMap.keys, members]
    rw [hkeys]
    exact List.mem_append_left _ hkey
  refine decode_object_eq_ok_iff.mpr ⟨_, hread, hmissing, ?_⟩
  rw [List.foldl_append, hfold]
  exact rebuilt.symm

theorem readsBack_of_fields (names : r.fieldNames.Nodup)
    (others : ∀ add entries, r.others ≠ .kept add entries) (legible : ∀ f ∈ r.fields, f.Legible x)
    (rebuilt : r.fields.foldl (fun y f => f.carry x y) r.blank = x) : r.codec.ReadsBack x := by
  have hm : r.members x = written r.fields x ++ [] := by
    unfold members
    split
    · next add entries ho => exact absurd ho (others add entries)
    · rfl
  exact readsBack_of_members hm names legible rfl rebuilt

theorem readsBack_of_kept {add : String → Json → ρ → ρ} {entries : ρ → List (String × Json)}
    (ho : r.others = .kept add entries) (names : r.fieldNames.Nodup)
    (foreign : ∀ entry ∈ entries x, entry.1 ∉ r.fieldNames) (legible : ∀ f ∈ r.fields, f.Legible x)
    (rebuilt : (entries x).foldl (fun y entry => add entry.1 entry.2 y)
      (r.fields.foldl (fun y f => f.carry x y) r.blank) = x) : r.codec.ReadsBack x := by
  have hm : r.members x = written r.fields x ++ entries x := by
    simp [members, written, ho]
  have hkept : (entries x).mapM r.readMember =
      .ok ((entries x).map fun entry => add entry.1 entry.2) := by
    apply mapM_eq_ok_iff.mpr
    apply List.forall₂_map_right_iff.mpr
    apply List.forall₂_same.mpr
    intro entry he
    have hnone : r.field? entry.1 = none := field?_eq_none_iff.mpr (foreign entry he)
    simp [readMember, hnone, ho]
  refine readsBack_of_members hm names legible hkept ?_
  rwa [List.foldl_map]

theorem stable_of_keeps (good : ρ → Prop) (others : ∀ add entries, r.others ≠ .kept add entries)
    (blank : good r.blank) (keeps : ∀ f ∈ r.fields, f.Keeps good)
    (back : ∀ x, good x → r.codec.ReadsBack x) : r.codec.Stable := fun _ x h =>
  back x (good_of_decode blank keeps (fun add entries ho => absurd ho (others add entries)) h)

end Record

@[simp] theorem Codec.encode_string_ne_null (s : String) : Codec.string.encode s ≠ .null := nofun

theorem TranscriptRevision.lawful_record : TranscriptRevision.record.codec.Lawful := fun _ =>
  Record.readsBack_of_fields (by decide) (by simp [record]) (by simp [record]) (by simp [record])

theorem TranscriptValue.lawful_record : TranscriptValue.record.codec.Lawful := by
  intro x
  have revisions : (Codec.list TranscriptRevision.record.codec).ReadsBack x.revisions :=
    Codec.lawful_list TranscriptRevision.lawful_record x.revisions
  exact Record.readsBack_of_fields (by decide) (by simp [record]) (by simp [record, revisions])
    (by simp [record, revisions])

end SubmissionAnnotation
