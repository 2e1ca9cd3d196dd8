import Mathlib.Data.List.Forall2
import SubmissionAnnotation.Codec.Record

/-!
# What is read of an object

A record is read from an object member by member, each member making a change to the
blank record, and only then are fields looked for that no member gave. So an object can
be read if each of its members can and no required field is missing, and what is read
has every property that the blank record has and that no member breaks. An array is read
field by field, and what no field breaks is so of arrays too.
-/
namespace SubmissionAnnotation

theorem mapM_eq_ok_iff {α β ε : Type} {f : α → Except ε β} {xs : List α} {ys : List β} :
    xs.mapM f = .ok ys ↔ List.Forall₂ (fun x y => f x = .ok y) xs ys := by
  induction xs generalizing ys with
  | nil => simp [pure, Except.pure, eq_comm]
  | cons x xs ih =>
    rw [List.mapM_cons, List.forall₂_cons_left_iff]
    cases hx : f x with
    | error e => simp [bind, Except.bind]
    | ok y =>
      cases hxs : xs.mapM f with
      | error e => simp [bind, Except.bind, ← ih, hxs]
      | ok rest => simp [bind, Except.bind, pure, Except.pure, ← ih, hxs, eq_comm]

theorem exists_mapM_eq_ok {α β ε : Type} {f : α → Except ε β} {xs : List α} {P : β → Prop}
    (h : ∀ x ∈ xs, ∃ y, f x = .ok y ∧ P y) : ∃ ys, xs.mapM f = .ok ys ∧ ∀ y ∈ ys, P y := by
  induction xs with
  | nil => exact ⟨[], rfl, nofun⟩
  | cons x xs ih =>
    obtain ⟨y, hy, hP⟩ := h x List.mem_cons_self
    obtain ⟨ys, hys, hPs⟩ := ih fun z hz => h z (List.mem_cons_of_mem x hz)
    exact ⟨y :: ys, mapM_eq_ok_iff.mpr (.cons hy (mapM_eq_ok_iff.mp hys)),
      List.forall_mem_cons.mpr ⟨hP, hPs⟩⟩

theorem map_eq_ok_iff {α β ε : Type} {f : α → β} {outcome : Except ε α} {y : β} :
    outcome.map f = .ok y ↔ ∃ x, outcome = .ok x ∧ f x = y := by
  cases outcome <;> simp [Except.map]

theorem map_eq_error_iff {α β ε : Type} {f : α → β} {outcome : Except ε α} {e : ε} :
    outcome.map f = .error e ↔ outcome = .error e := by
  cases outcome <;> simp [Except.map]

theorem bind_eq_ok_iff {α β ε : Type} {f : α → Except ε β} {outcome : Except ε α} {y : β} :
    (outcome >>= f) = .ok y ↔ ∃ x, outcome = .ok x ∧ f x = .ok y := by
  cases outcome <;> simp [bind, Except.bind]

theorem bind_eq_error_iff {α β ε : Type} {f : α → Except ε β} {outcome : Except ε α} {e : ε} :
    (outcome >>= f) = .error e ↔ outcome = .error e ∨ ∃ x, outcome = .ok x ∧ f x = .error e := by
  cases outcome <;> simp [bind, Except.bind]

theorem error_of_foldlM {α β ε : Type} {f : β → α → Except ε β} {P : ε → Prop}
    (h : ∀ y x e, f y x = .error e → P e) {xs : List α} {y : β} {e : ε}
    (failed : xs.foldlM f y = .error e) : P e := by
  induction xs generalizing y with
  | nil => cases failed
  | cons x xs ih =>
    rw [List.foldlM_cons] at failed
    rcases bind_eq_error_iff.mp failed with failed | ⟨next, -, failed⟩
    · exact h y x e failed
    · exact ih failed

namespace Codec

theorem decode_string_eq_ok_iff {v : Json} {s : String} :
    string.decode v = .ok s ↔ v = .string s := by
  cases v <;> simp [string]

theorem decode_list_eq_ok_iff {α : Type} {c : Codec α} {v : Json} {xs : List α} :
    (list c).decode v = .ok xs ↔
      ∃ items, v = .array items ∧ List.Forall₂ (fun item x => c.decode item = .ok x) items xs := by
  cases v with
  | array items =>
    have hitems : (list c).decode (.array items) = items.mapM c.decode := rfl
    rw [hitems, mapM_eq_ok_iff]
    simp
  | _ => simp [list]

theorem decode_strings_eq_ok_iff {v : Json} {xs : List String} :
    (list string).decode v = .ok xs ↔ v = .ofStrings xs := by
  simp only [decode_list_eq_ok_iff, decode_string_eq_ok_iff]
  simp only [← List.forall₂_map_right_iff, List.forall₂_eq_eq_eq, Json.ofStrings,
    exists_eq_right]

end Codec

namespace Field

variable {ρ α : Type} {good : ρ → Prop} {name : String} {c : Codec α}

/-- No value that the field can read makes a good record bad. -/
def Keeps (f : Field ρ) (good : ρ → Prop) : Prop :=
  ∀ v change, f.read v = .ok change → ∀ x, good x → good (change x)

theorem keeps_defaulted {get : ρ → α} {set : α → ρ → ρ}
    (h : ∀ v a, c.decode v = .ok a → ∀ x, good x → good (set a x)) :
    (defaulted name c get set).Keeps good := by
  intro v change hread x hx
  obtain ⟨a, ha, rfl⟩ := map_eq_ok_iff.mp hread
  exact h v a ha x hx

theorem keeps_optional {get : ρ → Option α} {set : Option α → ρ → ρ}
    (h : ∀ a x, good x → good (set a x)) : (optional name c get set).Keeps good := by
  intro v change hread x hx
  cases v with
  | null =>
    obtain rfl := Except.ok.inj hread
    exact h none x hx
  | _ =>
    obtain ⟨a, -, rfl⟩ := map_eq_ok_iff.mp hread
    exact h (some a) x hx

end Field

namespace Record

variable {ρ : Type} {r : Record ρ} {members : OrderedMap Json} {good : ρ → Prop} {x : ρ}

theorem missing?_eq_none_iff :
    r.missing? members = none ↔ ∀ f ∈ r.fields, f.required = true → f.name ∈ members.keys := by
  simp [missing?, OrderedMap.mem_keys_iff]

theorem decode_object_eq_ok_iff :
    r.decode (.object members) = .ok x ↔
      ∃ changes, members.entries.mapM r.readMember = .ok changes ∧ r.missing? members = none ∧
        x = changes.foldl (fun x change => change x) r.blank := by
  rw [decode, readObject]
  cases hc : members.entries.mapM r.readMember with
  | error e => simp [bind, Except.bind]
  | ok changes =>
    cases hm : r.missing? members with
    | none => simp [bind, Except.bind, pure, Except.pure, eq_comm]
    | some f => simp [bind, Except.bind, throw, throwThe, MonadExceptOf.throw]

/-- An object can be read if all of its members can and no required field is missing, and
what is read is good if the blank record is and no member makes it bad. -/
theorem exists_decode (blank : good r.blank)
    (readable : ∀ entry ∈ members.entries, ∃ change, r.readMember entry = .ok change ∧
      ∀ x, good x → good (change x))
    (complete : ∀ f ∈ r.fields, f.required = true → f.name ∈ members.keys) :
    ∃ x, r.decode (.object members) = .ok x ∧ good x := by
  obtain ⟨changes, hc, keep⟩ := exists_mapM_eq_ok readable
  refine ⟨_, decode_object_eq_ok_iff.mpr ⟨changes, hc, missing?_eq_none_iff.mpr complete, rfl⟩, ?_⟩
  exact List.foldlRecOn changes _ blank fun x hx change hmem => keep change hmem x hx

theorem exists_decode_of_readable
    (readable : ∀ entry ∈ members.entries, ∃ change, r.readMember entry = .ok change)
    (complete : ∀ f ∈ r.fields, f.required = true → f.name ∈ members.keys) :
    ∃ x, r.decode (.object members) = .ok x := by
  have read : ∃ x, r.decode (.object members) = .ok x ∧ True := by
    refine exists_decode trivial (fun entry he => ?_) complete
    obtain ⟨change, hc⟩ := readable entry he
    exact ⟨change, hc, fun _ => id⟩
  obtain ⟨x, hx, -⟩ := read
  exact ⟨x, hx⟩

/-- Induction over the members that a record was read from. -/
theorem decode_induction {P : List (String × Json) → ρ → Prop} (blank : P [] r.blank)
    (member : ∀ seen entry change x, entry ∈ members.entries → r.readMember entry = .ok change →
      P seen x → P (seen ++ [entry]) (change x))
    (h : r.decode (.object members) = .ok x) : P members.entries x := by
  obtain ⟨changes, hc, -, rfl⟩ := decode_object_eq_ok_iff.mp h
  -- The members that were seen and the record so far both grow along the walk.
  suffices walk : ∀ seen rest changes x, (∀ entry ∈ rest, entry ∈ members.entries) →
      List.Forall₂ (fun entry change => r.readMember entry = .ok change) rest changes →
      P seen x → P (seen ++ rest) (changes.foldl (fun x change => change x) x) from
    walk [] members.entries changes r.blank (fun _ he => he) (mapM_eq_ok_iff.mp hc) blank
  intro seen rest changes x hsub hrest hx
  induction hrest generalizing seen x with
  | nil => simpa using hx
  | @cons entry change rest changes hread hrest ih =>
    have hentry := hsub entry List.mem_cons_self
    have hnext := member seen entry change x hentry hread hx
    have hlast := ih (seen ++ [entry]) (change x)
      (fun e he => hsub e (List.mem_cons_of_mem entry he)) hnext
    simpa using hlast

theorem field?_eq_none_iff {name : String} : r.field? name = none ↔ name ∉ r.fieldNames := by
  simp [field?, fieldNames]

theorem readMember_of_field? {f : Field ρ} {entry : String × Json}
    (h : r.field? entry.1 = some f) : r.readMember entry = f.read entry.2 := by
  rw [readMember, h]

theorem readMember_cases {entry : String × Json} {change : ρ → ρ}
    (h : r.readMember entry = .ok change) :
    (∃ f ∈ r.fields, f.name = entry.1 ∧ f.read entry.2 = .ok change) ∨ change = id ∨
    ∃ add entries, r.others = .kept add entries ∧ entry.1 ∉ r.fieldNames ∧
      change = add entry.1 entry.2 := by
  cases hf : r.field? entry.1 with
  | some f =>
    rw [readMember_of_field? hf] at h
    have hname := List.find?_some hf
    exact Or.inl ⟨f, List.mem_of_find?_eq_some hf, of_decide_eq_true hname, h⟩
  | none =>
    rw [readMember, hf] at h
    have hname : entry.1 ∉ r.fieldNames := field?_eq_none_iff.mp hf
    cases ho : r.others with
    | ignored =>
      rw [ho] at h
      exact Or.inr (Or.inl (Except.ok.inj h).symm)
    | refused =>
      rw [ho] at h
      cases h
    | kept add entries =>
      rw [ho] at h
      exact Or.inr (Or.inr ⟨add, entries, rfl, hname, (Except.ok.inj h).symm⟩)

theorem good_of_readItems {count position : Nat} {fields : List (Field ρ)} {items : List Json}
    {y : ρ} (keeps : ∀ f ∈ fields, f.Keeps good) (hx : good x)
    (h : r.readItems count position fields items x = .ok y) : good y := by
  induction fields generalizing position items x with
  | nil =>
    cases items with
    | nil => exact Except.ok.inj h ▸ hx
    | cons item items =>
      unfold readItems at h
      split at h
      · exact Except.ok.inj h ▸ hx
      · cases h
  | cons f fields ih =>
    obtain ⟨hf, hfields⟩ := List.forall_mem_cons.mp keeps
    cases items with
    | nil =>
      unfold readItems at h
      split at h
      · cases h
      · exact ih hfields hx h
    | cons item items =>
      obtain ⟨change, hread, h⟩ := bind_eq_ok_iff.mp h
      exact ih hfields (hf item change hread x hx) h

theorem good_of_decode (blank : good r.blank) (keeps : ∀ f ∈ r.fields, f.Keeps good)
    (kept : ∀ add entries, r.others = .kept add entries → ∀ name ∉ r.fieldNames, ∀ v x,
      good x → good (add name v x)) {v : Json} (h : r.decode v = .ok x) : good x := by
  cases v with
  | object members =>
    refine decode_induction (P := fun _ x => good x) blank ?_ h
    intro _ entry change x _ hread hx
    rcases readMember_cases hread with ⟨f, hf, -, hf'⟩ | rfl | ⟨add, entries, ho, hname, rfl⟩
    · exact keeps f hf entry.2 change hf' x hx
    · exact hx
    · exact kept add entries ho entry.1 hname entry.2 x hx
  | array items =>
    cases ho : r.others with
    | kept add entries =>
      simp only [decode, ho] at h
      cases h
    | _ =>
      simp only [decode, ho] at h
      exact good_of_readItems keeps blank h
  | _ => cases h

end Record

end SubmissionAnnotation
