/-!
# Ordered sets and first repeats

An ordered set is a list without repeats. Lists become sets by keeping the first of equal items; the
first repeat of a list is the first item that already stands before.
-/
namespace SubmissionAnnotation

/-- The items of a list, each at its first place only. -/
def distinct {α : Type} [DecidableEq α] : List α → List α
  | [] => []
  | x :: xs => x :: (distinct xs).filter (· ≠ x)

/-- The first item of a list that is among those seen before it. -/
def firstRepeatAfter {α : Type} [DecidableEq α] (seen : List α) : List α → Option α
  | [] => none
  | x :: xs => if x ∈ seen then some x else firstRepeatAfter (x :: seen) xs

def firstRepeat? {α : Type} [DecidableEq α] (xs : List α) : Option α :=
  firstRepeatAfter [] xs

@[simp] theorem mem_distinct {α : Type} [DecidableEq α] {a : α} {xs : List α} :
    a ∈ distinct xs ↔ a ∈ xs := by
  induction xs with
  | nil => simp [distinct]
  | cons x xs ih =>
    by_cases h : a = x <;> simp [distinct, ih, h]

theorem nodup_distinct {α : Type} [DecidableEq α] (xs : List α) : (distinct xs).Nodup := by
  induction xs with
  | nil => simp [distinct]
  | cons x xs ih =>
    refine List.nodup_cons.mpr ⟨?_, ih.sublist List.filter_sublist⟩
    simp

theorem distinct_of_nodup {α : Type} [DecidableEq α] {xs : List α} (h : xs.Nodup) :
    distinct xs = xs := by
  induction xs with
  | nil => rfl
  | cons x xs ih =>
    obtain ⟨hx, hxs⟩ := List.nodup_cons.mp h
    simp only [distinct, ih hxs, List.cons.injEq, true_and]
    exact List.filter_eq_self.mpr fun a ha => decide_eq_true fun e : a = x => hx (e ▸ ha)

theorem firstRepeatAfter_eq_none_iff {α : Type} [DecidableEq α] {seen xs : List α} :
    firstRepeatAfter seen xs = none ↔ xs.Nodup ∧ ∀ x ∈ xs, x ∉ seen := by
  induction xs generalizing seen with
  | nil => simp [firstRepeatAfter]
  | cons x xs ih =>
    by_cases h : x ∈ seen
    · simp [firstRepeatAfter, h]
    · rw [firstRepeatAfter, if_neg h, ih, List.nodup_cons, List.forall_mem_cons]
      constructor
      · rintro ⟨hn, hs⟩
        refine ⟨⟨fun hx => hs x hx List.mem_cons_self, hn⟩, h, fun y hy hy' => ?_⟩
        exact hs y hy (List.mem_cons_of_mem x hy')
      · rintro ⟨⟨hx, hn⟩, -, hs⟩
        refine ⟨hn, fun y hy hy' => ?_⟩
        rcases List.mem_cons.mp hy' with rfl | hy'
        · exact hx hy
        · exact hs y hy hy'

theorem firstRepeat?_eq_none_iff {α : Type} [DecidableEq α] {xs : List α} :
    firstRepeat? xs = none ↔ xs.Nodup := by
  simp [firstRepeat?, firstRepeatAfter_eq_none_iff]

/-- A list of strings without repeats. -/
structure OrderedSet where
  items : List String
  nodup : items.Nodup

namespace OrderedSet

def empty : OrderedSet := ⟨[], List.nodup_nil⟩

/-- The set of the items of a list, in the order of their first places. -/
def ofList (xs : List String) : OrderedSet :=
  ⟨distinct xs, nodup_distinct xs⟩

theorem ext {s t : OrderedSet} (h : s.items = t.items) : s = t := by
  cases s
  cases t
  simpa using h

@[simp] theorem items_empty : empty.items = [] := rfl

@[simp] theorem mem_items_ofList {a : String} {xs : List String} : a ∈ (ofList xs).items ↔ a ∈ xs :=
  mem_distinct

theorem items_ofList_of_nodup {xs : List String} (h : xs.Nodup) : (ofList xs).items = xs :=
  distinct_of_nodup h

end OrderedSet

end SubmissionAnnotation
