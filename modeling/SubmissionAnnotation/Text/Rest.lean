/-!
# What is left after reading

A reader takes something from the front of a list and returns the rest, together with the fact that
the rest is shorter, or at least no longer. Loops over readers end by the length of what is left.
-/
namespace SubmissionAnnotation

universe u

/-- What is left of a list after something was read from its front. -/
abbrev Rest {α : Type u} (s : List α) := { r : List α // r.length < s.length }

/-- What is left of a list from whose front something may have been read. -/
abbrev Left {α : Type u} (s : List α) := { r : List α // r.length ≤ s.length }

namespace Left

variable {α : Type u}

/-- Nothing was read. -/
def all (s : List α) : Left s :=
  ⟨s, Nat.le_refl _⟩

/-- The first item was read. -/
def tail (x : α) (s : List α) : Left (x :: s) :=
  ⟨s, Nat.le_succ _⟩

/-- What is left of the items behind the first. -/
def behind {s : List α} (x : α) (r : Left s) : Left (x :: s) :=
  ⟨r.1, Nat.le_succ_of_le r.2⟩

/-- A number of items was read. -/
def drop (count : Nat) (s : List α) : Left s :=
  ⟨s.drop count, List.length_drop ▸ Nat.sub_le _ _⟩

end Left

namespace Rest

variable {α : Type u}

/-- A rest of a rest. -/
def trans {s : List α} (r : Rest s) (t : Rest r.1) : Rest s :=
  ⟨t.1, Nat.lt_trans t.2 r.2⟩

/-- A rest of a list that lost no more than its front. -/
def ofLE {s t : List α} (h : t.length ≤ s.length) (r : Rest t) : Rest s :=
  ⟨r.1, Nat.lt_of_lt_of_le r.2 h⟩

/-- What is left of the items behind the first is a rest. -/
def ofLeft {s : List α} (x : α) (r : Left s) : Rest (x :: s) :=
  ⟨r.1, Nat.lt_succ_of_le r.2⟩

/-- Drops what satisfies `p` from the front of a rest. -/
def dropWhile {s : List α} (p : α → Bool) (r : Rest s) : Rest s :=
  ⟨r.1.dropWhile p, Nat.lt_of_le_of_lt (List.dropWhile_suffix p).length_le r.2⟩

/-- The rest behind the first item. -/
def tail (x : α) (s : List α) : Rest (x :: s) :=
  ⟨s, Nat.lt_succ_self _⟩

/-- A rest of the items behind the first. -/
def behind {s : List α} (x : α) (r : Rest s) : Rest (x :: s) :=
  ⟨r.1, Nat.lt_succ_of_lt r.2⟩

end Rest

end SubmissionAnnotation
