import SubmissionAnnotation.Submission

/-!
# Submissions as slots and other entries

Everything that an action writes goes into the block at its destination. Here a submission is read
as that block and the entries beside it: a missing or `null` block counts as an empty one, and
replacing the block moves no key and touches no other entry.
-/
namespace SubmissionAnnotation

namespace Submission

/-- The block at a destination, empty where there is none. -/
def blockAt (s : Submission) (destination : String) : SupplementalBlock :=
  match s.get? destination with
  | some (.object block) => block
  | _ => .empty

def slot? (s : Submission) (destination key : String) : Option Json :=
  (s.blockAt destination).get? key

/-- The entry at the destination is a block, or counts as none. -/
def Readable (s : Submission) (destination : String) : Prop :=
  ∃ found, s.supplemental destination = .ok found

variable {s : Submission} {destination key : String} {block : SupplementalBlock}

theorem supplemental_eq_ok_some_iff :
    s.supplemental destination = .ok (some block) ↔ s.get? destination = some (.object block) := by
  unfold supplemental
  split <;> simp_all

theorem blockAt_of_supplemental {found : Option SupplementalBlock}
    (h : s.supplemental destination = .ok found) : s.blockAt destination = found.getD .empty := by
  unfold supplemental at h
  unfold blockAt
  split at h
  · next hs =>
    cases h
    simp [hs]
  · next hs =>
    cases h
    simp [hs]
  · next hs =>
    cases h
    simp [hs]
  · cases h

theorem get?_of_slot?_eq_some {v : Json} (h : s.slot? destination key = some v) :
    s.get? destination = some (.object (s.blockAt destination)) := by
  unfold slot? blockAt at *
  split at h
  · next hs => simp [hs]
  · cases h

theorem readable_of_slot?_eq_some {v : Json} (h : s.slot? destination key = some v) :
    s.Readable destination :=
  ⟨some (s.blockAt destination), supplemental_eq_ok_some_iff.mpr (get?_of_slot?_eq_some h)⟩

theorem readable_or_error (s : Submission) (destination : String) :
    s.Readable destination ∨ ∃ e, s.supplemental destination = .error e := by
  cases h : s.supplemental destination with
  | error e => exact Or.inr ⟨e, rfl⟩
  | ok found => exact Or.inl ⟨found, h⟩

theorem not_readable_of_error {e : ActionError} (h : s.supplemental destination = .error e) :
    ¬ s.Readable destination := by
  rintro ⟨found, hf⟩
  cases h.symm.trans hf

theorem readable_iff :
    s.Readable destination ↔ s.get? destination = none ∨ s.get? destination = some .null ∨
      ∃ block, s.get? destination = some (.object block) := by
  unfold Readable supplemental
  split <;> simp_all

theorem supplemental_error {e : ActionError} (h : s.supplemental destination = .error e) :
    ∃ reason, e = .invalidSubmission reason := by
  unfold supplemental at h
  split at h
  · cases h
  · cases h
  · cases h
  · exact ⟨_, (Except.error.inj h).symm⟩

@[simp] theorem blockAt_withSupplemental (s : Submission) (destination : String)
    (block : SupplementalBlock) :
    (s.withSupplemental destination block).blockAt destination = block := by
  simp [blockAt]

@[simp] theorem slot?_withSupplemental (s : Submission) (destination key : String)
    (block : SupplementalBlock) :
    (s.withSupplemental destination block).slot? destination key = block.get? key := by
  simp [slot?]

theorem readable_withSupplemental (s : Submission) (destination : String)
    (block : SupplementalBlock) :
    (s.withSupplemental destination block).Readable destination :=
  ⟨some block, supplemental_withSupplemental s destination block⟩

theorem withSupplemental_withSupplemental (s : Submission) (destination : String)
    (old new : SupplementalBlock) :
    (s.withSupplemental destination old).withSupplemental destination new =
      s.withSupplemental destination new :=
  congrArg mk (OrderedMap.insert_insert_self _ _ _ _)

theorem withSlot_of_readable (h : s.Readable destination) (key : String) (value : Json) :
    s.withSlot destination key value =
      .ok (s.withSupplemental destination ((s.blockAt destination).insert key value)) := by
  obtain ⟨found, hf⟩ := h
  rw [blockAt_of_supplemental hf]
  unfold withSlot
  rw [hf]
  rfl

theorem keys_prefix_withSupplemental (s : Submission) (destination : String)
    (block : SupplementalBlock) :
    s.members.keys <+: (s.withSupplemental destination block).members.keys :=
  OrderedMap.keys_prefix_insert _ _ _

theorem keys_withSupplemental_eq (s : Submission) (destination : String)
    (old new : SupplementalBlock) :
    (s.withSupplemental destination new).members.keys =
      (s.withSupplemental destination old).members.keys := by
  by_cases h : destination ∈ s.members.keys
  · exact (OrderedMap.keys_insert_of_mem _ h).trans (OrderedMap.keys_insert_of_mem _ h).symm
  · exact (OrderedMap.keys_insert_of_not_mem _ h).trans
      (OrderedMap.keys_insert_of_not_mem _ h).symm

theorem withSupplemental_eq_self_iff :
    s.withSupplemental destination block = s ↔ s.supplemental destination = .ok (some block) := by
  rw [supplemental_eq_ok_some_iff]
  constructor
  · intro h
    rw [← h, get?_withSupplemental_self]
  · intro h
    exact congrArg mk (OrderedMap.insert_of_get?_eq h)

/-- `after` is `s` but for one slot of the block at the destination, which holds a value. -/
structure SlotWritten (destination key : String) (value : Json) (s after : Submission) : Prop where
  members : s.members.ChangedOnlyAt [destination] after.members
  block : (s.blockAt destination).ChangedOnlyAt [key] (after.blockAt destination)
  get?_eq : after.get? destination = some (.object (after.blockAt destination))
  slot?_eq : after.slot? destination key = some value
  /-- Where there was no block there is one with this slot only. -/
  made : s.get? destination = none ∨ s.get? destination = some .null →
    after.get? destination = some (.object ⟨[(key, value)]⟩)

theorem slotWritten_withSupplemental (s : Submission) (destination key : String) (value : Json) :
    SlotWritten destination key value s
      (s.withSupplemental destination ((s.blockAt destination).insert key value)) where
  members := OrderedMap.changedOnlyAt_insert s.members destination _
  block := by
    rw [blockAt_withSupplemental]
    exact OrderedMap.changedOnlyAt_insert _ key value
  get?_eq := by rw [get?_withSupplemental_self, blockAt_withSupplemental]
  slot?_eq := by rw [slot?_withSupplemental, OrderedMap.get?_insert_self]
  made h := by
    have hblock : s.blockAt destination = .empty := by
      unfold blockAt
      rcases h with h | h <;> rw [h]
    rw [get?_withSupplemental_self, hblock]
    rfl

theorem SlotWritten.slot?_of_ne {value : Json} {after : Submission} {other : String}
    (h : SlotWritten destination key value s after) (hne : other ≠ key) :
    after.slot? destination other = s.slot? destination other :=
  h.block.get?_eq other fun hmem => hne (List.mem_singleton.mp hmem)

/-- Only the block at the destination was written, and no key of it or beside it was
lost or moved. -/
structure Extends (destination : String) (s after : Submission) : Prop where
  members_keys : s.members.keys <+: after.members.keys
  block_keys : (s.blockAt destination).keys <+: (after.blockAt destination).keys
  get?_eq : ∀ key, key ≠ destination → after.get? key = s.get? key
  /-- An entry of another kind is not overwritten by a block. -/
  eq_of_not_readable : ¬ s.Readable destination → after = s

theorem Extends.refl (destination : String) (s : Submission) : Extends destination s s :=
  ⟨List.prefix_refl _, List.prefix_refl _, fun _ _ => rfl, fun _ => rfl⟩

theorem extends_withSupplemental (hr : s.Readable destination)
    (h : (s.blockAt destination).keys <+: block.keys) :
    Extends destination s (s.withSupplemental destination block) := by
  refine ⟨keys_prefix_withSupplemental s destination block, ?_, ?_, ?_⟩
  · rw [blockAt_withSupplemental]
    exact h
  · intro key hk
    exact get?_withSupplemental_of_ne hk s block
  · intro hn
    exact absurd hr hn

end Submission

end SubmissionAnnotation
