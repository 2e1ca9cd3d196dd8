import SubmissionAnnotation.Proofs.Advance

/-!
# What a walk writes and reports

Once a slot was visited it is neither missing nor requested, so a key that comes again in
the matrix is passed over. A walk therefore treats every slot as it stood in the block at
the start, at the first place of its key: that slot is reported, and if it was missing
its key goes behind those that are there. No key is reported twice, because a slot that
was missing was not requested.
-/
namespace SubmissionAnnotation

def isAsked (entry : Option Json) : Bool :=
  entry.any fun v => (FieldStatus.ofValue v).needsAction

theorem isAsked_advancedEntry (entry : Option Json) :
    isAsked (some (advancedEntry entry)) = false :=
  needsAction_advancedEntry entry

theorem isAsked_requestedByUser : isAsked (some FieldStatus.requestedByUser.toValue) = true := by
  simp [isAsked, FieldStatus.needsAction]

theorem isAsked_iff {entry : Option Json} :
    isAsked entry = true ↔ entry = some FieldStatus.requestedByUser.toValue := by
  constructor
  · intro h
    obtain ⟨v, rfl, hv⟩ := (Option.any_eq_true _ _).mp h
    exact congrArg some (FieldStatus.eq_toValue_of_ofValue (FieldStatus.needsAction_iff.mp hv))
  · rintro rfl
    exact isAsked_requestedByUser

theorem advancedEntry_of_isAsked {entry : Option Json} (h : isAsked entry = true) :
    advancedEntry entry = FieldStatus.pending.toValue := by
  cases entry with
  | none => cases h
  | some v => exact if_pos h

/-- The slots of a list, each key at its first place only. -/
def firstSlots : List FieldServicePair → List FieldServicePair
  | [] => []
  | p :: rest => p :: (firstSlots rest).filter fun q => q.key ≠ p.key

theorem keys_firstSlots (pairs : List FieldServicePair) :
    (firstSlots pairs).map FieldServicePair.key = distinct (pairs.map FieldServicePair.key) := by
  induction pairs with
  | nil => rfl
  | cons p rest ih =>
    rw [firstSlots, List.map_cons, List.map_cons, distinct, ← ih, List.filter_map]
    rfl

theorem firstSlots_of_nodup {pairs : List FieldServicePair}
    (h : (pairs.map FieldServicePair.key).Nodup) : firstSlots pairs = pairs := by
  induction pairs with
  | nil => rfl
  | cons p rest ih =>
    obtain ⟨hp, hrest⟩ := List.nodup_cons.mp h
    rw [firstSlots, ih hrest, List.filter_eq_self.mpr]
    intro q hq
    exact decide_eq_true fun he => hp (he ▸ List.mem_map_of_mem hq)

namespace BlockChange

variable {c : BlockChange} {pairs : List FieldServicePair}

theorem requested_visit (c : BlockChange) (p : FieldServicePair) :
    (c.visit p).requested = c.requested ++ [p].filter fun q => isAsked (c.block.get? q.key) := by
  unfold visit isAsked
  cases hp : c.block.get? p.key with
  | none => simp [hp]
  | some v => cases hv : FieldStatus.ofValue v <;> simp [hp, hv, FieldStatus.needsAction]

theorem initialized_visit (c : BlockChange) (p : FieldServicePair) :
    (c.visit p).initialized =
      c.initialized ++ [p].filter fun q => (c.block.get? q.key).isNone := by
  unfold visit
  cases hp : c.block.get? p.key with
  | none => simp [hp]
  | some v => cases hv : FieldStatus.ofValue v <;> simp [hp, hv]

/-- If visits report the slots that are due and leave them not due, then a walk reports
those that were due in the block at the start, each at the first place of its key. -/
theorem report_foldl_visit {report : BlockChange → List FieldServicePair}
    {due : Option Json → Bool}
    (visited : ∀ c p, report (c.visit p) =
      report c ++ [p].filter fun q => due (c.block.get? q.key))
    (settled : ∀ entry, due (some (advancedEntry entry)) = false)
    (pairs : List FieldServicePair) (c : BlockChange) :
    report (pairs.foldl visit c) =
      report c ++ (firstSlots pairs).filter fun p => due (c.block.get? p.key) := by
  induction pairs generalizing c with
  | nil => simp [firstSlots]
  | cons p rest ih =>
    have hrest : (firstSlots rest).filter (fun q => due ((c.visit p).block.get? q.key)) =
        ((firstSlots rest).filter fun q => q.key ≠ p.key).filter
          fun q => due (c.block.get? q.key) := by
      rw [List.filter_filter]
      refine List.filter_congr fun q _ => ?_
      rw [get?_visit]
      by_cases hq : q.key = p.key <;> simp [hq, settled]
    rw [List.foldl_cons, ih, hrest, visited, List.append_assoc, ← List.filter_append]
    rfl

theorem requested_foldl_visit (pairs : List FieldServicePair) (c : BlockChange) :
    (pairs.foldl visit c).requested =
      c.requested ++ (firstSlots pairs).filter fun p => isAsked (c.block.get? p.key) :=
  report_foldl_visit requested_visit isAsked_advancedEntry pairs c

theorem initialized_foldl_visit (pairs : List FieldServicePair) (c : BlockChange) :
    (pairs.foldl visit c).initialized =
      c.initialized ++ (firstSlots pairs).filter fun p => (c.block.get? p.key).isNone :=
  report_foldl_visit initialized_visit (fun _ => rfl) pairs c

theorem keys_visit {keys : List String}
    (h : c.block.keys = keys ++ c.initialized.map FieldServicePair.key) (p : FieldServicePair) :
    (c.visit p).block.keys = keys ++ (c.visit p).initialized.map FieldServicePair.key := by
  rw [block_visit, initialized_visit]
  cases hp : c.block.get? p.key with
  | none =>
    have hnew : p.key ∉ c.block.keys := OrderedMap.get?_eq_none_iff.mp hp
    rw [OrderedMap.keys_insert_of_not_mem _ hnew, h]
    simp [hp]
  | some v =>
    have hold : p.key ∈ c.block.keys := OrderedMap.mem_keys_of_get?_eq hp
    rw [OrderedMap.keys_insert_of_mem _ hold, h]
    simp [hp]

theorem keys_foldl_visit {keys : List String} (pairs : List FieldServicePair)
    (h : c.block.keys = keys ++ c.initialized.map FieldServicePair.key) :
    (pairs.foldl visit c).block.keys =
      keys ++ (pairs.foldl visit c).initialized.map FieldServicePair.key := by
  induction pairs generalizing c with
  | nil => exact h
  | cons p rest ih => exact ih (keys_visit h p)

end BlockChange

section Reports

variable (block : Option SupplementalBlock) (matrix : FieldServiceMatrix)

theorem initialized_advanceBlock :
    (advanceBlock block matrix).initialized =
      (firstSlots matrix.pairs).filter fun p => ((block.getD .empty).get? p.key).isNone :=
  BlockChange.initialized_foldl_visit _ _

theorem requested_advanceBlock :
    (advanceBlock block matrix).requested =
      (firstSlots matrix.pairs).filter fun p => isAsked ((block.getD .empty).get? p.key) :=
  BlockChange.requested_foldl_visit _ _

theorem keys_advanceBlock :
    (advanceBlock block matrix).block.keys = (block.getD .empty).keys ++
      (distinct matrix.keys).filter fun key => ((block.getD .empty).get? key).isNone := by
  have start : (BlockChange.start (block.getD .empty)).block.keys =
      (block.getD .empty).keys ++ [] := (List.append_nil _).symm
  have walk := BlockChange.keys_foldl_visit matrix.pairs start
  rw [← advanceBlock, initialized_advanceBlock] at walk
  rw [walk, FieldServiceMatrix.keys, ← keys_firstSlots, List.filter_map]
  rfl

/-- A slot that was missing was not requested, so no key is reported both ways. -/
theorem nodup_keys_reports :
    (((advanceBlock block matrix).initialized ++ (advanceBlock block matrix).requested).map
      FieldServicePair.key).Nodup := by
  have hfirst : ((firstSlots matrix.pairs).map FieldServicePair.key).Nodup := by
    rw [keys_firstSlots]
    exact nodup_distinct _
  rw [initialized_advanceBlock, requested_advanceBlock, List.map_append, List.nodup_append]
  refine ⟨hfirst.sublist (List.filter_sublist.map _),
    hfirst.sublist (List.filter_sublist.map _), ?_⟩
  rintro key hmissing _ hasked rfl
  obtain ⟨p, hp, rfl⟩ := List.mem_map.mp hmissing
  obtain ⟨q, hq, hkey⟩ := List.mem_map.mp hasked
  have missing := Option.isNone_iff_eq_none.mp (List.mem_filter.mp hp).2
  have asked := isAsked_iff.mp (List.mem_filter.mp hq).2
  rw [hkey, missing] at asked
  cases asked

end Reports

/-- Each slot is advanced once, as it stood in the block at the start, however often the
matrix repeats its key. A missing slot becomes not requested and a requested one pending;
every other entry stays, and nothing else is added. The keys that were there keep their
order, and behind them come the new ones in the order of the matrix. The walk reports the
first slot of each key that was missing, and of each that was requested, so that no key is
reported twice. -/
theorem each_slot_advanced_once (block : Option SupplementalBlock) (matrix : FieldServiceMatrix) :
    let before := block.getD .empty
    let change := advanceBlock block matrix
    (∀ key ∈ matrix.keys, before.get? key = none →
      change.block.get? key = some FieldStatus.notRequested.toValue) ∧
    (∀ key ∈ matrix.keys, before.get? key = some FieldStatus.requestedByUser.toValue →
      change.block.get? key = some FieldStatus.pending.toValue) ∧
    (∀ key, key ∉ matrix.keys ∨ before.get? key ≠ none ∧
        before.get? key ≠ some FieldStatus.requestedByUser.toValue →
      change.block.get? key = before.get? key) ∧
    change.block.keys =
      before.keys ++ (distinct matrix.keys).filter (fun key => (before.get? key).isNone) ∧
    change.initialized =
      (firstSlots matrix.pairs).filter (fun p => (before.get? p.key).isNone) ∧
    change.requested = (firstSlots matrix.pairs).filter (fun p => isAsked (before.get? p.key)) ∧
    ((change.initialized ++ change.requested).map FieldServicePair.key).Nodup := by
  intro before change
  refine ⟨?_, ?_, ?_, keys_advanceBlock block matrix, initialized_advanceBlock block matrix,
    requested_advanceBlock block matrix, nodup_keys_reports block matrix⟩
  · intro key hk missing
    rw [get?_advanceBlock, if_pos hk, missing]
    rfl
  · intro key hk asked
    rw [get?_advanceBlock, if_pos hk, advancedEntry_of_isAsked (isAsked_iff.mpr asked)]
  · intro key hkey
    rw [get?_advanceBlock]
    split
    next hk =>
      obtain ⟨present, unasked⟩ := hkey.resolve_left (not_not_intro hk)
      rcases advancedEntry_cases (before.get? key) with ⟨missing, -⟩ | ⟨asked, -⟩ | kept
      · exact absurd missing present
      · exact absurd asked unasked
      · exact kept.symm
    next => rfl

/-- Two slots share the key that a user asked for, and a third one is missing and comes twice. -/
theorem each_slot_advanced_once_shared_key :
    let shared : FieldServicePair := ⟨"clip", "acme", "clip_transcription_acme"⟩
    let missing : FieldServicePair := .ofNames "clip" manualService "transcription"
    let matrix : FieldServiceMatrix :=
      ⟨[shared, missing, ⟨"clip_transcription", "acme", shared.key⟩, missing]⟩
    let before : SupplementalBlock :=
      ⟨[("other", .null), (shared.key, FieldStatus.requestedByUser.toValue)]⟩
    let change := advanceBlock (some before) matrix
    change.block.get? missing.key = some FieldStatus.notRequested.toValue ∧
    change.block.get? shared.key = some FieldStatus.pending.toValue ∧
    change.block.get? "other" = some .null ∧
    change.block.keys = ["other", shared.key, missing.key] ∧
    change.initialized = [missing] ∧ change.requested = [shared] := by
  intro shared missing matrix before change
  obtain ⟨appears, dispatched, stays, keys, initialized, requested, -⟩ :=
    each_slot_advanced_once (some before) matrix
  exact ⟨appears missing.key (by decide) rfl, dispatched shared.key (by decide) rfl,
    stays "other" (Or.inl (by decide)), keys.trans (by decide), initialized.trans rfl,
    requested.trans rfl⟩

end SubmissionAnnotation
