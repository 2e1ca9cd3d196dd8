import SubmissionAnnotation.Batch
import SubmissionAnnotation.Proofs.Settling

/-!
# Batches record by record

A check maps over a batch, and a run walks over it with a counter and two lists that
grow. Either comes to looking at each record alone. There both refuse it for the same
cause, or the run changes it exactly if the check says that it needs the action. What a
run hands back is refused again or settled, so that a second run over it repeats the
report of the first with nothing left to count.
-/
namespace SubmissionAnnotation

universe u

theorem Submission.eq_toJson_of_ofJson {v : Json} {s : Submission} (h : ofJson v = .ok s) :
    v = s.toJson := by
  cases v with
  | object members =>
    cases h
    rfl
  | _ => cases h

theorem Submission.toJson_inj {s t : Submission} : s.toJson = t.toJson ↔ s = t := by
  cases s
  cases t
  simp [toJson]

namespace Batch

section Walk

variable {α : Type u} [Action α]

/-- What a run makes of one record; it hands back as it came what the action refuses. -/
def ranRecord (a : α) (record : Json) : Json :=
  match runOne a record with
  | .ok (_, after) => after
  | .error _ => record

def countsAsChanged (a : α) (record : Json) : Bool :=
  match runOne a record with
  | .ok (needed, _) => needed
  | .error _ => false

def failureAt? (a : α) (index : Nat) (record : Json) : Option RunFailure :=
  match runOne a record with
  | .ok _ => none
  | .error e => some ⟨index, e⟩

variable (a : α) (batch : List Json)

theorem add_eq (report : RunReport) (index : Nat) (record : Json) :
    report.add index record (runOne a record) =
      ⟨report.changed + (countsAsChanged a record).toNat,
        report.submissions ++ [ranRecord a record],
        report.failed ++ (failureAt? a index record).toList⟩ := by
  cases h : runOne a record <;>
    simp [RunReport.add, countsAsChanged, ranRecord, failureAt?, h]

theorem foldl_add (start : Nat) (report : RunReport) :
    (batch.zipIdx start).foldl
        (fun report (record, index) => report.add index record (runOne a record)) report =
      ⟨report.changed + batch.countP (countsAsChanged a),
        report.submissions ++ batch.map (ranRecord a),
        report.failed ++
          (batch.zipIdx start).filterMap fun (record, index) => failureAt? a index record⟩ := by
  induction batch generalizing start report with
  | nil => simp
  | cons record rest ih =>
    rw [List.zipIdx_cons, List.foldl_cons, ih]
    simp only [add_eq]
    cases hc : countsAsChanged a record <;> cases hf : failureAt? a start record <;>
      simp [hc, hf, Nat.add_assoc, Nat.add_comm]

theorem run_eq :
    run a batch = ⟨batch.countP (countsAsChanged a), batch.map (ranRecord a),
      batch.zipIdx.filterMap fun (record, index) => failureAt? a index record⟩ := by
  simp [run, foldl_add, RunReport.empty]

@[simp] theorem changed_run : (run a batch).changed = batch.countP (countsAsChanged a) :=
  congrArg RunReport.changed (run_eq a batch)

@[simp] theorem submissions_run : (run a batch).submissions = batch.map (ranRecord a) :=
  congrArg RunReport.submissions (run_eq a batch)

theorem mem_failed_iff {i : Nat} {e : ActionError} :
    ⟨i, e⟩ ∈ (run a batch).failed ↔
      ∃ record, batch[i]? = some record ∧ runOne a record = .error e := by
  have hfailure : ∀ record index, failureAt? a index record = some ⟨i, e⟩ ↔
      runOne a record = .error e ∧ index = i := by
    intro record index
    cases h : runOne a record <;> simp [failureAt?, h, and_comm]
  rw [run_eq]
  simp only [List.mem_filterMap, Prod.exists, hfailure, List.mem_zipIdx_iff_getElem?]
  constructor
  · rintro ⟨record, index, hr, he, rfl⟩
    exact ⟨record, hr, he⟩
  · rintro ⟨record, hr, he⟩
    exact ⟨record, i, hr, he, rfl⟩

theorem pairwise_failed : ((run a batch).failed.map RunFailure.index).Pairwise (· < ·) := by
  have hpositions : (batch.zipIdx.map Prod.snd).Pairwise (· < ·) := by
    rw [List.zipIdx_map_snd]
    exact List.pairwise_lt_range'
  have hindex : ∀ record index failure, failureAt? a index record = some failure →
      failure.index = index := by
    intro record index failure h
    cases hr : runOne a record with
    | error e =>
      simp only [failureAt?, hr, Option.some.injEq] at h
      rw [← h]
    | ok result => simp [failureAt?, hr] at h
  rw [run_eq, List.pairwise_map, List.pairwise_filterMap]
  refine (List.pairwise_map.mp hpositions).imp fun {p q} hlt f hf g hg => ?_
  rw [hindex p.1 p.2 f hf, hindex q.1 q.2 g hg]
  exact hlt

end Walk

section Transcription

open TranscriptionAction (clipAction clipRequested clipUnreadable)

variable {a : TranscriptionAction} {s after : Submission} {verdict : SubmissionStatus}
  {record : Json} {e : ActionError}

theorem refused_of_ofJson (h : Submission.ofJson record = .error e) :
    checkOne a record = .failed e ∧ runOne a record = .error e := by
  unfold checkOne runOne
  rw [h]
  exact ⟨rfl, rfl⟩

theorem checkOne_toJson (a : TranscriptionAction) (s : Submission) :
    checkOne a s.toJson =
      match a.check s with
      | .ok verdict => .status verdict
      | .error e => .failed e :=
  rfl

theorem runOne_toJson (a : TranscriptionAction) (s : Submission) :
    runOne a s.toJson = do
      let verdict ← a.check s
      let after ← a.runChange s
      return (verdict.isActionNeeded, after.toJson) :=
  rfl

theorem refused_of_check (h : a.check s = .error e) :
    checkOne a s.toJson = .failed e ∧ runOne a s.toJson = .error e := by
  rw [checkOne_toJson, runOne_toJson, h]
  exact ⟨rfl, rfl⟩

theorem processed_of_check (hc : a.check s = .ok verdict) (hr : a.runChange s = .ok after) :
    checkOne a s.toJson = .status verdict ∧
      runOne a s.toJson = .ok (verdict.isActionNeeded, after.toJson) := by
  rw [checkOne_toJson, runOne_toJson, hc, hr]
  exact ⟨rfl, rfl⟩

theorem processed_of_runChange (h : a.runChange s = .ok after) :
    checkOne a after.toJson = .status .passes ∧
      runOne a after.toJson = .ok (false, after.toJson) := by
  have hr : a.runChange after = .ok after := by
    rw [TranscriptionAction.runChange, TranscriptionAction.change_of_runChange h]
    rfl
  exact processed_of_check (TranscriptionAction.check_eq_passes_iff.mpr hr) hr

/-- A record is refused by check and run alike, and would be again, or it is a submission
that the run takes from the state that the check found to a settled one. -/
theorem record_cases (a : TranscriptionAction) (record : Json) :
    (∃ e, checkOne a record = .failed e ∧ runOne a record = .error e) ∨
    ∃ s verdict after, Submission.ofJson record = .ok s ∧ a.runChange s = .ok after ∧
      checkOne a record = .status verdict ∧
      runOne a record = .ok (verdict.isActionNeeded, after.toJson) ∧
      (verdict = .actionNeeded ↔ after.toJson ≠ record) := by
  cases hs : Submission.ofJson record with
  | error e => exact Or.inl ⟨e, refused_of_ofJson hs⟩
  | ok s =>
    obtain rfl := Submission.eq_toJson_of_ofJson hs
    cases hc : a.check s with
    | error e => exact Or.inl ⟨e, refused_of_check hc⟩
    | ok verdict =>
      obtain ⟨after, hr⟩ : ∃ after, a.runChange s = .ok after := by
        rcases s.readable_or_error a.destination with h | ⟨e, he⟩
        · exact ⟨_, TranscriptionAction.runChange_of_readable h⟩
        · cases hc.symm.trans (TranscriptionAction.check_eq_error_iff.mpr he)
      have hkeep : verdict = .passes ↔ after = s := by
        have h := TranscriptionAction.check_eq_passes_iff (a := a) (s := s)
        rw [hc, hr, Except.ok.injEq, Except.ok.injEq] at h
        exact h
      obtain ⟨hcheck, hrun⟩ := processed_of_check hc hr
      refine Or.inr ⟨s, verdict, after, rfl, hr, hcheck, hrun, ?_⟩
      rw [ne_eq, Submission.toJson_inj, ← hkeep]
      cases verdict <;> simp

theorem checkOne_eq_failed_iff : checkOne a record = .failed e ↔ runOne a record = .error e := by
  rcases record_cases a record with ⟨e', hc, hr⟩ | ⟨s, verdict, after, -, -, hc, hr, -⟩
  · simp [hc, hr]
  · simp [hc, hr]

theorem countsAsChanged_iff :
    countsAsChanged a record = true ↔ checkOne a record = .status .actionNeeded := by
  rcases record_cases a record with ⟨e, hc, hr⟩ | ⟨s, verdict, after, -, -, hc, hr, -⟩
  · simp [countsAsChanged, hc, hr]
  · cases verdict <;> simp [countsAsChanged, hc, hr, SubmissionStatus.isActionNeeded]

theorem countsAsChanged_iff_ne :
    countsAsChanged a record = true ↔ ranRecord a record ≠ record := by
  rcases record_cases a record with ⟨e, hc, hr⟩ | ⟨s, verdict, after, -, -, hc, hr, hne⟩
  · simp [countsAsChanged, ranRecord, hr]
  · rw [countsAsChanged_iff, hc, CheckOutcome.status.injEq, hne]
    simp [ranRecord, hr]

theorem runOne_ranRecord (a : TranscriptionAction) (record : Json) :
    runOne a (ranRecord a record) = (runOne a record).map fun result => (false, result.2) := by
  rcases record_cases a record with ⟨e, -, hr⟩ | ⟨s, verdict, after, -, hchange, -, hr, -⟩
  · simp [ranRecord, hr, Except.map]
  · simp [ranRecord, hr, Except.map, (processed_of_runChange hchange).2]

theorem ranRecord_ranRecord (a : TranscriptionAction) (record : Json) :
    ranRecord a (ranRecord a record) = ranRecord a record := by
  have hagain := runOne_ranRecord a record
  cases h : runOne a record with
  | error e => simp [ranRecord, h]
  | ok result =>
    have hr : ranRecord a record = result.2 := by simp [ranRecord, h]
    rw [h, hr] at hagain
    rw [hr, ranRecord, hagain]
    rfl

theorem countsAsChanged_ranRecord (a : TranscriptionAction) (record : Json) :
    countsAsChanged a (ranRecord a record) = false := by
  rw [countsAsChanged, runOne_ranRecord]
  cases runOne a record <;> rfl

theorem failureAt?_ranRecord (a : TranscriptionAction) (index : Nat) (record : Json) :
    failureAt? a index (ranRecord a record) = failureAt? a index record := by
  rw [failureAt?, runOne_ranRecord]
  cases h : runOne a record <;> simp [failureAt?, h, Except.map]

open Classical in
/-- Check and run agree record by record. Both answer for every record in the order of the
batch; the run reports as failed, in the order of the batch and for the same causes, the
records that the check reports so, hands these back as they came, and hands back every
other record as the change step leaves it. It counts the records that the check found to
need the action, which are those that it hands back different. -/
theorem check_agrees_with_run (a : TranscriptionAction) (batch : List Json) :
    let outcomes := check a batch
    let report := run a batch
    outcomes.length = batch.length ∧ report.submissions.length = batch.length ∧
    (report.failed.map RunFailure.index).Pairwise (· < ·) ∧
    (∀ i e, ⟨i, e⟩ ∈ report.failed ↔ outcomes[i]? = some (.failed e)) ∧
    (∀ i e, ⟨i, e⟩ ∈ report.failed → report.submissions[i]? = batch[i]?) ∧
    (∀ i record, batch[i]? = some record → (∀ e, ⟨i, e⟩ ∉ report.failed) →
      ∃ s after, Submission.ofJson record = .ok s ∧ a.runChange s = .ok after ∧
        report.submissions[i]? = some after.toJson) ∧
    report.changed = outcomes.count (.status .actionNeeded) ∧
    report.changed =
      (batch.zip report.submissions).countP fun (before, after) => before ≠ after := by
  intro outcomes report
  have houtcomes : outcomes = batch.map (checkOne a) := rfl
  have hsubmissions : report.submissions = batch.map (ranRecord a) := submissions_run a batch
  have hchanged : report.changed = batch.countP (countsAsChanged a) := changed_run a batch
  refine ⟨?_, ?_, pairwise_failed a batch, ?_, ?_, ?_, ?_, ?_⟩
  · rw [houtcomes, List.length_map]
  · rw [hsubmissions, List.length_map]
  · intro i e
    rw [mem_failed_iff, houtcomes, List.getElem?_map, Option.map_eq_some_iff]
    simp only [checkOne_eq_failed_iff]
  · intro i e he
    obtain ⟨record, hrecord, hr⟩ := (mem_failed_iff a batch).mp he
    rw [hsubmissions, List.getElem?_map, hrecord, Option.map_some, ranRecord, hr]
  · intro i record hrecord hnot
    rcases record_cases a record with ⟨e, -, hr⟩ | ⟨s, verdict, after, hs, hchange, -, hr, -⟩
    · exact absurd ((mem_failed_iff a batch).mpr ⟨record, hrecord, hr⟩) (hnot e)
    · refine ⟨s, after, hs, hchange, ?_⟩
      rw [hsubmissions, List.getElem?_map, hrecord, Option.map_some, ranRecord, hr]
  · rw [hchanged, houtcomes, List.count_eq_countP, List.countP_map]
    refine List.countP_congr fun record _ => ?_
    simp [countsAsChanged_iff]
  · rw [hchanged, hsubmissions, ← List.map_prod_left_eq_zip, List.countP_map]
    refine List.countP_congr fun record _ => ?_
    rw [countsAsChanged_iff_ne, ne_comm]
    exact decide_eq_true_iff.symm

/-- A submission with a wish, one whose block cannot be read, and a record that is no
submission at all. -/
theorem check_agrees_with_run_mixed :
    let batch : List Json := [clipRequested.toJson, clipUnreadable.toJson, .null]
    let report := run clipAction batch
    ⟨2, .invalidSubmission "expected an object, got null"⟩ ∈ report.failed ∧
    report.submissions[2]? = some .null ∧
    (∀ e, ⟨0, e⟩ ∉ report.failed) ∧
    ∃ s after, Submission.ofJson clipRequested.toJson = .ok s ∧
      clipAction.runChange s = .ok after ∧ report.submissions[0]? = some after.toJson := by
  intro batch report
  obtain ⟨-, -, -, failed, kept, changed, -⟩ := check_agrees_with_run clipAction batch
  have hrefused : ⟨2, .invalidSubmission "expected an object, got null"⟩ ∈ report.failed :=
    (failed 2 _).mpr rfl
  have hnot : ∀ e, ⟨0, e⟩ ∉ report.failed := fun e he => nomatch (failed 0 e).mp he
  exact ⟨hrefused, kept 2 _ hrefused, hnot, changed 0 _ rfl hnot⟩

/-- A run over what a run handed back reports the same submissions and the same failures,
at the same places and for the same causes, and counts no change; and a check of it finds
that all records pass but those that failed, which fail again as they did. -/
theorem second_run_repeats_report (a : TranscriptionAction) (batch : List Json) :
    let report := run a batch
    run a report.submissions = ⟨0, report.submissions, report.failed⟩ ∧
    (∀ i e, ⟨i, e⟩ ∈ report.failed →
      (check a report.submissions)[i]? = some (.failed e)) ∧
    ∀ i, i < batch.length → (∀ e, ⟨i, e⟩ ∉ report.failed) →
      (check a report.submissions)[i]? = some (.status .passes) := by
  intro report
  have hsubmissions : report.submissions = batch.map (ranRecord a) := submissions_run a batch
  have hcheck : ∀ i : Nat, (check a report.submissions)[i]? =
      (batch[i]?).map fun record => checkOne a (ranRecord a record) := by
    intro i
    rw [check, hsubmissions, List.map_map, List.getElem?_map]
    rfl
  refine ⟨?_, ?_, ?_⟩
  · have hfailed : report.failed =
        batch.zipIdx.filterMap fun (record, index) => failureAt? a index record :=
      congrArg RunReport.failed (run_eq a batch)
    rw [run_eq, hsubmissions, hfailed, List.zipIdx_map]
    simp [List.filterMap_map, Function.comp_def, countsAsChanged_ranRecord, ranRecord_ranRecord,
      failureAt?_ranRecord]
  · intro i e he
    obtain ⟨record, hrecord, hr⟩ := (mem_failed_iff a batch).mp he
    rw [hcheck, hrecord, Option.map_some, ranRecord, hr, checkOne_eq_failed_iff.mpr hr]
  · intro i hi hnot
    have hrecord := List.getElem?_eq_getElem hi
    rcases record_cases a batch[i] with ⟨e, -, hr⟩ | ⟨s, verdict, after, -, hchange, -, hr, -⟩
    · exact absurd ((mem_failed_iff a batch).mpr ⟨batch[i], hrecord, hr⟩) (hnot e)
    · rw [hcheck, hrecord, Option.map_some, ranRecord, hr, (processed_of_runChange hchange).1]

/-- A submission whose block cannot be read stands before one with a wish. -/
theorem second_run_repeats_report_mixed :
    let report := run clipAction [clipUnreadable.toJson, clipRequested.toJson]
    let refusal : ActionError := .invalidSubmission "'details' must be an object, got string"
    ⟨0, refusal⟩ ∈ report.failed ∧ (∀ e, ⟨1, e⟩ ∉ report.failed) ∧
      (run clipAction report.submissions).changed = 0 ∧
      (check clipAction report.submissions)[0]? = some (.failed refusal) ∧
      (check clipAction report.submissions)[1]? = some (.status .passes) := by
  intro report refusal
  obtain ⟨again, failed, passed⟩ :=
    second_run_repeats_report clipAction [clipUnreadable.toJson, clipRequested.toJson]
  have hrefused : ⟨0, refusal⟩ ∈ report.failed := List.mem_singleton.mpr rfl
  have hnot : ∀ e, ⟨1, e⟩ ∉ report.failed := fun e he => nomatch List.mem_singleton.mp he
  exact ⟨hrefused, hnot, congrArg RunReport.changed again, failed 0 refusal hrefused,
    passed 1 (by decide) hnot⟩

end Transcription

end Batch

end SubmissionAnnotation
