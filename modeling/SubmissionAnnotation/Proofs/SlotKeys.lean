import Mathlib.Data.List.Infix
import SubmissionAnnotation.Proofs.Loading

/-!
# When slots share a key

A key is a field, a separator and a service, joined without escaping. Two slots share a
key if it can be cut at two copies of the separator. The copies lie apart, or the later
one begins before the earlier one has ended; and since the separator begins and ends with
an underscore and is no other end of itself, copies that meet share that one character.
Either way the joiner stands in a field and in a service of the two slots, so names
without it never clash.
-/
namespace SubmissionAnnotation

/-- If a separator is found again after `step`, the second copy lies behind the first one,
or it begins in it. -/
theorem cut_later {α : Type} {separator service service' step : List α} (hstep : step ≠ [])
    (h : separator ++ service = step ++ (separator ++ service')) :
    (∃ between, step = separator ++ between ∧ service = between ++ (separator ++ service')) ∨
    ∃ shared after, shared ≠ [] ∧ separator = step ++ shared ∧ separator = shared ++ after ∧
      service = after ++ service' := by
  rcases List.append_eq_append_iff.mp h with ⟨between, hs, hservice⟩ | ⟨shared, hfirst, hrest⟩
  · exact Or.inl ⟨between, hs, hservice⟩
  · by_cases hshared : shared = []
    · subst hshared
      rw [List.append_nil] at hfirst
      exact Or.inl ⟨[], by simp [hfirst], hrest.symm⟩
    · rcases List.append_eq_append_iff.mp hrest with ⟨extra, hlong, -⟩ | ⟨after, hsecond, hservice⟩
      · -- What stands in a copy behind `step` is shorter than the copy.
        have hlength := congrArg List.length hfirst
        rw [hlong, List.length_append, List.length_append] at hlength
        exact absurd (List.eq_nil_of_length_eq_zero (by omega)) hstep
      · exact Or.inr ⟨shared, after, hshared, hfirst, hsecond, hservice⟩

/-- The later cut of a key: its field goes on behind the field of the earlier cut, either
through a whole separator, or through one but for the underscore that both cuts share. -/
def CutLater (field service field' service' : String) : Prop :=
  (∃ between, field' = field ++ "_transcription_" ++ between ∧
    service = between ++ "_transcription_" ++ service') ∨
  (field' = field ++ "_transcription" ∧ service = "transcription_" ++ service')

namespace TranscriptionAction

variable {field service field' service' : String}

def keySeparator : String := "_transcription_"

theorem pairKey_eq (field service : String) :
    pairKey field service keyJoiner = field ++ keySeparator ++ service := by
  have hseparator : "_" ++ keyJoiner ++ "_" = keySeparator := by decide
  rw [pairKey, ← hseparator]
  simp only [String.append_assoc]

theorem ends_of_overlap {before shared after : List Char} (hbefore : before ≠ [])
    (hshared : shared ≠ []) (first : keySeparator.toList = before ++ shared)
    (second : keySeparator.toList = shared ++ after) :
    before = "_transcription".toList ∧ after = "transcription_".toList := by
  have hlength : before.length + shared.length = 15 := by
    have h := congrArg List.length first
    rw [List.length_append] at h
    exact h.symm
  have hpos := List.length_pos_iff.mpr hbefore
  have hpos' := List.length_pos_iff.mpr hshared
  have hbegin : keySeparator.toList.take shared.length = shared := by
    rw [second, List.take_left' rfl]
  have hend : keySeparator.toList.drop (15 - shared.length) = shared := by
    rw [first, List.drop_left' (by omega)]
  have hends : ∀ n < 15, 0 < n →
      keySeparator.toList.take n = keySeparator.toList.drop (15 - n) → n = 1 := by decide
  have hone := hends shared.length (by omega) hpos' (hbegin.trans hend.symm)
  have hfront : keySeparator.toList.take 14 = before := by
    rw [first, List.take_left' (by omega)]
  have hback : keySeparator.toList.drop 1 = after := by
    rw [second, List.drop_left' hone]
  exact ⟨hfront.symm, hback.symm⟩

/-- A key whose field is a beginning of the field of another cut is cut later there, if
the slots are not the same. -/
theorem eq_or_cutLater_of_append_eq {step : List Char}
    (hfield : field'.toList = field.toList ++ step)
    (h : keySeparator.toList ++ service.toList =
      step ++ (keySeparator.toList ++ service'.toList)) :
    (field, service) = (field', service') ∨ CutLater field service field' service' := by
  by_cases hstep : step = []
  · subst hstep
    rw [List.append_nil, String.toList_inj] at hfield
    rw [List.nil_append, List.append_cancel_left_eq, String.toList_inj] at h
    exact Or.inl (by rw [hfield, h])
  · right
    rcases cut_later hstep h with ⟨between, rfl, hs⟩ | ⟨shared, after, hne, hfirst, hsecond, hs⟩
    · refine Or.inl ⟨String.ofList between, ?_, ?_⟩
      · apply String.toList_inj.mp
        simpa [keySeparator] using hfield
      · apply String.toList_inj.mp
        simpa [keySeparator] using hs
    · obtain ⟨rfl, rfl⟩ := ends_of_overlap hstep hne hfirst hsecond
      refine Or.inr ⟨?_, ?_⟩
      · apply String.toList_inj.mp
        simpa using hfield
      · apply String.toList_inj.mp
        simpa using hs

theorem pairKey_eq_of_cutLater (h : CutLater field service field' service') :
    pairKey field service keyJoiner = pairKey field' service' keyJoiner := by
  rw [pairKey_eq, pairKey_eq]
  rcases h with ⟨between, rfl, rfl⟩ | ⟨rfl, rfl⟩
  · simp only [keySeparator, String.append_assoc]
  · have hshared : keySeparator ++ "transcription_" = "_transcription" ++ keySeparator := by decide
    calc
      _ = field ++ (keySeparator ++ "transcription_") ++ service' := by
        simp only [String.append_assoc]
      _ = field ++ ("_transcription" ++ keySeparator) ++ service' := by rw [hshared]
      _ = _ := by simp only [String.append_assoc]

/-- Different slots share a key if and only if one of them is a later cut of it. -/
theorem pairKey_eq_iff (hne : (field, service) ≠ (field', service')) :
    pairKey field service keyJoiner = pairKey field' service' keyJoiner ↔
      CutLater field service field' service' ∨ CutLater field' service' field service := by
  constructor
  · intro h
    have hlist := congrArg String.toList h
    simp only [pairKey_eq, String.toList_append, List.append_assoc] at hlist
    -- One of the fields is a beginning of the other one.
    rcases List.append_eq_append_iff.mp hlist with ⟨step, hfield, hrest⟩ | ⟨step, hfield, hrest⟩
    · exact Or.inl ((eq_or_cutLater_of_append_eq hfield hrest).resolve_left hne)
    · exact Or.inr ((eq_or_cutLater_of_append_eq hfield hrest).resolve_left hne.symm)
  · rintro (h | h)
    · exact pairKey_eq_of_cutLater h
    · exact (pairKey_eq_of_cutLater h).symm

end TranscriptionAction

def HoldsJoiner (name : String) : Prop :=
  TranscriptionAction.keyJoiner.toList <:+: name.toList

theorem CutLater.holdsJoiner {field service field' service' : String}
    (h : CutLater field service field' service') : HoldsJoiner service ∧ HoldsJoiner field' := by
  rcases h with ⟨between, rfl, rfl⟩ | ⟨rfl, rfl⟩
  · exact ⟨⟨(between ++ "_").toList, ("_" ++ service').toList,
        by simp [TranscriptionAction.keyJoiner]⟩,
      ⟨(field ++ "_").toList, ("_" ++ between).toList, by simp [TranscriptionAction.keyJoiner]⟩⟩
  · exact ⟨⟨[], ("_" ++ service').toList, by simp [TranscriptionAction.keyJoiner]⟩,
      ⟨(field ++ "_").toList, [], by simp [TranscriptionAction.keyJoiner]⟩⟩

theorem not_holdsJoiner_manualService : ¬ HoldsJoiner manualService := by
  unfold HoldsJoiner
  decide

namespace FieldServiceMatrix

variable {fields services : OrderedSet}

theorem nodup_servicesOf (services : OrderedSet) : (servicesOf services).Nodup := by
  refine List.nodup_cons.mpr ⟨?_, services.nodup.sublist List.filter_sublist⟩
  simp

theorem filter_of_manualService_not_mem {names : List String} (h : manualService ∉ names) :
    names.filter (· ≠ manualService) = names :=
  List.filter_eq_self.mpr fun _ hs => decide_eq_true fun he => h (he ▸ hs)

theorem servicesOf_of_not_mem (h : manualService ∉ services.items) :
    servicesOf services = manualService :: services.items :=
  congrArg (manualService :: ·) (filter_of_manualService_not_mem h)

theorem nodup_pairs_generate (fields services : OrderedSet) (joiner : String) :
    (generate fields services joiner).pairs.Nodup := by
  refine List.nodup_flatMap.mpr ⟨?_, ?_⟩
  · intro field _
    refine (nodup_servicesOf services).map fun service service' h => ?_
    exact congrArg FieldServicePair.service h
  · refine fields.nodup.imp fun hne p hp hp' => hne ?_
    obtain ⟨service, -, rfl⟩ := List.mem_map.mp hp
    obtain ⟨service', -, h⟩ := List.mem_map.mp hp'
    exact (congrArg FieldServicePair.field h).symm

theorem nodup_keys_generate
    (uncut : ∀ p ∈ (generate fields services TranscriptionAction.keyJoiner).pairs,
      ∀ q ∈ (generate fields services TranscriptionAction.keyJoiner).pairs,
        ¬ CutLater p.field p.service q.field q.service) :
    (generate fields services TranscriptionAction.keyJoiner).keys.Nodup := by
  refine List.Nodup.map_on ?_ (nodup_pairs_generate fields services _)
  intro p hp q hq hkey
  have hpn := (mem_generate_iff.mp hp).2.2
  have hqn := (mem_generate_iff.mp hq).2.2
  by_contra hne
  have hslots : (p.field, p.service) ≠ (q.field, q.service) := by
    intro h
    obtain ⟨hfield, hservice⟩ := Prod.mk.inj h
    rw [hfield, hservice] at hpn
    exact hne (hpn.trans hqn.symm)
  rw [hpn, hqn] at hkey
  rcases (TranscriptionAction.pairKey_eq_iff hslots).mp hkey with h | h
  · exact uncut p hp q hq h
  · exact uncut q hq p hp h

theorem nodup_keys_of_services (h : ∀ service ∈ services.items, ¬ HoldsJoiner service) :
    (generate fields services TranscriptionAction.keyJoiner).keys.Nodup := by
  apply nodup_keys_generate
  intro p hp q _ hcut
  rcases mem_servicesOf.mp (mem_generate_iff.mp hp).2.1 with hmanual | hs
  · rw [hmanual] at hcut
    exact not_holdsJoiner_manualService hcut.holdsJoiner.1
  · exact h p.service hs hcut.holdsJoiner.1

theorem nodup_keys_of_fields (h : ∀ field ∈ fields.items, ¬ HoldsJoiner field) :
    (generate fields services TranscriptionAction.keyJoiner).keys.Nodup := by
  apply nodup_keys_generate
  intro p _ q hq hcut
  exact h q.field (mem_generate_iff.mp hq).1 hcut.holdsJoiner.2

end FieldServiceMatrix

namespace TranscriptionAction

/-- Two different slots share a key exactly if one of them is a later cut of the key of the other:
the longer field goes on with a separator, whole or but for its last underscore, and the service of
the shorter field begins with what is left of the key. So no key comes up twice in a matrix in
which no service, or no field, has the joiner in its name. -/
theorem key_collision_exact :
    (∀ field service field' service' : String, (field, service) ≠ (field', service') →
      (pairKey field service keyJoiner = pairKey field' service' keyJoiner ↔
        CutLater field service field' service' ∨ CutLater field' service' field service)) ∧
    (∀ fields services : OrderedSet,
      ((∀ service ∈ services.items, ¬ HoldsJoiner service) ∨
        ∀ field ∈ fields.items, ¬ HoldsJoiner field) →
      (FieldServiceMatrix.generate fields services keyJoiner).duplicateKey? = none) := by
  refine ⟨fun _ _ _ _ hne => pairKey_eq_iff hne, ?_⟩
  intro fields services h
  apply FieldServiceMatrix.duplicateKey?_eq_none_iff.mpr
  rcases h with h | h
  · exact FieldServiceMatrix.nodup_keys_of_services h
  · exact FieldServiceMatrix.nodup_keys_of_fields h

/-- Neither name has the whole separator in it, and still the slots share their key; the
same field is safe beside a service without the joiner. -/
theorem key_collision_exact_one_underscore :
    ("clip", "transcription_acme") ≠ ("clip_transcription", "acme") ∧
      pairKey "clip" "transcription_acme" keyJoiner =
        pairKey "clip_transcription" "acme" keyJoiner ∧
      (∀ service ∈ (OrderedSet.ofList ["acme"]).items, ¬ HoldsJoiner service) ∧
      (FieldServiceMatrix.generate (.ofList ["clip", "clip_transcription"]) (.ofList ["acme"])
        keyJoiner).duplicateKey? = none := by
  obtain ⟨collide, safe⟩ := key_collision_exact
  have hne : ("clip", "transcription_acme") ≠ ("clip_transcription", "acme") := by decide
  have hcut : CutLater "clip" "transcription_acme" "clip_transcription" "acme" :=
    Or.inr ⟨by decide, by decide⟩
  have hplain : ∀ service ∈ (OrderedSet.ofList ["acme"]).items, ¬ HoldsJoiner service := by
    unfold HoldsJoiner
    decide
  exact ⟨hne, (collide _ _ _ _ hne).mpr (Or.inl hcut), hplain, safe _ _ (Or.inl hplain)⟩

end TranscriptionAction

end SubmissionAnnotation
