import SubmissionAnnotation.Proofs.SlotKeys

/-!
# Where slots stand in a matrix

The slots of a matrix are the rows of its fields, one behind the other, and all rows have one
length: the slot by hand and a slot for each other service. So the position of a slot is known
from those of its field and its service. No field and no service come up twice, so no slot
does, and looking for a field and a service finds the one slot that they have, if any.
-/
namespace SubmissionAnnotation

namespace FieldServiceMatrix

variable {fields services : OrderedSet} {joiner field service : String} {names : List String}
  {p : FieldServicePair}

@[simp] theorem length_row (services : OrderedSet) (joiner field : String) :
    (row services joiner field).length = (servicesOf services).length :=
  List.length_map _

theorem getElem?_row (services : OrderedSet) (joiner field : String) (j : Nat) :
    (row services joiner field)[j]? =
      (servicesOf services)[j]?.map fun service => .ofNames field service joiner :=
  List.getElem?_map

theorem size_generate (fields services : OrderedSet) (joiner : String) :
    (generate fields services joiner).size =
      fields.items.length * (servicesOf services).length := by
  simp [size, generate, List.length_flatMap]

/-- A slot stands as far behind the first one of its field as its service behind
the first service. -/
theorem getElem?_flatMap_row {j : Nat} (hj : j < (servicesOf services).length) (i : Nat) :
    (names.flatMap (row services joiner))[i * (servicesOf services).length + j]? =
      names[i]?.bind fun field => (row services joiner field)[j]? := by
  induction names generalizing i with
  | nil => simp
  | cons first rest ih =>
    rw [List.flatMap_cons]
    cases i with
    | zero =>
      rw [Nat.zero_mul, Nat.zero_add, List.getElem?_append_left (by rwa [length_row])]
      rfl
    | succ i =>
      -- The row of the first field is skipped.
      have hposition : (i + 1) * (servicesOf services).length + j =
          (row services joiner first).length + (i * (servicesOf services).length + j) := by
        rw [length_row, Nat.succ_mul]
        omega
      rw [hposition, List.getElem?_append_right (Nat.le_add_right _ _), Nat.add_sub_cancel_left, ih]
      rfl

theorem getElem?_pairs_generate {i j : Nat} (hf : fields.items[i]? = some field)
    (hs : (servicesOf services)[j]? = some service) :
    (generate fields services joiner).pairs[i * (servicesOf services).length + j]? =
      some (.ofNames field service joiner) := by
  obtain ⟨hj, -⟩ := List.getElem?_eq_some_iff.mp hs
  have hrow : (row services joiner field)[j]? = some (.ofNames field service joiner) := by
    rw [getElem?_row, hs]
    rfl
  rw [generate, getElem?_flatMap_row hj, hf]
  exact hrow

theorem eq_ofNames_of_mem_generate (h : p ∈ (generate fields services joiner).pairs) :
    p = .ofNames p.field p.service joiner :=
  (mem_generate_iff.mp h).2.2

theorem nodup_names_generate (fields services : OrderedSet) (joiner : String) :
    ((generate fields services joiner).pairs.map fun p => (p.field, p.service)).Nodup := by
  refine List.Nodup.map_on ?_ (nodup_pairs_generate fields services joiner)
  intro p hp q hq h
  obtain ⟨hfield, hservice⟩ := Prod.mk.inj h
  rw [eq_ofNames_of_mem_generate hp, eq_ofNames_of_mem_generate hq, hfield, hservice]

theorem find?_generate_eq_some_iff :
    (generate fields services joiner).find? field service = some p ↔
      p ∈ (generate fields services joiner).pairs ∧ p.field = field ∧ p.service = service := by
  constructor
  · exact of_find?_eq_some
  · rintro ⟨hp, rfl, rfl⟩
    exact find?_generate_of_mem hp

/-- A matrix has, for each field in turn, the slot by hand and then the slots of the other
services in their order, each with the key of its field and its service; a configured service
that is called as the entry by hand has no slot of its own. No field and service come up twice,
and looking for a field and a service gives a slot exactly if the field is listed and the
service is the entry by hand or is listed, and then it gives the only slot they have. -/
theorem layout_and_lookup_exact (fields services : OrderedSet) (joiner : String) :
    let m := generate fields services joiner
    let others := services.items.filter (· ≠ manualService)
    let c := 1 + others.length
    m.size = fields.items.length * c ∧
    (∀ i field, fields.items[i]? = some field →
      m.pairs[i * c]? = some (.ofNames field manualService joiner) ∧
      ∀ j service, others[j]? = some service →
        m.pairs[i * c + 1 + j]? = some (.ofNames field service joiner)) ∧
    (∀ p ∈ m.pairs, p.key = pairKey p.field p.service joiner) ∧
    (m.pairs.map fun p => (p.field, p.service)).Nodup ∧
    ∀ field service,
      ((∃ p, m.find? field service = some p) ↔
        field ∈ fields.items ∧ (service = manualService ∨ service ∈ services.items)) ∧
      ∀ p, m.find? field service = some p ↔
        p ∈ m.pairs ∧ p.field = field ∧ p.service = service := by
  intro m others c
  have hc : (servicesOf services).length = c := Nat.add_comm _ _
  refine ⟨?_, ?_, ?_, nodup_names_generate fields services joiner, ?_⟩
  · rw [← hc]
    exact size_generate fields services joiner
  · intro i field hf
    rw [← hc]
    refine ⟨getElem?_pairs_generate hf (j := 0) rfl, fun j service hs => ?_⟩
    -- The other services stand one place further in the row.
    rw [Nat.add_assoc, Nat.add_comm 1 j]
    exact getElem?_pairs_generate hf hs
  · intro p hp
    exact congrArg FieldServicePair.key (eq_ofNames_of_mem_generate hp)
  · intro field service
    exact ⟨exists_find?_generate_iff, fun p => find?_generate_eq_some_iff⟩

/-- Two fields with a service called as the entry by hand between two others: the second field
has its slots at the places three to five, and each of them is found. -/
theorem layout_and_lookup_exact_manual_between :
    let fields : OrderedSet := .ofList ["clip", "talk"]
    let services : OrderedSet := .ofList ["acme", "manual", "echo"]
    let m := generate fields services "text"
    fields.items[1]? = some "talk" ∧
      (services.items.filter (· ≠ manualService))[1]? = some "echo" ∧
      m.size = 6 ∧ m.pairs[3]? = some (.ofNames "talk" "manual" "text") ∧
      m.pairs[5]? = some ⟨"talk", "echo", "talk_text_echo"⟩ ∧
      m.find? "talk" "echo" = some ⟨"talk", "echo", "talk_text_echo"⟩ ∧
      (∃ p, m.find? "clip" "manual" = some p) ∧ ¬ ∃ p, m.find? "clip" "other" = some p := by
  intro fields services m
  obtain ⟨size, places, -, -, lookup⟩ := layout_and_lookup_exact fields services "text"
  have hf : fields.items[1]? = some "talk" := by decide
  have hs : (services.items.filter (· ≠ manualService))[1]? = some "echo" := by decide
  obtain ⟨byHand, others⟩ := places 1 "talk" hf
  have hecho := others 1 "echo" hs
  have hkey : FieldServicePair.ofNames "talk" "echo" "text" =
      ⟨"talk", "echo", "talk_text_echo"⟩ := by
    decide
  rw [hkey] at hecho
  refine ⟨hf, hs, size, byHand, hecho, ?_, ?_, ?_⟩
  · exact ((lookup "talk" "echo").2 _).mpr ⟨List.mem_of_getElem? hecho, rfl, rfl⟩
  · exact (lookup "clip" "manual").1.mpr (by decide)
  · exact (lookup "clip" "other").1.not.mpr (by decide)

end FieldServiceMatrix

end SubmissionAnnotation
