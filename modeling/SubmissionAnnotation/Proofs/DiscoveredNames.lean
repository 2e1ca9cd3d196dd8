import SubmissionAnnotation.Proofs.Discovery
import SubmissionAnnotation.Proofs.DistinctKeys

/-!
# Which names are discovered

A form document is read row by row, and a row says three things that discovery looks at,
its type and its two names; all else that stands in rows and document is kept or passed
over. The names that are found are those of the rows with recordings, in their order: the
name that the author gave, unless it is missing or empty, and else the one that was made up.
Whether that one is empty is not asked, so a row with an empty made-up name and no other is
not left out but gives an empty name.
-/
namespace SubmissionAnnotation

namespace Json

def text? : Json → Option String
  | .string s => some s
  | _ => none

def items? : Json → Option (List Json)
  | .array items => some items
  | _ => none

/-- The rows that a form document lists: an object has them under a key, and an array has
them as its only item. -/
def surveyRows : Json → List Json
  | .object members => ((members.get? "survey").bind items?).getD []
  | .array [.array rows] => rows
  | _ => []

theorem DistinctKeys.of_mem_surveyRows {document : Json} (h : document.DistinctKeys) :
    ∀ row ∈ document.surveyRows, row.DistinctKeys := by
  intro row hrow
  unfold surveyRows at hrow
  split at hrow
  · next members =>
    cases hs : members.get? "survey" with
    | none => simp [hs] at hrow
    | some v =>
      have hv : v.DistinctKeys :=
        h.of_mem_entries _ ((OrderedMap.mem_entries_iff h.keys_nodup).mpr hs)
      rw [hs, Option.bind_some] at hrow
      cases v with
      | array rows => exact hv.of_mem_items row hrow
      | _ => cases hrow
  · exact (h.of_mem_items _ List.mem_cons_self).of_mem_items row hrow
  · cases hrow

end Json

structure StatedRow where
  type : Option String
  name : Option String
  autoname : Option String
  deriving DecidableEq

namespace StatedRow

def ofJson (row : Json) : StatedRow where
  type := (row.member? "type").bind Json.text?
  name := (row.member? "name").bind Json.text?
  autoname := (row.member? "$autoname").bind Json.text?

def isMedia (row : StatedRow) : Bool :=
  row.type.any (· ∈ mediaRowTypes)

/-- The first of the two names that is not empty. -/
def usableName? (row : StatedRow) : Option String :=
  (row.name.filter (· ≠ "")).or (row.autoname.filter (· ≠ ""))

/-- No name can be used, but one was made up, which is empty. -/
def EmptyNamed (row : StatedRow) : Prop :=
  row.usableName? = none ∧ row.autoname = some ""

instance : DecidablePred EmptyNamed := fun row =>
  inferInstanceAs (Decidable (row.usableName? = none ∧ row.autoname = some ""))

/-- The usable name, or else the made-up one even if it is empty. -/
def discovered? (row : StatedRow) : Option String :=
  row.usableName?.or (if row.EmptyNamed then some "" else none)

variable {row : StatedRow}

theorem usableName?_ne_empty : row.usableName? ≠ some "" := by
  simp [usableName?, Option.or_eq_some_iff, Option.filter_eq_some_iff]

theorem discovered?_eq_empty_iff : row.discovered? = some "" ↔ row.EmptyNamed := by
  unfold discovered?
  by_cases h : row.EmptyNamed
  · simp [h, h.1]
  · simp [h, usableName?_ne_empty]

theorem discovered?_of_not_emptyNamed (h : ¬ row.EmptyNamed) :
    row.discovered? = row.usableName? := by
  simp [discovered?, h]

theorem discovered?_eq : row.discovered? = (row.name.filter (· ≠ "")).or row.autoname := by
  by_cases h : row.EmptyNamed
  · obtain ⟨hname, -⟩ := Option.or_eq_none_iff.mp h.1
    rw [discovered?, if_pos h, h.1, hname, h.2]
  · -- Where the first name cannot be used, the second one is missing or not empty.
    rw [discovered?_of_not_emptyNamed h, usableName?]
    cases hname : row.name.filter (· ≠ "") with
    | some name => rfl
    | none =>
      cases ha : row.autoname with
      | none => rfl
      | some autoname =>
        have hne : autoname ≠ "" := by
          rintro rfl
          exact h ⟨by rw [usableName?, hname, ha]; rfl, ha⟩
        simp [hne]

end StatedRow

def mediaRows (document : Json) : List StatedRow :=
  (document.surveyRows.map .ofJson).filter StatedRow.isMedia

namespace FormRow

variable {row : FormRow} {v : Json}

/-- The type and the names of a row are those that are stated, and a type that is
not stated is empty. -/
structure Reads (row : FormRow) (stated : StatedRow) : Prop where
  type : row.type = stated.type.getD ""
  name : row.name = stated.name
  autoname : row.autoname = stated.autoname

/-- A part of a row that one field alone sets is read from what stands under its name. -/
theorem part_of_decode {α : Type} {part : FormRow → α} {members : OrderedMap Json}
    {f : Field FormRow} (value : Option Json → α) (name : String) (distinct : members.keys.Nodup)
    (field : record.field? name = some f) (missing : part blank = value none)
    (own : ∀ v change, f.read v = .ok change → ∀ row, part (change row) = value (some v))
    (type : "type" ≠ name → ∀ row s, part { row with type := s } = part row)
    (names : "name" ≠ name → ∀ row s, part { row with name := s } = part row)
    (autoname : "$autoname" ≠ name → ∀ row s, part { row with autoname := s } = part row)
    (extra : ∀ row m, part { row with extra := m } = part row)
    (h : record.decode (.object members) = .ok row) : part row = value (members.get? name) := by
  refine Record.of_decode_member (P := fun found row => part row = value found)
    distinct name field missing own ?_ ?_ h
  · intro g hg hne found
    simp only [record, List.mem_cons, List.not_mem_nil, or_false] at hg
    rcases hg with rfl | rfl | rfl
    · exact Field.keeps_defaulted fun _ s _ row hrow => (type hne row s).trans hrow
    · exact Field.keeps_optional fun s row hrow => (names hne row s).trans hrow
    · exact Field.keeps_optional fun s row hrow => (autoname hne row s).trans hrow
  · intro add entries ho key v row found hrow
    obtain ⟨rfl, rfl⟩ := OtherMembers.kept.inj ho
    exact (extra row _).trans hrow

theorem change_eq_of_read_optional {name : String} {get : FormRow → Option String}
    {set : Option String → FormRow → FormRow} {change : FormRow → FormRow}
    (h : (Field.optional name .string get set).read v = .ok change) : change = set v.text? := by
  cases v with
  | null => exact (Except.ok.inj h).symm
  | string s => exact (Except.ok.inj h).symm
  | _ => cases h

theorem reads_of_decode (distinct : v.DistinctKeys) (h : record.decode v = .ok row) :
    row.Reads (.ofJson v) := by
  cases v with
  | object members =>
    have hkeys := distinct.keys_nodup
    constructor
    · refine part_of_decode (fun found => (found.bind Json.text?).getD "") "type" hkeys rfl rfl ?_
        (fun hne => absurd rfl hne) (fun _ _ _ => rfl) (fun _ _ _ => rfl) (fun _ _ => rfl) h
      intro v change hread row
      obtain ⟨s, hs, rfl⟩ := map_eq_ok_iff.mp hread
      rw [Codec.decode_string_eq_ok_iff.mp hs]
      rfl
    · refine part_of_decode (fun found => found.bind Json.text?) "name" hkeys rfl rfl ?_
        (fun _ _ _ => rfl) (fun hne => absurd rfl hne) (fun _ _ _ => rfl) (fun _ _ => rfl) h
      intro v change hread row
      rw [change_eq_of_read_optional hread]
      rfl
    · refine part_of_decode (fun found => found.bind Json.text?) "$autoname" hkeys rfl rfl ?_
        (fun _ _ _ => rfl) (fun _ _ _ => rfl) (fun hne => absurd rfl hne) (fun _ _ => rfl) h
      intro v change hread row
      rw [change_eq_of_read_optional hread]
      rfl
  | _ => cases h

theorem Reads.isMedia {stated : StatedRow} (h : row.Reads stated) :
    row.isMedia = stated.isMedia := by
  rw [FormRow.isMedia, StatedRow.isMedia, h.type]
  cases stated.type with
  | none => decide
  | some type => rfl

theorem Reads.fieldName {stated : StatedRow} (h : row.Reads stated) :
    row.fieldName = stated.discovered? := by
  rw [StatedRow.discovered?_eq, FormRow.fieldName, h.name, h.autoname]
  cases stated.name with
  | none => rfl
  | some name => by_cases hn : name = "" <;> simp [hn, Option.filter]

end FormRow

namespace FormDefinition

variable {form : FormDefinition} {document : Json}

theorem forall₂_of_decode (distinct : document.DistinctKeys)
    (h : record.decode document = .ok form) :
    List.Forall₂ (fun v row => FormRow.record.decode v = .ok row) document.surveyRows
      form.survey := by
  cases document with
  | object members =>
    refine Record.of_decode_member (P := fun found form =>
      List.Forall₂ (fun v row => FormRow.record.decode v = .ok row)
        ((found.bind Json.items?).getD []) (survey form)) distinct.keys_nodup "survey" rfl .nil
        ?_ ?_ ?_ h
    · intro v change hread form
      obtain ⟨rows, hrows, rfl⟩ := map_eq_ok_iff.mp hread
      obtain ⟨items, rfl, hitems⟩ := Codec.decode_list_eq_ok_iff.mp hrows
      exact hitems
    · intro g hg hne
      simp only [record, List.mem_cons, List.not_mem_nil, or_false] at hg
      exact absurd (congrArg Field.name hg) hne
    · intro add entries ho
      cases ho
  | array items =>
    cases items with
    | nil =>
      cases h
      exact .nil
    | cons v rest =>
      obtain ⟨change, hread, h⟩ := bind_eq_ok_iff.mp h
      obtain ⟨rows, hrows, rfl⟩ := map_eq_ok_iff.mp hread
      obtain ⟨items, rfl, hitems⟩ := Codec.decode_list_eq_ok_iff.mp hrows
      cases rest with
      | nil =>
        cases h
        exact hitems
      | cons => cases h
  | _ => cases h

theorem forall₂_reads_of_decode (distinct : document.DistinctKeys)
    (h : record.decode document = .ok form) :
    List.Forall₂ (fun v row => FormRow.Reads row (.ofJson v)) document.surveyRows form.survey := by
  have hrows := (List.forall₂_and_left _ _).mpr
    ⟨distinct.of_mem_surveyRows, forall₂_of_decode distinct h⟩
  exact hrows.imp fun v row hrow => FormRow.reads_of_decode hrow.1 hrow.2

theorem namesOfType_of_forall₂ {rows : List Json} {survey : List FormRow}
    (h : List.Forall₂ (fun v row => FormRow.Reads row (.ofJson v)) rows survey) :
    namesOfType ⟨survey⟩ mediaRowTypes =
      ((rows.map .ofJson).filter StatedRow.isMedia).filterMap StatedRow.discovered? := by
  unfold namesOfType
  induction h with
  | nil => rfl
  | @cons v row rows survey hrow _ ih =>
    have hmedia : decide (row.type ∈ mediaRowTypes) = (StatedRow.ofJson v).isMedia := hrow.isMedia
    rw [List.map_cons, List.filter_cons, List.filter_cons, hmedia]
    split
    · rw [List.filterMap_cons, List.filterMap_cons, hrow.fieldName, ih]
    · exact ih

end FormDefinition

namespace TranscriptionAction

variable {form : FormDefinition} {document : Json}

theorem valuesForContent_of_decode (distinct : document.DistinctKeys)
    (read : FormDefinition.record.decode document = .ok form) :
    valuesForContent form = (mediaRows document).filterMap StatedRow.discovered? :=
  FormDefinition.namesOfType_of_forall₂ (FormDefinition.forall₂_reads_of_decode distinct read)

/-- What is discovered in a form document are the usable names of its rows with recordings,
one for each row that has one and in their order, if no such row has an empty made-up name
and no other. A row that has gives an empty name, and only such rows do. All else in the
document has no part in it: documents whose rows with recordings state the same types and
names give the same list. -/
theorem discovered_names_usable_unless_autoname_empty (distinct : document.DistinctKeys)
    (read : FormDefinition.record.decode document = .ok form) (config : ActionConfig) :
    (∃ p, (Batch.defaultRegistry config).buildParams actionId form = .ok p ∧
      p.values = valuesForContent form) ∧
    ((∀ row ∈ mediaRows document, ¬ row.EmptyNamed) →
      valuesForContent form = (mediaRows document).filterMap StatedRow.usableName? ∧
        "" ∉ valuesForContent form) ∧
    valuesForContent form = (mediaRows document).filterMap (fun row =>
      row.usableName?.or (if row.EmptyNamed then some "" else none)) ∧
    ("" ∈ valuesForContent form ↔ ∃ row ∈ mediaRows document, row.EmptyNamed) ∧
    ∀ (other : Json) (form' : FormDefinition), other.DistinctKeys →
      FormDefinition.record.decode other = .ok form' → mediaRows other = mediaRows document →
        valuesForContent form' = valuesForContent form := by
  have names := valuesForContent_of_decode distinct read
  have empty_iff : "" ∈ valuesForContent form ↔ ∃ row ∈ mediaRows document, row.EmptyNamed := by
    simp only [names, List.mem_filterMap, StatedRow.discovered?_eq_empty_iff]
  refine ⟨⟨_, buildParams_defaultRegistry form config, rfl⟩, ?_, names, empty_iff, ?_⟩
  · intro usable
    constructor
    · rw [names]
      apply List.filterMap_congr
      intro row hrow
      exact StatedRow.discovered?_of_not_emptyNamed (usable row hrow)
    · intro hempty
      obtain ⟨row, hrow, h⟩ := empty_iff.mp hempty
      exact usable row hrow h
  · intro other form' distinct' read' same
    rw [names, valuesForContent_of_decode distinct' read', same]

/-- A form with groups, a row without a name and one whose name is empty, and beside it the
array form of its recordings. -/
theorem discovered_names_usable_unless_autoname_empty_two_forms :
    let row (entries : List (String × String)) : Json :=
      .ofEntries (entries.map fun entry => (entry.1, .string entry.2))
    let document : Json := .ofEntries [("settings", .null), ("survey", .array [
      row [("type", "begin_group"), ("name", "first")],
      row [("type", "audio"), ("name", "clip"), ("label", "A clip")],
      row [("type", "audio")],
      row [("$autoname", "talk"), ("name", ""), ("type", "video")]])]
    let other : Json := .array [.array [row [("name", "clip"), ("type", "audio")],
      row [("type", "audio")], row [("type", "video"), ("name", ""), ("$autoname", "talk")]]]
    document.DistinctKeys ∧ other.DistinctKeys ∧ mediaRows other = mediaRows document ∧
      ∃ form form', FormDefinition.record.decode document = .ok form ∧
        FormDefinition.record.decode other = .ok form' ∧
        valuesForContent form = ["clip", "talk"] ∧ valuesForContent form' = ["clip", "talk"] := by
  intro row document other
  have hdocument : document.DistinctKeys := by simp [document, row]
  have hother : other.DistinctKeys := by simp [other, row]
  have same : mediaRows other = mediaRows document := by decide
  obtain ⟨form, hform⟩ : ∃ form, FormDefinition.record.decode document = .ok form := ⟨_, rfl⟩
  obtain ⟨form', hform'⟩ : ∃ form, FormDefinition.record.decode other = .ok form := ⟨_, rfl⟩
  obtain ⟨-, usable, -, -, agree⟩ :=
    discovered_names_usable_unless_autoname_empty hdocument hform .default
  have hnames : valuesForContent form = ["clip", "talk"] :=
    (usable (by decide)).1.trans (by decide)
  exact ⟨hdocument, hother, same, form, form', hform, hform', hnames,
    (agree other form' hother hform' same).trans hnames⟩

/-- It is not so that only usable names are discovered. -/
theorem not_discovered_names_always_usable :
    ¬ ∀ (document : Json) (form : FormDefinition), document.DistinctKeys →
      FormDefinition.record.decode document = .ok form →
        valuesForContent form = (mediaRows document).filterMap StatedRow.usableName? ∧
          "" ∉ valuesForContent form := by
  intro usable
  let document : Json := .ofEntries [("survey", .array [
    .ofEntries [("type", .string "audio"), ("$autoname", .string "")]])]
  let form : FormDefinition := ⟨[⟨"audio", none, some "", .empty⟩]⟩
  have distinct : document.DistinctKeys := by simp [document]
  have read : FormDefinition.record.decode document = .ok form := rfl
  exact (usable document form distinct read).2 (by decide)

end TranscriptionAction

end SubmissionAnnotation
