import SubmissionAnnotation.Proofs.PublishedShape

/-!
# Sequences of writes into a schema document

A write walks down to its key and makes the sections that are missing on the way. Below a
section that it made nothing stands in its way, so a write that is refused has made none,
and leaves the document as it was. After any sequence of writes, some of them refused, a
key therefore holds what the last of the others wrote to it, or what it held at the start;
and whatever no write was for has kept its value.
-/
namespace SubmissionAnnotation

open SchemaDocument

namespace SchemaEdit

variable {edit : SchemaEdit} {key : String} {fresh : OrderedMap Json} {refuse : Json → ActionError}

theorem fst_within_eq_ok_iff {members : OrderedMap Json} :
    (within key fresh refuse edit members).1 = .ok () ↔
      IsSection (members.get? key) ∧ (edit (sectionOr fresh (members.get? key))).1 = .ok () := by
  by_cases hs : IsSection (members.get? key)
  · rw [within_of_isSection hs, and_iff_right hs]
  · obtain ⟨v, hw⟩ := within_of_not_isSection hs
    rw [hw]
    exact ⟨nofun, fun h => absurd h.1 hs⟩

/-- An edit that fails leaves the members that it was to edit. -/
def Atomic (edit : SchemaEdit) : Prop :=
  ∀ members e, (edit members).1 = .error e → (edit members).2 = members

theorem atomic_put (key : String) (value : Json) : Atomic (put key value) := nofun

/-- An edit below a key is atomic if it cannot fail in the object that is made there. -/
theorem Atomic.within (h : edit.Atomic) (made : (edit fresh).1 = .ok ()) :
    (within key fresh refuse edit).Atomic := by
  intro members e he
  by_cases hs : IsSection (members.get? key)
  · rw [within_of_isSection hs] at he ⊢
    rcases hs with missing | ⟨child, present⟩
    · -- The object below is `fresh`, in which the edit does not fail.
      rw [missing] at he
      cases made.symm.trans he
    · rw [present, sectionOr_object] at he ⊢
      rw [h child e he]
      exact OrderedMap.insert_of_get?_eq present
  · obtain ⟨v, hw⟩ := within_of_not_isSection hs
    rw [hw]

theorem Atomic.inSection (h : edit.Atomic) (made : (edit .empty).1 = .ok ()) (key : String) :
    (inSection key edit).Atomic :=
  h.within made

end SchemaEdit

inductive SchemaWrite where
  | definition (name : String) (value : Json)
  | property (field subKey : String) (value : Json)

namespace SchemaWrite

def edit : SchemaWrite → SchemaEdit
  | definition name value => setDefinitionEdit name value
  | property field subKey value => attachEdit field subKey value

def definitionFor? (name : String) : SchemaWrite → Option Json
  | definition other value => if other = name then some value else none
  | property _ _ _ => none

def propertyFor? (field subKey : String) : SchemaWrite → Option Json
  | definition _ _ => none
  | property other otherKey value =>
    if other = field ∧ otherKey = subKey then some value else none

theorem atomic_edit (w : SchemaWrite) : w.edit.Atomic := by
  cases w with
  | definition name value => exact (SchemaEdit.atomic_put name value).inSection rfl definitionsKey
  | property field subKey value =>
    have own := (SchemaEdit.atomic_put subKey value).inSection rfl propertiesKey
    exact (own.within rfl).inSection rfl propertiesKey

end SchemaWrite

namespace SchemaDocument

variable {d after last : SchemaDocument} {w : SchemaWrite} {writes more : List SchemaWrite}
  {name field subKey : String} {value : Json} {entry : Option Json}

/-- What an entry holds under a key of its `properties`. -/
def attached? (entry : Option Json) (subKey : String) : Option Json :=
  (entry.bind fun own => own.member? propertiesKey).bind fun own => own.member? subKey

theorem attached?_describedField (h : Extendable entry) (subKey : String) (value : Json)
    (key : String) :
    attached? (some (.object (describedField subKey value entry))) key =
      if key = subKey then some value else attached? entry key := by
  obtain ⟨hs, hp⟩ := h
  have hown : attached? entry key =
      (sectionOr .empty ((sectionOr emptyFieldMembers entry).get? propertiesKey)).get? key := by
    rw [← bind_member?_of_isSection hp]
    rcases hs with rfl | ⟨own, rfl⟩ <;> rfl
  rw [hown, ← OrderedMap.get?_insert]
  simp only [attached?, Option.bind_some, Json.member?, describedField,
    OrderedMap.get?_insert_self]

theorem property?_setDefinition (h : d.setDefinition name value = .ok after) (field : String) :
    after.property? field = d.property? field := by
  obtain ⟨-, hroot⟩ := setDefinition_eq_ok_iff.mp h
  rw [property?, hroot, OrderedMap.get?_insert_of_ne (by decide)]
  rfl

theorem describable_field_iff :
    Describable [field] d.root ↔
      IsSection (d.root.get? propertiesKey) ∧ Extendable (d.property? field) := by
  rw [describable_singleton_iff]
  refine and_congr_right fun hs => ?_
  rw [property?, bind_member?_of_isSection hs, propertiesOf]

theorem property?_attachFieldProperty (h : d.attachFieldProperty field subKey value = .ok after)
    (other : String) :
    after.property? other =
      if other = field then some (.object (describedField subKey value (d.property? other)))
      else d.property? other := by
  obtain ⟨hd, hroot⟩ := attachFieldProperty_eq_ok_iff.mp h
  obtain ⟨hs, -⟩ := describable_field_iff.mp hd
  rw [property?, property?, bind_member?_of_isSection hs, hroot, describeAll,
    OrderedMap.get?_insert_self]
  exact get?_describe subKey value (propertiesOf d.root) field other

theorem extendable_of_attachFieldProperty
    (h : d.attachFieldProperty field subKey value = .ok after) : Extendable (d.property? field) :=
  (describable_field_iff.mp (attachFieldProperty_eq_ok_iff.mp h).1).2

def write (d : SchemaDocument) (w : SchemaWrite) : Except ActionError Unit × SchemaDocument :=
  d.edit w.edit

/-- Makes writes one after the other, also behind one that was refused. -/
def writeAll (d : SchemaDocument) (writes : List SchemaWrite) : SchemaDocument :=
  writes.foldl (fun d w => (d.write w).2) d

def made : SchemaDocument → List SchemaWrite → List SchemaWrite
  | _, [] => []
  | d, w :: rest =>
    match (d.write w).1 with
    | .ok _ => w :: (d.write w).2.made rest
    | .error _ => (d.write w).2.made rest

/-- What writes leave of a document: under each key the last value that they had for it,
or the one that it had before. -/
structure Written (writes : List SchemaWrite) (before after : SchemaDocument) : Prop where
  definition?_eq : ∀ name, after.definition? name =
    (writes.filterMap (SchemaWrite.definitionFor? name)).getLast?.or (before.definition? name)
  attached?_eq : ∀ field subKey, attached? (after.property? field) subKey =
    (writes.filterMap (SchemaWrite.propertyFor? field subKey)).getLast?.or
      (attached? (before.property? field) subKey)
  members : before.root.ChangedOnlyAt [definitionsKey, propertiesKey] after.root
  /-- A field that no write is for stays as it is. -/
  property?_eq : ∀ field, (∀ subKey value, .property field subKey value ∉ writes) →
    after.property? field = before.property? field
  /-- The other keys of the definition of a field stay as they are. -/
  member?_eq : ∀ field own, before.property? field = some own →
    ∃ grown, after.property? field = some grown ∧
      ∀ key, key ≠ propertiesKey → grown.member? key = own.member? key

theorem Written.refl (d : SchemaDocument) : Written [] d d where
  definition?_eq _ := rfl
  attached?_eq _ _ := rfl
  members := .refl _ _
  property?_eq _ _ := rfl
  member?_eq _ own h := ⟨own, h, fun _ _ => rfl⟩

theorem Written.trans (h : Written writes d after) (h' : Written more after last) :
    Written (writes ++ more) d last where
  definition?_eq name := by
    rw [h'.definition?_eq, h.definition?_eq, List.filterMap_append, List.getLast?_append,
      Option.or_assoc]
  attached?_eq field subKey := by
    rw [h'.attached?_eq, h.attached?_eq, List.filterMap_append, List.getLast?_append,
      Option.or_assoc]
  members := h.members.trans h'.members
  property?_eq field unwritten := by
    have first := h.property?_eq field fun subKey value hw =>
      unwritten subKey value (List.mem_append_left more hw)
    have second := h'.property?_eq field fun subKey value hw =>
      unwritten subKey value (List.mem_append_right writes hw)
    exact second.trans first
  member?_eq field own hown := by
    obtain ⟨grown, hgrown, hkeys⟩ := h.member?_eq field own hown
    obtain ⟨final, hfinal, hkeys'⟩ := h'.member?_eq field grown hgrown
    exact ⟨final, hfinal, fun key hk => (hkeys' key hk).trans (hkeys key hk)⟩

theorem written_setDefinition (h : d.setDefinition name value = .ok after) :
    Written [.definition name value] d after where
  definition?_eq other := by
    rw [definition?_setDefinition h]
    by_cases hn : name = other
    · simp [SchemaWrite.definitionFor?, hn]
    · simp [SchemaWrite.definitionFor?, hn, Ne.symm hn]
  attached?_eq field subKey := by
    rw [property?_setDefinition h]
    rfl
  members := by
    obtain ⟨-, hroot⟩ := setDefinition_eq_ok_iff.mp h
    rw [hroot]
    exact (OrderedMap.ChangedOnlyAt.refl _ d.root).insert List.mem_cons_self _
  property?_eq field _ := property?_setDefinition h field
  member?_eq field own hown :=
    ⟨own, (property?_setDefinition h field).trans hown, fun _ _ => rfl⟩

theorem written_attachFieldProperty (h : d.attachFieldProperty field subKey value = .ok after) :
    Written [.property field subKey value] d after where
  definition?_eq name := definition?_attachFieldProperty h name
  attached?_eq other key := by
    rw [property?_attachFieldProperty h]
    by_cases hf : other = field
    · subst hf
      rw [if_pos rfl, attached?_describedField (extendable_of_attachFieldProperty h)]
      by_cases hk : key = subKey
      · simp [SchemaWrite.propertyFor?, hk]
      · simp [SchemaWrite.propertyFor?, hk, Ne.symm hk]
    · simp [SchemaWrite.propertyFor?, hf, Ne.symm hf]
  members := by
    obtain ⟨-, hroot⟩ := attachFieldProperty_eq_ok_iff.mp h
    rw [hroot]
    exact (OrderedMap.ChangedOnlyAt.refl _ d.root).insert (by decide) _
  property?_eq other unwritten := by
    have hne : other ≠ field := by
      rintro rfl
      exact unwritten subKey value List.mem_cons_self
    rw [property?_attachFieldProperty h, if_neg hne]
  member?_eq other own hown := by
    rw [property?_attachFieldProperty h]
    by_cases hf : other = field
    · subst hf
      obtain ⟨hs, -⟩ := extendable_of_attachFieldProperty h
      rw [hown] at hs ⊢
      obtain ⟨members, rfl⟩ : ∃ members, own = .object members := by
        rcases hs with hs | ⟨members, hs⟩
        · cases hs
        · exact ⟨members, Option.some.inj hs⟩
      refine ⟨_, if_pos rfl, fun key hk => ?_⟩
      exact OrderedMap.get?_insert_of_ne hk members _
    · exact ⟨own, (if_neg hf).trans hown, fun _ _ => rfl⟩

theorem edited_of_write (h : (d.write w).1 = .ok ()) : d.edited w.edit = .ok (d.write w).2 :=
  edited_eq_ok_iff.mpr (Prod.ext h rfl)

theorem written_write (h : (d.write w).1 = .ok ()) : Written [w] d (d.write w).2 := by
  cases w with
  | definition name value => exact written_setDefinition (edited_of_write h)
  | property field subKey value => exact written_attachFieldProperty (edited_of_write h)

theorem write_of_error {e : ActionError} (h : (d.write w).1 = .error e) : (d.write w).2 = d :=
  congrArg mk (w.atomic_edit d.root e h)

theorem written_writeAll (d : SchemaDocument) (writes : List SchemaWrite) :
    Written (d.made writes) d (d.writeAll writes) := by
  induction writes generalizing d with
  | nil => exact .refl d
  | cons w rest ih =>
    have hrest : d.writeAll (w :: rest) = (d.write w).2.writeAll rest := by
      rw [writeAll, List.foldl_cons, writeAll]
    cases hw : (d.write w).1 with
    | ok _ =>
      have hmade : d.made (w :: rest) = [w] ++ (d.write w).2.made rest := by
        simp [made, hw]
      rw [hrest, hmade]
      exact (written_write hw).trans (ih _)
    | error e =>
      have hmade : d.made (w :: rest) = (d.write w).2.made rest := by
        simp [made, hw]
      rw [hrest, hmade, write_of_error hw]
      exact ih d

theorem fst_write (d : SchemaDocument) (w : SchemaWrite) : (d.write w).1 = (w.edit d.root).1 := rfl

theorem write_definition_eq_ok_iff :
    (d.write (.definition name value)).1 = .ok () ↔ IsSection (d.root.get? definitionsKey) := by
  have put (members : OrderedMap Json) : (SchemaEdit.put name value members).1 = .ok () := rfl
  rw [fst_write, SchemaWrite.edit, setDefinitionEdit, SchemaEdit.inSection,
    SchemaEdit.fst_within_eq_ok_iff, and_iff_left (put _)]

theorem write_property_eq_ok_iff :
    (d.write (.property field subKey value)).1 = .ok () ↔
      IsSection (d.root.get? propertiesKey) ∧ Extendable (d.property? field) := by
  have put (members : OrderedMap Json) : (SchemaEdit.put subKey value members).1 = .ok () := rfl
  rw [fst_write, SchemaWrite.edit, attachEdit, SchemaEdit.inSection, SchemaEdit.inSection,
    SchemaEdit.fst_within_eq_ok_iff, SchemaEdit.fst_within_eq_ok_iff,
    SchemaEdit.fst_within_eq_ok_iff, and_iff_left (put _)]
  refine and_congr_right fun hs => ?_
  rw [property?, bind_member?_of_isSection hs, Extendable]

/-- Writes are atomic and keyed. A definition can be written if the document has definitions
or may get some, and a property if it can be attached to the field; a write that is refused
leaves the document as it was. After any sequence of writes every definition and every
property of a field is the last one that was written successfully, or what it was at the
start, and everything else that was there stays: the other members of the document, the
fields that no write was for, and the other members of a field. -/
theorem writes_atomic_and_keyed (d : SchemaDocument) :
    (∀ w e, (d.write w).1 = .error e → (d.write w).2 = d) ∧
    (∀ name value, (d.write (.definition name value)).1 = .ok () ↔
      IsSection (d.root.get? "definitions")) ∧
    (∀ field subKey value, (d.write (.property field subKey value)).1 = .ok () ↔
      IsSection (d.root.get? "properties") ∧ IsSection (d.property? field) ∧
        ∀ own, d.property? field = some (.object own) → IsSection (own.get? "properties")) ∧
    ∀ writes, Written (d.made writes) d (d.writeAll writes) := by
  refine ⟨fun w e => write_of_error, fun name value => write_definition_eq_ok_iff, ?_,
    written_writeAll d⟩
  intro field subKey value
  rw [write_property_eq_ok_iff, extendable_iff]
  rfl

/-- Definitions are refused and the field `talk` is; the other two fields are
written, one of them twice. -/
theorem writes_atomic_and_keyed_some_refused :
    let d : SchemaDocument := ⟨⟨[("definitions", .array []), ("title", .string "form"),
      ("properties", .object ⟨[("talk", .string "text"),
        ("clip", .object ⟨[("hint", .null), ("properties", .object ⟨[("old", .null)]⟩)]⟩)]⟩)]⟩⟩
    let refused : SchemaWrite := .definition "transcript" .null
    let first : SchemaWrite := .property "clip" "transcript" (.bool false)
    let again : SchemaWrite := .property "clip" "transcript" (.bool true)
    let new : SchemaWrite := .property "note" "transcript" .null
    let writes := [refused, first, .property "talk" "transcript" .null, new, again]
    (∃ e, (d.write refused).1 = .error e ∧ (d.write refused).2 = d) ∧
      d.made writes = [first, new, again] ∧
      let after := d.writeAll writes
      after.definition? "transcript" = none ∧
      attached? (after.property? "clip") "transcript" = some (.bool true) ∧
      attached? (after.property? "clip") "old" = some .null ∧
      attached? (after.property? "note") "transcript" = some .null ∧
      after.property? "talk" = some (.string "text") ∧
      after.root.get? "title" = some (.string "form") := by
  intro d refused first again new writes
  obtain ⟨atomic, -, -, written⟩ := writes_atomic_and_keyed d
  have hrefused : ∃ e, (d.write refused).1 = .error e := ⟨_, rfl⟩
  obtain ⟨e, he⟩ := hrefused
  have hmade : d.made writes = [first, new, again] := rfl
  have kept := hmade ▸ written writes
  refine ⟨⟨e, he, atomic refused e he⟩, hmade, kept.definition?_eq "transcript",
    kept.attached?_eq "clip" "transcript", kept.attached?_eq "clip" "old",
    kept.attached?_eq "note" "transcript", kept.property?_eq "talk" ?_,
    kept.members.get?_eq "title" (by decide)⟩
  intro subKey value hw
  simp [first, new, again] at hw

end SchemaDocument

end SubmissionAnnotation
