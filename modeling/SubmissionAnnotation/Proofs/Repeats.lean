import SubmissionAnnotation.Proofs.Acceptance

/-!
# Which repeat is reported

A scan for repeats goes through a list with what it has met so far, and stops at the first
item that it has met before. What it has met is the part of the list in front of it, so long
as it has not stopped, and nothing comes twice in that. So it finds the least position whose
item stands at an earlier one too. Keys of slots and the lists of stored parameters are
scanned in this way, the fields before the services.
-/
namespace SubmissionAnnotation

section Scan

variable {α : Type} {xs seen : List α} {x y : α} {i : Nat}

def RepeatsAt (xs : List α) (i : Nat) (x : α) : Prop :=
  xs[i]? = some x ∧ ∃ j < i, xs[j]? = some x

/-- An item stands at the least position at which an item is repeated. -/
def IsFirstRepeat (xs : List α) (x : α) : Prop :=
  ∃ i, RepeatsAt xs i x ∧ ∀ k < i, ∀ y, ¬ RepeatsAt xs k y

theorem nodup_iff_not_repeatsAt : xs.Nodup ↔ ∀ i x, ¬ RepeatsAt xs i x := by
  rw [List.nodup_iff_getElem?_ne_getElem?]
  constructor
  · rintro distinct i x ⟨hi, j, hj, hx⟩
    obtain ⟨hlen, -⟩ := List.getElem?_eq_some_iff.mp hi
    exact distinct j i hj hlen (hx.trans hi.symm)
  · intro h j i hj hi heq
    have hx := List.getElem?_eq_getElem hi
    exact h i xs[i] ⟨hx, j, hj, heq.trans hx⟩

theorem IsFirstRepeat.eq (h : IsFirstRepeat xs x) (h' : IsFirstRepeat xs y) : x = y := by
  obtain ⟨i, hi, least⟩ := h
  obtain ⟨k, hk, least'⟩ := h'
  rcases Nat.lt_trichotomy i k with hlt | rfl | hlt
  · exact absurd hi (least' i hlt x)
  · exact Option.some.inj (hi.1.symm.trans hk.1)
  · exact absurd hk (least k hlt y)

theorem IsFirstRepeat.not_nodup (h : IsFirstRepeat xs x) : ¬ xs.Nodup := by
  obtain ⟨i, hi, -⟩ := h
  exact fun distinct => nodup_iff_not_repeatsAt.mp distinct i x hi

theorem isFirstRepeat_append {before after : List α} (distinct : before.Nodup)
    (hx : x ∈ before) : IsFirstRepeat (before ++ x :: after) x := by
  have inFront : ∀ k < before.length, (before ++ x :: after)[k]? = before[k]? :=
    fun k hk => List.getElem?_append_left hk
  refine ⟨before.length, ⟨by simp, ?_⟩, ?_⟩
  · obtain ⟨j, hj⟩ := List.mem_iff_getElem?.mp hx
    obtain ⟨hlen, -⟩ := List.getElem?_eq_some_iff.mp hj
    exact ⟨j, hlen, (inFront j hlen).trans hj⟩
  · rintro k hk y ⟨hy, j, hj, hjy⟩
    rw [inFront k hk] at hy
    rw [inFront j (hj.trans hk)] at hjy
    exact nodup_iff_not_repeatsAt.mp distinct k y ⟨hy, j, hj, hjy⟩

variable [DecidableEq α]

/-- Where the scan stops: what lies in front has no repeats and nothing that was met before,
and the item was met before or in there. -/
theorem exists_append_of_firstRepeatAfter (h : firstRepeatAfter seen xs = some x) :
    ∃ before after, xs = before ++ x :: after ∧ before.Nodup ∧ (∀ y ∈ before, y ∉ seen) ∧
      (x ∈ seen ∨ x ∈ before) := by
  induction xs generalizing seen with
  | nil => cases h
  | cons first rest ih =>
    by_cases hfirst : first ∈ seen
    · rw [firstRepeatAfter, if_pos hfirst] at h
      obtain rfl := Option.some.inj h
      exact ⟨[], rest, rfl, List.nodup_nil, by simp, Or.inl hfirst⟩
    · rw [firstRepeatAfter, if_neg hfirst] at h
      obtain ⟨before, after, rfl, distinct, fresh, hx⟩ := ih h
      have hnew : first ∉ before := fun hb => fresh first hb List.mem_cons_self
      refine ⟨first :: before, after, rfl, List.nodup_cons.mpr ⟨hnew, distinct⟩, ?_, ?_⟩
      · intro y hy
        rcases List.mem_cons.mp hy with rfl | hy
        · exact hfirst
        · exact fun hs => fresh y hy (List.mem_cons_of_mem first hs)
      · rcases hx with hx | hx
        · rcases List.mem_cons.mp hx with rfl | hx
          · exact Or.inr List.mem_cons_self
          · exact Or.inl hx
        · exact Or.inr (List.mem_cons_of_mem first hx)

theorem isFirstRepeat_of_firstRepeat? (h : firstRepeat? xs = some x) : IsFirstRepeat xs x := by
  obtain ⟨before, after, rfl, distinct, -, hx⟩ := exists_append_of_firstRepeatAfter h
  exact isFirstRepeat_append distinct (hx.resolve_left List.not_mem_nil)

theorem firstRepeat?_eq_some_iff : firstRepeat? xs = some x ↔ IsFirstRepeat xs x := by
  constructor
  · exact isFirstRepeat_of_firstRepeat?
  · intro h
    cases hfound : firstRepeat? xs with
    | none => exact absurd (firstRepeat?_eq_none_iff.mp hfound) h.not_nodup
    | some y => rw [(isFirstRepeat_of_firstRepeat? hfound).eq h]

end Scan

open ActionParams

/-- A scan finds nothing if the list has no repeats, and otherwise the item at the least
position whose item stands at an earlier one too. So does the search for a key that two slots
share. A stored record is refused for the first repeat in its fields if there is one, else for
the first repeat in its services, and is loaded if there is none in either list. -/
theorem repeat_scans_exact :
    (∀ xs : List String, (firstRepeat? xs = none ↔ xs.Nodup) ∧
      ∀ x, firstRepeat? xs = some x ↔ IsFirstRepeat xs x) ∧
    (∀ m : FieldServiceMatrix, (m.duplicateKey? = none ↔ m.keys.Nodup) ∧
      ∀ key, m.duplicateKey? = some key ↔ IsFirstRepeat m.keys key) ∧
    ∀ (action : String) (members : OrderedMap Json) (p : ActionParams),
      members.keys.Nodup → p.StatedIn members →
      (∀ name, IsFirstRepeat p.values name →
        ActionParams.ofJson action (.object members) = .error (.malformedParameters action
          ("'values' lists '" ++ name ++ "' more than once"))) ∧
      (∀ name, p.values.Nodup → IsFirstRepeat p.services name →
        ActionParams.ofJson action (.object members) = .error (.malformedParameters action
          ("'services' lists '" ++ name ++ "' more than once"))) ∧
      (p.values.Nodup → p.services.Nodup →
        ActionParams.ofJson action (.object members) = .ok p) := by
  refine ⟨fun xs => ⟨firstRepeat?_eq_none_iff, fun x => firstRepeat?_eq_some_iff⟩,
    fun m => ⟨FieldServiceMatrix.duplicateKey?_eq_none_iff,
      fun key => firstRepeat?_eq_some_iff⟩, ?_⟩
  intro action members p distinct stated
  have hread : record.decode (.object members) = .ok p := (decode_eq_ok_iff distinct).mpr stated
  refine ⟨fun name hname => ?_, fun name values hname => ?_, fun values services => ?_⟩
  · exact ofJson_of_values_repeat hread (firstRepeat?_eq_some_iff.mpr hname)
  · exact ofJson_of_services_repeat hread values (firstRepeat?_eq_some_iff.mpr hname)
  · exact ofJson_eq_ok_iff.mpr ⟨⟨members, rfl, hread⟩, values, services⟩

/-- Both lists of the first record have repeats: `a` is the first field that is listed twice,
but `b` is repeated first. The second record is refused for a service, since no field comes up
twice in it, and the third one is read. -/
theorem repeat_scans_exact_both_lists :
    let both : OrderedMap Json := ⟨[("services", .ofStrings ["x", "x"]),
      ("values", .ofStrings ["a", "b", "b", "a"])]⟩
    let second : OrderedMap Json := ⟨[("values", .ofStrings ["a", "b"]),
      ("services", .ofStrings ["x", "y", "x", "y"])]⟩
    let kept : OrderedMap Json := ⟨[("values", .ofStrings ["a", "b"])]⟩
    IsFirstRepeat ["a", "b", "b", "a"] "b" ∧ IsFirstRepeat ["x", "y", "x", "y"] "x" ∧
      both.keys.Nodup ∧ StatedIn ⟨["a", "b", "b", "a"], ["x", "x"]⟩ both ∧
      ActionParams.ofJson "transcript" (.object both) =
        .error (.malformedParameters "transcript" "'values' lists 'b' more than once") ∧
      second.keys.Nodup ∧ StatedIn ⟨["a", "b"], ["x", "y", "x", "y"]⟩ second ∧
      ActionParams.ofJson "transcript" (.object second) =
        .error (.malformedParameters "transcript" "'services' lists 'x' more than once") ∧
      kept.keys.Nodup ∧ StatedIn ⟨["a", "b"], []⟩ kept ∧
      ActionParams.ofJson "transcript" (.object kept) = .ok ⟨["a", "b"], []⟩ := by
  intro both second kept
  obtain ⟨scan, -, reported⟩ := repeat_scans_exact
  have hb : IsFirstRepeat ["a", "b", "b", "a"] "b" := ((scan _).2 "b").mp (by decide)
  have hx : IsFirstRepeat ["x", "y", "x", "y"] "x" := ((scan _).2 "x").mp (by decide)
  have hboth : both.keys.Nodup := by decide
  have hsecond : second.keys.Nodup := by decide
  have hkept : kept.keys.Nodup := by decide
  have inBoth : StatedIn ⟨["a", "b", "b", "a"], ["x", "x"]⟩ both := ⟨rfl, Or.inl rfl⟩
  have inSecond : StatedIn ⟨["a", "b"], ["x", "y", "x", "y"]⟩ second := ⟨rfl, Or.inl rfl⟩
  have inKept : StatedIn ⟨["a", "b"], []⟩ kept := ⟨rfl, Or.inr ⟨rfl, rfl⟩⟩
  have fields : ["a", "b"].Nodup := by decide
  obtain ⟨values, -, -⟩ := reported "transcript" both _ hboth inBoth
  obtain ⟨-, services, -⟩ := reported "transcript" second _ hsecond inSecond
  obtain ⟨-, -, accepted⟩ := reported "transcript" kept _ hkept inKept
  exact ⟨hb, hx, hboth, inBoth, values "b" hb, hsecond, inSecond, services "x" fields hx, hkept,
    inKept, accepted fields List.nodup_nil⟩

end SubmissionAnnotation
