import SubmissionAnnotation.Json

/-!
# Values with the same data

Objects keep the order of their members, but the order is no data. Two values have the
same data if that order is all in which they differ, at whatever depth: arrays are compared
item by item, objects key by key, and all other values have to be equal.
-/
namespace SubmissionAnnotation.Json

/-- Equality of values up to the order of object members. -/
inductive SameData : Json → Json → Prop
  | refl (v : Json) : SameData v v
  | array {xs ys : List Json} (length : xs.length = ys.length)
    (items : ∀ (i : Nat) (x y : Json), xs[i]? = some x → ys[i]? = some y → SameData x y) :
    SameData (.array xs) (.array ys)
  | object {m n : OrderedMap Json} (keys : ∀ key, m.contains key = n.contains key)
    (values : ∀ key v w, m.get? key = some v → n.get? key = some w → SameData v w) :
    SameData (.object m) (.object n)

namespace SameData

variable {u v w : Json} {m n : OrderedMap Json}

theorem symm (h : SameData v w) : SameData w v := by
  induction h with
  | refl v => exact .refl v
  | array length _ ih => exact .array length.symm fun i x y hx hy => ih i y x hy hx
  | object keys _ ih =>
    exact .object (fun key => (keys key).symm) fun key v w hv hw => ih key w v hw hv

theorem trans (h : SameData u v) (h' : SameData v w) : SameData u w := by
  induction h generalizing w with
  | refl v => exact h'
  | @array xs ys length items ih =>
    cases h' with
    | refl => exact .array length items
    | @array _ zs length' items' =>
      refine .array (length.trans length') fun i x z hx hz => ?_
      obtain ⟨hi, -⟩ := List.getElem?_eq_some_iff.mp hx
      have hy := List.getElem?_eq_getElem (length ▸ hi)
      exact ih i x _ hx hy (items' i _ z hy hz)
  | @object m n keys values ih =>
    cases h' with
    | refl => exact .object keys values
    | @object _ o keys' values' =>
      refine .object (fun key => (keys key).trans (keys' key)) fun key u w hu hw => ?_
      have hn : n.contains key = true := by
        rw [← keys key, OrderedMap.contains, hu]
        rfl
      obtain ⟨v, hv⟩ := Option.isSome_iff_exists.mp hn
      exact ih key u v hu hv (values' key v w hv hw)

theorem equivalence : Equivalence SameData :=
  ⟨refl, symm, trans⟩

/-- Objects that hold the same under every key have the same data. -/
theorem of_get?_eq (h : ∀ key, m.get? key = n.get? key) : SameData (.object m) (.object n) := by
  constructor
  · intro key
    rw [OrderedMap.contains, OrderedMap.contains, h]
  · intro key v w hv hw
    rw [h, hw] at hv
    cases hv
    exact .refl v

/-- Writing values with the same data under one key of an object. -/
theorem insert (m : OrderedMap Json) (key : String) (h : SameData v w) :
    SameData (.object (m.insert key v)) (.object (m.insert key w)) := by
  constructor
  · intro other
    rw [OrderedMap.contains, OrderedMap.contains, OrderedMap.get?_insert, OrderedMap.get?_insert]
    split <;> rfl
  · intro other x y hx hy
    rw [OrderedMap.get?_insert] at hx hy
    split at hx
    next hk =>
      rw [if_pos hk] at hy
      cases hx
      cases hy
      exact h
    next hk =>
      rw [if_neg hk, hx] at hy
      cases hy
      exact .refl x

end SameData

end SubmissionAnnotation.Json
