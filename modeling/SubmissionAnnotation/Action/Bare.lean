import SubmissionAnnotation.Action

/-!
# The bare action

The smallest action: it loads parameters, tracks no slots and leaves every submission as it is.
-/
namespace SubmissionAnnotation

structure BareAction where
  destination : String
  params : ActionParams

namespace BareAction

def actionId : String := "bare"

instance : ActionKind BareAction where
  id _ := actionId
  destination := destination
  params := params
  loadParams a record :=
    match ActionParams.ofJson actionId record with
    | .ok params => (.ok (), { a with params })
    | .error e => (.error e, a)
  matrix _ := .empty
  runChange _ s := .ok s
  kindId := actionId
  unloaded config := ⟨config.destinationField, [], []⟩
  discover form _ := ⟨form.namesOfType ["text"], []⟩

end BareAction

end SubmissionAnnotation
