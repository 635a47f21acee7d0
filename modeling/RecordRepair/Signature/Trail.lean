import RecordRepair.Signature.Place
import RecordRepair.Signature.Walk

/-! # Walks and the places they pass

* `Trail` pairs each event with the place after it, as far as neither the walk nor the places
  refuse anything.
* `validate` accepts a signature that is read to its end and closes what it opens. -/

namespace RecordRepair.Signature

/-- Events with the place after each of them. -/
structure Trail where
  steps : List (Event × Place)
  /-- The place after the last event that was looked at. -/
  last : Place
  error : Option FormatError

namespace Trail

/-- Follows events from a place on, up to one that closes more than was opened. -/
def follow (text : String) : Place → List Event → Trail
  | place, [] => ⟨[], place, none⟩
  | place, event :: events =>
    match place.apply text event with
    | .error error => ⟨[], place.advance event, some error⟩
    | .ok next =>
      let trail := follow text next events
      { trail with steps := (event, next) :: trail.steps }

/-- The trail of a signature's walk.  Its error is that of the place if there is one, and else
that of the walk. -/
def ofWalk (kind : Kind) (text : String) (walk : Walk) : Trail :=
  let trail := follow text (.start kind) walk.events
  { trail with error := trail.error <|> walk.error }

/-- Accepts a trail without an error that ends where nothing is open. -/
def finish (text : String) (trail : Trail) : Except FormatError Unit :=
  match trail.error with
  | some error => .error error
  | none => trail.last.finish text

end Trail

/-- The trail of a signature. -/
def trail (kind : Kind) (text : String) : Trail := .ofWalk kind text (walk kind text)

/-- Accepts a signature that follows its grammar and closes what it opens. -/
def validate (kind : Kind) (text : String) : Except FormatError Unit :=
  (trail kind text).finish text

end RecordRepair.Signature
