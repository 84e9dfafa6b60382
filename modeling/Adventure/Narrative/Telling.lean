import Adventure.Event
import Adventure.Narrative.Request
import Adventure.Narrative.Response
/-!
# Tellings

What comes of asking a narrator to tell an action.

`Narrator` is the interface `NarrativeGenerator`.
-/

namespace Adventure

/-- What a narrator does with a request: its answer, what it notes down, and the sessions that are
completed by others while it is at work. -/
structure Telling where
  answer : Except Failure Narration
  events : List Event
  completed : List String

abbrev Narrator := NarrativeRequest → Telling

end Adventure
