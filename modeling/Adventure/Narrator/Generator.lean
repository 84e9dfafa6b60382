import Adventure.Narrative.Parser
import Adventure.Narrative.Prompt
import Adventure.Narrative.Telling
import Adventure.Narrator.Caller
/-!
# Narrating an action

The request is put into messages, the providers are asked once, and the text of the answer is read.

`narrate` is `NarrativeGeneratorService.generate`.
-/

namespace Adventure

def NarrativeRequest.query (q : NarrativeRequest) (s : Settings) : Query :=
  ⟨q.messages, .ofNat s.maxTokens, .number s.temperature, true, .missing⟩

def Reply.event (r : Reply) (provider : String) : Event :=
  .narrated provider r.model r.promptTokens r.completionTokens r.latencyMs

namespace Registry

/-- Narrates an action; silence of all providers is a fault. -/
def narrate (r : Registry) (s : Settings) (q : NarrativeRequest) :
    Except Failure Response × Registry × List Event :=
  match r.call s (q.query s) with
  | (.error f, r, events) => (.error f, r, events)
  | (.ok result, r, events) =>
    match result.outcome with
    | .error silence => (.error (.fault (.silence silence)), r, events)
    | .ok reply =>
      let (response, remarks) := Response.ofText reply.text.text
      (.ok response, r, events ++ reply.event result.providerUsed :: remarks)

def narrator (r : Registry) (s : Settings) : Narrator := fun q =>
  let (response, _, events) := r.narrate s q
  ⟨response.map Response.toNarration, events, []⟩

end Registry

end Adventure
