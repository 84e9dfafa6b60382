import Adventure.Narrator.Registry
import Adventure.Text.Search
/-!
# Asking with retries and a fallback

The primary provider is asked until it answers, fails for good, or has failed often enough.  Then
the fallback is asked once, if it is another provider.

Main definitions: `Failure.persistence?`, `askPrimary` and `Registry.call`.

| definition | method of `LlmCallerService` |
| --- | --- |
| `call`, `askPrimary` | `call` and its loop |
| `callFallback` | `callFallback` |
| `Failure.persistence?` | `classifyError` |
| `CallResult` | `LlmCallResult` |
-/

namespace Adventure

/-- The statuses that are not tried again: the key is unknown, or not allowed. -/
def permanentStatuses : List Number := [401, 403]

/-- The words of failures that are not tried again: an unknown model, or refused content. -/
def permanentWords : List String :=
  ["invalid_model", "model_not_found", "content_policy", "content_filter"]

def Failure.persistenceOf (f : Failure) (text : String) : Persistence :=
  let byStatus := match f.status with
    | .number x => permanentStatuses.contains x
    | _ => false
  if byStatus || permanentWords.any (Text.mentions text) then .permanent else .retryable

/-- Whether a failed query is worth another attempt; what has no text cannot be judged. -/
def Failure.persistence? (f : Failure) : Option Persistence := f.text?.map f.persistenceOf

structure Attempts where
  /-- The answer, if there was one.  A failure that cannot be noted down ends the whole call. -/
  reply : Except Failure (Option Reply)
  made : Nat
  provider : Provider
  events : List Event

/-- Asks a provider at most `n` more times, after `made` attempts. -/
def askPrimary (s : Settings) (q : Query) : Nat → Nat → Provider → Attempts
  | 0, made, p => ⟨.ok none, made, p, []⟩
  | n + 1, made, p =>
    match p.ask s q with
    | (.ok reply, p) => ⟨.ok (some reply), made + 1, p, []⟩
    | (.error f, p) =>
      match f.text? with
      | none => ⟨.error .textless, made + 1, p, []⟩
      | some text =>
        let event := Event.attemptFailed p.name (made + 1) (f.persistenceOf text) text
        match f.persistenceOf text with
        | .permanent => ⟨.ok none, made + 1, p, [event]⟩
        | .retryable =>
          let rest := askPrimary s q n (made + 1) p
          { rest with events := event :: rest.events }

def Settings.mostAttempts (s : Settings) : Nat := max 1 s.maxRetries

/-- A query with its answer, or with silence, after all attempts. -/
structure CallResult where
  outcome : Except Silence Reply
  providerUsed : String
  attempts : Nat

namespace Registry

def callFallback (r : Registry) (s : Settings) (q : Query) (made : Nat) (p : Provider) :
    Except Failure CallResult × Registry × List Event :=
  match p.ask s q with
  | (.ok reply, p) =>
    (.ok ⟨.ok reply, p.name, made + 1⟩, r.keep p, [.fallbackAnswered p.name])
  | (.error f, p) =>
    match f.text? with
    | none => (.error .textless, r.keep p, [])
    | some text =>
      (.ok ⟨.error ⟨p.name, made + 1, false⟩, p.name, made + 1⟩, r.keep p,
        [.fallbackFailed p.name text])

def call (r : Registry) (s : Settings) (q : Query) :
    Except Failure CallResult × Registry × List Event :=
  match r.primary s with
  | .error f => (.error (.fault f), r, [])
  | .ok primary =>
    let tried := askPrimary s q s.mostAttempts 0 primary
    let r := r.keep tried.provider
    match tried.reply with
    | .error f => (.error f, r, tried.events)
    | .ok (some reply) => (.ok ⟨.ok reply, primary.name, tried.made⟩, r, tried.events)
    | .ok none =>
      match r.fallback s with
      | .error f => (.error (.fault f), r, tried.events)
      | .ok fallback =>
        if fallback.name = primary.name then
          (.ok ⟨.error ⟨primary.name, tried.made, true⟩, primary.name, tried.made⟩, r,
            tried.events)
        else
          let (result, r, events) := r.callFallback s q tried.made fallback
          (result, r, tried.events ++ events)

end Registry

end Adventure
