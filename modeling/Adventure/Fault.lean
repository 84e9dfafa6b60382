import Adventure.Shape
/-!
# Faults

Everything that can go wrong in a turn, by cause.  A fault has a kind, a message and sometimes
details; all wording is in this module.  A collaborator may also fail with something that is no
fault of the game: an error of its own, or any value at all.

Main definitions: `Fault`, its `kind`, `message` and `details`; `Failure`; and `Outcome`, the result
of an activity that may also never end.

`FaultKind` has one case for each subclass of `GameError`; `Fault` has one for each cause for which one
of them is thrown, by `invariant` or elsewhere, and `reported` for those that collaborators throw.
-/

namespace Adventure

/-- The kinds of fault that callers tell apart. -/
inductive FaultKind where
  | notFound
  | invalidInput
  | contractViolation
  | narrativeUnavailable
  | internal
deriving DecidableEq

namespace FaultKind

def name : FaultKind → String
  | notFound => "NotFoundError"
  | invalidInput => "InvalidInputError"
  | contractViolation => "ContractViolationError"
  | narrativeUnavailable => "NarrativeUnavailableError"
  | internal => "InternalError"

def code : FaultKind → String
  | notFound => "NOT_FOUND"
  | invalidInput => "INVALID_INPUT"
  | contractViolation => "CONTRACT_VIOLATION"
  | narrativeUnavailable => "NARRATIVE_UNAVAILABLE"
  | internal => "INTERNAL_ERROR"

def all : List FaultKind := [notFound, invalidInput, contractViolation, narrativeUnavailable, internal]

def ofName? (s : String) : Option FaultKind := all.find? fun k => k.name == s

/-- The message of a fault that is stated without one. -/
def defaultMessage : FaultKind → String
  | notFound => "Not found"
  | invalidInput => "Invalid input"
  | contractViolation => ""
  | narrativeUnavailable => "Narrative generator unavailable"
  | internal => "Internal error"

end FaultKind

inductive Seat where
  | primary
  | fallback
deriving DecidableEq

def Seat.name : Seat → String
  | primary => "Primary"
  | fallback => "Fallback"

/-- No provider answered: who was asked last, how often any was asked, and whether there was nobody
else to ask. -/
structure Silence where
  provider : String
  attempts : Nat
  alone : Bool
deriving DecidableEq

def Silence.message (s : Silence) : String :=
  if s.alone then
    s!"Primary \"{s.provider}\" failed after {s.attempts} attempts, no distinct fallback"
  else s!"All providers failed after {s.attempts} attempts"

inductive Fault where
  | sessionNotFound
  | sessionClosed (status : Value)
  | characterNotFound (id : String)
  | commitRefused (session : String)
  | malformedAction (issues : List Shape.Issue)
  | malformedSettings (issues : List Shape.Issue)
  | unknownDefaultTier (name : String)
  | invalidLevel (level : Value)
  | unknownTier (tier : Value)
  | unknownCategory (category : Value)
  | rollOutOfRange (roll : Value)
  | invalidModifier (modifier : Value)
  | invalidTarget (target : Value)
  | damageRequired (roll : Number) (damage : Value)
  | unexpectedDamage (roll : Number) (damage : Value)
  | invalidRange (low high : Value)
  | scriptExhausted (consumed : Nat)
  | scriptOutside (value low high : Value)
  | malformedChanges (issues : List Shape.Issue)
  | fumbleWithoutDamage
  | invalidSelfDamage (amount : Value)
  | unregistered (seat : Seat) (provider : Value) (registered : List String)
  | silence (s : Silence)
  | reported (kind : FaultKind) (message : String) (details : Option Value)
deriving DecidableEq

namespace Fault

def kind : Fault → FaultKind
  | sessionNotFound => .notFound
  | characterNotFound _ => .notFound
  | sessionClosed _ => .invalidInput
  | commitRefused _ => .invalidInput
  | malformedAction _ => .invalidInput
  | malformedSettings _ => .invalidInput
  | unknownDefaultTier _ => .invalidInput
  | silence _ => .narrativeUnavailable
  | unregistered _ _ _ => .internal
  | reported k _ _ => k
  | _ => .contractViolation

/-- The message of a fault.  It shows values by `Value.text`; where one of them has no text
(`Value.hasText`), writing the message fails as `Failure.textless` does, in place of the fault.  That
is not modelled: the fault still names the cause, and it is found at the same point, with the same
dice drawn. -/
def message : Fault → String
  | sessionNotFound => "Session not found"
  | sessionClosed _ => "Session is not active"
  | characterNotFound _ => "Character not found"
  | commitRefused _ => "Session is not active"
  | malformedAction _ => "Validation failed"
  | malformedSettings _ => "Invalid LLM config"
  | unknownDefaultTier name => s!"Invalid DEFAULT_DIFFICULTY \"{name}\""
  | invalidLevel level => s!"Invalid level {level.text}"
  | unknownTier tier => s!"Unknown difficulty tier \"{tier.text}\""
  | unknownCategory category => s!"Unknown check category \"{category.text}\""
  | rollOutOfRange roll => s!"Roll out of range: {roll.text}"
  | invalidModifier modifier => s!"Invalid modifier {modifier.text}"
  | invalidTarget target => s!"Invalid target {target.text}"
  | damageRequired roll _ => s!"Damage required for roll {roll.text}"
  | unexpectedDamage roll _ => s!"Unexpected damage for roll {roll.text}"
  | invalidRange low high => s!"Invalid range {low.text}~{high.text}"
  | scriptExhausted _ => "SequenceRng exhausted"
  | scriptOutside value low high => s!"SequenceRng value {value.text} outside {low.text}~{high.text}"
  | malformedChanges _ => "Malformed state changes"
  | fumbleWithoutDamage => "Fumble resolution without self-damage"
  | invalidSelfDamage amount => s!"Invalid self-damage {amount.text}"
  | unregistered seat provider _ =>
    s!"{seat.name} LLM provider \"{provider.text}\" not registered"
  | silence s => s.message
  | reported _ message _ => message

/-- A fault that is stated by its message and its details, in this order.  What is not given at the
end has its default, so a single part is the message. -/
def stated (kind : FaultKind) : List Value → Fault
  | [] => reported kind kind.defaultMessage none
  | [message] => reported kind message.text none
  | message :: details :: _ => reported kind message.text (some details)

def issueDetails (issues : List Shape.Issue) : Value :=
  .object [("issues", .texts (issues.map Shape.Issue.text))]

def details : Fault → Option Value
  | sessionClosed status => some (.object [("status", status)])
  | characterNotFound id => some (.object [("characterId", .string id)])
  | commitRefused session => some (.object [("sessionId", .string session)])
  | malformedAction issues => some (issueDetails issues)
  | malformedSettings issues => some (issueDetails issues)
  | malformedChanges issues => some (issueDetails issues)
  | invalidLevel level => some (.object [("level", level)])
  | damageRequired _ damage => some (.object [("damage", damage)])
  | unexpectedDamage _ damage => some (.object [("damage", damage)])
  | scriptExhausted consumed => some (.object [("consumed", .ofNat consumed)])
  | unregistered _ _ registered => some (.object [("registered", .texts registered)])
  | silence s =>
    some (.object [("providerUsed", .string s.provider), ("attempts", .ofNat s.attempts)])
  | reported _ _ details => details
  | _ => none

end Fault

/-! ## Failures of collaborators -/

inductive Failure where
  | fault (f : Fault)
  | error (name message : String) (status : Value)
  | value (v : Value)
deriving DecidableEq

namespace Failure

/-- The text of a named error: a part that is empty is left out. -/
def errorText (name message : String) : String :=
  if message = "" then name
  else if name = "" then message
  else s!"{name}: {message}"

/-- The text of a failure inside a message, if it has one. -/
def text? : Failure → Option String
  | fault f => some (errorText f.kind.name f.message)
  | error name message _ => some (errorText name message)
  | value v => if v.hasText then some v.text else none

/-- How it ends to put into a message what has no text. -/
def textless : Failure := .error "TypeError" "Cannot convert object to primitive value" .missing

def status : Failure → Value
  | fault _ => .missing
  | error _ _ status => status
  | value v => v.field "status"

end Failure

/-! ## Outcomes -/

/-- The result of an activity that may succeed, fail, or go on for ever. -/
inductive Outcome (α : Type) where
  | done (a : α)
  | failed (f : Failure)
  | endless
deriving DecidableEq

namespace Outcome

def ofExcept {α : Type} : Except Fault α → Outcome α
  | .ok a => done a
  | .error f => failed (.fault f)

def map {α β : Type} (f : α → β) : Outcome α → Outcome β
  | done a => done (f a)
  | failed e => failed e
  | endless => endless

end Outcome

end Adventure
