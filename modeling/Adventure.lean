import Adventure.Turn.Run
import Adventure.Dice.Either
import Adventure.Narrator.Connection
import Adventure.Narrator.Generator
import Adventure.Narrator.Keeper
import Adventure.Narrator.Startup
import Adventure.Proofs.Number.Order
import Adventure.Proofs.Number.Rounding
import Adventure.Proofs.Number.Exact
import Adventure.Proofs.Number.Spacing
import Adventure.Proofs.Number.Monotone
import Adventure.Proofs.Number.Decimal
import Adventure.Proofs.Number.Grammar
import Adventure.Proofs.Number.Numeral
import Adventure.Proofs.Text.Blank
import Adventure.Proofs.Text.Search
import Adventure.Proofs.Text.Units
import Adventure.Proofs.Json.Fields
import Adventure.Proofs.Json.Scan
import Adventure.Proofs.Json.RoundTrip
import Adventure.Proofs.Json.Local
import Adventure.Proofs.Json.Rounded
import Adventure.Proofs.Dice.Fair
import Adventure.Proofs.Dice.Seeded
import Adventure.Proofs.Dice.Period
import Adventure.Proofs.Dice.Seed
import Adventure.Proofs.Check.Progression
import Adventure.Proofs.Check.Resolution
import Adventure.Proofs.Check.Perform
import Adventure.Proofs.Check.Replay
import Adventure.Proofs.Check.Rule
import Adventure.Proofs.Check.Luck
import Adventure.Proofs.Check.Refusal
import Adventure.Proofs.Check.Creation
import Adventure.Proofs.Story.Character
import Adventure.Proofs.Story.Reconcile
import Adventure.Proofs.Story.Proposal
import Adventure.Proofs.Story.Experience
import Adventure.Proofs.Story.Gain
import Adventure.Proofs.Story.Decision
import Adventure.Proofs.Story.Climb
import Adventure.Proofs.Story.HitPoints
import Adventure.Proofs.Story.Chronicle
import Adventure.Proofs.Story.Possession
import Adventure.Proofs.Narrative.Noise
import Adventure.Proofs.Narrative.Encoding
import Adventure.Proofs.Narrative.Normal
import Adventure.Proofs.Narrator.Registry
import Adventure.Proofs.Narrator.Call
import Adventure.Proofs.Narrator.Answer
import Adventure.Proofs.Narrator.Keeper
import Adventure.Proofs.Narrator.Limits
import Adventure.Proofs.Narrator.Mock
import Adventure.Proofs.Narrator.Conversation
import Adventure.Proofs.Narrator.Prefill
import Adventure.Proofs.Narrator.Secrecy
import Adventure.Proofs.Store.Commit
import Adventure.Proofs.Store.Sequence
import Adventure.Proofs.Store.Completion
import Adventure.Proofs.Store.Alive
import Adventure.Proofs.Turn.Input
import Adventure.Proofs.Turn.Step
import Adventure.Proofs.Turn.Course
import Adventure.Proofs.Turn.Atomic
import Adventure.Proofs.Turn.FailedCheck
import Adventure.Proofs.Turn.Agreement
import Adventure.Proofs.Turn.Interleaving
import Adventure.Proofs.Turn.Overlap
import Adventure.Proofs.Turn.Unbroken
import Adventure.Proofs.Turn.Unused
import Adventure.Proofs.Turn.Unread
import Adventure.Proofs.Turn.Fumble
import Adventure.Proofs.Turn.Wording
import Adventure.Proofs.Turn.Place
