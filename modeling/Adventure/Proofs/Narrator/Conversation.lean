import Adventure.Narrator.Startup
import Adventure.Proofs.Narrator.Call
/-!
# One conversation for all vendors

Each vendor is called in its own form. What it reads off its arguments is a `Hearing`: who says what,
the orders of the system, and the limits of the answer. All three hear what the query says
(`Query.heard_by_all`), so a fallback takes up the conversation where the primary provider failed.

The forms differ in what they drop. One vendor is sent the turns of the user and the assistant, another
one the turns of everybody but the system, and the third one everything. Among the speakers that a
conversation can have there is no difference.
-/

namespace Adventure

/-- A speaker that a conversation can have; any other one is a name that the game does not know. -/
def Speaker.IsKnown (x : Speaker) : Prop := x = .system ∨ x = .user ∨ x = .assistant

instance (x : Speaker) : Decidable x.IsKnown :=
  inferInstanceAs (Decidable (x = .system ∨ x = .user ∨ x = .assistant))

/-- Among known speakers, who is not the system is the user or the assistant. -/
theorem Speaker.IsKnown.ne_system_iff {x : Speaker} (h : x.IsKnown) :
    x ≠ .system ↔ x = .user ∨ x = .assistant := by
  rcases h with rfl | rfl | rfl <;> decide

/-- The system goes by its own name alone. -/
theorem Speaker.IsKnown.toValue_eq_system_iff {x : Speaker} (h : x.IsKnown) :
    x.toValue = .string "system" ↔ x = .system := by
  rcases h with rfl | rfl | rfl <;> decide

/-! ## Hearings -/

/-- What a vendor reads off its arguments. -/
structure Hearing where
  model : Value
  maxTokens : Value
  temperature : Value
  timeoutMs : Value
  /-- The orders of the system; missing where there are none. -/
  orders : Value
  /-- Who says what, in order. -/
  turns : List (Value × Value)

/-- Some contents as orders, in blocks. -/
def orders (contents : List Value) : Value :=
  let text := Text.joinBlocks (contents.map Value.itemText)
  if text = "" then .missing else .string text

/-- An argument of a call, counted from zero. -/
def argument (sent : List Value) (place : Nat) : Value := sent.getD place .missing

/-- Who says what in a message with a role and a content. -/
def Value.said (m : Value) : Value × Value := (m.field "role", m.field "content")

/-- Who says what in a message. -/
def Message.said (m : Message) : Value × Value := (m.speaker.toValue, m.content)

namespace OpenAi

/-- The orders stand among the messages. -/
def hearing (sent : List Value) : Hearing :=
  let body := argument sent 0
  let messages := (body.field "messages").spread.map Value.said
  { model := body.field "model"
    maxTokens := body.field "max_tokens"
    temperature := body.field "temperature"
    timeoutMs := (argument sent 1).field "timeout"
    orders := orders ((messages.filter fun m => m.1 = .string "system").map Prod.snd)
    turns := messages.filter fun m => m.1 ≠ .string "system" }

end OpenAi

namespace Claude

/-- The orders stand apart. A turn that was only begun is no part of the conversation. -/
def hearing (isBegun : Bool) (sent : List Value) : Hearing :=
  let body := argument sent 0
  let messages := (body.field "messages").spread.map Value.said
  { model := body.field "model"
    maxTokens := body.field "max_tokens"
    temperature := body.field "temperature"
    timeoutMs := (argument sent 1).field "timeout"
    orders := body.field "system"
    turns := if isBegun then messages.dropLast else messages }

end Claude

namespace Gemini

/-- Who speaks in a role: the assistant is called the model, and there is nobody else but the user. -/
def speaker (role : Value) : Value :=
  if role = .string "model" then .string "assistant"
  else if role = .string "user" then role
  else .missing

/-- Who says what in a turn, whose content is its only part. -/
def said (turn : Value) : Value × Value :=
  (speaker (turn.field "role"), ((turn.field "parts").item 0).field "text")

/-- The orders and the limits stand in the configuration. -/
def hearing (sent : List Value) : Hearing :=
  let body := argument sent 0
  let config := body.field "config"
  { model := body.field "model"
    maxTokens := config.field "maxOutputTokens"
    temperature := config.field "temperature"
    timeoutMs := (config.field "httpOptions").field "timeout"
    orders := config.field "systemInstruction"
    turns := (body.field "contents").spread.map said }

end Gemini

/-! ## What a query says -/

namespace Query

variable {q : Query}

/-- The messages of the user and the assistant, in order. -/
def turns (q : Query) : List Message :=
  q.messages.filter fun m => m.speaker = .user ∨ m.speaker = .assistant

/-- The contents of the messages of the system, in order. -/
def systemContents (q : Query) : List Value :=
  (q.messages.filter fun m => m.speaker = .system).map Message.content

/-- What there is to hear in a query, by a vendor with a configured model. -/
def hearing (q : Query) (configured : Value) (timeoutMs : Nat) : Hearing :=
  { model := q.model.orElse configured
    maxTokens := q.maxTokens
    temperature := q.temperature
    timeoutMs := .ofNat timeoutMs
    orders := orders q.systemContents
    turns := q.turns.map Message.said }

/-- Orders are missing just where the contents of the system, joined, are empty. -/
theorem orders_systemContents (q : Query) :
    orders q.systemContents =
      if Claude.system q.messages = "" then .missing else .string (Claude.system q.messages) := by
  rw [orders, systemContents, List.map_map]
  rfl

theorem turns_eq_of_known (hq : ∀ m ∈ q.messages, m.speaker.IsKnown) :
    (q.messages.filter fun m => m.speaker ≠ .system) = q.turns :=
  List.filter_congr fun m hm => by simp only [(hq m hm).ne_system_iff]

/-! ## What each vendor hears -/

/-- Messages are told apart by their roles as by their speakers. -/
theorem filter_said {messages : List Message} {f : Value → Bool} {g : Message → Bool}
    (h : ∀ m ∈ messages, f m.speaker.toValue = g m) :
    (messages.map Message.said).filter (fun said => f said.1) =
      (messages.filter g).map Message.said := by
  rw [List.filter_map]
  exact congrArg _ (List.filter_congr h)

theorem openAi_hearing (s : Settings) (hq : ∀ m ∈ q.messages, m.speaker.IsKnown) :
    OpenAi.hearing (OpenAi.call s q).arguments = q.hearing s.openAi.model s.timeoutMs := by
  have hsystem : (q.messages.map Message.said).filter (fun said => said.1 = .string "system") =
      (q.messages.filter fun m => m.speaker = .system).map Message.said :=
    filter_said (f := (· = .string "system"))
      fun m hm => decide_eq_decide.2 (hq m hm).toValue_eq_system_iff
  have hturns : (q.messages.map Message.said).filter (fun said => said.1 ≠ .string "system") =
      q.turns.map Message.said := by
    rw [← turns_eq_of_known hq]
    exact filter_said (f := (· ≠ .string "system"))
      fun m hm => decide_eq_decide.2 (not_congr (hq m hm).toValue_eq_system_iff)
  have hheard : OpenAi.hearing (OpenAi.call s q).arguments =
      { q.hearing s.openAi.model s.timeoutMs with
        orders := orders (((q.messages.map Message.said).filter
          fun said => said.1 = .string "system").map Prod.snd)
        turns := (q.messages.map Message.said).filter fun said => said.1 ≠ .string "system" } := by
    have hmessages : (q.messages.map OpenAi.message).map Value.said =
        q.messages.map Message.said := List.map_map
    cases hj : q.jsonMode <;>
      simp [OpenAi.hearing, OpenAi.Call.arguments, OpenAi.call, argument, Value.field, Fields.get,
        hj, Value.spread, hmessages, hearing, Query.modelOr]
  rw [hheard, hsystem, hturns, List.map_map]
  rfl

theorem claude_hearing (s : Settings) (q : Query) :
    Claude.hearing q.jsonMode (Claude.call s q).arguments =
      q.hearing s.claude.model s.timeoutMs := by
  have hturns : (Claude.conversation q.messages).map (Value.said ∘ Claude.message) =
      q.turns.map Message.said := rfl
  cases hj : q.jsonMode <;> by_cases hs : Claude.system q.messages = "" <;>
    simp [Claude.hearing, Claude.Call.arguments, Claude.call, argument, Value.field, Fields.get,
      hj, hs, Value.spread, hearing, Query.modelOr, orders_systemContents, hturns]

theorem gemini_hearing (s : Settings) (hq : ∀ m ∈ q.messages, m.speaker.IsKnown) :
    Gemini.hearing (Gemini.call s q).arguments = q.hearing s.gemini.model s.timeoutMs := by
  have hturns : (Gemini.contents q.messages).map (Gemini.said ∘ Gemini.Content.toValue) =
      q.turns.map Message.said := by
    rw [Gemini.contents, turns_eq_of_known hq, List.map_map]
    refine List.map_congr_left fun m hm => ?_
    obtain ⟨-, hm⟩ := List.mem_filter.1 hm
    obtain h | h : m.speaker = .user ∨ m.speaker = .assistant := by simpa using hm
    all_goals simp [Gemini.said, Gemini.speaker, Gemini.Content.toValue, Value.field, Value.item,
      Fields.get, Message.said, h, Speaker.toValue]
  have hsystem : Gemini.instruction q.messages = Claude.system q.messages := rfl
  cases hj : q.jsonMode <;> by_cases hs : Claude.system q.messages = "" <;>
    simp [Gemini.hearing, Gemini.Call.arguments, Gemini.call, argument, Value.field, Fields.get,
      hj, hs, Value.spread, hearing, Query.modelOr, orders_systemContents, hturns, hsystem]

/-- **All vendors hear one conversation**: what the query says. Each is called once for an answer, with
its own call. One is sent the messages as they are, one the turns and perhaps a turn that it is to go on
with, and one the turns, in which the assistant goes by another name. -/
theorem heard_by_all (s : Settings) (hq : ∀ m ∈ q.messages, m.speaker.IsKnown) :
    (∀ (w : Wires) (c : Connection) (n : Nat),
      (OpenAi.provider w.openAi).answer s c n q =
        (w.openAi c n (OpenAi.call s q)).map OpenAi.reply ∧
      (Claude.provider w.claude).answer s c n q =
        (w.claude c n (Claude.call s q)).map (Claude.reply q) ∧
      (Gemini.provider w.gemini).answer s c n q =
        (w.gemini c n (Gemini.call s q)).map (Gemini.reply (Gemini.call s q))) ∧
    (OpenAi.call s q).messages = q.messages ∧
    (Claude.call s q).messages =
      q.turns ++ (if q.jsonMode then [⟨.assistant, .string "\x7b"⟩] else []) ∧
    (Gemini.call s q).contents = q.turns.map (fun m => ⟨m.speaker = .assistant, m.content⟩) ∧
    OpenAi.hearing (OpenAi.call s q).arguments = q.hearing s.openAi.model s.timeoutMs ∧
    Claude.hearing q.jsonMode (Claude.call s q).arguments =
      q.hearing s.claude.model s.timeoutMs ∧
    Gemini.hearing (Gemini.call s q).arguments = q.hearing s.gemini.model s.timeoutMs := by
  refine ⟨fun w c n => ⟨rfl, rfl, rfl⟩, rfl, ?_, ?_, openAi_hearing s hq, claude_hearing s q,
    gemini_hearing s hq⟩
  · cases hj : q.jsonMode <;> simp [Claude.call, hj, Claude.opening, Claude.conversation, turns]
  · rw [← turns_eq_of_known hq]
    rfl

/-- The assistant speaks first, the orders come late and one of them is empty. -/
theorem heard_by_all_out_of_order :
    let q : Query :=
      { messages :=
          [⟨.assistant, .string "Once"⟩, ⟨.system, .string ""⟩, ⟨.user, .string "Go"⟩,
            ⟨.assistant, .string "North?"⟩, ⟨.system, .string "Be brief."⟩]
        maxTokens := .ofNat 512
        temperature := .number 1
        jsonMode := true
        model := .string "tale" }
    let s := Registry.Duo.settings
    let heard := Claude.hearing true (Claude.call s q).arguments
    (∀ m ∈ q.messages, m.speaker.IsKnown) ∧
    OpenAi.hearing (OpenAi.call s q).arguments = heard ∧
    Gemini.hearing (Gemini.call s q).arguments = heard ∧
    heard.model = .string "tale" ∧ heard.orders = .string "\n\nBe brief." ∧
    heard.turns.map Prod.snd = [.string "Once", .string "Go", .string "North?"] := by
  intro q s heard
  have hq : ∀ m ∈ q.messages, m.speaker.IsKnown := by decide
  obtain ⟨-, -, -, -, hopenAi, hclaude, hgemini⟩ := heard_by_all s hq
  have hheard : heard = q.hearing .missing s.timeoutMs := hclaude
  refine ⟨hq, hopenAi.trans hheard.symm, hgemini.trans hheard.symm, ?_, ?_, ?_⟩
  all_goals rw [hheard]
  · rfl
  · decide +kernel
  · rfl

end Query

end Adventure
