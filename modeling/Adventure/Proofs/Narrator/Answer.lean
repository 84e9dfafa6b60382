import Adventure.Narrator.Generator
import Adventure.Proofs.Narrator.Call
/-!
# What comes back from the providers

With providers that answer texts, and fail with nothing that cannot be put into a message, a
narrator either reads a text or is silent (`narrator_answer`). No failure of a provider comes
through to whoever asked the narrator.
-/

namespace Adventure

/-- An answer with a text, or a failure that has one. -/
def Intelligible : Except Failure Reply → Prop
  | .ok reply => ∃ text, reply.text = .string text
  | .error f => f.text?.isSome

theorem Intelligible.hasText {o : Except Failure Reply} (h : Intelligible o) : HasText o := by
  cases o with
  | ok reply => trivial
  | error f => exact h

namespace Provider

/-- A provider with texts: whatever the settings, the connection and the query are. -/
structure Articulate (p : Provider) : Prop where
  newKey : ∀ s f, p.newKey s = .error f → f.text?.isSome
  answer : ∀ s c n q, Intelligible (p.answer s c n q)

variable {p : Provider} {s : Settings} {q : Query}

theorem Articulate.intelligible (h : p.Articulate) (s : Settings) (q : Query) :
    Intelligible (p.ask s q).1 := by
  rcases ask_cases p s q with ⟨f, hkey, hask⟩ | ⟨c, -, hask⟩
  · rw [hask]
    exact h.newKey s f hkey
  · rw [hask]
    exact h.answer s _ _ q

/-- Being asked does not take a provider its texts. -/
theorem Articulate.ask (h : p.Articulate) (s : Settings) (q : Query) :
    (p.ask s q).2.Articulate := by
  rcases ask_cases p s q with ⟨f, -, hask⟩ | ⟨c, -, hask⟩ <;> rw [hask] <;>
    exact ⟨h.newKey, h.answer⟩

theorem Articulate.outcomes (h : p.Articulate) (s : Settings) (q : Query) (n : Nat) :
    ∀ o ∈ p.outcomes s q n, Intelligible o := by
  induction n generalizing p with
  | zero => simp [Provider.outcomes]
  | succ n ih => exact List.forall_mem_cons.2 ⟨h.intelligible s q, ih (h.ask s q)⟩

/-- A script of intelligible outcomes makes an articulate provider. -/
theorem articulate_scripted {name : String} {available : Bool}
    {outcomes : List (Except Failure Reply)} (h : ∀ o ∈ outcomes, Intelligible o) :
    (scripted name available outcomes).Articulate where
  newKey _ _ hk := by cases hk
  answer _ _ n _ := by
    have hall : ∀ o ∈ speechless :: outcomes, Intelligible o :=
      List.forall_mem_cons.2 ⟨rfl, h⟩
    change Intelligible ((outcomes[n]?).getD (outcomes.getLastD speechless))
    cases hn : outcomes[n]? with
    | none => exact hall _ List.getLastD_mem_cons
    | some o => exact h o (List.mem_of_getElem? hn)

end Provider

namespace Registry

variable {r : Registry} {s : Settings} {p f : Provider}

/-- A call among articulate providers gives a text or silence. -/
theorem call_of_articulate (hp : r.primary s = .ok p) (hf : r.fallback s = .ok f)
    (hpa : p.Articulate) (hfa : f.Articulate) (q : Query) :
    ∃ result r' events, r.call s q = (.ok result, r', events) ∧
      ∀ reply, result.outcome = .ok reply → ∃ text, reply.text = .string text := by
  have houts := hpa.outcomes s q s.mostAttempts
  obtain ⟨last, hlast, hcall⟩ := call_eq hp hf fun o ho => (houts o ho).hasText
  cases last with
  | ok reply =>
    refine ⟨_, _, _, hcall, ?_⟩
    intro reply' h
    cases h
    exact houts _ (List.mem_of_getElem? hlast)
  | error e =>
    dsimp only at hcall
    split at hcall
    · exact ⟨_, _, _, hcall, fun reply h => by cases h⟩
    · obtain ⟨result, events, hcalled, hout, -⟩ :=
        callFallback_spec s q _ (r.keep (p.after s q _)) (hfa.intelligible s q).hasText
      rw [hcalled] at hcall
      refine ⟨_, _, _, hcall, ?_⟩
      intro reply h
      have hask : (f.ask s q).1 = .ok reply := by
        rw [h] at hout
        cases ho : (f.ask s q).1 with
        | ok reply' =>
          rw [ho] at hout
          cases hout
          rfl
        | error e =>
          rw [ho] at hout
          cases hout
      have htext := hfa.intelligible s q
      rwa [hask] at htext

/-- No provider answers a request. -/
def FallsSilent (r : Registry) (s : Settings) (q : NarrativeRequest) (silence : Silence) : Prop :=
  ∃ result r' events, r.call s (q.query s) = (.ok result, r', events) ∧
    result.outcome = .error silence

/-- **A narrator reads a text or is silent.** -/
theorem narrator_answer (hp : r.primary s = .ok p) (hf : r.fallback s = .ok f)
    (hpa : p.Articulate) (hfa : f.Articulate) (q : NarrativeRequest) :
    (∃ text, (r.narrator s q).answer = .ok (Response.ofText text).1.toNarration) ∨
      ∃ silence, (r.narrator s q).answer = .error (.fault (.silence silence)) ∧
        r.FallsSilent s q silence := by
  obtain ⟨result, r', events, hcall, htext⟩ := call_of_articulate hp hf hpa hfa (q.query s)
  unfold narrator narrate
  rw [hcall]
  cases ho : result.outcome with
  | error silence =>
    exact .inr ⟨silence, by simp [ho, Except.map], _, _, _, hcall, ho⟩
  | ok reply =>
    obtain ⟨text, ht⟩ := htext reply ho
    exact .inl ⟨text, by simp [ho, Except.map, ht, Value.text]⟩

end Registry

end Adventure
