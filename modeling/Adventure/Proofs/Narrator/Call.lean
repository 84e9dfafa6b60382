import Adventure.Narrator.Caller
import Adventure.Proofs.Narrator.Registry
/-!
# Retries and the fallback

What a provider does when it is asked the same thing again and again is a sequence of outcomes. A
call goes through the primary provider's sequence up to the first outcome that is final, or as far
as the settings allow, and then perhaps asks the fallback once. `askPrimary_eq` says so of the loop,
`call_protocol` of the whole call.

All of it rests on failures that have a text. One that has none can be neither judged nor noted
down: the call itself breaks off there, and nobody else is asked (`call_eq_textless`).
-/

namespace Adventure

/-! ## Outcomes -/

namespace Provider

/-- The provider after it has been asked `n` times. -/
def after (s : Settings) (q : Query) : Nat → Provider → Provider
  | 0, p => p
  | n + 1, p => after s q n (p.ask s q).2

/-- What comes of asking a provider `n` times. -/
def outcomes (s : Settings) (q : Query) : Nat → Provider → List (Except Failure Reply)
  | 0, _ => []
  | n + 1, p => (p.ask s q).1 :: outcomes s q n (p.ask s q).2

@[simp] theorem after_name (s : Settings) (q : Query) (n : Nat) (p : Provider) :
    (after s q n p).name = p.name := by
  induction n generalizing p with
  | zero => rfl
  | succ n ih => rw [after, ih, ask_name]

@[simp] theorem after_asked (s : Settings) (q : Query) (n : Nat) (p : Provider) :
    (after s q n p).asked = p.asked ++ List.replicate n q := by
  induction n generalizing p with
  | zero => simp [after]
  | succ n ih => rw [after, ih, ask_asked, List.append_assoc, List.replicate_succ]; rfl

@[simp] theorem length_outcomes (s : Settings) (q : Query) (n : Nat) (p : Provider) :
    (outcomes s q n p).length = n := by
  induction n generalizing p with
  | zero => rfl
  | succ n ih => rw [outcomes, List.length_cons, ih]

/-- Settings allow one attempt at least. -/
theorem outcomes_ne_nil (s : Settings) (q : Query) (p : Provider) :
    p.outcomes s q s.mostAttempts ≠ [] := by
  apply List.length_pos_iff.1
  rw [length_outcomes]
  exact Nat.le_max_left _ _

end Provider

/-- Whether a failure, if there is one, can be put into a message. -/
def HasText : Except Failure Reply → Prop
  | .ok _ => True
  | .error f => f.text?.isSome

instance : DecidablePred HasText
  | .ok _ => isTrue trivial
  | .error f => inferInstanceAs (Decidable (f.text?.isSome = true))

/-- Whether nothing is tried again after an outcome: an answer, or a failure that is not worth
another attempt. -/
def isFinal : Except Failure Reply → Bool
  | .ok _ => true
  | .error f => f.persistence? ≠ some .retryable

/-- How many attempts are made if these are the outcomes: up to the first final one, or all. -/
def attemptCount (outs : List (Except Failure Reply)) : Nat :=
  min outs.length (outs.findIdx isFinal + 1)

@[simp] theorem attemptCount_nil : attemptCount [] = 0 := rfl

theorem attemptCount_cons (o : Except Failure Reply) (rest : List (Except Failure Reply)) :
    attemptCount (o :: rest) = if isFinal o then 1 else attemptCount rest + 1 := by
  unfold attemptCount
  rw [List.findIdx_cons, List.length_cons]
  cases isFinal o
  · simp only [cond_false, Bool.false_eq_true, if_false]
    omega
  · simp only [cond_true, if_true]
    omega

theorem attemptCount_le (outs : List (Except Failure Reply)) : attemptCount outs ≤ outs.length :=
  Nat.min_le_left _ _

theorem attemptCount_pos {outs : List (Except Failure Reply)} (h : outs ≠ []) :
    0 < attemptCount outs := by
  have := List.length_pos_iff.2 h
  unfold attemptCount
  omega

/-- The last attempt is one of the outcomes. -/
theorem exists_last {outs : List (Except Failure Reply)} (h : outs ≠ []) :
    ∃ last, outs[attemptCount outs - 1]? = some last ∧
      (outs.take (attemptCount outs)).getLast? = some last := by
  have hpos := attemptCount_pos h
  have hle := attemptCount_le outs
  have hlt : attemptCount outs - 1 < outs.length := by omega
  refine ⟨outs[attemptCount outs - 1], List.getElem?_eq_getElem hlt, ?_⟩
  rw [List.getLast?_take, if_neg (by omega), List.getElem?_eq_getElem hlt, Option.some_or]

/-! ## The primary provider -/

/-- What is noted down about an attempt. -/
def warning? (name : String) (attempt : Nat) : Except Failure Reply → Option Event
  | .ok _ => none
  | .error f => f.text?.map fun text => .attemptFailed name attempt (f.persistenceOf text) text

/-- What is noted down about attempts, of which `made` were made before. -/
def warnings (name : String) : Nat → List (Except Failure Reply) → List Event
  | _, [] => []
  | made, o :: rest => (warning? name (made + 1) o).toList ++ warnings name (made + 1) rest

/-- Every failure that has a text is noted down with one warning. -/
theorem countP_warnings (name : String) (made : Nat) {outs : List (Except Failure Reply)}
    (h : ∀ o ∈ outs, HasText o) :
    (warnings name made outs).countP (fun e => e.severity = .warn) =
      outs.countP fun o => !o.isOk := by
  induction outs generalizing made with
  | nil => rfl
  | cons o rest ih =>
    rw [warnings, List.countP_append, ih _ fun o ho => h o (List.mem_cons_of_mem _ ho),
      List.countP_cons, Nat.add_comm]
    congr 1
    cases o with
    | ok reply => rfl
    | error f =>
      obtain ⟨text, ht⟩ := Option.isSome_iff_exists.1 (h _ List.mem_cons_self)
      simp [warning?, ht, Event.severity, Except.isOk, Except.toBool]

/-- What the last attempt leaves to the call: the answer or none, or a failure without a text. -/
def lastWord : Option (Except Failure Reply) → Except Failure (Option Reply)
  | none => .ok none
  | some (.ok reply) => .ok (some reply)
  | some (.error f) => if f.text?.isSome then .ok none else .error .textless

/-- A failure with a text says no more than no outcome at all. -/
theorem lastWord_getD {f : Failure} (h : f.text?.isSome) (o : Option (Except Failure Reply)) :
    lastWord (some (o.getD (.error f))) = lastWord o := by
  cases o with
  | none => simp [lastWord, h]
  | some o => rfl

/-- **The loop over the primary provider** goes through its outcomes up to the first final one. -/
theorem askPrimary_eq (s : Settings) (q : Query) (n made : Nat) (p : Provider) :
    askPrimary s q n made p =
      let outs := p.outcomes s q n
      let k := attemptCount outs
      ⟨lastWord (outs.take k).getLast?, made + k, p.after s q k,
        warnings p.name made (outs.take k)⟩ := by
  induction n generalizing made p with
  | zero => rfl
  | succ n ih =>
    obtain ⟨o, asked, ha⟩ : ∃ o asked, p.ask s q = (o, asked) := ⟨_, _, rfl⟩
    have hname : asked.name = p.name := by simpa [ha] using p.ask_name s q
    simp only [askPrimary, Provider.outcomes, ha, attemptCount_cons]
    cases o with
    | ok reply => simp [isFinal, lastWord, warnings, warning?, Provider.after, ha]
    | error f =>
      cases ht : f.text? with
      | none =>
        simp [isFinal, Failure.persistence?, ht, lastWord, warnings, warning?, Provider.after, ha]
      | some text =>
        cases hp : f.persistenceOf text with
        | permanent =>
          simp [isFinal, Failure.persistence?, ht, hp, lastWord, warnings, warning?, hname,
            Provider.after, ha]
        | retryable =>
          -- The rest is the same loop on what the provider has become.
          have hf : isFinal (.error f) = false := by simp [isFinal, Failure.persistence?, ht, hp]
          have hl := lastWord_getD (f := f) (by simp [ht])
          simp [hf, ih, hl, List.getLast?_cons, warnings, warning?, ht, hp, hname, Provider.after,
            ha, Nat.add_assoc, Nat.add_comm 1]

theorem lastWord_of_hasText {o : Except Failure Reply} (h : HasText o) :
    lastWord (some o) = .ok o.toOption := by
  cases o with
  | ok reply => rfl
  | error f => exact if_pos h

namespace Registry

/-! ## The whole call -/

variable {r : Registry} {s : Settings} {q : Query} {p f : Provider}

/-- What the provider with a name has been asked. -/
def queries (r : Registry) (name : String) : Option (List Query) :=
  (r.find? name).map Provider.asked

/-- Keeping what a provider has become adds to what it has been asked, and to nothing else. -/
theorem queries_keep_after (h : r.find? p.name = some p) (s : Settings) (q : Query) (n : Nat)
    (name : String) :
    (r.keep (p.after s q n)).queries name =
      (r.queries name).map fun asked =>
        asked ++ List.replicate (if name = p.name then n else 0) q := by
  have hname : (p.after s q n).name = p.name := Provider.after_name s q n p
  by_cases hn : name = p.name
  · subst hn
    have hself := find?_keep_self (p := p.after s q n) (hname ▸ h)
    rw [hname] at hself
    simp [queries, hself, h]
  · rw [queries, find?_keep_of_ne r (hname ▸ hn), if_neg hn, queries]
    simp only [List.replicate_zero, List.append_nil, Option.map_id']

/-- With the fallback kept as well, each of the two has its own queries added. -/
theorem queries_keep_both (hp : r.find? p.name = some p) (hf : r.find? f.name = some f)
    (hne : f.name ≠ p.name) (s : Settings) (q : Query) (n : Nat) (name : String) :
    ((r.keep (p.after s q n)).keep (f.ask s q).2).queries name =
      (r.queries name).map fun asked =>
        asked ++ List.replicate (if name = p.name then n else if name = f.name then 1 else 0) q := by
  have hkept : (r.keep (p.after s q n)).find? f.name = some f := by
    rw [find?_keep_of_ne r (by simpa using hne), hf]
  have hasked := queries_keep_after hkept s q 1 name
  rw [queries_keep_after hp s q n name, Option.map_map] at hasked
  refine hasked.trans (congrArg (Option.map · _) ?_)
  funext asked
  rw [Function.comp_apply, List.append_assoc, List.replicate_append_replicate]
  congr 2
  by_cases hn : name = p.name
  · have hf : name ≠ f.name := fun e => hne (e.symm.trans hn)
    rw [if_pos hn, if_neg hf, if_pos hn, Nat.add_zero]
  · rw [if_neg hn, if_neg hn, Nat.zero_add]

/-- **The fallback** is asked once, and what it says goes into the result. -/
theorem callFallback_spec (s : Settings) (q : Query) (made : Nat) (r : Registry)
    (h : HasText (f.ask s q).1) :
    ∃ result events, r.callFallback s q made f = (.ok result, r.keep (f.ask s q).2, events) ∧
      result.outcome.toOption = (f.ask s q).1.toOption ∧
      result.attempts = made + 1 ∧
      result.providerUsed = f.name ∧
      events.countP (fun e => e.severity = .warn) = 0 := by
  obtain ⟨o, asked, ha⟩ : ∃ o asked, f.ask s q = (o, asked) := ⟨_, _, rfl⟩
  have hname : asked.name = f.name := by simpa [ha] using f.ask_name s q
  rw [ha] at h
  cases o with
  | ok reply =>
    refine ⟨⟨.ok reply, asked.name, made + 1⟩, [.fallbackAnswered asked.name], ?_, ?_⟩
    · rw [callFallback, ha]
    · simp [ha, hname, Except.toOption, Event.severity]
  | error e =>
    obtain ⟨text, ht⟩ := Option.isSome_iff_exists.1 h
    refine ⟨⟨.error ⟨asked.name, made + 1, false⟩, asked.name, made + 1⟩,
      [.fallbackFailed asked.name text], ?_, ?_⟩
    · rw [callFallback, ha]
      simp only [ht]
    · simp [ha, hname, Except.toOption, Event.severity]

/-- What follows the last attempt at the primary provider. -/
theorem call_eq (hp : r.primary s = .ok p) (hf : r.fallback s = .ok f)
    (ht : ∀ o ∈ p.outcomes s q s.mostAttempts, HasText o) :
    let outs := p.outcomes s q s.mostAttempts
    let k := attemptCount outs
    let tried := r.keep (p.after s q k)
    let warned := warnings p.name 0 (outs.take k)
    ∃ last, outs[k - 1]? = some last ∧ r.call s q =
      match last with
      | .ok reply => (.ok ⟨.ok reply, p.name, k⟩, tried, warned)
      | .error _ =>
        if f.name = p.name then (.ok ⟨.error ⟨p.name, k, true⟩, p.name, k⟩, tried, warned)
        else
          let (result, r', events) := tried.callFallback s q k f
          (result, r', warned ++ events) := by
  intro outs k tried warned
  obtain ⟨last, hlast, hget⟩ := exists_last (p.outcomes_ne_nil s q)
  have htried : askPrimary s q s.mostAttempts 0 p = ⟨.ok last.toOption, k, p.after s q k, warned⟩ := by
    have hlw := lastWord_of_hasText (ht _ (List.mem_of_mem_take (List.mem_of_getLast? hget)))
    have heq := askPrimary_eq s q s.mostAttempts 0 p
    dsimp only at heq
    rw [hget, hlw, Nat.zero_add] at heq
    exact heq
  refine ⟨last, hlast, ?_⟩
  cases last with
  | ok reply => simp only [call, hp, htried, Except.toOption, tried]
  | error e =>
    obtain ⟨_, hprovider, hfind⟩ := seated_eq_ok.1 hp
    obtain ⟨_, hfallback, hfindf⟩ := seated_eq_ok.1 hf
    obtain rfl := find?_name hfind
    obtain rfl := find?_name hfindf
    by_cases hsame : f.name = p.name
    · -- The primary provider stands in for itself, as it is after the attempts.
      have hkept : tried.fallback s = .ok (p.after s q k) := by
        refine seated_eq_ok.2 ⟨_, hfallback, ?_⟩
        have hself : tried.find? (p.after s q k).name = some (p.after s q k) :=
          find?_keep_self (by simpa using hfind)
        rwa [Provider.after_name, ← hsame] at hself
      simp only [call, hp, htried, Except.toOption, tried, hkept, Provider.after_name, hsame, if_true]
    · -- The fallback is untouched by what the primary provider was asked.
      have hkept : tried.fallback s = .ok f :=
        seated_eq_ok.2 ⟨_, hfallback, by rw [find?_keep_of_ne r (by simpa using hsame), hfindf]⟩
      simp only [call, hp, htried, Except.toOption, tried, hkept, if_neg hsame]

/-- **A call** asks the primary provider up to its first final outcome, and then, if this is no
answer, the fallback once, if it is another provider. -/
theorem call_protocol (hp : r.primary s = .ok p) (hf : r.fallback s = .ok f)
    (ht : ∀ o ∈ (f.ask s q).1 :: p.outcomes s q s.mostAttempts, HasText o) :
    let outs := p.outcomes s q s.mostAttempts
    let k := attemptCount outs
    ∃ last result r' events,
      outs[k - 1]? = some last ∧ r.call s q = (.ok result, r', events) ∧
      let turned := !last.isOk && f.name ≠ p.name
      result.outcome.toOption = (if turned then (f.ask s q).1 else last).toOption ∧
      result.attempts = k + turned.toNat ∧
      result.providerUsed = (if turned then f.name else p.name) ∧
      (∀ name, r'.queries name = (r.queries name).map fun asked =>
        asked ++ List.replicate
          (if name = p.name then k else if name = f.name then turned.toNat else 0) q) ∧
      events.countP (fun e => e.severity = .warn) = (outs.take k).countP fun o => !o.isOk := by
  intro outs k
  have htexts : ∀ o ∈ outs, HasText o := fun o ho => ht o (List.mem_cons_of_mem _ ho)
  have hwarned := countP_warnings p.name 0 fun o ho => htexts o (List.mem_of_mem_take (i := k) ho)
  obtain ⟨_, -, hfind⟩ := seated_eq_ok.1 hp
  obtain ⟨_, -, hfindf⟩ := seated_eq_ok.1 hf
  obtain rfl := find?_name hfind
  obtain rfl := find?_name hfindf
  have hqueries := queries_keep_after hfind s q k
  obtain ⟨last, hlast, hcall⟩ := call_eq hp hf htexts
  cases last with
  | ok reply =>
    refine ⟨_, _, _, _, hlast, hcall, rfl, rfl, rfl, ?_, hwarned⟩
    intro name
    simpa [Except.isOk, Except.toBool] using hqueries name
  | error e =>
    by_cases hsame : f.name = p.name
    · rw [if_pos hsame] at hcall
      have hturned : (!(Except.error e : Except Failure Reply).isOk && decide (f.name ≠ p.name)) =
          false := by simp [hsame]
      refine ⟨_, _, _, _, hlast, hcall, ?_⟩
      rw [hturned]
      exact ⟨rfl, rfl, rfl, fun name => by simpa using hqueries name, hwarned⟩
    · obtain ⟨result, events, hcalled, hout, hmade, hused, hquiet⟩ :=
        callFallback_spec s q k (r.keep (p.after s q k)) (ht _ List.mem_cons_self)
      rw [if_neg hsame, hcalled] at hcall
      refine ⟨_, _, _, _, hlast, hcall, ?_⟩
      have hturned : (!(Except.error e : Except Failure Reply).isOk && decide (f.name ≠ p.name)) =
          true := by simpa [Except.isOk, Except.toBool] using hsame
      simp only [hturned, if_true, Bool.toNat_true, List.countP_append, hquiet, Nat.add_zero]
      exact ⟨hout, hmade, hused, queries_keep_both hfind hfindf hsame s q k, hwarned⟩

namespace Duo

/-- Two providers, of which the second stands in for the first. -/
def settings : Settings where
  provider := .string "primary"
  fallbackProvider := .string "backup"
  openAi := ⟨.missing, .missing⟩
  claude := ⟨.missing, .missing⟩
  gemini := ⟨.missing, .missing⟩
  maxRetries := 2
  timeoutMs := 8000
  maxTokens := 1024
  temperature := 1
  extra := []

def query : Query := ⟨[], .ofNat 1024, .number 1, true, .missing⟩

def reply : Reply := ⟨.string "ok", .string "model", .ofNat 0, .ofNat 0, .ofNat 0⟩

/-- The stand-in answers whatever it is asked. -/
def backup : Provider := .scripted "backup" true [.ok reply]

/-- A primary provider that fails with one thing, whenever it is asked. -/
def failing (f : Failure) : Provider := .scripted "primary" true [.error f]

def registry (f : Failure) : Registry := ⟨[backup, failing f]⟩

end Duo

/-- A provider that is always overloaded gives way to the fallback. -/
theorem call_protocol_of_an_overload :
    let overload := Failure.value (.string "overloaded")
    let outs := (Duo.failing overload).outcomes Duo.settings Duo.query 2
    let k := attemptCount outs
    ∃ last result r' events,
      outs[k - 1]? = some last ∧
      (Duo.registry overload).call Duo.settings Duo.query = (.ok result, r', events) ∧
      let turned := !last.isOk && "backup" ≠ "primary"
      result.outcome.toOption = (if turned then .ok Duo.reply else last).toOption ∧
      result.attempts = k + turned.toNat ∧
      result.providerUsed = (if turned then "backup" else "primary") ∧
      (∀ name, r'.queries name = ((Duo.registry overload).queries name).map fun asked =>
        asked ++ List.replicate
          (if name = "primary" then k else if name = "backup" then turned.toNat else 0) Duo.query) ∧
      events.countP (fun e => e.severity = .warn) = (outs.take k).countP fun o => !o.isOk :=
  call_protocol (r := Duo.registry (.value (.string "overloaded"))) (s := Duo.settings)
    (q := Duo.query) (p := Duo.failing (.value (.string "overloaded"))) (f := Duo.backup)
    rfl rfl (by decide)

/-- A failure without a text breaks the call off where it is met: nobody else is asked. -/
theorem call_eq_textless {f : Failure} (hp : r.primary s = .ok p)
    (hl : (p.outcomes s q s.mostAttempts)[attemptCount (p.outcomes s q s.mostAttempts) - 1]? =
      some (.error f)) (ht : f.text? = none) :
    let k := attemptCount (p.outcomes s q s.mostAttempts)
    ∃ events, r.call s q = (.error .textless, r.keep (p.after s q k), events) := by
  intro k
  obtain ⟨last, hlast, hget⟩ := exists_last (p.outcomes_ne_nil s q)
  obtain rfl : last = .error f := Option.some.inj (hlast.symm.trans hl)
  have htried := askPrimary_eq s q s.mostAttempts 0 p
  dsimp only at htried
  rw [hget, Nat.zero_add] at htried
  refine ⟨warnings p.name 0 ((p.outcomes s q s.mostAttempts).take k), ?_⟩
  simp only [call, hp, htried, lastWord, ht, Option.isSome_none, Bool.false_eq_true, if_false, k]

/-- An object that hides how it is written, thrown at the first attempt, ends the call. The backup,
which would have answered, is not asked. -/
theorem call_throws_on_a_textless_failure :
    let hidden := Failure.value (.object [("toString", .null)])
    ∃ events r', (Duo.registry hidden).call Duo.settings Duo.query = (.error .textless, r', events) ∧
      r'.queries "primary" = some [Duo.query] ∧ r'.queries "backup" = some [] :=
  ⟨_, _, rfl, rfl, rfl⟩

/-! ## The primary provider is always asked -/

/-- Whatever the fallback says, it is kept. -/
theorem callFallback_registry (s : Settings) (q : Query) (made : Nat) (r : Registry)
    (f : Provider) : (r.callFallback s q made f).2.1 = r.keep (f.ask s q).2 := by
  unfold callFallback
  split
  · rename_i h
    rw [h]
  · rename_i h
    split <;> rw [h]

/-- What a call leaves behind: what has become of the primary provider, and perhaps of the fallback, if
it is another one. -/
theorem call_registry (hp : r.primary s = .ok p) (q : Query) :
    let kept := r.keep (askPrimary s q s.mostAttempts 0 p).provider
    (r.call s q).2.1 = kept ∨
      ∃ f, kept.fallback s = .ok f ∧ f.name ≠ p.name ∧
        (r.call s q).2.1 = kept.keep (f.ask s q).2 := by
  intro kept
  unfold call
  rw [hp]
  dsimp only
  split
  · exact .inl rfl
  · exact .inl rfl
  · split
    · exact .inl rfl
    · rename_i f hf
      split
      · exact .inl rfl
      · rename_i hother
        exact .inr ⟨f, hf, hother, callFallback_registry s q _ kept f⟩

/-- **A call asks the primary provider** at least once, whatever comes of it. -/
theorem call_asks_primary (hp : r.primary s = .ok p) (q : Query) :
    ∃ n, 0 < n ∧ n ≤ s.mostAttempts ∧
      (r.call s q).2.1.queries p.name = some (p.asked ++ List.replicate n q) := by
  obtain ⟨name, -, hfind⟩ := seated_eq_ok.1 hp
  obtain rfl := find?_name hfind
  have htried := congrArg Attempts.provider (askPrimary_eq s q s.mostAttempts 0 p)
  have hcall := call_registry hp q
  dsimp only at htried hcall
  rw [htried] at hcall
  have hkept := queries_keep_after hfind s q (attemptCount (p.outcomes s q s.mostAttempts)) p.name
  have hfound : r.queries p.name = some p.asked := by rw [queries, hfind, Option.map_some]
  rw [if_pos rfl, hfound, Option.map_some] at hkept
  have hle := attemptCount_le (p.outcomes s q s.mostAttempts)
  rw [Provider.length_outcomes] at hle
  refine ⟨_, attemptCount_pos (p.outcomes_ne_nil s q), hle, ?_⟩
  rcases hcall with hcall | ⟨f, -, hf, hcall⟩
  · rw [hcall, hkept]
  · rw [hcall, queries, find?_keep_of_ne _ (by simpa using Ne.symm hf)]
    exact hkept

end Registry

end Adventure
