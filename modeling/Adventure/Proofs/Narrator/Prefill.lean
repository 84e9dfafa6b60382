import Adventure.Narrator.Claude
import Adventure.Proofs.Json.Local
import Adventure.Proofs.Narrative.Encoding
import Adventure.Proofs.Narrator.Call
/-!
# The opening that is put back

Where JSON is wanted, the assistant's turn is begun for Claude with the brace that opens the object,
and what comes back goes on behind it. The answer arrives in blocks, cut anywhere, with blocks of
other kinds among them (`Carries`). The reply is the text from the brace on, so it is read as if the
whole of it had been answered (`prefill_is_put_back`).
-/

namespace Adventure

open Json

namespace Response

/-- An object with a narration is the first part of its text that is tried, also with blanks behind
it. -/
theorem ofText_object {j n : String} {fields : Fields}
    (hj : read? j.toList = some (.object fields)) (hn : Fields.get fields "narrative" = .string n)
    (hfilled : Text.trimmed n ≠ "") :
    ∃ r, decode? (.object fields) = some r ∧ ofText j = (r, []) ∧ r.structured = true := by
  have hnarrative : lenientText (Fields.get fields "narrative") = some (Text.trimmed n) := by
    rw [hn, lenientText, if_neg hfilled]
  refine ⟨_, by rw [decode?, hnarrative, Option.map_some], ?_, rfl⟩
  apply ofText_of_whole
  rw [ofCandidate?, read?_trim_of_object hj, Option.bind_some, decode?, hnarrative, Option.map_some]

end Response

namespace Claude

open Response

/-- The blocks of an answer carry a text: pieces of it in their order, some of them perhaps empty, and
among them blocks that are no texts. Pieces are texts themselves, so the text is cut between its
characters; a cut inside of a surrogate pair (see `Text.lone`) is not represented. -/
inductive Carries : List Value → String → Prop where
  | nothing : Carries [] ""
  | text {block : Value} {blocks : List Value} {piece t : String}
      (htype : block.field "type" = .string "text") (htext : block.field "text" = .string piece)
      (h : Carries blocks t) : Carries (block :: blocks) (piece ++ t)
  | other {block : Value} {blocks : List Value} {t : String}
      (htype : block.field "type" ≠ .string "text") (h : Carries blocks t) :
      Carries (block :: blocks) t

variable {blocks : List Value} {t : String} {v : Value} {s : Settings} {q : Query}

/-- Put together, the contents of the blocks are the text. -/
theorem Carries.join (h : Carries blocks t) :
    String.join ((blocks.map Block.ofValue).map Block.content) = t := by
  induction h with
  | nothing => rfl
  | @text block blocks piece t htype htext h ih =>
    rw [List.map_cons, List.map_cons, String.join_cons, ih, Block.ofValue, if_pos htype, htext]
    rfl
  | @other block blocks t htype h ih =>
    rw [List.map_cons, List.map_cons, String.join_cons, ih, Block.ofValue, if_neg htype]
    exact String.empty_append

/-- A reply is the opening and what the blocks carry. -/
theorem reply_text (hcontent : v.field "content" = .array blocks) (h : Carries blocks t)
    (q : Query) :
    (reply q (Answer.ofValue v)).text = .string (opening q.jsonMode ++ t) := by
  have hblocks : (Answer.ofValue v).content = blocks.map Block.ofValue := by
    rw [Answer.ofValue, hcontent]
    rfl
  rw [reply, hblocks, h.join]

/-- **The opening is put back once.** Whatever state the provider is in: if the vendor's answer to the
call carries a text, the reply to a query for plain text is that text. A query for JSON ends the
conversation with the brace that opens the object, and the reply is the text behind that brace. So if
the two together are an object with a narration, that is how the reply is read, and nothing about it
is noted down. -/
theorem prefill_is_put_back {wire : Wire} {connection : Connection} {asked : List Query}
    (hanswer : ∀ c, connection.connect (newKey s) = .ok c →
      wire c asked.length (call s q) = .ok (Answer.ofValue v))
    (hcontent : v.field "content" = .array blocks) (ht : Carries blocks t) :
    let p : Provider := { provider wire with connection := connection, asked := asked }
    let j := "\x7b" ++ t
    ∃ r, (p.ask s q).1 = .ok r ∧
      (q.jsonMode = false → r.text = .string t) ∧
      (q.jsonMode = true →
        (call s q).messages.getLast? = some ⟨.assistant, .string "\x7b"⟩ ∧ r.text = .string j ∧
        ∀ fields n, read? j.toList = some (.object fields) →
          Fields.get fields "narrative" = .string n → Text.trimmed n ≠ "" →
            (ofText j).1.structured = true ∧ (ofText j).2 = [] ∧
              some (ofText j).1 = decode? (.object fields)) := by
  intro p j
  have htext := reply_text hcontent ht q
  obtain ⟨c, hc, hask⟩ : ∃ c, connection.connect (newKey s) = .ok c ∧
      (p.ask s q).1 = (wire c asked.length (call s q)).map (reply q) := by
    rcases Provider.ask_cases p s q with ⟨f, hkey, -⟩ | ⟨c, hc, hask⟩
    · cases hkey
    · exact ⟨c, hc, congrArg Prod.fst hask⟩
  rw [hanswer c hc] at hask
  refine ⟨_, hask, ?_, ?_⟩
  · intro hmode
    rw [htext, hmode]
    exact congrArg Value.string String.empty_append
  · intro hmode
    refine ⟨?_, ?_, ?_⟩
    · rw [call, if_pos hmode, List.getLast?_concat, hmode]
      rfl
    · rw [htext, hmode]
      rfl
    · intro fields n hread hn hfilled
      obtain ⟨response, hdecode, hj, hstructured⟩ := ofText_object hread hn hfilled
      rw [hj, hdecode]
      exact ⟨hstructured, rfl, rfl⟩

/-- Empty blocks, a block that is a thought, and a line end behind the object. -/
theorem prefill_is_put_back_among_thoughts :
    let text (s : String) : Value := .object [("type", .string "text"), ("text", .string s)]
    let thought : Value := .object [("type", .string "thinking"), ("text", .string "\x7b")]
    let v : Value := .object [("content", .array
      [text "", thought, text "\"narrative\": \"문이 ", text "열린다.\"", thought, text "\x7d\n"])]
    let s := Registry.Duo.settings
    let q := Registry.Duo.query
    let j := "\x7b\"narrative\": \"문이 열린다.\"\x7d\n"
    ∃ r, ((provider fun _ _ _ => .ok (Answer.ofValue v)).ask s q).1 = .ok r ∧ r.text = .string j ∧
      (ofText j).1.narrative = "문이 열린다." ∧ (ofText j).1.structured = true := by
  intro text thought v s q j
  have ht : Carries (v.field "content").spread
      ("" ++ ("\"narrative\": \"문이 " ++ ("열린다.\"" ++ ("\x7d\n" ++ "")))) :=
    .text (by decide) rfl <| .other (by decide) <| .text (by decide) rfl <|
      .text (by decide) rfl <| .other (by decide) <| .text (by decide) rfl .nothing
  let wire : Wire := fun _ _ _ => .ok (Answer.ofValue v)
  have hanswer (c) (_ : Connection.none.connect (newKey s) = .ok c) :
      wire c ([] : List Query).length (call s q) = .ok (Answer.ofValue v) := rfl
  obtain ⟨r, hr, -, hjson⟩ := prefill_is_put_back hanswer rfl ht
  obtain ⟨-, htext, hread⟩ := hjson rfl
  have hj : "\x7b" ++ ("" ++ ("\"narrative\": \"문이 " ++ ("열린다.\"" ++ ("\x7d\n" ++ "")))) = j := by
    decide +kernel
  rw [hj] at htext hread
  have hobject : read? j.toList = some (.object [("narrative", .string "문이 열린다.")]) := by
    decide +kernel
  obtain ⟨hstructured, -, hdecode⟩ :=
    hread [("narrative", .string "문이 열린다.")] "문이 열린다." hobject rfl (by decide +kernel)
  have hnarrative : (decode? (.object [("narrative", .string "문이 열린다.")])).map
      Response.narrative = some "문이 열린다." := by
    decide +kernel
  rw [← hdecode] at hnarrative
  exact ⟨r, hr, htext, Option.some.inj hnarrative, hstructured⟩

end Claude

end Adventure
