import Adventure.Json.Reader
import Adventure.Proofs.Number.Grammar
import Adventure.Proofs.Text.Units
import Mathlib.Data.List.Basic
import Mathlib.Data.List.TakeDrop
import Mathlib.Data.List.TakeWhile
/-!
# Scanning JSON

A scanner goes over a JSON text character by character and knows only whether it is inside a text
and how many brackets are open. It follows everything that the reader accepts: what a value takes up
leaves the scanner where it was, outside of texts, at the same depth (`passed_reads`).

Two facts follow without another look at the reader. An object does not begin with a shorter one
(`eq_nil_of_block_append`). And a piece that is followed both from outside and from inside of a text
has nothing in it that only stands in texts (`isMark_of_follow_both`): every quote moves the one scan
out when it moves the other in.
-/

namespace Adventure.Json

/-- Where a scanner is: outside of texts with so many brackets open, inside a text, or inside a text
right after a backslash. -/
inductive Spot where
  | outside (depth : Nat)
  | inside (depth : Nat)
  | escaping (depth : Nat)
deriving DecidableEq

/-- The characters outside of texts that open and close nothing. -/
def isOuter (c : Char) : Bool :=
  isSpace c || c.isDigit ||
    ['+', '-', '.', ',', ':', 'n', 'u', 'l', 't', 'r', 'e', 'f', 'a', 's', 'E'].contains c

def isOpening (c : Char) : Bool := c == '[' || c == '\x7b'

def isClosing (c : Char) : Bool := c == ']' || c == '\x7d'

/-- A scanner after one more character. -/
def Spot.next : Spot → Char → Option Spot
  | .outside d, c =>
    if c = '"' then some (.inside d)
    else if isOpening c then some (.outside (d + 1))
    else if isClosing c then if d = 0 then none else some (.outside (d - 1))
    else if isOuter c then some (.outside d)
    else none
  | .inside d, c =>
    if c = '"' then some (.outside d)
    else if c = '\\' then some (.escaping d)
    else some (.inside d)
  | .escaping d, c => if c = 'u' ∨ (unescape? c).isSome then some (.inside d) else none

/-- A scanner after more characters. -/
def follow (spot : Spot) (cs : List Char) : Option Spot := cs.foldlM Spot.next spot

@[simp] theorem follow_nil (spot : Spot) : follow spot [] = some spot := rfl

@[simp] theorem follow_cons (spot : Spot) (c : Char) (cs : List Char) :
    follow spot (c :: cs) = (spot.next c).bind (follow · cs) := by
  simp [follow, List.foldlM_cons]

@[simp] theorem follow_append (spot : Spot) (xs ys : List Char) :
    follow spot (xs ++ ys) = (follow spot xs).bind (follow · ys) := by
  simp [follow, List.foldlM_append]

/-! ## Pieces that a reader passes -/

/-- A piece that leaves a scanner where it was, outside of texts. -/
def Closed (cs : List Char) : Prop := ∀ d, follow (.outside d) cs = some (.outside d)

/-- Between a text and its rest there is a closed piece. -/
def Passed (cs rest : List Char) : Prop := ∃ taken, cs = taken ++ rest ∧ Closed taken

variable {cs rest : List Char} {c : Char}

theorem isOpening_iff : isOpening c ↔ c = '[' ∨ c = '\x7b' := by simp [isOpening]

theorem isClosing_iff : isClosing c ↔ c = ']' ∨ c = '\x7d' := by simp [isClosing]

theorem next_of_isOuter (h : isOuter c) (d : Nat) : (Spot.outside d).next c = some (.outside d) := by
  have hq : c ≠ '"' := by rintro rfl; revert h; decide
  have ho : ¬ isOpening c := by
    rw [isOpening_iff]
    rintro (rfl | rfl) <;> revert h <;> decide
  have hc : ¬ isClosing c := by
    rw [isClosing_iff]
    rintro (rfl | rfl) <;> revert h <;> decide
  simp [Spot.next, hq, ho, hc, h]

theorem Passed.refl (cs : List Char) : Passed cs cs := ⟨[], rfl, fun _ => rfl⟩

theorem Passed.trans {mid : List Char} (h : Passed cs mid) (h' : Passed mid rest) :
    Passed cs rest := by
  obtain ⟨xs, rfl, hx⟩ := h
  obtain ⟨ys, rfl, hy⟩ := h'
  refine ⟨xs ++ ys, by simp, ?_⟩
  intro d
  rw [follow_append, hx, Option.bind_some, hy]

theorem Passed.suffix (h : Passed cs rest) : rest <:+ cs := by
  obtain ⟨taken, rfl, -⟩ := h
  exact List.suffix_append _ _

theorem Passed.cons (h : isOuter c) (hp : Passed cs rest) : Passed (c :: cs) rest := by
  obtain ⟨taken, rfl, ht⟩ := hp
  exact ⟨c :: taken, rfl, fun d => by rw [follow_cons, next_of_isOuter h, Option.bind_some, ht]⟩

theorem passed_append (taken : List Char) (h : ∀ c ∈ taken, isOuter c) (rest : List Char) :
    Passed (taken ++ rest) rest := by
  induction taken with
  | nil => exact .refl rest
  | cons c taken ih =>
    exact .cons (h c List.mem_cons_self) (ih fun x hx => h x (List.mem_cons_of_mem _ hx))

theorem passed_skipSpace (cs : List Char) : Passed cs (skipSpace cs) := by
  have h := passed_append (cs.takeWhile isSpace) ?_ (skipSpace cs)
  · rwa [skipSpace, List.takeWhile_append_dropWhile] at h
  · intro c hc
    simp [isOuter, List.mem_takeWhile_imp hc]

/-- What stands between brackets goes into the piece together with them. -/
theorem Passed.bracket {o c : Char} (ho : isOpening o) (hc : isClosing c)
    (h : Passed cs (c :: rest)) : Passed (o :: cs) rest := by
  obtain ⟨taken, rfl, ht⟩ := h
  refine ⟨o :: (taken ++ [c]), by simp, ?_⟩
  intro d
  have hopen : (Spot.outside d).next o = some (.outside (d + 1)) := by
    have hq : o ≠ '"' := by rintro rfl; revert ho; decide
    simp [Spot.next, hq, ho]
  have hclose : (Spot.outside (d + 1)).next c = some (.outside d) := by
    have hq : c ≠ '"' := by rintro rfl; revert hc; decide
    have hn : ¬ isOpening c := by
      rcases isClosing_iff.1 hc with rfl | rfl <;> decide
    simp [Spot.next, hq, hn, hc]
  simp [hopen, ht (d + 1), hclose]

/-! ## Texts -/

/-- Digits of any base are neither quotes nor backslashes. -/
theorem ne_of_inBase? {base n acc : Nat} (h : Numeral.inBase? base acc cs = some n) :
    ∀ c ∈ cs, c ≠ '"' ∧ c ≠ '\\' := by
  induction cs generalizing acc with
  | nil => simp
  | cons c cs ih =>
    unfold Numeral.inBase? at h
    intro x hx
    cases hd : Numeral.digitValue? c with
    | none => simp [hd] at h
    | some d =>
      rcases List.mem_cons.1 hx with rfl | hx
      · constructor <;> rintro rfl <;> cases hd
      · rw [hd] at h
        dsimp only at h
        split at h
        · exact ih h x hx
        · cases h

theorem next_inside {c : Char} (h : c ≠ '"' ∧ c ≠ '\\') (d : Nat) :
    (Spot.inside d).next c = some (.inside d) := by
  simp [Spot.next, h]

/-- What is neither a quote nor a backslash does not leave a text. -/
theorem follow_inside (h : ∀ c ∈ cs, c ≠ '"' ∧ c ≠ '\\') (d : Nat) :
    follow (.inside d) cs = some (.inside d) := by
  induction cs with
  | nil => rfl
  | cons c cs ih =>
    rw [follow_cons, next_inside (h c List.mem_cons_self), Option.bind_some,
      ih fun x hx => h x (List.mem_cons_of_mem _ hx)]

/-- A text is followed from its inside to its end. -/
theorem follow_of_readUnits {us : List Nat} (h : readUnits cs = some (us, rest)) :
    ∃ taken, cs = taken ++ rest ∧ ∀ d, follow (.inside d) taken = some (.outside d) := by
  fun_induction readUnits cs generalizing us with
  | case1 => cases h
  | case2 r =>
    obtain ⟨-, rfl⟩ : [] = us ∧ r = rest := by simpa using h
    exact ⟨['"'], rfl, fun d => rfl⟩
  | case3 a b c d r ih =>
    simp only [Option.bind_eq_bind, Option.bind_eq_some_iff, Option.some.injEq, Prod.mk.injEq] at h
    obtain ⟨unit, hunit, ⟨us', r'⟩, hr, -, rfl⟩ := h
    obtain ⟨taken, rfl, ht⟩ := ih hr
    refine ⟨'\\' :: 'u' :: [a, b, c, d] ++ taken, by simp, ?_⟩
    intro n
    have hdigits := follow_inside (ne_of_inBase? hunit) n
    have hu : follow (.inside n) ['\\', 'u'] = some (.inside n) := rfl
    change follow (.inside n) (['\\', 'u'] ++ ([a, b, c, d] ++ taken)) = _
    rw [follow_append, hu, Option.bind_some, follow_append, hdigits, Option.bind_some, ht]
  | case4 letter r _ ih =>
    simp only [Option.bind_eq_bind, Option.bind_eq_some_iff, Option.some.injEq, Prod.mk.injEq] at h
    obtain ⟨unit, hunit, ⟨us', r'⟩, hr, -, rfl⟩ := h
    obtain ⟨taken, rfl, ht⟩ := ih hr
    refine ⟨'\\' :: letter :: taken, rfl, ?_⟩
    intro n
    have hesc : (Spot.escaping n).next letter = some (.inside n) := by simp [Spot.next, hunit]
    have hslash : (Spot.inside n).next '\\' = some (.escaping n) := rfl
    rw [follow_cons, hslash, Option.bind_some, follow_cons, hesc, Option.bind_some, ht]
  | case5 => cases h
  | case6 c r hq _ _ hc ih =>
    simp only [Option.bind_eq_bind, Option.bind_eq_some_iff, Option.some.injEq, Prod.mk.injEq] at h
    obtain ⟨⟨us', r'⟩, hr, -, rfl⟩ := h
    obtain ⟨taken, rfl, ht⟩ := ih hr
    refine ⟨c :: taken, rfl, ?_⟩
    intro n
    rw [follow_cons, next_inside ⟨hq, fun e => hc (.inl e)⟩, Option.bind_some, ht]

theorem passed_of_readText {s : String} (h : readText cs = some (s, rest)) :
    Passed ('"' :: cs) rest := by
  obtain ⟨⟨us, r⟩, hr, he⟩ := Option.map_eq_some_iff.1 h
  obtain ⟨-, rfl⟩ := Prod.mk.inj he
  obtain ⟨taken, rfl, ht⟩ := follow_of_readUnits hr
  have hq (d : Nat) : (Spot.outside d).next '"' = some (.inside d) := rfl
  exact ⟨'"' :: taken, rfl, fun d => by rw [follow_cons, hq, Option.bind_some, ht]⟩

/-- Without backslashes, what is read is what is written. -/
theorem readUnits_of_plain {us : List Nat} (h : readUnits cs = some (us, rest))
    (hs : '\\' ∉ cs) : ∃ raw, cs = raw ++ '"' :: rest ∧ us = Text.units raw := by
  fun_induction readUnits cs generalizing us with
  | case1 => cases h
  | case2 r =>
    obtain ⟨rfl, rfl⟩ : [] = us ∧ r = rest := by simpa using h
    exact ⟨[], rfl, rfl⟩
  | case3 => simp at hs
  | case4 => simp at hs
  | case5 => cases h
  | case6 c r hq _ _ hc ih =>
    simp only [Option.bind_eq_bind, Option.bind_eq_some_iff, Option.some.injEq, Prod.mk.injEq] at h
    obtain ⟨⟨us', r'⟩, hr, rfl, rfl⟩ := h
    obtain ⟨raw, rfl, rfl⟩ := ih hr fun hm => hs (List.mem_cons_of_mem _ hm)
    exact ⟨c :: raw, rfl, rfl⟩

theorem readText_of_plain {s : String} (h : readText cs = some (s, rest)) (hs : '\\' ∉ cs) :
    cs = s.toList ++ '"' :: rest := by
  obtain ⟨⟨us, r⟩, hr, he⟩ := Option.map_eq_some_iff.1 h
  obtain ⟨rfl, rfl⟩ := Prod.mk.inj he
  obtain ⟨raw, rfl, rfl⟩ := readUnits_of_plain hr hs
  simp [Text.ofUnits_units]

/-! ## Numbers and names -/

theorem isOuter_of_isPart (h : Numeral.isPart c) : isOuter c := by
  simp only [Numeral.isPart, Numeral.goesOn, Bool.or_eq_true, beq_iff_eq] at h
  rcases h with ((((h | rfl) | rfl) | rfl) | rfl) | rfl
  · simp [isOuter, h]
  all_goals decide

theorem passed_of_readJson {x : Number} (h : Numeral.readJson cs = some (x, rest)) :
    Passed cs rest := by
  obtain ⟨st, negative, cs', q, hs, -, hstrict, rfl, -⟩ := Numeral.readJson_eq_some h
  rw [← List.append_assoc]
  refine passed_append _ (fun c hc => isOuter_of_isPart ?_) rest
  rcases List.mem_append.1 hc with hc | hc
  · exact hs.isPart c hc
  · exact hstrict.isPart c hc

theorem passed_of_readPlain {v : Value} (h : readPlain cs = some (v, rest)) : Passed cs rest := by
  unfold readPlain at h
  split at h
  · obtain ⟨-, rfl⟩ : Value.null = v ∧ _ = rest := by simpa using h
    exact .cons rfl (.cons rfl (.cons rfl (.cons rfl (.refl _))))
  · obtain ⟨-, rfl⟩ : Value.bool true = v ∧ _ = rest := by simpa using h
    exact .cons rfl (.cons rfl (.cons rfl (.cons rfl (.refl _))))
  · obtain ⟨-, rfl⟩ : Value.bool false = v ∧ _ = rest := by simpa using h
    exact .cons rfl (.cons rfl (.cons rfl (.cons rfl (.cons rfl (.refl _)))))
  · obtain ⟨⟨x, r⟩, hx, he⟩ := Option.map_eq_some_iff.1 h
    obtain ⟨-, rfl⟩ := Prod.mk.inj he
    exact passed_of_readJson hx

/-- Names and numbers begin with a letter, a digit or a minus sign. -/
theorem exists_cons_of_readPlain {v : Value} (h : readPlain cs = some (v, rest)) :
    ∃ c r, cs = c :: r ∧ (c.isDigit ∨ c ∈ ['-', 'n', 't', 'f']) := by
  unfold readPlain at h
  split at h
  · exact ⟨'n', _, rfl, .inr (by decide)⟩
  · exact ⟨'t', _, rfl, .inr (by decide)⟩
  · exact ⟨'f', _, rfl, .inr (by decide)⟩
  · obtain ⟨⟨x, r⟩, hx, -⟩ := Option.map_eq_some_iff.1 h
    obtain ⟨c, r, rfl, hc | rfl⟩ := Numeral.exists_cons_of_readJson hx
    · exact ⟨c, r, rfl, .inl hc⟩
    · exact ⟨'-', r, rfl, .inr (by decide)⟩

/-- No name begins as a number does. -/
theorem readPlain_of_readJson {x : Number} (h : Numeral.readJson cs = some (x, rest)) :
    readPlain cs = some (.number x, rest) := by
  obtain ⟨c, r, rfl, hc⟩ := Numeral.exists_cons_of_readJson h
  have hname {d : Char} {r' : List Char} (hd : ¬ (d.isDigit ∨ d = '-')) : c :: r ≠ d :: r' := by
    intro heq
    exact hd ((List.cons.inj heq).1 ▸ hc)
  unfold readPlain
  split
  · exact absurd ‹_› (hname (by decide))
  · exact absurd ‹_› (hname (by decide))
  · exact absurd ‹_› (hname (by decide))
  · rw [h, Option.map_some]

/-! ## Values -/

/-- Items are read as a value, and then the end or a comma and more items. -/
theorem readItems_succ_eq_some {n : Nat} {vs : List Value} :
    readItems (n + 1) cs = some (vs, rest) ↔
      ∃ v r, readValue n cs = some (v, r) ∧
        ((skipSpace r = ']' :: rest ∧ vs = [v]) ∨
          ∃ r' vs', skipSpace r = ',' :: r' ∧ readItems n r' = some (vs', rest) ∧ vs = v :: vs') := by
  constructor
  · intro h
    rw [readItems] at h
    obtain ⟨⟨v, r⟩, hv, h⟩ := Option.bind_eq_some_iff.1 h
    refine ⟨v, r, hv, ?_⟩
    dsimp only at h
    split at h
    · rename_i hend
      obtain ⟨rfl, rfl⟩ : [v] = vs ∧ _ = rest := by simpa using h
      exact .inl ⟨hend, rfl⟩
    · rename_i r' hcomma
      obtain ⟨⟨vs', r''⟩, hvs, h⟩ := Option.bind_eq_some_iff.1 h
      obtain ⟨rfl, rfl⟩ : v :: vs' = vs ∧ r'' = rest := by simpa using h
      exact .inr ⟨r', vs', hcomma, hvs, rfl⟩
    · cases h
  · rintro ⟨v, r, hv, ⟨hend, rfl⟩ | ⟨r', vs', hcomma, hvs, rfl⟩⟩
    · simp [readItems, hv, hend]
    · simp [readItems, hv, hcomma, hvs]

/-- Fields are read as a key, a colon and a value, and then the end or a comma and more fields. -/
theorem readFields_succ_eq_some {n : Nat} {fs : Fields} :
    readFields (n + 1) cs = some (fs, rest) ↔
      ∃ key v r₀ r₁ r₂ r₃, skipSpace cs = '"' :: r₀ ∧ readText r₀ = some (key, r₁) ∧
        skipSpace r₁ = ':' :: r₂ ∧ readValue n r₂ = some (v, r₃) ∧
        ((skipSpace r₃ = '\x7d' :: rest ∧ fs = [(key, v)]) ∨
          ∃ r₄ fs', skipSpace r₃ = ',' :: r₄ ∧ readFields n r₄ = some (fs', rest) ∧
            fs = (key, v) :: fs') := by
  constructor
  · intro h
    rw [readFields] at h
    split at h
    · rename_i r₀ hquote
      obtain ⟨⟨key, r₁⟩, hkey, h⟩ := Option.bind_eq_some_iff.1 h
      dsimp only at h
      split at h
      · rename_i r₂ hcolon
        obtain ⟨⟨v, r₃⟩, hv, h⟩ := Option.bind_eq_some_iff.1 h
        refine ⟨key, v, r₀, r₁, r₂, r₃, hquote, hkey, hcolon, hv, ?_⟩
        dsimp only at h
        split at h
        · rename_i hend
          obtain ⟨rfl, rfl⟩ : [(key, v)] = fs ∧ _ = rest := by simpa using h
          exact .inl ⟨hend, rfl⟩
        · rename_i r₄ hcomma
          obtain ⟨⟨fs', r₅⟩, hfs, h⟩ := Option.bind_eq_some_iff.1 h
          obtain ⟨rfl, rfl⟩ : (key, v) :: fs' = fs ∧ r₅ = rest := by simpa using h
          exact .inr ⟨r₄, fs', hcomma, hfs, rfl⟩
        · cases h
      · cases h
    · cases h
  · rintro ⟨key, v, r₀, r₁, r₂, r₃, hquote, hkey, hcolon, hv, h⟩
    rcases h with ⟨hend, rfl⟩ | ⟨r₄, fs', hcomma, hfs, rfl⟩
    · simp [readFields, hquote, hkey, hcolon, hv, hend]
    · simp [readFields, hquote, hkey, hcolon, hv, hcomma, hfs]

/-- Values are read as a text, a list, an object, or a name or number, by what comes first. -/
theorem readValue_succ_eq_some {n : Nat} {v : Value} :
    readValue (n + 1) cs = some (v, rest) ↔
      (∃ s r, skipSpace cs = '"' :: r ∧ readText r = some (s, rest) ∧ v = .string s) ∨
      (∃ vs r, skipSpace cs = '[' :: r ∧ v = .array vs ∧
        ((skipSpace r = ']' :: rest ∧ vs = []) ∨
          readItems n r = some (vs, rest) ∧ (skipSpace r).head? ≠ some ']')) ∨
      (∃ fs r, skipSpace cs = '\x7b' :: r ∧ v = .object fs ∧
        ((skipSpace r = '\x7d' :: rest ∧ fs = []) ∨
          readFields n r = some (fs, rest) ∧ (skipSpace r).head? ≠ some '\x7d')) ∨
      readPlain (skipSpace cs) = some (v, rest) := by
  constructor
  · intro h
    rw [readValue] at h
    split at h
    · rename_i r hquote
      obtain ⟨⟨s, r'⟩, hs, he⟩ := Option.map_eq_some_iff.1 h
      obtain ⟨rfl, rfl⟩ := Prod.mk.inj he
      exact .inl ⟨s, r, hquote, hs, rfl⟩
    · rename_i r hopen
      split at h
      · rename_i hend
        obtain ⟨rfl, rfl⟩ : Value.array [] = v ∧ _ = rest := by simpa using h
        exact .inr (.inl ⟨[], r, hopen, rfl, .inl ⟨hend, rfl⟩⟩)
      · rename_i hmore
        obtain ⟨⟨vs, r'⟩, hvs, he⟩ := Option.map_eq_some_iff.1 h
        obtain ⟨rfl, rfl⟩ := Prod.mk.inj he
        refine .inr (.inl ⟨vs, r, hopen, rfl, .inr ⟨hvs, ?_⟩⟩)
        intro hend
        obtain ⟨_, hend⟩ := List.head?_eq_some_iff.1 hend
        exact hmore _ hend
    · rename_i r hopen
      split at h
      · rename_i hend
        obtain ⟨rfl, rfl⟩ : Value.object [] = v ∧ _ = rest := by simpa using h
        exact .inr (.inr (.inl ⟨[], r, hopen, rfl, .inl ⟨hend, rfl⟩⟩))
      · rename_i hmore
        obtain ⟨⟨fs, r'⟩, hfs, he⟩ := Option.map_eq_some_iff.1 h
        obtain ⟨rfl, rfl⟩ := Prod.mk.inj he
        refine .inr (.inr (.inl ⟨fs, r, hopen, rfl, .inr ⟨hfs, ?_⟩⟩))
        intro hend
        obtain ⟨_, hend⟩ := List.head?_eq_some_iff.1 hend
        exact hmore _ hend
    · exact .inr (.inr (.inr h))
  · rintro (⟨s, r, hquote, hs, rfl⟩ | ⟨vs, r, hopen, rfl, hr⟩ | ⟨fs, r, hopen, rfl, hr⟩ | hplain)
    · rw [readValue, hquote]
      simp only [hs, Option.map_some]
    · rw [readValue, hopen]
      rcases hr with ⟨hend, rfl⟩ | ⟨hvs, hmore⟩
      · simp only [hend]
      · simp only [hvs, Option.map_some]
        split
        · rename_i hend
          exact absurd (congrArg List.head? hend) hmore
        · rfl
    · rw [readValue, hopen]
      rcases hr with ⟨hend, rfl⟩ | ⟨hfs, hmore⟩
      · simp only [hend]
      · simp only [hfs, Option.map_some]
        split
        · rename_i hend
          exact absurd (congrArg List.head? hend) hmore
        · rfl
    · obtain ⟨c, r, hc, hfirst⟩ := exists_cons_of_readPlain hplain
      have hopen {d : Char} {r' : List Char} (hd : ¬ (d.isDigit ∨ d ∈ ['-', 'n', 't', 'f'])) :
          skipSpace cs ≠ d :: r' := by
        intro heq
        exact hd ((List.cons.inj (hc.symm.trans heq)).1 ▸ hfirst)
      rw [readValue]
      split
      · exact absurd ‹_› (hopen (by decide))
      · exact absurd ‹_› (hopen (by decide))
      · exact absurd ‹_› (hopen (by decide))
      · exact hplain

/-- What each reader passes: a value whole, items and fields up to the bracket that ends them. The
readers take turns, so this is one induction on the depth they may go to. -/
theorem passed_reads (n : Nat) :
    (∀ cs v rest, readValue n cs = some (v, rest) → Passed cs rest) ∧
    (∀ cs vs rest, readItems n cs = some (vs, rest) → Passed cs (']' :: rest)) ∧
    (∀ cs fs rest, readFields n cs = some (fs, rest) → Passed cs ('\x7d' :: rest)) := by
  induction n with
  | zero => simp [readValue, readItems, readFields]
  | succ n ih =>
    obtain ⟨ihv, ihi, ihf⟩ := ih
    have skip {cs r : List Char} (h : skipSpace cs = r) : Passed cs r := h ▸ passed_skipSpace cs
    refine ⟨?_, ?_, ?_⟩
    · intro cs v rest h
      rcases readValue_succ_eq_some.1 h with
        ⟨s, r, hq, hs, -⟩ | ⟨vs, r, ho, -, hr⟩ | ⟨fs, r, ho, -, hr⟩ | hp
      · exact (skip hq).trans (passed_of_readText hs)
      · have hin : Passed r (']' :: rest) := by
          rcases hr with ⟨hend, -⟩ | ⟨hi, -⟩
          · exact skip hend
          · exact ihi _ _ _ hi
        exact (skip ho).trans (hin.bracket rfl rfl)
      · have hin : Passed r ('\x7d' :: rest) := by
          rcases hr with ⟨hend, -⟩ | ⟨hf, -⟩
          · exact skip hend
          · exact ihf _ _ _ hf
        exact (skip ho).trans (hin.bracket rfl rfl)
      · exact (passed_skipSpace cs).trans (passed_of_readPlain hp)
    · intro cs vs rest h
      obtain ⟨v, r, hv, ⟨hend, -⟩ | ⟨r', vs', hcomma, hvs, -⟩⟩ := readItems_succ_eq_some.1 h
      · exact (ihv _ _ _ hv).trans (skip hend)
      · exact (ihv _ _ _ hv).trans ((skip hcomma).trans (.cons (by decide) (ihi _ _ _ hvs)))
    · intro cs fs rest h
      obtain ⟨key, v, r₀, r₁, r₂, r₃, hq, hkey, hcolon, hv, hend⟩ := readFields_succ_eq_some.1 h
      have hfield : Passed cs r₃ :=
        (skip hq).trans ((passed_of_readText hkey).trans
          ((skip hcolon).trans (.cons (by decide) (ihv _ _ _ hv))))
      rcases hend with ⟨hend, -⟩ | ⟨r₄, fs', hcomma, hfs, -⟩
      · exact hfield.trans (skip hend)
      · exact hfield.trans ((skip hcomma).trans (.cons (by decide) (ihf _ _ _ hfs)))

/-! ## Objects -/

/-- A piece in braces that is closed inside. -/
def Block (cs : List Char) : Prop := ∃ inner, cs = '\x7b' :: (inner ++ ['\x7d']) ∧ Closed inner

theorem readPlain_ne_object {fs : Fields} : readPlain cs ≠ some (.object fs, rest) := by
  intro h
  unfold readPlain at h
  split at h
  all_goals simp at h

/-- What an object is read from is a block, after blanks. -/
theorem block_of_readValue {n : Nat} {fs : Fields}
    (h : readValue (n + 1) cs = some (.object fs, rest)) :
    ∃ block, skipSpace cs = block ++ rest ∧ Block block := by
  rcases readValue_succ_eq_some.1 h with ⟨_, _, _, _, hv⟩ | ⟨_, _, _, hv, _⟩ | ⟨fs', r, ho, -, hr⟩ | hp
  · cases hv
  · cases hv
  · have hin : Passed r ('\x7d' :: rest) := by
      rcases hr with ⟨hend, -⟩ | ⟨hf, -⟩
      · exact hend ▸ passed_skipSpace r
      · exact (passed_reads n).2.2 _ _ _ hf
    obtain ⟨inner, rfl, hc⟩ := hin
    exact ⟨'\x7b' :: (inner ++ ['\x7d']), by simp [ho], inner, rfl, hc⟩
  · exact absurd hp readPlain_ne_object

theorem Block.head? (h : Block cs) : cs.head? = some '\x7b' := by
  obtain ⟨inner, rfl, -⟩ := h
  rfl

theorem Block.getLast? (h : Block cs) : cs.getLast? = some '\x7d' := by
  obtain ⟨inner, rfl, -⟩ := h
  rw [← List.cons_append, List.getLast?_concat]

theorem Block.closed (h : Block cs) : Closed cs := by
  obtain ⟨inner, rfl, hc⟩ := h
  have hp : Passed (inner ++ ['\x7d']) ['\x7d'] := ⟨inner, rfl, hc⟩
  obtain ⟨taken, ht, hcl⟩ := hp.bracket (o := '\x7b') rfl rfl
  rw [List.append_nil] at ht
  exact ht ▸ hcl

/-- **A block does not go on after a shorter one.** Where the shorter one ends, no bracket is open,
so the longer one cannot end with another one. -/
theorem eq_nil_of_block_append {xs ys : List Char} (hx : Block xs) (hxy : Block (xs ++ ys)) :
    ys = [] := by
  obtain ⟨inner, rfl, hi⟩ := hx
  obtain ⟨whole, hw, hwhole⟩ := hxy
  rcases List.eq_nil_or_concat' ys with rfl | ⟨more, c, rfl⟩
  · rfl
  · have hsplit : whole = inner ++ '\x7d' :: more := by
      have : inner ++ '\x7d' :: more ++ [c] = whole ++ ['\x7d'] := by simpa using hw
      exact (List.append_inj_left' this rfl).symm
    -- At depth zero nothing can be closed.
    have hstop : follow (.outside 0) whole = none := by
      rw [hsplit, follow_append, hi 0]
      rfl
    rw [hwhole 0] at hstop
    cases hstop

/-- Without backslashes, the names of fields stand in the text as they are. -/
theorem mem_of_key {n : Nat} {fs : Fields} {key : String} {v : Value}
    (h : readFields n cs = some (fs, rest)) (hs : '\\' ∉ cs) (hkey : (key, v) ∈ fs) :
    ∀ c ∈ key.toList, c ∈ cs := by
  induction n generalizing cs fs with
  | zero => simp [readFields] at h
  | succ n ih =>
    obtain ⟨key', v', r₀, r₁, r₂, r₃, hq, htext, hcolon, hv, hend⟩ := readFields_succ_eq_some.1 h
    have skip {cs r : List Char} (h : skipSpace cs = r) : r <:+ cs :=
      h ▸ (passed_skipSpace cs).suffix
    have h₀ : r₀ <:+ cs := (List.suffix_cons _ _).trans (skip hq)
    have hplain := readText_of_plain htext fun hm => hs (h₀.mem hm)
    have hfirst : ∀ c ∈ key'.toList, c ∈ cs := fun c hc =>
      h₀.mem (hplain ▸ List.mem_append_left _ hc)
    rcases hend with ⟨-, rfl⟩ | ⟨r₄, fs', hcomma, hfs, rfl⟩
    · obtain ⟨rfl, -⟩ : key = key' ∧ v = v' := by simpa using hkey
      exact hfirst
    · have h₁ : r₁ <:+ r₀ := by
        rw [hplain]
        exact (List.suffix_cons _ _).trans (List.suffix_append _ _)
      have h₃ : r₃ <:+ r₂ := ((passed_reads n).1 _ _ _ hv).suffix
      have h₄ : r₄ <:+ cs :=
        (List.suffix_cons _ _).trans <| (skip hcomma).trans <| h₃.trans <|
          (List.suffix_cons _ _).trans <| (skip hcolon).trans <| h₁.trans h₀
      rcases List.mem_cons.1 hkey with he | hkey
      · obtain ⟨rfl, -⟩ := Prod.mk.inj he
        exact hfirst
      · exact fun c hc => h₄.mem (ih hfs (fun hm => hs (h₄.mem hm)) hkey c hc)

/-! ## Whole texts -/

/-- Behind the value of a text there are blanks. -/
theorem exists_rest {v : Value} (h : read? cs = some v) :
    ∃ rest, readValue (cs.length + 1) cs = some (v, rest) ∧ ∀ c ∈ rest, isSpace c := by
  unfold read? at h
  split at h
  · rename_i w rest hw
    split at h
    · rename_i hs
      obtain rfl : w = v := Option.some.inj h
      exact ⟨rest, hw, by simpa [skipSpace] using hs⟩
    · cases h
  · cases h

theorem isBlank_of_isSpace (h : isSpace c) : Text.isBlank c := by
  simp only [isSpace, Bool.or_eq_true, beq_iff_eq] at h
  rcases h with ((rfl | rfl) | rfl) | rfl <;> decide

/-! ## Two scans of one piece -/

/-- The characters that mean something outside of texts. -/
def isMark (c : Char) : Bool := c == '"' || isOpening c || isClosing c || isOuter c

/-- Only a quote moves a scan out of the outside. -/
theorem next_outside {d : Nat} {spot : Spot} (h : (Spot.outside d).next c = some spot) :
    isMark c ∧ (c ≠ '"' → ∃ d', spot = .outside d') := by
  unfold Spot.next at h
  dsimp only at h
  split at h
  · rename_i hq
    exact ⟨by simp [isMark, hq], fun hn => absurd hq hn⟩
  split at h
  · rename_i ho
    exact ⟨by simp [isMark, ho], fun _ => ⟨_, (Option.some.inj h).symm⟩⟩
  split at h
  · rename_i hc
    split at h
    · cases h
    · exact ⟨by simp [isMark, hc], fun _ => ⟨_, (Option.some.inj h).symm⟩⟩
  split at h
  · rename_i hm
    exact ⟨by simp [isMark, hm], fun _ => ⟨_, (Option.some.inj h).symm⟩⟩
  · cases h

/-- **Out of step.** A piece that is followed once from outside and once from inside of a text has
only marks in it, since at each of its characters one of the scans is outside. -/
theorem isMark_of_follow_both {d e : Nat} {x y : Spot} (ho : follow (.outside d) cs = some x)
    (hi : follow (.inside e) cs = some y) : ∀ c ∈ cs, isMark c := by
  induction cs generalizing d e x y with
  | nil => simp
  | cons c cs ih =>
    rw [follow_cons] at ho hi
    obtain ⟨spot, hnext, ho⟩ := Option.bind_eq_some_iff.1 ho
    obtain ⟨hmark, hout⟩ := next_outside hnext
    refine List.forall_mem_cons.2 ⟨hmark, ?_⟩
    by_cases hq : c = '"'
    · -- The two scans change places.
      subst hq
      obtain rfl : spot = .inside d := (Option.some.inj hnext).symm
      exact ih hi ho
    · obtain ⟨d', rfl⟩ := hout hq
      have hs : c ≠ '\\' := by
        rintro rfl
        revert hmark
        decide
      rw [next_inside ⟨hq, hs⟩, Option.bind_some] at hi
      exact ih ho hi

end Adventure.Json
