import Adventure.Proofs.Json.RoundTrip
import Adventure.Proofs.Text.Blank
/-!
# Reading is local

A reader takes what it reads from the front of a text and does not look further. So the same
characters are read as the same value whatever follows them (`reads_local`), as long as it does not
go on with a numeral, and no more steps are needed than there are characters. So it makes no
difference to an object whether there are blanks around it (`read?_trim_of_object`).
-/

namespace Adventure.Json

variable {α : Type} {cs rest taken blanks : List Char} {c : Char} {v : Value}

/-- These characters are read as this, whatever follows that does not go on with them. -/
def Reads (read : List Char → Option (α × List Char)) (taken : List Char) (a : α) : Prop :=
  ∀ rest, Numeral.Stops rest → read (taken ++ rest) = some (a, rest)

/-! ## Blanks -/

theorem skipSpace_append (h : ∀ b ∈ blanks, isSpace b) (cs : List Char) :
    skipSpace (blanks ++ cs) = skipSpace cs :=
  List.dropWhile_append_of_pos h

theorem skipSpace_blanks (h : ∀ b ∈ blanks, isSpace b) (hc : ¬ isSpace c) (cs : List Char) :
    skipSpace (blanks ++ c :: cs) = c :: cs := by
  rw [skipSpace_append h, skipSpace_cons hc]

/-- What is left after blanks stands behind them. -/
theorem exists_blanks (h : skipSpace cs = rest) :
    ∃ blanks, cs = blanks ++ rest ∧ ∀ b ∈ blanks, isSpace b := by
  subst h
  exact ⟨cs.takeWhile isSpace, List.takeWhile_append_dropWhile.symm,
    fun b hb => List.mem_takeWhile_imp hb⟩

theorem not_isSpace_of_skipSpace (h : skipSpace cs = c :: rest) : ¬ isSpace c := by
  have hnot := List.head?_dropWhile_not isSpace cs
  rw [skipSpace] at h
  rw [h] at hnot
  simpa using hnot

/-- Blanks do not go on with a numeral, and neither does what stands behind them. -/
theorem stops_blanks (h : ∀ b ∈ blanks, isSpace b) (hr : Numeral.Stops rest) :
    Numeral.Stops (blanks ++ rest) := by
  cases blanks with
  | nil => exact hr
  | cons b blanks =>
    intro d hd
    obtain rfl := Option.some.inj hd
    have hb := h b List.mem_cons_self
    simp only [isSpace, Bool.or_eq_true, beq_iff_eq] at hb
    rcases hb with ((rfl | rfl) | rfl) | rfl <;> decide

/-! ## Texts, names and numbers -/

theorem readUnits_local {us : List Nat} (h : readUnits cs = some (us, rest)) :
    ∃ taken, cs = taken ++ rest ∧ ∀ rest, readUnits (taken ++ rest) = some (us, rest) := by
  fun_induction readUnits cs generalizing us with
  | case1 => cases h
  | case2 r =>
    obtain ⟨rfl, rfl⟩ : [] = us ∧ r = rest := by simpa using h
    exact ⟨['"'], rfl, fun _ => rfl⟩
  | case3 a b c d r ih =>
    simp only [Option.bind_eq_bind, Option.bind_eq_some_iff, Option.some.injEq, Prod.mk.injEq] at h
    obtain ⟨unit, hunit, ⟨us', r'⟩, hr, rfl, rfl⟩ := h
    obtain ⟨taken, rfl, ht⟩ := ih hr
    refine ⟨'\\' :: 'u' :: a :: b :: c :: d :: taken, rfl, fun rest => ?_⟩
    simp only [List.cons_append, readUnits, hunit, ht, Option.bind_eq_bind, Option.bind_some]
  | case4 letter r hu ih =>
    simp only [Option.bind_eq_bind, Option.bind_eq_some_iff, Option.some.injEq, Prod.mk.injEq] at h
    obtain ⟨unit, hunit, ⟨us', r'⟩, hr, rfl, rfl⟩ := h
    obtain ⟨taken, rfl, ht⟩ := ih hr
    have hletter : letter ≠ 'u' := by
      rintro rfl
      cases hunit
    refine ⟨'\\' :: letter :: taken, rfl, fun rest => ?_⟩
    rw [List.cons_append, List.cons_append, readUnits_letter hletter hunit, ht, Option.map_some]
  | case5 => cases h
  | case6 c r hq _ _ hc ih =>
    simp only [Option.bind_eq_bind, Option.bind_eq_some_iff, Option.some.injEq, Prod.mk.injEq] at h
    obtain ⟨⟨us', r'⟩, hr, rfl, rfl⟩ := h
    obtain ⟨taken, rfl, ht⟩ := ih hr
    refine ⟨c :: taken, rfl, fun rest => ?_⟩
    rw [List.cons_append, readUnits_plain hq (fun e => hc (.inl e)) (fun e => hc (.inr e)), ht,
      Option.map_some]

theorem readText_local {s : String} (h : readText cs = some (s, rest)) :
    ∃ taken, cs = taken ++ rest ∧ ∀ rest, readText (taken ++ rest) = some (s, rest) := by
  obtain ⟨⟨us, r⟩, hr, he⟩ := Option.map_eq_some_iff.1 h
  obtain ⟨rfl, rfl⟩ := Prod.mk.inj he
  obtain ⟨taken, rfl, ht⟩ := readUnits_local hr
  exact ⟨taken, rfl, fun rest => by rw [readText, ht, Option.map_some]⟩

theorem readPlain_local (h : readPlain cs = some (v, rest)) :
    ∃ taken, cs = taken ++ rest ∧ Reads readPlain taken v := by
  unfold readPlain at h
  split at h
  · cases h
    exact ⟨"null".toList, rfl, fun _ _ => rfl⟩
  · cases h
    exact ⟨"true".toList, rfl, fun _ _ => rfl⟩
  · cases h
    exact ⟨"false".toList, rfl, fun _ _ => rfl⟩
  · obtain ⟨⟨x, r⟩, hx, he⟩ := Option.map_eq_some_iff.1 h
    obtain ⟨rfl, rfl⟩ := Prod.mk.inj he
    obtain ⟨st, negative, cs', q, hs, hplus, hstrict, rfl, rfl⟩ := Numeral.readJson_eq_some hx
    refine ⟨st ++ cs', by rw [List.append_assoc], fun rest hr => ?_⟩
    rw [List.append_assoc]
    exact readPlain_of_readJson (hstrict.read hs hplus hr)

/-! ## Values -/

/-- No value begins with the end of a list. -/
theorem head?_of_readValue {n : Nat} (h : readValue n cs = some (v, rest)) :
    (skipSpace cs).head? ≠ some ']' := by
  cases n with
  | zero => simp [readValue] at h
  | succ n =>
    rcases readValue_succ_eq_some.1 h with
      ⟨s, r, hq, -⟩ | ⟨vs, r, ho, -⟩ | ⟨fs, r, ho, -⟩ | hp
    · simp [hq]
    · simp [ho]
    · simp [ho]
    · obtain ⟨c, r, hc, hfirst⟩ := exists_cons_of_readPlain hp
      rw [hc, List.head?_cons]
      intro heq
      obtain rfl := Option.some.inj heq
      revert hfirst
      decide

theorem head?_of_readItems {n : Nat} {vs : List Value} (h : readItems n cs = some (vs, rest)) :
    (skipSpace cs).head? ≠ some ']' := by
  cases n with
  | zero => simp [readItems] at h
  | succ n =>
    obtain ⟨v, r, hv, -⟩ := readItems_succ_eq_some.1 h
    exact head?_of_readValue hv

theorem head?_of_readFields {n : Nat} {fs : Fields} (h : readFields n cs = some (fs, rest)) :
    (skipSpace cs).head? ≠ some '\x7d' := by
  cases n with
  | zero => simp [readFields] at h
  | succ n =>
    obtain ⟨key, v, r₀, r₁, r₂, r₃, hq, -⟩ := readFields_succ_eq_some.1 h
    simp [hq]

/-- What a reader takes from the front of `cs` it reads anywhere, in as many steps as there are
characters. -/
def Local (read : Nat → List Char → Option (α × List Char)) (cs rest : List Char) (a : α) : Prop :=
  ∃ taken, cs = taken ++ rest ∧ ∀ m, taken.length ≤ m → Reads (read m) taken a

/-- Something was taken, so there is a first step. -/
theorem Local.of_steps {read : Nat → List Char → Option (α × List Char)} {a : α}
    (taken : List Char) (h : cs = taken ++ rest) (hne : taken ≠ [])
    (hread : ∀ m, taken.length ≤ m + 1 → Reads (read (m + 1)) taken a) : Local read cs rest a := by
  refine ⟨taken, h, fun m hm => ?_⟩
  cases m with
  | zero => exact absurd (List.length_eq_zero_iff.1 (Nat.le_zero.1 hm)) hne
  | succ m => exact hread m hm

theorem local_readPlain (h : readPlain (skipSpace cs) = some (v, rest)) :
    Local readValue cs rest v := by
  obtain ⟨blanks, hcs, hb⟩ := exists_blanks (Eq.refl (skipSpace cs))
  obtain ⟨c, r, hc, -⟩ := exists_cons_of_readPlain h
  have hspace := not_isSpace_of_skipSpace hc
  rw [hc] at h hcs
  obtain ⟨taken, htaken, ht⟩ := readPlain_local h
  -- Nothing is read from nothing, so the first character was taken.
  obtain ⟨taken, rfl⟩ : ∃ more, taken = c :: more := by
    cases taken with
    | nil =>
      obtain ⟨_, _, hnil, -⟩ := exists_cons_of_readPlain (ht [] Numeral.stops_nil)
      cases hnil
    | cons d more =>
      rw [List.cons_append, List.cons.injEq] at htaken
      exact ⟨more, by rw [htaken.1]⟩
  refine .of_steps (blanks ++ c :: taken) ?_ (by simp) fun m _ rest hstops => ?_
  · rw [hcs, htaken, List.append_assoc]
  · have hread := ht rest hstops
    rw [List.cons_append] at hread
    rw [List.append_assoc, List.cons_append, readValue_succ_eq_some, skipSpace_blanks hb hspace]
    exact .inr (.inr (.inr hread))

/-- A value is read locally if the items and the fields in it are. -/
theorem local_readValue {n : Nat}
    (ihi : ∀ cs vs rest, readItems n cs = some (vs, rest) → Local readItems cs rest vs)
    (ihf : ∀ cs fs rest, readFields n cs = some (fs, rest) → Local readFields cs rest fs)
    (h : readValue (n + 1) cs = some (v, rest)) : Local readValue cs rest v := by
  rcases readValue_succ_eq_some.1 h with
    ⟨s, r, hq, hs, rfl⟩ | ⟨vs, r, ho, rfl, hr⟩ | ⟨fs, r, ho, rfl, hr⟩ | hp
  · -- A text.
    obtain ⟨blanks, rfl, hb⟩ := exists_blanks hq
    obtain ⟨taken, rfl, ht⟩ := readText_local hs
    refine .of_steps (blanks ++ '"' :: taken) (by simp) (by simp) fun m _ rest _ => ?_
    rw [List.append_assoc, List.cons_append]
    exact readValue_succ_eq_some.2 (.inl ⟨s, _, skipSpace_blanks hb (by decide) _, ht rest, rfl⟩)
  · -- A list.
    obtain ⟨blanks, rfl, hb⟩ := exists_blanks ho
    rcases hr with ⟨hend, rfl⟩ | ⟨hvs, -⟩
    · obtain ⟨inner, rfl, hi⟩ := exists_blanks hend
      refine .of_steps (blanks ++ '[' :: (inner ++ [']'])) (by simp) (by simp) fun m _ rest _ => ?_
      simp only [List.append_assoc, List.cons_append, List.nil_append]
      exact readValue_succ_eq_some.2 (.inr (.inl ⟨[], _, skipSpace_blanks hb (by decide) _, rfl,
        .inl ⟨skipSpace_blanks hi (by decide) _, rfl⟩⟩))
    · obtain ⟨taken, rfl, ht⟩ := ihi _ _ _ hvs
      refine .of_steps (blanks ++ '[' :: taken) (by simp) (by simp) fun m hm rest hstops => ?_
      simp only [List.length_append, List.length_cons] at hm
      have hread := ht m (by omega) rest hstops
      simp only [List.append_assoc, List.cons_append]
      exact readValue_succ_eq_some.2 (.inr (.inl ⟨vs, _, skipSpace_blanks hb (by decide) _, rfl,
        .inr ⟨hread, head?_of_readItems hread⟩⟩))
  · -- An object.
    obtain ⟨blanks, rfl, hb⟩ := exists_blanks ho
    rcases hr with ⟨hend, rfl⟩ | ⟨hfs, -⟩
    · obtain ⟨inner, rfl, hi⟩ := exists_blanks hend
      refine .of_steps (blanks ++ '\x7b' :: (inner ++ ['\x7d'])) (by simp) (by simp)
        fun m _ rest _ => ?_
      simp only [List.append_assoc, List.cons_append, List.nil_append]
      exact readValue_succ_eq_some.2 (.inr (.inr (.inl ⟨[], _, skipSpace_blanks hb (by decide) _,
        rfl, .inl ⟨skipSpace_blanks hi (by decide) _, rfl⟩⟩)))
    · obtain ⟨taken, rfl, ht⟩ := ihf _ _ _ hfs
      refine .of_steps (blanks ++ '\x7b' :: taken) (by simp) (by simp) fun m hm rest hstops => ?_
      simp only [List.length_append, List.length_cons] at hm
      have hread := ht m (by omega) rest hstops
      simp only [List.append_assoc, List.cons_append]
      exact readValue_succ_eq_some.2 (.inr (.inr (.inl ⟨fs, _, skipSpace_blanks hb (by decide) _,
        rfl, .inr ⟨hread, head?_of_readFields hread⟩⟩)))
  · exact local_readPlain hp

theorem local_readItems {n : Nat} {vs : List Value}
    (ihv : ∀ cs v rest, readValue n cs = some (v, rest) → Local readValue cs rest v)
    (ihi : ∀ cs vs rest, readItems n cs = some (vs, rest) → Local readItems cs rest vs)
    (h : readItems (n + 1) cs = some (vs, rest)) : Local readItems cs rest vs := by
  obtain ⟨v, r, hv, hr⟩ := readItems_succ_eq_some.1 h
  obtain ⟨taken, rfl, ht⟩ := ihv _ _ _ hv
  rcases hr with ⟨hend, rfl⟩ | ⟨r', vs', hcomma, hvs, rfl⟩
  · obtain ⟨blanks, rfl, hb⟩ := exists_blanks hend
    refine .of_steps (taken ++ (blanks ++ [']'])) (by simp) (by simp) fun m hm rest _ => ?_
    simp only [List.length_append, List.length_singleton] at hm
    have hread := ht m (by omega) (blanks ++ ']' :: rest) (stops_blanks hb (stops_of_isEnd rfl))
    simp only [List.append_assoc, List.cons_append, List.nil_append]
    exact readItems_succ_eq_some.2 ⟨v, _, hread, .inl ⟨skipSpace_blanks hb (by decide) _, rfl⟩⟩
  · obtain ⟨blanks, rfl, hb⟩ := exists_blanks hcomma
    obtain ⟨more, rfl, hmore⟩ := ihi _ _ _ hvs
    refine .of_steps (taken ++ (blanks ++ ',' :: more)) (by simp) (by simp)
      fun m hm rest hstops => ?_
    simp only [List.length_append, List.length_cons] at hm
    have hread := ht m (by omega) (blanks ++ ',' :: (more ++ rest))
      (stops_blanks hb (stops_of_isEnd rfl))
    simp only [List.append_assoc, List.cons_append]
    exact readItems_succ_eq_some.2 ⟨v, _, hread,
      .inr ⟨_, vs', skipSpace_blanks hb (by decide) _, hmore m (by omega) rest hstops, rfl⟩⟩

theorem local_readFields {n : Nat} {fs : Fields}
    (ihv : ∀ cs v rest, readValue n cs = some (v, rest) → Local readValue cs rest v)
    (ihf : ∀ cs fs rest, readFields n cs = some (fs, rest) → Local readFields cs rest fs)
    (h : readFields (n + 1) cs = some (fs, rest)) : Local readFields cs rest fs := by
  obtain ⟨key, v, r₀, r₁, r₂, r₃, hq, hkey, hcolon, hv, hr⟩ := readFields_succ_eq_some.1 h
  obtain ⟨blanks, rfl, hb⟩ := exists_blanks hq
  obtain ⟨name, rfl, hname⟩ := readText_local hkey
  obtain ⟨gap, rfl, hgap⟩ := exists_blanks hcolon
  obtain ⟨taken, rfl, ht⟩ := ihv _ _ _ hv
  rcases hr with ⟨hend, rfl⟩ | ⟨r₄, fs', hcomma, hfs, rfl⟩
  · obtain ⟨blanks', rfl, hb'⟩ := exists_blanks hend
    refine .of_steps (blanks ++ '"' :: (name ++ (gap ++ ':' :: (taken ++ (blanks' ++ ['\x7d'])))))
      (by simp) (by simp) fun m hm rest _ => ?_
    simp only [List.length_append, List.length_cons] at hm
    have hread := ht m (by omega) (blanks' ++ '\x7d' :: rest)
      (stops_blanks hb' (stops_of_isEnd rfl))
    simp only [List.append_assoc, List.cons_append, List.nil_append]
    exact readFields_succ_eq_some.2 ⟨key, v, _, _, _, _, skipSpace_blanks hb (by decide) _,
      hname _, skipSpace_blanks hgap (by decide) _, hread,
      .inl ⟨skipSpace_blanks hb' (by decide) _, rfl⟩⟩
  · obtain ⟨blanks', rfl, hb'⟩ := exists_blanks hcomma
    obtain ⟨more, rfl, hmore⟩ := ihf _ _ _ hfs
    refine .of_steps (blanks ++ '"' :: (name ++ (gap ++ ':' :: (taken ++ (blanks' ++ ',' :: more)))))
      (by simp) (by simp) fun m hm rest hstops => ?_
    simp only [List.length_append, List.length_cons] at hm
    have hread := ht m (by omega) (blanks' ++ ',' :: (more ++ rest))
      (stops_blanks hb' (stops_of_isEnd rfl))
    simp only [List.append_assoc, List.cons_append]
    exact readFields_succ_eq_some.2 ⟨key, v, _, _, _, _, skipSpace_blanks hb (by decide) _,
      hname _, skipSpace_blanks hgap (by decide) _, hread,
      .inr ⟨_, fs', skipSpace_blanks hb' (by decide) _, hmore m (by omega) rest hstops, rfl⟩⟩

/-- **Reading is local.** The readers take turns, so this is one induction on the depth they may go
to. -/
theorem reads_local (n : Nat) :
    (∀ cs v rest, readValue n cs = some (v, rest) → Local readValue cs rest v) ∧
    (∀ cs vs rest, readItems n cs = some (vs, rest) → Local readItems cs rest vs) ∧
    (∀ cs fs rest, readFields n cs = some (fs, rest) → Local readFields cs rest fs) := by
  induction n with
  | zero => simp [readValue, readItems, readFields]
  | succ n ih =>
    obtain ⟨ihv, ihi, ihf⟩ := ih
    exact ⟨fun _ _ _ => local_readValue ihi ihf, fun _ _ _ => local_readItems ihv ihi,
      fun _ _ _ => local_readFields ihv ihf⟩

/-! ## Whole texts -/

theorem readValue_append_blanks (n : Nat) (h : ∀ b ∈ blanks, isSpace b) (cs : List Char) :
    readValue n (blanks ++ cs) = readValue n cs := by
  cases n with
  | zero => simp [readValue]
  | succ n => rw [readValue, readValue, skipSpace_append h]

/-- A text that is read to its end in any number of steps is the text of a value. -/
theorem read?_of_readValue {n : Nat} (h : readValue n cs = some (v, [])) : read? cs = some v := by
  obtain ⟨taken, htaken, ht⟩ := (reads_local n).1 _ _ _ h
  rw [List.append_nil] at htaken
  subst htaken
  have hread := ht (cs.length + 1) (Nat.le_succ _) [] Numeral.stops_nil
  rw [List.append_nil] at hread
  rw [read?, hread]
  rfl

/-- **Blanks around an object** make no difference. -/
theorem read?_trim_of_object {fields : Fields} (h : read? cs = some (.object fields)) :
    read? (Text.trim cs) = some (.object fields) := by
  obtain ⟨rest, hv, hrest⟩ := exists_rest h
  obtain ⟨block, hskip, hblock⟩ := block_of_readValue hv
  obtain ⟨blanks, hcs, hblanks⟩ := exists_blanks hskip
  obtain ⟨taken, htaken, ht⟩ := (reads_local _).1 _ _ _ hv
  have hsame : taken = blanks ++ block := by
    rw [hcs, ← List.append_assoc] at htaken
    exact (List.append_cancel_right htaken).symm
  have hread := ht _ le_rfl [] Numeral.stops_nil
  rw [List.append_nil, hsame, readValue_append_blanks _ hblanks] at hread
  have htrim : Text.trim cs = block := by
    rw [hcs]
    refine Text.trim_blanks (fun c hc => isBlank_of_isSpace (hblanks c hc))
      (fun c hc => isBlank_of_isSpace (hrest c hc)) ?_ ?_ ?_
    · rintro rfl
      cases hblock.head?
    · intro c hc
      obtain rfl := Option.some.inj (hc.symm.trans hblock.head?)
      decide
    · intro c hc
      obtain rfl := Option.some.inj (hc.symm.trans hblock.getLast?)
      decide
  rw [htrim]
  exact read?_of_readValue hread

end Adventure.Json
