import Adventure.Proofs.Check.Resolution
import Adventure.Proofs.Text.Blank
import Adventure.Turn.Input
/-!
# Which inputs are let in

What players send is let in just if it is an object with an id, an action and perhaps a category.
What an id is (`IsSessionId`) is said by the digits themselves and the dashes between their groups,
what an action is by the words that are left of it and their length in units.

Every field is checked on its own and has at most one thing wrong with it (`Single`), so the
problems of an input are those of its fields, in the order of the fields (`paths_ofValue?`). An input
that is let in keeps its three fields and nothing else, and is let in again as it is
(`gate_admits_documented_inputs`).
-/

namespace Adventure.TurnInput

open Shape (Issue)

variable {α : Type} {v : Value} {s words : String}
  {category : Option Category} {i : TurnInput}

/-! ## Session ids -/

def hexDigits : List Char := "0123456789abcdefABCDEF".toList

/-- Groups of hexadecimal digits, of these lengths and with dashes between them. -/
def Grouped (lengths : List Nat) (cs : List Char) : Prop :=
  ∃ groups : List (List Char), cs = List.intercalate ['-'] groups ∧
    groups.map List.length = lengths ∧ ∀ g ∈ groups, ∀ c ∈ g, c ∈ hexDigits

def IsSessionId (s : String) : Prop := Grouped [8, 4, 4, 4, 12] s.toList

theorem isHexDigit_iff {c : Char} : isHexDigit c ↔ c ∈ hexDigits := by
  have hdigits : hexDigits.map Char.toNat =
      List.range' 48 10 ++ List.range' 97 6 ++ List.range' 65 6 := by decide
  have hrange : isHexDigit c ↔ (48 ≤ c.toNat ∧ c.toNat ≤ 57) ∨ (97 ≤ c.toNat ∧ c.toNat ≤ 102) ∨
      (65 ≤ c.toNat ∧ c.toNat ≤ 70) := by
    simp only [isHexDigit, Bool.or_eq_true, Bool.and_eq_true, decide_eq_true_eq, Char.le_def,
      UInt32.le_iff_toNat_le, Char.toNat_val, or_assoc]
    rfl
  rw [hrange, Text.mem_iff_toNat, hdigits, List.mem_append, List.mem_append, List.mem_range'_1,
    List.mem_range'_1, List.mem_range'_1]
  omega

theorem all_isHexDigit_iff {cs : List Char} : cs.all isHexDigit ↔ ∀ c ∈ cs, c ∈ hexDigits := by
  rw [List.all_eq_true]
  exact forall₂_congr fun _ _ => isHexDigit_iff

/-- The first group, the dash behind it, and the groups after it. -/
theorem grouped_cons_cons {n m : Nat} {rest : List Nat} {cs : List Char} :
    Grouped (n :: m :: rest) cs ↔ ∃ g tail, cs = g ++ '-' :: tail ∧ g.length = n ∧
      (∀ c ∈ g, c ∈ hexDigits) ∧ Grouped (m :: rest) tail := by
  constructor
  · rintro ⟨groups, rfl, hlengths, hdigits⟩
    obtain ⟨g, more, rfl, hg, hmore⟩ := List.map_eq_cons_iff.1 hlengths
    obtain ⟨g', more, rfl, hg', hrest⟩ := List.map_eq_cons_iff.1 hmore
    refine ⟨g, List.intercalate ['-'] (g' :: more), ?_, hg, hdigits g List.mem_cons_self,
      g' :: more, rfl, hmore, fun g hg => hdigits g (List.mem_cons_of_mem _ hg)⟩
    rw [List.intercalate_cons_cons, List.append_assoc, List.singleton_append]
  · rintro ⟨g, tail, rfl, hg, hdigits, groups, rfl, hlengths, hmore⟩
    obtain ⟨g', more, rfl, -, -⟩ := List.map_eq_cons_iff.1 hlengths
    refine ⟨g :: g' :: more, ?_, ?_, List.forall_mem_cons.2 ⟨hdigits, hmore⟩⟩
    · rw [List.intercalate_cons_cons, List.append_assoc, List.singleton_append]
    · rw [List.map_cons, hg, hlengths]

theorem isGrouped_cons_cons {n m : Nat} {rest : List Nat} {cs : List Char} :
    isGrouped (n :: m :: rest) cs ↔ ∃ g tail, cs = g ++ '-' :: tail ∧ g.length = n ∧
      g.all isHexDigit ∧ isGrouped (m :: rest) tail := by
  constructor
  · intro h
    simp only [isGrouped, Bool.and_eq_true, decide_eq_true_eq] at h
    obtain ⟨⟨hlength, hdigits⟩, hrest⟩ := h
    split at hrest
    · rename_i tail hdrop
      exact ⟨cs.take n, tail, by rw [← hdrop, List.take_append_drop], hlength, hdigits, hrest⟩
    · cases hrest
  · rintro ⟨g, tail, rfl, rfl, hdigits, hrest⟩
    simp only [isGrouped, List.take_left, List.drop_left, decide_true, hdigits, hrest, Bool.and_self]

/-- **Groups are recognised.** Each is as long as it should be, so its end need not be searched. -/
theorem isGrouped_iff {lengths : List Nat} {cs : List Char} :
    isGrouped lengths cs ↔ Grouped lengths cs := by
  induction lengths generalizing cs with
  | nil =>
    rw [isGrouped, List.isEmpty_iff]
    constructor
    · rintro rfl
      exact ⟨[], rfl, rfl, List.forall_mem_nil _⟩
    · rintro ⟨groups, rfl, hlengths, -⟩
      rw [List.map_eq_nil_iff.1 hlengths]
      rfl
  | cons n rest ih =>
    cases rest with
    | nil =>
      rw [isGrouped, Bool.and_eq_true, decide_eq_true_eq, all_isHexDigit_iff]
      constructor
      · rintro ⟨rfl, hdigits⟩
        exact ⟨[cs], List.intercalate_singleton.symm, rfl, List.forall_mem_singleton.2 hdigits⟩
      · rintro ⟨groups, rfl, hlengths, hdigits⟩
        obtain ⟨g, none, rfl, hg, hnone⟩ := List.map_eq_cons_iff.1 hlengths
        obtain rfl := List.map_eq_nil_iff.1 hnone
        rw [List.intercalate_singleton]
        exact ⟨hg, List.forall_mem_singleton.1 hdigits⟩
    | cons m rest =>
      rw [isGrouped_cons_cons, grouped_cons_cons]
      simp only [all_isHexDigit_iff, ih]

/-! ## What each field asks for -/

def SessionGiven (v : Value) : Prop := ∃ s, v = .string s ∧ IsSessionId s

/-- Words that are neither none nor too many, perhaps with blanks around them. -/
def ActionGiven (v : Value) : Prop :=
  ∃ s words, v = .string s ∧ Text.Trims s words ∧
    1 ≤ Text.unitLength words.toList ∧ Text.unitLength words.toList ≤ 400

def CategoryGiven (v : Value) : Prop :=
  v = .missing ∨ ∃ name ∈ ["COMBAT", "SKILL", "SOCIAL", "EXPLORATION"], v = .string name

/-- A category as the value of its field. -/
def categoryValue (category : Option Category) : Value :=
  (category.map fun c => Value.string c.name).getD .missing

theorem text_string_bind (s : String) (f : String → Shape.Checked α) :
    (Shape.text (.string s) >>= f) = f s := rfl

theorem checkId_string (s : String) : checkId (.string s) =
    if isGrouped idGroups s.toList then .ok s else Shape.refuse .notUuid :=
  text_string_bind s _

theorem checkAction_string (s : String) : checkAction (.string s) =
    if Text.unitLength (Text.trimmed s).toList < 1 then Shape.refuse (.tooShort 1)
    else if 400 < Text.unitLength (Text.trimmed s).toList then Shape.refuse (.tooLong 400)
    else .ok (Text.trimmed s) := by
  unfold checkAction shortestAction longestAction
  exact text_string_bind s _

theorem checkId_eq_ok : checkId v = .ok s ↔ v = .string s ∧ IsSessionId s := by
  cases v with
  | string t =>
    have hgrouped : isGrouped idGroups t.toList ↔ IsSessionId t := isGrouped_iff
    rw [checkId_string, Value.string.injEq]
    by_cases h : isGrouped idGroups t.toList
    · rw [if_pos h, Except.ok.injEq]
      exact ⟨fun heq => ⟨heq, heq ▸ hgrouped.1 h⟩, And.left⟩
    · rw [if_neg h]
      exact ⟨nofun, fun ⟨heq, hs⟩ => absurd (hgrouped.2 (heq ▸ hs)) h⟩
  | _ => exact ⟨nofun, nofun⟩

theorem checkAction_eq_ok : checkAction v = .ok words ↔ ∃ s, v = .string s ∧ Text.Trims s words ∧
    1 ≤ Text.unitLength words.toList ∧ Text.unitLength words.toList ≤ 400 := by
  simp only [Text.trims_iff]
  cases v with
  | string t =>
    rw [checkAction_string]
    constructor
    · intro h
      split at h
      · cases h
      · rename_i hshort
        split at h
        · cases h
        · rename_i hlong
          cases h
          exact ⟨t, rfl, rfl, not_lt.1 hshort, not_lt.1 hlong⟩
    · rintro ⟨_, heq, rfl, hshort, hlong⟩
      cases heq
      rw [if_neg (not_lt.2 hshort), if_neg (not_lt.2 hlong)]
  | _ => exact ⟨nofun, fun ⟨_, h, _⟩ => nomatch h⟩

theorem checkCategory_eq_ok : checkCategory v = .ok category ↔ v = categoryValue category := by
  constructor
  · intro h
    cases v with
    | missing =>
      cases h
      rfl
    | string s =>
      simp only [checkCategory] at h
      split at h
      · cases h
        exact Category.eq_of_ofValue? ‹_›
      · cases h
    | _ => cases h
  · rintro rfl
    cases category with
    | none => rfl
    | some c => cases c <;> rfl

theorem exists_checkId_iff : (∃ s, checkId v = .ok s) ↔ SessionGiven v := by
  simp only [checkId_eq_ok, SessionGiven]

theorem exists_checkAction_iff : (∃ words, checkAction v = .ok words) ↔ ActionGiven v := by
  simp only [checkAction_eq_ok]
  exact exists_comm

theorem exists_checkCategory_iff : (∃ category, checkCategory v = .ok category) ↔
    CategoryGiven v := by
  simp only [checkCategory_eq_ok, CategoryGiven, Category.mem_names_iff]
  constructor
  · rintro ⟨category, rfl⟩
    cases category with
    | none => exact .inl rfl
    | some c => exact .inr ⟨c.name, ⟨c, rfl⟩, rfl⟩
  · rintro (rfl | ⟨_, ⟨c, rfl⟩, rfl⟩)
    · exact ⟨none, rfl⟩
    · exact ⟨some c, rfl⟩

/-! ## What is wrong with a field -/

/-- A check that finds at most one thing wrong, and that with the value itself. -/
def Single (check : Value → Shape.Checked α) : Prop :=
  ∀ v, (∃ a, check v = .ok a) ∨ ∃ p, check v = Shape.refuse p

theorem single_checkId : Single checkId := by
  intro v
  cases v with
  | string s =>
    rw [checkId_string]
    split
    · exact .inl ⟨_, rfl⟩
    · exact .inr ⟨_, rfl⟩
  | _ => exact .inr ⟨_, rfl⟩

theorem single_checkAction : Single checkAction := by
  intro v
  cases v with
  | string s =>
    rw [checkAction_string]
    split
    · exact .inr ⟨_, rfl⟩
    · split
      · exact .inr ⟨_, rfl⟩
      · exact .inl ⟨_, rfl⟩
  | _ => exact .inr ⟨_, rfl⟩

theorem single_checkCategory : Single checkCategory := by
  intro v
  cases v with
  | missing => exact .inl ⟨_, rfl⟩
  | string s =>
    simp only [checkCategory]
    split
    · exact .inl ⟨_, rfl⟩
    · exact .inr ⟨_, rfl⟩
  | _ => exact .inr ⟨_, rfl⟩

/-- Whether a value passes a check that is described otherwise can be decided by the check. -/
def decidePassed (check : Value → Shape.Checked α) {P : Prop}
    (h : (∃ a, check v = .ok a) ↔ P) : Decidable P :=
  match hv : check v with
  | .ok a => .isTrue (h.1 ⟨a, hv⟩)
  | .error found => .isFalse fun hP => by
    obtain ⟨a, ha⟩ := h.2 hP
    cases hv.symm.trans ha

instance : DecidablePred SessionGiven := fun _ => decidePassed checkId exists_checkId_iff

instance : DecidablePred ActionGiven := fun _ => decidePassed checkAction exists_checkAction_iff

instance : DecidablePred CategoryGiven := fun _ =>
  decidePassed checkCategory exists_checkCategory_iff

/-- The place of a field in which something is wrong. -/
theorem paths_fieldOf {check : Value → Shape.Checked α} {P : Value → Prop} [DecidablePred P]
    (hsingle : Single check) (hP : ∀ v, (∃ a, check v = .ok a) ↔ P v) (fields : Fields)
    (key : String) : (Shape.issues (Shape.fieldOf fields key check)).map Issue.path =
      if P (Fields.get fields key) then [] else [[key]] := by
  rw [Shape.issues_fieldOf]
  rcases hsingle (Fields.get fields key) with ⟨a, ha⟩ | ⟨p, hp⟩
  · rw [if_pos ((hP _).1 ⟨a, ha⟩), ha]
    rfl
  · have hfails : ¬ P (Fields.get fields key) := fun h => by
      obtain ⟨a, ha⟩ := (hP _).2 h
      cases hp.symm.trans ha
    rw [if_neg hfails, hp]
    rfl

/-! ## The whole input -/

/-- An input as it should be. -/
structure Documented (v : Value) : Prop where
  object : ∃ fields, v = .object fields
  session : SessionGiven (v.field "sessionId")
  action : ActionGiven (v.field "action")
  category : CategoryGiven (v.field "category")

/-- The fields of an input that are not as they should be, in order. -/
def offending (v : Value) : List String :=
  (if SessionGiven (v.field "sessionId") then [] else ["sessionId"]) ++
    ((if ActionGiven (v.field "action") then [] else ["action"]) ++
      if CategoryGiven (v.field "category") then [] else ["category"])

theorem ofValue?_object (fields : Fields) : ofValue? (.object fields) =
    (Shape.both (Shape.fieldOf fields "sessionId" checkId)
      (Shape.both (Shape.fieldOf fields "action" checkAction)
        (Shape.fieldOf fields "category" checkCategory))).map fun p => ⟨p.1, p.2.1, p.2.2⟩ := by
  change (Shape.both _ _ >>= _) = _
  cases Shape.both (Shape.fieldOf fields "sessionId" checkId)
      (Shape.both (Shape.fieldOf fields "action" checkAction)
        (Shape.fieldOf fields "category" checkCategory)) <;> rfl

/-- **What is let in** passes the three checks. -/
theorem ofValue?_eq_ok : ofValue? v = .ok i ↔ (∃ fields, v = .object fields) ∧
    checkId (v.field "sessionId") = .ok i.sessionId ∧ checkAction (v.field "action") = .ok i.action ∧
      checkCategory (v.field "category") = .ok i.category := by
  cases v with
  | object fields =>
    rw [ofValue?_object, Shape.map_eq_ok, and_iff_right ⟨fields, rfl⟩]
    simp only [Shape.both_eq_ok, Shape.fieldOf_eq_ok, Value.field]
    constructor
    · rintro ⟨⟨session, words, kind⟩, hchecks, rfl⟩
      exact hchecks
    · intro hchecks
      exact ⟨⟨i.sessionId, i.action, i.category⟩, hchecks, rfl⟩
  | _ => exact ⟨nofun, nofun⟩

theorem exists_ofValue?_iff : (∃ i, ofValue? v = .ok i) ↔ Documented v := by
  simp only [ofValue?_eq_ok]
  constructor
  · rintro ⟨i, hobject, hsession, haction, hcategory⟩
    exact ⟨hobject, exists_checkId_iff.1 ⟨_, hsession⟩, exists_checkAction_iff.1 ⟨_, haction⟩,
      exists_checkCategory_iff.1 ⟨_, hcategory⟩⟩
  · rintro ⟨hobject, hsession, haction, hcategory⟩
    obtain ⟨session, hsession⟩ := exists_checkId_iff.2 hsession
    obtain ⟨words, haction⟩ := exists_checkAction_iff.2 haction
    obtain ⟨kind, hcategory⟩ := exists_checkCategory_iff.2 hcategory
    exact ⟨⟨session, words, kind⟩, hobject, hsession, haction, hcategory⟩

/-- **The problems of an object are those of its fields**, in order. -/
theorem paths_ofValue? (fields : Fields) :
    (Shape.issues (ofValue? (.object fields))).map Issue.path =
      (offending (.object fields)).map fun key => [key] := by
  have hplace {P : Prop} [Decidable P] (key : String) :
      (if P then ([] : List String) else [key]).map (fun key => [key]) =
        if P then [] else [[key]] := by
    split <;> rfl
  rw [ofValue?_object, Shape.issues_map, Shape.issues_both, Shape.issues_both, List.map_append,
    List.map_append, paths_fieldOf single_checkId fun _ => exists_checkId_iff,
    paths_fieldOf single_checkAction fun _ => exists_checkAction_iff,
    paths_fieldOf single_checkCategory fun _ => exists_checkCategory_iff, offending,
    List.map_append, List.map_append, hplace, hplace, hplace]
  rfl

theorem field_toValue (i : TurnInput) : i.toValue.field "sessionId" = .string i.sessionId ∧
    i.toValue.field "action" = .string i.action ∧
      i.toValue.field "category" = categoryValue i.category :=
  ⟨rfl, rfl, rfl⟩

/-- Three fields are kept, one of them trimmed. -/
theorem toValue_of_ofValue? (h : ofValue? v = .ok i) :
    ∃ s words, v.field "action" = .string s ∧ Text.Trims s words ∧
      i.toValue = .object [("sessionId", v.field "sessionId"), ("action", .string words),
        ("category", v.field "category")] := by
  obtain ⟨-, hsession, haction, hcategory⟩ := ofValue?_eq_ok.1 h
  obtain ⟨s, haction, htrims, -, -⟩ := checkAction_eq_ok.1 haction
  refine ⟨s, i.action, haction, htrims, ?_⟩
  rw [(checkId_eq_ok.1 hsession).1, checkCategory_eq_ok.1 hcategory]
  rfl

/-- **What was let in is let in again**, as it is. -/
theorem ofValue?_toValue (h : ofValue? v = .ok i) : ofValue? i.toValue = .ok i := by
  obtain ⟨-, hsession, haction, -⟩ := ofValue?_eq_ok.1 h
  obtain ⟨hfirst, hsecond, hthird⟩ := field_toValue i
  rw [ofValue?_eq_ok, hfirst, hsecond, hthird]
  refine ⟨⟨_, rfl⟩, checkId_eq_ok.2 ⟨rfl, (checkId_eq_ok.1 hsession).2⟩, ?_,
    checkCategory_eq_ok.2 rfl⟩
  obtain ⟨s, -, htrims, hshort, hlong⟩ := checkAction_eq_ok.1 haction
  refine checkAction_eq_ok.2 ⟨i.action, rfl, Text.trims_iff.2 ?_, hshort, hlong⟩
  rw [← Text.trims_iff.1 htrims]
  exact Text.trimmed_ofList_trim s.toList

/-- **The gate lets in what is documented, and nothing else.** An input that is let in is kept as its
id, its trimmed action and its category, without any other field, and is let in again as it is. An
object that is refused has one problem in each field that is not as it should be, in the order of
the fields; whatever is no object has that one problem. -/
theorem gate_admits_documented_inputs (v : Value) :
    ((∃ i, ofValue? v = .ok i) ↔ Documented v) ∧
    (∀ i, ofValue? v = .ok i →
      (∃ s words, v.field "action" = .string s ∧ Text.Trims s words ∧
        i.toValue = .object [("sessionId", v.field "sessionId"), ("action", .string words),
          ("category", v.field "category")]) ∧
      ofValue? i.toValue = .ok i) ∧
    ((∃ fields, v = .object fields) → ∀ found, ofValue? v = .error found →
      found.map Issue.path = (offending v).map fun key => [key]) ∧
    ((∀ fields, v ≠ .object fields) → ofValue? v = Shape.refuse (Shape.mismatch "object" v)) := by
  refine ⟨exists_ofValue?_iff, fun i h => ⟨toValue_of_ofValue? h, ofValue?_toValue h⟩, ?_, ?_⟩
  · rintro ⟨fields, rfl⟩ found h
    rw [← paths_ofValue?, h]
    rfl
  · intro hobject
    cases v with
    | object fields => exact absurd rfl (hobject fields)
    | _ => rfl

/-- Two hundred characters of two units each, with blanks around them, are an action. Of the three
fields after that none is as it should be, and a list has no fields. -/
theorem gate_admits_a_padded_action :
    let cries := String.ofList (List.replicate 200 '😱')
    let v : Value := .object [("note", .null), ("action", .string ("\u3000" ++ cries ++ "\n")),
      ("sessionId", .string "0F8FAD5B-d9cb-469f-A165-70867728950E")]
    let w : Value := .object [("action", .string " \t"), ("category", .null)]
    (∃ i, ofValue? v = .ok i ∧ i.action = cries ∧ ofValue? i.toValue = .ok i) ∧
    (∃ found, ofValue? w = .error found ∧
      found.map Issue.path = [["sessionId"], ["action"], ["category"]]) ∧
    ofValue? (.array []) = Shape.refuse (.wrongKind "object" "array") := by
  intro cries v w
  obtain ⟨-, hkept, -, -⟩ := gate_admits_documented_inputs v
  obtain ⟨-, -, hwrong, -⟩ := gate_admits_documented_inputs w
  obtain ⟨-, -, -, hlist⟩ := gate_admits_documented_inputs (.array [])
  have hcries : cries.toList = List.replicate 200 '😱' := String.toList_ofList
  have htrims : Text.Trims ("\u3000" ++ cries ++ "\n") cries := by
    constructor
    case around =>
      refine ⟨['\u3000'], ['\n'], ?_, List.forall_mem_cons.2 ⟨by decide,
        List.forall_mem_singleton.2 (by decide)⟩⟩
      rw [String.toList_append, String.toList_append, List.append_assoc]
      rfl
    case bare =>
      have hface : '😱' ∉ Text.blanks := by decide
      rw [hcries, List.head?_replicate, List.getLast?_replicate]
      intro c hc
      constructor <;>
      · rintro ⟨⟩
        exact hface hc
  have hlength : Text.unitLength cries.toList = 400 := by
    rw [hcries]
    decide +kernel
  have hv : ofValue? v = .ok ⟨"0F8FAD5B-d9cb-469f-A165-70867728950E", cries, none⟩ :=
    ofValue?_eq_ok.2 ⟨⟨_, rfl⟩, by decide +kernel,
      checkAction_eq_ok.2 ⟨_, rfl, htrims, le_of_le_of_eq (by decide) hlength.symm, hlength.le⟩, rfl⟩
  have hw : ofValue? w = .error [⟨["sessionId"], .required⟩, ⟨["action"], .tooShort 1⟩,
      ⟨["category"], .wrongKind categoryListing "null"⟩] := by
    decide +kernel
  obtain ⟨-, hagain⟩ := hkept _ hv
  have hoffending : offending w = ["sessionId", "action", "category"] := by
    decide +kernel
  refine ⟨⟨_, hv, rfl, hagain⟩, ⟨_, hw, ?_⟩, hlist nofun⟩
  rw [hwrong ⟨_, rfl⟩ _ hw, hoffending]
  rfl

end Adventure.TurnInput
