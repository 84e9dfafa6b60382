import Adventure.Proofs.Json.Fields
import Adventure.Proofs.Json.Scan
import Adventure.Proofs.Number.Decimal
import Adventure.Proofs.Number.Monotone
/-!
# The numbers of a JSON text

A numeral may have any number of digits and any exponent, but what is read from it is rounded once.
So every number in a value that was read, at any depth, is one that rounding keeps
(`rounded_of_read?`), and is the same when it is written and read again.
-/

namespace Adventure.Json

open Number

variable {cs rest : List Char}

mutual

/-- Whether rounding keeps all numbers of a value. -/
def Rounded : Value → Prop
  | .number x => Held x
  | .array items => ItemsRounded items
  | .object fields => FieldsRounded fields
  | _ => True

def ItemsRounded : List Value → Prop
  | [] => True
  | v :: rest => Rounded v ∧ ItemsRounded rest

def FieldsRounded : List (String × Value) → Prop
  | [] => True
  | (_, v) :: rest => Rounded v ∧ FieldsRounded rest

end

theorem FieldsRounded.of_mem {fields : Fields} {key : String} {v : Value} (h : FieldsRounded fields)
    (hmem : (key, v) ∈ fields) : Rounded v := by
  induction fields with
  | nil => cases hmem
  | cons f rest ih =>
    rcases List.mem_cons.1 hmem with rfl | hmem
    · exact h.1
    · exact ih h.2 hmem

/-- What is read by name is rounded, or missing. -/
theorem FieldsRounded.get {fields : Fields} (h : FieldsRounded fields) (key : String) :
    Rounded (fields.get key) := by
  by_cases hv : fields.get key = .missing
  · rw [hv]
    trivial
  · exact h.of_mem (Fields.mem_of_get rfl hv)

/-- However many digits there are, they are rounded. -/
theorem held_of_readJson {x : Number} (h : Numeral.readJson cs = some (x, rest)) : Held x := by
  obtain ⟨st, negative, cs', q, -, -, -, -, rfl⟩ := Numeral.readJson_eq_some h
  exact held_ofRat _

theorem rounded_of_readPlain {v : Value} (h : readPlain cs = some (v, rest)) : Rounded v := by
  unfold readPlain at h
  split at h
  · cases h
    trivial
  · cases h
    trivial
  · cases h
    trivial
  · obtain ⟨⟨x, r⟩, hx, he⟩ := Option.map_eq_some_iff.1 h
    cases he
    exact held_of_readJson hx

/-- All that the readers read is rounded. The readers take turns, so this is one induction on the
depth they may go to. -/
theorem rounded_reads (n : Nat) :
    (∀ cs v rest, readValue n cs = some (v, rest) → Rounded v) ∧
    (∀ cs vs rest, readItems n cs = some (vs, rest) → ItemsRounded vs) ∧
    (∀ cs fs rest, readFields n cs = some (fs, rest) → FieldsRounded fs) := by
  induction n with
  | zero => simp [readValue, readItems, readFields]
  | succ n ih =>
    obtain ⟨ihv, ihi, ihf⟩ := ih
    refine ⟨?_, ?_, ?_⟩
    · intro cs v rest h
      rcases readValue_succ_eq_some.1 h with
        ⟨s, -, -, -, rfl⟩ | ⟨vs, r, -, rfl, hr⟩ | ⟨fs, r, -, rfl, hr⟩ | hp
      · trivial
      · rcases hr with ⟨-, rfl⟩ | ⟨hi, -⟩
        · trivial
        · exact ihi _ _ _ hi
      · rcases hr with ⟨-, rfl⟩ | ⟨hf, -⟩
        · trivial
        · exact ihf _ _ _ hf
      · exact rounded_of_readPlain hp
    · intro cs vs rest h
      obtain ⟨v, r, hv, ⟨-, rfl⟩ | ⟨r', vs', -, hvs, rfl⟩⟩ := readItems_succ_eq_some.1 h
      · exact ⟨ihv _ _ _ hv, trivial⟩
      · exact ⟨ihv _ _ _ hv, ihi _ _ _ hvs⟩
    · intro cs fs rest h
      obtain ⟨key, v, r₀, r₁, r₂, r₃, -, -, -, hv, hend⟩ := readFields_succ_eq_some.1 h
      rcases hend with ⟨-, rfl⟩ | ⟨r₄, fs', -, hfs, rfl⟩
      · exact ⟨ihv _ _ _ hv, trivial⟩
      · exact ⟨ihv _ _ _ hv, ihf _ _ _ hfs⟩

/-- **What is read is rounded.** -/
theorem rounded_of_read? {v : Value} (h : read? cs = some v) : Rounded v := by
  obtain ⟨rest, hv, -⟩ := exists_rest h
  exact (rounded_reads _).1 _ _ _ hv

end Adventure.Json
