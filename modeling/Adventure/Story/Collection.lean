/-!
# Collections

Lists of things without repetition, in the order in which they came.

Main statements: what a collection holds after gains and losses (`mem_gain`, `mem_lose`), that gains
can be split (`gain_append`) and repeat nothing (`nodup_gain`).
-/

namespace Adventure.Collection

/-- Puts a thing at the end, unless it is there already. -/
def gainOne (things : List String) (thing : String) : List String :=
  if thing ∈ things then things else things ++ [thing]

/-- Puts things at the end, one after the other. -/
def gain (things new : List String) : List String := new.foldl gainOne things

/-- Takes away every occurrence of some things. -/
def lose (things lost : List String) : List String := things.filter fun t => t ∉ lost

/-! ## What a collection holds -/

theorem mem_gainOne {things : List String} {thing x : String} :
    x ∈ gainOne things thing ↔ x ∈ things ∨ x = thing := by
  unfold gainOne
  split
  · rename_i h
    constructor
    · exact Or.inl
    · rintro (hx | rfl)
      · exact hx
      · exact h
  · simp

@[simp] theorem gain_nil (things : List String) : gain things [] = things := rfl

@[simp] theorem gain_cons (things new : List String) (thing : String) :
    gain things (thing :: new) = gain (gainOne things thing) new := rfl

/-- Gains can be split at any point. -/
theorem gain_append (things a b : List String) :
    gain things (a ++ b) = gain (gain things a) b := by
  simp [gain, List.foldl_append]

theorem mem_gain {things new : List String} {x : String} :
    x ∈ gain things new ↔ x ∈ things ∨ x ∈ new := by
  induction new generalizing things with
  | nil => simp
  | cons thing rest ih => simp [ih, mem_gainOne, or_assoc]

@[simp] theorem mem_lose {things lost : List String} {x : String} :
    x ∈ lose things lost ↔ x ∈ things ∧ x ∉ lost := by
  simp [lose]

@[simp] theorem lose_nil (things : List String) : lose things [] = things := by
  simp [lose]

/-! ## Repetition and order -/

theorem nodup_gainOne {things : List String} (h : things.Nodup) (thing : String) :
    (gainOne things thing).Nodup := by
  unfold gainOne
  split
  · exact h
  · rename_i hn
    refine List.nodup_append.2 ⟨h, by simp, fun a ha b hb e => hn ?_⟩
    rw [List.mem_singleton.1 hb] at e
    exact e ▸ ha

/-- Gains bring no repetition into a collection. -/
theorem nodup_gain {things : List String} (h : things.Nodup) (new : List String) :
    (gain things new).Nodup := by
  induction new generalizing things with
  | nil => exact h
  | cons thing rest ih => exact ih (nodup_gainOne h thing)

/-- Losses keep the order of what stays. -/
theorem lose_sublist (things lost : List String) : (lose things lost).Sublist things :=
  List.filter_sublist

end Adventure.Collection
