import Adventure.Json.Value
import Adventure.Text.Search
/-!
# Categories of checks

What kind of action a check is about.  The category colours the narration and never changes a
number.  A free text is classified by the first list of keywords of which it contains one.

`classify` is `classifyAction`, with `keywords` for its rules and `fallback` for
`DEFAULT_CHECK_CATEGORY`; `ofValue?` is `isCheckCategory`, and `label` is what `renderResolution`
writes.
-/

namespace Adventure

inductive Category where
  | combat
  | skill
  | social
  | exploration
deriving DecidableEq

namespace Category

def name : Category → String
  | combat => "COMBAT"
  | skill => "SKILL"
  | social => "SOCIAL"
  | exploration => "EXPLORATION"

/-- The name that narrators are shown. -/
def label : Category → String
  | combat => "전투"
  | skill => "기술"
  | social => "사교"
  | exploration => "탐험"

def all : List Category := [combat, skill, social, exploration]

def ofName? (s : String) : Option Category := all.find? fun c => c.name == s

/-- The category that a value names; only texts name categories. -/
def ofValue? : Value → Option Category
  | .string s => ofName? s
  | _ => none

/-! ## Classification -/

/-- The keywords of the categories, in the order in which they are tried. -/
def keywords : List (Category × List String) :=
  [(combat, ["공격", "베어", "찌르", "때리", "쏜다", "싸우", "attack", "fight", "strike", "shoot"]),
    (social, ["설득", "협상", "위협", "속이", "대화", "persuade", "negotiate", "threaten", "deceive"]),
    (exploration, ["탐색", "조사", "살펴", "이동", "들어가", "explore", "search", "investigate", "enter"])]

def fallback : Category := skill

def classify (action : String) : Category :=
  ((keywords.find? fun entry => entry.2.any (Text.mentions action)).map Prod.fst).getD fallback

end Category

end Adventure
