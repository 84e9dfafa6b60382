import Adventure.Narrative.Request
import Adventure.Text.Join
/-!
# Prompts

The two messages in which a narrator is told about an action: the standing orders, and the scene
with the check and the action.

Main definitions: `Prompt.standingOrders`, `Prompt.check` and `NarrativeRequest.messages`.

`messages` is `PromptBuilderService.buildNarrativePrompt`, `check` is its `renderResolution`, and the
texts are `GAME_MASTER_SYSTEM_PROMPT` and `DICE_RULES`.
-/

namespace Adventure.Prompt

/-! ## Standing orders -/

/-- The orders that hold for every action, with the agreed form of the answer. -/
def standingOrders : String :=
  Text.joinLines
    ["당신은 텍스트 기반 어드벤처 게임의 게임 마스터(Game Master)입니다.",
      "",
      "## 당신의 역할",
      "1. 플레이어의 행동에 대해 생생하고 몰입감 있는 서술을 제공합니다.",
      "2. 세계관에 맞는 일관된 반응을 생성합니다.",
      "3. 서버가 확정한 주사위 판정 결과를 절대 뒤집지 않습니다.",
      "",
      "## 응답 규칙",
      "- 응답은 한국어로 작성합니다.",
      "- 2인칭 시점(\"당신은...\")으로 서술합니다.",
      "- 플레이어에게 2-3개의 선택지를 제안합니다.",
      "- 반드시 아래 JSON만 출력하세요. 다른 텍스트 없이 JSON만.",
      "",
      "\x7b",
      "  \"narrative\": \"상황 서술 텍스트\",",
      "  \"options\": [\"선택지1\", \"선택지2\", \"선택지3\"],",
      "  \"state_changes\": \x7b",
      "    \"hp_change\": 0,",
      "    \"experience_gained\": 0,",
      "    \"items_gained\": [],",
      "    \"items_lost\": [],",
      "    \"location\": null,",
      "    \"npcs_met\": [],",
      "    \"discoveries\": []",
      "  \x7d,",
      "  \"dice_applied\": false",
      "\x7d",
      "",
      "## dice_applied",
      "- 전투, 위험한 시도, 설득처럼 결과가 불확실한 행동이라 주사위 판정을 서술에 반영했다면 true.",
    "- 이동, 대화, 관찰 같은 일상 행동이라 판정을 무시했다면 false."]

def checkRules : List String :=
  ["판정이 이 행동에 해당한다면 결과를 그대로 따르고 dice_applied를 true로 하세요.",
    "실패/대실패라면 목표를 이루지 못한 것으로 서술하세요. 새 장소로 이동하거나 아이템을 얻을 수 없습니다.",
    "대실패는 스스로 다치는 결과를 포함해야 합니다.",
    "대실패 자해 피해는 서버가 HP에 직접 반영합니다. 그 피해를 hp_change에 다시 넣지 마세요.",
    "대성공이라면 기대 이상의 결과를 서술할 수 있습니다.",
    "일상 행동이라 판정이 필요 없다면 판정을 무시하고 dice_applied를 false로 하세요."]

/-! ## Blocks of the scene -/

def block (heading body : String) : String := Text.joinLines [s!"[{heading}]", body]

def actionHeading : String := "플레이어 행동"

def scenario (s : Scenario) : String := block "시나리오" (Text.joinLines [s.name, s.worldSetting])

def character (c : Character) : String :=
  block "캐릭터" s!"{c.name} (Lv{c.level.text}, HP {c.hp.text}/{c.maxHp.text})"

def place (s : Session) : String := block "현재 위치" s.currentLocation

def belongings (c : Character) : String :=
  block "소지품" (if c.inventory.isEmpty then "없음" else Text.enumerate c.inventory)

def discoveries (s : Session) : List String :=
  if s.chronicle.discoveries.isEmpty then []
  else [block "발견한 것들" (Text.enumerate s.chronicle.discoveries)]

/-- The line on the damage of a check; only critical successes and fumbles have one. -/
def damageLines {ρ : Type} [CheckReport ρ] (report : ρ) : List String :=
  match CheckReport.damage report with
  | .null => []
  | d =>
    (if CheckReport.isCritical report then [s!"치명타 피해: {d.text}"] else []) ++
      (if CheckReport.isFumble report then [s!"자해 피해: {d.text} (서버가 HP에 직접 반영)"] else [])

/-- The check and the rules by which it binds the narration. -/
def check {ρ : Type} [CheckReport ρ] (report : ρ) : String :=
  block "주사위 판정 결과"
    (Text.joinLines
      (s!"{CheckReport.categoryLabel report} 판정: {CheckReport.summary report}" ::
        (damageLines report ++ checkRules.map fun rule => s!"- {rule}")))

def action (words : String) : String := block actionHeading words

def scene (q : NarrativeRequest) : String :=
  Text.joinBlocks
    ((q.scenario.map scenario).toList ++
      [character q.character, place q.session, belongings q.character] ++
      discoveries q.session ++
      [check q.resolution, action q.action])

end Adventure.Prompt

namespace Adventure.NarrativeRequest

def messages (q : NarrativeRequest) : List Message :=
  [⟨.system, .string Prompt.standingOrders⟩, ⟨.user, .string (Prompt.scene q)⟩]

end Adventure.NarrativeRequest
