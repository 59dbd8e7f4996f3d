/-!
# The starter rules

The rules of a new project. They refer to signals of the starter catalog only.
-/

namespace Telltale.Starter

/-- The lines of the starter rules. -/
def rulesLines : List String := [
  "# flagdeck starter rules",
  "#",
  "# Each rule fires its `then` actions once when it becomes true and its",
  "# `else` actions once when it becomes false. Frames a rule cannot judge",
  "# (a journal frame for a dashboard-only condition) are skipped.",
  "#",
  "# A source/event filter makes every other frame a definite \"false\", so a",
  "# filtered rule pulses: it rises on a matching frame and falls on the next",
  "# frame that does not match. Use filters for event-driven rules only.",
  "",
  "rules:",
  "  - title: Just docked",
  "    when:",
  "      all:",
  "        - \x7b signal: docking_state, eq: just_docked \x7d",
  "    then:",
  "      - \x7b type: set_flag, token: JUST_DOCKED \x7d",
  "      - \x7b type: log, message: welcome aboard \x7d",
  "    else:",
  "      - \x7b type: clear_flag, token: JUST_DOCKED \x7d",
  "",
  "  - title: Docking granted",
  "    when:",
  "      source: journal",
  "      event: DockingGranted",
  "      all:",
  "        - \x7b field: LandingPad, gt: 0 \x7d",
  "    then:",
  "      - \x7b type: emit, name: landing_pad, payload: \x7b announce: true \x7d \x7d",
  "",
  "  - title: Hardpoints deployed",
  "    when:",
  "      all:",
  "        - \x7b signal: hardpoints, eq: deployed \x7d",
  "    then:",
  "      - \x7b type: set_flag, token: HARDPOINTS \x7d",
  "    else:",
  "      - \x7b type: clear_flag, token: HARDPOINTS \x7d",
  "",
  "  - title: Landing gear down",
  "    when:",
  "      all:",
  "        - \x7b signal: landing_gear, eq: deployed \x7d",
  "        - \x7b signal: docked, eq: false \x7d",
  "    then:",
  "      - \x7b type: set_flag, token: LANDING_GEAR \x7d",
  "    else:",
  "      - \x7b type: clear_flag, token: LANDING_GEAR \x7d",
  "",
  "  - title: Danger",
  "    when:",
  "      any:",
  "        - \x7b signal: in_danger, eq: true \x7d",
  "        - \x7b signal: interdicted, eq: true \x7d",
  "        - \x7b flags: ship, any_of: [overheating, low_fuel] \x7d",
  "    then:",
  "      - \x7b type: set_flag, token: DANGER \x7d",
  "    else:",
  "      - \x7b type: clear_flag, token: DANGER \x7d",
  "",
  "  - title: Map open",
  "    when:",
  "      all:",
  "        - \x7b signal: gui_focus, in: [galaxy_map, system_map] \x7d",
  "    then:",
  "      - \x7b type: set_flag, token: MAP \x7d",
  "    else:",
  "      - \x7b type: clear_flag, token: MAP \x7d",
  "",
  "  - title: Wanted",
  "    when:",
  "      all:",
  "        - \x7b signal: legal_state, in: [wanted, warrant, hostile] \x7d",
  "    then:",
  "      - \x7b type: set_flag, token: WANTED \x7d",
  "    else:",
  "      - \x7b type: clear_flag, token: WANTED \x7d"]

/-- The document of the starter rules. -/
def rulesText : String := String.join (rulesLines.map (· ++ "\n"))

end Telltale.Starter
