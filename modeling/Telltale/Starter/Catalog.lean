/-!
# The starter catalog

The catalog of a new project, and of a session to which none is given.
-/

namespace Telltale.Starter

/-- The lines of the starter catalog. -/
def catalogLines : List String := [
  "# flagdeck signal catalog",
  "#",
  "# Each signal is derived from one frame (dashboard, journal) plus the",
  "# read-only state/capi documents and the recency index. Signal order below",
  "# is the order snapshots are reported in.",
  "",
  "version: 1",
  "",
  "flag_groups:",
  "  ship:",
  "    path: dashboard.Flags",
  "    bits:",
  "      docked: 0",
  "      landed: 1",
  "      landing_gear: 2",
  "      shields_up: 3",
  "      supercruise: 4",
  "      fa_off: 5",
  "      hardpoints: 6",
  "      in_wing: 7",
  "      lights: 8",
  "      cargo_scoop: 9",
  "      silent_running: 10",
  "      scooping_fuel: 11",
  "      srv_handbrake: 12",
  "      srv_turret: 13",
  "      srv_turret_retracted: 14",
  "      srv_drive_assist: 15",
  "      mass_locked: 16",
  "      fsd_charging: 17",
  "      fsd_cooldown: 18",
  "      low_fuel: 19",
  "      overheating: 20",
  "      has_lat_long: 21",
  "      in_danger: 22",
  "      interdicted: 23",
  "      in_main_ship: 24",
  "      in_fighter: 25",
  "      in_srv: 26",
  "      analysis_mode: 27",
  "      night_vision: 28",
  "      altitude_from_average_radius: 29",
  "      fsd_jump: 30",
  "      srv_high_beam: 31",
  "  ship2:",
  "    path: dashboard.Flags2",
  "    bits:",
  "      on_foot: 0",
  "      in_taxi: 1",
  "      in_multicrew: 2",
  "      on_foot_in_station: 3",
  "      on_foot_on_planet: 4",
  "      aim_down_sight: 5",
  "      low_oxygen: 6",
  "      low_health: 7",
  "      cold: 8",
  "      hot: 9",
  "      very_cold: 10",
  "      very_hot: 11",
  "      glide_mode: 12",
  "      on_foot_in_hangar: 13",
  "      on_foot_social_space: 14",
  "      on_foot_exterior: 15",
  "      breathable_atmosphere: 16",
  "",
  "event_categories:",
  "  docking:",
  "    - DockingRequested",
  "    - DockingGranted",
  "    - DockingDenied",
  "    - DockingCancelled",
  "    - DockingTimeout",
  "    - Docked",
  "    - Undocked",
  "  travel:",
  "    - StartJump",
  "    - FSDJump",
  "    - SupercruiseEntry",
  "    - SupercruiseExit",
  "    - ApproachBody",
  "    - LeaveBody",
  "  combat:",
  "    - Interdicted",
  "    - Interdiction",
  "    - UnderAttack",
  "    - ShieldState",
  "    - HullDamage",
  "",
  "signals:",
  "  # --- docking ---------------------------------------------------------------",
  "",
  "  - id: docking_state",
  "    type: enum",
  "    description: Where the ship is relative to a landing pad",
  "    values:",
  "      - \x7b value: in_space, label: In space \x7d",
  "      - \x7b value: docking, label: Docking \x7d",
  "      - \x7b value: just_docked, label: Just docked \x7d",
  "      - \x7b value: docked, label: Docked \x7d",
  "      - \x7b value: landed, label: Landed \x7d",
  "      - \x7b value: just_undocked, label: Just undocked \x7d",
  "    derive:",
  "      op: first_match",
  "      cases:",
  "        - when:",
  "            op: and",
  "            terms:",
  "              - \x7b op: recent, event: Docked, within_seconds: 3 \x7d",
  "              - \x7b op: bitfield, field_ref: ship, bit: docked \x7d",
  "          value: just_docked",
  "        - when: \x7b op: bitfield, field_ref: ship, bit: docked \x7d",
  "          value: docked",
  "        - when: \x7b op: bitfield, field_ref: ship, bit: landed \x7d",
  "          value: landed",
  "        - when: \x7b op: recent, event: Undocked, within_seconds: 3 \x7d",
  "          value: just_undocked",
  "        - when: \x7b op: recent, event: DockingGranted, within_seconds: 10 \x7d",
  "          value: docking",
  "      default: in_space",
  "",
  "  - id: docked",
  "    type: bool",
  "    derive: \x7b op: bitfield, field_ref: ship, bit: docked \x7d",
  "",
  "  - id: landed",
  "    type: bool",
  "    derive: \x7b op: bitfield, field_ref: ship, bit: landed \x7d",
  "",
  "  - id: docking_event",
  "    type: string",
  "    description: Name of the docking event carried by this frame, if any",
  "    derive: \x7b op: journal_event, event: \"*\", category: docking \x7d",
  "",
  "  - id: last_station",
  "    type: string",
  "    derive: \x7b op: journal_event, event: Docked, field: StationName \x7d",
  "",
  "  # --- ship systems ----------------------------------------------------------",
  "",
  "  - id: hardpoints",
  "    type: enum",
  "    values:",
  "      - \x7b value: retracted, label: Retracted \x7d",
  "      - \x7b value: deployed, label: Deployed \x7d",
  "    derive:",
  "      op: map",
  "      from: \x7b op: bitfield, field_ref: ship, bit: hardpoints \x7d",
  "      map: \x7b \"0\": retracted, \"1\": deployed \x7d",
  "",
  "  - id: landing_gear",
  "    type: enum",
  "    values:",
  "      - \x7b value: retracted, label: Retracted \x7d",
  "      - \x7b value: deployed, label: Deployed \x7d",
  "    derive:",
  "      op: map",
  "      from: \x7b op: bitfield, field_ref: ship, bit: landing_gear \x7d",
  "      map: \x7b \"0\": retracted, \"1\": deployed \x7d",
  "",
  "  - id: cargo_scoop",
  "    type: enum",
  "    values:",
  "      - \x7b value: retracted, label: Retracted \x7d",
  "      - \x7b value: deployed, label: Deployed \x7d",
  "    derive:",
  "      op: map",
  "      from: \x7b op: bitfield, field_ref: ship, bit: cargo_scoop \x7d",
  "      map: \x7b \"0\": retracted, \"1\": deployed \x7d",
  "",
  "  - id: flight_assist",
  "    type: enum",
  "    values:",
  "      - \x7b value: \"on\", label: Flight assist on \x7d",
  "      - \x7b value: \"off\", label: Flight assist off \x7d",
  "    derive:",
  "      op: map",
  "      from: \x7b op: bitfield, field_ref: ship, bit: fa_off \x7d",
  "      map: \x7b \"0\": \"on\", \"1\": \"off\" \x7d",
  "",
  "  - id: shields_up",
  "    type: bool",
  "    derive: \x7b op: bitfield, field_ref: ship, bit: shields_up \x7d",
  "",
  "  - id: lights",
  "    type: bool",
  "    derive: \x7b op: bitfield, field_ref: ship, bit: lights \x7d",
  "",
  "  - id: silent_running",
  "    type: bool",
  "    derive: \x7b op: bitfield, field_ref: ship, bit: silent_running \x7d",
  "",
  "  - id: night_vision",
  "    type: bool",
  "    derive: \x7b op: bitfield, field_ref: ship, bit: night_vision \x7d",
  "",
  "  - id: hud_mode",
  "    type: enum",
  "    values:",
  "      - \x7b value: combat, label: Combat \x7d",
  "      - \x7b value: analysis, label: Analysis \x7d",
  "    derive:",
  "      op: map",
  "      from: \x7b op: bitfield, field_ref: ship, bit: analysis_mode \x7d",
  "      map: \x7b \"0\": combat, \"1\": analysis \x7d",
  "",
  "  # --- travel ----------------------------------------------------------------",
  "",
  "  - id: supercruise",
  "    type: bool",
  "    derive: \x7b op: bitfield, field_ref: ship, bit: supercruise \x7d",
  "",
  "  - id: mass_locked",
  "    type: bool",
  "    derive: \x7b op: bitfield, field_ref: ship, bit: mass_locked \x7d",
  "",
  "  - id: fsd_state",
  "    type: enum",
  "    values:",
  "      - \x7b value: idle, label: Idle \x7d",
  "      - \x7b value: charging, label: Charging \x7d",
  "      - \x7b value: jumping, label: Jumping \x7d",
  "      - \x7b value: cooldown, label: Cooldown \x7d",
  "    derive:",
  "      op: first_match",
  "      cases:",
  "        - when: \x7b op: bitfield, field_ref: ship, bit: fsd_jump \x7d",
  "          value: jumping",
  "        - when: \x7b op: bitfield, field_ref: ship, bit: fsd_charging \x7d",
  "          value: charging",
  "        - when: \x7b op: bitfield, field_ref: ship, bit: fsd_cooldown \x7d",
  "          value: cooldown",
  "      default: idle",
  "",
  "  - id: just_jumped",
  "    type: bool",
  "    derive: \x7b op: recent, event: FSDJump, within_seconds: 5 \x7d",
  "",
  "  - id: travel_event",
  "    type: string",
  "    derive: \x7b op: journal_event, event: \"*\", category: travel \x7d",
  "",
  "  - id: system",
  "    type: string",
  "    description: Current star system from persisted state",
  "    derive: \x7b op: path, path: state.StarSystem \x7d",
  "",
  "  # --- hazards ---------------------------------------------------------------",
  "",
  "  - id: fuel_low",
  "    type: bool",
  "    derive: \x7b op: bitfield, field_ref: ship, bit: low_fuel \x7d",
  "",
  "  - id: overheating",
  "    type: bool",
  "    derive: \x7b op: bitfield, field_ref: ship, bit: overheating \x7d",
  "",
  "  - id: in_danger",
  "    type: bool",
  "    derive: \x7b op: bitfield, field_ref: ship, bit: in_danger \x7d",
  "",
  "  - id: interdicted",
  "    type: bool",
  "    derive:",
  "      op: or",
  "      terms:",
  "        - \x7b op: bitfield, field_ref: ship, bit: interdicted \x7d",
  "        - \x7b op: recent, event: Interdicted, within_seconds: 5 \x7d",
  "",
  "  - id: combat_ready",
  "    type: bool",
  "    derive:",
  "      op: and",
  "      terms:",
  "        - \x7b op: bitfield, field_ref: ship, bit: hardpoints \x7d",
  "        - op: not",
  "          term: \x7b op: bitfield, field_ref: ship, bit: docked \x7d",
  "",
  "  - id: legal_state",
  "    type: enum",
  "    values:",
  "      - \x7b value: clean, label: Clean \x7d",
  "      - \x7b value: illegal_cargo, label: Illegal cargo \x7d",
  "      - \x7b value: speeding, label: Speeding \x7d",
  "      - \x7b value: wanted, label: Wanted \x7d",
  "      - \x7b value: hostile, label: Hostile \x7d",
  "      - \x7b value: passenger_wanted, label: Passenger wanted \x7d",
  "      - \x7b value: warrant, label: Warrant \x7d",
  "    derive:",
  "      op: map",
  "      from: \x7b op: path, path: dashboard.LegalState \x7d",
  "      map:",
  "        Clean: clean",
  "        IllegalCargo: illegal_cargo",
  "        Speeding: speeding",
  "        Wanted: wanted",
  "        Hostile: hostile",
  "        PassengerWanted: passenger_wanted",
  "        Warrant: warrant",
  "",
  "  # --- vehicle and focus -----------------------------------------------------",
  "",
  "  - id: vehicle",
  "    type: enum",
  "    values:",
  "      - \x7b value: ship, label: Ship \x7d",
  "      - \x7b value: fighter, label: Fighter \x7d",
  "      - \x7b value: srv, label: SRV \x7d",
  "      - \x7b value: on_foot, label: On foot \x7d",
  "    derive:",
  "      op: first_match",
  "      cases:",
  "        - when: \x7b op: bitfield, field_ref: ship2, bit: on_foot \x7d",
  "          value: on_foot",
  "        - when: \x7b op: bitfield, field_ref: ship, bit: in_srv \x7d",
  "          value: srv",
  "        - when: \x7b op: bitfield, field_ref: ship, bit: in_fighter \x7d",
  "          value: fighter",
  "        - when: \x7b op: bitfield, field_ref: ship, bit: in_main_ship \x7d",
  "          value: ship",
  "",
  "  - id: on_foot",
  "    type: bool",
  "    derive: \x7b op: bitfield, field_ref: ship2, bit: on_foot \x7d",
  "",
  "  - id: gui_focus",
  "    type: enum",
  "    values:",
  "      - \x7b value: none, label: No focus \x7d",
  "      - \x7b value: internal_panel, label: Internal panel \x7d",
  "      - \x7b value: external_panel, label: External panel \x7d",
  "      - \x7b value: comms_panel, label: Comms panel \x7d",
  "      - \x7b value: role_panel, label: Role panel \x7d",
  "      - \x7b value: station_services, label: Station services \x7d",
  "      - \x7b value: galaxy_map, label: Galaxy map \x7d",
  "      - \x7b value: system_map, label: System map \x7d",
  "      - \x7b value: orrery, label: Orrery \x7d",
  "      - \x7b value: fss, label: Full spectrum scanner \x7d",
  "      - \x7b value: saa, label: Surface scanner \x7d",
  "      - \x7b value: codex, label: Codex \x7d",
  "    derive:",
  "      op: map",
  "      from: \x7b op: path, path: dashboard.GuiFocus \x7d",
  "      map:",
  "        \"0\": none",
  "        \"1\": internal_panel",
  "        \"2\": external_panel",
  "        \"3\": comms_panel",
  "        \"4\": role_panel",
  "        \"5\": station_services",
  "        \"6\": galaxy_map",
  "        \"7\": system_map",
  "        \"8\": orrery",
  "        \"9\": fss",
  "        \"10\": saa",
  "        \"11\": codex",
  "",
  "  # --- numbers ---------------------------------------------------------------",
  "",
  "  - id: cargo",
  "    type: number",
  "    derive: \x7b op: path, path: dashboard.Cargo \x7d",
  "",
  "  - id: fuel_main",
  "    type: number",
  "    derive: \x7b op: path, path: dashboard.Fuel.FuelMain \x7d",
  "",
  "  - id: fire_group",
  "    type: number",
  "    derive: \x7b op: path, path: dashboard.FireGroup \x7d",
  "",
  "  - id: credits",
  "    type: number",
  "    description: Commander balance from the last external API snapshot",
  "    derive: \x7b op: path, path: capi.commander.credits \x7d",
  "",
  "  - id: pips",
  "    type: array",
  "    description: \"[sys, eng, wep] power distribution in half-pips\"",
  "    derive: \x7b op: path, path: dashboard.Pips \x7d"]

/-- The document of the starter catalog. -/
def catalogText : String := String.join (catalogLines.map (· ++ "\n"))

end Telltale.Starter
