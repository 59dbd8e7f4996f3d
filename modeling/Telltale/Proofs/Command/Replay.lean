import Telltale.Proofs.Catalog.Accepted
import Telltale.Proofs.Command.Looks
import Telltale.Proofs.Replay.Isolation

/-!
# What a replay prints

A project that can be loaded, with a log every line of which can be read, is replayed into a report.
What the report says of an actor depends on the lines of that actor alone.

* `Command.Loads` — a project is loaded from a disk into a configuration and a session.
* `Command.result_replay` — what `replay` prints then.
* `LogLine.givenBy_of_ofText?` — the documents that a line gives are those that are not null.
* `Command.replay_keeps_actors_apart` — a log, and the same log in which lines of other actors are
  blank, bring an actor the same.
-/

namespace Telltale

/-! ## Documents of a line -/

/-- A record gives a document under a name: it has that field, and it is not null. -/
def Record.Gives (r : Record) (name : String) (v : Json) : Prop :=
  ∃ d, r.lookup name = some d ∧ d ≠ .null ∧ d.toJson? = some v

theorem Record.eq_some_iff_gives {r : Record} {name : String} {document : Option Json}
    (h : r.optional? name Datum.toJson? = some document) (v : Json) :
    document = some v ↔ r.Gives name v := by
  unfold optional? at h
  unfold Gives
  split at h
  · next hlookup =>
    cases h
    simp [hlookup]
  · next hlookup =>
    cases h
    simp [hlookup]
  · next d hnull hlookup =>
    obtain ⟨w, hw, rfl⟩ := Option.map_eq_some_iff.mp h
    rw [hlookup]
    constructor
    · intro heq
      cases heq
      exact ⟨d, rfl, hnull, hw⟩
    · rintro ⟨d', heq, -, hv⟩
      cases heq
      exact hw.symm.trans hv

/-- The fields of a line that are read. -/
def LogLine.fieldNames : List String :=
  ["actor", "state", "capi", "source", "event", "timestamp", "data"]

/-- The documents of an entry are those that its line gives. -/
def LogLine.GivenBy (entry : LogLine) (line : String) : Prop :=
  ∃ fields r, Datum.ofJsonText? line = some (.mapping fields) ∧
    Datum.fields? fieldNames false fields = some r ∧
    (∀ v, entry.externals.state = some v ↔ r.Gives "state" v) ∧
    ∀ v, entry.externals.capi = some v ↔ r.Gives "capi" v

theorem LogLine.givenBy_of_ofText? {line : String} {entry : LogLine}
    (h : LogLine.ofText? line = some entry) : entry.GivenBy line := by
  obtain ⟨d, hd, h⟩ := Option.bind_eq_some_iff.mp h
  unfold ofDatum? at h
  split at h
  · next fields =>
    split at h
    · cases h
    · obtain ⟨r, hr, h⟩ := Option.bind_eq_some_iff.mp h
      obtain ⟨actor, -, h⟩ := Option.bind_eq_some_iff.mp h
      obtain ⟨state, hstate, h⟩ := Option.bind_eq_some_iff.mp h
      obtain ⟨capi, hcapi, h⟩ := Option.bind_eq_some_iff.mp h
      obtain ⟨frame, -, h⟩ := Option.bind_eq_some_iff.mp h
      cases h
      exact ⟨fields, r, hd, hr, Record.eq_some_iff_gives hstate, Record.eq_some_iff_gives hcapi⟩
  · cases h

namespace Command

/-! ## Replays -/

/-- A project is loaded from a disk. -/
structure Loads (root : String) (d : Disk) (config : Config) (session : Session) : Prop where
  configured : ((configOrDefault root : Run (StateM Disk) Config).onDisk "" d).1.1 = .ok config
  started : ((sessionOf root config : Run (StateM Disk) Session).onDisk "" d).1.1 = .ok session

variable {root path : String} {actor : Option String} {d : Disk} {config : Config}
  {session : Session} {text : String}

theorem Loads.sound (h : Loads root d config session) : session.Sound := by
  obtain ⟨deriver, rules, window, rfl⟩ := exists_start_of_sessionOf h.started
  exact Session.sound_start deriver rules window

theorem result_eq (asJson : Bool) (c : Command) (d : Disk) :
    (result root asJson c : StateM Disk _).run d =
      match (c.run root asJson : Run (StateM Disk) Unit).onDisk "" d with
      | ((.ok (), printed), d') => ((printed, none), d')
      | ((.error fault, printed), d') => ((printed, some fault), d') := by
  unfold result Run.onDisk
  rw [StateT.run_bind]
  generalize StateT.run (StateT.run (ExceptT.run
    (c.run root asJson : Run (StateM Disk) Unit)) "") d = outcome
  obtain ⟨⟨result, printed⟩, d'⟩ := outcome
  cases result <;> rfl

/-- A value is printed after what is printed before. -/
theorem onDisk_showReplay (printed : String) (d : Disk) (r : Replay) {log : Log}
    (h : log.malformed = none) :
    (showReplay true path r log : Run (StateM Disk) Unit).onDisk printed d =
      ((.ok (), printed ++ (r.toJson.pretty ++ "\n")), d) := by
  unfold showReplay
  rw [h]
  rfl

/-- The lines of a file are there once it is opened. -/
theorem onDisk_readLines {bytes : ByteArray} (h : d.readBytes path = .ok bytes)
    (fault : FileFault → Fault) (printed : String) :
    (Run.attempt fault
      (FileSystem.readLines path : ExceptT FileFault (StateM Disk) _)).onDisk printed d =
        ((.ok (Bytes.lines bytes), printed), d) := by
  rw [Run.onDisk_attempt]
  show (((FileSystem.linesOf (d.readBytes path)).mapError fault, printed), d) = _
  rw [h]
  rfl

/-- The replay of a log that can be read prints its report. -/
theorem result_replay (h : Loads root d config session) (htext : d.read path = .ok text)
    (hlog : (Log.ofText text).malformed = none) :
    (result root true (.replay path actor) : StateM Disk _).run d =
      (((Replay.after (actor.getD config.defaultActor) session
        (Log.ofText text).entries).toJson.pretty ++ "\n", none), d) := by
  have hlines : Log.ofLines 1 (Bytes.lines text.toUTF8) = Log.ofText text :=
    congrArg (Log.ofLines 1) (Log.lines_toUTF8 text)
  rw [result_eq]
  show (match (runReplay root true path actor : Run (StateM Disk) Unit).onDisk "" d with
    | ((.ok (), printed), d') => ((printed, none), d')
    | ((.error fault, printed), d') => ((printed, some fault), d')) = _
  unfold runReplay
  rw [(onlyLooks_configOrDefault root).onDisk_bind h.configured,
    (onlyLooks_sessionOf root config).onDisk_bind h.started, Run.onDisk_bind,
    onDisk_readLines (Disk.read_eq_ok_iff.mp htext)]
  dsimp only
  rw [hlines, onDisk_showReplay _ _ _ hlog, String.empty_append, Replay.run_eq_after]

/-- **A replay keeps actors apart.** Take a project with a log all of whose lines can be read, and
again with a log in which lines of actors other than `A` have become blank. Both replays print a
report, and the two reports list the same batches and the same flags of `A`. Every line is taken in
with the last documents that the lines of its actor give up to it, and a line gives those that are
not null. -/
theorem replay_keeps_actors_apart {root : String} (path path' : String) (actor : Option String)
    {d d' : Disk} {config : Config} {session : Session} {text text' A : String}
    (hproject : Loads root d config session) (hproject' : Loads root d' config session)
    (htext : d.read path = .ok text) (htext' : d'.read path' = .ok text')
    (hlog : (Log.ofText text).malformed = none)
    (hblanked : List.Forall₂ (Log.Blanked (actor.getD config.defaultActor) A)
      (Log.pieces [] text.toList) (Log.pieces [] text'.toList)) :
    let defaultActor := actor.getD config.defaultActor
    let report := (Replay.after defaultActor session (Log.ofText text).entries).toJson
    let report' := (Replay.after defaultActor session (Log.ofText text').entries).toJson
    (result root true (.replay path actor) : StateM Disk _).run d =
      ((report.pretty ++ "\n", none), d) ∧
    (result root true (.replay path' actor) : StateM Disk _).run d' =
      ((report'.pretty ++ "\n", none), d') ∧
    Replay.reportedBatches report' A = Replay.reportedBatches report A ∧
    Replay.reportedFlags report' A = Replay.reportedFlags report A ∧
    (∀ before line later, (Log.ofText text).entries = before ++ line :: later →
      Replay.TakesIn defaultActor line
        (Log.documents defaultActor (line.2.actorOr defaultActor) (before ++ [line]))
        (Replay.after defaultActor session before)
        (Replay.after defaultActor session (before ++ [line]))) ∧
    ∀ line ∈ Log.pieces [] text.toList, ∀ entry, LogLine.ofText? line = some entry →
      entry.GivenBy line := by
  intro defaultActor report report'
  obtain ⟨hlog', hlines⟩ := Log.ofText_blanked hblanked hlog
  obtain ⟨hbatches, hflags⟩ := (Replay.alike_after defaultActor hproject.sound hlines).reported
  exact ⟨result_replay hproject htext hlog, result_replay hproject' htext' hlog', hbatches, hflags,
    fun before line _ _ => Replay.takesIn_after session before line,
    fun line _ entry hentry => LogLine.givenBy_of_ofText? hentry⟩

/-- A line of an actor that is docked. -/
def dockedLine : String :=
  "\x7b\"actor\":\"a\",\"source\":\"journal\",\"timestamp\":\"2026-03-01T12:00:00Z\"," ++
    "\"state\":\x7b\"docked\":true\x7d\x7d"

/-- A line of the default actor. -/
def undockedLine : String :=
  "\x7b\"source\":\"journal\",\"timestamp\":\"2026-03-01T12:00:01Z\",\"state\":\x7b\x7d\x7d"

/-- A log with both lines. -/
def bothLines : String := dockedLine ++ "\n" ++ undockedLine ++ "\n"

/-- The log in which the line of the default actor is blank. -/
def oneLine : String := dockedLine ++ "\n \n"

/-- A project with one rule, and the two logs. -/
def wharf : Disk where
  items := [
    (["wharf"], .directory),
    (["wharf", "flagdeck.yaml"], .textFile "catalog: c.yaml\n"),
    (["wharf", "c.yaml"], .textFile "signals: []\n"),
    (["wharf", "rules.yaml"], .textFile ("rules:\n- title: Docked\n  when:\n    all:\n" ++
      "    - field: state.docked\n      eq: true\n  then:\n  - type: set_flag\n    token: D\n")),
    (["both"], .textFile bothLines),
    (["one"], .textFile oneLine)]

theorem replay_keeps_actors_apart_wharf :
    ∃ config session report report', Loads "/wharf" wharf config session ∧
      (result "/wharf" true (.replay "/both" none) : StateM Disk _).run wharf =
        ((report.pretty ++ "\n", none), wharf) ∧
      (result "/wharf" true (.replay "/one" none) : StateM Disk _).run wharf =
        ((report'.pretty ++ "\n", none), wharf) ∧
      (Replay.reportedBatches report "a").length = 1 ∧
      Replay.reportedBatches report' "a" = Replay.reportedBatches report "a" ∧
      Replay.reportedFlags report' "a" = Replay.reportedFlags report "a" := by
  have hloads : (((configOrDefault "/wharf" : Run (StateM Disk) Config).onDisk ""
      wharf).1.1.toOption.any fun config => decide (config.defaultActor = "default") &&
        ((sessionOf "/wharf" config : Run (StateM Disk) Session).onDisk "" wharf).1.1.toOption.any
          fun session => decide ((Replay.reportedBatches (Replay.after "default" session
            (Log.ofText bothLines).entries).toJson "a").length = 1)) = true := by decide +kernel
  obtain ⟨config, hconfig, hloads⟩ := exists_of_any_toOption hloads
  obtain ⟨hdefault, hloads⟩ := Bool.and_eq_true_iff.mp hloads
  obtain ⟨session, hsession, hcount⟩ := exists_of_any_toOption hloads
  rw [decide_eq_true_eq] at hdefault hcount
  have hlog : (Log.ofText bothLines).malformed = none := by decide +kernel
  have hline : (LogLine.ofText? undockedLine).any
      (fun entry => entry.actorOr "default" != "a") = true := by decide +kernel
  obtain ⟨entry, hentry, hother⟩ := (Option.any_eq_true _ _).mp hline
  have hblanked : List.Forall₂ (Log.Blanked config.defaultActor "a")
      (Log.pieces [] bothLines.toList) (Log.pieces [] oneLine.toList) := by
    have hpieces : Log.pieces [] bothLines.toList = [dockedLine, undockedLine, ""] := by
      decide +kernel
    have hpieces' : Log.pieces [] oneLine.toList = [dockedLine, " ", ""] := by decide +kernel
    rw [hpieces, hpieces', hdefault]
    have hblank : Log.Blanked "default" "a" undockedLine " " :=
      .other hentry (by simpa using hother) rfl
    exact .cons (.same _) (.cons hblank (.cons (.same _) .nil))
  have hproject : Loads "/wharf" wharf config session := ⟨hconfig, hsession⟩
  have hboth : wharf.read "/both" = .ok bothLines := Disk.read_eq_ok_iff.mpr (by decide +kernel)
  have hone : wharf.read "/one" = .ok oneLine := Disk.read_eq_ok_iff.mpr (by decide +kernel)
  obtain ⟨hprinted, hprinted', hbatches, hflags, -⟩ :=
    replay_keeps_actors_apart "/both" "/one" none hproject hproject hboth hone hlog hblanked
  refine ⟨config, session, _, _, hproject, hprinted, hprinted', ?_, hbatches, hflags⟩
  rw [show (none : Option String).getD config.defaultActor = _ from hdefault]
  exact hcount

end Command

end Telltale
