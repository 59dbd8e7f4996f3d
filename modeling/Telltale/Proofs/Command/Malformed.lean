import Telltale.Proofs.Catalog.Combiners
import Telltale.Proofs.Command.Replay

/-!
# Replays that are cut short

A log is replayed up to its first malformed line, which may be one that cannot even be read. The
replay fails there, and what it has printed is what the lines before print when they are replayed
alone.

* `Log.FirstMalformed` — the first line of a file that is neither blank nor a frame.
* `Log.head` — the first lines of a file, as they stand there.
* `Command.stream` — lines are read, replayed and printed one by one. `Command.runReplay_eq` says
  that a replay, which prints the batches of all lines together, comes to the same.
* `Command.stream_append` — the lines before are replayed as if nothing followed.
* `Command.Ready` — what has to be right before a log is read. `Command.ready_or_refused` says that
  there is nothing else, and that the log makes no difference until then.
* `Command.malformed_line_cuts_replay` — the replay of a log with a malformed line, next to that of
  the lines before it.
-/

namespace Telltale

/-! ## Logs -/

namespace Log

/-- The first lines of a file, as they stand there. -/
def head (n : Nat) (bytes : ByteArray) : ByteArray :=
  ((Bytes.rows bytes).take n).flatten.toByteArray

/-- They are the beginning of the file. -/
theorem exists_head_append (n : Nat) (bytes : ByteArray) :
    ∃ rest, bytes = head n bytes ++ rest := by
  refine ⟨((Bytes.rows bytes).drop n).flatten.toByteArray, ?_⟩
  rw [head, ← List.toByteArray_append, ← List.flatten_append, List.take_append_drop, Bytes.rows,
    flatten_rows]
  exact ByteArray.ext (Array.toList_inj.mp List.toList_data_toByteArray.symm)

/-- The first lines of a file, alone, have the same lines. -/
theorem lines_head (n : Nat) (bytes : ByteArray) :
    Bytes.lines (head n bytes) = (Bytes.lines bytes).take n := by
  have hrows : Bytes.rows (head n bytes) = (Bytes.rows bytes).take n := by
    rw [Bytes.rows, head, List.toList_data_toByteArray]
    exact rows_flatten_take n _
  rw [Bytes.lines, hrows, List.map_take]
  rfl

/-- A line that does not end a log: it is blank, or it is a frame. -/
inductive Readable : Except FileFault String → Prop
  | blank {line : String} (h : Text.isBlankText line = true) : Readable (.ok line)
  | frame {line : String} {entry : LogLine} (h : LogLine.ofText? line = some entry) :
    Readable (.ok line)

/-- A line that ends a log, with what is wrong with it. -/
inductive Malformed : Except FileFault String → LineFault → Prop
  | notFrame {line : String} (hblank : ¬ Text.isBlankText line = true)
    (h : LogLine.ofText? line = none) : Malformed (.ok line) .notFrame
  | unreadable (cause : FileFault) : Malformed (.error cause) (.unreadable cause)

/-- The number of the first line that is malformed, with what is wrong with it. -/
def FirstMalformed (bytes : ByteArray) (number : Nat) (fault : LineFault) : Prop :=
  ∃ before line after, Bytes.lines bytes = before ++ line :: after ∧ number = before.length + 1 ∧
    (∀ l ∈ before, Readable l) ∧ Malformed line fault

/-- A line is blank, or malformed, or a frame. -/
theorem line_cases (line : Except FileFault String) :
    (∃ text, line = .ok text ∧ Text.isBlankText text = true) ∨ (∃ fault, Malformed line fault) ∨
    ∃ text entry, line = .ok text ∧ ¬ Text.isBlankText text = true ∧
      LogLine.ofText? text = some entry := by
  cases line with
  | error cause => exact .inr (.inl ⟨_, .unreadable cause⟩)
  | ok text =>
    by_cases hblank : Text.isBlankText text = true
    · exact .inl ⟨text, rfl, hblank⟩
    · cases hentry : LogLine.ofText? text with
      | none => exact .inr (.inl ⟨_, .notFrame hblank hentry⟩)
      | some entry => exact .inr (.inr ⟨text, entry, rfl, hblank, hentry⟩)

variable {line : Except FileFault String} {lines rest : List (Except FileFault String)}
  {number : Nat}

theorem Malformed.not_readable {fault : LineFault} (h : Malformed line fault) :
    ¬ Readable line := by
  intro hline
  cases h with
  | notFrame hblank hnone =>
    cases hline with
    | blank h => exact hblank h
    | frame h => cases hnone.symm.trans h
  | unreadable cause => cases hline

theorem ofLines_cons_of_malformed {fault : LineFault} (h : Malformed line fault) :
    ofLines number (line :: rest) = ⟨[], some (number, fault)⟩ := by
  cases h with
  | notFrame hblank hnone => exact ofLines_cons_of_none hblank hnone
  | unreadable cause => rfl

/-- A log can be read if every line can. -/
theorem malformed_eq_none (h : ∀ l ∈ lines, Readable l) (number : Nat) :
    (ofLines number lines).malformed = none := by
  induction lines generalizing number with
  | nil => rfl
  | cons line rest ih =>
    obtain ⟨hline, hrest⟩ := List.forall_mem_cons.mp h
    rcases line_cases line with ⟨text, rfl, hblank⟩ | ⟨fault, hmalformed⟩ |
      ⟨text, entry, rfl, hblank, hentry⟩
    · rw [ofLines_cons_of_blank hblank]
      exact ih hrest _
    · exact absurd hline hmalformed.not_readable
    · rw [ofLines_cons_of_some hblank hentry]
      exact ih hrest _

/-- The lines of a log are numbered from the first one on. -/
theorem number_lt_of_mem_entries {entry : Nat × LogLine}
    (h : entry ∈ (ofLines number lines).entries) : entry.1 < number + lines.length := by
  induction lines generalizing number with
  | nil => cases h
  | cons first rest ih =>
    rw [List.length_cons, Nat.add_comm rest.length, ← Nat.add_assoc]
    rcases line_cases first with ⟨text, rfl, hblank⟩ | ⟨fault, hmalformed⟩ |
      ⟨text, frame, rfl, hblank, hframe⟩
    · rw [ofLines_cons_of_blank hblank] at h
      exact ih h
    · rw [ofLines_cons_of_malformed hmalformed] at h
      cases h
    · rw [ofLines_cons_of_some hblank hframe, List.mem_cons] at h
      rcases h with rfl | h
      · exact Nat.lt_of_lt_of_le (Nat.lt_succ_self _) (Nat.le_add_right _ _)
      · exact ih h

end Log

/-! ## Replays -/

namespace Replay

/-- A batch that was there, or that a line of the log brought. -/
theorem line_of_mem_firings_run {defaultActor : String} {r : Replay} {log : Log} {f : Firing}
    (hf : f ∈ (run defaultActor r log).firings) :
    f ∈ r.firings ∨ ∃ line ∈ log.entries, f.line = line.1 := by
  unfold run at hf
  generalize log.entries = entries at hf ⊢
  induction entries generalizing r with
  | nil => exact .inl hf
  | cons line rest ih =>
    rcases ih hf with hf | ⟨line', hline', hf⟩
    · rw [step_eq, List.mem_append] at hf
      rcases hf with hf | hf
      · exact .inl hf
      · obtain ⟨b, -, rfl⟩ := List.mem_map.mp hf
        exact .inr ⟨line, List.mem_cons_self, rfl⟩
    · exact .inr ⟨line', List.mem_cons_of_mem _ hline', hf⟩

theorem firingLines_step (defaultActor : String) (r : Replay) (line : Nat × LogLine) :
    (r.step defaultActor line).firingLines =
      r.firingLines ++ Text.lines ((r.firingsAt defaultActor line).map Firing.text) := by
  rw [step_eq]
  unfold firingLines Text.lines
  rw [List.map_append, List.map_append, String.join_append]

end Replay

namespace Run

variable {m : Type → Type} [Monad m] [LawfulMonad m]

theorem run_print (s printed : String) :
    (print s : Run m Unit).run.run printed = pure (.ok (), printed ++ s) := by
  show (Except.ok <$> (modifyGet fun x => ((), x ++ s) : StateT String m Unit)).run printed = _
  rw [StateT.run_map, StateT.run_modifyGet, map_pure]

theorem print_print (s t : String) : (do print s; print t) = (print (s ++ t) : Run m Unit) := by
  refine ExceptT.ext (StateT.ext fun printed => ?_)
  rw [ExceptT.run_bind, StateT.run_bind, run_print, pure_bind, run_print, run_print,
    String.append_assoc]

theorem print_empty : print "" = (pure () : Run m Unit) := by
  refine ExceptT.ext (StateT.ext fun printed => ?_)
  rw [run_print, String.append_empty]
  rfl

/-- Nothing follows a failure. -/
theorem throw_bind (e : Fault) (f : α → Run m β) : (throw e >>= f) = throw e := by
  refine ExceptT.ext ?_
  rw [ExceptT.run_bind, ExceptT.run_throw, pure_bind]
  rfl

/-- A look that fails has nothing behind it. -/
theorem OnlyLooks.onDisk_bind_of_error {x : Run (StateM Disk) α} (hx : OnlyLooks x)
    {printed : String} {d : Disk} {fault : Fault} (h : (x.onDisk printed d).1.1 = .error fault)
    (f : α → Run (StateM Disk) β) :
    (x >>= f).onDisk printed d = ((.error fault, printed), d) := by
  rw [Run.onDisk_bind, hx.onDisk_eq h]

end Run

namespace Command

section Stream

variable {m : Type → Type} [Monad m] {asJson : Bool} {path defaultActor : String} {number : Nat}
  {r : Replay}

/-- Takes in lines that are counted from a number. Each of them is read and replayed, and what it
brings is printed, before the next one is read. -/
def stream (asJson : Bool) (path defaultActor : String) :
    Nat → Replay → List (Except FileFault String) → Run m Replay
  | _, r, [] => pure r
  | number, _, .error cause :: _ => throw (lineFault path number (.unreadable cause))
  | number, r, .ok line :: rest =>
    if Text.isBlankText line then stream asJson path defaultActor (number + 1) r rest
    else
      match LogLine.ofText? line with
      | none => throw (lineFault path number .notFrame)
      | some entry => do
        let brought := r.firingsAt defaultActor (number, entry)
        Run.print (if asJson then "" else Text.lines (brought.map Firing.text))
        stream asJson path defaultActor (number + 1) (r.step defaultActor (number, entry)) rest

/-- What is printed of a replay while the log is read. -/
def shown (asJson : Bool) (r : Replay) : String := if asJson then "" else r.firingLines

theorem shown_start (s : Session) : shown asJson (.start s) = "" := by
  cases asJson <;> rfl

theorem shown_step (line : Nat × LogLine) :
    shown asJson (r.step defaultActor line) =
      shown asJson r ++
        if asJson then "" else Text.lines ((r.firingsAt defaultActor line).map Firing.text) := by
  unfold shown
  cases asJson with
  | true => rfl
  | false => exact r.firingLines_step defaultActor line

variable {line : String} {rest : List (Except FileFault String)}

theorem stream_cons_of_blank (h : Text.isBlankText line = true) :
    (stream asJson path defaultActor number r (.ok line :: rest) : Run m Replay) =
      stream asJson path defaultActor (number + 1) r rest := by
  rw [stream, if_pos h]

theorem stream_cons_of_malformed {line : Except FileFault String} {fault : LineFault}
    (h : Log.Malformed line fault) :
    (stream asJson path defaultActor number r (line :: rest) : Run m Replay) =
      throw (lineFault path number fault) := by
  cases h with
  | notFrame hblank hnone => rw [stream, if_neg hblank, hnone]
  | unreadable cause => rfl

theorem stream_cons_of_some {entry : LogLine} (hblank : ¬ Text.isBlankText line = true)
    (h : LogLine.ofText? line = some entry) :
    (stream asJson path defaultActor number r (.ok line :: rest) : Run m Replay) = (do
      Run.print (if asJson then ""
        else Text.lines ((r.firingsAt defaultActor (number, entry)).map Firing.text))
      stream asJson path defaultActor (number + 1) (r.step defaultActor (number, entry)) rest) := by
  rw [stream, if_neg hblank, h]

variable [LawfulMonad m]

/-- The lines before are replayed as if nothing followed. -/
theorem stream_append (before after : List (Except FileFault String)) :
    (stream asJson path defaultActor number r (before ++ after) : Run m Replay) = (do
      let r' ← stream asJson path defaultActor number r before
      stream asJson path defaultActor (number + before.length) r' after) := by
  induction before generalizing number r with
  | nil => rw [List.nil_append, stream, pure_bind, List.length_nil, Nat.add_zero]
  | cons line rest ih =>
    rw [List.cons_append, List.length_cons, Nat.add_comm rest.length, ← Nat.add_assoc]
    rcases Log.line_cases line with ⟨text, rfl, hblank⟩ | ⟨fault, hmalformed⟩ |
      ⟨text, entry, rfl, hblank, hentry⟩
    · rw [stream_cons_of_blank hblank, stream_cons_of_blank hblank, ih]
    · rw [stream_cons_of_malformed hmalformed, stream_cons_of_malformed hmalformed,
        Run.throw_bind]
    · rw [stream_cons_of_some hblank hentry, stream_cons_of_some hblank hentry, ih, bind_assoc]

/-- Behind what is printed of a replay, lines are taken in and printed one by one. This is the same
as replaying them all and printing what they bring together, before it fails if it does. -/
theorem print_stream (lines : List (Except FileFault String)) :
    (do Run.print (shown asJson r)
        stream asJson path defaultActor number r lines : Run m Replay) = (do
      let log := Log.ofLines number lines
      let r' := Replay.run defaultActor r log
      Run.print (shown asJson r')
      match log.malformed with
      | some (number, fault) => throw (lineFault path number fault)
      | none => pure r') := by
  induction lines generalizing number r with
  | nil => rfl
  | cons line rest ih =>
    rcases Log.line_cases line with ⟨text, rfl, hblank⟩ | ⟨fault, hmalformed⟩ |
      ⟨text, entry, rfl, hblank, hentry⟩
    · rw [stream_cons_of_blank hblank, Log.ofLines_cons_of_blank hblank, ih]
    · rw [stream_cons_of_malformed hmalformed, Log.ofLines_cons_of_malformed hmalformed]
      rfl
    -- the two prints in a row are what is shown of the replay after the line
    · rw [stream_cons_of_some hblank hentry, Log.ofLines_cons_of_some hblank hentry, ← bind_assoc,
        Run.print_print, ← shown_step, ih]
      rfl

/-- Lines that can all be read are replayed into a session. -/
theorem stream_start {lines : List (Except FileFault String)} (h : ∀ l ∈ lines, Log.Readable l)
    (s : Session) :
    (stream asJson path defaultActor 1 (.start s) lines : Run m Replay) = (do
      let r := Replay.after defaultActor s (Log.ofLines 1 lines).entries
      Run.print (shown asJson r)
      pure r) := by
  have hprint : (do
      Run.print (shown asJson (.start s))
      stream asJson path defaultActor 1 (.start s) lines : Run m Replay) = _ := print_stream lines
  dsimp only at hprint
  rwa [shown_start, Run.print_empty, pure_bind, Log.malformed_eq_none h] at hprint

theorem showReplay_eq_print (log : Log) :
    (showReplay asJson path r log : Run m Unit) = (do
      Run.print (shown asJson r)
      match log.malformed with
      | some (number, fault) => throw (lineFault path number fault)
      | none => Run.present asJson r.toJson r.summary) := by
  cases asJson with
  | true =>
    rw [show shown true r = "" from rfl, Run.print_empty, pure_bind]
    rfl
  | false => rfl

/-- A replay that prints what its lines bring together, at their end, is one that prints it line by
line. -/
theorem showReplay_eq (lines : List (Except FileFault String)) :
    (showReplay asJson path (Replay.run defaultActor r (Log.ofLines number lines))
      (Log.ofLines number lines) : Run m Unit) = (do
        Run.print (shown asJson r)
        let r' ← stream asJson path defaultActor number r lines
        Run.present asJson r'.toJson r'.summary) := by
  rw [← bind_assoc, print_stream, showReplay_eq_print]
  dsimp only
  rw [bind_assoc]
  refine bind_congr fun _ => ?_
  cases (Log.ofLines number lines).malformed with
  | some malformed => rw [Run.throw_bind]
  | none => rw [pure_bind]

variable [FileSystem m]

/-- A replay takes the lines of its log in one by one, and shows at their end what came of it. -/
theorem runReplay_eq (root : String) (asJson : Bool) (path : String) (actor : Option String) :
    (runReplay root asJson path actor : Run m Unit) = (do
      let config ← configOrDefault root
      let session ← sessionOf root config
      let lines ← Run.attempt (.logFile path) (FileSystem.readLines path : ExceptT FileFault m _)
      let r ← stream asJson path (actor.getD config.defaultActor) 1 (.start session) lines
      Run.present asJson r.toJson r.summary) := by
  refine bind_congr fun config => bind_congr fun session => bind_congr fun lines => ?_
  refine (showReplay_eq lines).trans ?_
  rw [shown_start, Run.print_empty, pure_bind]

end Stream

/-! ## Projects -/

section Projects

open Run (OnlyLooks)

variable {root path : String} {actor : Option String} {asJson : Bool} {d : Disk} {config : Config}
  {catalog : Catalog} {rules : RuleSet} {session : Session} {bytes : ByteArray}

/-- What has to be right before a log is read: the configuration, the catalog and the rules of a
project can be loaded, the catalog names no combiner, and the window is not too long. -/
structure Ready (root : String) (d : Disk) (config : Config) (catalog : Catalog)
    (rules : RuleSet) : Prop where
  hasConfig : ((configOrDefault root : Run (StateM Disk) Config).onDisk "" d).1.1 = .ok config
  hasCatalog : ((catalogOf root config : Run (StateM Disk) Catalog).onDisk "" d).1.1 = .ok catalog
  hasRules :
    ((rulesOf root config catalog : Run (StateM Disk) RuleSet).onDisk "" d).1.1 = .ok rules
  noCombiners : catalog.combinerNames = []
  inRange : config.windowSeconds ≤ Config.maxWindowSeconds

/-- The session that a log is replayed into. -/
def newSession (config : Config) (catalog : Catalog) (rules : RuleSet) : Session :=
  .start ⟨catalog, .absent⟩ rules (Session.windowOfSeconds config.windowSeconds)

theorem onDisk_demand {fault : ε → Fault} {x : Except ε α} {a : α} {printed : String} :
    ((Run.demand fault x : Run (StateM Disk) α).onDisk printed d).1.1 = .ok a ↔ x = .ok a := by
  cases x with
  | ok b => exact ⟨fun h => congrArg _ (Except.ok.inj h), fun h => congrArg _ (Except.ok.inj h)⟩
  | error e => constructor <;> exact fun h => nomatch h

/-- No catalog that names a combiner is used without combiners. -/
theorem build_absent_eq_ok_iff {deriver : Deriver} :
    Deriver.build catalog .absent = .ok deriver ↔
      deriver = ⟨catalog, .absent⟩ ∧ catalog.combinerNames = [] := by
  have hbuild : Deriver.build catalog .absent = .ok ⟨catalog, .absent⟩ ↔
      catalog.combinerNames = [] := by
    rw [Deriver.build_eq_ok_iff, List.eq_nil_iff_forall_not_mem]
    exact forall₂_congr fun name _ => iff_of_false (fun h => h rfl) id
  constructor
  · intro h
    obtain rfl : deriver = ⟨catalog, .absent⟩ := by
      unfold Deriver.build at h
      split at h
      · cases h
      · exact (Except.ok.inj h).symm
    exact ⟨rfl, hbuild.mp h⟩
  · rintro ⟨rfl, h⟩
    exact hbuild.mpr h

theorem Ready.loads (h : Ready root d config catalog rules) :
    Loads root d config (newSession config catalog rules) := by
  have hbuild := build_absent_eq_ok_iff.mpr ⟨rfl, h.noCombiners⟩
  have hwindow : config.window = .ok (Session.windowOfSeconds config.windowSeconds) :=
    if_pos h.inRange
  refine ⟨h.hasConfig, ?_⟩
  unfold sessionOf deriverOf
  rw [(onlyLooks_catalogOf root config).onDisk_bind h.hasCatalog,
    (onlyLooks_rulesOf root config catalog).onDisk_bind h.hasRules,
    (OnlyLooks.demand _ _).onDisk_bind (onDisk_demand.mpr hbuild),
    (OnlyLooks.demand _ _).onDisk_bind (onDisk_demand.mpr hwindow)]
  rfl

/-- A session comes of what is right in these ways only. -/
theorem exists_ready_of_loads (h : Loads root d config session) :
    ∃ catalog rules, Ready root d config catalog rules := by
  obtain ⟨catalog, hcatalog, h'⟩ := (onlyLooks_catalogOf root config).exists_of_bind h.started
  obtain ⟨rules, hrules, h'⟩ := (onlyLooks_rulesOf root config catalog).exists_of_bind h'
  obtain ⟨deriver, hderiver, h'⟩ := (OnlyLooks.demand _ _).exists_of_bind h'
  obtain ⟨window, hwindow, -⟩ := (OnlyLooks.demand _ _).exists_of_bind h'
  obtain ⟨-, hnames⟩ := build_absent_eq_ok_iff.mp (onDisk_demand.mp hderiver)
  refine ⟨catalog, rules, h.configured, hcatalog, hrules, hnames, ?_⟩
  by_contra hlong
  cases (if_neg hlong).symm.trans (onDisk_demand.mp hwindow)

/-- Either all is right before a log is read, or the replay fails without it, and prints nothing. -/
theorem ready_or_refused (root : String) (d : Disk) :
    (∃ config catalog rules, Ready root d config catalog rules) ∨
    ∃ fault, ∀ asJson path actor,
      (result root asJson (.replay path actor) : StateM Disk _).run d = (("", some fault), d) := by
  cases hconfig : ((configOrDefault root : Run (StateM Disk) Config).onDisk "" d).1.1 with
  | error fault =>
    refine .inr ⟨fault, fun asJson path actor => ?_⟩
    rw [result_eq, run, runReplay, (onlyLooks_configOrDefault root).onDisk_bind_of_error hconfig]
  | ok config =>
    cases hsession : ((sessionOf root config : Run (StateM Disk) Session).onDisk "" d).1.1 with
    | error fault =>
      refine .inr ⟨fault, fun asJson path actor => ?_⟩
      rw [result_eq, run, runReplay, (onlyLooks_configOrDefault root).onDisk_bind hconfig,
        (onlyLooks_sessionOf root config).onDisk_bind_of_error hsession]
    | ok session => exact .inl ⟨config, exists_ready_of_loads ⟨hconfig, hsession⟩⟩

/-- Once all is right, the lines of the log are taken in. -/
theorem onDisk_runReplay (h : Loads root d config session)
    (hbytes : d.readBytes path = .ok bytes) :
    (runReplay root asJson path actor : Run (StateM Disk) Unit).onDisk "" d =
      (do
        let r ← stream asJson path (actor.getD config.defaultActor) 1 (.start session)
          (Bytes.lines bytes)
        Run.present asJson r.toJson r.summary : Run (StateM Disk) Unit).onDisk "" d := by
  rw [runReplay_eq, (onlyLooks_configOrDefault root).onDisk_bind h.configured,
    (onlyLooks_sessionOf root config).onDisk_bind h.started, Run.onDisk_bind,
    onDisk_readLines hbytes]

/-- Lines that can all be read are replayed and printed one by one. -/
theorem onDisk_stream {lines : List (Except FileFault String)} (h : ∀ l ∈ lines, Log.Readable l)
    (defaultActor : String) :
    (stream asJson path defaultActor 1 (.start session) lines :
      Run (StateM Disk) Replay).onDisk "" d =
        let r := Replay.after defaultActor session (Log.ofLines 1 lines).entries
        ((.ok r, shown asJson r), d) := by
  rw [stream_start h]
  exact congrArg (fun s => ((_, s), d)) String.empty_append

/-- A log all of whose lines can be read prints its batches, and what came of them. -/
theorem result_replay_readable (h : Loads root d config session)
    (hbytes : d.readBytes path = .ok bytes) (hlines : ∀ l ∈ Bytes.lines bytes, Log.Readable l) :
    (result root asJson (.replay path actor) : StateM Disk _).run d =
      let r := Replay.after (actor.getD config.defaultActor) session
        (Log.ofLines 1 (Bytes.lines bytes)).entries
      ((shown asJson r ++ if asJson then r.toJson.pretty ++ "\n" else r.summary, none), d) := by
  rw [result_eq, run, onDisk_runReplay h hbytes, Run.onDisk_bind, onDisk_stream hlines]
  rfl

/-- A malformed line ends a replay: what the lines before it print stays printed. -/
theorem result_replay_malformed (h : Loads root d config session)
    (hbytes : d.readBytes path = .ok bytes) {before after : List (Except FileFault String)}
    {line : Except FileFault String} {fault : LineFault}
    (hlines : Bytes.lines bytes = before ++ line :: after)
    (hbefore : ∀ l ∈ before, Log.Readable l) (hline : Log.Malformed line fault) :
    (result root asJson (.replay path actor) : StateM Disk _).run d =
      let r := Replay.after (actor.getD config.defaultActor) session
        (Log.ofLines 1 before).entries
      ((shown asJson r, some (lineFault path (1 + before.length) fault)), d) := by
  rw [result_eq, run, onDisk_runReplay h hbytes, hlines, stream_append, Run.onDisk_bind,
    Run.onDisk_bind, onDisk_stream hbefore]
  dsimp only
  rw [stream_cons_of_malformed hline]
  rfl

/-- **A malformed line cuts a replay short.** Take a project that is ready, and the bytes of a log
with a line that cannot be read, or is neither blank nor a frame. The replay fails for the number of
the first such line. It prints nothing if a value is asked for. Otherwise it has printed the batches
of the lines before, in order; the replay of those lines alone prints the same, and a summary. A
project that is not ready is refused without regard to the log. -/
theorem malformed_line_cuts_replay {root : String} (path : String) (actor : Option String)
    {d : Disk} {config : Config} {catalog : Catalog} {rules : RuleSet} {bytes : ByteArray}
    {number : Nat} {cause : LineFault} (hproject : Ready root d config catalog rules)
    (hbytes : d.readBytes path = .ok bytes) (hnumber : Log.FirstMalformed bytes number cause) :
    let lines := (Bytes.lines bytes).take (number - 1)
    let r := Replay.after (actor.getD config.defaultActor) (newSession config catalog rules)
      (Log.ofLines 1 lines).entries
    let batchLines := Text.lines (r.firings.map Firing.text)
    let fault := lineFault path number cause
    (result root true (.replay path actor) : StateM Disk _).run d = (("", some fault), d) ∧
    (result root false (.replay path actor) : StateM Disk _).run d =
      ((batchLines, some fault), d) ∧
    (∀ word, fault.chain word = match cause with
      | .notFrame => [path ++ ":" ++ toString number ++ ": malformed frame", word .json]
      | .unreadable cause => ["failed to read line " ++ toString number, cause.message]) ∧
    (∀ f ∈ r.firings, f.line < number) ∧
    (∃ rest, bytes = Log.head (number - 1) bytes ++ rest) ∧
    Bytes.lines (Log.head (number - 1) bytes) = lines ∧
    (∀ root' path' d', Ready root' d' config catalog rules →
      d'.readBytes path' = .ok (Log.head (number - 1) bytes) →
      (result root' false (.replay path' actor) : StateM Disk _).run d' =
        ((batchLines ++ r.summary, none), d')) ∧
    ∀ d', (∃ config catalog rules, Ready root d' config catalog rules) ∨
      ∃ fault, ∀ asJson path actor,
        (result root asJson (.replay path actor) : StateM Disk _).run d' =
          (("", some fault), d') := by
  obtain ⟨before, line, after, hlines, rfl, hbefore, hline⟩ := hnumber
  intro lines r batchLines fault
  have hbefore' : lines = before := by
    show (Bytes.lines bytes).take (before.length + 1 - 1) = before
    rw [hlines, Nat.add_sub_cancel, List.take_left]
  have hfault : fault = lineFault path (1 + before.length) cause := by rw [Nat.add_comm]
  have hhead : Bytes.lines (Log.head (before.length + 1 - 1) bytes) = lines :=
    Log.lines_head _ bytes
  have hr : r = Replay.after (actor.getD config.defaultActor) (newSession config catalog rules)
    (Log.ofLines 1 before).entries := by rw [← hbefore']
  refine ⟨?_, ?_, fun word => ?_, fun f hf => ?_, Log.exists_head_append _ bytes, hhead,
    fun root' path' d' hproject' hbytes' => ?_, ready_or_refused root⟩
  · rw [result_replay_malformed hproject.loads hbytes hlines hbefore hline, hfault]
    rfl
  · rw [result_replay_malformed hproject.loads hbytes hlines hbefore hline, hfault, ← hr]
    rfl
  · cases cause <;> rfl
  · rcases Replay.line_of_mem_firings_run hf with hf | ⟨entry, hentry, hf⟩
    · cases hf
    · rw [hf, Nat.add_comm, ← hbefore']
      exact Log.number_lt_of_mem_entries hentry
  · rw [result_replay_readable hproject'.loads hbytes' (by rwa [hhead, hbefore']), hhead]
    rfl

/-- A line that prints something, and a blank one. -/
def readableLines : String := dockedLine ++ "\n \n"

/-- A line that would print something, too. -/
def laterLine : String :=
  "\x7b\"source\":\"journal\",\"timestamp\":\"2026-03-01T12:00:01Z\"," ++
    "\"state\":\x7b\"docked\":true\x7d\x7d"

/-- The bytes of a log with a line between them. -/
def logWith (line : List UInt8) : ByteArray :=
  readableLines.toUTF8 ++ line.toByteArray ++ (laterLine ++ "\n").toUTF8

/-- A log with a line that is no frame. -/
def cutLog : ByteArray := logWith [0x7b, lineFeed]

/-- A log with a line that is no text. -/
def tornLog : ByteArray := logWith [0xff, lineFeed]

/-- The project with one rule, with both logs and with the lines before the malformed ones. -/
def pier : Disk where
  items := (["cut"], .file cutLog) :: (["torn"], .file tornLog) ::
    (["readable"], .textFile readableLines) :: wharf.items

/-- What the first line of the logs prints. -/
def dockedText : String := "12:00:00  a            docked rising: +D\n"

theorem malformed_line_cuts_replay_pier :
    (result "/wharf" true (.replay "/cut" none) : StateM Disk _).run pier =
      (("", some (.malformedLine "/cut" 3)), pier) ∧
    (result "/wharf" false (.replay "/cut" none) : StateM Disk _).run pier =
      ((dockedText, some (.malformedLine "/cut" 3)), pier) ∧
    (result "/wharf" true (.replay "/torn" none) : StateM Disk _).run pier =
      (("", some (.logLine 3 .notText)), pier) ∧
    (result "/wharf" false (.replay "/torn" none) : StateM Disk _).run pier =
      ((dockedText, some (.logLine 3 .notText)), pier) ∧
    ∃ summary, (result "/wharf" false (.replay "/readable" none) : StateM Disk _).run pier =
      ((dockedText ++ summary, none), pier) := by
  have hlines : Bytes.lines cutLog =
      [.ok dockedLine, .ok " ", .ok "\x7b", .ok laterLine] := by decide +kernel
  have hlines' : Bytes.lines tornLog =
      [.ok dockedLine, .ok " ", .error .notText, .ok laterLine] := by decide +kernel
  have hdocked : (LogLine.ofText? dockedLine).isSome = true := by decide +kernel
  have hbefore : ∀ l ∈ [.ok dockedLine, .ok " "], Log.Readable l := by
    obtain ⟨entry, hentry⟩ := Option.isSome_iff_exists.mp hdocked
    exact List.forall_mem_cons.mpr ⟨.frame hentry, List.forall_mem_singleton.mpr (.blank rfl)⟩
  have hcut : Log.FirstMalformed cutLog 3 .notFrame :=
    ⟨_, _, _, hlines, rfl, hbefore, .notFrame (by decide) (by decide +kernel)⟩
  have htorn : Log.FirstMalformed tornLog 3 (.unreadable .notText) :=
    ⟨_, _, _, hlines', rfl, hbefore, .unreadable _⟩
  have hready : (((configOrDefault "/wharf" : Run (StateM Disk) Config).onDisk ""
      pier).1.1.toOption.any fun config =>
        decide (config.windowSeconds ≤ Config.maxWindowSeconds) &&
        ((catalogOf "/wharf" config : Run (StateM Disk) Catalog).onDisk "" pier).1.1.toOption.any
          fun catalog => decide (catalog.combinerNames = []) &&
            ((rulesOf "/wharf" config catalog : Run (StateM Disk) RuleSet).onDisk ""
              pier).1.1.toOption.any fun rules => decide (Text.lines ((Replay.after
                config.defaultActor (newSession config catalog rules) (Log.ofLines 1
                  [.ok dockedLine, .ok " "]).entries).firings.map Firing.text) = dockedText)) =
      true := by
    decide +kernel
  obtain ⟨config, hconfig, hready⟩ := exists_of_any_toOption hready
  obtain ⟨hwindow, hready⟩ := Bool.and_eq_true_iff.mp hready
  obtain ⟨catalog, hcatalog, hready⟩ := exists_of_any_toOption hready
  obtain ⟨hnames, hready⟩ := Bool.and_eq_true_iff.mp hready
  obtain ⟨rules, hrules, hprinted⟩ := exists_of_any_toOption hready
  rw [decide_eq_true_eq] at hwindow hnames hprinted
  have hproject : Ready "/wharf" pier config catalog rules :=
    ⟨hconfig, hcatalog, hrules, hnames, hwindow⟩
  have hbytes : pier.readBytes "/cut" = .ok cutLog := by decide +kernel
  have hbytes' : pier.readBytes "/torn" = .ok tornLog := by decide +kernel
  have hhead : pier.readBytes "/readable" = .ok (Log.head 2 cutLog) := by decide +kernel
  obtain ⟨hjson, htext, -, -, -, -, hreadable, -⟩ :=
    malformed_line_cuts_replay "/cut" none hproject hbytes hcut
  obtain ⟨hjson', htext', -⟩ := malformed_line_cuts_replay "/torn" none hproject hbytes' htorn
  have halone := hreadable "/wharf" "/readable" pier hproject hhead
  have htake (rest : List (Except FileFault String)) :
      (.ok dockedLine :: .ok " " :: rest).take (3 - 1) = [.ok dockedLine, .ok " "] := rfl
  rw [Option.getD_none, hlines, htake, hprinted] at htext halone
  rw [Option.getD_none, hlines', htake, hprinted] at htext'
  exact ⟨hjson, htext, hjson', htext', _, halone⟩

end Projects

end Command

end Telltale
