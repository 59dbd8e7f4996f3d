import Mathlib.Data.List.Induction
import Telltale.Proofs.Replay.Lines
import Telltale.Proofs.Session.Isolation
import Telltale.Replay.Report

/-!
# Replays keep actors apart

Beside the session, a replay keeps the external documents of every actor, which a line replaces one
by one. What it brings an actor depends on the lines of that actor alone.

* `Log.Blanked` — a line of another actor may have become blank; `Log.ofText_blanked` says that such
  a text has the same lines of the actor, under the same numbers.
* `Log.documents` — the last documents that the lines of an actor give; `Replay.takesIn_after`
  says that a line is taken in with those up to its own.
* `Replay.Alike` — two replays do not differ in anything that an actor sees. `Replay.alike_run` is
  the induction over a log.
* `Replay.reportedBatches`, `Replay.reportedFlags` — what the report on a replay says of an actor.
-/

namespace Telltale

/-! ## The lines of a text -/

/-- The actor of a line. One that names none belongs to the default one. -/
def LogLine.actorOr (entry : LogLine) (defaultActor : String) : String :=
  entry.actor.getD defaultActor

namespace Log

variable {defaultActor actor : String}

/-- The lines of an actor. -/
def linesOf (defaultActor actor : String) (entries : List (Nat × LogLine)) : List (Nat × LogLine) :=
  entries.filter fun line => line.2.actorOr defaultActor == actor

/-- A line is left as it is, or it is one of another actor and has become blank. -/
inductive Blanked (defaultActor actor : String) : String → String → Prop where
  | same (line : String) : Blanked defaultActor actor line line
  | other {line line' : String} {entry : LogLine} (hentry : LogLine.ofText? line = some entry)
    (hne : entry.actorOr defaultActor ≠ actor) (hblank : Text.isBlankText line' = true) :
    Blanked defaultActor actor line line'

section OfLines

variable {number : Nat} {line : String} {rest : List (Except FileFault String)}

theorem ofLines_cons_of_blank (h : Text.isBlankText line = true) :
    ofLines number (.ok line :: rest) = ofLines (number + 1) rest := by
  rw [ofLines, if_pos h]

theorem ofLines_cons_of_none (hblank : ¬ Text.isBlankText line = true)
    (h : LogLine.ofText? line = none) :
    ofLines number (.ok line :: rest) = ⟨[], some (number, .notFrame)⟩ := by
  rw [ofLines, if_neg hblank, h]

theorem ofLines_cons_of_some {entry : LogLine} (hblank : ¬ Text.isBlankText line = true)
    (h : LogLine.ofText? line = some entry) :
    ofLines number (.ok line :: rest) =
      ⟨(number, entry) :: (ofLines (number + 1) rest).entries,
        (ofLines (number + 1) rest).malformed⟩ := by
  rw [ofLines, if_neg hblank, h]

/-- A blank line at the end makes no difference. -/
theorem ofLines_append_blank (h : Text.isBlankText line = true)
    (lines : List (Except FileFault String)) :
    ofLines number (lines ++ [.ok line]) = ofLines number lines := by
  induction lines generalizing number with
  | nil => exact ofLines_cons_of_blank h
  | cons first rest ih =>
    rw [List.cons_append]
    cases first with
    | error cause => rw [ofLines, ofLines]
    | ok first =>
      by_cases hblank : Text.isBlankText first = true
      · rw [ofLines_cons_of_blank hblank, ofLines_cons_of_blank hblank, ih]
      · cases hentry : LogLine.ofText? first with
        | none => rw [ofLines_cons_of_none hblank hentry, ofLines_cons_of_none hblank hentry]
        | some entry =>
          rw [ofLines_cons_of_some hblank hentry, ofLines_cons_of_some hblank hentry, ih]

end OfLines

/-- The log of a text is that of its pieces: an empty one at the end makes no difference. -/
theorem ofText_eq_pieces (text : String) :
    ofText text = ofLines 1 ((pieces [] text.toList).map .ok) := by
  unfold ofText splitLines trimLast
  split
  · next h =>
    have hblank : Text.isBlankText "" = true := rfl
    rw [← ofLines_append_blank hblank, ← List.map_singleton, ← List.map_append,
      List.dropLast_append_getLast? "" h]
  · rfl

/-- Blanking lines of other actors keeps the lines of the actor with their numbers. -/
theorem ofLines_blanked {lines lines' : List String} {number : Nat}
    (hlines : List.Forall₂ (Blanked defaultActor actor) lines lines')
    (hmalformed : (ofLines number (lines.map .ok)).malformed = none) :
    (ofLines number (lines'.map .ok)).malformed = none ∧
    linesOf defaultActor actor (ofLines number (lines'.map .ok)).entries =
      linesOf defaultActor actor (ofLines number (lines.map .ok)).entries := by
  induction hlines generalizing number with
  | nil => exact ⟨rfl, rfl⟩
  | @cons line line' rest rest' hline _ ih =>
    rw [List.map_cons] at hmalformed
    rw [List.map_cons, List.map_cons]
    by_cases hblank : Text.isBlankText line = true
    -- whichever way it was blanked, a blank line is still blank
    · have hblank' : Text.isBlankText line' = true := by
        cases hline with
        | same => exact hblank
        | other _ _ hblank' => exact hblank'
      rw [ofLines_cons_of_blank hblank] at hmalformed ⊢
      rw [ofLines_cons_of_blank hblank']
      exact ih hmalformed
    · cases hentry : LogLine.ofText? line with
      | none =>
        rw [ofLines_cons_of_none hblank hentry] at hmalformed
        cases hmalformed
      | some entry =>
        rw [ofLines_cons_of_some hblank hentry] at hmalformed ⊢
        obtain ⟨hrest, hentries⟩ := ih hmalformed
        cases hline with
        | same =>
          rw [ofLines_cons_of_some hblank hentry]
          refine ⟨hrest, ?_⟩
          unfold linesOf at hentries ⊢
          rw [List.filter_cons, List.filter_cons, hentries]
        | other hentry' hne hblank' =>
          obtain rfl : entry = _ := Option.some.inj (hentry.symm.trans hentry')
          rw [ofLines_cons_of_blank hblank']
          refine ⟨hrest, hentries.trans ?_⟩
          unfold linesOf
          rw [List.filter_cons_of_neg (by simpa using hne)]

/-- So does blanking lines of other actors in a text. -/
theorem ofText_blanked {text text' : String}
    (hlines : List.Forall₂ (Blanked defaultActor actor) (pieces [] text.toList)
      (pieces [] text'.toList))
    (hmalformed : (ofText text).malformed = none) :
    (ofText text').malformed = none ∧
    linesOf defaultActor actor (ofText text').entries =
      linesOf defaultActor actor (ofText text).entries := by
  rw [ofText_eq_pieces text] at hmalformed ⊢
  rw [ofText_eq_pieces text']
  exact ofLines_blanked hlines hmalformed

/-- The last documents that the lines of an actor give. -/
def documents (defaultActor actor : String) (entries : List (Nat × LogLine)) : Externals where
  state := ((linesOf defaultActor actor entries).filterMap (·.2.externals.state)).getLast?
  capi := ((linesOf defaultActor actor entries).filterMap (·.2.externals.capi)).getLast?

/-- One more line gives its actor new documents, unless it is one of another actor. -/
theorem documents_snoc (entries : List (Nat × LogLine)) (line : Nat × LogLine) :
    documents defaultActor actor (entries ++ [line]) =
      if line.2.actorOr defaultActor = actor then
        (documents defaultActor actor entries).updated line.2.externals
      else documents defaultActor actor entries := by
  have hlast {f : Nat × LogLine → Option Json} (lines : List (Nat × LogLine)) :
      ((lines ++ [line]).filterMap f).getLast? = (f line).or (lines.filterMap f).getLast? := by
    rw [List.filterMap_append, List.getLast?_append]
    cases h : f line <;> simp [h]
  unfold documents linesOf
  rw [List.filter_append]
  split
  · next h =>
    rw [List.filter_cons_of_pos (by simpa using h), List.filter_nil, hlast, hlast]
    rfl
  · next h => rw [List.filter_cons_of_neg (by simpa using h), List.filter_nil, List.append_nil]

end Log

/-! ## Replays -/

namespace Trigger

variable {t : Trigger} {actor : String} {b : Batch}

theorem actor_of_batch? {r : Rule} {v : Verdict} (h : batch? r actor v = some b) :
    b.actor = actor := by
  unfold batch? at h
  split at h
  · split at h
    · cases h
    · cases h; rfl
  · cases h

theorem actor_of_dispatch {r : Rule} {v : Verdict} (h : (t.dispatch r actor v).1 = some b) :
    b.actor = actor := by
  unfold dispatch at h
  split at h
  · cases h
  · dsimp only at h
    split at h
    · cases h
    · exact actor_of_batch? h

/-- The batches of a frame are batches of its actor. -/
theorem actor_of_mem_process {e : Evidence} (h : b ∈ (t.process actor e).1) : b.actor = actor := by
  unfold process at h
  generalize t.ruleSet.rules = rules at h
  induction rules generalizing t with
  | nil => cases h
  | cons r rest ih =>
    rw [processEach_cons, List.mem_append, Option.mem_toList] at h
    rcases h with h | h
    · exact actor_of_dispatch h
    · exact ih h

end Trigger

namespace Replay

variable {defaultActor actor : String}

/-- The batches of an actor, with their lines and times. -/
def firingsOf (r : Replay) (actor : String) : List Firing :=
  r.firings.filter (·.batch.actor == actor)

/-- The documents that a line is taken in with. -/
def documentsAt (r : Replay) (defaultActor : String) (line : Nat × LogLine) : Externals :=
  r.externalsAt (line.2.actorOr defaultActor) line.2

/-- What comes of taking in a line. -/
def takenAt (r : Replay) (defaultActor : String) (line : Nat × LogLine) : Tick × Session :=
  r.session.ingest (line.2.actorOr defaultActor) line.2.frame (r.documentsAt defaultActor line)

/-- The batches that a line brings. -/
def firingsAt (r : Replay) (defaultActor : String) (line : Nat × LogLine) : List Firing :=
  (r.takenAt defaultActor line).1.batches.map (Firing.mk line.1 line.2.frame.timestamp)

theorem step_eq (r : Replay) (line : Nat × LogLine) :
    r.step defaultActor line =
      ⟨(r.takenAt defaultActor line).2,
        Table.insert (line.2.actorOr defaultActor) (r.documentsAt defaultActor line) r.externals,
        r.frames + 1, r.firings ++ r.firingsAt defaultActor line⟩ := rfl

theorem firingsOf_step (r : Replay) (line : Nat × LogLine) :
    (r.step defaultActor line).firingsOf actor =
      r.firingsOf actor ++
        (r.firingsAt defaultActor line).filter (·.batch.actor == actor) :=
  List.filter_append ..

/-- A line brings batches of its own actor. -/
theorem actor_of_mem_firingsAt {r : Replay} {line : Nat × LogLine} {f : Firing}
    (hf : f ∈ r.firingsAt defaultActor line) : f.batch.actor = line.2.actorOr defaultActor := by
  obtain ⟨b, hb, rfl⟩ := List.mem_map.mp hf
  exact Trigger.actor_of_mem_process hb

/-- From one replay to another, a line is taken in with documents. -/
structure TakesIn (defaultActor : String) (line : Nat × LogLine) (x : Externals)
    (r r' : Replay) : Prop where
  session : r'.session = (r.session.ingest (line.2.actorOr defaultActor) line.2.frame x).2
  firings : r'.firings = r.firings ++
    (r.session.ingest (line.2.actorOr defaultActor) line.2.frame x).1.batches.map
      (Firing.mk line.1 line.2.frame.timestamp)

/-- The replay of lines into a session. -/
def after (defaultActor : String) (s : Session) (entries : List (Nat × LogLine)) : Replay :=
  run defaultActor (.start s) ⟨entries, none⟩

theorem run_eq_after (s : Session) (log : Log) :
    run defaultActor (.start s) log = after defaultActor s log.entries := rfl

theorem after_snoc (s : Session) (entries : List (Nat × LogLine)) (line : Nat × LogLine) :
    after defaultActor s (entries ++ [line]) =
      (after defaultActor s entries).step defaultActor line := by
  simp [after, run]

/-! ### Documents -/

/-- After every line, the documents of an actor are the last ones that its lines gave. -/
theorem externals_after (s : Session) (entries : List (Nat × LogLine)) :
    (Table.get? (after defaultActor s entries).externals actor).getD .absent =
      Log.documents defaultActor actor entries := by
  induction entries using List.reverseRecOn with
  | nil => rfl
  | append_singleton entries line ih =>
    rw [after_snoc, Log.documents_snoc, step_eq, Table.get?_insert]
    by_cases h : line.2.actorOr defaultActor = actor
    · subst h
      rw [if_pos rfl, if_pos rfl, ← ih]
      rfl
    · rw [if_neg h, if_neg (Ne.symm h), ih]

/-- A line is taken in with the last documents that the lines of its actor give, up to its own. -/
theorem takesIn_after (s : Session) (entries : List (Nat × LogLine)) (line : Nat × LogLine) :
    TakesIn defaultActor line
      (Log.documents defaultActor (line.2.actorOr defaultActor) (entries ++ [line]))
      (after defaultActor s entries) (after defaultActor s (entries ++ [line])) := by
  have hdocuments : (after defaultActor s entries).documentsAt defaultActor line =
      Log.documents defaultActor (line.2.actorOr defaultActor) (entries ++ [line]) := by
    rw [Log.documents_snoc, if_pos rfl, ← externals_after s]
    rfl
  rw [after_snoc, step_eq, ← hdocuments]
  exact ⟨rfl, rfl⟩

/-! ### Isolation -/

/-- Two replays do not differ in anything that an actor sees. -/
structure Alike (actor : String) (r r' : Replay) : Prop where
  session : Session.Alike actor r.session r'.session
  externals : Table.get? r.externals actor = Table.get? r'.externals actor
  firings : r.firingsOf actor = r'.firingsOf actor

namespace Alike

variable {r r' : Replay}

theorem symm (h : Alike actor r r') : Alike actor r' r :=
  ⟨h.session.symm, h.externals.symm, h.firings.symm⟩

theorem trans {r'' : Replay} (h : Alike actor r r') (h' : Alike actor r' r'') :
    Alike actor r r'' :=
  ⟨h.session.trans h'.session, h.externals.trans h'.externals, h.firings.trans h'.firings⟩

/-- A line of the actor brings the same in both. -/
theorem step (h : Alike actor r r') {line : Nat × LogLine}
    (hline : line.2.actorOr defaultActor = actor) :
    Alike actor (r.step defaultActor line) (r'.step defaultActor line) := by
  subst hline
  have hdocuments : r.documentsAt defaultActor line = r'.documentsAt defaultActor line := by
    unfold documentsAt externalsAt
    rw [h.externals]
  obtain ⟨htick, hsession⟩ := h.session.ingest line.2.frame (r.documentsAt defaultActor line)
  refine ⟨?_, ?_, ?_⟩
  · rw [step_eq, step_eq]
    unfold takenAt
    rw [← hdocuments]
    exact hsession
  · rw [step_eq, step_eq, Table.get?_insert, Table.get?_insert, if_pos rfl, if_pos rfl, hdocuments]
  · rw [firingsOf_step, firingsOf_step, h.firings]
    unfold firingsAt takenAt
    rw [← hdocuments, htick]

/-- A line of another actor makes no difference. -/
theorem step_other (h : Alike actor r r') {line : Nat × LogLine}
    (hline : line.2.actorOr defaultActor ≠ actor) : Alike actor (r.step defaultActor line) r' := by
  refine ⟨h.session.ingest_other hline.symm _ _, ?_, ?_⟩
  · rw [step_eq, Table.get?_insert, if_neg hline.symm, h.externals]
  · have hnone : (r.firingsAt defaultActor line).filter (·.batch.actor == actor) = [] :=
      List.filter_eq_nil_iff.mpr fun f hf => by
        rw [actor_of_mem_firingsAt hf]
        simpa using hline
    rw [firingsOf_step, hnone, List.append_nil, h.firings]

end Alike

/-- From alike replays, lines and what is left of them without those of other actors bring the actor
the same. -/
theorem alike_run (defaultActor : String) {r r' : Replay} (h : Alike actor r r')
    (entries : List (Nat × LogLine)) :
    Alike actor (entries.foldl (step defaultActor) r)
      ((Log.linesOf defaultActor actor entries).foldl (step defaultActor) r') := by
  unfold Log.linesOf
  induction entries generalizing r r' with
  | nil => exact h
  | cons line rest ih =>
    by_cases hline : line.2.actorOr defaultActor = actor
    · rw [List.filter_cons_of_pos (by simpa using hline)]
      exact ih (h.step hline)
    · rw [List.filter_cons_of_neg (by simpa using hline)]
      exact ih (h.step_other hline)

/-- Two logs with the same lines of an actor bring that actor the same. -/
theorem alike_after (defaultActor : String) {s : Session} (hs : s.Sound)
    {entries entries' : List (Nat × LogLine)}
    (h : Log.linesOf defaultActor actor entries' = Log.linesOf defaultActor actor entries) :
    Alike actor (after defaultActor s entries) (after defaultActor s entries') := by
  have hstart : Alike actor (start s) (start s) := ⟨hs.alike actor, rfl, rfl⟩
  -- each is alike to the replay of the lines of the actor, and these are the same
  have hrun := alike_run defaultActor hstart entries
  have hrun' := alike_run defaultActor hstart entries'
  rw [h] at hrun'
  exact hrun.trans hrun'.symm

/-! ### Reports -/

/-- The batches of an actor that a report lists, in order. -/
def reportedBatches (report : Json) (actor : String) : List Json :=
  (((report.field? "batches").bind Json.array?).getD []).filter fun b =>
    (b.field? "actor").bind Json.string? == some actor

/-- The flags of an actor that a report lists, if it lists the actor. -/
def reportedFlags (report : Json) (actor : String) : Option Json :=
  (report.field? "flags").bind (·.field? actor)

theorem reportedBatches_toJson (r : Replay) (actor : String) :
    reportedBatches r.toJson actor = (r.firingsOf actor).map Firing.toJson := by
  have hactor : ((fun b => (b.field? "actor").bind Json.string? == some actor) ∘ Firing.toJson) =
      fun f => f.batch.actor == actor := rfl
  show (r.firings.map Firing.toJson).filter _ = _
  rw [List.filter_map, hactor]
  rfl

theorem get?_map_names (t : Table α) (f : String → β) (name : String) :
    Table.get? ((Table.names t).map fun n => (n, f n)) name =
      (Table.get? t name).map fun _ => f name := by
  induction t with
  | nil => rfl
  | cons p rest ih =>
    obtain ⟨n, v⟩ := p
    show Table.get? ((n, f n) :: (Table.names rest).map fun n => (n, f n)) name = _
    rw [Table.get?_cons, Table.get?_cons, ih]
    split
    · next h => rw [h]; rfl
    · rfl

theorem reportedFlags_toJson (r : Replay) (actor : String) :
    reportedFlags r.toJson actor =
      (r.session.flags? actor).map fun flags => .array (flags.map .string) := by
  show Table.get? ((r.session.actorNames.map _).map _) actor = _
  rw [List.map_map]
  show Table.get? ((Table.names r.session.actors).map fun n =>
    (n, Json.array (((r.session.flags? n).getD []).map .string))) actor = _
  rw [get?_map_names]
  unfold Session.flags? Session.actor?
  cases Table.get? r.session.actors actor <;> rfl

/-- The reports on replays that are alike to an actor say the same of it. -/
theorem Alike.reported {r r' : Replay} (h : Alike actor r r') :
    reportedBatches r'.toJson actor = reportedBatches r.toJson actor ∧
    reportedFlags r'.toJson actor = reportedFlags r.toJson actor := by
  rw [reportedBatches_toJson, reportedBatches_toJson, reportedFlags_toJson, reportedFlags_toJson,
    h.firings]
  unfold Session.flags?
  rw [h.session.state]
  exact ⟨rfl, rfl⟩

end Replay

end Telltale
