import Telltale.Proofs.Recency.History
import Telltale.Proofs.Session.Run

/-!
# When the events of an actor were last seen

A session keeps an index of times for each actor. Every frame of the actor prunes it, by the window
at that time, and records the event of the frame.

* `Session.changesOf` — what the frames of an actor do to its index on a run.
* `Session.recency_run` — the index of an actor has seen these changes, and no other ones.
* `Session.index_holds_latest` — so what it holds of an event is the latest time of the actor's own
  frames that outlived the later ones.
-/

namespace Telltale.Session

/-- What a frame does to the index of its actor. -/
def changesOfFrame (window : Int) (f : Frame) : List Recency.Change :=
  .prune f.timestamp window :: (f.eventName?.map (Recency.Change.record · f.timestamp)).toList

/-- What the frames of an actor do to its index on a run that starts with a window. -/
def changesOf (actor : String) : Int → List Event → List Recency.Change
  | _, [] => []
  | window, .ingest other f _ :: rest =>
    (if other = actor then changesOfFrame window f else []) ++ changesOf actor window rest
  | window, .reload _ :: rest => changesOf actor window rest
  | _, .resize window :: rest => changesOf actor window rest

theorem recencyAt_eq (r : Recency) (window : Int) (f : Frame) :
    recencyAt r window f = (changesOfFrame window f).foldl Recency.apply r := by
  unfold recencyAt changesOfFrame
  cases f.eventName? <;> rfl

/-- The index of an actor after a run is the one before it, after the changes of the run. -/
theorem recency_run (calls : List Event) (s : Session) (actor : String) :
    ((run calls s).2.stateOf actor).recency =
      (changesOf actor s.window calls).foldl Recency.apply (s.stateOf actor).recency := by
  induction calls generalizing s with
  | nil => rfl
  | cons call rest ih =>
    refine (ih (s.step call).2).trans ?_
    cases call with
    | ingest other f x =>
      show (changesOf actor s.window rest).foldl _ ((s.ingest other f x).2.stateOf actor).recency = _
      rw [changesOf, List.foldl_append, stateOf, actor?_ingest]
      by_cases h : other = actor
      · subst h
        rw [if_pos rfl, if_pos rfl, ← recencyAt_eq]
        rfl
      · rw [if_neg (Ne.symm h), if_neg h]
        rfl
    | reload rules => rfl
    | resize window => rfl

/-- Changes of an actor's index name the times of its frames. -/
theorem isWhole_of_mem_changesOf {actor : String} {window : Int} {calls : List Event}
    (h : ∀ f x, .ingest actor f x ∈ calls → f.timestamp.isLeap = false) :
    ∀ c ∈ changesOf actor window calls, c.IsWhole := by
  induction calls generalizing window with
  | nil => exact nofun
  | cons call rest ih =>
    have hrest (window : Int) : ∀ c ∈ changesOf actor window rest, c.IsWhole :=
      ih fun f x hf => h f x (List.mem_cons_of_mem _ hf)
    cases call with
    | ingest other f x =>
      intro c hc
      rcases List.mem_append.mp hc with hc | hc
      · by_cases heq : other = actor
        · subst heq
          have htime : f.timestamp.isLeap = false := h f x List.mem_cons_self
          rw [if_pos rfl] at hc
          rcases List.mem_cons.mp hc with rfl | hc
          · exact htime
          · obtain ⟨event, -, rfl⟩ := Option.map_eq_some_iff.mp (Option.mem_toList.mp hc)
            exact htime
        · rw [if_neg heq] at hc
          cases hc
      · exact hrest window c hc
    | reload rules => exact hrest window
    | resize window' => exact hrest window'

/-- **An index holds the latest record that survives**, whatever order the times are in. After any
records, prunes and clears, what it holds of an event is the latest time among those records of the
event that are neither cleared nor, at any later prune, older than its window, and nothing if there
are none. On any run of a session that is so for the index of each actor, with the prunes and records
of its own frames. -/
theorem index_holds_latest :
    (∀ changes : List Recency.Change, (∀ c ∈ changes, c.IsWhole) → ∀ event,
      Recency.IsLatest (Recency.survivors event changes)
        ((Recency.after changes).lastSeen? event)) ∧
    ∀ (d : Deriver) (rules : RuleSet) (window : Int) (calls : List Event) (actor : String),
      (∀ f x, .ingest actor f x ∈ calls → f.timestamp.isLeap = false) → ∀ event,
      Recency.IsLatest (Recency.survivors event (changesOf actor window calls))
        (((run calls (start d rules window)).2.recency? actor).bind (·.lastSeen? event)) := by
  refine ⟨fun changes hwhole event => Recency.isLatest_after hwhole event, ?_⟩
  intro d rules window calls actor hcalls event
  have hlast (s : Session) : (s.recency? actor).bind (·.lastSeen? event) =
      (s.stateOf actor).recency.lastSeen? event := by
    unfold recency? stateOf
    cases s.actor? actor <;> rfl
  rw [hlast, recency_run]
  exact Recency.isLatest_after (isWhole_of_mem_changesOf hcalls) event

/-- A frame of the journal at a second. -/
def noteAt (second : Int) (event : String) : Frame :=
  ⟨.journal, some event, ⟨second, 0⟩, .object []⟩

/-- Of two records that came in out of order, the one that came in first is the later one and is
kept until it is exactly as old as the window. -/
theorem index_holds_latest_docked :
    let changes : List Recency.Change := [.record "Docked" ⟨9, 0⟩, .clear, .record "Docked" ⟨5, 0⟩,
      .record "Docked" ⟨2, 0⟩, .prune ⟨13, 0⟩ (windowOfSeconds 10), .record "Docked" ⟨4, 0⟩]
    let calls : List Event := [.ingest "a" (noteAt 5 "Docked") .absent,
      .ingest "a" (noteAt 2 "Docked") .absent, .ingest "b" (noteAt 30 "Docked") .absent,
      .ingest "a" (noteAt 15 "Music") .absent]
    let s := (run calls (start ⟨⟨1, ⟨[], []⟩, []⟩, .absent⟩ ⟨1, []⟩ (windowOfSeconds 10))).2
    (∀ c ∈ changes, c.IsWhole) ∧ Recency.survivors "Docked" changes = [⟨5, 0⟩, ⟨4, 0⟩] ∧
    Recency.IsLatest [⟨5, 0⟩, ⟨4, 0⟩] ((Recency.after changes).lastSeen? "Docked") ∧
    (∀ f x, .ingest "a" f x ∈ calls → f.timestamp.isLeap = false) ∧
    Recency.survivors "Docked" (changesOf "a" (windowOfSeconds 10) calls) = [⟨5, 0⟩] ∧
    Recency.IsLatest [⟨5, 0⟩] ((s.recency? "a").bind (·.lastSeen? "Docked")) := by
  intro changes calls s
  have hwhole : ∀ c ∈ changes, c.IsWhole := by
    simp only [changes, List.forall_mem_cons, List.not_mem_nil, false_imp_iff, implies_true,
      Recency.Change.IsWhole]
    decide
  have hcalls : ∀ f x, .ingest "a" f x ∈ calls → f.timestamp.isLeap = false := by
    intro f x hf
    simp only [calls, List.mem_cons, Event.ingest.injEq, List.not_mem_nil, or_false] at hf
    rcases hf with ⟨-, rfl, -⟩ | ⟨-, rfl, -⟩ | ⟨-, rfl, -⟩ | ⟨-, rfl, -⟩ <;> rfl
  have hsurvivors : Recency.survivors "Docked" changes = [⟨5, 0⟩, ⟨4, 0⟩] := by decide +kernel
  have hsurvivors' :
      Recency.survivors "Docked" (changesOf "a" (windowOfSeconds 10) calls) = [⟨5, 0⟩] := by
    decide +kernel
  obtain ⟨hindex, hsession⟩ := index_holds_latest
  have hlatest := hindex changes hwhole "Docked"
  have hlatest' := hsession ⟨⟨1, ⟨[], []⟩, []⟩, .absent⟩ ⟨1, []⟩ (windowOfSeconds 10) calls "a"
    hcalls "Docked"
  rw [hsurvivors] at hlatest
  rw [hsurvivors'] at hlatest'
  exact ⟨hwhole, hsurvivors, hlatest, hcalls, hsurvivors', hlatest'⟩

end Telltale.Session
