import Telltale.Command
import Telltale.Disk

/-!
# Commands that only look

Before a command says anything of a project it loads the documents of the project. On a disk that
changes nothing and prints nothing, whatever comes of it.

* `OnlyReads` — an access to the disk leaves it as it is. The documents of a project are loaded so.
* `Run.onDisk` — what comes of a run on a disk, and what it has printed by then.
* `Run.OnlyLooks` — a run prints nothing and leaves the disk as it is.
* `Command.onlyLooks_configOrDefault`, `Command.onlyLooks_sessionOf` — so do the runs that make a
  session out of a project.
-/

namespace Telltale

/-! ## Accesses -/

/-- An access to the disk leaves it as it is. -/
def OnlyReads (x : ExceptT ε (StateM Disk) α) : Prop := ∀ d, (x.run.run d).2 = d

namespace OnlyReads

theorem pure (a : α) : OnlyReads (Pure.pure a : ExceptT ε (StateM Disk) α) := fun _ => rfl

theorem throw (e : ε) : OnlyReads (MonadExcept.throw e : ExceptT ε (StateM Disk) α) := fun _ => rfl

theorem mk (x : Except ε α) : OnlyReads (ExceptT.mk (Pure.pure x) : ExceptT ε (StateM Disk) α) :=
  fun _ => rfl

theorem bind {x : ExceptT ε (StateM Disk) α} {f : α → ExceptT ε (StateM Disk) β}
    (hx : OnlyReads x) (hf : ∀ a, OnlyReads (f a)) : OnlyReads (x >>= f) := by
  intro d
  have hdisk := hx d
  rw [ExceptT.run_bind, StateT.run_bind]
  generalize x.run.run d = outcome at hdisk ⊢
  obtain ⟨result, d'⟩ := outcome
  obtain rfl : d' = d := hdisk
  cases result with
  | ok a => exact hf a d'
  | error e => rfl

theorem isThere (path : String) :
    OnlyReads (liftM (FileSystem.isThere path : StateM Disk Bool) : ExceptT ε (StateM Disk) Bool) :=
  fun _ => rfl

theorem readText (path : String) (fault : FileFault → ε) :
    OnlyReads (Project.readText path fault : ExceptT ε (StateM Disk) String) := fun _ => rfl

theorem loadConfig (root : String) :
    OnlyReads (Project.loadConfig root : ExceptT ConfigFault (StateM Disk) Config) := by
  unfold Project.loadConfig
  refine bind (isThere _) fun there => ?_
  cases there with
  | false => exact throw _
  | true =>
    refine bind (readText _ _) fun text => ?_
    split
    · exact pure _
    · exact throw _

theorem loadCatalog (root : String) (c : Config) :
    OnlyReads (Project.loadCatalog root c : ExceptT _ (StateM Disk) Catalog) := by
  unfold Project.loadCatalog
  split
  · exact bind (readText _ _) fun _ => mk _
  · exact bind (pure _) fun _ => mk _

theorem loadRules (root : String) (c : Config) (catalog : Catalog) :
    OnlyReads (Project.loadRules root c catalog : ExceptT _ (StateM Disk) RuleSet) :=
  bind (readText _ _) fun _ => mk _

end OnlyReads

/-! ## Runs -/

namespace Run

/-- What comes of a run on a disk that follows what is printed: its result and all that is printed
by then, and the disk after it. -/
def onDisk (x : Run (StateM Disk) α) (printed : String) (d : Disk) :
    (Except Fault α × String) × Disk :=
  (x.run.run printed).run d

theorem onDisk_bind (x : Run (StateM Disk) α) (f : α → Run (StateM Disk) β) (printed : String)
    (d : Disk) :
    (x >>= f).onDisk printed d =
      match x.onDisk printed d with
      | ((.ok a, printed'), d') => (f a).onDisk printed' d'
      | ((.error e, printed'), d') => ((.error e, printed'), d') := by
  unfold onDisk
  rw [ExceptT.run_bind, StateT.run_bind, StateT.run_bind]
  obtain ⟨⟨r, printed'⟩, d'⟩ := StateT.run (StateT.run (ExceptT.run x) printed) d
  cases r <;> rfl

theorem onDisk_lift (x : StateM Disk α) (printed : String) (d : Disk) :
    (liftM x : Run (StateM Disk) α).onDisk printed d =
      ((.ok (x.run d).1, printed), (x.run d).2) := rfl

theorem onDisk_attempt (fault : ε → Fault) (x : ExceptT ε (StateM Disk) α) (printed : String)
    (d : Disk) :
    (attempt fault x : Run (StateM Disk) α).onDisk printed d =
      (((x.run.run d).1.mapError fault, printed), (x.run.run d).2) := by
  unfold attempt
  rw [onDisk_bind, onDisk_lift]
  cases (x.run.run d).1 <;> rfl

/-- A run prints nothing and leaves the disk as it is. -/
def OnlyLooks (x : Run (StateM Disk) α) : Prop :=
  ∀ printed d, (x.onDisk printed d).1.2 = printed ∧ (x.onDisk printed d).2 = d

namespace OnlyLooks

theorem pure (a : α) : OnlyLooks (Pure.pure a) := fun _ _ => ⟨rfl, rfl⟩

theorem throw (e : Fault) : OnlyLooks (MonadExcept.throw e : Run (StateM Disk) α) :=
  fun _ _ => ⟨rfl, rfl⟩

theorem attempt {x : ExceptT ε (StateM Disk) α} (hx : OnlyReads x) (fault : ε → Fault) :
    OnlyLooks (Run.attempt fault x) := by
  intro printed d
  rw [onDisk_attempt]
  exact ⟨rfl, hx d⟩

theorem demand (fault : ε → Fault) (x : Except ε α) :
    OnlyLooks (Run.demand fault x : Run (StateM Disk) α) := by
  unfold Run.demand
  cases x with
  | ok a => exact pure a
  | error e => exact throw _

variable {x : Run (StateM Disk) α} {f : α → Run (StateM Disk) β} {printed : String} {d : Disk}

/-- Only the result of a look is new. -/
theorem onDisk_eq (hx : OnlyLooks x) {result : Except Fault α}
    (h : (x.onDisk printed d).1.1 = result) : x.onDisk printed d = ((result, printed), d) := by
  obtain ⟨hprinted, hdisk⟩ := hx printed d
  exact Prod.ext (Prod.ext h hprinted) hdisk

/-- A look that has a result is followed by what is made of the result. -/
theorem onDisk_bind (hx : OnlyLooks x) {a : α} (h : (x.onDisk printed d).1.1 = .ok a) :
    (x >>= f).onDisk printed d = (f a).onDisk printed d := by
  rw [Run.onDisk_bind, hx.onDisk_eq h]

/-- If a look with something behind it has a result, both of them have. -/
theorem exists_of_bind (hx : OnlyLooks x) {b : β} (h : ((x >>= f).onDisk printed d).1.1 = .ok b) :
    ∃ a, (x.onDisk printed d).1.1 = .ok a ∧ ((f a).onDisk printed d).1.1 = .ok b := by
  cases hresult : (x.onDisk printed d).1.1 with
  | ok a => exact ⟨a, rfl, by rwa [hx.onDisk_bind hresult] at h⟩
  | error e =>
    rw [Run.onDisk_bind, hx.onDisk_eq hresult] at h
    cases h

theorem bind (hx : OnlyLooks x) (hf : ∀ a, OnlyLooks (f a)) : OnlyLooks (x >>= f) := by
  intro printed d
  cases hresult : (x.onDisk printed d).1.1 with
  | ok a =>
    rw [hx.onDisk_bind hresult]
    exact hf a printed d
  | error e =>
    rw [Run.onDisk_bind, hx.onDisk_eq hresult]
    exact ⟨rfl, rfl⟩

end OnlyLooks

end Run

/-! ## Projects -/

namespace Command

open Run (OnlyLooks)

theorem onlyLooks_configOrDefault (root : String) :
    OnlyLooks (configOrDefault root : Run (StateM Disk) Config) := by
  unfold configOrDefault
  refine .bind (fun printed d => ?_) fun result => ?_
  · rw [Run.onDisk_lift]
    exact ⟨rfl, OnlyReads.loadConfig root d⟩
  · split
    · exact .pure _
    · exact .pure _
    · exact .throw _

theorem onlyLooks_catalogOf (root : String) (config : Config) :
    OnlyLooks (catalogOf root config : Run (StateM Disk) Catalog) :=
  .attempt (.loadCatalog root config) _

theorem onlyLooks_rulesOf (root : String) (config : Config) (catalog : Catalog) :
    OnlyLooks (rulesOf root config catalog : Run (StateM Disk) RuleSet) :=
  .attempt (.loadRules root config catalog) _

theorem onlyLooks_sessionOf (root : String) (config : Config) :
    OnlyLooks (sessionOf root config : Run (StateM Disk) Session) := by
  refine .bind (onlyLooks_catalogOf root config) fun catalog => ?_
  refine .bind (onlyLooks_rulesOf root config catalog) fun rules => ?_
  refine .bind (.demand _ _) fun deriver => ?_
  exact .bind (.demand _ _) fun window => .pure _

/-- The session of a project is a new one. -/
theorem exists_start_of_sessionOf {root printed : String} {config : Config} {d : Disk}
    {session : Session}
    (h : ((sessionOf root config : Run (StateM Disk) Session).onDisk printed d).1.1 =
      .ok session) :
    ∃ deriver rules window, session = .start deriver rules window := by
  obtain ⟨catalog, -, h⟩ := (onlyLooks_catalogOf root config).exists_of_bind h
  obtain ⟨rules, -, h⟩ := (onlyLooks_rulesOf root config catalog).exists_of_bind h
  obtain ⟨deriver, -, h⟩ := (OnlyLooks.demand _ _).exists_of_bind h
  obtain ⟨window, -, h⟩ := (OnlyLooks.demand _ _).exists_of_bind h
  cases h
  exact ⟨deriver, rules, window, rfl⟩

end Command

end Telltale
