import Mathlib.Tactic.Common
import ReportPress.Press.Work

/-!
# How work ends

Work on files ends with a result or a failure, and what it has changed stays in both cases.

* `Ends` — the work comes to a result and leaves a world.

**Putting work together.**  `ends_bind` — what follows is done only where the first part does not
fail.  `ends_pure`, `ends_throw` and `ends_outcome` go with it.

**The basic pieces of work.**  `ends_report`, `ends_look`, `ends_change` and `ends_call` say what
each of them changes; all other work is made of them, so that no proof has to open the monad.

**What work leaves alone.**  `IsQuiet`, `FailsQuietly`, `KeepsStages` — work that changes no files,
or none if it fails, or that takes no report of a stage back; each with its rule for `bind`.
-/

namespace ReportPress.Press

variable {α β : Type} {work : Work α} {w w' : World} {result : Except Failure α}
  {end' : Except Failure β} {failure : Failure}

/-- The work comes to a result and leaves a world. -/
def Ends (work : Work α) (w : World) (result : Except Failure α) (w' : World) : Prop :=
  (work.run.run w).run = (result, w')

/-! ## Putting work together -/

/-- Work ends in one way only. -/
lemma Ends.unique {other : Except Failure α} {v : World} (h : Ends work w result w')
    (h' : Ends work w other v) : other = result ∧ v = w' :=
  Prod.mk.inj (h'.symm.trans h)

lemma ends_pure {a : α} : Ends (pure a) w result w' ↔ result = .ok a ∧ w' = w := by
  constructor
  · intro h
    obtain ⟨hresult, hw⟩ := Prod.mk.inj h
    exact ⟨hresult.symm, hw.symm⟩
  · rintro ⟨rfl, rfl⟩
    rfl

lemma ends_throw : Ends (throw failure) w result w' ↔ result = .error failure ∧ w' = w := by
  constructor
  · intro h
    obtain ⟨hresult, hw⟩ := Prod.mk.inj h
    exact ⟨hresult.symm, hw.symm⟩
  · rintro ⟨rfl, rfl⟩
    rfl

/-- What follows is done only where the first part does not fail. -/
lemma ends_bind {next : α → Work β} :
    Ends (work >>= next) w end' w' ↔
      (∃ failure, Ends work w (.error failure) w' ∧ end' = .error failure) ∨
        ∃ a middle, Ends work w (.ok a) middle ∧ Ends (next a) middle end' w' := by
  have hrun : ((work >>= next).run.run w).run
      = match (work.run.run w).run with
        | (.ok a, middle) => ((next a).run.run middle).run
        | (.error failure, middle) => (.error failure, middle) := by
    change ((work.run >>= ExceptT.bindCont next).run w).run = _
    rw [StateT.run_bind, Id.run_bind]
    cases (work.run.run w).run with
    | mk first middle => cases first <;> rfl
  unfold Ends
  rw [hrun]
  cases (work.run.run w).run with
  | mk first middle =>
      cases first with
      | ok a => simp
      | error failure => simp [eq_comm, and_comm]

lemma ends_bind_ok {next : α → Work β} {b : β} :
    Ends (work >>= next) w (.ok b) w' ↔
      ∃ a middle, Ends work w (.ok a) middle ∧ Ends (next a) middle (.ok b) w' := by
  simp [ends_bind]

lemma ends_bind_error {next : α → Work β} :
    Ends (work >>= next) w (.error failure) w' ↔ Ends work w (.error failure) w' ∨
      ∃ a middle, Ends work w (.ok a) middle ∧ Ends (next a) middle (.error failure) w' := by
  simp [ends_bind]

/-- Work with something made of its result. -/
lemma ends_bind_pure {f : α → β} :
    Ends (work >>= fun a => pure (f a)) w end' w' ↔
      ∃ result, Ends work w result w' ∧ end' = result.map f := by
  rw [ends_bind]
  constructor
  · rintro (⟨failure, hwork, rfl⟩ | ⟨a, middle, hwork, hpure⟩)
    · exact ⟨.error failure, hwork, rfl⟩
    · obtain ⟨rfl, rfl⟩ := ends_pure.mp hpure
      exact ⟨.ok a, hwork, rfl⟩
  · rintro ⟨failure | a, hwork, rfl⟩
    · exact Or.inl ⟨failure, hwork, rfl⟩
    · exact Or.inr ⟨a, w', hwork, ends_pure.mpr ⟨rfl, rfl⟩⟩

/-- The outcome of work is no failure of its own. -/
lemma ends_outcome {ended : Except Failure (Except Failure α)} :
    Ends work.outcome w ended w' ↔ ∃ result, Ends work w result w' ∧ ended = .ok result := by
  unfold Ends
  have hrun : (work.outcome.run.run w).run
      = (.ok (work.run.run w).run.1, (work.run.run w).run.2) := rfl
  rw [hrun]
  cases (work.run.run w).run with
  | mk first middle => simp [eq_comm, and_comm]

/-! ## The basic pieces of work -/

lemma ends_get {read : Except Failure World} : Ends get w read w' ↔ read = .ok w ∧ w' = w := by
  constructor
  · intro h
    obtain ⟨hread, hw⟩ := Prod.mk.inj h
    exact ⟨hread.symm, hw.symm⟩
  · rintro ⟨rfl, rfl⟩
    rfl

lemma ends_ofExcept {known : Except Failure α} :
    Ends (Work.ofExcept known) w result w' ↔ result = known ∧ w' = w := by
  cases known with
  | ok a => exact ends_pure
  | error failure => exact ends_throw

lemma ends_modify {f : World → World} {done : Except Failure Unit} :
    Ends (modify f) w done w' ↔ done = .ok () ∧ w' = f w := by
  constructor
  · intro h
    obtain ⟨hdone, hw⟩ := Prod.mk.inj h
    exact ⟨hdone.symm, hw.symm⟩
  · rintro ⟨rfl, rfl⟩
    rfl

lemma ends_report {stages : List Stage} {done : Except Failure Unit} :
    Ends (Work.report stages) w done w' ↔
      done = .ok () ∧ w' = { w with stages := w.stages ++ stages } :=
  ends_modify

/-- Looking at the files changes nothing. -/
lemma ends_look {f : Files → Except Fault α} :
    Ends (Work.look f) w result w' ↔ result = (f w.files).mapError .storage ∧ w' = w := by
  rw [Work.look, ends_bind]
  simp only [ends_get, ends_ofExcept]
  constructor
  · rintro (⟨failure, ⟨h, -⟩, -⟩ | ⟨read, middle, ⟨h, rfl⟩, hresult⟩)
    · exact nomatch h
    · rwa [Except.ok.inj h] at hresult
  · exact fun h => Or.inr ⟨w, w, ⟨rfl, rfl⟩, h⟩

/-- A change that cannot be made changes nothing. -/
lemma ends_change {f : Files → Except Fault Files} {done : Except Failure Unit} :
    Ends (Work.change f) w done w' ↔
      (∃ files, f w.files = .ok files ∧ done = .ok () ∧ w' = { w with files }) ∨
        ∃ fault, f w.files = .error fault ∧ done = .error (.storage fault) ∧ w' = w := by
  rw [Work.change, ends_bind]
  simp only [ends_look, ends_modify]
  cases hf : f w.files with
  | ok files => simp [Except.mapError]
  | error fault => simp [Except.mapError, and_comm]

/-- What a program leaves stays, also if it fails. -/
lemma ends_call {programs : Programs} {c : Call} {done : Except Failure Unit} :
    Ends (Work.call programs c) w done w' ↔
      (programs c w.files = none ∧ done = .error (.stage (.cannotStart c.program)) ∧ w' = w) ∨
        ∃ outcome, programs c w.files = some outcome ∧
          w' = { w with
            files := outcome.files
            stages := w.stages ++ Stage.announced outcome.output } ∧
          done = if outcome.garbled then .error (.storage .notText)
            else if outcome.status ≠ 0 then .error (.stage (.exited c.program outcome.status))
            else .ok () := by
  rw [Work.call, ends_bind]
  simp only [ends_get]
  cases hprogram : programs c w.files with
  | none => simp [hprogram, ends_throw]
  | some outcome =>
      cases hgarbled : outcome.garbled with
      | true =>
          simp [hprogram, hgarbled, ends_bind, ends_modify, ends_report, ends_throw, and_comm]
      | false =>
          by_cases hstatus : outcome.status = 0
          · simp [hprogram, hgarbled, hstatus, ends_bind, ends_modify, ends_report, and_comm]
          · simp [hprogram, hgarbled, hstatus, ends_bind, ends_modify, ends_report, ends_throw,
              and_comm]

/-! ## What work leaves alone -/

/-- Work that changes no files. -/
def IsQuiet (work : Work α) : Prop :=
  ∀ ⦃w result w'⦄, Ends work w result w' → w'.files = w.files

/-- Work that changes no files if it fails. -/
def FailsQuietly (work : Work α) : Prop :=
  ∀ ⦃w failure w'⦄, Ends work w (.error failure) w' → w'.files = w.files

/-- Work that takes no report of a stage back. -/
def KeepsStages (work : Work α) : Prop :=
  ∀ ⦃w result w'⦄, Ends work w result w' → w.stages <+: w'.stages

lemma isQuiet_report (stages : List Stage) : IsQuiet (Work.report stages) := by
  intro w done w' h
  rw [(ends_report.mp h).2]

lemma isQuiet_look (f : Files → Except Fault α) : IsQuiet (Work.look f) := by
  intro w result w' h
  rw [(ends_look.mp h).2]

lemma isQuiet_ofExcept (known : Except Failure α) : IsQuiet (Work.ofExcept known) := by
  intro w result w' h
  rw [(ends_ofExcept.mp h).2]

lemma isQuiet_get : IsQuiet (get : Work World) := by
  intro w read w' h
  rw [(ends_get.mp h).2]

lemma isQuiet_pure (a : α) : IsQuiet (pure a) := by
  intro w result w' h
  rw [(ends_pure.mp h).2]

lemma isQuiet_throw (failure : Failure) : IsQuiet (throw failure : Work α) := by
  intro w result w' h
  rw [(ends_throw.mp h).2]

lemma IsQuiet.bind {next : α → Work β} (h : IsQuiet work) (hnext : ∀ a, IsQuiet (next a)) :
    IsQuiet (work >>= next) := by
  intro w end' w' hends
  obtain ⟨failure, hwork, -⟩ | ⟨a, middle, hwork, hrest⟩ := ends_bind.mp hends
  · exact h hwork
  · rw [hnext a hrest, h hwork]

/-- What comes before the work that can change files may fail at will. -/
lemma IsQuiet.failsQuietly_bind {next : α → Work β} (h : IsQuiet work)
    (hnext : ∀ a, FailsQuietly (next a)) : FailsQuietly (work >>= next) := by
  intro w failure w' hends
  obtain ⟨cause, hwork, -⟩ | ⟨a, middle, hwork, hrest⟩ := ends_bind.mp hends
  · exact h hwork
  · rw [hnext a hrest, h hwork]

/-- A change that is the last piece of work that can fail. -/
lemma failsQuietly_change (f : Files → Except Fault Files) (b : β) :
    FailsQuietly (Work.change f >>= fun _ => pure b) := by
  intro w failure w' h
  obtain ⟨cause, hchange, -⟩ | ⟨_, middle, -, hpure⟩ := ends_bind.mp h
  · obtain ⟨_, -, hdone, -⟩ | ⟨_, -, -, rfl⟩ := ends_change.mp hchange
    · exact nomatch hdone
    · rfl
  · exact nomatch (ends_pure.mp hpure).1

lemma keepsStages_pure (a : α) : KeepsStages (pure a) := by
  intro w result w' h
  exact (ends_pure.mp h).2 ▸ List.prefix_rfl

lemma keepsStages_get : KeepsStages (get : Work World) := by
  intro w read w' h
  exact (ends_get.mp h).2 ▸ List.prefix_rfl

lemma keepsStages_ofExcept (known : Except Failure α) : KeepsStages (Work.ofExcept known) := by
  intro w result w' h
  exact (ends_ofExcept.mp h).2 ▸ List.prefix_rfl

lemma keepsStages_report (stages : List Stage) : KeepsStages (Work.report stages) := by
  intro w done w' h
  rw [(ends_report.mp h).2]
  exact List.prefix_append _ _

lemma keepsStages_change (f : Files → Except Fault Files) : KeepsStages (Work.change f) := by
  intro w done w' h
  obtain ⟨files, -, -, rfl⟩ | ⟨fault, -, -, rfl⟩ := ends_change.mp h
  · exact List.prefix_rfl
  · exact List.prefix_rfl

lemma keepsStages_call (programs : Programs) (c : Call) :
    KeepsStages (Work.call programs c) := by
  intro w done w' h
  obtain ⟨-, -, rfl⟩ | ⟨outcome, -, rfl, -⟩ := ends_call.mp h
  · exact List.prefix_rfl
  · exact List.prefix_append _ _

lemma KeepsStages.outcome (h : KeepsStages work) : KeepsStages work.outcome := by
  intro w ended w' hends
  obtain ⟨result, hwork, -⟩ := ends_outcome.mp hends
  exact h hwork

lemma KeepsStages.bind {next : α → Work β} (h : KeepsStages work)
    (hnext : ∀ a, KeepsStages (next a)) : KeepsStages (work >>= next) := by
  intro w end' w' hends
  obtain ⟨failure, hwork, -⟩ | ⟨a, middle, hwork, hrest⟩ := ends_bind.mp hends
  · exact h hwork
  · exact (h hwork).trans (hnext a hrest)

end ReportPress.Press
