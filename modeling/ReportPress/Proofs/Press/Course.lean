import ReportPress.Press.Render
import ReportPress.Proofs.Press.Work

/-!
# The course of the work

A document is drafted; then it takes its final name, or finishing touches follow.  These come in
three parts: what an earlier run exported is cleared away, a first program makes the document, and,
if pages are wanted, a second one joins what was exported.

* `ends_renderFile` — the ways in which making a report ends.
* `cleared`, `touched`, `exported` — the parts of the finishing touches.
* `finished_eq` — the finishing touches are these parts one after the other.
* `stages_finished` — the finishing touches are reported whenever they are begun, and the report is
  not taken back.
-/

namespace ReportPress.Press

variable {programs : Programs} {o : Options} {now : Int} {source : Path} {paths : OutputPaths}
  {tools : Typeset.Tools} {w w' : World} {result : Except Failure Rendered}

/-! ## The ways in which making a report ends -/

lemma ends_renderFile (h : Ends (renderFile programs o now source tools) w result w') :
    let paths := OutputPaths.ofSource source
    (∃ failure, Ends (draft o now source paths tools) w (.error failure) w' ∧
        result = .error failure) ∨
      ∃ diagnostics finishing drafted,
        Ends (draft o now source paths tools) w (.ok (diagnostics, finishing)) drafted ∧
          if finishing = true then
            ∃ made, Ends (finished programs o paths) drafted made w' ∧
              result = made.map fun output => ⟨output, diagnostics⟩
          else
            ∃ moved, Ends (Work.change (·.rename paths.temp paths.docx)) drafted moved w' ∧
              result = moved.map fun _ => ⟨paths.docx, diagnostics⟩ := by
  rw [renderFile] at h
  obtain hfailed | ⟨⟨diagnostics, finishing⟩, drafted, hdraft, hrest⟩ := ends_bind.mp h
  · exact Or.inl hfailed
  · refine Or.inr ⟨diagnostics, finishing, drafted, hdraft, ?_⟩
    cases finishing with
    | true => exact ends_bind_pure.mp hrest
    | false => exact ends_bind_pure.mp hrest

/-! ## The parts of the finishing touches -/

/-- What an earlier run exported is cleared away. -/
def cleared (o : Options) (paths : OutputPaths) : Work Unit :=
  if o.renderPdf then removeFolder paths.pdfParts else pure ()

/-- The exported parts are joined. -/
def exported (programs : Programs) (o : Options) (paths : OutputPaths) : Work Path := do
  Work.report [.merging]
  let parts ← Work.ofExcept (exportedParts (← get).files paths.pdfParts)
  join programs o parts paths.pdf
  removeFolder paths.pdfParts
  return paths.pdf

/-- The document is made, and the one for the time being removed. -/
def touched (programs : Programs) (o : Options) (paths : OutputPaths) : Work Path := do
  let result ← (finish programs o paths.directory paths.temp paths.docx).outcome
  removeQuietly paths.temp
  Work.ofExcept result
  if o.renderPdf then exported programs o paths else return paths.docx

/-- The finishing touches are their parts one after the other. -/
lemma finished_eq : finished programs o paths =
    Work.report [.finishing] >>= fun _ =>
      cleared o paths >>= fun _ => touched programs o paths := by
  rw [finished, cleared]
  unfold touched exported
  cases o.renderPdf with
  | true => rfl
  | false => simp only [Bool.false_eq_true, if_false, pure_bind]

/-! ## Stages -/

lemma keepsStages_removeFolder (folder : Path) : KeepsStages (removeFolder folder) :=
  keepsStages_change _

lemma keepsStages_cleared (o : Options) (paths : OutputPaths) :
    KeepsStages (cleared o paths) := by
  rw [cleared]
  split_ifs
  · exact keepsStages_removeFolder _
  · exact keepsStages_pure _

lemma keepsStages_exported (programs : Programs) (o : Options) (paths : OutputPaths) :
    KeepsStages (exported programs o paths) := by
  refine (keepsStages_report _).bind fun _ => ?_
  refine keepsStages_get.bind fun read => ?_
  refine (keepsStages_ofExcept _).bind fun parts => ?_
  refine (keepsStages_call _ _).bind fun _ => ?_
  exact (keepsStages_removeFolder _).bind fun _ => keepsStages_pure _

lemma keepsStages_touched (programs : Programs) (o : Options) (paths : OutputPaths) :
    KeepsStages (touched programs o paths) := by
  refine (keepsStages_call _ _).outcome.bind fun result => ?_
  refine (keepsStages_change _).bind fun _ => ?_
  refine (keepsStages_ofExcept _).bind fun _ => ?_
  split_ifs
  · exact keepsStages_exported _ _ _
  · exact keepsStages_pure _

/-- The finishing touches are reported whenever they are begun. -/
theorem stages_finished {made : Except Failure Path}
    (h : Ends (finished programs o paths) w made w') :
    w.stages ++ [.finishing] <+: w'.stages := by
  rw [finished_eq] at h
  obtain ⟨_, hreport, -⟩ | ⟨_, middle, hreport, hrest⟩ := ends_bind.mp h
  · exact nomatch (ends_report.mp hreport).1
  · obtain ⟨-, rfl⟩ := ends_report.mp hreport
    exact (keepsStages_cleared o paths).bind (fun _ => keepsStages_touched _ _ _) hrest

end ReportPress.Press
