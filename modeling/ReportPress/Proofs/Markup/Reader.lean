import ReportPress.Markup.Reader
import ReportPress.Proofs.Text.Words

/-!
# Reading line after line

* `Reads` — some lines take a reader from one state to another, one step for each line.  Where in
  the source the lines stand plays no part in that, it only shows in the message of a failure.
* `Reads.append`, `Reads.exists_of_append` — some lines after others.
* `reads_iff_readLines` — `Reads` is what `readLines` does when no line is at fault.
* `Reads.keeps` — what every step keeps, every run keeps.

**Whole sources.**  `sourceLines_joined` says that lines joined by line feeds are the lines of the
source, up to carriage returns, and `parse_of_reads` turns a run over the lines of a source into a
report.
-/

namespace ReportPress.Markup

open Text

/-- The lines take one state of the reader to another. -/
inductive Reads : Reader → List String → Reader → Prop
  | nil (r : Reader) : Reads r [] r
  | cons {r next last : Reader} {raw : String} {rest : List String} :
      r.step raw = .ok next → Reads next rest last → Reads r (raw :: rest) last

variable {r last : Reader} {lines : List String}

/-! ## Runs -/

lemma Reads.append {middle : Reader} {before after : List String} (h : Reads r before middle)
    (hafter : Reads middle after last) : Reads r (before ++ after) last := by
  induction h with
  | nil => exact hafter
  | cons hstep _ ih => exact Reads.cons hstep (ih hafter)

/-- A run over some lines and others after them passes through the state between them. -/
lemma Reads.exists_of_append : ∀ {before after : List String} {r : Reader},
    Reads r (before ++ after) last → ∃ middle, Reads r before middle ∧ Reads middle after last
  | [], after, r, h => ⟨r, Reads.nil r, h⟩
  | raw :: before, after, r, h => by
      cases h with
      | cons hstep hrest =>
          obtain ⟨middle, hbefore, hafter⟩ := hrest.exists_of_append
          exact ⟨middle, Reads.cons hstep hbefore, hafter⟩

lemma Reads.readLines_eq (h : Reads r lines last) (number : Nat) :
    readLines r number lines = .ok last := by
  induction h generalizing number with
  | nil => rfl
  | cons hstep _ ih =>
      rw [readLines, hstep]
      exact ih (number + 1)

lemma reads_of_readLines : ∀ {lines : List String} {r : Reader} {number : Nat},
    readLines r number lines = .ok last → Reads r lines last
  | [], r, number, h => by
      rw [readLines, Except.ok.injEq] at h
      rw [h]
      exact Reads.nil last
  | raw :: rest, r, number, h => by
      rw [readLines] at h
      cases hstep : r.step raw with
      | error fault => simp [hstep] at h
      | ok next =>
          rw [hstep] at h
          exact Reads.cons hstep (reads_of_readLines h)

/-- A run is what `readLines` does when no line is at fault, wherever it begins to count. -/
theorem reads_iff_readLines (number : Nat) :
    Reads r lines last ↔ readLines r number lines = .ok last :=
  ⟨fun h => h.readLines_eq number, reads_of_readLines⟩

/-- What every step keeps, every run keeps. -/
theorem Reads.keeps {P : Reader → Prop} (h : Reads r lines last)
    (hstep : ∀ {r next : Reader}, ∀ raw ∈ lines, P r → r.step raw = .ok next → P next)
    (hr : P r) : P last := by
  induction h with
  | nil => exact hr
  | @cons r next last raw rest h _ ih =>
      have hnext : P next := hstep raw List.mem_cons_self hr h
      exact ih (fun raw hraw => hstep raw (List.mem_cons_of_mem _ hraw)) hnext

/-- A line of plain text is one more line of the paragraph before it. -/
lemma step_of_plain {p : Paragraph String} {before : List (Node String)} {raw text : String}
    (hplace : r.place = .paragraphs) (hnewest : r.newest = .text p :: before)
    (hraw : classify raw = .ok ⟨.plain, text, 0⟩) (hp : p.text.isEmpty = false)
    (htext : (trimmed raw).isEmpty = false) :
    r.step raw = .ok
      { r with newest := .text { p with text := p.text ++ "\n" ++ trimmed raw } :: before } := by
  obtain ⟨place, newest, settings, found⟩ := r
  dsimp only at hplace hnewest
  subst hplace hnewest
  simp only [Reader.step, hraw, bind, Except.bind, pure, Except.pure, Reader.take, Reader.pushText,
    hp, htext, Bool.false_eq_true, if_false]

/-! ## Whole sources -/

/-- Lines joined by line feeds are the lines of the source; a carriage return at the end of a line
does not count. -/
theorem sourceLines_joined (hne : lines ≠ []) (h : ∀ line ∈ lines, '\n' ∉ line.toList) :
    sourceLines (joined "\n" lines)
      = lines.map fun line => String.ofList (dropEnd '\r' line.toList) := by
  have hsplit : splitOn '\n' (joinWith ['\n'] (lines.map String.toList))
      = lines.map String.toList := by
    refine splitOn_joinWith (by simpa using hne) fun piece hpiece => ?_
    obtain ⟨line, hline, rfl⟩ := List.mem_map.mp hpiece
    exact h line hline
  rw [sourceLines, joined, String.toList_ofList]
  change List.map _ (splitOn '\n' (joinWith ['\n'] (lines.map String.toList))) = _
  rw [hsplit, List.map_map]
  rfl

lemma not_mem_of_mem_sourceLines {source line : String} (h : line ∈ sourceLines source) :
    '\n' ∉ line.toList := by
  obtain ⟨piece, hpiece, rfl⟩ := List.mem_map.mp h
  rw [String.toList_ofList]
  exact fun hmem => not_mem_of_mem_splitOn hpiece (mem_of_mem_dropEnd hmem)

/-- A run over the lines of a source makes a report of what has been read at its end. -/
theorem parse_of_reads {source : String} (h : Reads {} (sourceLines source) last) :
    parse source = .ok {
      document :=
        { sections := [{ pageStart := some 1, nodes := (detect last.finish.newest.reverse).1 }]
          settings := last.finish.settings }
      diagnostics := last.finish.found.reverse ++ (detect last.finish.newest.reverse).2 } := by
  rw [parse, h.readLines_eq 1]
  rfl

/-- A source that is read has a run, and the report is what has been read at its end. -/
lemma exists_reads_of_parse {source : String} {parsed : Parsed} (h : parse source = .ok parsed) :
    ∃ last, Reads {} (sourceLines source) last ∧ parsed.document =
      { sections := [{ pageStart := some 1, nodes := (detect last.finish.newest.reverse).1 }]
        settings := last.finish.settings } := by
  cases hr : readLines {} 1 (sourceLines source) with
  | error fault =>
      rw [parse, hr] at h
      exact absurd h (by simp [bind, Except.bind])
  | ok last =>
      have hrun : Reads {} (sourceLines source) last := reads_of_readLines hr
      rw [parse_of_reads hrun, Except.ok.injEq] at h
      exact ⟨last, hrun, by rw [← h]⟩

theorem reads_of_parse {source : String} {parsed : Parsed} (h : parse source = .ok parsed) :
    ∃ last, Reads {} (sourceLines source) last ∧
      parsed.document.sections =
        [{ pageStart := some 1, nodes := (detect last.finish.newest.reverse).1 }] := by
  obtain ⟨last, hrun, hdocument⟩ := exists_reads_of_parse h
  exact ⟨last, hrun, by rw [hdocument]⟩

end ReportPress.Markup
