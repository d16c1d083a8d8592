import ReportPress.Compile
import ReportPress.Proofs.Markup.Composition
import ReportPress.Proofs.Markup.PlainLine

/-!
# Blocks of code from a source to a document

Every stage changes texts: lines are classified, blank lines dropped, headings and lists put in
order, markup resolved, white space collapsed.  A block of code goes through all of them as it is.

* `IsCode` — lines that a block of code can hold to the letter.
* `fencedSource`, `codeReport` — the source and the report that consist of one block of code.

**Reading.**  `reads_code` — inside a block lines are only taken down.  Joining them, taking
the white space off the ends and cutting at line feeds gives the same lines again (`close_code`,
`map_lineItem_plainLines`).

**The other stages.**  `enrich_codeReport`, `resolve_codeReport` and `typeset_codeReport` say what
becomes of a report that is a block of code.

**The result.**  `compile_fencedSource` — a block of code is compiled to a title and one paragraph
for each line.
-/

namespace ReportPress

open Text

/-- Lines that a block of code can hold to the letter: none would close it, and there is something
to see at the beginning and at the end. -/
structure IsCode (lines : List String) : Prop where
  oneLine : ∀ line ∈ lines, '\n' ∉ line.toList ∧ '\r' ∉ line.toList
  noFence : ∀ line ∈ lines, startsWith "```".toList line.toList = false
  first : ∃ line ∈ lines.head?, line ≠ ""
  last : ∃ line ∈ lines.getLast?, ∃ c ∈ line.toList.getLast?, isBlank c = false

/-- The source of a block of code, with or without a line feed at its end. -/
def fencedSource (lines : List String) (lineFeed : Bool) : String :=
  joined "\n" ("```" :: lines ++ ["```"]) ++ if lineFeed then "\n" else ""

/-- A report that is a block of code without a language. -/
def codeReport {T : Type} (title : T) (body : String) : Document T where
  sections := [{ pageStart := some 1, nodes := [.code ⟨"", title, body⟩] }]
  settings := {}

namespace Markup

variable {lines : List String}

/-! ## Reading -/

/-- Inside a block of code, lines are taken down. -/
lemma reads_code (h : ∀ line ∈ lines, startsWith "```".toList line.toList = false)
    (r : Reader) (code : OpenCode) :
    Reads { r with place := .code code } lines
      { r with place := .code { code with newest := lines.reverse ++ code.newest } } := by
  induction lines generalizing code with
  | nil => exact Reads.nil _
  | cons line lines ih =>
      obtain ⟨hline, hlines⟩ := List.forall_mem_cons.mp h
      have hstep : Reader.step { r with place := .code code } line
          = .ok { r with place := .code { code with newest := line :: code.newest } } := by
        simp only [Reader.step, hline, Bool.false_eq_true, if_false]
      refine Reads.cons hstep ?_
      rw [List.reverse_cons, List.append_assoc]
      exact ih hlines { code with newest := line :: code.newest }

/-- The lines of a block of code, one after another with line feeds, have nothing that is taken off
their ends. -/
lemma close_code (h : IsCode lines) (language title : String) :
    OpenCode.close ⟨language, title, lines.reverse⟩ = ⟨language, title, joined "\n" lines⟩ := by
  have hfirst : (joinWith ['\n'] (lines.map String.toList)).dropWhile (· = '\n')
      = joinWith ['\n'] (lines.map String.toList) := by
    obtain ⟨line, hline, hne⟩ := h.first
    obtain ⟨rest, rfl⟩ := List.head?_eq_some_iff.mp hline
    have hhead := head?_joinWith ['\n'] (rest.map String.toList)
      (String.toList_eq_nil_iff.not.mpr hne)
    rw [List.map_cons]
    cases hjoin : joinWith ['\n'] (line.toList :: rest.map String.toList) with
    | nil => rfl
    | cons c cs =>
        rw [hjoin, List.head?_cons] at hhead
        have hmem : c ∈ line.toList := List.mem_of_head? hhead.symm
        have hc : c ≠ '\n' := fun heq => (h.oneLine line List.mem_cons_self).1 (heq ▸ hmem)
        rw [List.dropWhile_cons_of_neg (by simpa using hc)]
  have hlast : trimEnd (joinWith ['\n'] (lines.map String.toList))
      = joinWith ['\n'] (lines.map String.toList) := by
    obtain ⟨line, hline, d, hd, hblank⟩ := h.last
    obtain ⟨before, rfl⟩ := List.getLast?_eq_some_iff.mp hline
    have hne : line.toList ≠ [] := fun heq => by simp [heq] at hd
    refine dropEndWhile_eq_self fun c hc => ?_
    rw [List.map_append, List.map_singleton, getLast?_joinWith_concat _ _ hne] at hc
    obtain rfl : d = c := Option.some.inj (hd.symm.trans hc)
    exact hblank
  simp only [OpenCode.close, List.reverse_reverse, hfirst, hlast]
  rfl

/-- The lines of the source are the fences and the lines between them. -/
lemma sourceLines_fenced (h : IsCode lines) :
    sourceLines (joined "\n" ("```" :: lines ++ ["```"])) = "```" :: lines ++ ["```"] := by
  have hline : ∀ line ∈ "```" :: lines ++ ["```"], '\n' ∉ line.toList ∧ '\r' ∉ line.toList := by
    have hfence : '\n' ∉ "```".toList ∧ '\r' ∉ "```".toList := by decide
    rw [List.forall_mem_append, List.forall_mem_cons, List.forall_mem_singleton]
    exact ⟨⟨hfence, h.oneLine⟩, hfence⟩
  rw [sourceLines_joined (by simp) fun line hmem => (hline line hmem).1]
  conv_rhs => rw [← List.map_id ("```" :: lines ++ ["```"])]
  refine List.map_congr_left fun line hmem => ?_
  rw [dropEnd_of_not_mem (hline line hmem).2, String.ofList_toList]
  rfl

/-- A block of code is read as such, without a language and without a title. -/
lemma parse_fencedSource (h : IsCode lines) (lineFeed : Bool) :
    parse (fencedSource lines lineFeed) = .ok ⟨codeReport "" (joined "\n" lines), []⟩ := by
  have hsource := sourceLines_fenced h
  have hopen : Reader.step {} "```" = .ok { place := .code ⟨"", "", []⟩ } := by
    have hfence : classify "```" = .ok ⟨.fence, "", 0⟩ := by decide
    simp only [Reader.step, hfence, bind, Except.bind]
    rfl
  have hclose : Reader.step { place := .code ⟨"", "", lines.reverse⟩ } "```"
      = .ok { newest := [.code ⟨"", "", joined "\n" lines⟩] } := by
    rw [← close_code h]
    rfl
  have hreads : Reads {} ("```" :: lines ++ ["```"])
      { newest := [.code ⟨"", "", joined "\n" lines⟩] } := by
    have hlines := reads_code h.noFence {} ⟨"", "", []⟩
    rw [List.append_nil] at hlines
    exact (Reads.cons hopen hlines).append (Reads.cons hclose (Reads.nil _))
  cases lineFeed with
  | false =>
      rw [fencedSource, if_neg Bool.false_ne_true, String.append_empty,
        parse_of_reads (hsource ▸ hreads)]
      rfl
  | true =>
      have hsource' : sourceLines (fencedSource lines true)
          = ("```" :: lines ++ ["```"]) ++ [""] := by
        rw [fencedSource, if_pos rfl, ← String.append_empty (s := _ ++ "\n"), sourceLines_append,
          hsource]
        rfl
      have hblank : Reader.step { newest := [.code ⟨"", "", joined "\n" lines⟩] } ""
          = .ok { newest := [.ofText "", .code ⟨"", "", joined "\n" lines⟩] } := by
        have hempty : classify "" = .ok ⟨.plain, "", 0⟩ := by decide
        simp only [Reader.step, hempty, bind, Except.bind]
        rfl
      rw [parse_of_reads (hsource' ▸ hreads.append (Reads.cons hblank (Reads.nil _)))]
      rfl

end Markup

/-! ## The other stages -/

/-- The conventions for reports leave code as it is. -/
lemma enrich_codeReport (title body : String) :
    Enrich.enrich (codeReport title body) = (codeReport title body, []) :=
  rfl

/-- Only the title of a block of code is replaced. -/
lemma traverse_codeReport {T U σ : Type} (f : T → StateM σ U) (title : T) (body : String) (s : σ) :
    ((codeReport title body).traverse f).run s
      = (codeReport ((f title).run s).1 body, ((f title).run s).2) :=
  rfl

/-- There is nothing to be seen of an empty title. -/
lemma resolve_codeReport (body : String) (hue : Inline.Hue) :
    ((Inline.resolveDocument (codeReport "" body)).run hue).1 = codeReport [] body := by
  have htitle : (Inline.resolve false "").run hue = ([], hue) := by
    have hplain : Inline.plainRunes "" = [.plain ""] := by decide
    rw [Inline.resolve, hplain]
    rfl
  have hresolve : Inline.resolveDocument (codeReport "" body)
      = (codeReport "" body).traverse (Inline.resolve false) := by
    rw [Inline.resolveDocument]
    rfl
  rw [hresolve, traverse_codeReport, htitle]

namespace Typeset

open Word (Block)

/-- Blocks are set one below the other. -/
lemma blocksOf_map_block (bs : List Block) : blocksOf (bs.map .block) = bs := by
  have hfold (above : List Block) :
      (bs.map FlowItem.block).foldl placeBelow above = above ++ bs := by
    induction bs generalizing above with
    | nil => exact (List.append_nil above).symm
    | cons b bs ih =>
        rw [List.map_cons, List.foldl_cons, ih, placeBelow, List.append_assoc,
          List.singleton_append]
  exact hfold []

/-- A line of code without colours. -/
def codeParagraph (line : String) : Word.Paragraph :=
  { inlines := if line = "" then [] else [.run (.ofText line)], style := some "Code" }

lemma text_codeParagraph (line : String) : (codeParagraph line).text = line := by
  unfold codeParagraph Word.Paragraph.text
  split_ifs with hempty
  · rw [hempty]
    rfl
  · simp [Word.Inline.text, Word.Run.text, Word.Run.ofText, String.join_cons]

/-- Cutting the body of a block of code gives its lines again. -/
lemma map_lineItem_plainLines {lines : List String} (h : IsCode lines) :
    (Code.plainLines (joined "\n" lines)).map lineItem
      = lines.map fun line => .block (.paragraph (codeParagraph line)) := by
  have hne : lines.map String.toList ≠ [] := by
    obtain ⟨line, hline, -⟩ := h.first
    rintro heq
    rw [List.map_eq_nil_iff.mp heq] at hline
    exact nomatch hline
  have hsplit : splitOn '\n' (joined "\n" lines).toList = lines.map String.toList := by
    rw [joined, String.toList_ofList]
    exact splitOn_joinWith hne (List.forall_mem_map.mpr fun line hline => (h.oneLine line hline).1)
  rw [Code.plainLines, hsplit, List.map_map, List.map_map]
  refine List.map_congr_left fun line hline => ?_
  rw [Function.comp_apply, Function.comp_apply, dropEnd_of_not_mem (h.oneLine line hline).2,
    lineItem, codeParagraph, Code.plainLine, String.ofList_toList]
  by_cases hempty : line = ""
  · rw [if_pos hempty, if_pos (String.toList_eq_nil_iff.mpr hempty)]
    rfl
  · rw [if_neg hempty, if_neg (String.toList_eq_nil_iff.not.mpr hempty)]
    rfl

/-- A block of code is set as its title and one paragraph for each line. -/
lemma typeset_codeReport {lines : List String} (h : IsCode lines) (files : Files)
    (directory : Path) (making : Making) (tools : Tools) :
    ∃ doc, typeset files directory making (codeReport [] (joined "\n" lines)) tools = .ok doc ∧
      doc.sections.flatMap (·.blocks)
        = .paragraph (.ofStyle "CodeTitle") ::
          lines.map fun line => .paragraph (codeParagraph line) := by
  have hset : typeset files directory making (codeReport [] (joined "\n" lines)) tools = .ok
      (({ definitions := [], properties := propertiesOf making {}, updateFields := true } :
        Word.Document).withSections
        [{ blocks := blocksOf (FlowItem.block (.paragraph (.ofStyle "CodeTitle")) ::
              (Code.plainLines (joined "\n" lines)).map lineItem)
           setup := { Word.PageSetup.report with pageStart := some 1 }
           footer := [numberFooter] }]) := by
    generalize joined "\n" lines = body
    rw [← List.append_nil ((Code.plainLines body).map lineItem), ← List.cons_append]
    rfl
  refine ⟨_, hset, ?_⟩
  have hitems : FlowItem.block (.paragraph (.ofStyle "CodeTitle")) ::
      (Code.plainLines (joined "\n" lines)).map lineItem
        = (Block.paragraph (.ofStyle "CodeTitle") ::
            lines.map fun line => .paragraph (codeParagraph line)).map FlowItem.block := by
    rw [map_lineItem_plainLines h, List.map_cons, List.map_map]
    rfl
  rw [hitems, blocksOf_map_block]
  exact List.flatMap_singleton ..

end Typeset

/-! ## The result -/

/-- A report that is read and set is compiled. -/
lemma compile_of_readReport {files : Files} {directory : Path} {making : Typeset.Making}
    {tools : Typeset.Tools} {source : String} {report : RawDocument}
    {diagnostics : List Diagnostic} {doc : Word.Document}
    (hread : readReport source = .ok (report, diagnostics))
    (hset : typesetRaw files directory making report tools = .ok doc) :
    compile files directory making source tools = .ok ⟨doc, diagnostics⟩ := by
  simp only [compile, hread, hset, bind, Except.bind, pure, Except.pure]

/-- A block of code is compiled, whatever its lines look like, to a title and one paragraph for each
line, and nothing else. -/
theorem compile_fencedSource {lines : List String} (h : IsCode lines) (lineFeed : Bool)
    (files : Files) (directory : Path) (making : Typeset.Making) (tools : Typeset.Tools) :
    ∃ (compiled : Compiled) (paragraphs : List Word.Paragraph),
      compile files directory making (fencedSource lines lineFeed) tools = .ok compiled ∧
        compiled.diagnostics = [] ∧
        compiled.document.sections.flatMap (·.blocks) = paragraphs.map .paragraph ∧
        paragraphs.map (fun p => (p.style, p.text))
          = (some "CodeTitle", "") :: lines.map fun line => (some "Code", line) := by
  obtain ⟨doc, hset, hblocks⟩ := Typeset.typeset_codeReport h files directory making tools
  have hread : readReport (fencedSource lines lineFeed)
      = .ok (codeReport "" (joined "\n" lines), []) := by
    simp only [readReport, Markup.parse_fencedSource h, enrich_codeReport, Except.mapError, bind,
      Except.bind, pure, Except.pure, List.append_nil]
  have htypeset : typesetRaw files directory making (codeReport "" (joined "\n" lines)) tools
      = .ok doc := by
    rw [typesetRaw, resolve_codeReport, hset]
  have hcompile := compile_of_readReport hread htypeset
  refine ⟨⟨doc, []⟩, .ofStyle "CodeTitle" :: lines.map Typeset.codeParagraph, hcompile, rfl, ?_, ?_⟩
  · rw [hblocks, List.map_cons, List.map_map]
    rfl
  · have htitle : (Word.Paragraph.ofStyle "CodeTitle").text = "" := rfl
    have hlines : (lines.map Typeset.codeParagraph).map (fun p => (p.style, p.text))
        = lines.map fun line => (some "Code", line) := by
      rw [List.map_map]
      refine List.map_congr_left fun line _ => ?_
      rw [Function.comp_apply, Typeset.text_codeParagraph, Typeset.codeParagraph]
    rw [List.map_cons, hlines, htitle, Word.Paragraph.ofStyle]

/-- Lines that would be a heading, an item, a directive and a table outside of a block of code. -/
def markupLines : List String :=
  ["# Heading ", "    * item *bold* [to](#a)", "", "!!rule rainbow", "| a | b |", " - ```"]

lemma isCode_markupLines : IsCode markupLines where
  oneLine := by decide
  noFence := by decide
  first := ⟨"# Heading ", rfl, by decide⟩
  last := ⟨" - ```", rfl, '`', rfl, by decide⟩

/-- The statement for lines that are full of markup. -/
theorem compile_fencedSource_markupLines :
    ∃ (compiled : Compiled) (paragraphs : List Word.Paragraph),
      compile {} ⟨"/"⟩ ⟨0, 0⟩ (fencedSource markupLines true) = .ok compiled ∧
        compiled.diagnostics = [] ∧
        compiled.document.sections.flatMap (·.blocks) = paragraphs.map .paragraph ∧
        paragraphs.map (fun p => (p.style, p.text))
          = (some "CodeTitle", "") :: markupLines.map fun line => (some "Code", line) :=
  compile_fencedSource isCode_markupLines true {} ⟨"/"⟩ ⟨0, 0⟩ {}

end ReportPress
