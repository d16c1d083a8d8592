import ReportPress.Proofs.Markup.Agreement

/-!
# Sources put together at a heading

A heading ends whatever paragraph or list is open, and nothing behind it reaches back across it:
no line joins a paragraph above it, no list goes on behind it, and no table below it takes its
caption from above.  So a source that begins with a heading can be put behind another one and read
as if it stood alone.  The one thing that a heading does not end is a block of code.

* `sourceLines_append` — the lines of two sources with a line feed between them.
* `Reader.exists_step_heading` — a heading is read as such wherever no block of code is open; what
  lies below it is what would have been read if the source had ended there.
* `Reader.exists_reads_heading` — the lines behind the heading are read as they are read alone.
* **`parse_append_heading`** — the nodes of the whole are those of the parts, in order.

The two runs over the second source, behind the first one and alone, are compared by
`Reader.AgreeAbove`: they have read the same since the heading.
-/

namespace ReportPress.Markup

open Text

variable {r : Reader} {raw : String}

/-- The lines of two sources with a line feed between them. -/
lemma sourceLines_append (a b : String) :
    sourceLines (a ++ "\n" ++ b) = sourceLines a ++ sourceLines b := by
  have hcut : (a ++ "\n" ++ b).toList = a.toList ++ '\n' :: b.toList := by simp
  rw [sourceLines, hcut, splitOn_append_cons, List.map_append]
  rfl

lemma sourceLines_ne_nil (source : String) : sourceLines source ≠ [] := by
  simp [sourceLines, splitOn_ne_nil]

namespace Reader

/-- A heading is read as such wherever no block of code is open.  Below it lies what would have
been read if the source had ended there. -/
lemma exists_step_heading (hplace : r.place.isCode = false) {level : Nat} {text : String}
    (hline : classify raw = .ok ⟨.heading level, text, 0⟩) :
    ∃ next below, r.step raw = .ok next ∧ next.place = .paragraphs ∧
      next.newest = .ofTitle text level :: below ∧
      dropEmptyTexts below = dropEmptyTexts r.finish.newest := by
  cases hr : r.place with
  | code code => simp [hr, Place.isCode] at hplace
  | paragraphs =>
      refine ⟨_, r.newest, StepsTo.step_eq (.paragraph hr hline), rfl, rfl, ?_⟩
      rw [finish, hr]
  | lists opened blank =>
      have hbare : Line.bare ⟨.heading level, text, 0⟩ = .ok ⟨.heading level, text, 0⟩ := rfl
      refine ⟨_, _, StepsTo.step_eq (.ends hr hline hbare rfl rfl), rfl, rfl, ?_⟩
      rw [finish, hr]
      cases blank <;> rfl

/-- Lines that begin with a heading, read behind others and read alone.  The nodes above the title
are the same, and below it lies what had been read before. -/
lemma exists_reads_heading {heading : String} {rest : List String} {alone : Reader}
    (hplace : r.place.isCode = false) (hheading : IsHeading heading)
    (hrun : Reads {} (heading :: rest) alone) :
    ∃ last text level top below, Reads r (heading :: rest) last ∧
      alone.finish.newest = top ++ [.ofTitle text level] ∧
      last.finish.newest = top ++ .ofTitle text level :: below ∧
      dropEmptyTexts below = dropEmptyTexts r.finish.newest := by
  obtain ⟨level, text, hline⟩ := classify_of_isHeading hheading
  obtain ⟨next, below, hnext, hparagraphs, hnewest, hbelow⟩ := exists_step_heading hplace hline
  cases hrun with
  | cons hfirst hrest =>
      have hstep : step {} heading = .ok { newest := [.ofTitle text level] } :=
        StepsTo.step_eq (.paragraph rfl hline)
      rw [hstep, Except.ok.injEq] at hfirst
      rw [← hfirst] at hrest
      -- both readers have read the same since the title
      have hagree : AgreeAbove (.ofTitle text level) [] below { newest := [.ofTitle text level] }
          next := ⟨hparagraphs.symm, [], rfl, hnewest⟩
      have hnode : ∀ p, Node.ofTitle text level ≠ .text p := by simp [Node.ofTitle]
      obtain ⟨last, hrun, hlast⟩ := (agreement_agreeAbove hnode).reads hagree hrest
      obtain ⟨-, top, htop, htop'⟩ := (agreement_agreeAbove hnode).finish hlast
      exact ⟨last, text, level, top, below, .cons hnext hrun, htop, htop', hbelow⟩

end Reader

/-- A source that begins with a heading, behind a source in which every block of code is closed:
the whole is read, and its nodes are those of the two sources, in order. -/
theorem parse_append_heading {a b : String} {before after : Parsed} (ha : parse a = .ok before)
    (hb : parse b = .ok after) (hclosed : codeIsOpen (sourceLines a) = false)
    (hheading : IsHeading ((sourceLines b).headD "")) :
    ∃ parsed, parse (a ++ "\n" ++ b) = .ok parsed ∧
      parsed.document.sections =
        [{ pageStart := some 1, nodes := before.document.nodes ++ after.document.nodes }] := by
  obtain ⟨ra, hruna, rfl⟩ := parse_eq_ok_iff.mp ha
  obtain ⟨rb, hrunb, rfl⟩ := parse_eq_ok_iff.mp hb
  obtain ⟨heading, rest, hlines⟩ := List.exists_cons_of_ne_nil (sourceLines_ne_nil b)
  rw [hlines] at hrunb hheading
  have hcode : ra.place.isCode = false := by
    rw [hruna.isCode_place]
    exact hclosed
  obtain ⟨last, text, level, top, below, hrun, htop, htop', hbelow⟩ :=
    Reader.exists_reads_heading hcode hheading hrunb
  have hnode : ∀ p, Node.ofTitle text level ≠ .text p := by simp [Node.ofTitle]
  have hwhole : Reads {} (sourceLines (a ++ "\n" ++ b)) last := by
    rw [sourceLines_append, hlines]
    exact hruna.append hrun
  refine ⟨last.report, parse_eq_ok_iff.mpr ⟨last, hwhole, rfl⟩, ?_⟩
  have hbefore : ra.report.document.nodes = (detect below.reverse).1 := by
    rw [Reader.nodes_report, ← detect_reverse_congr hbelow]
  have hafter : rb.report.document.nodes = .ofTitle text level :: (detect top.reverse).1 := by
    rw [Reader.nodes_report, htop, List.reverse_append]
    exact detect_append_block hnode [] top.reverse
  have hboth : last.report.document.nodes
      = (detect below.reverse).1 ++ .ofTitle text level :: (detect top.reverse).1 := by
    rw [Reader.nodes_report, htop', List.reverse_append, List.reverse_cons, List.append_assoc,
      List.singleton_append, detect_append_block hnode]
  rw [hbefore, hafter, ← hboth]
  simp [Document.nodes, Reader.report]

/-- Behind a block of code with a number sign in it and lists that are still open, a heading and a
paragraph. -/
theorem parse_append_heading_openLists :
    ∃ before after parsed,
      parse "```\n# code\n```\n* one\n    1. two\n" = .ok before ∧
        parse "## Words\nlast" = .ok after ∧
        codeIsOpen (sourceLines "```\n# code\n```\n* one\n    1. two\n") = false ∧
        IsHeading ((sourceLines "## Words\nlast").headD "") ∧
        parse ("```\n# code\n```\n* one\n    1. two\n" ++ "\n" ++ "## Words\nlast") = .ok parsed ∧
        parsed.document.sections =
          [{ pageStart := some 1, nodes := before.document.nodes ++ after.document.nodes }] := by
  have hlines : sourceLines "```\n# code\n```\n* one\n    1. two\n"
      = ["```", "# code", "```", "* one", "    1. two", ""] := rfl
  have hlines' : sourceLines "## Words\nlast" = ["## Words", "last"] := rfl
  have hread : ∃ last, Reads {} (sourceLines "```\n# code\n```\n* one\n    1. two\n") last := by
    rw [hlines]
    exact ⟨_, .cons rfl (.cons rfl (.cons rfl (.cons rfl (.cons rfl (.cons rfl (.nil _))))))⟩
  have hread' : ∃ last, Reads {} (sourceLines "## Words\nlast") last := by
    rw [hlines']
    exact ⟨_, .cons rfl (.cons rfl (.nil _))⟩
  have hclosed : codeIsOpen (sourceLines "```\n# code\n```\n* one\n    1. two\n") = false := by
    rw [hlines]
    decide
  have hheading : IsHeading ((sourceLines "## Words\nlast").headD "") :=
    ⟨2, by decide, by decide, rfl⟩
  obtain ⟨last, hread⟩ := hread
  obtain ⟨last', hread'⟩ := hread'
  have hbefore := parse_eq_ok_iff.mpr ⟨last, hread, rfl⟩
  have hafter := parse_eq_ok_iff.mpr ⟨last', hread', rfl⟩
  obtain ⟨parsed, hparsed, hnodes⟩ := parse_append_heading hbefore hafter hclosed hheading
  exact ⟨_, _, parsed, hbefore, hafter, hclosed, hheading, hparsed, hnodes⟩

end ReportPress.Markup
