import ReportPress.Proofs.Typeset.SetText
import ReportPress.Proofs.Word.Integrity
import ReportPress.Proofs.Word.ShownText

/-!
# The text of a report in its package

The text of a document is printed as XML.  For every report the print can be read, and it shows
the texts of the document.

* `resolved_areWithin` — a raw report whose strings and placeholders consist of characters with a
  property is resolved into nodes of such characters.

**The text.**  `exists_isPart_document` — the package of a document that is set for a raw report has
a part with its text, which is read as one element.  This shows the texts of the runs of the
document, each as it is, in their order and nothing else.
-/

namespace ReportPress.Typeset

open Inline

variable {P : Char → Prop} {files : Files} {directory : Path} {making : Making} {tools : Tools}
  {d : RawDocument} {hue : Hue} {doc : Word.Document}

/-- The strings of a raw report are those of the resolved one. -/
lemma resolved_areWithin {s : Surroundings} (hcut : s.tools.Keeps P)
    (hstrings : ∀ n ∈ d.parts, ∀ string ∈ n.strings, ∀ c ∈ string.toList, P c)
    (hmarks : ∀ c ∈ typographyMarks, P c)
    (hexternal : ∀ e, Node.external e ∈ d.parts → ∀ text,
      placeholder s.files s.directory e = .ok text → ∀ c ∈ text.toList, P c) :
    AreWithin P s ((resolveDocument d).run hue).1.parts := by
  have hpart {n : Node Runes} (hn : n ∈ ((resolveDocument d).run hue).1.parts) :
      ∃ k ∈ d.parts, ∃ hue', n = ((k.traverse (resolve d.settings.rainbow)).run hue').1 :=
    Document.exists_part_of_traverse hn
  constructor
  case cut => exact hcut
  case runes =>
    refine resolveDocument_isWithin (fun text htext => ?_) hmarks
    obtain ⟨n, hn, htext⟩ := List.mem_flatMap.mp htext
    exact hstrings n hn text (n.ownTexts_subset_strings htext)
  case code =>
    intro c hc
    obtain ⟨k, hk, hue', heq⟩ := hpart hc
    cases k with
    | code raw =>
        cases heq
        exact hstrings _ hk raw.body (by simp [Node.strings])
    | table caption rows normal => cases caption <;> cases heq
    | _ => cases heq
  case external =>
    intro e he
    obtain ⟨k, hk, hue', heq⟩ := hpart he
    cases k with
    | external raw =>
        cases heq
        exact hexternal e hk
    | table caption rows normal => cases caption <;> cases heq
    | _ => cases heq

/-- All that is set for a raw report is safe to be written. -/
lemma isWithin_typeset
    (h : typeset files directory making ((resolveDocument d).run hue).1 tools = .ok doc) :
    ∀ i ∈ doc.inlines, IsWithin (fun _ => True) i := by
  intro i hi
  have hcut (tools : Tools) : tools.Keeps fun _ => True := by
    simp [Tools.Keeps, Code.Tokenizer.Keeps]
  have hnodes (s : Surroundings) :
      AreWithin (fun _ => True) s ((resolveDocument d).run hue).1.parts :=
    resolved_areWithin (hcut _) (by simp) (by simp) (by simp)
  exact isWithin_of_comesFrom (hnodes _) trivial ((ofReport_typeset h).2 i hi)

/-- In the package of a document that is set for a raw report there is a part with its text.  It is
read as one element, and this shows the texts of the runs of the document. -/
theorem exists_isPart_document
    (h : typeset files directory making ((resolveDocument d).run hue).1 tools = .ok doc) :
    ∃ entries body, doc.package = .ok entries ∧
      Word.IsPart entries "word/document.xml" body ∧
      Word.shownTextsOf [body] = doc.inlines.flatMap Word.Inline.texts := by
  have hset := isWithin_typeset h
  obtain ⟨xs, hbody, hwrites⟩ := doc.exists_writes_body .initial
  obtain ⟨p, hpackage, -⟩ := Word.exists_package doc (Prod.ext hbody rfl)
  have hsound : AreSound Word.bodyRule [.element "w:document" Word.namespaces xs] :=
    areSound_element.mpr ⟨by simp [Word.namespaces]; decide,
      Word.areSound_of_writes hwrites fun i hi => (hset i hi).isSafe⟩
  obtain ⟨body, hread, htree⟩ := exists_readPart? hsound fun _ _ => Word.areNames_of_bodyRule
  refine ⟨_, body, hpackage, ⟨_, by simp [Word.Document.entries], hread⟩, ?_⟩
  rw [htree, Word.shownTextsOf_allAsRead, Word.shownTextsOf_element (by decide) (by decide)]
  exact Word.shownTextsOf_of_writes hwrites fun i hi r hr => ((hset i hi).runs r hr).content

/-- A report with a link in its text and a table. -/
def linkedReport : RawDocument :=
  let nodes : List (Node String) :=
    [.ofText "a < b [see](https://a.org)", .table none [Node.textRow ["x & y", "*z*"]] false]
  { sections := [{ pageStart := some 1, nodes }], settings := {} }

lemma exists_typeset_linkedReport :
    ∃ doc, typeset {} ⟨"/"⟩ ⟨0, 0⟩ ((resolveDocument linkedReport).run 0).1 = .ok doc ∧
      doc.inlines.flatMap Word.Inline.texts = ["a < b ", "see", "x & y", "z"] := by
  have htexts : ((typeset {} ⟨"/"⟩ ⟨0, 0⟩ ((resolveDocument linkedReport).run 0).1).toOption.map
      fun doc => doc.inlines.flatMap Word.Inline.texts) = some ["a < b ", "see", "x & y", "z"] := by
    decide +kernel
  cases hset : typeset {} ⟨"/"⟩ ⟨0, 0⟩ ((resolveDocument linkedReport).run 0).1 with
  | error failure =>
      rw [hset] at htexts
      exact nomatch htexts
  | ok doc =>
      rw [hset] at htexts
      exact ⟨doc, rfl, Option.some.inj htexts⟩

/-- The statement for a report whose texts hold markup. -/
theorem exists_isPart_document_linkedReport :
    ∃ doc, typeset {} ⟨"/"⟩ ⟨0, 0⟩ ((resolveDocument linkedReport).run 0).1 = .ok doc ∧
      ∃ entries body, doc.package = .ok entries ∧
        Word.IsPart entries "word/document.xml" body ∧
        Word.shownTextsOf [body] = ["a < b ", "see", "x & y", "z"] := by
  obtain ⟨doc, hset, htexts⟩ := exists_typeset_linkedReport
  obtain ⟨entries, body, hpackage, hbody, hshown⟩ := exists_isPart_document hset
  exact ⟨doc, hset, entries, body, hpackage, hbody, hshown.trans htexts⟩

end ReportPress.Typeset
