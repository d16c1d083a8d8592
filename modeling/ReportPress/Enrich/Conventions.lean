import ReportPress.Enrich.Heading
import ReportPress.Enrich.Punctuation

/-!
# The conventions of a report

The rules for headings run over the first section, where the front matter stands; after them the
lists of every section are punctuated.

* `enrich` — a report that follows the conventions, and what was noticed on the way.  It never
  fails.
-/

namespace ReportPress.Enrich

/-- A section whose lists are punctuated. -/
def punctuateSection (s : Section String) : Section String :=
  { s with nodes := punctuateNodes s.nodes }

/-- The report with the conventions applied, and the findings. -/
def enrich (d : RawDocument) : RawDocument × List Diagnostic :=
  match d.sections with
  | [] => (d, [])
  | first :: rest =>
    let (nodes, found) := applyHeadings first.nodes
    ({ d with sections := ({ first with nodes } :: rest).map punctuateSection }, found)

end ReportPress.Enrich
