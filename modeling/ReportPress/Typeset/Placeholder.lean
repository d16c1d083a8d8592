import ReportPress.Failure
import ReportPress.Json.Printer

/-!
# Placeholders for other documents

Another document is put in place later.  Until then a paragraph names it: two exclamation marks,
the path in parentheses, and the values for its own placeholders in braces.

* `placeholder` — the text of that paragraph.
-/

namespace ReportPress.Typeset

/-- The extension of documents that can be put in place. -/
def documentExtension : String := "docx"

/-- The text that stands for another document below a directory. -/
def placeholder (files : Files) (directory : Path) (d : ExternalDocument) :
    Except Failure String := do
  let path := directory.join ⟨d.path⟩
  unless files.isPresent path do throw (.missingFile path)
  unless path.extension?.map Text.lowerAscii = some documentExtension do
    throw (.notWordDocument path)
  return "!!(" ++ path.cleaned.text ++ ")" ++ Json.renderStrings d.values

end ReportPress.Typeset
