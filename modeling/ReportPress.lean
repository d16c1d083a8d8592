import ReportPress.Compile
import ReportPress.Enrich.Conventions
import ReportPress.Inline.Resolve
import ReportPress.Inline.ScriptRuns
import ReportPress.Main
import ReportPress.Markup.Reader
import ReportPress.Options
import ReportPress.Press.Render
import ReportPress.Proofs.Code.Pieces
import ReportPress.Proofs.Code.Restyling
import ReportPress.Proofs.Code.Spans
import ReportPress.Proofs.Compile.Characters
import ReportPress.Proofs.Compile.CodeBlock
import ReportPress.Proofs.Compile.EmptyPages
import ReportPress.Proofs.Compile.Failures
import ReportPress.Proofs.Document.Attachments
import ReportPress.Proofs.Enrich.Attachments
import ReportPress.Proofs.Enrich.Characters
import ReportPress.Proofs.Enrich.FrontMatterLists
import ReportPress.Proofs.Enrich.FrontMatterTexts
import ReportPress.Proofs.Enrich.HeadingReading
import ReportPress.Proofs.Enrich.HeadingScan
import ReportPress.Proofs.Enrich.ItemPlaces
import ReportPress.Proofs.Enrich.PageBreaks
import ReportPress.Proofs.Enrich.Punctuation
import ReportPress.Proofs.Inline.Capitals
import ReportPress.Proofs.Inline.EmphasisRoundTrip
import ReportPress.Proofs.Inline.LetterTexts
import ReportPress.Proofs.Inline.LinkTargets
import ReportPress.Proofs.Inline.Rainbow
import ReportPress.Proofs.Inline.Resolved
import ReportPress.Proofs.Inline.ScriptRuns
import ReportPress.Proofs.Inline.StarRuns
import ReportPress.Proofs.Inline.WrittenText
import ReportPress.Proofs.Json.RoundTrip
import ReportPress.Proofs.Markup.Agreement
import ReportPress.Proofs.Markup.AllowedLines
import ReportPress.Proofs.Markup.BlankRuns
import ReportPress.Proofs.Markup.Comments
import ReportPress.Proofs.Markup.Composition
import ReportPress.Proofs.Markup.DeepHeadings
import ReportPress.Proofs.Markup.Detection
import ReportPress.Proofs.Markup.Dictionary
import ReportPress.Proofs.Markup.DirectivePatterns
import ReportPress.Proofs.Markup.DirectiveRoundTrip
import ReportPress.Proofs.Markup.FirstWord
import ReportPress.Proofs.Markup.HeadingLevels
import ReportPress.Proofs.Markup.ImageLines
import ReportPress.Proofs.Markup.ItemLine
import ReportPress.Proofs.Markup.LineOrder
import ReportPress.Proofs.Markup.ListRoundTrip
import ReportPress.Proofs.Markup.OpenLists
import ReportPress.Proofs.Markup.PlainLine
import ReportPress.Proofs.Markup.Provenance
import ReportPress.Proofs.Markup.RuleLines
import ReportPress.Proofs.Markup.Rules
import ReportPress.Proofs.Markup.ShownLine
import ReportPress.Proofs.Markup.Step
import ReportPress.Proofs.Markup.TableDetection
import ReportPress.Proofs.Markup.TableRoundTrip
import ReportPress.Proofs.Press.Cleanup
import ReportPress.Proofs.Press.Course
import ReportPress.Proofs.Press.Draft
import ReportPress.Proofs.Press.Effects
import ReportPress.Proofs.Press.OutputPaths
import ReportPress.Proofs.Press.Source
import ReportPress.Proofs.Press.Work
import ReportPress.Proofs.Storage.Files
import ReportPress.Proofs.Storage.Paths
import ReportPress.Proofs.Text.Capitals
import ReportPress.Proofs.Text.LetterCase
import ReportPress.Proofs.Text.Respelling
import ReportPress.Proofs.Typeset.Acceptance
import ReportPress.Proofs.Typeset.Acts
import ReportPress.Proofs.Typeset.BodyText
import ReportPress.Proofs.Typeset.BookmarkNames
import ReportPress.Proofs.Typeset.BookmarkSpans
import ReportPress.Proofs.Typeset.Indents
import ReportPress.Proofs.Typeset.Inlines
import ReportPress.Proofs.Typeset.InternalLinks
import ReportPress.Proofs.Typeset.ItemNumbering
import ReportPress.Proofs.Typeset.LabelSpans
import ReportPress.Proofs.Typeset.LevelRange
import ReportPress.Proofs.Typeset.NumberingParts
import ReportPress.Proofs.Typeset.Outcome
import ReportPress.Proofs.Typeset.ParagraphText
import ReportPress.Proofs.Typeset.PictureSize
import ReportPress.Proofs.Typeset.Provenance
import ReportPress.Proofs.Typeset.ReadingOrder
import ReportPress.Proofs.Typeset.SectionBreaks
import ReportPress.Proofs.Typeset.SetText
import ReportPress.Proofs.Typeset.ShownTexts
import ReportPress.Proofs.Word.Bookmarks
import ReportPress.Proofs.Word.Characters
import ReportPress.Proofs.Word.Elements
import ReportPress.Proofs.Word.Integrity
import ReportPress.Proofs.Word.Numbering
import ReportPress.Proofs.Word.ParagraphElements
import ReportPress.Proofs.Word.SectionEnds
import ReportPress.Proofs.Word.ShownText
import ReportPress.Proofs.Word.Soundness
import ReportPress.Proofs.Word.Tables
import ReportPress.Proofs.Word.Writing
import ReportPress.Proofs.Xml.Reading
import ReportPress.Storage.Files
import ReportPress.Word.Document
