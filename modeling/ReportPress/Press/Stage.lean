import ReportPress.Text.Words

/-!
# Stages of the work

* `Stage` — the stages in the order in which they can be reached.
* `Stage.increment`, `Stage.description` — what is shown of a stage.
* `Stage.ofMarker?` — the stage that another program announces by a mark in a line.
-/

namespace ReportPress.Press

open Text

/-- A stage of the work. -/
inductive Stage where
  | parsing
  | enriching
  | writing
  /-- The finishing touches begin. -/
  | finishing
  | fixingBreaks
  | exportingPdf
  | merging
deriving DecidableEq, Repr

namespace Stage

/-- All stages in their order. -/
def all : List Stage :=
  [parsing, enriching, writing, finishing, fixingBreaks, exportingPdf, merging]

/-- The part of the whole work that a stage is, in percent. -/
def increment : Stage → Nat
  | parsing => 10
  | enriching => 10
  | writing => 10
  | finishing => 20
  | fixingBreaks => 20
  | exportingPdf => 20
  | merging => 40

/-- What is shown while a stage lasts. -/
def description : Stage → String
  | parsing => "Разбираем исходный текст"
  | enriching => "Применяем правила оформления"
  | writing => "Записываем DOCX"
  | finishing => "Запускаем макросы"
  | fixingBreaks => "Исправляем разрывы страниц"
  | exportingPdf => "Экспортируем в PDF"
  | merging => "Склеиваем PDF"

/-- The text of a line between the first opening of a mark and the bracket that closes it. -/
def markerText? : List Char → Option (List Char)
  | '[' :: '*' :: rest => if ']' ∈ rest then some (rest.takeWhile (· ≠ ']')) else none
  | _ :: rest => markerText? rest
  | [] => none

/-- The stage that a line announces. -/
def ofMarker? (line : String) : Option Stage :=
  match markerText? line.toList with
  | some ['1'] => some fixingBreaks
  | some ['2'] => some exportingPdf
  | _ => none

/-- The stages that lines announce one after another. -/
def announced (output : String) : List Stage := (lines output).filterMap ofMarker?

end Stage

end ReportPress.Press
