import Mathlib.Tactic.Common
import ReportPress.Typeset.Report

/-!
# Work that succeeds

Setting a report is work that changes a ledger and can fail.

* `Yields` — the work succeeds with a result and leaves a ledger.

**Putting work together.**  Each way to do so has a lemma that takes a success apart, so that
proofs about the typesetter need not open the monad.

**The three basic pieces of work.**  `yields_inlines`, `yields_registerLevel` and
`yields_newDefinition` say what those do that change the ledger; all other work is made of them.

**Placeholders.**  `placeholder_eq_ok` — the text that stands for another document does not depend
on the files, only whether there is one does.
-/

namespace ReportPress.Typeset

variable {α β : Type} {work : Typesetter α} {l l' : Ledger} {a : α} {b : β}

/-- The work succeeds with a result, and leaves a ledger. -/
def Yields (work : Typesetter α) (l : Ledger) (a : α) (l' : Ledger) : Prop :=
  work.run l = .ok (a, l')

/-! ## Putting work together -/

lemma yields_pure {a' : α} : Yields (pure a) l a' l' ↔ a' = a ∧ l' = l := by
  constructor
  · intro h
    obtain ⟨ha, hl⟩ := Prod.mk.inj (Except.ok.inj h)
    exact ⟨ha.symm, hl.symm⟩
  · rintro ⟨rfl, rfl⟩
    rfl

lemma yields_bind {next : α → Typesetter β} :
    Yields (work >>= next) l b l' ↔
      ∃ a middle, Yields work l a middle ∧ Yields (next a) middle b l' := by
  unfold Yields
  rw [StateT.run_bind]
  cases hwork : work.run l with
  | error fault => simp [bind, Except.bind]
  | ok result =>
      obtain ⟨a, middle⟩ := result
      constructor
      · exact fun h => ⟨a, middle, rfl, h⟩
      · rintro ⟨a, middle, h, hnext⟩
        obtain ⟨rfl, rfl⟩ := Prod.mk.inj (Except.ok.inj h)
        exact hnext

lemma not_yields_throw {fault : Failure} : ¬ Yields (throw fault : Typesetter α) l a l' :=
  fun h => nomatch h

/-- Work that does not look at the ledger leaves it as it is. -/
lemma yields_lift {work : Except Failure α} :
    Yields (liftM work : Typesetter α) l a l' ↔ work = .ok a ∧ l' = l := by
  cases work with
  | error fault => exact ⟨fun h => (nomatch h), fun h => (nomatch h.1)⟩
  | ok a' =>
      constructor
      · intro h
        obtain ⟨rfl, rfl⟩ := Prod.mk.inj (Except.ok.inj h)
        exact ⟨rfl, rfl⟩
      · rintro ⟨h, rfl⟩
        rw [Except.ok.inj h]
        rfl

/-! ## The basic pieces -/

/-- Setting runes marks the places that are named in them. -/
lemma yields_inlines {size : Option Nat} {runes : Runes} {shown : List Word.Inline} :
    Yields (inlines size runes) l shown l' ↔
      shown = ((inlinesOf size runes).run l.bookmarks).1 ∧
        l' = { l with bookmarks := ((inlinesOf size runes).run l.bookmarks).2 } := by
  constructor
  · intro h
    obtain ⟨hshown, hl⟩ := Prod.mk.inj (Except.ok.inj h)
    exact ⟨hshown.symm, hl.symm⟩
  · rintro ⟨rfl, rfl⟩
    rfl

lemma yields_registerLevel {number level : Nat} {style : ListStyle} {u : Unit} :
    Yields (registerLevel number level style) l u l' ↔
      l' = { l with
        definitions := Word.updateDefinition l.definitions number (addLevel level style) } := by
  constructor
  · exact fun h => (Prod.mk.inj (Except.ok.inj h)).2.symm
  · rintro rfl
    rfl

lemma yields_newDefinition {number : Nat} :
    Yields newDefinition l number l' ↔
      number = l.definitions.length + 1 ∧
        l' = { l with definitions := l.definitions ++ [[]] } := by
  constructor
  · intro h
    obtain ⟨hnumber, hl⟩ := Prod.mk.inj (Except.ok.inj h)
    exact ⟨hnumber.symm, hl.symm⟩
  · rintro ⟨rfl, rfl⟩
    rfl

/-- A paragraph of runes has their contents. -/
lemma yields_paragraph {style : Option String} {format : Word.ParagraphFormat} {runes : Runes}
    {p : Word.Paragraph} :
    Yields (paragraph style format runes) l p l' ↔
      p = ⟨((inlinesOf none runes).run l.bookmarks).1, style, format⟩ ∧
        l' = { l with bookmarks := ((inlinesOf none runes).run l.bookmarks).2 } := by
  simp only [paragraph, yields_bind, yields_inlines, yields_pure]
  constructor
  · rintro ⟨shown, middle, ⟨rfl, rfl⟩, rfl, rfl⟩
    exact ⟨rfl, rfl⟩
  · rintro ⟨rfl, rfl⟩
    exact ⟨_, _, ⟨rfl, rfl⟩, rfl, rfl⟩

/-! ## Placeholders -/

/-- The text that stands for another document below a directory. -/
def placeholderText (directory : Path) (d : ExternalDocument) : String :=
  "!!(" ++ (directory.join ⟨d.path⟩).cleaned.text ++ ")" ++ Json.renderStrings d.values

/-- If another document can be put in place, this is the text that stands for it. -/
lemma placeholder_eq_ok {files : Files} {directory : Path} {d : ExternalDocument} {text : String}
    (h : placeholder files directory d = .ok text) : text = placeholderText directory d := by
  simp only [placeholder, bind, Except.bind, pure, Except.pure, throw, throwThe] at h
  split_ifs at h
  exact (Except.ok.inj h).symm

end ReportPress.Typeset
