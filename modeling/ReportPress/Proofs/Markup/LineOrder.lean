import Mathlib.Data.List.Forall2
import ReportPress.Proofs.Document.Parts
import ReportPress.Proofs.Markup.Detection
import ReportPress.Proofs.Markup.ShownLine

/-!
# Every line of prose is shown once, in order

A line can become a title, a line of a paragraph, an item or a line of an item; blank lines and
indentation decide which.  Whatever it becomes, what has been read so far only grows at its end.

* `shownLines` — the lines of the texts of some nodes, empty paragraphs left out; `OpenLists.lines`
  and `Reader.lines` say the same of what is still being read.
* `AreShownAs` — what is shown of some lines: of every line that is not blank, something.
* `HasRead` — a reader shows the lines that it showed before and then what is shown of some more.

**One line.**  `OpenLists.lines_of_place?` for the lists that are open, however many of them the
line closes, and `Reader.hasRead_step` for the reader.

**The run.**  `hasRead_of_reads` by induction over the lines, and `forall₂_isShownAs_of_parse` for
the report: the passes over the nodes find nothing in prose.
-/

namespace ReportPress.Markup

open Text

/-! ## Lines of texts -/

lemma lines_of_not_mem {s : String} (h : '\n' ∉ s.toList) : lines s = [s] := by
  rw [lines, splitOn_of_not_mem h, List.map_singleton, String.ofList_toList]

/-- A line feed between two texts is where the lines of the one end. -/
lemma lines_append (s t : String) : lines (s ++ "\n" ++ t) = lines s ++ lines t := by
  have hcut : (s ++ "\n" ++ t).toList = s.toList ++ '\n' :: t.toList := by simp
  rw [lines, hcut, splitOn_append_cons, List.map_append]
  rfl

/-- The characters of a text are line feeds or stand on one of its lines. -/
lemma mem_lines {s : String} {c : Char} (h : c ∈ s.toList) :
    c = '\n' ∨ ∃ line ∈ lines s, c ∈ line.toList := by
  rw [← joinWith_splitOn '\n' s.toList] at h
  rcases mem_joinWith h with h | ⟨piece, hpiece, h⟩
  · exact Or.inl (List.mem_singleton.mp h)
  · exact Or.inr ⟨String.ofList piece, List.mem_map_of_mem hpiece, by rwa [String.toList_ofList]⟩

/-- The lines of the texts of some nodes, empty paragraphs left out. -/
def shownLines (nodes : List (Node String)) : List String :=
  ((nodesParts (dropEmptyTexts nodes)).flatMap Node.ownTexts).flatMap lines

lemma shownLines_append (before after : List (Node String)) :
    shownLines (before ++ after) = shownLines before ++ shownLines after := by
  rw [shownLines, dropEmptyTexts, List.filter_append, nodesParts_append, List.flatMap_append,
    List.flatMap_append]
  rfl

lemma shownLines_text (p : Paragraph String) :
    shownLines [.text p] = if p.text.isEmpty then [] else lines p.text := by
  cases h : p.text.isEmpty <;>
    simp [shownLines, dropEmptyTexts, h, nodesParts, Node.parts, Node.ownTexts]

/-! ## Open lists -/

/-- The lines of the items of a list that is still open. -/
def OpenList.lines (l : OpenList) : List String :=
  (entriesTexts l.newest.reverse).flatMap Text.lines

/-- The lines of all open lists, the outermost first. -/
def OpenLists.lines (opened : OpenLists) : List String :=
  opened.outer.reverse.flatMap OpenList.lines ++ opened.inner.lines

variable {line bare : Line} {l l' : OpenList} {sub? : Option OpenList}

lemma OpenList.lines_push (l : OpenList) (e : Entry String) :
    (l.push e).lines = l.lines ++ e.texts.flatMap Text.lines := by
  simp [lines, push, entriesTexts]

lemma OpenList.lines_toEntry (l : OpenList) : l.toList.toEntry.texts.flatMap Text.lines = l.lines :=
  rfl

lemma OpenList.lines_ofItem (ordered : Bool) (start : UInt32) (text : String) :
    (ofItem ordered start text).lines = Text.lines text := by
  simp [lines, ofItem, entriesTexts, Entry.texts]

lemma OpenList.lines_extend? {text : String} (h : l.extend? text = some l') :
    l'.lines = l.lines ++ Text.lines text := by
  rw [extend?] at h
  split at h
  case h_2 => simp at h
  case h_1 last rest hnewest =>
    rw [← Option.some.inj h]
    simp [lines, hnewest, entriesTexts, Entry.texts, lines_append]

namespace OpenLists

/-- A list that takes a line shows one text more, itself or in the list that the line opens. -/
lemma lines_of_offer? {depth : Nat} (h : offer? l depth line bare = some (l', sub?)) :
    ∃ text, (text = bare.text ∨ text = line.text) ∧
      l'.lines ++ sub?.elim [] OpenList.lines = l.lines ++ Text.lines text := by
  have extended {text : String} (h : (l.extend? text).map (fun l => (l, none)) = some (l', sub?)) :
      l'.lines ++ sub?.elim [] OpenList.lines = l.lines ++ Text.lines text := by
    obtain ⟨m, hm, heq⟩ := Option.map_eq_some_iff.mp h
    obtain ⟨rfl, rfl⟩ := Prod.mk.inj heq
    simpa using OpenList.lines_extend? hm
  rw [offer?] at h
  split_ifs at h
  · split at h
    · exact ⟨bare.text, Or.inl rfl, extended h⟩
    · split_ifs at h
      obtain ⟨rfl, rfl⟩ := Prod.mk.inj (Option.some.inj h)
      exact ⟨bare.text, Or.inl rfl, by simp [OpenList.lines_push, Entry.texts]⟩
  · split at h
    · exact ⟨bare.text, Or.inl rfl, extended h⟩
    · obtain ⟨rfl, rfl⟩ := Prod.mk.inj (Option.some.inj h)
      exact ⟨bare.text, Or.inl rfl, by simp [OpenList.lines_ofItem]⟩
    · obtain ⟨rfl, rfl⟩ := Prod.mk.inj (Option.some.inj h)
      exact ⟨bare.text, Or.inl rfl, by simp [OpenList.lines_ofItem]⟩
    · simp at h
  · exact ⟨line.text, Or.inr rfl, extended h⟩

/-- Closing lists from the inside moves their items, but changes nothing about their order. -/
lemma lines_closeInto : ∀ (l : OpenList) (outer : List OpenList),
    (closeInto l outer).lines = lines ⟨l, outer⟩
  | l, [] => by simp [closeInto, lines]
  | l, around :: outer => by
      rw [closeInto, lines_closeInto]
      simp [lines, OpenList.lines_push, OpenList.lines_toEntry]

/-- The lists that take a line show one text more, whether or not some of them are closed. -/
lemma lines_of_placeFrom? {opened : OpenLists} : ∀ {l : OpenList} {outer : List OpenList},
    placeFrom? line bare l outer = some opened →
      ∃ text, (text = bare.text ∨ text = line.text) ∧
        opened.lines = lines ⟨l, outer⟩ ++ Text.lines text
  | l, [], h => by
      rw [placeFrom?] at h
      cases ho : offer? l 0 line bare with
      | none => simp [ho] at h
      | some taken =>
          obtain ⟨l', sub?⟩ := taken
          obtain ⟨text, htext, hlines⟩ := lines_of_offer? ho
          rw [ho] at h
          refine ⟨text, htext, ?_⟩
          cases sub? with
          | none => simpa [← Option.some.inj h, lines] using hlines
          | some sub => simpa [← Option.some.inj h, lines] using hlines
  | l, around :: outer, h => by
      rw [placeFrom?] at h
      cases ho : offer? l (outer.length + 1) line bare with
      | none =>
          rw [ho] at h
          obtain ⟨text, htext, hlines⟩ := lines_of_placeFrom? h
          refine ⟨text, htext, ?_⟩
          simpa [lines, OpenList.lines_push, OpenList.lines_toEntry] using hlines
      | some taken =>
          obtain ⟨l', sub?⟩ := taken
          obtain ⟨text, htext, hlines⟩ := lines_of_offer? ho
          rw [ho] at h
          refine ⟨text, htext, ?_⟩
          cases sub? with
          | none => simpa [← Option.some.inj h, lines] using hlines
          | some sub => simpa [← Option.some.inj h, lines] using hlines

theorem lines_of_place? {opened next : OpenLists} (h : opened.place? line bare = some next) :
    ∃ text, (text = bare.text ∨ text = line.text) ∧
      next.lines = opened.lines ++ Text.lines text :=
  lines_of_placeFrom? h

end OpenLists

/-! ## One line -/

/-- What is shown of some lines: something of every line that is not blank, in order. -/
def AreShownAs (raws shown : List String) : Prop :=
  List.Forall₂ IsShownAs (raws.filter fun raw => !(trimmed raw).isEmpty) shown

lemma AreShownAs.append {raws more shown after : List String} (h : AreShownAs raws shown)
    (hafter : AreShownAs more after) : AreShownAs (raws ++ more) (shown ++ after) := by
  rw [AreShownAs, List.filter_append]
  exact List.rel_append h hafter

variable {raw shown : String}

/-- Whatever is shown is shown of one of the lines. -/
lemma AreShownAs.exists_of_mem : ∀ {raws shown : List String}, AreShownAs raws shown →
    ∀ {piece : String}, piece ∈ shown → ∃ raw ∈ raws, IsShownAs raw piece
  | [], shown, h, piece, hpiece => by
      rw [AreShownAs, List.filter_nil, List.forall₂_nil_left_iff] at h
      simp [h] at hpiece
  | raw :: raws, shown, h, piece, hpiece => by
      have later {shown : List String} (h : AreShownAs raws shown) (hpiece : piece ∈ shown) :
          ∃ raw' ∈ raw :: raws, IsShownAs raw' piece := by
        obtain ⟨raw', hraw, hshown⟩ := h.exists_of_mem hpiece
        exact ⟨raw', List.mem_cons_of_mem raw hraw, hshown⟩
      rw [AreShownAs, List.filter_cons] at h
      split_ifs at h
      · obtain ⟨first, rest, hfirst, hrest, rfl⟩ := List.forall₂_cons_left_iff.mp h
        rcases List.mem_cons.mp hpiece with rfl | hpiece
        · exact ⟨raw, List.mem_cons_self, hfirst⟩
        · exact later hrest hpiece
      · exact later h hpiece

lemma areShownAs_of_blank (h : (trimmed raw).isEmpty = true) : AreShownAs [raw] [] := by
  simp [AreShownAs, h]

lemma areShownAs_singleton (h : (trimmed raw).isEmpty = false) (hshown : IsShownAs raw shown) :
    AreShownAs [raw] [shown] := by
  simpa [AreShownAs, h] using hshown

/-- What is shown of a line is one line. -/
lemma IsShownAs.lines_eq (h : IsShownAs raw shown) (hraw : '\n' ∉ raw.toList) :
    lines shown = [shown] :=
  lines_of_not_mem fun hmem => (h.mem hmem).elim hraw (by decide)

/-- The text of a line of prose as the classification has it may be shown of the line. -/
lemma isShownAs_of_classify (hprose : IsProse raw.toList) (h : classify raw = .ok line) :
    IsShownAs raw line.text := by
  rcases classify_cases hprose h with ⟨-, htext⟩ | hread
  · exact Or.inl htext
  · exact hread.isShownAs

namespace Reader

variable {r next last : Reader} {before : List String}

/-- The lines of what has been read and of the lists that are open. -/
def lines (r : Reader) : List String :=
  shownLines r.newest.reverse ++
    match r.place with
    | .lists opened _ => opened.lines
    | _ => []

/-- The reader is in no block of code, and shows some lines and then what is shown of `raws`. -/
def HasRead (r : Reader) (before raws : List String) : Prop :=
  (∀ code, r.place ≠ .code code) ∧ ∃ shown, AreShownAs raws shown ∧ r.lines = before ++ shown

/-- A node that shows what is shown of a line. -/
lemma hasRead_push {node : Node String} (hplace : r.place = .paragraphs) {pieces : List String}
    (hpieces : AreShownAs [raw] pieces) (hnode : shownLines [node] = pieces) :
    (r.push node).HasRead (shownLines r.newest.reverse) [raw] := by
  have hplace' : (r.push node).place = .paragraphs := hplace
  refine ⟨by simp [hplace'], pieces, hpieces, ?_⟩
  rw [lines, hplace']
  simp [push, shownLines_append, hnode]

/-- A line of text is shown by the paragraph before it or by a new one. -/
lemma hasRead_pushText (hplace : r.place = .paragraphs) (hraw : '\n' ∉ raw.toList) :
    (r.pushText raw).HasRead (shownLines r.newest.reverse) [raw] := by
  have hshown : IsShownAs raw (trimmed raw) := Or.inl rfl
  have hpush : (r.push (.ofText (trimmed raw))).HasRead (shownLines r.newest.reverse) [raw] := by
    cases hblank : (trimmed raw).isEmpty with
    | true =>
        exact hasRead_push hplace (areShownAs_of_blank hblank) (by
          simp [Node.ofText, shownLines_text, hblank])
    | false =>
        exact hasRead_push hplace (areShownAs_singleton hblank hshown) (by
          simp [Node.ofText, shownLines_text, hblank, hshown.lines_eq hraw])
  rw [pushText]
  split
  case h_2 => exact hpush
  case h_1 p before hnewest =>
    cases hblank : (trimmed raw).isEmpty with
    | true =>
        rw [if_pos rfl]
        exact hpush
    | false =>
        refine ⟨by simp [hplace], [trimmed raw], areShownAs_singleton hblank hshown, ?_⟩
        have hne : trimmed raw ≠ "" := fun e => by simp [e] at hblank
        cases hp : p.text.isEmpty with
        | true =>
            simp [lines, hplace, hnewest, shownLines_append, shownLines_text, hp, hne,
              hshown.lines_eq hraw]
        | false =>
            have hp' : p.text ≠ "" := fun e => by simp [e] at hp
            simp [lines, hplace, hnewest, shownLines_append, shownLines_text, hp, hne, hp',
              lines_append, hshown.lines_eq hraw]

/-- A line of prose outside of lists. -/
lemma hasRead_take (hprose : IsProse raw.toList) (hraw : '\n' ∉ raw.toList)
    (hline : classify raw = .ok line) :
    (r.take raw line).HasRead (shownLines r.newest.reverse) [raw] := by
  rw [take]
  rcases classify_cases hprose hline with ⟨hmarker, -⟩ | hread
  · rw [hmarker]
    exact hasRead_pushText (r := { r with place := .paragraphs }) rfl hraw
  · have hshown : IsShownAs raw line.text := hread.isShownAs
    have hlines : Text.lines line.text = [line.text] := hshown.lines_eq hraw
    cases hread with
    | whole hmarker _ =>
        rw [hmarker]
        exact hasRead_pushText (r := { r with place := .paragraphs }) rfl hraw
    | marked hwords _ hmarker _ =>
        have hpieces : AreShownAs [raw] [line.text] :=
          areShownAs_singleton (trimmed_ne_of_words hwords) hshown
        rcases hmarker with hm | ⟨index, hm⟩ | ⟨level, hm⟩
        · rw [hm]
          refine ⟨by simp, [line.text], hpieces, ?_⟩
          simp [lines, OpenLists.lines, OpenLists.single, OpenList.lines_ofItem, hlines]
        · rw [hm]
          refine ⟨by simp, [line.text], hpieces, ?_⟩
          simp [lines, OpenLists.lines, OpenLists.single, OpenList.lines_ofItem, hlines]
        · rw [hm]
          exact hasRead_push (r := { r with place := .paragraphs }) rfl hpieces (by
            simpa [shownLines, dropEmptyTexts, Node.ofTitle, nodesParts, Node.parts,
              Node.ownTexts] using hlines)

/-- A list that is closed shows what all open lists showed. -/
lemma shownLines_close (opened : OpenLists) : shownLines [.list opened.close] = opened.lines := by
  have hlines := OpenLists.lines_closeInto opened.inner opened.outer
  rw [← hlines]
  simp [shownLines, dropEmptyTexts, nodesParts, Node.parts, Node.ownTexts, OpenLists.close,
    OpenList.toList, OpenList.lines]

/-- The end of a list leaves its lines where they are. -/
lemma shownLines_closeLists (r : Reader) (opened : OpenLists) :
    shownLines (r.closeLists opened).newest.reverse
      = shownLines r.newest.reverse ++ opened.lines := by
  rw [closeLists, push, List.reverse_cons, shownLines_append, shownLines_close]

/-- A line of prose in a list. -/
lemma hasRead_stepInLists {opened : OpenLists} {blank : Bool}
    (hplace : r.place = .lists opened blank) (hprose : IsProse raw.toList)
    (hraw : '\n' ∉ raw.toList) (hline : classify raw = .ok line) (hbare : line.bare = .ok bare) :
    (r.stepInLists opened blank raw line bare).HasRead r.lines [raw] := by
  have hread : IsReadAs raw.toList bare := isReadAs_of_bare hprose hline hbare
  have hlines : r.lines = shownLines r.newest.reverse ++ opened.lines := by rw [lines, hplace]
  have hclosed : ((r.closeLists opened).take raw line).HasRead r.lines [raw] := by
    rw [hlines, ← shownLines_closeLists]
    exact hasRead_take hprose hraw hline
  rw [stepInLists, hread.isBlank_eq]
  split_ifs with hblank
  · exact ⟨by simp, [], areShownAs_of_blank hblank, by simp [lines, hplace]⟩
  · split
    case h_2 => exact hclosed
    case h_1 next hnext =>
      obtain ⟨text, htext, hmore⟩ := OpenLists.lines_of_place? hnext
      have hshown : IsShownAs raw text := by
        rcases htext with rfl | rfl
        · exact hread.isShownAs
        · exact isShownAs_of_classify hprose hline
      refine ⟨by simp, [text], areShownAs_singleton (by simpa using hblank) hshown, ?_⟩
      simp only [lines, hplace, hmore, hshown.lines_eq hraw, List.append_assoc]
  · -- the empty paragraph between a list and the text behind it shows nothing
    have hempty : shownLines ((r.closeLists opened).push (.ofText "")).newest.reverse
        = shownLines (r.closeLists opened).newest.reverse := by
      simp [push, shownLines_append, Node.ofText, shownLines_text]
    rw [hlines, ← shownLines_closeLists, ← hempty]
    exact hasRead_take hprose hraw hline
  · exact hclosed

/-- What one line of prose adds. -/
theorem hasRead_step (hplace : ∀ code, r.place ≠ .code code) (hprose : IsProse raw.toList)
    (hraw : '\n' ∉ raw.toList) (hstep : r.step raw = .ok next) : next.HasRead r.lines [raw] := by
  rw [step] at hstep
  split at hstep
  case h_1 code hcode => exact absurd hcode (hplace code)
  case h_2 hparagraphs =>
    cases hline : classify raw with
    | error fault => simp [hline, bind, Except.bind] at hstep
    | ok line =>
        simp only [hline, bind, Except.bind, pure, Except.pure, Except.ok.injEq] at hstep
        have hlines : r.lines = shownLines r.newest.reverse := by simp [lines, hparagraphs]
        rw [← hstep, hlines]
        exact hasRead_take hprose hraw hline
  case h_3 opened blank hlists =>
    cases hline : classify raw with
    | error fault => simp [hline, bind, Except.bind] at hstep
    | ok line =>
        cases hbare : line.bare with
        | error fault => simp [hline, hbare, bind, Except.bind] at hstep
        | ok bare =>
            simp only [hline, hbare, bind, Except.bind, pure, Except.pure,
              Except.ok.injEq] at hstep
            rw [← hstep]
            exact hasRead_stepInLists hlists hprose hraw hline hbare

end Reader

/-! ## Whole sources -/

variable {r last : Reader} {raws : List String}

/-- What a run over lines of prose adds. -/
theorem hasRead_of_reads (h : Reads r raws last) (hr : ∀ code, r.place ≠ .code code)
    (hraws : ∀ raw ∈ raws, IsProse raw.toList ∧ '\n' ∉ raw.toList) :
    last.HasRead r.lines raws := by
  induction h with
  | nil r => exact ⟨hr, [], List.Forall₂.nil, by simp⟩
  | @cons r next last raw rest hstep _ ih =>
      obtain ⟨hprose, hraw⟩ := hraws raw List.mem_cons_self
      obtain ⟨hnext, shown, hshown, hlines⟩ := Reader.hasRead_step hr hprose hraw hstep
      obtain ⟨hlast, after, hafter, hall⟩ :=
        ih hnext fun raw hmem => hraws raw (List.mem_cons_of_mem _ hmem)
      exact ⟨hlast, shown ++ after, hshown.append hafter, by rw [hall, hlines, List.append_assoc]⟩

/-- What is still open at the end is shown like the rest. -/
lemma shownLines_finish (h : ∀ code, r.place ≠ .code code) :
    shownLines r.finish.newest.reverse = r.lines := by
  rw [Reader.finish, Reader.lines]
  split
  case h_1 hplace => simp [hplace]
  case h_2 opened blank hplace =>
    rw [hplace]
    exact r.shownLines_closeLists opened
  case h_3 code hplace => exact absurd hplace (h code)

/-! ## Nothing to detect -/

lemma mem_of_mem_dropTrailingCommas {c : Char} : ∀ {cs : List Char},
    c ∈ dropTrailingCommas cs → c ∈ cs := by
  intro cs
  fun_induction dropTrailingCommas cs with
  | case1 => exact id
  | case2 d cs next hd ih => exact fun h => List.mem_cons_of_mem d (ih h)
  | case3 d cs next hd ih =>
      intro h
      rcases List.mem_cons.mp h with rfl | h
      · exact List.mem_cons_self
      · exact List.mem_cons_of_mem d (ih h)

/-- A directive begins with an exclamation mark. -/
lemma external?_of_not_mem {text : String} (h : '!' ∉ text.toList) : external? text = none := by
  have hnot : '!' ∉ dropTrailingCommas text.toList := fun hmem =>
    h (mem_of_mem_dropTrailingCommas hmem)
  have hlead : dropLead? "!!(".toList (dropTrailingCommas text.toList) = none := by
    cases hcs : dropTrailingCommas text.toList with
    | nil => rfl
    | cons c cs =>
        have hc : '!' ≠ c := fun e => hnot (by rw [hcs, e]; exact List.mem_cons_self)
        exact if_neg hc
  rw [external?, directive?, hlead]
  rfl

lemma mem_of_mem_rowText {c : Char} {cs : List Char} (h : c ∈ rowText cs) : c ∈ cs := by
  have hstart {ds : List Char} (h : c ∈ dropStart '|' ds) : c ∈ ds := by
    rw [dropStart] at h
    split_ifs at h
    · exact List.mem_of_mem_drop h
    · exact h
  rw [rowText] at h
  split_ifs at h
  · exact mem_of_mem_trim h
  · exact mem_of_mem_trim (hstart (mem_of_mem_dropEnd (mem_of_mem_trim h)))

/-- A table has a line with pipes. -/
lemma splitTable?_of_not_mem {text : String} (h : '|' ∉ text.toList) :
    splitTable? text = none := by
  rw [splitTable?]
  split
  case h_2 => rfl
  case h_1 header separator body hcut =>
    have hline : ∀ c ∈ separator, c ∈ text.toList := by
      intro c hc
      rw [← joinWith_splitOn '\n' text.toList, hcut]
      cases body <;> simp [joinWith, hc]
    have hpipe : '|' ∉ rowText separator := fun hmem => h (hline '|' (mem_of_mem_rowText hmem))
    have hcolumns : separatorColumns? separator = none := by
      simp [separatorColumns?, splitOn_of_not_mem hpipe]
    rw [hcolumns]

/-- The texts of paragraphs that show prose are prose. -/
lemma not_mem_of_shownLines {nodes : List (Node String)} {p : Paragraph String} {c : Char}
    (hc : c ≠ '\n') (h : ∀ line ∈ shownLines nodes, c ∉ line.toList)
    (hp : .text p ∈ dropEmptyTexts nodes) : c ∉ p.text.toList := by
  intro hmem
  obtain ⟨line, hline, hcl⟩ := (mem_lines hmem).resolve_left hc
  have hpart : .text p ∈ nodesParts (dropEmptyTexts nodes) := mem_nodesParts hp (Node.mem_parts _)
  have htext : p.text ∈ (nodesParts (dropEmptyTexts nodes)).flatMap Node.ownTexts :=
    List.mem_flatMap.mpr ⟨_, hpart, by simp [Node.ownTexts]⟩
  exact h line (List.mem_flatMap.mpr ⟨p.text, htext, hline⟩) hcl

/-- In nodes that show neither exclamation marks nor pipes the passes find nothing but empty
paragraphs. -/
lemma detect_nodes_of_shownLines {nodes : List (Node String)}
    (h : ∀ line ∈ shownLines nodes, '!' ∉ line.toList ∧ '|' ∉ line.toList) :
    (detect nodes).1 = dropEmptyTexts nodes := by
  have hexternals : externals (dropEmptyTexts nodes) = (dropEmptyTexts nodes, []) :=
    externals_eq_self fun p hp => external?_of_not_mem
      (not_mem_of_shownLines (by decide) (fun line hline => (h line hline).1) hp)
  have htables : tables (dropEmptyTexts nodes) = dropEmptyTexts nodes :=
    tables_eq_self fun p hp => splitTable?_of_not_mem
      (not_mem_of_shownLines (by decide) (fun line hline => (h line hline).2) hp)
  rw [detect, hexternals]
  exact htables

/-! ## Reports -/

/-- Carriage returns at the ends of lines play no part in what is shown of them. -/
lemma areShownAs_sourceLines {source : String} {shown : List String}
    (h : AreShownAs (sourceLines source) shown) : AreShownAs (lines source) shown := by
  have htrim (cs : List Char) :
      trimmed (String.ofList (dropEnd '\r' cs)) = trimmed (String.ofList cs) := by
    rw [trimmed, trimmed, String.toList_ofList, String.toList_ofList,
      trim_dropEnd (isBlank_of_isWhitespace (by decide))]
  have hwords (cs : List Char) : words (dropEnd '\r' cs) = words cs := by
    rw [← words_trim, trim_dropEnd (isBlank_of_isWhitespace (by decide)), words_trim]
  rw [AreShownAs, sourceLines, List.filter_map, List.forall₂_map_left_iff] at h
  rw [AreShownAs, lines, List.filter_map, List.forall₂_map_left_iff]
  simp only [Function.comp_def, htrim, IsShownAs, String.toList_ofList, hwords] at h ⊢
  exact h

/-- Every line of prose that is not blank is shown once and in its place: the lines of the titles,
paragraphs and items of the report, in document order, are what is shown of these lines. -/
theorem forall₂_isShownAs_of_parse {source : String} {parsed : Parsed}
    (hprose : IsProse source.toList) (h : parse source = .ok parsed) :
    ∃ shown : List String,
      List.Forall₂ IsShownAs ((lines source).filter fun line => !(trimmed line).isEmpty) shown ∧
        parsed.document.texts.flatMap lines = shown := by
  obtain ⟨last, hrun, hsections⟩ := reads_of_parse h
  have hraws : ∀ raw ∈ sourceLines source, IsProse raw.toList ∧ '\n' ∉ raw.toList := by
    intro raw hraw
    refine ⟨hprose.mono fun c hc => ?_, not_mem_of_mem_sourceLines hraw⟩
    obtain ⟨piece, hpiece, rfl⟩ := List.mem_map.mp hraw
    rw [String.toList_ofList] at hc
    exact mem_of_mem_splitOn hpiece (mem_of_mem_dropEnd hc)
  obtain ⟨hplace, shown, hshown, hlines⟩ := hasRead_of_reads hrun (by simp) hraws
  have hlines' : shownLines last.finish.newest.reverse = shown := by
    rw [shownLines_finish hplace, hlines]
    rfl
  have hdetect : (detect last.finish.newest.reverse).1
      = dropEmptyTexts last.finish.newest.reverse := by
    refine detect_nodes_of_shownLines fun line hline => ?_
    rw [hlines'] at hline
    obtain ⟨raw, hraw, hshows⟩ := hshown.exists_of_mem hline
    have hraw' : IsProse raw.toList := (hraws raw hraw).1
    exact ⟨fun hmem => (hshows.mem hmem).elim (fun hm => (hraw' _ hm).1 rfl) (by decide),
      fun hmem => (hshows.mem hmem).elim (fun hm => (hraw' _ hm).2.1 rfl) (by decide)⟩
  refine ⟨shown, areShownAs_sourceLines hshown, ?_⟩
  rw [Document.texts, Document.parts, hsections]
  simpa [hdetect, shownLines] using hlines'

/-- A title, a list in a list, a blank line and a paragraph, line by line. -/
theorem forall₂_isShownAs_of_parse_nested :
    ∃ parsed, parse "# Words\n* one\n    1. two\n\nlast" = .ok parsed ∧
      ∃ shown : List String, List.Forall₂ IsShownAs
          ((lines "# Words\n* one\n    1. two\n\nlast").filter fun line =>
            !(trimmed line).isEmpty) shown ∧
        parsed.document.texts.flatMap lines = shown := by
  have hlines : sourceLines "# Words\n* one\n    1. two\n\nlast"
      = ["# Words", "* one", "    1. two", "", "last"] := rfl
  have hread : ∃ last, Reads {} (sourceLines "# Words\n* one\n    1. two\n\nlast") last := by
    rw [hlines]
    exact ⟨_, .cons rfl (.cons rfl (.cons rfl (.cons rfl (.cons rfl (.nil _)))))⟩
  obtain ⟨last, hread⟩ := hread
  exact ⟨_, parse_of_reads hread, forall₂_isShownAs_of_parse (by decide) (parse_of_reads hread)⟩

end ReportPress.Markup
