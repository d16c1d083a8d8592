import Mathlib.Data.List.Basic
import ReportPress.Proofs.Typeset.Work
import ReportPress.Proofs.Word.Paragraphs

/-!
# What setting a report comes to

Setting a report is a recursion over its nodes, with tables inside tables and lists inside lists,
and every step can fail.  What a successful run does to the ledger, and what it shows, is simple
all the same: it is a sequence of acts that can be read off the report.

* `Act` — what is done to the ledger at once, or with the runes of one paragraph.
* `nodeActs`, `documentActs` — the acts for a node and for a report, in document order.
* `after` — the ledger after some acts.
* `Observation`, `Observation.acts` — something that is looked at in paragraphs, and what of it
  there is to be seen in some acts.

**Running is acting.**  `nodeItems_follows` is the induction over nodes, cells and rows, and
`typeset_follows` its result for whole reports: the definitions of lists are those in the ledger
after the acts of the report, and what there is to be seen in the paragraphs is what is to be seen
in the acts.  Everything about lists and bookmarks is proved of sequences of acts.
-/

namespace ReportPress.Typeset

open Word (Block ParagraphFormat)

/-! ## Acts -/

/-- What setting a report does at once. -/
inductive Act where
  /-- A list that is not part of another begins. -/
  | define
  /-- A list begins at a depth of the definition that was made last. -/
  | register (level : Nat) (style : ListStyle)
  /-- An item of such a list is shown. -/
  | item (level : Nat) (runes : Runes)
  /-- A paragraph that is no item is shown. -/
  | paragraph (size : Option Nat) (runes : Runes)

mutual

/-- The acts for an entry of a list at a depth. -/
def entryActs (alternate : Bool) (level : Nat) : Entry Runes → List Act
  | .item text => [.item level text]
  | .list style entries =>
    .register (level + 1) { style with alternate } :: entriesActs alternate (level + 1) entries

/-- The acts for entries. -/
def entriesActs (alternate : Bool) (level : Nat) : List (Entry Runes) → List Act
  | [] => []
  | e :: entries => entryActs alternate level e ++ entriesActs alternate level entries

end

/-- The acts for a list that is not part of another. -/
def listActs (l : ItemList Runes) : List Act :=
  .define :: .register 0 l.style :: entriesActs l.style.alternate 0 l.entries

/-- The acts for a picture: a caption is shown if it says something. -/
def imageActs (i : Image Runes) : List Act :=
  if (Text.trimmed (plainText i.alt)).isEmpty then [] else [.paragraph none i.alt]

/-- The acts for the caption of a table. -/
def captionActs : Option Runes → List Act
  | none => []
  | some caption => [.paragraph none caption]

/-- The size of text in cells. -/
def cellSize (normalFontSize : Bool) : Option Nat :=
  if normalFontSize then none else some tableFontSize

mutual

/-- The acts for a node. -/
def nodeActs : Node Runes → List Act
  | .text p => [.paragraph none p.text]
  | .title t => [.paragraph none t.text]
  | .table caption rows normalFontSize => captionActs caption ++ rowsActs normalFontSize rows
  | .list l => listActs l
  | .image i => imageActs i
  | .code c => [.paragraph none c.title]
  | .pageBreak | .contents | .external _ | .sectionBreak _ => []

/-- The acts for the cells of a row. -/
def cellsActs (normalFontSize : Bool) : List (Node Runes) → List Act
  | [] => []
  | .text p :: nodes =>
    .paragraph (cellSize normalFontSize) p.text :: cellsActs normalFontSize nodes
  | node :: nodes => nodeActs node ++ cellsActs normalFontSize nodes

/-- The acts for the rows of a table. -/
def rowsActs (normalFontSize : Bool) : List (List (Node Runes)) → List Act
  | [] => []
  | row :: rows => cellsActs normalFontSize row ++ rowsActs normalFontSize rows

end

/-- The acts for a report. -/
def documentActs (d : ResolvedDocument) : List Act :=
  d.sections.flatMap fun s => s.nodes.flatMap nodeActs

/-! ## The ledger after acts -/

/-- The ledger after one act. -/
def Act.next (l : Ledger) : Act → Ledger
  | .define => { l with definitions := l.definitions ++ [[]] }
  | .register level style => { l with
      definitions :=
        Word.updateDefinition l.definitions l.definitions.length (addLevel level style) }
  | .item _ runes => { l with bookmarks := ((inlinesOf none runes).run l.bookmarks).2 }
  | .paragraph size runes => { l with bookmarks := ((inlinesOf size runes).run l.bookmarks).2 }

/-- The ledger after some acts. -/
def after (l : Ledger) (acts : List Act) : Ledger := acts.foldl Act.next l

@[simp] lemma after_nil (l : Ledger) : after l [] = l := rfl

@[simp] lemma after_cons (l : Ledger) (a : Act) (acts : List Act) :
    after l (a :: acts) = after (a.next l) acts := rfl

lemma after_append (l : Ledger) (before acts : List Act) :
    after l (before ++ acts) = after (after l before) acts :=
  List.foldl_append

/-- Only the beginning of a list makes a definition. -/
lemma Act.length_definitions_next {a : Act} (h : a ≠ .define) (l : Ledger) :
    (a.next l).definitions.length = l.definitions.length := by
  cases a with
  | define => exact absurd rfl h
  | register level style =>
      rw [Act.next]
      cases hn : l.definitions.length with
      | zero => simp [Word.updateDefinition, hn]
      | succ n => simp [Word.updateDefinition, hn]
  | item level runes => rfl
  | paragraph size runes => rfl

mutual

lemma length_definitions_entryActs {alternate : Bool} : ∀ {level : Nat} {e : Entry Runes}
    (l : Ledger), (after l (entryActs alternate level e)).definitions.length = l.definitions.length
  | level, .item text, l => by
      rw [entryActs, after_cons, after_nil, Act.length_definitions_next (by simp)]
  | level, .list style entries, l => by
      rw [entryActs, after_cons, length_definitions_entriesActs,
        Act.length_definitions_next (by simp)]

lemma length_definitions_entriesActs {alternate : Bool} : ∀ {level : Nat}
    {entries : List (Entry Runes)} (l : Ledger),
      (after l (entriesActs alternate level entries)).definitions.length = l.definitions.length
  | level, [], l => rfl
  | level, e :: entries, l => by
      rw [entriesActs, after_append, length_definitions_entriesActs, length_definitions_entryActs]

end

/-! ## What is to be seen -/

/-- Something that is looked at in paragraphs: it depends on what a paragraph holds and how it is
numbered, does not heed page breaks, and sees nothing in a paragraph that shows no runes. -/
structure Observation (O : Type) where
  of : List Word.Inline → Option (Nat × Nat) → List O
  of_pageBreak : ∀ inlines numbering,
    of (inlines ++ [.run .pageBreak]) numbering = of inlines numbering
  of_picture : ∀ picture, of [.picture picture] none = []
  of_runs : ∀ runs : List Word.Run, of (runs.map .run) none = []

namespace Observation

variable {O : Type} (look : Observation O)

/-- What is to be seen in a paragraph. -/
def paragraph (p : Word.Paragraph) : List O := look.of p.inlines p.format.numbering

/-- What is to be seen in blocks. -/
def blocks (bs : List Block) : List O := (Word.blocksParagraphs bs).flatMap look.paragraph

/-- What is to be seen in an item of a flow. -/
def item : FlowItem → List O
  | .text p => look.paragraph p
  | .block b => look.blocks [b]
  | .pageBreak => []

/-- What is to be seen in items. -/
def items (is : List FlowItem) : List O := is.flatMap look.item

/-- What is to be seen in an act. -/
def act (l : Ledger) : Act → List O
  | .define | .register _ _ => []
  | .item level runes =>
    look.of ((inlinesOf none runes).run l.bookmarks).1 (some (l.definitions.length, level))
  | .paragraph size runes => look.of ((inlinesOf size runes).run l.bookmarks).1 none

/-- What is to be seen in acts. -/
def acts (l : Ledger) : List Act → List O
  | [] => []
  | a :: as => look.act l a ++ acts (a.next l) as

@[simp] lemma blocks_append (before bs : List Block) :
    look.blocks (before ++ bs) = look.blocks before ++ look.blocks bs := by
  simp [blocks]

@[simp] lemma blocks_paragraph (p : Word.Paragraph) :
    look.blocks [.paragraph p] = look.paragraph p := by
  simp [blocks, Block.paragraphs]

@[simp] lemma items_append (before is : List FlowItem) :
    look.items (before ++ is) = look.items before ++ look.items is :=
  List.flatMap_append

@[simp] lemma items_paragraph (p : Word.Paragraph) (is : List FlowItem) :
    look.items (.block (.paragraph p) :: is) = look.paragraph p ++ look.items is := by
  simp [items, item]

@[simp] lemma items_nil : look.items [] = [] := rfl

lemma acts_append : ∀ (l : Ledger) (before as : List Act),
    look.acts l (before ++ as) = look.acts l before ++ look.acts (after l before) as
  | l, [], as => rfl
  | l, a :: before, as => by
      rw [List.cons_append, acts, acts, acts_append, after_cons, List.append_assoc]

/-! ## Flows -/

lemma blocks_breakBelow (bs : List Block) :
    look.blocks (breakBelow bs) = look.blocks bs := by
  have hnothing : look.blocks [.paragraph breakParagraph] = [] := by
    rw [blocks_paragraph]
    exact look.of_runs [.pageBreak]
  unfold breakBelow
  split
  case h_1 p hlast =>
    have hbs : bs = bs.dropLast ++ [.paragraph p] := (List.dropLast_append_getLast? _ hlast).symm
    rw [blocks_append, blocks_paragraph]
    conv_rhs => rw [hbs, blocks_append, blocks_paragraph]
    exact congrArg _ (look.of_pageBreak p.inlines p.format.numbering)
  case h_2 => rw [blocks_append, hnothing, List.append_nil]

lemma blocks_placeBelow (bs : List Block) (i : FlowItem) :
    look.blocks (placeBelow bs i) = look.blocks bs ++ look.item i := by
  cases i with
  | text p =>
      rw [placeBelow, blocks_append, blocks_paragraph]
      split <;> rfl
  | block b => rw [placeBelow, blocks_append, item]
  | pageBreak => rw [placeBelow, blocks_breakBelow, item, List.append_nil]

/-- Putting items below each other changes nothing about what is to be seen in them. -/
theorem blocks_blocksOf (is : List FlowItem) : look.blocks (blocksOf is) = look.items is := by
  have hfold : ∀ (is : List FlowItem) (bs : List Block),
      look.blocks (is.foldl placeBelow bs) = look.blocks bs ++ look.items is := by
    intro is
    induction is with
    | nil => simp [items]
    | cons i is ih =>
        intro bs
        rw [List.foldl_cons, ih, blocks_placeBelow, List.append_assoc]
        rfl
  rw [blocksOf, hfold]
  rfl

end Observation

/-! ## Running is acting -/

section Follows

variable {O : Type} {look : Observation O} {l l' middle : Ledger} {seen : List O} {acts : List Act}

/-- A run that leads from one ledger to another, and in whose results something is to be seen,
does and shows what the acts do. -/
structure Follows (look : Observation O) (acts : List Act) (l : Ledger) (seen : List O)
    (l' : Ledger) : Prop where
  ledger : l' = after l acts
  seen : seen = look.acts l acts

lemma Follows.nil (l : Ledger) : Follows look [] l [] l := ⟨rfl, rfl⟩

lemma Follows.append {more : List Act} {seenMore : List O} (h : Follows look acts l seen middle)
    (hmore : Follows look more middle seenMore l') :
    Follows look (acts ++ more) l (seen ++ seenMore) l' := by
  obtain ⟨rfl, rfl⟩ := h
  obtain ⟨rfl, rfl⟩ := hmore
  exact ⟨(after_append l acts more).symm, (look.acts_append l acts more).symm⟩

variable (look) in
/-- One paragraph of runes. -/
lemma follows_paragraph {size : Option Nat} {runes : Runes} {p : Word.Paragraph}
    (hp : p.inlines = ((inlinesOf size runes).run l.bookmarks).1)
    (hn : p.format.numbering = none) :
    Follows look [.paragraph size runes] l (look.paragraph p)
      { l with bookmarks := ((inlinesOf size runes).run l.bookmarks).2 } := by
  refine ⟨rfl, ?_⟩
  simp only [Observation.paragraph, hp, hn, Observation.acts, Observation.act, List.append_nil]

lemma titleItems_follows {t : Title Runes} {is : List FlowItem}
    (h : Yields (titleItems t) l is l') :
    Follows look [.paragraph none t.text] l (look.items is) l' := by
  unfold titleItems at h
  by_cases hlevel : maxTitleLevel < t.level
  · rw [if_pos hlevel, yields_bind] at h
    obtain ⟨u, middle, h, -⟩ := h
    exact absurd h not_yields_throw
  · rw [if_neg hlevel] at h
    simp only [yields_bind, yields_paragraph, yields_pure] at h
    obtain ⟨p, middle, ⟨rfl, rfl⟩, rfl, rfl⟩ := h
    have hformat : (if t.center then centered else {} : ParagraphFormat).numbering = none := by
      split <;> rfl
    simpa [Observation.items, Observation.item] using follows_paragraph look rfl hformat

lemma captionItems_follows {caption : Option Runes} {is : List FlowItem}
    (h : Yields (captionItems caption) l is l') :
    Follows look (captionActs caption) l (look.items is) l' := by
  cases caption with
  | none =>
      obtain ⟨rfl, rfl⟩ := yields_pure.mp h
      exact .nil l'
  | some caption =>
      simp only [captionItems, yields_bind, yields_paragraph, yields_pure] at h
      obtain ⟨p, middle, ⟨rfl, rfl⟩, rfl, rfl⟩ := h
      simpa [captionActs] using follows_paragraph look rfl rfl

/-- A picture shows no runes, its caption does. -/
lemma imageItems_follows {s : Surroundings} {i : Image Runes} {is : List FlowItem}
    (h : Yields (imageItems s i) l is l') : Follows look (imageActs i) l (look.items is) l' := by
  have hpicture (picture : Word.Picture) :
      look.paragraph
        { inlines := [.picture picture], format := { centered with keepNext := true } } = [] :=
    look.of_picture picture
  unfold imageItems at h
  rw [yields_bind] at h
  obtain ⟨loaded, middle, hloaded, h⟩ := h
  obtain ⟨-, rfl⟩ := yields_lift.mp hloaded
  dsimp only at h
  split at h
  case h_2 => exact absurd h not_yields_throw
  case h_1 picture hbytes =>
    rw [imageActs]
    split_ifs at h ⊢ with halt
    · obtain ⟨rfl, rfl⟩ := yields_pure.mp h
      rw [Observation.items_paragraph, hpicture]
      exact .nil l'
    · simp only [yields_bind, yields_paragraph, yields_pure] at h
      obtain ⟨p, middle, ⟨rfl, rfl⟩, rfl, rfl⟩ := h
      rw [Observation.items_paragraph, hpicture]
      simpa using follows_paragraph look rfl rfl

/-- The lines of code show no runes, the title does. -/
lemma codeItems_follows {s : Surroundings} {c : CodeBlock Runes} {is : List FlowItem}
    (h : Yields (codeItems s c) l is l') :
    Follows look [.paragraph none c.title] l (look.items is) l' := by
  have hlines : ∀ lines : List (List Code.Span), look.items (lines.map lineItem) = [] := by
    intro lines
    induction lines with
    | nil => rfl
    | cons spans lines ih =>
        have hline :
            look.paragraph { inlines := spans.map fun span => .run (spanRun span)
                             style := some "Code" } = [] := by
          have hruns := look.of_runs (spans.map spanRun)
          rwa [List.map_map] at hruns
        rw [List.map_cons, lineItem, Observation.items_paragraph, hline, ih, List.nil_append]
  simp only [codeItems, yields_bind, yields_paragraph, yields_pure] at h
  obtain ⟨p, middle, ⟨rfl, rfl⟩, rfl, rfl⟩ := h
  rw [Observation.items_paragraph, hlines, List.append_nil]
  exact follows_paragraph look rfl rfl

lemma externalItems_follows {s : Surroundings} {d : ExternalDocument} {is : List FlowItem}
    (h : Yields (externalItems s d) l is l') : Follows look [] l (look.items is) l' := by
  have htext (text : String) : look.paragraph
      { inlines := [.run (.ofText text)], format := { flush with alignment := some .left } } = [] :=
    look.of_runs [.ofText text]
  unfold externalItems at h
  rw [yields_bind] at h
  obtain ⟨text, middle, htext', h⟩ := h
  obtain ⟨-, rfl⟩ := yields_lift.mp htext'
  obtain ⟨rfl, rfl⟩ := yields_pure.mp h
  rw [Observation.items_paragraph, htext]
  exact .nil l'

lemma items_contentsItems : look.items contentsItems = [] := by
  have hbreak : look.paragraph breakParagraph = [] := look.of_runs [.pageBreak]
  simp [contentsItems, Observation.items, Observation.item, Observation.blocks, Block.paragraphs,
    hbreak]

/-! ## Lists -/

mutual

lemma entryItems_follows {alternate : Bool} {number : Nat} : ∀ {level : Nat} {e : Entry Runes}
    {l l' : Ledger} {is : List FlowItem}, number = l.definitions.length →
      Yields (entryItems alternate number level e) l is l' →
        Follows look (entryActs alternate level e) l (look.items is) l'
  | level, .item text, l, l', is, hn, h => by
      simp only [entryItems, itemBlock, yields_bind, yields_paragraph, yields_pure] at h
      obtain ⟨item, middle, ⟨p, middle', ⟨rfl, rfl⟩, rfl, rfl⟩, rfl, rfl⟩ := h
      refine ⟨rfl, ?_⟩
      rw [hn]
      simp [entryActs, Observation.acts, Observation.act, Observation.paragraph]
  | level, .list style entries, l, l', is, hn, h => by
      simp only [entryItems, yields_bind, yields_registerLevel] at h
      obtain ⟨u, middle, rfl, h⟩ := h
      have hregister : Follows look [.register (level + 1) { style with alternate }] l []
          (Act.next l (.register (level + 1) { style with alternate })) := ⟨rfl, rfl⟩
      have hlength : number
          = (Act.next l (.register (level + 1) { style with alternate })).definitions.length := by
        rw [Act.length_definitions_next (by simp), hn]
      rw [hn] at h
      exact hregister.append (entriesItems_follows hlength (hn ▸ h))

lemma entriesItems_follows {alternate : Bool} {number : Nat} : ∀ {level : Nat}
    {entries : List (Entry Runes)} {l l' : Ledger} {is : List FlowItem},
      number = l.definitions.length → Yields (entriesItems alternate number level entries) l is l' →
        Follows look (entriesActs alternate level entries) l (look.items is) l'
  | level, [], l, l', is, hn, h => by
      rw [entriesItems] at h
      obtain ⟨rfl, rfl⟩ := yields_pure.mp h
      exact .nil l'
  | level, e :: entries, l, l', is, hn, h => by
      simp only [entriesItems, yields_bind, yields_pure] at h
      obtain ⟨items, middle, he, more, middle', hentries, rfl, rfl⟩ := h
      have hfirst := entryItems_follows hn he
      have hlength : number = middle.definitions.length := by
        rw [hfirst.ledger, length_definitions_entryActs, hn]
      rw [Observation.items_append]
      exact hfirst.append (entriesItems_follows hlength hentries)

end

lemma listItems_follows {list : ItemList Runes} {is : List FlowItem}
    (h : Yields (listItems list) l is l') : Follows look (listActs list) l (look.items is) l' := by
  simp only [listItems, yields_bind, yields_newDefinition, yields_registerLevel] at h
  obtain ⟨number, middle, ⟨rfl, rfl⟩, u, middle', rfl, h⟩ := h
  have hbegin : Follows look [.define, .register 0 list.style] l []
      (after l [.define, .register 0 list.style]) := ⟨rfl, rfl⟩
  have hlength : l.definitions.length + 1
      = (after l [.define, .register 0 list.style]).definitions.length := by
    rw [after_cons, after_cons, after_nil, Act.length_definitions_next (by simp)]
    simp [Act.next]
  refine hbegin.append (entriesItems_follows hlength ?_)
  simpa [Act.next] using h

/-! ## Nodes -/

lemma cellText_follows {normalFontSize isHeader : Bool} {p : Paragraph Runes} {b : Block}
    (h : Yields (cellText normalFontSize isHeader p) l b l') :
    Follows look [.paragraph (cellSize normalFontSize) p.text] l (look.blocks [b]) l' := by
  simp only [cellText, yields_bind, yields_inlines, yields_pure] at h
  obtain ⟨shown, middle, ⟨rfl, rfl⟩, rfl, rfl⟩ := h
  rw [Observation.blocks_paragraph]
  exact follows_paragraph look rfl rfl

/-- What is to be seen in the cells of a row. -/
def Observation.cells (look : Observation O) (cs : List (List Block)) : List O :=
  (Word.cellsParagraphs cs).flatMap look.paragraph

/-- What is to be seen in the rows of a table. -/
def Observation.rows (look : Observation O) (rs : List (List (List Block))) : List O :=
  (Word.rowsParagraphs rs).flatMap look.paragraph

/-- A cell with text is set in a way of its own, all others as their node is. -/
lemma cells_cons_follows {s : Surroundings} {normalFontSize isHeader : Bool} {node : Node Runes}
    {nodes : List (Node Runes)}
    (hnode : ∀ (l l' : Ledger) (is : List FlowItem), Yields (nodeItems s node) l is l' →
      Follows look (nodeActs node) l (look.items is) l')
    (hnodes : ∀ (l l' : Ledger) (cs : List (List Block)),
      Yields (cellsBlocks s normalFontSize isHeader nodes) l cs l' →
        Follows look (cellsActs normalFontSize nodes) l (look.cells cs) l')
    (l l' : Ledger) (cs : List (List Block))
    (h : Yields (cellsBlocks s normalFontSize isHeader (node :: nodes)) l cs l') :
    Follows look (cellsActs normalFontSize (node :: nodes)) l (look.cells cs) l' := by
  have hseen (c : List Block) (cs : List (List Block)) :
      look.cells (c :: cs) = look.blocks c ++ look.cells cs := by
    simp [Observation.cells, Observation.blocks, Word.cellsParagraphs]
  cases node with
  | text p =>
      rw [cellsBlocks] at h
      simp only [yields_bind, yields_pure] at h
      obtain ⟨b, middle, hb, c, middle', ⟨rfl, rfl⟩, more, middle'', hmore, rfl, rfl⟩ := h
      rw [hseen, cellsActs]
      exact (cellText_follows hb).append (hnodes _ _ _ hmore)
  | _ =>
      rw [cellsBlocks] at h
      · simp only [yields_bind, yields_pure] at h
        obtain ⟨is, middle, his, c, middle', ⟨rfl, rfl⟩, more, middle'', hmore, rfl, rfl⟩ := h
        rw [hseen, look.blocks_blocksOf, cellsActs]
        · exact (hnode _ _ _ his).append (hnodes _ _ _ hmore)
        · simp
      · simp

mutual

/-- Setting a node follows its acts. -/
theorem nodeItems_follows {s : Surroundings} : ∀ (n : Node Runes) (l l' : Ledger)
    (is : List FlowItem), Yields (nodeItems s n) l is l' →
      Follows look (nodeActs n) l (look.items is) l'
  | .text p => by
      intro l l' is h
      simp only [nodeItems, yields_bind, yields_paragraph, yields_pure] at h
      obtain ⟨q, middle, ⟨rfl, rfl⟩, rfl, rfl⟩ := h
      simpa [nodeActs, Observation.items, Observation.item] using follows_paragraph look rfl rfl
  | .title t => by
      intro l l' is h
      rw [nodeItems] at h
      exact titleItems_follows h
  | .pageBreak => by
      intro l l' is h
      rw [nodeItems] at h
      obtain ⟨rfl, rfl⟩ := yields_pure.mp h
      exact .nil l'
  | .contents => by
      intro l l' is h
      rw [nodeItems] at h
      obtain ⟨rfl, rfl⟩ := yields_pure.mp h
      rw [items_contentsItems]
      exact .nil l'
  | .table caption rows normalFontSize => by
      intro l l' is h
      simp only [nodeItems, yields_bind, yields_pure] at h
      obtain ⟨above, middle, habove, body, middle', hbody, rfl, rfl⟩ := h
      have hrows := rowsBlocks_follows rows _ _ _ hbody
      have hseen : look.items [.block (.table tableWidth 1 body)] = look.rows body := by
        simp [Observation.items, Observation.item, Observation.blocks, Observation.rows,
          Block.paragraphs]
      rw [Observation.items_append, hseen, nodeActs]
      exact (captionItems_follows habove).append hrows
  | .list list => by
      intro l l' is h
      rw [nodeItems] at h
      exact listItems_follows h
  | .image i => by
      intro l l' is h
      rw [nodeItems] at h
      exact imageItems_follows h
  | .code c => by
      intro l l' is h
      rw [nodeItems] at h
      exact codeItems_follows h
  | .external d => by
      intro l l' is h
      rw [nodeItems] at h
      exact externalItems_follows h
  | .sectionBreak pageStart => by
      intro l l' is h
      rw [nodeItems] at h
      obtain ⟨rfl, rfl⟩ := yields_pure.mp h
      exact .nil l'

/-- Setting cells follows their acts. -/
theorem cellsBlocks_follows {s : Surroundings} {normalFontSize isHeader : Bool} :
    ∀ (nodes : List (Node Runes)) (l l' : Ledger) (cs : List (List Block)),
      Yields (cellsBlocks s normalFontSize isHeader nodes) l cs l' →
        Follows look (cellsActs normalFontSize nodes) l (look.cells cs) l'
  | [] => by
      intro l l' cs h
      rw [cellsBlocks] at h
      obtain ⟨rfl, rfl⟩ := yields_pure.mp h
      exact .nil l'
  | node :: nodes => cells_cons_follows (nodeItems_follows node) (cellsBlocks_follows nodes)

/-- Setting rows follows their acts. -/
theorem rowsBlocks_follows {s : Surroundings} {normalFontSize isHeader : Bool} :
    ∀ (rows : List (List (Node Runes))) (l l' : Ledger) (rs : List (List (List Block))),
      Yields (rowsBlocks s normalFontSize isHeader rows) l rs l' →
        Follows look (rowsActs normalFontSize rows) l (look.rows rs) l'
  | [] => by
      intro l l' rs h
      rw [rowsBlocks] at h
      obtain ⟨rfl, rfl⟩ := yields_pure.mp h
      exact .nil l'
  | row :: rows => by
      intro l l' rs h
      simp only [rowsBlocks, yields_bind, yields_pure] at h
      obtain ⟨cells, middle, hcells, more, middle', hmore, rfl, rfl⟩ := h
      have hseen : look.rows (cells :: more) = look.cells cells ++ look.rows more := by
        simp [Observation.rows, Observation.cells, Word.rowsParagraphs]
      rw [hseen, rowsActs]
      exact (cellsBlocks_follows row _ _ _ hcells).append (rowsBlocks_follows rows _ _ _ hmore)

end

/-! ## Sections and reports -/

/-- Setting nodes one after another follows their acts. -/
lemma mapM_nodeItems_follows {s : Surroundings} : ∀ {nodes : List (Node Runes)} {l l' : Ledger}
    {iss : List (List FlowItem)}, Yields (nodes.mapM (nodeItems s)) l iss l' →
      Follows look (nodes.flatMap nodeActs) l (look.items iss.flatten) l'
  | [], l, l', iss, h => by
      rw [List.mapM_nil] at h
      obtain ⟨rfl, rfl⟩ := yields_pure.mp h
      exact .nil l'
  | n :: nodes, l, l', iss, h => by
      simp only [List.mapM_cons, yields_bind, yields_pure] at h
      obtain ⟨is, middle, his, more, middle', hmore, rfl, rfl⟩ := h
      rw [List.flatten_cons, Observation.items_append, List.flatMap_cons]
      exact (nodeItems_follows n _ _ _ his).append (mapM_nodeItems_follows hmore)

lemma typesetSection_follows {s : Surroundings} {part : Section Runes} {set : Word.Section}
    (h : Yields (typesetSection s part) l set l') :
    Follows look (part.nodes.flatMap nodeActs) l (look.blocks set.blocks) l' := by
  simp only [typesetSection, yields_bind, yields_pure] at h
  obtain ⟨iss, middle, hiss, rfl, rfl⟩ := h
  rw [look.blocks_blocksOf]
  exact mapM_nodeItems_follows hiss

variable (look) in
lemma mapM_typesetSection_follows {s : Surroundings} : ∀ {parts : List (Section Runes)}
    {l l' : Ledger} {sets : List Word.Section},
      Yields (parts.mapM (typesetSection s)) l sets l' →
        Follows look (parts.flatMap fun part => part.nodes.flatMap nodeActs) l
          (sets.flatMap fun set => look.blocks set.blocks) l'
  | [], l, l', sets, h => by
      rw [List.mapM_nil] at h
      obtain ⟨rfl, rfl⟩ := yields_pure.mp h
      exact .nil l'
  | part :: parts, l, l', sets, h => by
      simp only [List.mapM_cons, yields_bind, yields_pure] at h
      obtain ⟨set, middle, hset, more, middle', hmore, rfl, rfl⟩ := h
      rw [List.flatMap_cons, List.flatMap_cons]
      exact (typesetSection_follows hset).append (mapM_typesetSection_follows hmore)

end Follows

section Cutting

variable {T β : Type} {f : Node T → List β}

/-- Cutting nodes at breaks keeps whatever breaks have no part in. -/
lemma flatMap_cutSection (hf : ∀ next, f (.sectionBreak next) = []) :
    ∀ (pageStart : Option UInt32) (nodes : List (Node T)),
      ((cutSection pageStart nodes).flatMap fun part => part.nodes.flatMap f) = nodes.flatMap f
  | pageStart, [] => by simp [cutSection]
  | pageStart, n :: nodes => by
      cases n with
      | sectionBreak next =>
          rw [cutSection, List.flatMap_cons, flatMap_cutSection hf next nodes, List.flatMap_cons,
            hf]
          rfl
      | _ =>
          have ih := flatMap_cutSection hf pageStart nodes
          rw [cutSection]
          · cases hcut : cutSection pageStart nodes with
            | nil => simp [← ih, hcut]
            | cons part parts =>
                rw [hcut, List.flatMap_cons] at ih
                rw [List.flatMap_cons, List.flatMap_cons, List.flatMap_cons, ← ih,
                  List.append_assoc]
          · simp

/-- So does splitting the sections of a whole report. -/
lemma flatMap_splitSections (hf : ∀ next, f (.sectionBreak next) = [])
    (sections : List (Section T)) :
    ((splitSections sections).flatMap fun part => part.nodes.flatMap f)
      = sections.flatMap fun part => part.nodes.flatMap f := by
  have hfilter : ∀ parts : List (Section T),
      ((parts.filter fun part => !part.nodes.isEmpty).flatMap fun part => part.nodes.flatMap f)
        = parts.flatMap fun part => part.nodes.flatMap f := by
    intro parts
    induction parts with
    | nil => rfl
    | cons part parts ih =>
        rw [List.filter_cons]
        split_ifs with hpart
        · rw [List.flatMap_cons, List.flatMap_cons, ih]
        · have hempty : part.nodes = [] := by simpa using hpart
          rw [List.flatMap_cons, ih, hempty]
          rfl
  rw [splitSections, hfilter, List.flatMap_assoc]
  congr 1
  funext part
  exact flatMap_cutSection hf part.pageStart part.nodes

end Cutting

/-- A report that is set is the sections that are set one after another. -/
lemma typeset_eq_ok {files : Files} {directory : Path} {making : Making} {tools : Tools}
    {d : ResolvedDocument} {doc : Word.Document}
    (h : typeset files directory making d tools = .ok doc) :
    ∃ sets ledger,
      Yields ((splitSections d.sections).mapM
        (typesetSection ⟨files, directory, d.settings.highlightCode, tools⟩)) {} sets ledger ∧
      doc = Word.Document.withSections
        { definitions := ledger.definitions
          properties := propertiesOf making d.settings
          updateFields := true } sets := by
  unfold typeset at h
  cases hrun : ((splitSections d.sections).mapM
      (typesetSection ⟨files, directory, d.settings.highlightCode, tools⟩)).run {} with
  | error fault => simp [hrun, bind, Except.bind] at h
  | ok result =>
      obtain ⟨sets, ledger⟩ := result
      simp only [hrun, bind, Except.bind, pure, Except.pure, Except.ok.injEq] at h
      exact ⟨sets, ledger, hrun, h.symm⟩

/-- Setting a report does and shows what its acts do, beginning with nothing: the definitions of
lists are those in the ledger after the acts. -/
theorem typeset_follows {O : Type} (look : Observation O) {files : Files} {directory : Path}
    {making : Making} {tools : Tools} {d : ResolvedDocument} {doc : Word.Document}
    (h : typeset files directory making d tools = .ok doc) :
    doc.definitions = (after {} (documentActs d)).definitions ∧
      doc.paragraphs.flatMap look.paragraph = look.acts {} (documentActs d) := by
  obtain ⟨sets, ledger, hsets, rfl⟩ := typeset_eq_ok h
  obtain ⟨hledger, hseen⟩ := mapM_typesetSection_follows look hsets
  have hacts : (splitSections d.sections).flatMap (fun part => part.nodes.flatMap nodeActs)
      = documentActs d := flatMap_splitSections (fun _ => rfl) d.sections
  rw [hacts] at hledger hseen
  constructor
  · rw [Word.Document.definitions_withSections, hledger]
  · rw [Word.Document.paragraphs_withSections rfl, List.flatMap_assoc, ← hseen]
    rfl

end ReportPress.Typeset
