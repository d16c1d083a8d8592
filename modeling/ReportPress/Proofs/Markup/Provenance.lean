import ReportPress.Proofs.Markup.LineOrder
import ReportPress.Proofs.Text.Scan

/-!
# Where the texts of a report come from

Whatever a report says stands in its source.  Reading takes lines apart, drops marks and white
space and joins what is left, but it makes up no characters except spaces and line feeds.

* `Line.IsWithin` — a classified line whose texts consist of characters with a property.
* `Reader.opened`, `Reader.IsWithin` — what the reader holds in open lists or code, and a reader all
  of whose texts consist of such characters.

**Lines.**  `classify_isWithin`.

**Steps and runs.**  `Reader.IsWithin.step` is one line, and `consistsOf_of_parse` a whole source:
the strings of the report consist of characters of the source.
-/

namespace ReportPress.Markup

open Text

variable {P : Char → Prop} {cs before after rest : List Char}

/-! ## Pieces of a line -/

lemma suffix_of_dropLead? : ∀ {lead cs : List Char}, dropLead? lead cs = some rest → rest <:+ cs
  | [], cs, h => by
      rw [dropLead?, Option.some.injEq] at h
      exact h ▸ List.suffix_rfl
  | l :: lead, [], h => by simp [dropLead?] at h
  | l :: lead, c :: cs, h => by
      rw [dropLead?] at h
      split_ifs at h
      exact (suffix_of_dropLead? h).trans (List.suffix_cons c cs)

lemma suffix_of_afterFirst? {pattern : List Char} : ∀ {cs : List Char},
    afterFirst? pattern cs = some rest → rest <:+ cs
  | [], h => by simp [afterFirst?] at h
  | c :: cs, h => by
      rw [afterFirst?] at h
      split at h
      case h_1 tail htail =>
        rw [Option.some.injEq] at h
        exact h ▸ suffix_of_dropLead? htail
      case h_2 => exact (suffix_of_afterFirst? h).trans (List.suffix_cons c cs)

lemma subset_of_splitLast? {pattern : List Char} : ∀ {cs before after : List Char},
    splitLast? pattern cs = some (before, after) → before ⊆ cs ∧ after ⊆ cs
  | [], before, after, h => by simp [splitLast?] at h
  | c :: cs, before, after, h => by
      rw [splitLast?] at h
      split at h
      case h_1 front back hlast =>
        obtain ⟨hfront, hback⟩ := subset_of_splitLast? hlast
        obtain ⟨rfl, rfl⟩ := Prod.mk.inj (Option.some.inj h)
        exact ⟨List.cons_subset_cons c hfront, List.subset_cons_of_subset c hback⟩
      case h_2 =>
        obtain ⟨tail, htail, heq⟩ := Option.map_eq_some_iff.mp h
        obtain ⟨rfl, rfl⟩ := Prod.mk.inj heq
        exact ⟨List.nil_subset _, (suffix_of_dropLead? htail).subset⟩

/-- The alternative text of an image directive stands in the line. -/
lemma subset_of_imageParts? {alt source : List Char} {size : Option (List Char)}
    (h : imageParts? cs = some (alt, source, size)) : alt ⊆ cs := by
  obtain ⟨line, hline, h⟩ := List.exists_of_findSome?_eq_some h
  unfold directiveParts? at h
  simp only [Option.bind_eq_bind, Option.bind_eq_some_iff] at h
  obtain ⟨rest, hrest, ⟨inner, tail⟩, hinner, ⟨alt', source'⟩, halt, h⟩ := h
  have heq : alt' = alt := by
    split at h <;> exact congrArg Prod.fst (Option.some.inj h)
  have hsub : alt ⊆ line := heq ▸ List.Subset.trans (subset_of_splitLast? halt).1
    (List.Subset.trans (subset_of_splitLast? hinner).1 (suffix_of_afterFirst? hrest).subset)
  exact fun c hc => mem_of_mem_splitOn hline (hsub hc)

/-! ## Lines -/

/-- A line whose texts consist of characters with a property. -/
structure Line.IsWithin (P : Char → Prop) (line : Line) : Prop where
  text : ConsistsOf P line.text
  alt : ∀ alt source width height, line.marker = .image alt source width height → ConsistsOf P alt

variable {line : Line}

lemma wordMarker?_ne_image {word text : List Char} {marker : Marker}
    (h : wordMarker? word text = .ok (some marker)) (alt source : String)
    (width height : Option UInt32) : marker ≠ .image alt source width height := by
  rintro rfl
  unfold wordMarker? at h
  dsimp only at h
  split_ifs at h <;> simp at h

/-- A line of its own. -/
lemma classifyBare_isWithin (hspace : P ' ') (hfeed : P '\n') (hcs : ∀ c ∈ cs, P c)
    (h : classifyBare cs = .ok line) : line.IsWithin P := by
  have hwhole : ∀ c ∈ trim cs, P c := fun c hc => hcs c (mem_of_mem_trim hc)
  have htext : ∀ c ∈ joinWith [' '] ((words (trim cs)).drop 1), P c := by
    intro c hc
    rcases mem_joinWith hc with hc | ⟨word, hword, hc⟩
    · exact List.mem_singleton.mp hc ▸ hspace
    · exact hwhole c (mem_of_mem_words (List.mem_of_mem_drop hword) hc)
  have hplain {marker : Marker} {text : List Char}
      (hmarker : ∀ alt source width height, marker ≠ .image alt source width height)
      (htext : ∀ c ∈ text, P c) : Line.IsWithin P ⟨marker, String.ofList text, 0⟩ :=
    ⟨consistsOf_ofList.mpr htext,
      fun alt source width height h => absurd h (hmarker alt source width height)⟩
  unfold classifyBare at h
  dsimp only at h
  split at h
  case h_1 marker himage =>
    obtain rfl := Except.ok.inj h
    refine ⟨consistsOf_ofList.mpr hwhole, fun alt source width height hmarker => ?_⟩
    split_ifs at himage
    obtain ⟨⟨alt', source', size⟩, hparts, hmarker'⟩ := Option.map_eq_some_iff.mp himage
    dsimp only at hmarker hmarker'
    rw [hmarker, Marker.image.injEq] at hmarker'
    rw [← hmarker'.1, consistsOf_ofList]
    intro c hc
    rcases mem_or_of_mem_replaceAll hc with hc | hc
    · exact hcs c (subset_of_imageParts? hparts hc)
    · exact List.mem_singleton.mp hc ▸ hfeed
  case h_2 =>
    split_ifs at h
    · obtain rfl := Except.ok.inj h
      exact hplain (by simp) fun c hc => hwhole c (List.mem_of_mem_drop hc)
    · obtain rfl := Except.ok.inj h
      exact hplain (by simp) fun c hc => hwhole c (List.mem_of_mem_drop (mem_of_mem_trim hc))
    · split at h
      case h_1 => simp at h
      case h_2 marker hmarker =>
        obtain rfl := Except.ok.inj h
        exact hplain (wordMarker?_ne_image hmarker) htext
      case h_3 =>
        obtain rfl := Except.ok.inj h
        exact hplain (by simp) hwhole

theorem classify_isWithin {raw : String} (hspace : P ' ') (hfeed : P '\n') (hraw : ConsistsOf P raw)
    (h : classify raw = .ok line) : line.IsWithin P := by
  unfold classify at h
  dsimp only at h
  split_ifs at h
  · exact classifyBare_isWithin hspace hfeed hraw h
  · obtain rfl := Except.ok.inj h
    refine ⟨consistsOf_ofList.mpr fun c hc => ?_, by simp⟩
    exact hraw c (mem_of_mem_unindent (mem_of_mem_trim hc))

lemma Line.IsWithin.bare {unindented : Line} (hspace : P ' ') (hfeed : P '\n')
    (hline : line.IsWithin P) (h : line.bare = .ok unindented) : unindented.IsWithin P := by
  unfold Line.bare at h
  split_ifs at h
  · exact classify_isWithin hspace hfeed hline.text h
  · exact Except.ok.inj h ▸ hline

/-! ## Open lists -/

lemma ConsistsOf.of_lines {s : String} (hfeed : P '\n') (h : ∀ l ∈ lines s, ConsistsOf P l) :
    ConsistsOf P s := by
  intro c hc
  rcases mem_lines hc with rfl | ⟨l, hl, hc⟩
  · exact hfeed
  · exact h l hl c hc

/-- The texts of a list stand on its lines. -/
lemma consistsOf_closed {opened : OpenLists} (hfeed : P '\n')
    (h : ∀ l ∈ opened.lines, ConsistsOf P l) :
    NodesConsistOf P [.list opened.close] := by
  have hlines : (entriesTexts opened.close.entries).flatMap lines = opened.lines :=
    OpenLists.lines_closeInto opened.inner opened.outer
  refine nodesConsistOf_list.mpr fun s hs => ConsistsOf.of_lines hfeed fun l hl => h l ?_
  rw [← hlines]
  exact List.mem_flatMap.mpr ⟨s, hs, hl⟩

/-! ## One line -/

namespace Reader

/-- The texts in lists or code that are still open. -/
def opened (r : Reader) : List String :=
  match r.place with
  | .paragraphs => []
  | .lists lists _ => lists.lines
  | .code code => code.title :: code.newest

/-- A reader all of whose texts consist of characters with a property. -/
structure IsWithin (P : Char → Prop) (r : Reader) : Prop where
  nodes : NodesConsistOf P r.newest
  settings : ∀ s ∈ r.settings.title.toList ++ r.settings.author.toList, ConsistsOf P s
  opened : ∀ s ∈ r.opened, ConsistsOf P s

variable {r next last : Reader} {raw : String} {node : Node String}

lemma IsWithin.push (h : r.IsWithin P) (hnode : NodesConsistOf P [node]) :
    (r.push node).IsWithin P :=
  ⟨nodesConsistOf_cons.mpr ⟨hnode, h.nodes⟩, h.settings, h.opened⟩

/-- Wherever the reader goes, it has read what it has read. -/
lemma IsWithin.goTo (h : r.IsWithin P) {place : Place}
    (hplace : ∀ s ∈ Reader.opened { r with place }, ConsistsOf P s) :
    IsWithin P { r with place } :=
  ⟨h.nodes, h.settings, hplace⟩

lemma IsWithin.pushText (h : r.IsWithin P) (hfeed : P '\n') (hraw : ConsistsOf P raw) :
    (r.pushText raw).IsWithin P := by
  have htext : NodesConsistOf P [.ofText (trimmed raw)] := nodesConsistOf_ofText.mpr hraw.trimmed
  unfold Reader.pushText
  dsimp only
  split
  case h_2 => exact h.push htext
  case h_1 p before hnewest =>
    have hnodes := h.nodes
    rw [hnewest, nodesConsistOf_cons, nodesConsistOf_text] at hnodes
    obtain ⟨hp, hbefore⟩ := hnodes
    have hrest : IsWithin P { r with newest := before } := ⟨hbefore, h.settings, h.opened⟩
    have hmark : ConsistsOf P "\n" := fun c hc => List.mem_singleton.mp hc ▸ hfeed
    split_ifs
    · exact h.push htext
    · exact hrest.push (nodesConsistOf_text.mpr hraw.trimmed)
    · refine hrest.push (nodesConsistOf_text.mpr (consistsOf_append.mpr ⟨?_, hraw.trimmed⟩))
      exact consistsOf_append.mpr ⟨hp, hmark⟩

lemma afterKeyword?_isWithin {keyword text rest : String} (htext : ConsistsOf P text)
    (h : afterKeyword? keyword text = some rest) : ConsistsOf P rest := by
  unfold afterKeyword? at h
  split_ifs at h
  obtain rfl := Option.some.inj h
  exact consistsOf_ofList.mpr fun c hc => htext c (List.mem_of_mem_drop (mem_of_mem_trim hc))

lemma IsWithin.applyRule (h : r.IsWithin P) {text : String} (htext : ConsistsOf P text) :
    (r.applyRule text).IsWithin P := by
  have hsettings {settings : Settings}
      (hs : ∀ s ∈ settings.title.toList ++ settings.author.toList, ConsistsOf P s) :
      IsWithin P { r with settings } :=
    ⟨h.nodes, hs, h.opened⟩
  have htitle := fun s hs => h.settings s (List.mem_append_left _ hs)
  have hauthor := fun s hs => h.settings s (List.mem_append_right _ hs)
  unfold Reader.applyRule
  dsimp only
  split_ifs
  · exact hsettings h.settings
  · exact hsettings h.settings
  · split
    case h_1 _ title htitle' =>
      refine hsettings (List.forall_mem_append.mpr ⟨?_, hauthor⟩)
      simpa using afterKeyword?_isWithin htext.trimmed htitle'
    case h_2 author _ hauthor' =>
      refine hsettings (List.forall_mem_append.mpr ⟨htitle, ?_⟩)
      simpa using afterKeyword?_isWithin htext.trimmed hauthor'
    case h_3 => exact ⟨h.nodes, h.settings, h.opened⟩

/-- A list that begins. -/
lemma consistsOf_single {ordered : Bool} {start : UInt32} {text : String}
    (htext : ConsistsOf P text) :
    ∀ s ∈ (OpenLists.single (.ofItem ordered start text)).lines, ConsistsOf P s := by
  intro s hs
  have hmem : s ∈ Text.lines text := by
    simpa [OpenLists.lines, OpenLists.single, OpenList.lines_ofItem] using hs
  exact htext.of_mem_lines hmem

lemma IsWithin.take (h : r.IsWithin P) (hfeed : P '\n') (hraw : ConsistsOf P raw) {line : Line}
    (hline : line.IsWithin P) : (r.take raw line).IsWithin P := by
  have hstart : IsWithin P { r with place := .paragraphs } := h.goTo (by simp [Reader.opened])
  unfold Reader.take
  dsimp only
  split
  case h_1 level =>
    exact hstart.push (nodesConsistOf_title.mpr hline.text)
  case h_2 => exact h.goTo (consistsOf_single hline.text)
  case h_3 index => exact h.goTo (consistsOf_single hline.text)
  case h_4 alt source width height hmarker =>
    exact hstart.push
      (nodesConsistOf_image.mpr (hline.alt alt source width height hmarker))
  case h_5 =>
    refine h.goTo fun s hs => ?_
    have hmem : s = (OpenCode.ofFence line.text).title := by
      simpa [Reader.opened, OpenCode.ofFence] using hs
    rw [hmem]
    exact consistsOf_ofList.mpr fun c hc =>
      hline.text c ((List.dropWhile_sublist _).subset (List.mem_of_mem_drop hc))
  case h_6 => exact hstart
  case h_7 pageStart => exact hstart.push nodesConsistOf_sectionBreak
  case h_8 => exact hstart.applyRule hline.text
  case h_9 => exact hstart.pushText hfeed hraw
  case h_10 => exact hstart.pushText hfeed hraw

lemma IsWithin.closeLists (h : r.IsWithin P) (hfeed : P '\n') {lists : OpenLists}
    (hlists : ∀ l ∈ lists.lines, ConsistsOf P l) : (r.closeLists lists).IsWithin P :=
  h.push (consistsOf_closed hfeed hlists)

lemma IsWithin.stepInLists (h : r.IsWithin P) (hfeed : P '\n') (hraw : ConsistsOf P raw)
    {lists : OpenLists} {blank : Bool} (hlists : ∀ l ∈ lists.lines, ConsistsOf P l)
    {line bare : Line} (hline : line.IsWithin P) (hbare : bare.IsWithin P) :
    (r.stepInLists lists blank raw line bare).IsWithin P := by
  have hclosed : (r.closeLists lists).IsWithin P := h.closeLists hfeed hlists
  have hempty : NodesConsistOf P [.ofText ""] := by simp [ConsistsOf]
  unfold Reader.stepInLists
  dsimp only
  split_ifs
  · exact h.goTo hlists
  · split
    case h_1 next hnext =>
      obtain ⟨text, htext, hlines⟩ := OpenLists.lines_of_place? hnext
      refine h.goTo fun s hs => ?_
      have hmem : s ∈ lists.lines ++ Text.lines text := hlines ▸ hs
      rcases List.mem_append.mp hmem with hmem | hmem
      · exact hlists s hmem
      · rcases htext with rfl | rfl
        · exact hbare.text.of_mem_lines hmem
        · exact hline.text.of_mem_lines hmem
    case h_2 => exact hclosed.take hfeed hraw hline
  · exact (hclosed.push hempty).take hfeed hraw hline
  · exact hclosed.take hfeed hraw hline

/-- A block of code that is closed says what its lines say. -/
lemma IsWithin.closeCode (h : r.IsWithin P) (hfeed : P '\n') {code : OpenCode}
    (hplace : r.place = .code code) :
    IsWithin P { r.push (.code code.close) with place := .paragraphs } := by
  have hopened : r.opened = code.title :: code.newest := by rw [Reader.opened, hplace]
  have hlines := h.opened
  rw [hopened, List.forall_mem_cons] at hlines
  have hbody : ConsistsOf P code.close.body := by
    refine consistsOf_ofList.mpr fun c hc => ?_
    have hmem := (List.dropWhile_sublist _).subset (mem_of_mem_dropEndWhile hc)
    rcases mem_joinWith hmem with hmem | ⟨line, hline, hc⟩
    · exact List.mem_singleton.mp hmem ▸ hfeed
    · obtain ⟨s, hs, rfl⟩ := List.mem_map.mp hline
      exact hlines.2 s (List.mem_reverse.mp hs) c hc
  have hnode : NodesConsistOf P [.code code.close] := nodesConsistOf_code.mpr ⟨hlines.1, hbody⟩
  exact (h.push hnode).goTo (by simp [Reader.opened])

/-- What one line keeps. -/
theorem IsWithin.step (h : r.IsWithin P) (hspace : P ' ') (hfeed : P '\n')
    (hraw : ConsistsOf P raw) (hstep : r.step raw = .ok next) : next.IsWithin P := by
  unfold Reader.step at hstep
  split at hstep
  case h_1 code hplace =>
    split_ifs at hstep
    · obtain rfl := Except.ok.inj hstep
      exact h.closeCode hfeed hplace
    · obtain rfl := Except.ok.inj hstep
      have hopened : r.opened = code.title :: code.newest := by rw [Reader.opened, hplace]
      have hlines := h.opened
      rw [hopened, List.forall_mem_cons] at hlines
      refine h.goTo fun s hs => ?_
      have hmem : s ∈ code.title :: raw :: code.newest := hs
      simp only [List.mem_cons] at hmem
      rcases hmem with rfl | rfl | hmem
      · exact hlines.1
      · exact hraw
      · exact hlines.2 s hmem
  case h_2 =>
    cases hline : classify raw with
    | error fault => simp [hline, bind, Except.bind] at hstep
    | ok line =>
        simp only [hline, bind, Except.bind, pure, Except.pure, Except.ok.injEq] at hstep
        exact hstep ▸ h.take hfeed hraw (classify_isWithin hspace hfeed hraw hline)
  case h_3 lists blank hplace =>
    have hopened : r.opened = lists.lines := by rw [Reader.opened, hplace]
    have hlists := h.opened
    rw [hopened] at hlists
    cases hline : classify raw with
    | error fault => simp [hline, bind, Except.bind] at hstep
    | ok line =>
        have hread := classify_isWithin hspace hfeed hraw hline
        cases hbare : line.bare with
        | error fault => simp [hline, hbare, bind, Except.bind] at hstep
        | ok bare =>
            simp only [hline, hbare, bind, Except.bind, pure, Except.pure,
              Except.ok.injEq] at hstep
            exact hstep ▸ h.stepInLists hfeed hraw hlists hread (hread.bare hspace hfeed hbare)

lemma IsWithin.finish (h : r.IsWithin P) (hfeed : P '\n') : r.finish.IsWithin P := by
  unfold Reader.finish
  split
  case h_1 => exact h
  case h_2 lists blank hplace =>
    have hopened : r.opened = lists.lines := by rw [Reader.opened, hplace]
    exact (h.closeLists hfeed (hopened ▸ h.opened)).goTo (by simp [Reader.opened])
  case h_3 code hplace => exact h.closeCode hfeed hplace

end Reader

/-! ## The passes over nodes -/

section Passes

variable {nodes before : List (Node String)} {node : Node String} {text : String}

lemma subset_of_splitAtBrace? : ∀ {cs before after : List Char},
    splitAtBrace? cs = some (before, after) → before ⊆ cs
  | [], before, after, h => by simp [splitAtBrace?] at h
  | c :: cs, before, after, h => by
      rw [splitAtBrace?] at h
      split at h
      case h_1 front back hcut =>
        obtain ⟨rfl, rfl⟩ := Prod.mk.inj (Option.some.inj h)
        exact List.cons_subset_cons c (subset_of_splitAtBrace? hcut)
      case h_2 =>
        split_ifs at h
        split at h
        · obtain ⟨rfl, rfl⟩ := Prod.mk.inj (Option.some.inj h)
          exact List.nil_subset _
        · simp at h

/-- The path of a directive stands in its text. -/
lemma subset_of_directive? {path body : List Char} (h : directive? cs = some (path, body)) :
    path ⊆ cs := by
  obtain ⟨rest, hrest, h⟩ := Option.bind_eq_some_iff.mp h
  split_ifs at h
  exact List.Subset.trans (subset_of_splitAtBrace? h)
    (List.Subset.trans (List.dropLast_subset rest) (suffix_of_dropLead? hrest).subset)

lemma externalNode_isWithin (h : NodesConsistOf P [node]) :
    NodesConsistOf P [(externalNode node).1] := by
  cases node with
  | text p =>
      have hp : ConsistsOf P p.text := nodesConsistOf_text.mp h
      cases hexternal : external? p.text with
      | none => simpa [externalNode, hexternal] using h
      | some found =>
          obtain ⟨⟨path, body⟩, hdirective, hfound⟩ := Option.map_eq_some_iff.mp hexternal
          have hpath : found.1.path = String.ofList path := by
            rw [← hfound]
            dsimp only
            split <;> rfl
          have hwritten : ConsistsOf P found.1.path := by
            rw [hpath, consistsOf_ofList]
            exact fun c hc =>
              hp c (mem_of_mem_dropTrailingCommas (subset_of_directive? hdirective hc))
          simpa [externalNode, hexternal] using hwritten
  | _ => exact h

/-- The texts of a row stand in its line. -/
lemma tableRow_isWithin {line : List Char} (hline : ∀ c ∈ line, P c) :
    NodesConsistOf P (tableRow line) := by
  refine nodesConsistOf_textRow.mpr fun text htext => ?_
  obtain ⟨cell, hcell, rfl⟩ := List.mem_map.mp htext
  obtain ⟨piece, hpiece, rfl⟩ := List.mem_map.mp hcell
  refine consistsOf_ofList.mpr fun c hc => ?_
  exact hline c (mem_of_mem_rowText (mem_of_mem_splitOn hpiece (mem_of_mem_trim hc)))

/-- The rows of a table and what is left over stand in the text. -/
lemma splitTable?_isWithin (hfeed : P '\n') (htext : ConsistsOf P text)
    {rows : List (List (Node String))} {left : Option String}
    (h : splitTable? text = some (rows, left)) :
    (∀ row ∈ rows, NodesConsistOf P row) ∧ ∀ s ∈ left, ConsistsOf P s := by
  have hlines : ∀ line ∈ splitOn '\n' text.toList, ∀ c ∈ line, P c :=
    fun line hline c hc => htext c (mem_of_mem_splitOn hline hc)
  unfold splitTable? at h
  split at h
  case h_2 => simp at h
  case h_1 header separator body hcut =>
    rw [hcut, List.forall_mem_cons, List.forall_mem_cons] at hlines
    obtain ⟨hheader, -, hbody⟩ := hlines
    have hrows (p : List Char → Bool) : ∀ row ∈ tableRow header :: (body.takeWhile p).map tableRow,
        NodesConsistOf P row := by
      refine List.forall_mem_cons.mpr ⟨tableRow_isWithin hheader, fun row hrow => ?_⟩
      obtain ⟨line, hline, rfl⟩ := List.mem_map.mp hrow
      exact tableRow_isWithin (hbody line ((List.takeWhile_prefix _).subset hline))
    split at h
    case h_1 => simp at h
    case h_2 columns hcolumns =>
      dsimp only at h
      split_ifs at h
      · obtain ⟨rfl, rfl⟩ := Prod.mk.inj (Option.some.inj h)
        exact ⟨hrows _, by simp⟩
      · obtain ⟨rfl, rfl⟩ := Prod.mk.inj (Option.some.inj h)
        refine ⟨hrows _, ?_⟩
        rintro s ⟨⟩
        refine consistsOf_ofList.mpr fun c hc => ?_
        rcases mem_joinWith hc with hc | ⟨line, hline, hc⟩
        · exact List.mem_singleton.mp hc ▸ hfeed
        · exact hbody line ((List.dropWhile_sublist _).subset hline) c hc

lemma takeCaption_isWithin (h : NodesConsistOf P before) :
    (∀ s ∈ (takeCaption before).1, ConsistsOf P s) ∧
      NodesConsistOf P (takeCaption before).2 := by
  unfold takeCaption
  split
  case h_1 p rest =>
    obtain ⟨hp, hrest⟩ := nodesConsistOf_cons.mp h
    refine ⟨?_, hrest⟩
    rintro s ⟨⟩
    exact nodesConsistOf_text.mp hp
  case h_2 => exact ⟨by simp, h⟩

/-- What the pass for tables makes of one more node. -/
lemma pushNode_isWithin (hfeed : P '\n') (hbefore : NodesConsistOf P before)
    (hnode : NodesConsistOf P [node]) : NodesConsistOf P (pushNode before node) := by
  obtain ⟨hcaption, hrest⟩ := takeCaption_isWithin hbefore
  cases node with
  | text p =>
      cases hsplit : splitTable? p.text with
      | none =>
          simp only [pushNode, hsplit]
          exact nodesConsistOf_cons.mpr ⟨hnode, hbefore⟩
      | some found =>
          obtain ⟨rows, left⟩ := found
          obtain ⟨hrows, hleft⟩ :=
            splitTable?_isWithin hfeed (nodesConsistOf_text.mp hnode) hsplit
          have htable : NodesConsistOf P
              (.table (takeCaption before).1 rows false :: (takeCaption before).2) :=
            nodesConsistOf_cons.mpr ⟨nodesConsistOf_table.mpr ⟨hcaption, hrows⟩, hrest⟩
          cases left with
          | none =>
              simp only [pushNode, hsplit]
              exact htable
          | some text =>
              simp only [pushNode, hsplit]
              exact nodesConsistOf_cons.mpr ⟨nodesConsistOf_text.mpr (hleft text rfl), htable⟩
  | _ => exact nodesConsistOf_cons.mpr ⟨hnode, hbefore⟩

lemma foldl_pushNode_isWithin (hfeed : P '\n') (hbefore : NodesConsistOf P before)
    (hnodes : NodesConsistOf P nodes) : NodesConsistOf P (nodes.foldl pushNode before) := by
  induction nodes generalizing before with
  | nil => exact hbefore
  | cons n ns ih =>
      obtain ⟨hn, hns⟩ := nodesConsistOf_cons.mp hnodes
      exact ih (pushNode_isWithin hfeed hbefore hn) hns

/-- The passes over the nodes bring in nothing but line feeds. -/
lemma detect_isWithin (hfeed : P '\n') (h : NodesConsistOf P nodes) :
    NodesConsistOf P (detect nodes).1 := by
  have hnodes : NodesConsistOf P (externals (dropEmptyTexts nodes)).1 := by
    refine nodesConsistOf_iff_forall.mpr fun m hm => ?_
    obtain ⟨n, hn, rfl⟩ := List.mem_map.mp hm
    exact externalNode_isWithin (nodesConsistOf_iff_forall.mp h n (List.mem_filter.mp hn).1)
  have hfold :=
    nodesConsistOf_iff_forall.mp (foldl_pushNode_isWithin hfeed nodesConsistOf_nil hnodes)
  exact nodesConsistOf_iff_forall.mpr fun n hn => hfold n (List.mem_reverse.mp hn)

end Passes

/-! ## Whole sources -/

/-- Whatever a report says consists of characters of its source, spaces and line feeds. -/
theorem consistsOf_of_parse {source : String} {parsed : Parsed} (hspace : P ' ') (hfeed : P '\n')
    (hsource : ConsistsOf P source) (h : parse source = .ok parsed) :
    ∀ s ∈ parsed.document.strings, ConsistsOf P s := by
  obtain ⟨last, hreads, hdocument⟩ := exists_reads_of_parse h
  have hlines : ∀ raw ∈ sourceLines source, ConsistsOf P raw := by
    intro raw hraw
    obtain ⟨piece, hpiece, rfl⟩ := List.mem_map.mp hraw
    exact consistsOf_ofList.mpr fun c hc =>
      hsource c (mem_of_mem_splitOn hpiece (mem_of_mem_dropEnd hc))
  have hstart : Reader.IsWithin P {} :=
    ⟨nodesConsistOf_nil, by simp, by simp [Reader.opened]⟩
  have hlast : last.finish.IsWithin P :=
    Reader.IsWithin.finish (hreads.keeps (fun raw hraw hr hstep =>
      hr.step hspace hfeed (hlines raw hraw) hstep) hstart) hfeed
  have hread := nodesConsistOf_iff_forall.mp hlast.nodes
  have hnodes : NodesConsistOf P (detect last.finish.newest.reverse).1 :=
    detect_isWithin hfeed
      (nodesConsistOf_iff_forall.mpr fun n hn => hread n (List.mem_reverse.mp hn))
  rw [hdocument, strings_consistOf_iff]
  exact ⟨List.forall_mem_singleton.mpr hnodes, hlast.settings⟩

end ReportPress.Markup
