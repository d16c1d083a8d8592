import ReportPress.Enrich.Conventions
import ReportPress.Proofs.Document.Parts
import ReportPress.Proofs.Text.LetterCase
import ReportPress.Proofs.Xml.Strings

/-!
# The conventions bring in no characters that cannot be written

The conventions for reports put titles in capitals, take marks off and put others on, and add some
sentences of their own.

* `AreXmlNodes` — nodes whose strings consist of characters that XML allows.

**Letter case.**  `isXmlChar_of_mem_upperChar`, `isXmlChar_of_mem_lowerChar` — letters stay letters
that XML allows: every run of the tables moves into one of the runs of allowed characters.

**The passes.**  `punctuateNodes_isXmlText` is the pass for lists, `rule_isXmlText` the rule at a
heading, and `arrange_isXmlText` the pass for headings.  `isXmlText_of_enrich` puts them
together.
-/

namespace ReportPress.Enrich

open Text

/-- Nodes whose strings can be written. -/
abbrev AreXmlNodes (ns : List (Node String)) : Prop :=
  NodesConsistOf (fun c => isXmlChar c = true) ns

/-! ## Letter case -/

/-- A run of letters that moves to a place where all characters are allowed. -/
def StaysInXml (r : CaseRange) : Prop :=
  ∃ x ∈ xmlRanges, (x.first : Int) ≤ r.first + r.shift ∧ r.last + r.shift ≤ x.last

instance : DecidablePred StaysInXml := fun r =>
  inferInstanceAs (Decidable (∃ x ∈ xmlRanges,
    (x.first : Int) ≤ r.first + r.shift ∧ r.last + r.shift ≤ x.last))

lemma isXmlChar_ofNat {n : Nat} (h : ∃ x ∈ xmlRanges, x.first ≤ n ∧ n ≤ x.last) :
    isXmlChar (Char.ofNat n) = true := by
  have hvalid : ∀ x ∈ xmlRanges, x.last < 0xD800 ∨ (0xDFFF < x.first ∧ x.last < 0x110000) := by
    decide
  obtain ⟨x, hx, hfirst, hlast⟩ := h
  have hn : n.isValidChar := by
    rcases hvalid x hx with h | ⟨h, h'⟩
    · exact Or.inl (by omega)
    · exact Or.inr ⟨by omega, by omega⟩
  have htoNat : (Char.ofNat n).toNat = n := toNat_ofNat hn
  exact isXmlChar_of_range hx (by omega) (by omega)

lemma isXmlChar_of_mem_mapCase {specials : List (Char × String)} {ranges : List CaseRange}
    (hspecials : ∀ s ∈ specials, IsXmlText s.2) (hranges : ∀ r ∈ ranges, StaysInXml r) {c d : Char}
    (hc : isXmlChar c = true) (hd : d ∈ mapCase specials ranges c) : isXmlChar d = true := by
  unfold mapCase at hd
  split at hd
  case h_1 special long hfind => exact hspecials _ (List.mem_of_find?_eq_some hfind) d hd
  case h_2 =>
    split at hd
    case h_1 r hfind =>
      rw [List.mem_singleton] at hd
      have hholds := List.find?_some hfind
      simp only [CaseRange.holds, Bool.and_eq_true, decide_eq_true_eq] at hholds
      obtain ⟨x, hx, hfirst, hlast⟩ := hranges r (List.mem_of_find?_eq_some hfind)
      rw [hd]
      refine isXmlChar_ofNat ⟨x, hx, ?_, ?_⟩
      · unfold shiftCode
        omega
      · unfold shiftCode
        omega
    case h_2 =>
      rw [List.mem_singleton] at hd
      exact hd ▸ hc

/-- ASCII letters keep to ASCII. -/
lemma isXmlChar_of_ascii_case {c : Char} (hlt : c.toNat < 0x80) (hc : isXmlChar c = true) :
    isXmlChar c.toUpper = true ∧ isXmlChar c.toLower = true :=
  of_forall_ascii (P := fun c => isXmlChar c = true →
    isXmlChar c.toUpper = true ∧ isXmlChar c.toLower = true) (by decide +kernel) hlt hc

lemma isXmlChar_of_mem_upperChar {c d : Char} (hc : isXmlChar c = true) (hd : d ∈ upperChar c) :
    isXmlChar d = true := by
  unfold upperChar at hd
  split_ifs at hd with hlt
  · exact List.mem_singleton.mp hd ▸ (isXmlChar_of_ascii_case hlt hc).1
  · exact isXmlChar_of_mem_mapCase (by decide +kernel) (by decide +kernel) hc hd

lemma isXmlChar_of_mem_lowerChar {c d : Char} (hc : isXmlChar c = true) (hd : d ∈ lowerChar c) :
    isXmlChar d = true := by
  unfold lowerChar at hd
  split_ifs at hd with hlt
  · exact List.mem_singleton.mp hd ▸ (isXmlChar_of_ascii_case hlt hc).2
  · exact isXmlChar_of_mem_mapCase (by decide +kernel) (by decide +kernel) hc hd

lemma isXmlText_upper {s : String} (h : IsXmlText s) : IsXmlText (upper s) := by
  refine consistsOf_ofList.mpr fun d hd => ?_
  obtain ⟨c, hc, hd⟩ := List.mem_flatMap.mp hd
  exact isXmlChar_of_mem_upperChar (h c hc) hd

lemma isXmlText_lowerFirst {s : String} (h : IsXmlText s) : IsXmlText (lowerFirst s) := by
  unfold lowerFirst
  split
  case h_1 => exact h
  case h_2 c cs hcs =>
    refine consistsOf_ofList.mpr fun d hd => ?_
    have hmem : ∀ e ∈ c :: cs, isXmlChar e = true := fun e he => h e (hcs ▸ he)
    rcases List.mem_append.mp hd with hd | hd
    · exact isXmlChar_of_mem_lowerChar (hmem c List.mem_cons_self) hd
    · exact hmem d (List.mem_cons_of_mem c hd)

lemma isXmlText_trimEndOf {marks : List Char} {cs : List Char} (h : ∀ c ∈ cs, isXmlChar c = true) :
    IsXmlText (String.ofList (trimEndOf marks cs)) :=
  consistsOf_ofList.mpr fun c hc => h c (mem_of_mem_dropEndWhile hc)

/-! ## Lists -/

lemma isXmlText_terminate {text : String} {mark : Char} (h : IsXmlText text)
    (hmark : isXmlChar mark = true) : IsXmlText (terminate text mark) := by
  have htrim : ∀ c ∈ trimEnd text.toList, isXmlChar c = true :=
    fun c hc => h c (mem_of_mem_dropEndWhile hc)
  refine isXmlText_append.mpr ⟨isXmlText_lowerFirst (isXmlText_trimEndOf htrim), ?_⟩
  exact consistsOf_ofList.mpr fun c hc => List.mem_singleton.mp hc ▸ hmark

lemma isXmlChar_ending (nested : Bool) (entries : List (Entry String)) :
    isXmlChar (ending nested entries) = true := by
  unfold ending
  split_ifs <;> decide

mutual

lemma punctuateEntry_isXmlText {mark : Char} {lastItem beforeList : Bool}
    (hmark : isXmlChar mark = true) : ∀ {e : Entry String}, (∀ s ∈ e.texts, IsXmlText s) →
      ∀ s ∈ (punctuateEntry mark lastItem beforeList e).texts, IsXmlText s
  | .item text, h => by
      have htext : IsXmlText text := h text (by simp [Entry.texts])
      rw [punctuateEntry, Entry.texts]
      intro s hs
      rw [List.mem_singleton.mp hs]
      refine isXmlText_terminate htext ?_
      split_ifs
      · decide
      · decide
      · exact hmark
  | .list style entries, h => by
      rw [Entry.texts] at h
      rw [punctuateEntry, Entry.texts]
      exact punctuateEntries_isXmlText (isXmlChar_ending true entries) h

lemma punctuateEntries_isXmlText {mark : Char} {lastItem : Bool} (hmark : isXmlChar mark = true) :
    ∀ {es : List (Entry String)}, (∀ s ∈ entriesTexts es, IsXmlText s) →
      ∀ s ∈ entriesTexts (punctuateEntries mark lastItem es), IsXmlText s
  | [], h => by simp [punctuateEntries, entriesTexts]
  | e :: rest, h => by
      rw [entriesTexts, List.forall_mem_append] at h
      rw [punctuateEntries, entriesTexts, List.forall_mem_append]
      exact ⟨punctuateEntry_isXmlText hmark h.1, punctuateEntries_isXmlText hmark h.2⟩

end

mutual

lemma punctuateNode_isXmlText : ∀ {n : Node String}, AreXmlNodes [n] → AreXmlNodes [punctuateNode n]
  | .list l, h => by
      rw [punctuateNode]
      split_ifs
      · exact h
      · exact nodesConsistOf_list.mpr (punctuateEntries_isXmlText
          (isXmlChar_ending false l.entries) (nodesConsistOf_list.mp h))
  | .table caption rows normal, h => by
      obtain ⟨hcaption, hrows⟩ := nodesConsistOf_table.mp h
      rw [punctuateNode]
      exact nodesConsistOf_table.mpr ⟨hcaption, punctuateRows_isXmlText hrows⟩
  | .text p, h => by simpa [punctuateNode] using h
  | .title t, h => by simpa [punctuateNode] using h
  | .pageBreak, _ => by simp [punctuateNode]
  | .contents, _ => by simp [punctuateNode]
  | .image i, h => by simpa [punctuateNode] using h
  | .code c, h => by simpa [punctuateNode] using h
  | .external d, h => by simpa [punctuateNode] using h
  | .sectionBreak pageStart, _ => by simp [punctuateNode]

lemma punctuateNodes_isXmlText : ∀ {ns : List (Node String)}, AreXmlNodes ns →
    AreXmlNodes (punctuateNodes ns)
  | [], h => by rwa [punctuateNodes]
  | n :: ns, h => by
      obtain ⟨hn, hns⟩ := nodesConsistOf_cons.mp h
      rw [punctuateNodes]
      exact nodesConsistOf_cons.mpr ⟨punctuateNode_isXmlText hn, punctuateNodes_isXmlText hns⟩

lemma punctuateRows_isXmlText : ∀ {rs : List (List (Node String))},
    (∀ row ∈ rs, AreXmlNodes row) → ∀ row ∈ punctuateRows rs, AreXmlNodes row
  | [], h => by rwa [punctuateRows]
  | r :: rs, h => by
      obtain ⟨hr, hrs⟩ := List.forall_mem_cons.mp h
      rw [punctuateRows]
      exact List.forall_mem_cons.mpr ⟨punctuateNodes_isXmlText hr, punctuateRows_isXmlText hrs⟩

end

/-! ## Headings -/

/-- The texts of an item before and behind its colon. -/
lemma isXmlText_of_splitColon? {text term definition : String} (h : IsXmlText text)
    (hcut : splitColon? text = some (term, definition)) :
    IsXmlText term ∧ IsXmlText definition := by
  unfold splitColon? at hcut
  dsimp only at hcut
  split_ifs at hcut
  obtain ⟨rfl, rfl⟩ := Prod.mk.inj (Option.some.inj hcut)
  constructor
  · exact consistsOf_ofList.mpr fun c hc =>
      h c ((List.takeWhile_prefix _).subset (mem_of_mem_trim hc))
  · exact consistsOf_ofList.mpr fun c hc =>
      h c ((List.dropWhile_sublist _).subset (List.mem_of_mem_drop (mem_of_mem_trim hc)))

lemma mem_entriesTexts_item {text : String} : ∀ {es : List (Entry String)}, .item text ∈ es →
    text ∈ entriesTexts es
  | e :: es, h => by
      rw [entriesTexts, List.mem_append]
      rcases List.mem_cons.mp h with rfl | h
      · exact Or.inl (by simp [Entry.texts])
      · exact Or.inr (mem_entriesTexts_item h)

/-- What is gathered is made of one of the entries. -/
lemma exists_of_mem_gather {α β : Type} {make : α → Except Diagnostic β} {entries : List α} {b : β}
    (h : b ∈ (gather make entries).1) : ∃ e ∈ entries, make e = .ok b := by
  obtain ⟨e, he, hb⟩ := List.mem_filterMap.mp h
  refine ⟨e, he, ?_⟩
  cases hmake : make e with
  | error d => simp [hmake, Except.toOption] at hb
  | ok b' => rw [Except.ok.injEq]; simpa [hmake, Except.toOption] using hb

lemma glossary_isXmlText {l : ItemList String} (h : ∀ s ∈ entriesTexts l.entries, IsXmlText s) :
    AreXmlNodes (glossary l).1 := by
  have hrows : ∀ row ∈ (gather glossaryRow l.entries).1, AreXmlNodes row := by
    intro row hrow
    obtain ⟨e, he, hmake⟩ := exists_of_mem_gather hrow
    cases e with
    | list style entries => simp [glossaryRow] at hmake
    | item text =>
        cases hcut : splitColon? text with
        | none => simp [glossaryRow, hcut] at hmake
        | some pieces =>
            simp only [glossaryRow, hcut, Except.ok.injEq] at hmake
            obtain ⟨hterm, hdefinition⟩ :=
              isXmlText_of_splitColon? (h text (mem_entriesTexts_item he)) hcut
            rw [← hmake]
            exact nodesConsistOf_textRow.mpr (by simpa using ⟨hterm, hdefinition⟩)
  have hheader : AreXmlNodes glossaryHeader := by
    have htexts : ∀ s ∈ ["Термин", "Определение"], IsXmlText s := by decide
    exact nodesConsistOf_textRow.mpr htexts
  have htable : AreXmlNodes
      [.table none (glossaryHeader :: (gather glossaryRow l.entries).1) true] :=
    nodesConsistOf_table.mpr ⟨by simp, List.forall_mem_cons.mpr ⟨hheader, hrows⟩⟩
  have hlead : IsXmlText glossaryLeadIn := by decide +kernel
  have hnodes : (glossary l).1 = [.ofText glossaryLeadIn,
      .table none (glossaryHeader :: (gather glossaryRow l.entries).1) true, .pageBreak] := rfl
  rw [hnodes]
  exact nodesConsistOf_cons.mpr ⟨nodesConsistOf_ofText.mpr hlead,
    nodesConsistOf_cons.mpr ⟨htable, nodesConsistOf_pageBreak⟩⟩

lemma abbreviations_isXmlText {l : ItemList String}
    (h : ∀ s ∈ entriesTexts l.entries, IsXmlText s) : AreXmlNodes (abbreviations l).1 := by
  have hlines : AreXmlNodes (gather abbreviationLine l.entries).1 := by
    refine nodesConsistOf_iff_forall.mpr fun n hn => ?_
    obtain ⟨e, he, hmake⟩ := exists_of_mem_gather hn
    cases e with
    | list style entries => simp [abbreviationLine] at hmake
    | item text =>
        simp only [abbreviationLine, Except.ok.injEq] at hmake
        rw [← hmake]
        exact nodesConsistOf_text.mpr (isXmlText_trimEndOf (h text (mem_entriesTexts_item he)))
  have hlead : IsXmlText abbreviationsLeadIn := by decide +kernel
  have hnodes : (abbreviations l).1 = .ofText abbreviationsLeadIn ::
      ((gather abbreviationLine l.entries).1 ++ [.pageBreak]) := rfl
  rw [hnodes]
  exact nodesConsistOf_cons.mpr ⟨nodesConsistOf_ofText.mpr hlead,
    nodesConsistOf_append.mpr ⟨hlines, nodesConsistOf_pageBreak⟩⟩

lemma emphasize_isXmlText {t : Title String} (h : IsXmlText t.text) : AreXmlNodes [emphasize t] :=
  nodesConsistOf_title.mpr (isXmlText_upper h)

lemma keywords_isXmlText {p : Paragraph String} (h : IsXmlText p.text) : AreXmlNodes [keywords p] :=
  nodesConsistOf_text.mpr (isXmlText_upper (isXmlText_trimEndOf h))

/-- A rule keeps to the texts of its title and of the node behind it, but for letter case and
sentences of its own. -/
lemma rule_isXmlText {t : Title String} {next : Option (Node String)} (ht : IsXmlText t.text)
    (hnext : ∀ n ∈ next, AreXmlNodes [n]) : AreXmlNodes (rule t next).nodes := by
  have hcapitals := isXmlText_upper ht
  have htitle := emphasize_isXmlText ht
  have hlist {l : ItemList String} (h : next = some (.list l)) :
      ∀ s ∈ entriesTexts l.entries, IsXmlText s := nodesConsistOf_list.mp (hnext _ h)
  unfold rule
  split
  case h_1 => exact nodesConsistOf_title.mpr ht
  case h_2 =>
    exact nodesConsistOf_cons.mpr ⟨nodesConsistOf_ofText.mpr hcapitals, nodesConsistOf_pageBreak⟩
  case h_3 =>
    have hstatistics : IsXmlText abstractStatistics := by decide +kernel
    have hnodes : AreXmlNodes
        [.title { t with text := upper t.text, level := 0 }, .ofText abstractStatistics] :=
      nodesConsistOf_cons.mpr
        ⟨nodesConsistOf_title.mpr hcapitals, nodesConsistOf_ofText.mpr hstatistics⟩
    split
    · exact nodesConsistOf_append.mpr
        ⟨hnodes, keywords_isXmlText (nodesConsistOf_text.mp (hnext _ rfl))⟩
    · exact hnodes
  case h_4 =>
    exact nodesConsistOf_cons.mpr ⟨nodesConsistOf_title.mpr ht, nodesConsistOf_contents⟩
  case h_5 =>
    split
    · exact nodesConsistOf_cons.mpr ⟨htitle, glossary_isXmlText (hlist rfl)⟩
    · exact htitle
  case h_6 =>
    split
    · exact nodesConsistOf_cons.mpr ⟨htitle, abbreviations_isXmlText (hlist rfl)⟩
    · exact htitle
  case h_7 => exact htitle
  case h_8 => exact nodesConsistOf_cons.mpr ⟨nodesConsistOf_pageBreak, htitle⟩
  case h_9 =>
    split
    · have hentries := hlist rfl
      exact nodesConsistOf_cons.mpr ⟨nodesConsistOf_pageBreak,
        nodesConsistOf_cons.mpr ⟨htitle, nodesConsistOf_list.mpr hentries⟩⟩
    · exact nodesConsistOf_cons.mpr ⟨nodesConsistOf_pageBreak, htitle⟩

lemma arrange_isXmlText : ∀ {pending : Pending} {taken : Bool} {nodes : List (Node String)},
    AreXmlNodes nodes → AreXmlNodes (arrange pending taken nodes).1
  | pending, taken, [], h => by
      rw [arrange]
      cases pending
      · exact nodesConsistOf_nil
      · exact nodesConsistOf_nil
      · exact nodesConsistOf_pageBreak
  | pending, true, _ :: rest, h => by
      rw [arrange]
      exact arrange_isXmlText (nodesConsistOf_cons.mp h).2
  | pending, false, node :: rest, h => by
      obtain ⟨hnode, hrest⟩ := nodesConsistOf_cons.mp h
      by_cases htitle : ∃ t, node = .title t
      · obtain ⟨t, rfl⟩ := htitle
        have hbreak : AreXmlNodes pending.atTitle := by cases pending <;> simp [Pending.atTitle]
        have hnext : ∀ n ∈ rest.head?, AreXmlNodes [n] :=
          fun n hn => nodesConsistOf_iff_forall.mp hrest n (List.mem_of_mem_head? hn)
        have hruling := rule_isXmlText (nodesConsistOf_title.mp hnode) hnext
        rw [arrange]
        exact nodesConsistOf_append.mpr
          ⟨nodesConsistOf_append.mpr ⟨hbreak, hruling⟩, arrange_isXmlText hrest⟩
      · rw [arrange]
        · exact nodesConsistOf_append.mpr ⟨hnode, arrange_isXmlText hrest⟩
        · exact fun t ht => htitle ⟨t, ht⟩

/-! ## The report -/

/-- The conventions bring in no character that cannot be written. -/
theorem isXmlText_of_enrich {d : RawDocument} (h : ∀ s ∈ d.strings, IsXmlText s) :
    ∀ s ∈ (enrich d).1.strings, IsXmlText s := by
  obtain ⟨hsections, hsettings⟩ := strings_consistOf_iff.mp h
  cases hd : d.sections with
  | nil =>
      have henrich : (enrich d).1 = d := by simp [enrich, hd]
      rwa [henrich]
  | cons first rest =>
      rw [hd] at hsections
      obtain ⟨hfirst, hrest⟩ := List.forall_mem_cons.mp hsections
      have henrich : (enrich d).1 = { d with
          sections := ({ first with nodes := (applyHeadings first.nodes).1 } :: rest).map
            punctuateSection } := by
        simp [enrich, hd]
      rw [henrich]
      refine strings_consistOf_iff.mpr ⟨fun part hpart => ?_, hsettings⟩
      obtain ⟨raw, hraw, rfl⟩ := List.mem_map.mp hpart
      refine punctuateNodes_isXmlText ?_
      rcases List.mem_cons.mp hraw with rfl | hraw
      · exact arrange_isXmlText hfirst
      · exact hrest raw hraw

end ReportPress.Enrich
