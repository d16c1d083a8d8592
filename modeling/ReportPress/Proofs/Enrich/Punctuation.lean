import ReportPress.Enrich.Punctuation
import ReportPress.Proofs.Text.LetterCase

/-!
# The punctuation of lists

An item loses the marks at its end and is given one by its place in the lists around it.

* `stem` — an item without its mark.  `exists_stem_eq` says where the item is cut for it, and
  `getLast?_stem` that it ends in no other mark.
* `terminate_terminate` — of two marks that an item is given, the last counts.
* `wordCount_terminate` — another mark in the place of the last leaves as many words.

**Once and for all.**  A list that is punctuated stays long or short (`ending_punctuateEntries`),
and so each item is given the mark that it has: `punctuateNodes_punctuateNodes`.
-/

namespace ReportPress.Enrich

open Text

variable {text : String} {mark : Char} {c : Char}

/-! ## Items -/

/-- An item without white space and marks at its end, and with a small first letter. -/
def stem (text : String) : String :=
  lowerFirst (String.ofList (trimEndOf terminators (trimEnd text.toList)))

lemma terminate_eq (text : String) (mark : Char) :
    terminate text mark = stem text ++ String.ofList [mark] := rfl

lemma toList_terminate (text : String) (mark : Char) :
    (terminate text mark).toList = (stem text).toList ++ [mark] := by
  rw [terminate_eq, String.toList_append, String.toList_ofList]

lemma isBlank_of_mem_terminators (h : c ∈ terminators) : isBlank c = false := by
  have hall : ∀ c ∈ terminators, isBlank c = false := by decide +kernel
  exact hall c h

lemma not_mem_terminators_of_isSmall (h : IsSmall c) : c ∉ terminators := by
  have hall : ∀ c ∈ terminators, c.toNat < 97 := by decide
  exact fun hmem => absurd (hall c hmem) (Nat.not_lt.mpr h.beyondMarks)

/-- An item ends in white space, marks stand before that, and what is before all of them is its stem
but for the first letter. -/
theorem exists_stem_eq (text : String) : ∃ lead marks blanks : List Char,
    text.toList = lead ++ marks ++ blanks ∧
      (∀ c ∈ blanks, isBlank c = true) ∧
      (∀ c, (lead ++ marks).getLast? = some c → isBlank c = false) ∧
      (∀ c ∈ marks, c ∈ terminators) ∧
      (∀ c, lead.getLast? = some c → c ∉ terminators) ∧
      stem text = lowerFirst (String.ofList lead) := by
  obtain ⟨blanks, hcut, hblanks⟩ := dropEndWhile_append isBlank text.toList
  obtain ⟨marks, htrimmed, hmarks⟩ :=
    dropEndWhile_append (terminators.contains ·) (trimEnd text.toList)
  have hends : trimEndOf terminators (trimEnd text.toList) ++ marks = trimEnd text.toList :=
    htrimmed.symm
  refine ⟨trimEndOf terminators (trimEnd text.toList), marks, blanks, ?_, hblanks, ?_, ?_, ?_, rfl⟩
  · rw [hends]
    exact hcut
  · rw [hends]
    exact fun c => getLast_dropEndWhile
  · simpa using hmarks
  · intro c hc
    simpa using getLast_dropEndWhile hc

/-- Nothing that could be taken for its mark is left at the end of an item. -/
theorem getLast?_stem (h : (stem text).toList.getLast? = some c) : c ∉ terminators := by
  obtain ⟨lead, -, -, -, -, -, -, hlead, hstem⟩ := exists_stem_eq text
  rw [hstem] at h
  obtain hlast | hsmall := getLast?_lowerFirst h
  · rw [String.toList_ofList] at hlast
    exact hlead c hlast
  · exact not_mem_terminators_of_isSmall hsmall

/-- The marks of an item that has one are taken off again, and nothing else. -/
lemma stem_terminate (text : String) (hmark : mark ∈ terminators) :
    stem (terminate text mark) = stem text := by
  have htrim : trimEnd (terminate text mark).toList = (stem text).toList ++ [mark] := by
    rw [toList_terminate]
    refine dropEndWhile_eq_self fun c hc => ?_
    rw [List.getLast?_concat, Option.some.injEq] at hc
    exact hc ▸ isBlank_of_mem_terminators hmark
  have hmarks : trimEndOf terminators ((stem text).toList ++ [mark]) = (stem text).toList := by
    rw [trimEndOf, dropEndWhile_append_of_pos (by simpa using hmark)]
    exact dropEndWhile_eq_self fun c hc => by simpa using getLast?_stem hc
  rw [stem, htrim, hmarks, String.ofList_toList]
  exact lowerFirst_lowerFirst _

/-- The last mark counts. -/
theorem terminate_terminate (text : String) (hmark : mark ∈ terminators) (mark' : Char) :
    terminate (terminate text mark) mark' = terminate text mark' := by
  rw [terminate_eq, stem_terminate text hmark, terminate_eq]

/-! ## Words -/

lemma length_words_lowerFirst (s : String) (cs : List Char) :
    (words ((lowerFirst s).toList ++ cs)).length = (words (s.toList ++ cs)).length := by
  cases hs : s.toList with
  | nil => rw [lowerFirst_of_nil hs, hs]
  | cons c rest =>
      rw [toList_lowerFirst_cons hs, List.append_assoc]
      obtain hstays | ⟨hblank, hne, hsmall⟩ := lowerChar_cases c
      · rw [hstays]
        rfl
      · have hword : IsWord (lowerChar c) := ⟨hne, fun d hd => (hsmall d hd).notBlank⟩
        exact length_words_word_append hword (isWord_singleton.mpr hblank) (rest ++ cs)

/-- A mark at the end of a text without white space at its end, in the place of others or of none:
there are as many words as before, if there were any. -/
lemma length_words_concat {cs : List Char} (hcs : trimEnd cs = cs) (hmark : mark ∈ terminators) :
    (words (trimEndOf terminators cs ++ [mark])).length = max 1 (words cs).length := by
  have hword : IsWord [mark] := isWord_singleton.mpr (isBlank_of_mem_terminators hmark)
  obtain ⟨tail, htail, hmarks⟩ := dropEndWhile_append (terminators.contains ·) cs
  rw [← trimEndOf] at htail
  rcases List.eq_nil_or_concat' tail with rfl | ⟨more, last, rfl⟩
  · -- No mark is taken off: the new one goes to the last word.
    rw [List.append_nil] at htail
    rw [← htail]
    rcases List.eq_nil_or_concat' cs with rfl | ⟨init, last, rfl⟩
    · rw [List.nil_append, words_word hword]
      rfl
    · have hlast : isBlank last = false := by
        have hend : (trimEnd (init ++ [last])).getLast? = some last := by
          rw [hcs, List.getLast?_concat]
        exact getLast_dropEndWhile hend
      have hword' : IsWord ([last] ++ [mark]) := (isWord_singleton.mpr hlast).append hword.2
      have hpos := List.length_pos_of_ne_nil
        (words_append_word_ne_nil (isWord_singleton.mpr hlast) init)
      rw [List.append_assoc,
        length_words_append_word hword' (isWord_singleton.mpr hlast) init]
      omega
  · -- The marks that are taken off make a word, or the end of one.
    have hword' : IsWord (more ++ [last]) :=
      ⟨by simp, fun c hc => isBlank_of_mem_terminators (by simpa using hmarks c hc)⟩
    have hpos := List.length_pos_of_ne_nil
      (words_append_word_ne_nil hword' (trimEndOf terminators cs))
    rw [length_words_append_word hword hword', ← htail]
    rw [← htail] at hpos
    omega

/-- Giving an item its mark leaves as many words, if there are any. -/
theorem wordCount_terminate (text : String) (hmark : mark ∈ terminators) :
    wordCount (terminate text mark) = max 1 (wordCount text) := by
  have htrim : trimEnd (trimEnd text.toList) = trimEnd text.toList :=
    dropEndWhile_eq_self fun c hc => getLast_dropEndWhile hc
  rw [wordCount, toList_terminate, stem, length_words_lowerFirst, String.toList_ofList,
    length_words_concat htrim hmark, words_trimEnd, wordCount]

/-! ## Once and for all -/

lemma ending_mem (nested : Bool) (entries : List (Entry String)) :
    ending nested entries ∈ terminators := by
  rw [ending]
  split_ifs <;> decide

/-- The mark of an item is one of those that are taken off. -/
lemma endingAt_mem (hmark : mark ∈ terminators) (lastItem beforeList : Bool) :
    (if beforeList then ':' else if lastItem then '.' else mark) ∈ terminators := by
  split_ifs
  · decide
  · decide
  · exact hmark

lemma isNested_punctuateEntry (mark : Char) (lastItem beforeList : Bool) (e : Entry String) :
    isNested (punctuateEntry mark lastItem beforeList e) = isNested e := by
  cases e <;> rfl

/-- An item stays long, or not, when it is given its mark. -/
lemma isLong_punctuateEntry (hmark : mark ∈ terminators) (lastItem beforeList : Bool)
    (e : Entry String) : isLong (punctuateEntry mark lastItem beforeList e) = isLong e := by
  cases e with
  | item text =>
      have hcount := wordCount_terminate text (endingAt_mem hmark lastItem beforeList)
      rw [punctuateEntry, isLong, isLong, hcount, longItemWords]
      exact decide_eq_decide.mpr (by omega)
  | list style entries => rfl

/-- What each entry keeps, some entry has before exactly if some has it afterwards. -/
lemma any_punctuateEntries {P : Entry String → Bool}
    (h : ∀ lastItem beforeList e, P (punctuateEntry mark lastItem beforeList e) = P e)
    (lastItem : Bool) (es : List (Entry String)) :
    (punctuateEntries mark lastItem es).any P = es.any P := by
  induction es with
  | nil => rfl
  | cons e rest ih => rw [punctuateEntries, List.any_cons, List.any_cons, h, ih]

/-- The items of a list with its punctuation have the mark that they had without. -/
lemma ending_punctuateEntries (hmark : mark ∈ terminators) (nested lastItem : Bool)
    (es : List (Entry String)) :
    ending nested (punctuateEntries mark lastItem es) = ending nested es := by
  rw [ending, ending, any_punctuateEntries (isNested_punctuateEntry mark) lastItem es,
    any_punctuateEntries (isLong_punctuateEntry hmark) lastItem es]

lemma isEmpty_punctuateEntries (mark : Char) (lastItem : Bool) (es : List (Entry String)) :
    (punctuateEntries mark lastItem es).isEmpty = es.isEmpty := by
  cases es <;> rfl

lemma head?_any_isNested_punctuateEntries (mark : Char) (lastItem : Bool)
    (es : List (Entry String)) :
    (punctuateEntries mark lastItem es).head?.any isNested = es.head?.any isNested := by
  cases es with
  | nil => rfl
  | cons e rest =>
      rw [punctuateEntries, List.head?_cons, Option.any_some, isNested_punctuateEntry]
      rfl

mutual

lemma punctuateEntry_punctuateEntry (lastItem beforeList : Bool) :
    ∀ {mark : Char} (_ : mark ∈ terminators) (e : Entry String),
      punctuateEntry mark lastItem beforeList (punctuateEntry mark lastItem beforeList e)
        = punctuateEntry mark lastItem beforeList e
  | _, hmark, .item text =>
      congrArg Entry.item (terminate_terminate text (endingAt_mem hmark lastItem beforeList) _)
  | _, _, .list style entries => by
      rw [punctuateEntry, punctuateEntry, ending_punctuateEntries (ending_mem true entries),
        punctuateEntries_punctuateEntries lastItem (ending_mem true entries) entries]

lemma punctuateEntries_punctuateEntries (lastItem : Bool) :
    ∀ {mark : Char} (_ : mark ∈ terminators) (es : List (Entry String)),
      punctuateEntries mark lastItem (punctuateEntries mark lastItem es)
        = punctuateEntries mark lastItem es
  | _, _, [] => rfl
  | _, hmark, e :: rest => by
      rw [punctuateEntries, punctuateEntries, isEmpty_punctuateEntries,
        head?_any_isNested_punctuateEntries, punctuateEntry_punctuateEntry _ _ hmark e,
        punctuateEntries_punctuateEntries lastItem hmark rest]

end

/-- A list that is punctuated stays as it is. -/
lemma punctuate_punctuate (lastItem nested : Bool) (l : ItemList String) :
    punctuate lastItem nested (punctuate lastItem nested l) = punctuate lastItem nested l := by
  rw [punctuate, punctuate, ending_punctuateEntries (ending_mem nested l.entries),
    punctuateEntries_punctuateEntries lastItem (ending_mem nested l.entries)]

mutual

lemma punctuateNode_stays : ∀ n : Node String, punctuateNode (punctuateNode n) = punctuateNode n
  | .list l => by
      rw [punctuateNode, punctuateNode]
      cases halternate : l.style.alternate with
      | true => simp [halternate]
      | false =>
          have hstyle : (punctuate true false l).style.alternate = false := halternate
          simp [hstyle, punctuate_punctuate]
  | .table caption rows normal => by
      rw [punctuateNode, punctuateNode, punctuateRows_stay rows]
  | .text _ | .title _ | .pageBreak | .contents | .image _ | .code _ | .external _
  | .sectionBreak _ => rfl

lemma punctuateNodes_stay : ∀ ns : List (Node String),
    punctuateNodes (punctuateNodes ns) = punctuateNodes ns
  | [] => rfl
  | n :: ns => by
      rw [punctuateNodes, punctuateNodes, punctuateNode_stays n, punctuateNodes_stay ns]

lemma punctuateRows_stay : ∀ rs : List (List (Node String)),
    punctuateRows (punctuateRows rs) = punctuateRows rs
  | [] => rfl
  | r :: rs => by
      rw [punctuateRows, punctuateRows, punctuateNodes_stay r, punctuateRows_stay rs]

end

/-- Nodes stay as they are when the lists in them are punctuated once more. -/
theorem punctuateNodes_punctuateNodes (ns : List (Node String)) :
    punctuateNodes (punctuateNodes ns) = punctuateNodes ns :=
  punctuateNodes_stay ns

end ReportPress.Enrich
