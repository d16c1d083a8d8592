import ReportPress.Enrich.Heading
import ReportPress.Proofs.Text.Respelling

/-!
# What the front matter makes of a text

The headings of the front matter change texts in few ways: they put them in capitals, take periods
off their ends, and take the entries of a list one by one.  Each way is described here by itself,
and not by the functions that the pass over the headings and its reading part by part share.

* `Accounts` — entries side by side with what is made of them and what is found about the others.
* `IsTerm`, `IsNoTerm`, `IsAbbreviation`, `IsNoAbbreviation` — what an entry comes to.

**Titles.**  `emphasize_eq` — the title of a heading gets the text of that heading, up to white
space around it, and is the same heading as before (`recognize_upper`).

**Paragraphs.**  `exists_keywords_eq` — a paragraph with any number of periods at its end becomes
the keywords.

**Entries.**  `accounts_gather` — what can be made and what is found balance, one entry at a time.
`settles_glossaryRow` and `settles_abbreviationLine` say what comes of an entry.
-/

namespace ReportPress.Enrich

open Text

variable {α β : Type} {t : Title String} {heading : Heading} {text : String}

/-! ## Titles -/

lemma trimmed_upper (text : String) : trimmed (upper text) = upper (trimmed text) := by
  rw [trimmed, upper, upper, trimmed, String.toList_ofList, String.toList_ofList,
    keepsMarks_upperChar.trim_flatMap]

/-- The texts of the headings are in capitals. -/
lemma upper_eq_self_of_mem_texts (h : (text, heading) ∈ Heading.texts) : upper text = text := by
  have hletters : ∀ known ∈ Heading.texts, ∀ c ∈ known.1.toList,
      isBlank c = true ∨ 0x410 ≤ c.toNat ∧ c.toNat ≤ 0x42F := by decide
  have hstays : ∀ c ∈ text.toList, upperChar c = [c] := by
    intro c hc
    obtain hblank | ⟨hfirst, hlast⟩ := hletters _ h c hc
    · exact keepsMarks_upperChar.eq_of_isMark (isMark_of_isBlank hblank)
    · exact upperChar_of_cyrillic hfirst hlast
  rw [upper, List.flatMap_congr hstays, List.flatMap_singleton', String.ofList_toList]

/-- A title in capitals has the text of its heading, up to white space around it. -/
lemma trimmed_upper_mem_texts (h : Heading.recognize text = some heading) :
    (trimmed (upper text), heading) ∈ Heading.texts := by
  obtain ⟨before, after, htexts, -⟩ := List.lookup_eq_some_iff.mp h
  rw [trimmed_upper, htexts]
  exact List.mem_append_cons_self

/-- A title in capitals is recognized as before. -/
theorem recognize_upper (h : Heading.recognize text = some heading) :
    Heading.recognize (upper text) = some heading := by
  have hmem := trimmed_upper_mem_texts h
  rw [Heading.recognize, upper_eq_self_of_mem_texts hmem, trimmed_upper]
  exact h

/-- The title of a heading is centred, and its text is that of the heading. -/
theorem emphasize_eq (h : Heading.recognize t.text = some heading) :
    ∃ text, emphasize t = .title { text, level := t.level, center := true } ∧
      (trimmed text, heading) ∈ Heading.texts ∧ Heading.recognize text = some heading :=
  ⟨upper t.text, rfl, trimmed_upper_mem_texts h, recognize_upper h⟩

/-! ## Paragraphs -/

/-- The keywords are what stands before the periods at the end, in capitals and not indented. -/
theorem exists_keywords_eq (p : Paragraph String) : ∃ text periods,
    p.text = text ++ String.ofList (List.replicate periods '.') ∧
      text.toList.getLast? ≠ some '.' ∧
      keywords p = .text { p with text := upper text, noIndent := true } := by
  obtain ⟨periods, htext, hlast⟩ := exists_eq_append_trimEndOf '.' p.text
  refine ⟨_, periods, htext, ?_, rfl⟩
  rwa [String.toList_ofList]

/-! ## Entries -/

/-- Every entry in order: either something is made of it, or something is found about it. -/
inductive Accounts (Made : α → β → Prop) (Faulty : α → Diagnostic → Prop) :
    List α → List β → List Diagnostic → Prop
  | nil : Accounts Made Faulty [] [] []
  | made {e : α} {b : β} {entries : List α} {made : List β} {found : List Diagnostic} :
      Made e b → Accounts Made Faulty entries made found →
        Accounts Made Faulty (e :: entries) (b :: made) found
  | faulty {e : α} {d : Diagnostic} {entries : List α} {made : List β} {found : List Diagnostic} :
      Faulty e d → Accounts Made Faulty entries made found →
        Accounts Made Faulty (e :: entries) made (d :: found)

/-- What making something of an entry comes to. -/
def Settles (Made : α → β → Prop) (Faulty : α → Diagnostic → Prop) (e : α) :
    Except Diagnostic β → Prop
  | .ok b => Made e b
  | .error d => Faulty e d

section Accounts

variable {Made : α → β → Prop} {Faulty : α → Diagnostic → Prop}

/-- The counts balance. -/
lemma Accounts.length_add_length {entries : List α} {made : List β} {found : List Diagnostic}
    (h : Accounts Made Faulty entries made found) :
    made.length + found.length = entries.length := by
  induction h with
  | nil => rfl
  | made _ _ ih =>
      rw [List.length_cons, List.length_cons, ← ih]
      omega
  | faulty _ _ ih =>
      rw [List.length_cons, List.length_cons, ← ih]
      omega

lemma gather_cons_of_ok {make : α → Except Diagnostic β} {e : α} {b : β} (h : make e = .ok b)
    (entries : List α) :
    gather make (e :: entries) = (b :: (gather make entries).1, (gather make entries).2) := by
  simp [gather, h, Except.toOption]

lemma gather_cons_of_error {make : α → Except Diagnostic β} {e : α} {d : Diagnostic}
    (h : make e = .error d) (entries : List α) :
    gather make (e :: entries) = ((gather make entries).1, d :: (gather make entries).2) := by
  simp [gather, h, Except.toOption]

lemma accounts_gather {make : α → Except Diagnostic β}
    (h : ∀ e, Settles Made Faulty e (make e)) :
    ∀ entries, Accounts Made Faulty entries (gather make entries).1 (gather make entries).2
  | [] => .nil
  | e :: entries => by
      have he := h e
      cases hmake : make e with
      | ok b =>
          rw [hmake] at he
          rw [gather_cons_of_ok hmake]
          exact .made he (accounts_gather h entries)
      | error d =>
          rw [hmake] at he
          rw [gather_cons_of_error hmake]
          exact .faulty he (accounts_gather h entries)

end Accounts

/-- A term with its definition behind the first colon, and its row. -/
inductive IsTerm : Entry String → List (Node String) → Prop
  | intro (term definition : String) (h : ':' ∉ term.toList) :
      IsTerm (.item (term ++ ":" ++ definition))
        [.ofText (trimmed term), .ofText (trimmed definition)]

/-- What is found about an entry that is no term. -/
inductive IsNoTerm : Entry String → Diagnostic → Prop
  | item (text : String) (h : ':' ∉ text.toList) :
      IsNoTerm (.item text) (.glossaryShape (.noColon text))
  | list (style : ListStyle) (entries : List (Entry String)) :
      IsNoTerm (.list style entries) (.glossaryShape .nestedList)

/-- An abbreviation with any number of periods at its end, and its paragraph. -/
inductive IsAbbreviation : Entry String → Node String → Prop
  | intro (text : String) (periods : Nat) (h : text.toList.getLast? ≠ some '.') :
      IsAbbreviation (.item (text ++ String.ofList (List.replicate periods '.')))
        (.text { text, noIndent := true, noMargin := true })

/-- What is found about an entry that is no abbreviation. -/
inductive IsNoAbbreviation : Entry String → Diagnostic → Prop
  | list (style : ListStyle) (entries : List (Entry String)) :
      IsNoAbbreviation (.list style entries) (.abbreviationsShape .nestedList)

lemma splitColon?_append {term : String} (h : ':' ∉ term.toList) (definition : String) :
    splitColon? (term ++ ":" ++ definition) = some (trimmed term, trimmed definition) := by
  have hcut : (term ++ ":" ++ definition).toList = term.toList ++ ':' :: definition.toList := by
    simp
  have hterm : ∀ c ∈ term.toList, decide (c ≠ ':') = true := by
    intro c hc
    rw [decide_eq_true_eq]
    rintro rfl
    exact h hc
  rw [splitColon?, hcut, if_pos (by simp), List.takeWhile_append_of_pos hterm,
    List.dropWhile_append_of_pos hterm]
  simp [trimmed]

lemma settles_glossaryRow : ∀ e, Settles IsTerm IsNoTerm e (glossaryRow e)
  | .list style entries => .list style entries
  | .item text => by
      by_cases hcolon : ':' ∈ text.toList
      · obtain ⟨term, definition, hcut, hterm⟩ := List.eq_append_cons_of_mem hcolon
        have htext : text = String.ofList term ++ ":" ++ String.ofList definition := by
          rw [← String.toList_inj, hcut]
          simp
        have hfirst : ':' ∉ (String.ofList term).toList := by rwa [String.toList_ofList]
        rw [htext, glossaryRow, splitColon?_append hfirst]
        exact .intro _ _ hfirst
      · have hnone : splitColon? text = none := by
          rw [splitColon?, if_neg (by simpa using hcolon)]
        rw [glossaryRow, hnone]
        exact .item text hcolon

lemma settles_abbreviationLine :
    ∀ e, Settles IsAbbreviation IsNoAbbreviation e (abbreviationLine e)
  | .list style entries => .list style entries
  | .item text => by
      obtain ⟨periods, htext, hlast⟩ := exists_eq_append_trimEndOf '.' text
      rw [← String.toList_ofList (l := trimEndOf ['.'] text.toList)] at hlast
      have h := IsAbbreviation.intro _ periods hlast
      rwa [← htext] at h

end ReportPress.Enrich
