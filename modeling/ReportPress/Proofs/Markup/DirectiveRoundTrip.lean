import ReportPress.Proofs.Markup.Detection
import ReportPress.Proofs.Markup.Dictionary
import ReportPress.Proofs.Markup.DirectivePatterns
import ReportPress.Proofs.Markup.PlainLine
import ReportPress.Text.Alphanumeric

/-!
# Reading directives back

A directive for an external document that is written as its placeholder is, with the dictionary in
compact JSON, is read back as that document unless a string in the dictionary is taken for something
else.  Three things are looked for without regard to quotation marks: an image, a comma before a
closing bracket, and a closing parenthesis before an opening brace.

* `IsPathChar`, `directiveText`, `directiveReport` — paths, the source and the report.

**Compact JSON.**  Two things about the printer and the reader are all that matters of them: what is
written is one line (`oneLine_renderStrings`), and it is read back (`dictionary?_of_renderStrings`).

**Commas.**  `exists_dropTrailingCommas_render` — what is left of compact text is compact text
again, of members that may have lost commas.

**Reading.**  `exists_external?` — the document that the text stands for, with whatever is left of
its dictionary.  `parse_directiveText_iff` — **the source is read as the document exactly if the
JSON text has none of the three**.
-/

namespace ReportPress.Markup

open Text
open Json (escapeChar quote renderMembers stringMembers toList_renderStrings)

/-! ## Writing -/

/-- Letters and numbers of any script, points, low lines and slashes. -/
def IsPathChar (c : Char) : Prop := isAlphanumeric c = true ∨ c ∈ ['.', '_', '/']

instance : DecidablePred IsPathChar := fun c =>
  inferInstanceAs (Decidable (isAlphanumeric c = true ∨ c ∈ ['.', '_', '/']))

/-- The directive for a document. -/
def directiveText (d : ExternalDocument) : String :=
  "!!(" ++ d.path ++ ")" ++ Json.renderStrings d.values

/-- The report that is one external document. -/
def directiveReport (d : ExternalDocument) : Parsed where
  document := {
    sections := [{ pageStart := some 1, nodes := [.external d] }]
    settings := {} }
  diagnostics := []

variable {cs lead body : List Char} {d : ExternalDocument} {ms : List (String × String)}

/-! ## Compact JSON -/

/-- Compact JSON is one line. -/
theorem oneLine_renderStrings (ms : List (String × String)) :
    '\n' ∉ (Json.renderStrings ms).toList := by
  rw [toList_renderStrings]
  intro hmem
  exact absurd (Json.not_control_of_mem_render hmem) (by decide)

/-- Compact JSON is read back as the dictionary that it was written for. -/
theorem dictionary?_of_renderStrings (h : IsDictionary ms)
    (hbody : '\x7b' :: body ++ ['\x7d'] = (Json.renderStrings ms).toList) :
    dictionary? body = some ms := by
  rw [toList_renderStrings] at hbody
  rw [dictionary?_render hbody, readBack_of_isDictionary h]

/-! ## Commas -/

lemma dropTrailingCommas_append (h : ',' ∉ lead) (cs : List Char) :
    dropTrailingCommas (lead ++ cs) = lead ++ dropTrailingCommas cs := by
  induction lead with
  | nil => rfl
  | cons c lead ih =>
      have hc : c ≠ ',' := fun e => h (by simp [e])
      rw [List.cons_append, dropTrailingCommas, if_neg (by simp [hc]),
        ih fun e => h (List.mem_cons_of_mem c e), List.cons_append]

lemma dropTrailingCommas_cons {c : Char} (h : c ≠ ',') (cs : List Char) :
    dropTrailingCommas (c :: cs) = c :: dropTrailingCommas cs := by
  have hc : ',' ∉ [c] := by simpa using Ne.symm h
  exact dropTrailingCommas_append hc cs

/-- A comma inside quotation marks is written as it is, and no escape has one. -/
lemma not_comma_mem_escapeChar {c : Char} (h : c ≠ ',') : ',' ∉ escapeChar c := by
  have hdigit (n : Nat) : Json.hexDigit n ≠ ',' := by
    have hall : ∀ n : Fin 16, Nat.digitChar n.val ≠ ',' := by decide
    exact hall ⟨n % 16, Nat.mod_lt n (by omega)⟩
  unfold escapeChar
  split_ifs
  case neg => simpa using Ne.symm h
  all_goals simp [Ne.symm (hdigit _)]

/-- Commas are taken out of a string without regard to its quotation marks. -/
lemma exists_dropTrailingCommas_escaped (rest : List Char) : ∀ cs : List Char,
    ∃ cs' : List Char, cs'.Sublist cs ∧
      dropTrailingCommas (cs.flatMap escapeChar ++ '\x22' :: rest)
        = cs'.flatMap escapeChar ++ '\x22' :: dropTrailingCommas rest
  | [] => ⟨[], List.Sublist.refl [], dropTrailingCommas_cons (by decide) rest⟩
  | c :: cs => by
      obtain ⟨cs', hcs', hdrop⟩ := exists_dropTrailingCommas_escaped rest cs
      rw [List.flatMap_cons, List.append_assoc]
      by_cases hc : c = ','
      · have hcomma : escapeChar c = [','] := by rw [hc]; decide
        rw [hcomma, List.singleton_append, dropTrailingCommas, hdrop]
        split_ifs
        · exact ⟨cs', hcs'.trans (List.sublist_cons_self c cs), rfl⟩
        · exact ⟨c :: cs', hcs'.cons_cons c, by simp [hcomma]⟩
      · rw [dropTrailingCommas_append (not_comma_mem_escapeChar hc), hdrop]
        exact ⟨c :: cs', hcs'.cons_cons c, by simp⟩

lemma exists_dropTrailingCommas_quote (s : String) (rest : List Char) :
    ∃ s' : String, s'.toList.Sublist s.toList ∧
      dropTrailingCommas (quote s ++ rest) = quote s' ++ dropTrailingCommas rest := by
  obtain ⟨cs', hcs', hdrop⟩ := exists_dropTrailingCommas_escaped rest s.toList
  refine ⟨String.ofList cs', by rwa [String.toList_ofList], ?_⟩
  rw [quote, List.append_assoc, List.cons_append, dropTrailingCommas_cons (by decide),
    List.singleton_append, hdrop, quote, String.toList_ofList]
  simp

/-- A comma between two members stays, for a name follows. -/
lemma dropTrailingCommas_comma (m : String × String) (ms : List (String × String))
    (rest : List Char) :
    dropTrailingCommas (',' :: (renderMembers (stringMembers (m :: ms)) ++ rest))
      = ',' :: dropTrailingCommas (renderMembers (stringMembers (m :: ms)) ++ rest) := by
  obtain ⟨tail, htail⟩ := Json.exists_renderMembers_eq m ms
  have hnext : (((renderMembers (stringMembers (m :: ms)) ++ rest)).dropWhile isBlank).head?
      = some '\x22' := by
    rw [htail, List.cons_append, List.dropWhile_cons_of_neg (by decide)]
    rfl
  rw [dropTrailingCommas, hnext, if_neg (by decide)]

/-- What is left of members is members that may have lost commas. -/
lemma exists_dropTrailingCommas_renderMembers : ∀ ms : List (String × String),
    ∃ ms', List.Forall₂ IsShortened ms' ms ∧
      dropTrailingCommas (renderMembers (stringMembers ms) ++ ['\x7d'])
        = renderMembers (stringMembers ms') ++ ['\x7d']
  | [] => ⟨[], .nil, rfl⟩
  | [m] => by
      obtain ⟨value, hvalue, hdropValue⟩ := exists_dropTrailingCommas_quote m.2 ['\x7d']
      obtain ⟨name, hname, hdropName⟩ :=
        exists_dropTrailingCommas_quote m.1 (':' :: (quote m.2 ++ ['\x7d']))
      refine ⟨[(name, value)], .cons ⟨hname, hvalue⟩ .nil, ?_⟩
      rw [Json.renderMembers_singleton, List.append_assoc, List.cons_append, hdropName,
        dropTrailingCommas_cons (by decide), hdropValue, Json.renderMembers_singleton,
        List.append_assoc]
      rfl
  | m :: next :: ms => by
      obtain ⟨ms', hms', hdrop⟩ := exists_dropTrailingCommas_renderMembers (next :: ms)
      obtain ⟨value, hvalue, hdropValue⟩ := exists_dropTrailingCommas_quote m.2
        (',' :: (renderMembers (stringMembers (next :: ms)) ++ ['\x7d']))
      obtain ⟨name, hname, hdropName⟩ := exists_dropTrailingCommas_quote m.1
        (':' :: (quote m.2 ++ ',' :: (renderMembers (stringMembers (next :: ms)) ++ ['\x7d'])))
      cases hms' with
      | @cons next' _ rest' _ hnext hrest =>
          refine ⟨(name, value) :: next' :: rest', .cons ⟨hname, hvalue⟩ (.cons hnext hrest), ?_⟩
          rw [Json.renderMembers_cons]
          simp only [List.append_assoc, List.cons_append]
          rw [hdropName, dropTrailingCommas_cons (by decide), hdropValue, dropTrailingCommas_comma,
            hdrop, Json.renderMembers_cons]
          simp only [List.append_assoc, List.cons_append]

/-- What is left of compact text is the compact text of members that may have lost commas. -/
theorem exists_dropTrailingCommas_render (ms : List (String × String)) :
    ∃ ms', List.Forall₂ IsShortened ms' ms ∧
      dropTrailingCommas (Json.render (.object (stringMembers ms)))
        = Json.render (.object (stringMembers ms')) := by
  obtain ⟨ms', hms', hdrop⟩ := exists_dropTrailingCommas_renderMembers ms
  refine ⟨ms', hms', ?_⟩
  rw [Json.render, List.cons_append, dropTrailingCommas_cons (by decide), hdrop, Json.render,
    List.cons_append]

/-! ## The document that is read -/

/-- The dictionary of a document as compact JSON. -/
def dictionaryText (d : ExternalDocument) : List Char :=
  Json.render (.object (stringMembers d.values))

lemma toList_directiveText (d : ExternalDocument) : (directiveText d).toList
    = "!!(".toList ++ d.path.toList ++ [')'] ++ dictionaryText d := by
  have hvalues : (Json.renderStrings d.values).toList = dictionaryText d :=
    toList_renderStrings d.values
  have hclose : ")".toList = [')'] := rfl
  rw [directiveText, String.toList_append, String.toList_append, String.toList_append, hvalues,
    hclose]

/-- No character of a path has a meaning in a directive. -/
lemma not_mem_of_isPathChar {path : String} (h : ∀ c ∈ path.toList, IsPathChar c) {c : Char}
    (hc : ¬ IsPathChar c) : c ∉ path.toList := fun hmem => hc (h c hmem)

lemma splitAtBrace?_append {before after : List Char}
    (h : splitAtBrace? cs = some (before, after)) :
    ∀ lead : List Char, splitAtBrace? (lead ++ cs) = some (lead ++ before, after)
  | [] => h
  | c :: lead => by rw [List.cons_append, splitAtBrace?, splitAtBrace?_append h lead]; rfl

/-- The path and the dictionary of a directive whose dictionary is compact text: the path that is
written, or a longer one if it seems to end once more inside the dictionary. -/
lemma exists_directive? (path : List Char) (ms : List (String × String)) :
    (¬ HasPathEnd (Json.render (.object (stringMembers ms))) ∧
      directive? ("!!(".toList ++ path ++ [')'] ++ Json.render (.object (stringMembers ms)))
        = some (path, renderMembers (stringMembers ms))) ∨
    (HasPathEnd (Json.render (.object (stringMembers ms))) ∧ ∃ more after,
      directive? ("!!(".toList ++ path ++ [')'] ++ Json.render (.object (stringMembers ms)))
        = some (path ++ ')' :: more, after)) := by
  have hend : HasPathEnd (Json.render (.object (stringMembers ms))) ↔
      HasPathEnd ('\x7b' :: renderMembers (stringMembers ms)) := by
    rw [Json.render]
    exact precedes_concat_iff (by decide)
  have hrest : directive? ("!!(".toList ++ path ++ [')'] ++
      Json.render (.object (stringMembers ms)))
        = splitAtBrace? (path ++ (')' :: '\x7b' :: renderMembers (stringMembers ms))) := by
    have htext : "!!(".toList ++ path ++ [')'] ++ Json.render (.object (stringMembers ms))
        = "!!(".toList ++
          (path ++ (')' :: '\x7b' :: renderMembers (stringMembers ms)) ++ ['\x7d']) := by
      simp [Json.render]
    rw [htext, directive?, dropLead?_append, Option.bind_eq_bind, Option.bind_some,
      if_pos List.getLast?_concat, List.dropLast_concat]
  rw [hend, hrest]
  cases hcut : splitAtBrace? ('\x7b' :: renderMembers (stringMembers ms)) with
  | none =>
      have hread : splitAtBrace? (')' :: '\x7b' :: renderMembers (stringMembers ms))
          = some ([], renderMembers (stringMembers ms)) := by
        rw [splitAtBrace?, hcut, List.dropWhile_cons_of_neg (by decide)]
        rfl
      left
      refine ⟨(splitAtBrace?_eq_none_iff _).mp hcut, ?_⟩
      rw [splitAtBrace?_append hread, List.append_nil]
  | some parts =>
      have hread : splitAtBrace? (')' :: '\x7b' :: renderMembers (stringMembers ms))
          = some (')' :: parts.1, parts.2) := by
        rw [splitAtBrace?, hcut]
      right
      refine ⟨?_, parts.1, parts.2, splitAtBrace?_append hread path⟩
      by_contra hnot
      simp [(splitAtBrace?_eq_none_iff _).mpr hnot] at hcut

section directiveText

variable (hpath : ∀ c ∈ d.path.toList, IsPathChar c)

include hpath

/-- What is recognized in the text of a directive: what is left of its dictionary, and the path as
it is written unless that seems to end inside the dictionary. -/
theorem exists_external? :
    ∃ ms, List.Forall₂ IsShortened ms d.values ∧
      dropTrailingCommas (dictionaryText d) = Json.render (.object (stringMembers ms)) ∧
      ((¬ HasPathEnd (Json.render (.object (stringMembers ms))) ∧
          external? (directiveText d) = some (⟨d.path, readBack ms⟩, [])) ∨
        (HasPathEnd (Json.render (.object (stringMembers ms))) ∧
          ∃ read found, external? (directiveText d) = some (read, found) ∧
            read.path ≠ d.path)) := by
  obtain ⟨ms, hms, hdrop⟩ := exists_dropTrailingCommas_render d.values
  refine ⟨ms, hms, hdrop, ?_⟩
  have hcomma : ',' ∉ "!!(".toList ++ d.path.toList ++ [')'] := by
    have hnot : ',' ∉ d.path.toList := not_mem_of_isPathChar hpath (by decide)
    simp [hnot]
  have hcleaned : dropTrailingCommas (directiveText d).toList
      = "!!(".toList ++ d.path.toList ++ [')'] ++ Json.render (.object (stringMembers ms)) := by
    rw [toList_directiveText, dropTrailingCommas_append hcomma, dictionaryText, hdrop]
  rw [external?, hcleaned]
  rcases exists_directive? d.path.toList ms with ⟨hend, hread⟩ | ⟨hend, more, after, hread⟩
  · left
    have hvalues : dictionary? (renderMembers (stringMembers ms)) = some (readBack ms) :=
      dictionary?_render (by rw [Json.render])
    refine ⟨hend, ?_⟩
    simp only [hread, Option.map_some, hvalues, String.ofList_toList]
  · right
    have hlonger : String.ofList (d.path.toList ++ ')' :: more) ≠ d.path := by
      intro e
      have hlength := congrArg (fun path => path.toList.length) e
      simp only [String.toList_ofList, List.length_append, List.length_cons] at hlength
      omega
    refine ⟨hend, ?_⟩
    simp only [hread, Option.map_some]
    cases hvalues : dictionary? after with
    | some values => exact ⟨_, _, rfl, hlonger⟩
    | none => exact ⟨_, _, rfl, hlonger⟩

/-! ## The line that is read -/

/-- A directive is one line. -/
lemma oneLine_directiveText : '\n' ∉ (directiveText d).toList := by
  have hnot : '\n' ∉ d.path.toList := not_mem_of_isPathChar hpath (by decide)
  have hjson : '\n' ∉ dictionaryText d := by
    rw [dictionaryText, ← toList_renderStrings]
    exact oneLine_renderStrings d.values
  rw [toList_directiveText]
  simp [hnot, hjson]

/-- A line is read as an image exactly if the dictionary has the parts of one. -/
lemma imageParts?_directiveText_eq_none_iff :
    imageParts? (directiveText d).toList = none ↔ ¬ HasImage (dictionaryText d) := by
  have hlead : '[' ∉ "!!(".toList ++ d.path.toList ++ [')'] := by
    have hnot : '[' ∉ d.path.toList := not_mem_of_isPathChar hpath (by decide)
    simp [hnot]
  have hjson : (dictionaryText d).head? ≠ some '[' := by
    rw [dictionaryText, Json.render]
    simp
  rw [imageParts?_eq (oneLine_directiveText hpath), toList_directiveText,
    directiveParts?_append hlead hjson, directiveParts?_eq_none_iff]

end directiveText

/-- The first word of a directive begins with its first three characters. -/
lemma exists_firstWord_directiveText (d : ExternalDocument) :
    ∃ more, firstWord (directiveText d) = "!!(".toList ++ more := by
  have htext : (directiveText d).toList
      = "!!(".toList ++ (d.path.toList ++ [')'] ++ dictionaryText d) := by
    rw [toList_directiveText]
    simp
  exact exists_firstWord_eq (by decide) htext

lemma trimmed_directiveText (d : ExternalDocument) :
    trimmed (directiveText d) = directiveText d := by
  have hjson : dictionaryText d = '\x7b' :: renderMembers (stringMembers d.values) ++ ['\x7d'] := by
    rw [dictionaryText, Json.render]
  have htrim : trim (directiveText d).toList = (directiveText d).toList := by
    refine trim_eq_self (fun c hc => ?_) fun c hc => ?_
    · rw [toList_directiveText] at hc
      obtain rfl : '!' = c := by simpa using hc
      decide
    · rw [toList_directiveText, hjson, ← List.append_assoc, List.getLast?_concat,
        Option.some.injEq] at hc
      rw [← hc]
      decide
  rw [trimmed, htrim, String.ofList_toList]

/-- A paragraph that is recognized as a directive is nothing else. -/
lemma detect_of_external? {text : String} {read : ExternalDocument} {found : List Diagnostic}
    (h : external? text = some (read, found)) :
    detect [.ofText text] = ([.external read], found) := by
  have hne : text.isEmpty = false := by
    rw [← Bool.not_eq_true, String.isEmpty_iff]
    rintro rfl
    have hempty : external? "" = none := rfl
    simp [hempty] at h
  simp [detect, dropEmptyTexts, Node.ofText, hne, externals, externalNode, h, tables, pushNode]

section report

variable (hpath : ∀ c ∈ d.path.toList, IsPathChar c)

include hpath

/-- A directive without the parts of an image is a line of plain text. -/
lemma isPlainLine_directiveText (himage : ¬ HasImage (dictionaryText d)) :
    IsPlainLine (directiveText d) := by
  obtain ⟨more, hword⟩ := exists_firstWord_directiveText d
  have hnone : imageMarker? (directiveText d).toList = none := by
    rw [imageMarker?, (imageParts?_directiveText_eq_none_iff hpath).mpr himage]
    rfl
  have hhead : (firstWord (directiveText d)).head? = some '!' := by rw [hword]; rfl
  have hmark : '(' ∈ firstWord (directiveText d) := by simp [hword]
  have hfence : startsWith "```".toList (firstWord (directiveText d)) = false :=
    startsWith_of_head (c := '\x60') (by simp [hhead])
  have hcomment : startsWith "<!--".toList (firstWord (directiveText d)) = false :=
    startsWith_of_head (c := '<') (by simp [hhead])
  have hclassify := classify_of_noImage (by simp [hword]) fun _ => hnone
  refine ⟨?_, ?_, oneLine_directiveText hpath⟩
  · rw [hclassify, hfence, hcomment, if_neg Bool.false_ne_true, if_neg Bool.false_ne_true,
      wordMarker?_eq_none hmark (by decide) hhead (by decide) (by decide)]
    exact congrArg (fun text => Except.ok (⟨.plain, text, 0⟩ : Line)) (trimmed_directiveText d)
  · intro hempty
    simp [hempty, firstWord, unindent, words] at hhead

/-- A directive with the parts of an image is read as an image. -/
lemma exists_parse_image (himage : HasImage (dictionaryText d)) :
    ∃ image, parse (directiveText d) = .ok {
      document := {
        sections := [{ pageStart := some 1, nodes := [.image image] }]
        settings := {} }
      diagnostics := [] } := by
  obtain ⟨more, hword⟩ := exists_firstWord_directiveText d
  have hhead : (firstWord (directiveText d)).head? = some '!' := by rw [hword]; rfl
  have hsource : sourceLines (directiveText d) = [directiveText d] := by
    have hlines :=
      sourceLines_of_trimmed (List.cons_ne_nil (directiveText d) []) fun line hline => by
        rw [List.mem_singleton.mp hline]
        exact ⟨trimmed_directiveText d, oneLine_directiveText hpath⟩
    rwa [joined_singleton] at hlines
  cases hparts : imageParts? (directiveText d).toList with
  | none => exact absurd himage ((imageParts?_directiveText_eq_none_iff hpath).mp hparts)
  | some parts =>
      obtain ⟨image, himage⟩ : ∃ image : Image String, imageMarker? (directiveText d).toList
          = some (.image image.alt image.source image.width image.height) := by
        rw [imageMarker?, hparts]
        exact ⟨⟨_, _, _, _⟩, rfl⟩
      have hstep : Reader.step {} (directiveText d) = .ok { newest := [.image image] } := by
        simp only [Reader.step, classify_of_imageMarker? hhead himage, bind, Except.bind, pure,
          Except.pure, Reader.take, Reader.push]
      have hrun : Reads {} (sourceLines (directiveText d)) { newest := [.image image] } := by
        rw [hsource]
        exact Reads.cons hstep (Reads.nil _)
      exact ⟨image, parse_of_reads hrun⟩

/-- **A directive is read as the document it is written for exactly if the JSON text of the
dictionary has no parts of an image, no comma before a closing bracket and no closing parenthesis
before an opening brace.** -/
theorem parse_directiveText_iff (hvalues : IsDictionary d.values) :
    parse (directiveText d) = .ok (directiveReport d) ↔
      ¬ HasImage (dictionaryText d) ∧ ¬ HasTrailingComma (dictionaryText d) ∧
        ¬ HasPathEnd (dictionaryText d) := by
  by_cases himage : HasImage (dictionaryText d)
  · obtain ⟨image, hparse⟩ := exists_parse_image hpath himage
    rw [hparse]
    simp [directiveReport, himage]
  · have hparse := parse_joined (List.cons_ne_nil (directiveText d) []) fun line hline => by
      rw [List.mem_singleton.mp hline]
      exact isPlainLine_directiveText hpath himage
    obtain ⟨ms, hms, hdrop, hread⟩ := exists_external? hpath
    rw [joined_singleton] at hparse
    rcases hread with ⟨hend, hread⟩ | ⟨hend, read, found, hread, hne⟩
    · rw [hparse, detect_of_external? hread, directiveReport]
      constructor
      · intro h
        have hback : readBack ms = d.values := by
          have hdocument : (⟨d.path, readBack ms⟩ : ExternalDocument) = d := by simpa using h
          exact congrArg ExternalDocument.values hdocument
        obtain rfl := eq_of_readBack_eq hms hback
        exact ⟨himage, (dropTrailingCommas_eq_self_iff _).mp hdrop, hend⟩
      · rintro ⟨-, hcomma, -⟩
        rw [(dropTrailingCommas_eq_self_iff _).mpr hcomma] at hdrop
        have hwritten : dictionary? (renderMembers (stringMembers d.values)) = some d.values :=
          dictionary?_of_renderStrings hvalues (by rw [toList_renderStrings, Json.render])
        have hleft : dictionary? (renderMembers (stringMembers d.values)) = some (readBack ms) :=
          dictionary?_render (by rw [← hdrop, dictionaryText, Json.render])
        rw [hwritten, Option.some.injEq] at hleft
        rw [← hleft]
    · rw [hparse, detect_of_external? hread, directiveReport]
      constructor
      · intro h
        have hdocument : read = d := by
          simp only [Except.ok.injEq, Parsed.mk.injEq, Document.mk.injEq, List.cons.injEq,
            Section.mk.injEq, Node.external.injEq] at h
          exact h.1.1.1.2.1
        exact absurd (congrArg ExternalDocument.path hdocument) hne
      · rintro ⟨-, hcomma, hnoEnd⟩
        rw [(dropTrailingCommas_eq_self_iff _).mpr hcomma] at hdrop
        exact absurd (hdrop ▸ hend) hnoEnd

end report

/-- A directive with a comma, brackets and parentheses in its dictionary, a quotation mark and a
line feed. -/
theorem parse_directiveText_punctuated :
    parse "!!(parts/title_1.docx)\x7b\"a, b\":\"[x] (\x7by\x7d)\",\"c\":\"\\\"d\\\"\\n\"\x7d"
      = .ok (directiveReport ⟨"parts/title_1.docx",
          [("a, b", "[x] (\x7by\x7d)"), ("c", "\"d\"\n")]⟩) := by
  have htext : directiveText ⟨"parts/title_1.docx",
      [("a, b", "[x] (\x7by\x7d)"), ("c", "\"d\"\n")]⟩
        = "!!(parts/title_1.docx)\x7b\"a, b\":\"[x] (\x7by\x7d)\",\"c\":\"\\\"d\\\"\\n\"\x7d" := by
    decide +kernel
  rw [← htext]
  exact (parse_directiveText_iff (by decide) (by decide)).mpr (by decide +kernel)

/-- A comma before a brace is lost inside a string, too. -/
theorem parse_directiveText_lostComma :
    (∀ c ∈ "x.docx".toList, IsPathChar c) ∧ IsDictionary [("k", ",\x7d")] ∧
      directiveText ⟨"x.docx", [("k", ",\x7d")]⟩ = "!!(x.docx)\x7b\"k\":\",\x7d\"\x7d" ∧
      parse (directiveText ⟨"x.docx", [("k", ",\x7d")]⟩)
        = .ok (directiveReport ⟨"x.docx", [("k", "\x7d")]⟩) ∧
      parse (directiveText ⟨"x.docx", [("k", ",\x7d")]⟩)
        ≠ .ok (directiveReport ⟨"x.docx", [("k", ",\x7d")]⟩) := by
  have hpath : ∀ c ∈ "x.docx".toList, IsPathChar c := by decide
  have hvalues : IsDictionary [("k", ",\x7d")] := by decide
  have htext : directiveText ⟨"x.docx", [("k", ",\x7d")]⟩
      = "!!(x.docx)\x7b\"k\":\",\x7d\"\x7d" := by decide +kernel
  have hread : external? (directiveText ⟨"x.docx", [("k", ",\x7d")]⟩)
      = some (⟨"x.docx", [("k", "\x7d")]⟩, []) := by
    rw [htext]
    decide +kernel
  have hparse := parse_joined
    (List.cons_ne_nil (directiveText ⟨"x.docx", [("k", ",\x7d")]⟩) []) fun line hline => by
      rw [List.mem_singleton.mp hline]
      exact isPlainLine_directiveText hpath (by decide +kernel)
  rw [joined_singleton, detect_of_external? hread] at hparse
  refine ⟨hpath, hvalues, htext, hparse, ?_⟩
  rw [hparse]
  simp [directiveReport]

end ReportPress.Markup
