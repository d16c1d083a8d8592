import ReportPress.Proofs.Markup.DirectivePatterns
import ReportPress.Proofs.Markup.PlainLine
import ReportPress.Proofs.Text.Scan

/-!
# Reading images back

An image is written as one line: its alternative text in brackets, its source in parentheses and its
size in braces.  The texts may have brackets, parentheses and braces of their own, and may even look
like an image.  Still the line is read as the image it is written for.

* `altText`, `sideText`, `imageLine` — what is written.  An alternative text has its line feeds as
  escapes.
* `IsSizeText` — what may be written for a width and a height.

**The texts.**  `replaceAll_altText` reads an alternative text, and `sizeParts_sides` a size.

**Cutting.**  The first bracket stands at the start of the line, and behind the last parenthesis
there is only the size.  Between them the texts are cut apart for the last time unless the source
does so itself (`directiveParts?_imageText`).

**Reading.**  `classify_imageLine` — **the line is read as an image with this alternative text,
source, width and height.**
-/

namespace ReportPress.Markup

open Text

/-! ## Writing -/

/-- An alternative text as it is written: a line feed is a backslash and a letter. -/
def altText (alt : List Char) : List Char :=
  alt.flatMap fun c => if c = '\n' then "\\n".toList else [c]

/-- A width or a height as it is written: in decimal digits, or not at all. -/
def sideText : Option UInt32 → List Char
  | none => []
  | some n => (toString n.toNat).toList

/-- What may be written for a size.  Braces without a number may be left out. -/
inductive IsSizeText : (width height : Option UInt32) → List Char → Prop
  | absent : IsSizeText none none []
  | braces (width height : Option UInt32) :
      IsSizeText width height ('\x7b' :: (sideText width ++ 'x' :: sideText height ++ ['\x7d']))

/-- The text of an image, behind its first two characters. -/
def imageText (alt source size : List Char) : List Char :=
  altText alt ++ ("](".toList ++ source) ++ ([')'] ++ size)

/-- The line of an image. -/
def imageLine (alt source : String) (size : List Char) : String :=
  "![" ++ String.ofList (imageText alt.toList source.toList size)

variable {alt source : String} {width height side : Option UInt32}
variable {altChars sourceChars size : List Char} {c : Char}

/-! ## The texts -/

/-- The escapes of line feeds are the only ones in a text without backslashes. -/
lemma replaceAll_altText : ∀ {cs : List Char}, '\\' ∉ cs →
    replaceAll "\\n".toList ['\n'] (altText cs) = cs
  | [], _ => rfl
  | c :: cs, h => by
      rw [List.mem_cons, not_or] at h
      obtain ⟨hne, hcs⟩ := h
      have hrest : replaceAll "\\n".toList ['\n'] (altText cs) = cs := replaceAll_altText hcs
      rw [altText, List.flatMap_cons, ← altText]
      split_ifs with hfeed
      · rw [replaceAll_pattern_append (by decide), hrest, hfeed, List.singleton_append]
      · have hc : '\\' ∉ [c] := by simpa using hne
        have hkept := @replaceAll_append '\\' ['n'] ['\n'] [c] hc (altText cs)
        exact hkept.trans (congrArg (c :: ·) hrest)

lemma not_mem_altText (cs : List Char) : '\n' ∉ altText cs := by
  rw [altText, List.mem_flatMap]
  rintro ⟨c, -, hc⟩
  split_ifs at hc with hfeed
  · exact absurd hc (by decide)
  · exact hfeed (List.mem_singleton.mp hc).symm

lemma isDigit_of_mem_sideText (h : c ∈ sideText side) : c.isDigit = true := by
  cases side with
  | none => simp [sideText] at h
  | some n =>
      rw [sideText, Nat.toString_eq_ofList_toDigits, String.toList_ofList] at h
      exact Nat.isDigit_of_mem_toDigits (by omega) (by omega) h

lemma not_mem_sideText (side : Option UInt32) (hc : c.isDigit = false) : c ∉ sideText side := by
  intro h
  rw [isDigit_of_mem_sideText h] at hc
  exact absurd hc (by decide)

/-- A width or a height is read back. -/
lemma leadingNumber_sideText (side : Option UInt32) : leadingNumber (sideText side) = side := by
  have htrim : trim (sideText side) = sideText side :=
    trim_eq_self
      (fun c hc => isBlank_of_isDigit (isDigit_of_mem_sideText (List.mem_of_mem_head? hc)))
      (fun c hc => isBlank_of_isDigit (isDigit_of_mem_sideText (List.mem_of_getLast? hc)))
  have hdigits : (sideText side).takeWhile Char.isDigit = sideText side :=
    List.takeWhile_eq_self_iff.mpr fun c hc => isDigit_of_mem_sideText hc
  rw [leadingNumber, htrim, hdigits]
  cases side with
  | none => rfl
  | some n =>
      rw [sideText, Nat.toString_eq_ofList_toDigits, String.toList_ofList, number?_toDigits]

/-- A size is read back. -/
lemma sizeParts_sides (width height : Option UInt32) :
    sizeParts (sideText width ++ 'x' :: sideText height) = (width, height) := by
  have hcut : splitOn 'x' (sideText width ++ 'x' :: sideText height)
      = [sideText width, sideText height] := by
    rw [splitOn_append_cons, splitOn_of_not_mem (not_mem_sideText width (by decide)),
      splitOn_of_not_mem (not_mem_sideText height (by decide))]
    rfl
  rw [sizeParts, hcut]
  simp only [leadingNumber_sideText]

/-! ## Cutting -/

/-- A size has no line feed and no parenthesis. -/
lemma IsSizeText.not_mem (h : IsSizeText width height size) (hdigit : c.isDigit = false)
    (hmark : c ∉ ['\x7b', 'x', '\x7d']) : c ∉ size := by
  cases h with
  | absent => exact List.not_mem_nil
  | braces =>
      simp only [List.mem_cons, List.not_mem_nil, or_false, not_or] at hmark
      simp [hmark, not_mem_sideText _ hdigit]

/-- The source goes on from no alternative text to a source, and what stands before it makes no
difference. -/
lemma splitLast?_texts (h : ¬ "](".toList <:+: sourceChars) :
    splitLast? "](".toList (altText altChars ++ ("](".toList ++ sourceChars))
      = some (altText altChars, sourceChars) := by
  have hlast : ¬ ']' :: ['('] <:+: ['('] ++ sourceChars := by
    rw [List.singleton_append, List.infix_cons_iff]
    rintro (hbegin | hinfix)
    · exact absurd (List.cons_prefix_cons.mp hbegin).1 (by decide)
    · exact h hinfix
  exact splitLast?_append hlast (altText altChars)

/-- The parts of an image are the texts that are written, and what stands between the braces. -/
theorem directiveParts?_imageText (altChars : List Char)
    (hsource : ¬ "](".toList <:+: sourceChars) (hsize : IsSizeText width height size) :
    ∃ braced, directiveParts? ("![".toList ++ imageText altChars sourceChars size)
        = some (altText altChars, sourceChars, braced) ∧
      (braced.map sizeParts).getD (none, none) = (width, height) := by
  have hopen : afterFirst? "![".toList ("![".toList ++ imageText altChars sourceChars size)
      = some (imageText altChars sourceChars size) := afterFirst?_pattern_append (by decide) _
  have hclose : splitLast? [')'] (imageText altChars sourceChars size)
      = some (altText altChars ++ ("](".toList ++ sourceChars), size) := by
    refine splitLast?_append ?_ _
    rw [List.nil_append, List.singleton_infix_iff]
    exact hsize.not_mem (by decide) (by decide)
  rw [directiveParts?, hopen, Option.bind_eq_bind, Option.bind_some, hclose, Option.bind_eq_bind,
    Option.bind_some]
  simp only [splitLast?_texts hsource, Option.bind_some]
  cases hsize with
  | absent => exact ⟨none, rfl, rfl⟩
  | braces =>
      have hbraced : splitLast? ['\x7d'] (sideText width ++ 'x' :: sideText height ++ ['\x7d'])
          = some (sideText width ++ 'x' :: sideText height, []) :=
        splitLast?_append (by decide) _
      refine ⟨some (sideText width ++ 'x' :: sideText height), ?_, ?_⟩
      · simp only [hbraced]
        rfl
      · exact sizeParts_sides width height

/-! ## Reading -/

lemma toList_imageLine (alt source : String) (size : List Char) :
    (imageLine alt source size).toList
      = "![".toList ++ imageText alt.toList source.toList size := by
  rw [imageLine, String.toList_append]
  exact congrArg ("![".toList ++ ·) String.toList_ofList

/-- An image is one line. -/
lemma oneLine_imageLine (hsource : '\n' ∉ source.toList) (hsize : IsSizeText width height size) :
    '\n' ∉ (imageLine alt source size).toList := by
  have hnot : '\n' ∉ size := hsize.not_mem (by decide) (by decide)
  rw [toList_imageLine, imageText]
  simp [not_mem_altText, hsource, hnot]

/-- Nothing is trimmed off an image. -/
lemma trimmed_imageLine (hsize : IsSizeText width height size) :
    trimmed (imageLine alt source size) = imageLine alt source size := by
  have hlast : ∃ front c, (imageLine alt source size).toList = front ++ [c] ∧
      isBlank c = false := by
    rw [toList_imageLine, imageText]
    cases hsize with
    | absent => exact ⟨_, ')', (List.append_assoc _ _ _).symm, by decide⟩
    | braces =>
        refine ⟨"![".toList ++ (altText alt.toList ++ ("](".toList ++ source.toList) ++
          (')' :: '\x7b' :: (sideText width ++ 'x' :: sideText height))), '\x7d', ?_, by decide⟩
        simp
  obtain ⟨front, c, hline, hc⟩ := hlast
  have htrim : trim (imageLine alt source size).toList = (imageLine alt source size).toList := by
    refine trim_eq_self (fun d hd => ?_) fun d hd => ?_
    · rw [toList_imageLine] at hd
      obtain rfl : '!' = d := by simpa using hd
      decide
    · rw [hline, List.getLast?_concat, Option.some.injEq] at hd
      rwa [← hd]
  rw [trimmed, htrim, String.ofList_toList]

/-- **The line of an image is read as that image**, unless its alternative text has a backslash or
its source a line feed or the characters between the two texts. -/
theorem classify_imageLine (halt : '\\' ∉ alt.toList) (hfeed : '\n' ∉ source.toList)
    (hsource : ¬ "](".toList <:+: source.toList) (hsize : IsSizeText width height size) :
    classify (imageLine alt source size)
      = .ok ⟨.image alt source width height, imageLine alt source size, 0⟩ := by
  obtain ⟨braced, hparts, hbraced⟩ := directiveParts?_imageText alt.toList hsource hsize
  rw [← toList_imageLine, ← imageParts?_eq (oneLine_imageLine hfeed hsize)] at hparts
  have himage : imageMarker? (imageLine alt source size).toList
      = some (.image alt source width height) := by
    rw [imageMarker?, hparts]
    simp only [Option.map_some, hbraced, replaceAll_altText halt, String.ofList_toList]
  obtain ⟨more, hword⟩ := exists_firstWord_eq (by decide) (toList_imageLine alt source size)
  have hhead : (firstWord (imageLine alt source size)).head? = some '!' := by
    rw [hword]
    rfl
  rw [classify_of_imageMarker? hhead himage, trimmed_imageLine hsize]

/-- An image whose alternative text holds another image, and a line feed, and whose source has
parentheses and braces. -/
theorem classify_imageLine_bracketed :
    '\\' ∉ "a ![b](c)\n[d]".toList ∧ '\n' ∉ "e f(g)\x7b1x2\x7d (h) ".toList ∧
      ¬ "](".toList <:+: "e f(g)\x7b1x2\x7d (h) ".toList ∧
      classify "![a ![b](c)\\n[d]](e f(g)\x7b1x2\x7d (h) )\x7bx150\x7d"
        = .ok ⟨.image "a ![b](c)\n[d]" "e f(g)\x7b1x2\x7d (h) " none (some 150),
            "![a ![b](c)\\n[d]](e f(g)\x7b1x2\x7d (h) )\x7bx150\x7d", 0⟩ := by
  have halt : '\\' ∉ "a ![b](c)\n[d]".toList := by decide
  have hfeed : '\n' ∉ "e f(g)\x7b1x2\x7d (h) ".toList := by decide
  have hsource : ¬ "](".toList <:+: "e f(g)\x7b1x2\x7d (h) ".toList := by decide
  have hread := classify_imageLine halt hfeed hsource (IsSizeText.braces none (some 150))
  have hline : imageLine "a ![b](c)\n[d]" "e f(g)\x7b1x2\x7d (h) "
      ('\x7b' :: (sideText none ++ 'x' :: sideText (some 150) ++ ['\x7d']))
        = "![a ![b](c)\\n[d]](e f(g)\x7b1x2\x7d (h) )\x7bx150\x7d" := by decide +kernel
  rw [hline] at hread
  exact ⟨halt, hfeed, hsource, hread⟩

end ReportPress.Markup
