import ReportPress.Markup.Reader
import ReportPress.Proofs.Text.LetterCase

/-!
# Rules

What a report says about itself as a whole: colours of code and text, its title and its author.
Each rule is a text that begins with a keyword, in whatever case.

* `Rule.ofText` — the rule that a text stands for, by the whole words that it begins with.
* `Rule.read` — the rule that it is taken for, by the letters that it begins with.
* `Rule.ofLowered?` — the same, with the letters looked for in a copy of the text in small letters,
  and what follows them cut off the text itself.
* `Rule.apply`, `Rule.finding?` — what a rule does.

**Keywords.**  `afterKeyword?_of_head` — a keyword that is the first word is followed by what is
behind that word; `afterKeyword?_eq_none_iff` — but all that is asked of the first word is that it
begins with the keyword.

**Reading.**  `Rule.read_eq_ofText_iff` — a text is taken for the rule that it stands for unless its
first word goes on behind `title` or `author` (`RunsOn`).  `Rule.ofLowered?_eq` — small letters of
other scripts make no difference.
-/

namespace ReportPress.Markup

open Text

/-- The first word of a text, in small letters. -/
def headWord (text : String) : List Char := (text.toList.takeWhile (· ≠ ' ')).map Char.toLower

/-- What follows the first space of a text. -/
def behindHead (text : String) : String :=
  String.ofList ((text.toList.dropWhile (· ≠ ' ')).drop 1)

/-- What a line can say about the whole report. -/
inductive Rule where
  | highlightCode
  | rainbow
  | title (text : String)
  | author (text : String)
  | unknown (text : String)
deriving DecidableEq, Repr

namespace Rule

/-- What a rule does to the settings. -/
def apply (settings : Settings) : Rule → Settings
  | .highlightCode => { settings with highlightCode := true }
  | .rainbow => { settings with rainbow := true }
  | .title text => { settings with title := some text }
  | .author text => { settings with author := some text }
  | .unknown _ => settings

/-- What is found wrong with a rule. -/
def finding? : Rule → Option Diagnostic
  | .unknown text => some (.unknownRule text)
  | _ => none

/-- The rule that a text stands for.  A title or an author is what follows the first word. -/
def ofText (text : String) : Rule :=
  if lowerAscii text = "highlight code" then .highlightCode
  else if lowerAscii text = "rainbow" then .rainbow
  else if headWord text = "title".toList then .title (behindHead text)
  else if headWord text = "author".toList then .author (behindHead text)
  else .unknown text

/-- The rule that a text is taken for.  A title or an author is what follows the keyword. -/
def read (text : String) : Rule :=
  if lowerAscii text = "highlight code" then .highlightCode
  else if lowerAscii text = "rainbow" then .rainbow
  else
    match Reader.afterKeyword? "title" text, Reader.afterKeyword? "author" text with
    | some rest, _ => .title rest
    | none, some rest => .author rest
    | none, none => .unknown text

end Rule

/-- The first word of a text goes on behind the keyword of a title or of an author. -/
def RunsOn (text : String) : Prop :=
  ∃ keyword ∈ ["title", "author"], keyword.toList <+: headWord text ∧ headWord text ≠ keyword.toList

variable {text : String} {keyword cs small : List Char} {ws : List (List Char)}

/-! ## Keywords -/

lemma startsWith_iff : startsWith keyword cs = true ↔ keyword <+: cs := by
  rw [startsWith, Option.isSome_iff_exists]
  exact exists_congr fun rest => dropLead?_eq_some_iff.trans eq_comm

/-- A keyword without spaces reaches no farther than the first word. -/
lemma prefix_lower_iff (hkeyword : ' ' ∉ keyword) : keyword <+: cs.map Char.toLower ↔
    keyword <+: (cs.takeWhile (· ≠ ' ')).map Char.toLower := by
  induction keyword generalizing cs with
  | nil => simp
  | cons d keyword ih =>
      obtain ⟨hd, hrest⟩ := not_or.mp (List.mem_cons.not.mp hkeyword)
      cases cs with
      | nil => simp
      | cons c cs =>
          by_cases hc : c = ' '
          · have hspace : ' '.toLower = ' ' := rfl
            simp [hc, hspace, Ne.symm hd]
          · rw [List.takeWhile_cons_of_pos (by simpa using hc), List.map_cons, List.map_cons,
              List.cons_prefix_cons, List.cons_prefix_cons, ih hrest]

lemma afterKeyword?_eq (keyword text : String) : Reader.afterKeyword? keyword text =
    if keyword.toList <+: text.toList.map Char.toLower then
      some (String.ofList (trim (text.toList.drop keyword.length))) else none := by
  rw [Reader.afterKeyword?, lowerAscii, String.toList_ofList]
  exact if_congr startsWith_iff rfl rfl

/-- What is left behind the first of some words is trimmed by taking off one space. -/
lemma trim_dropWhile_joinWith (h : ∀ w ∈ ws, IsWord w) :
    trim ((joinWith [' '] ws).dropWhile (· ≠ ' '))
      = ((joinWith [' '] ws).dropWhile (· ≠ ' ')).drop 1 := by
  have hinside : ∀ w ∈ ws, ∀ c ∈ w, decide (c ≠ ' ') = true := by
    intro w hw c hc
    rw [decide_eq_true_eq]
    rintro rfl
    exact absurd ((h w hw).2 ' ' hc) (by decide)
  cases ws with
  | nil => rfl
  | cons w ws =>
      obtain ⟨hw, hws⟩ := List.forall_mem_cons.mp hinside
      obtain ⟨-, hwords⟩ := List.forall_mem_cons.mp h
      cases ws with
      | nil =>
          have hnone : List.dropWhile (· ≠ ' ') w = [] := List.dropWhile_eq_nil_iff.mpr hw
          rw [joinWith, hnone]
          rfl
      | cons v ws =>
          have hspace : isBlank ' ' = true := by decide
          rw [joinWith_cons _ _ (List.cons_ne_nil v ws), List.append_assoc,
            List.dropWhile_append_of_pos hw, List.singleton_append,
            List.dropWhile_cons_of_neg (by decide), ← List.singleton_append,
            trim_append (by simpa using hspace), trim_joinWith hwords]
          rfl

/-- A keyword that is the first word is followed by what is behind that. -/
lemma afterKeyword?_of_head {keyword : String} (hws : ∀ w ∈ ws, IsWord w)
    (htext : text = String.ofList (joinWith [' '] ws)) (h : headWord text = keyword.toList) :
    Reader.afterKeyword? keyword text = some (behindHead text) := by
  have hsplit := List.takeWhile_append_dropWhile (p := (· ≠ ' ')) (l := text.toList)
  have hlength : keyword.length = (text.toList.takeWhile (· ≠ ' ')).length := by
    rw [← String.length_toList, ← h, headWord, List.length_map]
  have hrest : text.toList.drop keyword.length = text.toList.dropWhile (· ≠ ' ') := by
    have hdrop := @List.drop_left _ (text.toList.takeWhile (· ≠ ' '))
      (text.toList.dropWhile (· ≠ ' '))
    rwa [hsplit, ← hlength] at hdrop
  have hbegin : keyword.toList <+: text.toList.map Char.toLower := by
    rw [← h]
    exact (List.takeWhile_prefix _).map _
  rw [afterKeyword?_eq, if_pos hbegin, hrest, behindHead]
  subst htext
  rw [String.toList_ofList, trim_dropWhile_joinWith hws]

/-- A keyword is found at the start of a text exactly if the first word begins with it. -/
lemma afterKeyword?_eq_none_iff {keyword : String} (hspace : ' ' ∉ keyword.toList) :
    Reader.afterKeyword? keyword text = none ↔ ¬ keyword.toList <+: headWord text := by
  rw [afterKeyword?_eq, headWord, ← prefix_lower_iff hspace]
  split_ifs with hbegin <;> simp [hbegin]

/-- A text that is a keyword of another kind does not run on. -/
lemma not_runsOn_of_lower {flag : String} (h : lowerAscii text = flag)
    (hflag : ∀ keyword ∈ ["title", "author"], ¬ keyword.toList <+: flag.toList) :
    ¬ RunsOn text := by
  rintro ⟨keyword, hmem, hbegin, -⟩
  refine hflag keyword hmem (hbegin.trans ?_)
  rw [← h, lowerAscii, String.toList_ofList, headWord]
  exact (List.takeWhile_prefix _).map _

/-- A text with a keyword for its first word does not run on. -/
lemma not_runsOn_of_head {keyword : String} (hkeyword : keyword ∈ ["title", "author"])
    (h : headWord text = keyword.toList) : ¬ RunsOn text := by
  have hapart : ∀ k ∈ ["title", "author"], ∀ l ∈ ["title", "author"],
      l.toList <+: k.toList → k.toList = l.toList := by decide
  rintro ⟨other, hmem, hbegin, hne⟩
  rw [h] at hbegin hne
  exact hne (hapart keyword hkeyword other hmem hbegin)

/-- **Words joined by spaces are taken for the rule that they stand for exactly if the first of them
does not run on.** -/
theorem Rule.read_eq_ofText_iff (hws : ∀ w ∈ ws, IsWord w)
    (htext : text = String.ofList (joinWith [' '] ws)) :
    Rule.read text = Rule.ofText text ↔ ¬ RunsOn text := by
  have hnone {keyword : String} (hmem : keyword ∈ ["title", "author"]) :
      Reader.afterKeyword? keyword text = none ↔ ¬ keyword.toList <+: headWord text := by
    have hspace : ∀ keyword ∈ ["title", "author"], ' ' ∉ keyword.toList := by decide
    exact afterKeyword?_eq_none_iff (hspace keyword hmem)
  have htitle := @hnone "title" (by decide)
  have hauthor := @hnone "author" (by decide)
  rw [Rule.read, Rule.ofText]
  by_cases hcode : lowerAscii text = "highlight code"
  · simp [hcode, not_runsOn_of_lower hcode (by decide)]
  by_cases hrainbow : lowerAscii text = "rainbow"
  · simp [hrainbow, not_runsOn_of_lower hrainbow (by decide)]
  rw [if_neg hcode, if_neg hrainbow, if_neg hcode, if_neg hrainbow]
  by_cases hheadTitle : headWord text = "title".toList
  · have hnot : ¬ RunsOn text := not_runsOn_of_head (by decide) hheadTitle
    simp [hheadTitle, afterKeyword?_of_head hws htext hheadTitle, hnot]
  by_cases hheadAuthor : headWord text = "author".toList
  · have hnot : ¬ RunsOn text := not_runsOn_of_head (by decide) hheadAuthor
    have hother : Reader.afterKeyword? "title" text = none := by
      rw [htitle, hheadAuthor]
      decide
    simp [hheadAuthor, hother, afterKeyword?_of_head hws htext hheadAuthor, hnot]
  have hrunsOn : RunsOn text ↔
      Reader.afterKeyword? "title" text ≠ none ∨ Reader.afterKeyword? "author" text ≠ none := by
    rw [Ne, Ne, htitle, hauthor, not_not, not_not]
    simp only [RunsOn, List.mem_cons, List.not_mem_nil, or_false, exists_eq_or_imp, exists_eq_left,
      ne_eq, hheadTitle, hheadAuthor, not_false_eq_true, and_true]
  rw [if_neg hheadTitle, if_neg hheadAuthor, hrunsOn]
  cases Reader.afterKeyword? "title" text with
  | some rest => simp
  | none => cases Reader.afterKeyword? "author" text <;> simp

/-! ## Small letters of any script -/

/-- What follows the first bytes of a text, if a character ends with them. -/
def afterBytes? : Nat → List Char → Option (List Char)
  | 0, cs => some cs
  | _ + 1, [] => none
  | n + 1, c :: cs => if c.utf8Size ≤ n + 1 then afterBytes? (n + 1 - c.utf8Size) cs else none

/-- The rule that a text is taken for, by its small letters in any script.  A title or an author is
what follows as many bytes as the keyword has. -/
def Rule.ofLowered? (small : List Char) (text : String) : Option Rule :=
  if small = "highlight code".toList then some .highlightCode
  else if small = "rainbow".toList then some .rainbow
  else if "title".toList <+: small then
    (afterBytes? "title".utf8ByteSize text.toList).map fun rest =>
      .title (String.ofList (trim rest))
  else if "author".toList <+: small then
    (afterBytes? "author".utf8ByteSize text.toList).map fun rest =>
      .author (String.ofList (trim rest))
  else some (.unknown text)

lemma afterBytes?_append {lead : List Char} (hlead : ∀ c ∈ lead, c.toNat < 0x80)
    (rest : List Char) : afterBytes? lead.length (lead ++ rest) = some rest := by
  induction lead with
  | nil =>
      rw [List.length_nil, List.nil_append]
      cases rest <;> rfl
  | cons c lead ih =>
      obtain ⟨hc, hlead⟩ := List.forall_mem_cons.mp hlead
      have hsize : c.utf8Size = 1 := Char.utf8Size_eq_one_iff.mpr (Nat.le_of_lt_succ hc)
      rw [List.length_cons, List.cons_append, afterBytes?, hsize, if_pos (by omega)]
      exact ih hlead

/-- What follows a keyword begins behind as many bytes as the keyword has. -/
lemma afterBytes?_of_prefix {keyword : String} (hkeyword : IsKeyword keyword.toList)
    (hbytes : keyword.utf8ByteSize = keyword.length)
    (h : keyword.toList <+: text.toList.map Char.toLower) :
    afterBytes? keyword.utf8ByteSize text.toList = some (text.toList.drop keyword.length) := by
  obtain ⟨more, hmore⟩ := h
  obtain ⟨lead, rest, hsplit, hlead, -⟩ := List.map_eq_append_iff.mp hmore.symm
  have hlength : keyword.length = lead.length := by
    rw [← String.length_toList, ← hlead, List.length_map]
  rw [hbytes, hlength, hsplit, List.drop_left,
    afterBytes?_append (hkeyword.ascii_of_toLower hlead)]

/-- **It makes no difference that keywords are looked for in small letters of any script**, in which
a text can have more bytes or fewer: a character of the text itself ends where the keyword ends. -/
theorem Rule.ofLowered?_eq (h : IsLowered text.toList small) :
    Rule.ofLowered? small text = some (Rule.read text) := by
  have hequal {keyword : String} (hkeyword : IsKeyword keyword.toList) :
      small = keyword.toList ↔ lowerAscii text = keyword := by
    rw [h.eq_iff hkeyword, ← String.toList_inj, lowerAscii, String.toList_ofList]
  have hcode := @hequal "highlight code" (by decide)
  have hrainbow := @hequal "rainbow" (by decide)
  have htitle : "title".toList <+: small ↔ "title".toList <+: text.toList.map Char.toLower :=
    h.prefix_iff (by decide)
  have hauthor : "author".toList <+: small ↔ "author".toList <+: text.toList.map Char.toLower :=
    h.prefix_iff (by decide)
  simp only [Rule.ofLowered?, Rule.read, hcode, hrainbow, htitle, hauthor, afterKeyword?_eq]
  by_cases hbeginTitle : "title".toList <+: text.toList.map Char.toLower
  · simp only [if_pos hbeginTitle, afterBytes?_of_prefix (by decide) (by decide) hbeginTitle,
      Option.map_some]
    split_ifs <;> rfl
  by_cases hbeginAuthor : "author".toList <+: text.toList.map Char.toLower
  · simp only [if_neg hbeginTitle, if_pos hbeginAuthor,
      afterBytes?_of_prefix (by decide) (by decide) hbeginAuthor, Option.map_some]
    split_ifs <;> rfl
  · simp only [if_neg hbeginTitle, if_neg hbeginAuthor]
    split_ifs <;> rfl

end ReportPress.Markup
