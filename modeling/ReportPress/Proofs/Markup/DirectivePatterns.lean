import ReportPress.Markup.ExternalDirective
import ReportPress.Markup.Line
import ReportPress.Proofs.Text.Words

/-!
# What is looked for in a directive

A line that begins with an exclamation mark is searched for the parts of an image, a paragraph for
commas before a closing bracket, and for the place where the path of a document ends.  None of the
three searches minds quotation marks.  Here they are described by what they find.

* `Precedes` — a mark with nothing but white space between it and a closing character.
* `HasTrailingComma`, `HasPathEnd`, `HasImage` — what the searches look for.
* `dropTrailingCommas_eq_self_iff`, `splitAtBrace?_eq_none_iff`, `directiveParts?_eq_none_iff` —
  **each search comes back without a finding exactly if there is nothing of the kind in the
  text.**
-/

namespace ReportPress.Markup

open Text

/-- A mark stands before one of some characters with nothing but white space between them. -/
def Precedes (mark : Char) (closers cs : List Char) : Prop :=
  ∃ before blanks c after, cs = before ++ mark :: (blanks ++ c :: after) ∧
    (∀ b ∈ blanks, isBlank b = true) ∧ c ∈ closers

/-- A comma before a closing brace or bracket. -/
def HasTrailingComma (cs : List Char) : Prop := Precedes ',' ['\x7d', ']'] cs

/-- A closing parenthesis before an opening brace. -/
def HasPathEnd (cs : List Char) : Prop := Precedes ')' ['\x7b'] cs

/-- The parts of an image directive. -/
def HasImage (cs : List Char) : Prop :=
  ∃ before alt source after,
    cs = before ++ ("![".toList ++ (alt ++ ("](".toList ++ (source ++ ')' :: after))))

variable {mark c d : Char} {closers cs pattern before after rest : List Char}

/-! ## Marks -/

/-- The first character that is not white space. -/
lemma head_dropWhile_eq_iff (hc : isBlank c = false) :
    (cs.dropWhile isBlank).head? = some c ↔
      ∃ blanks after, cs = blanks ++ c :: after ∧ ∀ b ∈ blanks, isBlank b = true := by
  constructor
  · intro h
    obtain ⟨after, hafter⟩ := List.head?_eq_some_iff.mp h
    refine ⟨cs.takeWhile isBlank, after, ?_, fun b => List.mem_takeWhile_imp⟩
    rw [← hafter, List.takeWhile_append_dropWhile]
  · rintro ⟨blanks, after, rfl, hblanks⟩
    rw [List.dropWhile_append_of_pos hblanks, List.dropWhile_cons_of_neg (by simp [hc])]
    rfl

/-- A mark at the start of a text, or behind it. -/
lemma precedes_cons_iff (hclosers : ∀ c ∈ closers, isBlank c = false) :
    Precedes mark closers (d :: cs) ↔
      (d = mark ∧ ∃ c ∈ closers, (cs.dropWhile isBlank).head? = some c) ∨
        Precedes mark closers cs := by
  constructor
  · rintro ⟨before, blanks, c, after, hcs, hblanks, hc⟩
    cases before with
    | nil =>
        obtain ⟨rfl, rfl⟩ := List.cons.inj hcs
        exact Or.inl ⟨rfl, c, hc,
          (head_dropWhile_eq_iff (hclosers c hc)).mpr ⟨blanks, after, rfl, hblanks⟩⟩
    | cons e before =>
        obtain ⟨rfl, rfl⟩ := List.cons.inj hcs
        exact Or.inr ⟨before, blanks, c, after, rfl, hblanks, hc⟩
  · rintro (⟨rfl, c, hc, hhead⟩ | ⟨before, blanks, c, after, rfl, hblanks, hc⟩)
    · obtain ⟨blanks, after, rfl, hblanks⟩ := (head_dropWhile_eq_iff (hclosers c hc)).mp hhead
      exact ⟨[], blanks, c, after, rfl, hblanks, hc⟩
    · exact ⟨d :: before, blanks, c, after, rfl, hblanks, hc⟩

lemma not_precedes_nil : ¬ Precedes mark closers [] := by
  rintro ⟨before, blanks, c, after, h, -, -⟩
  simp at h

/-- A character behind the text that closes nothing makes no difference. -/
lemma precedes_concat_iff (hd : d ∉ closers) :
    Precedes mark closers (cs ++ [d]) ↔ Precedes mark closers cs := by
  constructor
  · rintro ⟨before, blanks, c, after, hcs, hblanks, hc⟩
    rcases List.eq_nil_or_concat after with rfl | ⟨after, e, rfl⟩
    · have hlast : cs ++ [d] = (before ++ mark :: blanks) ++ [c] := by rw [hcs]; simp
      obtain ⟨-, hdc⟩ := List.append_inj' hlast rfl
      exact absurd (List.singleton_inj.mp hdc ▸ hc) hd
    · have hlast : cs ++ [d] = (before ++ mark :: (blanks ++ c :: after)) ++ [e] := by
        rw [hcs]
        simp
      obtain ⟨rfl, -⟩ := List.append_inj' hlast rfl
      exact ⟨before, blanks, c, after, rfl, hblanks, hc⟩
  · rintro ⟨before, blanks, c, after, rfl, hblanks, hc⟩
    exact ⟨before, blanks, c, after ++ [d], by simp, hblanks, hc⟩

lemma length_dropTrailingCommas_le : ∀ cs : List Char,
    (dropTrailingCommas cs).length ≤ cs.length := by
  intro cs
  fun_induction dropTrailingCommas cs with
  | case1 => exact Nat.le_refl _
  | case2 c cs next h ih => exact Nat.le_succ_of_le ih
  | case3 c cs next h ih => exact Nat.succ_le_succ ih

/-- Nothing is taken out of a text exactly if no comma stands before a closing bracket. -/
theorem dropTrailingCommas_eq_self_iff : ∀ cs : List Char,
    dropTrailingCommas cs = cs ↔ ¬ HasTrailingComma cs := by
  intro cs
  have hclosers : ∀ c ∈ ['\x7d', ']'], isBlank c = false := by decide
  fun_induction dropTrailingCommas cs with
  | case1 => simp [HasTrailingComma, not_precedes_nil]
  | case2 c cs next h ih =>
      have hlength := length_dropTrailingCommas_le cs
      have hne : dropTrailingCommas cs ≠ c :: cs := by
        intro e
        rw [e, List.length_cons] at hlength
        omega
      have hcomma : HasTrailingComma (c :: cs) :=
        (precedes_cons_iff hclosers).mpr (Or.inl ⟨h.1, by simpa using h.2⟩)
      simp [hne, hcomma]
  | case3 c cs next h ih =>
      have hrest : dropTrailingCommas cs = cs ↔ ¬ HasTrailingComma cs := ih
      have hnot : ¬ (c = ',' ∧ ∃ d ∈ ['\x7d', ']'], (cs.dropWhile isBlank).head? = some d) := by
        simpa using h
      have hcons : HasTrailingComma (c :: cs) ↔ HasTrailingComma cs :=
        (precedes_cons_iff hclosers).trans (or_iff_right hnot)
      rw [hcons, ← hrest, List.cons.injEq]
      simp

/-- A path ends nowhere exactly if no closing parenthesis stands before an opening brace. -/
theorem splitAtBrace?_eq_none_iff : ∀ cs : List Char,
    splitAtBrace? cs = none ↔ ¬ HasPathEnd cs
  | [] => by simp [splitAtBrace?, HasPathEnd, not_precedes_nil]
  | c :: cs => by
      have ih := splitAtBrace?_eq_none_iff cs
      have hcons : HasPathEnd (c :: cs) ↔
          (c = ')' ∧ ∃ d ∈ ['\x7b'], (cs.dropWhile isBlank).head? = some d) ∨ HasPathEnd cs :=
        precedes_cons_iff (by decide)
      rw [splitAtBrace?]
      cases hcut : splitAtBrace? cs with
      | some parts =>
          have hend : HasPathEnd cs := by
            by_contra hnot
            simp [ih.mpr hnot] at hcut
          simp [hcons, hend]
      | none =>
          rw [hcut] at ih
          have hnot : ¬ HasPathEnd cs := ih.mp rfl
          rw [hcons, or_iff_left hnot]
          by_cases hc : c = ')'
          · cases hdrop : cs.dropWhile isBlank with
            | nil => simp [hc]
            | cons d after =>
                by_cases hd : d = '\x7b'
                · simp [hc, hd]
                · simp [hc, hd]
          · simp [hc]

/-! ## Images -/

/-- The text behind the first occurrence of a pattern goes as far back as that behind any other. -/
lemma exists_afterFirst?_eq (hpattern : pattern ≠ []) (after : List Char) :
    ∀ before : List Char, ∃ rest, afterFirst? pattern (before ++ (pattern ++ after)) = some rest ∧
      after <:+ rest
  | [] => by
      cases pattern with
      | nil => exact absurd rfl hpattern
      | cons p pattern =>
          refine ⟨after, ?_, List.suffix_rfl⟩
          have hlead := dropLead?_append (p :: pattern) after
          rw [List.nil_append, List.cons_append, afterFirst?]
          rw [List.cons_append] at hlead
          rw [hlead]
  | c :: before => by
      obtain ⟨rest, hrest, hafter⟩ := exists_afterFirst?_eq hpattern after before
      rw [List.cons_append, afterFirst?]
      cases hlead : dropLead? pattern (c :: (before ++ (pattern ++ after))) with
      | none => exact ⟨rest, hrest, hafter⟩
      | some tail =>
          have htail := dropLead?_eq_some_iff.mp hlead
          have hsuffix : tail <:+ c :: (before ++ (pattern ++ after)) := ⟨pattern, htail.symm⟩
          have hsuffix' : after <:+ c :: (before ++ (pattern ++ after)) :=
            ⟨c :: (before ++ pattern), by simp⟩
          have hlength := congrArg List.length htail
          simp only [List.length_cons, List.length_append] at hlength
          exact ⟨tail, rfl, List.suffix_of_suffix_length_le hsuffix' hsuffix (by omega)⟩

lemma exists_of_afterFirst? : ∀ {cs : List Char}, afterFirst? pattern cs = some rest →
    ∃ before, cs = before ++ (pattern ++ rest)
  | [], h => by simp [afterFirst?] at h
  | c :: cs, h => by
      rw [afterFirst?] at h
      cases hlead : dropLead? pattern (c :: cs) with
      | none =>
          rw [hlead] at h
          obtain ⟨before, rfl⟩ := exists_of_afterFirst? h
          exact ⟨c :: before, rfl⟩
      | some tail =>
          rw [hlead, Option.some.injEq] at h
          exact ⟨[], by rw [dropLead?_eq_some_iff.mp hlead, h]; rfl⟩

/-- The text before the last occurrence of a pattern goes as far as that before any other. -/
lemma exists_splitLast?_eq (hpattern : pattern ≠ []) (after : List Char) :
    ∀ before : List Char, ∃ front back,
      splitLast? pattern (before ++ (pattern ++ after)) = some (front, back) ∧ before <+: front
  | [] => by
      cases pattern with
      | nil => exact absurd rfl hpattern
      | cons p pattern =>
          have hlead := dropLead?_append (p :: pattern) after
          rw [List.cons_append] at hlead
          rw [List.nil_append, List.cons_append, splitLast?]
          cases hlast : splitLast? (p :: pattern) (pattern ++ after) with
          | some parts => exact ⟨p :: parts.1, parts.2, rfl, List.nil_prefix⟩
          | none => exact ⟨[], after, by rw [hlead]; rfl, List.nil_prefix⟩
  | c :: before => by
      obtain ⟨front, back, hlast, hfront⟩ := exists_splitLast?_eq hpattern after before
      refine ⟨c :: front, back, ?_, List.cons_prefix_cons.mpr ⟨rfl, hfront⟩⟩
      rw [List.cons_append, splitLast?, hlast]

lemma eq_of_splitLast? : ∀ {cs before after : List Char},
    splitLast? pattern cs = some (before, after) → cs = before ++ (pattern ++ after)
  | [], _, _, h => by simp [splitLast?] at h
  | c :: cs, before, after, h => by
      rw [splitLast?] at h
      cases hlast : splitLast? pattern cs with
      | some parts =>
          rw [hlast] at h
          obtain ⟨rfl, rfl⟩ := Prod.mk.inj (Option.some.inj h)
          rw [eq_of_splitLast? hlast]
          rfl
      | none =>
          rw [hlast] at h
          obtain ⟨rest, hlead, heq⟩ := Option.map_eq_some_iff.mp h
          obtain ⟨rfl, rfl⟩ := Prod.mk.inj heq
          rw [List.nil_append]
          exact dropLead?_eq_some_iff.mp hlead

lemma afterFirst?_pattern_append (hpattern : pattern ≠ []) (cs : List Char) :
    afterFirst? pattern (pattern ++ cs) = some cs := by
  have hlead := dropLead?_append pattern cs
  obtain ⟨p, ps, rfl⟩ := List.exists_cons_of_ne_nil hpattern
  rw [List.cons_append] at hlead ⊢
  rw [afterFirst?, hlead]

lemma splitLast?_eq_none (h : ¬ pattern <:+: cs) : splitLast? pattern cs = none := by
  rw [Option.eq_none_iff_forall_ne_some]
  rintro ⟨before, after⟩ hsplit
  have hcs := eq_of_splitLast? hsplit
  rw [← List.append_assoc] at hcs
  exact h ⟨before, after, hcs.symm⟩

/-- A pattern that does not begin again behind its first character stands there for the last
time. -/
lemma splitLast?_append {p : Char} (h : ¬ p :: pattern <:+: pattern ++ after) :
    ∀ before : List Char,
      splitLast? (p :: pattern) (before ++ (p :: pattern ++ after)) = some (before, after)
  | [] => by
      have hlead := dropLead?_append (p :: pattern) after
      rw [List.cons_append] at hlead
      rw [List.nil_append, List.cons_append, splitLast?, splitLast?_eq_none h, hlead]
      rfl
  | c :: before => by rw [List.cons_append, splitLast?, splitLast?_append h before]

/-- A line is read as an image exactly if it has the parts of one. -/
theorem directiveParts?_eq_none_iff (cs : List Char) :
    directiveParts? cs = none ↔ ¬ HasImage cs := by
  constructor
  · rintro hnone ⟨before, alt, source, after, rfl⟩
    have hopen : "![".toList ≠ [] := by decide
    have hmiddle : "](".toList ≠ [] := by decide
    obtain ⟨rest, hrest, lead, hlead⟩ := exists_afterFirst?_eq hopen
      (alt ++ ("](".toList ++ (source ++ ')' :: after))) before
    obtain ⟨inner, tail, hinner, more, hmore⟩ := exists_splitLast?_eq (List.cons_ne_nil ')' [])
      after (lead ++ (alt ++ ("](".toList ++ source)))
    obtain ⟨alt', source', halt, -⟩ := exists_splitLast?_eq hmiddle (source ++ more) (lead ++ alt)
    have hrestEq : lead ++ (alt ++ ("](".toList ++ source)) ++ ([')'] ++ after) = rest := by
      rw [← hlead]
      simp
    have hinnerEq : lead ++ alt ++ ("](".toList ++ (source ++ more)) = inner := by
      rw [← hmore]
      simp
    rw [hrestEq] at hinner
    rw [hinnerEq] at halt
    rw [directiveParts?, hrest, Option.bind_eq_bind, Option.bind_some, hinner, Option.bind_eq_bind,
      Option.bind_some] at hnone
    simp only [halt, Option.bind_some] at hnone
    split at hnone <;> simp at hnone
  · intro hnot
    rw [Option.eq_none_iff_forall_ne_some]
    rintro ⟨alt, source, size⟩ hparts
    simp only [directiveParts?, Option.bind_eq_bind, Option.bind_eq_some_iff] at hparts
    obtain ⟨rest, hrest, ⟨inner, tail⟩, hinner, ⟨alt', source'⟩, halt, -⟩ := hparts
    obtain ⟨before, rfl⟩ := exists_of_afterFirst? hrest
    have hinnerEq : inner = alt' ++ ("](".toList ++ source') := eq_of_splitLast? halt
    exact hnot ⟨before, alt', source', tail, by rw [eq_of_splitLast? hinner, hinnerEq]; simp⟩

/-- A text without line feeds is one line. -/
lemma imageParts?_eq (h : '\n' ∉ cs) : imageParts? cs = directiveParts? cs := by
  rw [imageParts?, splitOn_of_not_mem h, List.findSome?_singleton]

/-! ## Decisions -/

instance : DecidablePred HasTrailingComma := fun cs =>
  decidable_of_iff (dropTrailingCommas cs ≠ cs) <| by
    rw [Ne, dropTrailingCommas_eq_self_iff, not_not]

instance : DecidablePred HasPathEnd := fun cs =>
  decidable_of_iff ((splitAtBrace? cs).isSome = true) (by
    rw [← not_iff_not, ← splitAtBrace?_eq_none_iff, Bool.not_eq_true, Option.isSome_eq_false_iff,
      Option.isNone_iff_eq_none])

instance : DecidablePred HasImage := fun cs =>
  decidable_of_iff ((directiveParts? cs).isSome = true) (by
    rw [← not_iff_not, ← directiveParts?_eq_none_iff, Bool.not_eq_true, Option.isSome_eq_false_iff,
      Option.isNone_iff_eq_none])

/-! ## Images behind a text -/

/-- No image begins in a text without opening brackets. -/
lemma afterFirst?_append {lead : List Char} (hlead : '[' ∉ lead) (hcs : cs.head? ≠ some '[') :
    afterFirst? "![".toList (lead ++ cs) = afterFirst? "![".toList cs := by
  induction lead with
  | nil => rfl
  | cons c lead ih =>
      have hrest : '[' ∉ lead := fun e => hlead (List.mem_cons_of_mem c e)
      have hhead : (lead ++ cs).head? ≠ some '[' := by
        cases lead with
        | nil => exact hcs
        | cons d lead => simpa using Ne.symm (List.ne_of_not_mem_cons hrest)
      have hnone : dropLead? "![".toList (c :: (lead ++ cs)) = none := by
        rw [Option.eq_none_iff_forall_ne_some]
        intro rest h
        have hbegin := dropLead?_eq_some_iff.mp h
        exact hhead (by rw [(List.cons.inj hbegin).2]; rfl)
      rw [List.cons_append, afterFirst?, hnone]
      exact ih hrest

/-- Such a text makes no difference to the parts of an image behind it. -/
lemma directiveParts?_append {lead : List Char} (hlead : '[' ∉ lead) (hcs : cs.head? ≠ some '[') :
    directiveParts? (lead ++ cs) = directiveParts? cs := by
  rw [directiveParts?, afterFirst?_append hlead hcs, directiveParts?]

end ReportPress.Markup
