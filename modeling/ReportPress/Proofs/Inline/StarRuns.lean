import ReportPress.Proofs.Inline.LetterTexts

/-!
# Runs of stars

Emphasis is found in three passes, one for each kind of delimiter, and each begins anew in every
piece that the pass before has cut.  A text in which stars stand in runs of one, two or three can be
read in a single pass instead, with the delimiters that are open.

* `StarRun`, `starText` — a text as its first piece and runs of stars with the pieces behind them.
* `OpenStars` — the delimiters that are open.  A run of stars opens or closes the delimiter of its
  length, and all shorter ones are forgotten (`OpenStars.toggle`).
* `pieces` — the pieces of a text, each in the emphasis of the delimiters that are open before it.

**One pass.**  Cutting at delimiters of one length leaves shorter runs alone
(`splitOnText_of_shorter`) and takes out those of that length (`splitOnText_append`).  So if the
passes to come read the pieces in between as they should, this pass and those read the whole text
(`flatMap_alternate`).

**All passes.**  `emphasizeAll_starText` — the three passes give the pieces that a single one reads.
-/

namespace ReportPress.Inline

open Text

/-! ## Texts with stars -/

/-- So many stars. -/
def stars (n : Nat) : List Char := List.replicate n '*'

/-- A run of stars and the text behind it. -/
structure StarRun where
  stars : Nat
  text : List Char

/-- A text that goes on with runs of stars. -/
def starText (w : List Char) : List StarRun → List Char
  | [] => w
  | run :: runs => w ++ (stars run.stars ++ starText run.text runs)

/-- Runs of stars with something else between any two. -/
def IsSeparated : List StarRun → Prop
  | [] => True
  | run :: runs =>
    0 < run.stars ∧ '*' ∉ run.text ∧ (runs ≠ [] → run.text ≠ []) ∧ IsSeparated runs

variable {w cs : List Char} {k : Nat} {run : StarRun} {runs before more : List StarRun}

lemma IsSeparated.left : ∀ {before : List StarRun}, IsSeparated (before ++ more) →
    IsSeparated before
  | [], _ => trivial
  | _ :: _, ⟨hpos, htext, hne, h⟩ =>
      ⟨hpos, htext, fun hbefore => hne (List.append_ne_nil_of_left_ne_nil hbefore _), h.left⟩

lemma IsSeparated.right : ∀ {before : List StarRun}, IsSeparated (before ++ more) →
    IsSeparated more
  | [], h => h
  | _ :: _, ⟨_, _, _, h⟩ => h.right

lemma IsSeparated.pos (h : IsSeparated runs) : ∀ run ∈ runs, 0 < run.stars := by
  intro run hrun
  obtain ⟨before, more, rfl⟩ := List.append_of_mem hrun
  exact h.right.1

/-- Behind a run of stars there is no other star. -/
lemma head?_starText (h : IsSeparated (run :: runs)) :
    (starText run.text runs).head? ≠ some '*' := by
  obtain ⟨-, htext, hne, -⟩ := h
  intro hstar
  cases hw : run.text with
  | nil =>
      have hruns : runs = [] := by
        by_contra hruns
        exact hne hruns hw
      rw [hw, hruns] at hstar
      exact nomatch hstar
  | cons c w =>
      refine htext ?_
      cases runs <;> simp_all [starText]

/-! ## The delimiters that are open -/

/-- Which delimiters are open. -/
structure OpenStars where
  three : Bool := false
  two : Bool := false
  one : Bool := false
deriving DecidableEq, Repr

namespace OpenStars

/-- The emphasis inside of the delimiters. -/
def emphasis (o : OpenStars) : Emphasis := ⟨o.three || o.two, o.three || o.one⟩

/-- The delimiter of so many stars opened or closed.  What was cut at longer delimiters is read from
its beginning, so the shorter ones are forgotten. -/
def toggle (o : OpenStars) : Nat → OpenStars
  | 1 => { o with one := !o.one }
  | 2 => { o with two := !o.two, one := false }
  | _ => { three := !o.three }

/-- The delimiters inside or outside of one more. -/
def within (o : OpenStars) (n : Nat) (inside : Bool) : OpenStars :=
  if inside then o.toggle n else o

lemma toggle_toggle_of_lt (o : OpenStars) {m n : Nat} (hpos : 0 < m) (h : m < n) (hle : n ≤ 3) :
    (o.toggle m).toggle n = o.toggle n := by
  obtain rfl | rfl : n = 2 ∨ n = 3 := by omega
  · obtain rfl : m = 1 := by omega
    rfl
  · obtain rfl | rfl : m = 1 ∨ m = 2 := by omega
    · rfl
    · rfl

end OpenStars

/-- A piece of text inside of delimiters. -/
def styled (o : OpenStars) (w : List Char) : Rune :=
  { text := String.ofList w, emphasis := o.emphasis }

/-- The pieces of a text, each in the emphasis of the delimiters that are open before it. -/
def pieces (o : OpenStars) (w : List Char) : List StarRun → Runes
  | [] => [styled o w]
  | run :: runs => styled o w :: pieces (o.toggle run.stars) run.text runs

/-- Behind a run of stars nothing is left of shorter runs before it. -/
lemma pieces_append (hpos : ∀ b ∈ before, 0 < b.stars) (h : ∀ b ∈ before, b.stars < run.stars)
    (hle : run.stars ≤ 3) (o : OpenStars) (w : List Char) :
    pieces o w (before ++ run :: more)
      = pieces o w before ++ pieces (o.toggle run.stars) run.text more := by
  induction before generalizing o w with
  | nil => rfl
  | cons b before ih =>
      obtain ⟨hb, hbefore⟩ := List.forall_mem_cons.mp h
      obtain ⟨hbpos, hbeforepos⟩ := List.forall_mem_cons.mp hpos
      rw [List.cons_append, pieces, ih hbeforepos hbefore, pieces,
        o.toggle_toggle_of_lt hbpos hb hle, List.cons_append]

/-! ## One pass -/

/-- Pieces with a text in front: it joins the first. -/
def prepend (w : List Char) : List (List Char) → List (List Char)
  | [] => [w]
  | piece :: pieces => (w ++ piece) :: pieces

lemma prepend_prepend (w v : List Char) (pieces : List (List Char)) :
    prepend w (prepend v pieces) = prepend (w ++ v) pieces := by
  cases pieces with
  | nil => rfl
  | cons piece pieces => rw [prepend, prepend, prepend, List.append_assoc]

/-- A text in which no delimiter begins joins the first piece of what is behind it. -/
lemma splitOnText_append_of_forall {pattern v : List Char}
    (h : ∀ tail, tail ≠ [] → tail <:+ v → dropLead? pattern (tail ++ cs) = none) :
    splitOnText pattern (v ++ cs) = prepend v (splitOnText pattern cs) := by
  induction v with
  | nil =>
      cases hsplit : splitOnText pattern cs with
      | nil => exact absurd hsplit (splitOnText_ne_nil pattern cs)
      | cons piece pieces => rw [List.nil_append, hsplit, prepend, List.nil_append]
  | cons c v ih =>
      have hrest := ih fun tail hne htail => h tail hne (htail.trans (List.suffix_cons c v))
      have hc := h (c :: v) (List.cons_ne_nil _ _) List.suffix_rfl
      rw [List.cons_append] at hc ⊢
      have hcons : splitOnText pattern (c :: (v ++ cs))
          = prepend [c] (splitOnText pattern (v ++ cs)) := by
        unfold splitOnText scan
        rw [scanFrom, hc, Option.map_none, List.foldr_cons]
        generalize List.foldr _ _ _ = pieces
        cases pieces <;> rfl
      rw [hcons, hrest, prepend_prepend, List.singleton_append]

/-- A delimiter ends a piece. -/
lemma splitOnText_delimiter_append {pattern : List Char} (hne : pattern ≠ []) (cs : List Char) :
    splitOnText pattern (pattern ++ cs) = [] :: splitOnText pattern cs := by
  unfold splitOnText
  rw [scan_append_of_covered hne (by rw [dropLead?_append, Option.map_some]), List.foldr_cons]

/-- Shorter runs of stars hold no delimiter. -/
lemma dropLead?_stars {n : Nat} (hn : n < k) (hcs : cs.head? ≠ some '*') :
    dropLead? (stars k) (stars n ++ cs) = none := by
  induction n generalizing k with
  | zero =>
      obtain ⟨k, rfl⟩ := Nat.exists_eq_succ_of_ne_zero (Nat.ne_of_gt hn)
      cases cs with
      | nil => rfl
      | cons c cs => exact dropLead?_cons_of_ne (fun hc => hcs (by rw [hc]; rfl)) _ _
  | succ n ih =>
      obtain ⟨k, rfl⟩ := Nat.exists_eq_succ_of_ne_zero (Nat.ne_of_gt (Nat.zero_lt_of_lt hn))
      exact ih (Nat.lt_of_succ_lt_succ hn)

lemma splitOnText_append_of_not_mem (hk : 0 < k) (hw : '*' ∉ w) (cs : List Char) :
    splitOnText (stars k) (w ++ cs) = prepend w (splitOnText (stars k) cs) := by
  obtain ⟨k, rfl⟩ := Nat.exists_eq_succ_of_ne_zero (Nat.ne_of_gt hk)
  refine splitOnText_append_of_forall fun tail hne htail => ?_
  obtain ⟨c, tail, rfl⟩ := List.exists_cons_of_ne_nil hne
  have hc : c ≠ '*' := fun hc => hw (htail.subset (hc ▸ List.mem_cons_self))
  exact dropLead?_cons_of_ne hc _ _

/-- What stands before a shorter run, and the run, join the piece behind it. -/
lemma splitOnText_starText_cons (hk : 0 < k) (hw : '*' ∉ w) (h : IsSeparated (run :: runs))
    (hlt : run.stars < k) :
    splitOnText (stars k) (starText w (run :: runs))
      = prepend (w ++ stars run.stars) (splitOnText (stars k) (starText run.text runs)) := by
  have hrun : splitOnText (stars k) (stars run.stars ++ starText run.text runs)
      = prepend (stars run.stars) (splitOnText (stars k) (starText run.text runs)) := by
    refine splitOnText_append_of_forall fun tail _ htail => ?_
    obtain ⟨hlength, htail⟩ := List.suffix_replicate_iff.mp htail
    rw [htail]
    exact dropLead?_stars (Nat.lt_of_le_of_lt hlength hlt) (head?_starText h)
  rw [starText, splitOnText_append_of_not_mem hk hw, hrun, prepend_prepend]

/-- Shorter runs of stars are not cut. -/
lemma splitOnText_of_shorter (hk : 0 < k) (hw : '*' ∉ w) (h : IsSeparated runs)
    (hlt : ∀ run ∈ runs, run.stars < k) :
    splitOnText (stars k) (starText w runs) = [starText w runs] := by
  induction runs generalizing w with
  | nil =>
      obtain ⟨k, rfl⟩ := Nat.exists_eq_succ_of_ne_zero (Nat.ne_of_gt hk)
      exact splitOnText_of_not_mem (stars k) hw
  | cons run runs ih =>
      obtain ⟨hrun, hruns⟩ := List.forall_mem_cons.mp hlt
      rw [splitOnText_starText_cons hk hw h hrun, ih h.2.1 h.2.2.2 hruns, prepend, starText,
        List.append_assoc]

/-- A text is cut at the first run of stars that is long enough. -/
lemma splitOnText_append (hk : 0 < k) (hw : '*' ∉ w) (h : IsSeparated (before ++ run :: more))
    (hlt : ∀ b ∈ before, b.stars < k) (hrun : run.stars = k) :
    splitOnText (stars k) (starText w (before ++ run :: more))
      = starText w before :: splitOnText (stars k) (starText run.text more) := by
  induction before generalizing w with
  | nil =>
      have hne : stars k ≠ [] := by simp [stars, Nat.ne_of_gt hk]
      rw [List.nil_append, starText, starText, splitOnText_append_of_not_mem hk hw, hrun,
        splitOnText_delimiter_append hne, prepend, List.append_nil]
  | cons b before ih =>
      obtain ⟨hb, hbefore⟩ := List.forall_mem_cons.mp hlt
      rw [List.cons_append] at h ⊢
      rw [splitOnText_starText_cons hk hw h hb, ih h.2.1 h.2.2.2 hbefore, prepend, starText,
        List.append_assoc]

/-- A span gets the emphasis of the stars that are open then. -/
lemma alternate_styled {emphasis : Emphasis} {o : OpenStars}
    (hunion : o.emphasis.union emphasis = (o.toggle k).emphasis) (text : List Char) (inside : Bool)
    (span : List Char) (spans : List (List Char)) :
    alternate (styled o text) emphasis inside (span :: spans)
      = styled (o.within k inside) span :: alternate (styled o text) emphasis (!inside) spans := by
  rw [alternate]
  congr 1
  cases inside with
  | false => rfl
  | true =>
      show ({ text := String.ofList span, emphasis := o.emphasis.union emphasis } : Rune) = _
      rw [hunion]
      rfl

/-- If the passes to come read the pieces between delimiters, then this pass and those read all. -/
lemma flatMap_alternate (hk : 0 < k) (hle : k ≤ 3) {emphasis : Emphasis} {o : OpenStars}
    (hback : (o.toggle k).toggle k = o)
    (hunion : o.emphasis.union emphasis = (o.toggle k).emphasis) {pass : Rune → Runes}
    (hpass : ∀ inside w runs, '*' ∉ w → IsSeparated runs → (∀ run ∈ runs, run.stars < k) →
      pass (styled (o.within k inside) (starText w runs)) = pieces (o.within k inside) w runs)
    (text : List Char) : ∀ {runs : List StarRun} (before : List StarRun) {w : List Char}
      (inside : Bool), '*' ∉ w →
      IsSeparated (before ++ runs) → (∀ run ∈ before, run.stars < k) →
      (∀ run ∈ runs, run.stars ≤ k) →
        (alternate (styled o text) emphasis inside
          (splitOnText (stars k) (starText w (before ++ runs)))).flatMap pass
          = pieces (o.within k inside) w (before ++ runs) := by
  have htoggle (inside : Bool) : (o.within k inside).toggle k = o.within k (!inside) := by
    cases inside with
    | false => rfl
    | true => exact hback
  intro runs
  induction runs with
  | nil =>
      intro before w inside hw h hlt _
      rw [List.append_nil] at h ⊢
      rw [splitOnText_of_shorter hk hw h hlt, alternate_styled hunion, alternate,
        List.flatMap_singleton, hpass inside w before hw h hlt]
  | cons run runs ih =>
      intro before w inside hw h hlt hruns
      obtain ⟨hrun, hruns⟩ := List.forall_mem_cons.mp hruns
      rcases Nat.lt_or_eq_of_le hrun with hrun | hrun
      · -- The run is shorter, so it stays in the piece.
        have hmore := ih (before ++ [run]) inside hw
        rw [List.append_assoc, List.singleton_append] at hmore
        exact hmore h (by simpa [or_imp, forall_and, hrun] using hlt) hruns
      · have hrest := ih [] (!inside) h.right.2.1 h.right.2.2.2 (by simp) hruns
        rw [List.nil_append] at hrest
        rw [splitOnText_append hk hw h hlt hrun, alternate_styled hunion, List.flatMap_cons,
          hpass inside w before hw h.left hlt, hrest,
          pieces_append h.left.pos (hrun ▸ hlt) (hrun ▸ hle), hrun, htoggle]

/-! ## All passes -/

lemma emphasizeRune_styled (delimiter : String) (emphasis : Emphasis) (o : OpenStars)
    (text : List Char) : emphasizeRune delimiter emphasis (styled o text)
      = alternate (styled o text) emphasis false (splitOnText delimiter.toList text) := by
  rw [emphasizeRune, styled, String.toList_ofList]
  cases splitOnText delimiter.toList text <;> rfl

lemma emphasizeRune_one {o : OpenStars} (ho : o.one = false) (hw : '*' ∉ w)
    (h : IsSeparated runs) (hle : ∀ run ∈ runs, run.stars ≤ 1) :
    emphasizeRune "*" ⟨false, true⟩ (styled o (starText w runs)) = pieces o w runs := by
  have hdelimiter : "*".toList = stars 1 := rfl
  rw [emphasizeRune_styled, hdelimiter, ← List.flatMap_singleton' (alternate _ _ _ _)]
  refine flatMap_alternate (by decide) (by decide) ?_ ?_ ?_ _ [] false hw h
    (by simp) hle
  · obtain ⟨three, two, one⟩ := o
    simp [OpenStars.toggle]
  · obtain ⟨three, two, one⟩ := o
    simp_all [OpenStars.toggle, OpenStars.emphasis, Emphasis.union]
  · -- There are no shorter runs.
    intro inside w runs _ h hlt
    cases runs with
    | nil => rfl
    | cons run runs => exact absurd (hlt run List.mem_cons_self) (Nat.not_lt.mpr h.1)

lemma flatMap_emphasizeRune_two {o : OpenStars} (htwo : o.two = false) (hone : o.one = false)
    (hw : '*' ∉ w) (h : IsSeparated runs) (hle : ∀ run ∈ runs, run.stars ≤ 2) :
    (emphasizeRune "**" ⟨true, false⟩ (styled o (starText w runs))).flatMap
      (emphasizeRune "*" ⟨false, true⟩) = pieces o w runs := by
  have hdelimiter : "**".toList = stars 2 := rfl
  rw [emphasizeRune_styled, hdelimiter]
  refine flatMap_alternate (by decide) (by decide) ?_ ?_ ?_ _ [] false hw h
    (by simp) hle
  · obtain ⟨three, two, one⟩ := o
    simp_all [OpenStars.toggle]
  · obtain ⟨three, two, one⟩ := o
    simp_all [OpenStars.toggle, OpenStars.emphasis, Emphasis.union]
  · intro inside w runs hw h hlt
    have ho : (o.within 2 inside).one = false := by
      cases inside with
      | false => exact hone
      | true => rfl
    exact emphasizeRune_one ho hw h fun run hrun => Nat.le_of_lt_succ (hlt run hrun)

/-- A text with runs of stars is read by the three passes of emphasis as it is by one. -/
theorem emphasizeAll_starText (hw : '*' ∉ w) (h : IsSeparated runs)
    (hle : ∀ run ∈ runs, run.stars ≤ 3) :
    emphasizeAll [.plain (String.ofList (starText w runs))] = pieces {} w runs := by
  have hdelimiter : "***".toList = stars 3 := rfl
  have hplain : Rune.plain (String.ofList (starText w runs)) = styled {} (starText w runs) := rfl
  rw [emphasizeAll, emphasize, emphasize, emphasize, List.flatMap_singleton, List.flatMap_assoc,
    hplain, emphasizeRune_styled, hdelimiter]
  refine flatMap_alternate (by decide) (by decide) rfl rfl ?_ _ [] false hw h
    (by simp) hle
  intro inside w runs hw h hlt
  have ho : (OpenStars.within {} 3 inside).two = false ∧
      (OpenStars.within {} 3 inside).one = false := by
    cases inside <;> exact ⟨rfl, rfl⟩
  exact flatMap_emphasizeRune_two ho.1 ho.2 hw h fun run hrun => Nat.le_of_lt_succ (hlt run hrun)

end ReportPress.Inline
