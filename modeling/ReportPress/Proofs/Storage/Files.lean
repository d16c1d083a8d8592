import Mathlib.Data.List.Infix
import ReportPress.Proofs.Storage.Paths
import ReportPress.Storage.Files

/-!
# What changes in a file system

A path leads to a place through directories only.  So what is done to a place that is no directory
changes neither where other paths lead nor what is there.

* `IsRooted` — all places above a place are directories.
* `next` — the place that a name leads to from a directory.
* `follow_cons_eq_ok_iff`, `locate_eq_ok_iff` — when names and a path lead to a place.
* `names_locate` — a path leads to its last name in a directory; `locate_congr` and `locate_ne`
  compare paths by their names.

**Elsewhere.**  `follow_congr` — names lead to the same place wherever the directories that they
pass are still there.  `find_set_iff` and `find_without_iff` are drawn from it: nothing changes
about what other paths lead to.

**What is done.**  `exists_of_write`, `remove_eq_ok_iff`, `removeTree_eq_ok_iff` and
`rename_eq_ok_iff` say of each change when it can be made and what it does to the places.
-/

namespace ReportPress.Files

variable {fs fs' : Files} {here t x y : List String} {names front : List String}
  {name other : String} {place : Stored} {p q : Path}

/-! ## Places -/

@[simp] lemma get?_nil (fs : Files) : fs.get? [] = some .directory := rfl

lemma lookup_filter (q : List String → Bool) (places : List (List String × Stored))
    (n : List String) : (places.filter fun place => q place.1).lookup n
      = if q n then places.lookup n else none := by
  induction places with
  | nil => simp
  | cons first rest ih =>
      obtain ⟨key, value⟩ := first
      rw [List.filter_cons]
      by_cases hkey : n = key
      · subst hkey
        by_cases hq : q n = true <;> simp [hq, ih]
      · have hne : (n == key) = false := by simpa using hkey
        by_cases hq : q key = true <;> simp [hq, ih, List.lookup_cons, hne]

/-- What is at a place after something was put at a place. -/
lemma get?_set (ht : t ≠ []) (n : List String) :
    (fs.set t place).get? n = if n = t then some place else fs.get? n := by
  by_cases hn : n = []
  · rw [hn, get?_nil, get?_nil, if_neg (Ne.symm ht)]
  · by_cases hnt : n = t
    · rw [if_pos hnt, get?, if_neg hn, set, hnt]
      simp
    · have hne : (n == t) = false := by simpa using hnt
      have hfilter := lookup_filter (fun other => other ≠ t) fs.places n
      rw [if_neg hnt, get?, get?, if_neg hn, if_neg hn, set, List.lookup_cons, hne]
      simpa [hnt] using hfilter

/-- What is at a place after a place was taken away with all below it. -/
lemma get?_without (ht : t ≠ []) (n : List String) :
    (fs.without t).get? n = if t <+: n then none else fs.get? n := by
  by_cases hn : n = []
  · rw [hn, get?_nil, get?_nil, if_neg (by simpa using ht)]
  · have hfilter := lookup_filter (fun other => !t.isPrefixOf other) fs.places n
    rw [get?, get?, if_neg hn, if_neg hn, without, hfilter]
    by_cases hprefix : t <+: n
    · rw [if_pos hprefix, if_neg (by simpa using List.isPrefixOf_iff_prefix.mpr hprefix)]
    · rw [if_neg hprefix, if_pos (by simpa [← List.isPrefixOf_iff_prefix] using hprefix)]

/-! ## Following names -/

/-- All places above a place are directories. -/
def IsRooted (fs : Files) (here : List String) : Prop :=
  ∀ above, above <+: here → above ≠ here → fs.get? above = some .directory

/-- The place that a name leads to from a directory. -/
def next (here : List String) (name : String) : List String :=
  if Path.isVoid name then here else if name = ".." then here.dropLast else here ++ [name]

lemma isRooted_nil (fs : Files) : fs.IsRooted [] := by
  intro above habove hne
  exact absurd (List.prefix_nil.mp habove) hne

lemma IsRooted.next (h : fs.IsRooted here) (hhere : fs.get? here = some .directory)
    (name : String) : fs.IsRooted (next here name) := by
  have hall : ∀ above, above <+: here → fs.get? above = some .directory := by
    intro above habove
    by_cases heq : above = here
    · rw [heq, hhere]
    · exact h above habove heq
  unfold Files.next
  split_ifs
  · exact h
  · exact fun above habove _ => hall above (habove.trans (List.dropLast_prefix here))
  · intro above habove hne
    exact hall above ((List.prefix_concat_iff.mp habove).resolve_left hne)

/-- What is above a directory is one. -/
lemma IsRooted.get?_next_dots (h : fs.IsRooted here) (hhere : fs.get? here = some .directory) :
    fs.get? (Files.next here "..") = some .directory := by
  have hnext : Files.next here ".." = here.dropLast := rfl
  rw [hnext]
  by_cases htop : here.dropLast = here
  · rw [htop, hhere]
  · exact h _ (List.dropLast_prefix here) htop

/-- Names lead on from a directory, if the first is not too long. -/
lemma follow_cons_eq_ok_iff :
    fs.follow here (name :: names) = .ok x ↔ fs.get? here = some .directory ∧
      (Path.isVoid name = true ∨ name = ".." ∨ name.utf8ByteSize ≤ maxName) ∧
        fs.follow (next here name) names = .ok x := by
  rw [follow]
  cases hhere : fs.get? here with
  | none => simp
  | some stored =>
      cases stored with
      | file f => simp
      | directory =>
          unfold next
          split_ifs with hvoid hdots hlong
          · simp [hvoid]
          · simp [hdots]
          · simp [hvoid, hdots, Nat.not_le.mpr hlong]
          · simp [Nat.not_lt.mp hlong]

lemma follow_nil_eq_ok_iff : fs.follow here [] = .ok x ↔ here = x := by
  rw [follow, Except.ok.injEq]

/-- Names lead to the same place wherever the directories that they pass are still there. -/
lemma follow_congr
    (hkeep : ∀ here, fs.IsRooted here → fs.get? here = some .directory →
      fs'.get? here = some .directory) (hroot : fs.IsRooted here)
    (h : fs.follow here names = .ok x) : fs'.follow here names = .ok x ∧ fs.IsRooted x := by
  induction names generalizing here with
  | nil =>
      rw [follow_nil_eq_ok_iff] at h ⊢
      exact ⟨h, h ▸ hroot⟩
  | cons name names ih =>
      obtain ⟨hhere, hname, hrest⟩ := follow_cons_eq_ok_iff.mp h
      obtain ⟨hfollow, hx⟩ := ih (hroot.next hhere name) hrest
      exact ⟨follow_cons_eq_ok_iff.mpr ⟨hkeep here hroot hhere, hname, hfollow⟩, hx⟩

lemma follow_append_eq_ok_iff : fs.follow here (front ++ names) = .ok x ↔
    ∃ middle, fs.follow here front = .ok middle ∧ fs.follow middle names = .ok x := by
  induction front generalizing here with
  | nil => simp [follow_nil_eq_ok_iff]
  | cons name front ih =>
      rw [List.cons_append, follow_cons_eq_ok_iff, ih]
      simp only [follow_cons_eq_ok_iff, and_assoc, exists_and_left]

/-- Void names lead nowhere else. -/
lemma follow_filter (h : fs.follow here names = .ok x) :
    fs.follow here (names.filter fun name => !Path.isVoid name) = .ok x := by
  induction names generalizing here with
  | nil => exact h
  | cons name names ih =>
      obtain ⟨hhere, hname, hrest⟩ := follow_cons_eq_ok_iff.mp h
      have hrest := ih hrest
      rw [List.filter_cons]
      split_ifs with hvoid
      · exact follow_cons_eq_ok_iff.mpr ⟨hhere, hname, hrest⟩
      · rwa [next, if_pos (by simpa using hvoid)] at hrest

/-! ## Locating paths -/

/-- A path that some file system could have. -/
structure IsUsable (p : Path) : Prop where
  nonempty : p.text ≠ ""
  noNull : '\x00' ∉ p.text.toList
  short : p.text.utf8ByteSize ≤ maxPath

lemma locate_eq_ok_iff : fs.locate p = .ok x ↔ IsUsable p ∧ fs.follow [] p.pieces = .ok x := by
  have husable : IsUsable p ↔ ¬ p.text.isEmpty = true ∧
      ¬ (p.text.toList.contains '\x00' || decide (maxPath < p.text.utf8ByteSize)) = true := by
    rw [String.isEmpty_iff, Bool.or_eq_true, not_or, List.contains_iff_mem, decide_eq_true_eq,
      Nat.not_lt]
    exact ⟨fun h => ⟨h.1, h.2, h.3⟩, fun h => ⟨h.1, h.2.1, h.2.2⟩⟩
  rw [husable, locate]
  split_ifs with hempty hbad
  · exact ⟨fun h => (nomatch h), fun h => absurd hempty h.1.1⟩
  · exact ⟨fun h => (nomatch h), fun h => absurd hbad h.1.2⟩
  · exact ⟨fun h => ⟨⟨hempty, hbad⟩, h⟩, And.right⟩

lemma isRooted_of_locate (h : fs.locate p = .ok x) : fs.IsRooted x :=
  (follow_congr (fun _ _ => id) (isRooted_nil fs) (locate_eq_ok_iff.mp h).2).2

/-- A path with a last name leads to that name in a directory. -/
lemma names_locate (h : fs.locate p = .ok x) (hnames : p.names = front ++ [name])
    (hname : Path.IsName name) : ∃ directory, x = directory ++ [name] := by
  have hfollow : fs.follow [] p.names = .ok x := follow_filter (locate_eq_ok_iff.mp h).2
  rw [hnames, follow_append_eq_ok_iff] at hfollow
  obtain ⟨directory, -, hlast⟩ := hfollow
  obtain ⟨-, -, hx⟩ := follow_cons_eq_ok_iff.mp hlast
  rw [follow_nil_eq_ok_iff, next, hname.notVoid, if_neg (by simp), if_neg hname.notAbove] at hx
  exact ⟨directory, hx.symm⟩

/-- A path that leads to no directory has a last name. -/
lemma exists_name_of_locate (h : fs.locate p = .ok x) (hx : fs.get? x ≠ some .directory) :
    ∃ name, Path.IsName name ∧ p.names = p.names.dropLast ++ [name] := by
  have hfollow : fs.follow [] p.names = .ok x := follow_filter (locate_eq_ok_iff.mp h).2
  obtain hnil | ⟨front, name, hnames⟩ := p.names.eq_nil_or_concat'
  · rw [hnil, follow_nil_eq_ok_iff] at hfollow
    exact absurd (hfollow ▸ get?_nil fs) hx
  · refine ⟨name, Path.isName_of_mem_names (p := p) (by simp [hnames]) ?_, by simp [hnames]⟩
    rintro rfl
    rw [hnames, follow_append_eq_ok_iff] at hfollow
    obtain ⟨directory, hfront, hlast⟩ := hfollow
    obtain ⟨hdirectory, -, hx'⟩ := follow_cons_eq_ok_iff.mp hlast
    rw [follow_nil_eq_ok_iff] at hx'
    have hroot := (follow_congr (fun _ _ => id) (isRooted_nil fs) hfront).2
    exact hx (hx' ▸ hroot.get?_next_dots hdirectory)

/-- Paths with the same names lead to the same place. -/
lemma locate_congr (hnames : p.names = q.names) (hp : fs.locate p = .ok x)
    (hq : fs.locate q = .ok y) : x = y := by
  have hp : fs.follow [] p.names = .ok x := follow_filter (locate_eq_ok_iff.mp hp).2
  have hq : fs.follow [] q.names = .ok y := follow_filter (locate_eq_ok_iff.mp hq).2
  rw [hnames, hq] at hp
  exact (Except.ok.inj hp).symm

/-- Paths that differ in their last names lead to different places. -/
lemma locate_ne (hp : p.names = front ++ [name]) (hq : q.names = front ++ [other])
    (hname : Path.IsName name) (hother : Path.IsName other) (hne : name ≠ other)
    (h : fs.locate p = .ok x) : fs.locate q ≠ .ok x := by
  intro h'
  obtain ⟨directory, hx⟩ := names_locate h hp hname
  obtain ⟨directory', hx'⟩ := names_locate h' hq hother
  exact hne (List.singleton_inj.mp (List.append_inj_right' (hx.symm.trans hx') rfl))

/-- Where a name below a path leads somewhere, so does any that can be cut out of it. -/
lemma exists_locate_join (h : fs.locate (p.join ⟨name⟩) = .ok x) (hname : Path.IsName name)
    (hne : other ≠ "") (hsubset : other.toList ⊆ name.toList)
    (hsize : other.utf8ByteSize ≤ name.utf8ByteSize) :
    ∃ y, fs.locate (p.join ⟨other⟩) = .ok y := by
  have hslash : '/' ∉ other.toList := fun hmem => hname.noSlash (hsubset hmem)
  have htext : (p.join ⟨name⟩).text = p.opening ++ name :=
    Path.text_join (Path.isAbsolute_of_not_mem hname.noSlash)
  have htext' : (p.join ⟨other⟩).text = p.opening ++ other :=
    Path.text_join (Path.isAbsolute_of_not_mem hslash)
  obtain ⟨husable, hfollow⟩ := locate_eq_ok_iff.mp h
  obtain ⟨-, hnoNull, hshort⟩ := husable
  rw [htext, String.toList_append, List.mem_append, not_or] at hnoNull
  rw [htext, String.utf8ByteSize_append] at hshort
  rw [Path.pieces_join hname.noSlash, follow_append_eq_ok_iff] at hfollow
  obtain ⟨directory, hfront, hlast⟩ := hfollow
  obtain ⟨hdirectory, hlength, -⟩ := follow_cons_eq_ok_iff.mp hlast
  have hlength := (hlength.resolve_left (by simp [hname.notVoid])).resolve_left hname.notAbove
  refine ⟨next directory other, locate_eq_ok_iff.mpr ⟨⟨?_, ?_, ?_⟩, ?_⟩⟩
  · rw [htext']
    exact fun hempty => hne (String.append_eq_empty_iff.mp hempty).2
  · rw [htext', String.toList_append, List.mem_append, not_or]
    exact ⟨hnoNull.1, fun hmem => hnoNull.2 (hsubset hmem)⟩
  · rw [htext', String.utf8ByteSize_append]
    omega
  · rw [Path.pieces_join hslash, follow_append_eq_ok_iff]
    exact ⟨directory, hfront, follow_cons_eq_ok_iff.mpr
      ⟨hdirectory, Or.inr (Or.inr (hsize.trans hlength)), follow_nil_eq_ok_iff.mpr rfl⟩⟩

/-! ## What paths lead to -/

lemma find_eq_ok_iff :
    fs.find p = .ok place ↔ ∃ t, fs.locate p = .ok t ∧ fs.get? t = some place := by
  rw [find]
  cases hlocate : fs.locate p with
  | error fault => simp [bind, Except.bind]
  | ok t =>
      cases hplace : fs.get? t with
      | none => simp [bind, Except.bind, hplace, throw, throwThe, MonadExceptOf.throw]
      | some stored => simp [bind, Except.bind, hplace, pure, Except.pure]

lemma isPresent_iff_find : fs.isPresent p = true ↔ ∃ place, fs.find p = .ok place := by
  rw [isPresent]
  cases fs.find p <;> simp [Except.toOption]

lemma isPresent_iff :
    fs.isPresent p = true ↔ ∃ t place, fs.locate p = .ok t ∧ fs.get? t = some place := by
  simp only [isPresent_iff_find, find_eq_ok_iff]
  exact ⟨fun ⟨place, t, h⟩ => ⟨t, place, h⟩, fun ⟨t, place, h⟩ => ⟨place, t, h⟩⟩

lemma isDirectory_iff :
    fs.isDirectory p = true ↔ ∃ t, fs.locate p = .ok t ∧ fs.get? t = some .directory := by
  rw [← find_eq_ok_iff, isDirectory]
  split
  case h_1 h => simp [h]
  case h_2 h => simpa using h

/-- A file is no directory. -/
lemma not_isDirectory_of_fileAt {f : File} (h : fs.fileAt p = .ok f) :
    ¬ fs.isDirectory p = true := by
  intro hdirectory
  rw [isDirectory] at hdirectory
  rw [fileAt] at h
  split at hdirectory
  case h_1 hfind => exact nomatch hfind ▸ h
  case h_2 => exact nomatch hdirectory

lemma fileAt_eq_ok_iff {f : File} :
    fs.fileAt p = .ok f ↔ ∃ t, fs.locate p = .ok t ∧ fs.get? t = some (.file f) := by
  rw [← find_eq_ok_iff, fileAt]
  cases hfind : fs.find p with
  | error fault => simp [bind, Except.bind]
  | ok stored =>
      cases stored <;> simp [bind, Except.bind, pure, Except.pure, throw, throwThe,
        MonadExceptOf.throw]

/-- Where a file could be opened for writing, there is no directory. -/
lemma get?_ne_of_isLocked {locked : Bool} (h : fs.isLocked p = .ok locked)
    (hp : fs.locate p = .ok t) : fs.get? t ≠ some .directory := by
  intro hplace
  have hfile : fs.fileAt p = .error .isDirectory := by
    rw [fileAt, find_eq_ok_iff.mpr ⟨t, hp, hplace⟩]
    rfl
  rw [isLocked, hfile] at h
  exact nomatch h

lemma isPresent_of_isDirectory (h : fs.isDirectory p = true) : fs.isPresent p = true := by
  obtain ⟨t, ht, hplace⟩ := isDirectory_iff.mp h
  exact isPresent_iff.mpr ⟨t, _, ht, hplace⟩

lemma isPresent_of_fileAt {f : File} (h : fs.fileAt p = .ok f) : fs.isPresent p = true := by
  obtain ⟨t, ht, hplace⟩ := fileAt_eq_ok_iff.mp h
  exact isPresent_iff.mpr ⟨t, _, ht, hplace⟩

/-! ## Elsewhere -/

lemma ne_nil_of_get?_ne (ht : fs.get? t ≠ some .directory) : t ≠ [] :=
  fun htop => ht (htop ▸ get?_nil fs)

/-- Nothing that paths pass is below a place that is no directory. -/
lemma IsRooted.not_above (hroot : fs.IsRooted here) (ht : fs.get? t ≠ some .directory)
    (hne : t ≠ here) : ¬ t <+: here :=
  fun hprefix => ht (hroot t hprefix hne)

/-- Something else at a place that is no directory changes no path. -/
lemma locate_set (ht : fs.get? t ≠ some .directory) (h : fs.locate p = .ok x) :
    (fs.set t place).locate p = .ok x := by
  obtain ⟨husable, hfollow⟩ := locate_eq_ok_iff.mp h
  refine locate_eq_ok_iff.mpr ⟨husable, (follow_congr (fun here _ hhere => ?_)
    (isRooted_nil fs) hfollow).1⟩
  rw [get?_set (ne_nil_of_get?_ne ht), if_neg, hhere]
  rintro rfl
  exact ht hhere

lemma locate_without (ht : fs.get? t ≠ some .directory) (h : fs.locate p = .ok x) :
    (fs.without t).locate p = .ok x := by
  obtain ⟨husable, hfollow⟩ := locate_eq_ok_iff.mp h
  refine locate_eq_ok_iff.mpr ⟨husable, (follow_congr (fun here hroot hhere => ?_)
    (isRooted_nil fs) hfollow).1⟩
  have hne : t ≠ here := by
    rintro rfl
    exact ht hhere
  rw [get?_without (ne_nil_of_get?_ne ht), if_neg (hroot.not_above ht hne), hhere]

/-- Where a path leads when a place has been taken away, it led before. -/
lemma locate_of_without (htop : t ≠ []) (h : (fs.without t).locate p = .ok x) :
    fs.locate p = .ok x := by
  obtain ⟨husable, hfollow⟩ := locate_eq_ok_iff.mp h
  refine locate_eq_ok_iff.mpr ⟨husable, (follow_congr (fun here _ hhere => ?_)
    (isRooted_nil _) hfollow).1⟩
  rw [get?_without htop] at hhere
  split_ifs at hhere
  exact hhere

lemma get?_without_of_locate (ht : fs.get? t ≠ some .directory) (h : fs.locate p = .ok x)
    (hne : t ≠ x) : (fs.without t).get? x = fs.get? x := by
  rw [get?_without (ne_nil_of_get?_ne ht), if_neg ((isRooted_of_locate h).not_above ht hne)]

/-- Where a path leads when a file has been put at a place, it led before. -/
lemma locate_of_set {f : File} (htop : t ≠ []) (h : (fs.set t (.file f)).locate p = .ok x) :
    fs.locate p = .ok x := by
  obtain ⟨husable, hfollow⟩ := locate_eq_ok_iff.mp h
  refine locate_eq_ok_iff.mpr ⟨husable, (follow_congr (fun here _ hhere => ?_)
    (isRooted_nil _) hfollow).1⟩
  rw [get?_set htop] at hhere
  split_ifs at hhere
  · exact nomatch hhere
  · exact hhere

/-- A file that is put at a place changes nothing about what other paths lead to. -/
lemma find_set_iff {f : File} (ht : fs.get? t ≠ some .directory) (hne : fs.locate p ≠ .ok t) :
    (fs.set t (.file f)).find p = .ok place ↔ fs.find p = .ok place := by
  have htop := ne_nil_of_get?_ne ht
  have helse {x} (hx : fs.locate p = .ok x) : (fs.set t (.file f)).get? x = fs.get? x := by
    rw [get?_set htop, if_neg]
    rintro rfl
    exact hne hx
  rw [find_eq_ok_iff, find_eq_ok_iff]
  constructor
  · rintro ⟨x, hx, hplace⟩
    have hx' := locate_of_set htop hx
    exact ⟨x, hx', helse hx' ▸ hplace⟩
  · rintro ⟨x, hx, hplace⟩
    exact ⟨x, locate_set ht hx, (helse hx).trans hplace⟩

/-- Nor does a place that is taken away. -/
lemma find_without_iff (ht : fs.get? t ≠ some .directory) (hne : fs.locate p ≠ .ok t) :
    (fs.without t).find p = .ok place ↔ fs.find p = .ok place := by
  have helse {x} (hx : fs.locate p = .ok x) : (fs.without t).get? x = fs.get? x := by
    refine get?_without_of_locate ht hx ?_
    rintro rfl
    exact hne hx
  rw [find_eq_ok_iff, find_eq_ok_iff]
  constructor
  · rintro ⟨x, hx, hplace⟩
    have hx' := locate_of_without (ne_nil_of_get?_ne ht) hx
    exact ⟨x, hx', helse hx' ▸ hplace⟩
  · rintro ⟨x, hx, hplace⟩
    exact ⟨x, locate_without ht hx, (helse hx).trans hplace⟩

/-- A file stays as it is when something else happens at another place. -/
lemma fileAt_set {f g : File} (ht : fs.get? t ≠ some .directory) (h : fs.fileAt p = .ok f)
    (hne : fs.locate p ≠ .ok t) : (fs.set t (.file g)).fileAt p = .ok f := by
  rw [fileAt_eq_ok_iff, ← find_eq_ok_iff] at h ⊢
  exact (find_set_iff ht hne).mpr h

lemma fileAt_without {f : File} (ht : fs.get? t ≠ some .directory) (h : fs.fileAt p = .ok f)
    (hne : fs.locate p ≠ .ok t) : (fs.without t).fileAt p = .ok f := by
  rw [fileAt_eq_ok_iff, ← find_eq_ok_iff] at h ⊢
  exact (find_without_iff ht hne).mpr h

/-- What was put at a place is there. -/
lemma fileAt_set_self {f : File} (ht : fs.get? t ≠ some .directory) (h : fs.locate p = .ok t) :
    (fs.set t (.file f)).fileAt p = .ok f := by
  refine fileAt_eq_ok_iff.mpr ⟨t, locate_set ht h, ?_⟩
  rw [get?_set (ne_nil_of_get?_ne ht), if_pos rfl]

/-- Nothing is at a place that was taken away. -/
lemma not_isPresent_without (htop : t ≠ []) (h : fs.locate p = .ok t) :
    ¬ (fs.without t).isPresent p = true := by
  rw [isPresent_iff]
  rintro ⟨x, place, hx, hplace⟩
  obtain rfl : t = x := Except.ok.inj (h.symm.trans (locate_of_without htop hx))
  rw [get?_without htop, if_pos List.prefix_rfl] at hplace
  exact nomatch hplace

/-- No directory appears where a place is taken away. -/
lemma get?_without_ne (htop : t ≠ []) (hy : fs.get? y ≠ some .directory) :
    (fs.without t).get? y ≠ some .directory := by
  rw [get?_without htop]
  split_ifs
  · exact nofun
  · exact hy

lemma isDirectory_of_without (htop : t ≠ []) (h : (fs.without t).isDirectory p = true) :
    fs.isDirectory p = true := by
  obtain ⟨x, hx, hplace⟩ := isDirectory_iff.mp h
  refine isDirectory_iff.mpr ⟨x, locate_of_without htop hx, ?_⟩
  by_contra hne
  exact get?_without_ne htop hne hplace

lemma isPresent_without_iff (ht : fs.get? t ≠ some .directory) (hne : fs.locate p ≠ .ok t) :
    (fs.without t).isPresent p = true ↔ fs.isPresent p = true := by
  simp only [isPresent_iff_find, find_without_iff ht hne]

/-! ## What is done -/

lemma exists_of_write {content : FileContent} (h : fs.write p content = .ok fs') :
    ∃ t f, fs.locate p = .ok t ∧ fs.get? t ≠ some .directory ∧ f.content = content ∧
      fs' = fs.set t (.file f) := by
  rw [write, locateFile] at h
  cases hlocate : fs.locate p with
  | error fault => simp [hlocate, bind, Except.bind] at h
  | ok t =>
      simp only [hlocate, bind, Except.bind] at h
      cases hplace : fs.get? t with
      | none =>
          simp only [hplace, pure, Except.pure, Except.ok.injEq] at h
          exact ⟨t, _, rfl, by simp [hplace], rfl, h.symm⟩
      | some stored =>
          cases stored with
          | directory => simp [hplace, throw, throwThe, MonadExceptOf.throw] at h
          | file f =>
              cases hheld : f.held with
              | true => simp [hplace, hheld, throw, throwThe, MonadExceptOf.throw] at h
              | false =>
                  simp only [hplace, hheld, pure, Except.pure, Bool.false_eq_true, if_false,
                    Except.ok.injEq] at h
                  exact ⟨t, _, rfl, by simp [hplace], rfl, h.symm⟩

lemma remove_eq_ok_iff :
    fs.remove p = .ok fs' ↔ ∃ t f, fs.locate p = .ok t ∧ fs.get? t = some (.file f) ∧
      fs' = fs.without t := by
  rw [remove]
  cases hfind : fs.find p with
  | error fault =>
      simp only [bind, Except.bind, reduceCtorEq, false_iff]
      rintro ⟨t, f, ht, hf, -⟩
      exact nomatch hfind.symm.trans (find_eq_ok_iff.mpr ⟨t, ht, hf⟩)
  | ok stored =>
      obtain ⟨t, ht, hstored⟩ := find_eq_ok_iff.mp hfind
      cases stored <;> simp [bind, Except.bind, pure, Except.pure, throw, throwThe,
        MonadExceptOf.throw, ht, hstored, eq_comm]

lemma removeTree_eq_ok_iff :
    fs.removeTree p = .ok fs' ↔ ∃ t, fs.locate p = .ok t ∧ fs.get? t = some .directory ∧
      fs' = fs.without t := by
  rw [removeTree]
  cases hfind : fs.find p with
  | error fault =>
      simp only [bind, Except.bind, reduceCtorEq, false_iff]
      rintro ⟨t, ht, hf, -⟩
      exact nomatch hfind.symm.trans (find_eq_ok_iff.mpr ⟨t, ht, hf⟩)
  | ok stored =>
      obtain ⟨t, ht, hstored⟩ := find_eq_ok_iff.mp hfind
      cases stored <;> simp [bind, Except.bind, pure, Except.pure, throw, throwThe,
        MonadExceptOf.throw, ht, hstored, eq_comm]

/-- A directory that is not found is not there. -/
lemma not_isPresent_of_removeTree (h : fs.removeTree p = .error .notFound) :
    ¬ fs.isPresent p = true := by
  rw [isPresent_iff]
  rintro ⟨t, place, ht, hplace⟩
  have hfind := find_eq_ok_iff.mpr ⟨t, ht, hplace⟩
  cases place with
  | directory => exact nomatch h.symm.trans (removeTree_eq_ok_iff.mpr ⟨t, ht, hplace, rfl⟩)
  | file f =>
      rw [removeTree, hfind] at h
      exact nomatch h

lemma rename_eq_ok_iff {old new : Path} :
    fs.rename old new = .ok fs' ↔ ∃ t u f, fs.locate old = .ok t ∧ fs.get? t = some (.file f) ∧
      fs.locate new = .ok u ∧ fs.get? u ≠ some .directory ∧
        fs' = (fs.without t).set u (.file f) := by
  rw [rename]
  cases hfile : fs.fileAt old with
  | error fault =>
      simp only [bind, Except.bind, reduceCtorEq, false_iff]
      rintro ⟨t, u, f, ht, hf, -⟩
      exact nomatch hfile.symm.trans (fileAt_eq_ok_iff.mpr ⟨t, ht, hf⟩)
  | ok f =>
      obtain ⟨t, ht, hf⟩ := fileAt_eq_ok_iff.mp hfile
      cases hu : fs.locate new with
      | error fault => simp [bind, Except.bind, ht]
      | ok u =>
          by_cases hdirectory : fs.get? u = some .directory
          · simp [bind, Except.bind, ht, hdirectory, throw, throwThe, MonadExceptOf.throw]
          · simp [bind, Except.bind, pure, Except.pure, ht, hf, Ne.symm hdirectory, eq_comm]

end ReportPress.Files
