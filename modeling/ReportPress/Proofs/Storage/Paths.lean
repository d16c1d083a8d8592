import ReportPress.Proofs.Text.Words
import ReportPress.Storage.Path

/-!
# The names of paths

A path is a text, but what it leads to depends on its names only.  Here is what happens to these
when paths are put together and taken apart.

* `namesIn` — the names between the slashes of a text.
* `IsName` — a name that something in a directory can have.
* `opening` — what stands before all paths below a path.

**Joining.**  `Path.names_join` — the names of a path below another stand behind those of the other.

**Cleaning.**  `Path.names_cleaned` — a path has the same names when it has been cleaned.

**Above.**  `Path.names_directory` — the directory of a path has all of its names but the last.

**Extensions.**  `Path.cutName_eq_some_iff` — a name is cut at its last dot.
-/

namespace ReportPress

open Text

namespace Path

variable {p below : Path} {name : String} {ns : List String}

/-- The names between the slashes of a text. -/
def namesIn (cs : List Char) : List String :=
  ((splitOn '/' cs).map String.ofList).filter fun name => !isVoid name

lemma names_eq (p : Path) : p.names = namesIn p.text.toList := rfl

lemma namesIn_nil : namesIn [] = [] := rfl

lemma namesIn_slash (before after : List Char) :
    namesIn (before ++ '/' :: after) = namesIn before ++ namesIn after := by
  rw [namesIn, splitOn_append_cons, List.map_append, List.filter_append]
  rfl

lemma namesIn_root (cs : List Char) : namesIn ('/' :: cs) = namesIn cs :=
  namesIn_slash [] cs

/-- A text without slashes is a name. -/
lemma namesIn_of_not_mem {cs : List Char} (h : '/' ∉ cs) :
    namesIn cs = [String.ofList cs].filter fun name => !isVoid name := by
  rw [namesIn, splitOn_of_not_mem h, List.map_singleton]

/-- Names have no slashes in them. -/
lemma not_mem_of_mem_names (h : name ∈ p.names) : '/' ∉ name.toList := by
  obtain ⟨piece, hpiece, rfl⟩ := List.mem_map.mp (List.mem_of_mem_filter h)
  rw [String.toList_ofList]
  exact not_mem_of_mem_splitOn hpiece

lemma not_isVoid_of_mem_names (h : name ∈ p.names) : isVoid name = false := by
  simpa using (List.mem_filter.mp h).2

/-- A name that something in a directory can have. -/
structure IsName (name : String) : Prop where
  noSlash : '/' ∉ name.toList
  notVoid : isVoid name = false
  notAbove : name ≠ ".."

instance (name : String) : Decidable (IsName name) :=
  decidable_of_iff ('/' ∉ name.toList ∧ isVoid name = false ∧ name ≠ "..")
    ⟨fun h => ⟨h.1, h.2.1, h.2.2⟩, fun h => ⟨h.1, h.2, h.3⟩⟩

lemma IsName.ne_empty (h : IsName name) : name ≠ "" := by
  rintro rfl
  exact absurd h.notVoid (by decide)

lemma isName_of_mem_names (h : name ∈ p.names) (hname : name ≠ "..") : IsName name :=
  ⟨not_mem_of_mem_names h, not_isVoid_of_mem_names h, hname⟩

/-- Names that are joined are found again, but for the void ones. -/
lemma namesIn_joined (h : ∀ name ∈ ns, '/' ∉ name.toList) :
    namesIn (joined "/" ns).toList = ns.filter fun name => !isVoid name := by
  cases ns with
  | nil => rfl
  | cons first rest =>
      have hpieces : ∀ piece ∈ (first :: rest).map String.toList, '/' ∉ piece := by
        intro piece hpiece
        obtain ⟨name, hname, rfl⟩ := List.mem_map.mp hpiece
        exact h name hname
      have hsplit : splitOn '/' (joined "/" (first :: rest)).toList
          = (first :: rest).map String.toList := by
        rw [joined, String.toList_ofList]
        exact splitOn_joinWith (by simp) hpieces
      rw [namesIn, hsplit, List.map_map]
      simp

/-! ## Joining -/

/-- What stands before the names below a path. -/
def opening (p : Path) : String :=
  if p.text.isEmpty || p.text.toList.getLast? = some '/' then p.text else p.text ++ "/"

lemma opening_eq (p : Path) :
    p.opening = "" ∨ ∃ front : List Char, p.opening.toList = front ++ ['/'] := by
  rw [opening]
  split_ifs with h
  · obtain hempty | hslash := (Bool.or_eq_true _ _).mp h
    · exact Or.inl (String.isEmpty_iff.mp hempty)
    · exact Or.inr ⟨_, (List.dropLast_append_getLast? _ (by simpa using hslash)).symm⟩
  · exact Or.inr ⟨p.text.toList, String.toList_append⟩

lemma namesIn_opening (p : Path) : namesIn p.opening.toList = p.names := by
  rw [opening]
  split_ifs
  · rfl
  · have hslash : "/".toList = '/' :: [] := rfl
    rw [String.toList_append, hslash, namesIn_slash, namesIn_nil, List.append_nil]
    rfl

lemma text_join (h : below.isAbsolute = false) :
    (p.join below).text = p.opening ++ below.text := by
  rw [join, h, if_neg (by simp), opening]
  split_ifs <;> rfl

/-- The names of a path below another stand behind those of the other. -/
theorem names_join (h : below.isAbsolute = false) :
    (p.join below).names = p.names ++ below.names := by
  rw [names_eq, text_join h, String.toList_append, ← p.namesIn_opening]
  obtain hempty | ⟨front, hfront⟩ := p.opening_eq
  · rw [hempty]
    rfl
  · rw [hfront, List.append_assoc, List.singleton_append, namesIn_slash, namesIn_slash,
      namesIn_nil, List.append_nil]
    rfl

lemma isAbsolute_of_not_mem (hslash : '/' ∉ name.toList) :
    (⟨name⟩ : Path).isAbsolute = false := by
  rw [isAbsolute, decide_eq_false_iff_not]
  exact fun hhead => hslash (List.mem_of_mem_head? hhead)

/-- A name is a path. -/
lemma names_name (h : IsName name) : (⟨name⟩ : Path).names = [name] := by
  rw [names_eq, namesIn_of_not_mem h.noSlash, String.ofList_toList]
  simp [h.notVoid]

/-- Names below a path stand behind the same pieces. -/
lemma pieces_join (hslash : '/' ∉ name.toList) :
    (p.join ⟨name⟩).pieces = (⟨p.opening⟩ : Path).pieces.dropLast ++ [name] := by
  rw [pieces, pieces, text_join (isAbsolute_of_not_mem hslash), String.toList_append]
  obtain hempty | ⟨front, hfront⟩ := p.opening_eq
  · have hnil : "".toList = [] := rfl
    rw [hempty, hnil, List.nil_append, splitOn_of_not_mem hslash, List.map_singleton,
      String.ofList_toList]
    rfl
  · rw [hfront, List.append_assoc, List.singleton_append, splitOn_append_cons,
      splitOn_append_cons, List.map_append, List.map_append, splitOn_of_not_mem hslash,
      splitOn_of_not_mem List.not_mem_nil, List.map_singleton, List.map_singleton,
      List.dropLast_concat, String.ofList_toList]

/-! ## Cleaning -/

lemma root_eq (p : Path) : p.root = "//" ∨ p.root = "/" := by
  rw [root]
  split_ifs
  · exact Or.inl rfl
  · exact Or.inr rfl

lemma isAbsolute_cleaned (p : Path) : p.cleaned.isAbsolute = true := by
  rw [isAbsolute, cleaned, decide_eq_true_eq]
  obtain hroot | hroot := p.root_eq <;> simp [hroot]

lemma filter_names (p : Path) : p.names.filter (fun name => !isVoid name) = p.names := by
  rw [List.filter_eq_self]
  intro name hname
  rw [not_isVoid_of_mem_names hname]
  rfl

/-- A path has the same names when it has been cleaned. -/
theorem names_cleaned (p : Path) : p.cleaned.names = p.names := by
  have hjoined : namesIn (joined "/" p.names).toList = p.names := by
    rw [namesIn_joined fun _ => not_mem_of_mem_names, filter_names]
  have hlast (last : String) (h : last = "/" ∨ last = "") :
      namesIn ((joined "/" p.names).toList ++ last.toList) = p.names := by
    obtain rfl | rfl := h
    · have hslash : "/".toList = '/' :: [] := rfl
      rw [hslash, namesIn_slash, hjoined, namesIn_nil, List.append_nil]
    · have hempty : "".toList = [] := rfl
      rw [hempty, List.append_nil, hjoined]
  rw [names_eq, cleaned, String.toList_append, String.toList_append, List.append_assoc]
  have hroot (cs : List Char) : namesIn (p.root.toList ++ cs) = namesIn cs := by
    obtain hroot | hroot := p.root_eq
    · have htwo : p.root.toList = ['/', '/'] := by rw [hroot]; rfl
      rw [htwo, List.cons_append, List.singleton_append, namesIn_root, namesIn_root]
    · have hone : p.root.toList = ['/'] := by rw [hroot]; rfl
      rw [hone, List.singleton_append, namesIn_root]
  rw [hroot]
  refine hlast _ ?_
  split_ifs
  · exact Or.inl rfl
  · exact Or.inr rfl

/-! ## Above -/

/-- Only void names are dropped. -/
lemma exists_dropVoid (ns : List String) :
    ∃ tail, ns = dropVoid ns ++ tail ∧ ∀ name ∈ tail, isVoid name = true := by
  refine ⟨(ns.reverse.takeWhile isVoid).reverse, ?_, fun name hname => ?_⟩
  · rw [dropVoid, ← List.reverse_append, List.takeWhile_append_dropWhile, List.reverse_reverse]
  · exact List.mem_takeWhile_imp (List.mem_reverse.mp hname)

lemma filter_dropVoid (ns : List String) :
    (dropVoid ns).filter (fun name => !isVoid name) = ns.filter fun name => !isVoid name := by
  obtain ⟨tail, hns, htail⟩ := exists_dropVoid ns
  have hnone : tail.filter (fun name => !isVoid name) = [] :=
    List.filter_eq_nil_iff.mpr fun name hname => by simp [htail name hname]
  conv_rhs => rw [hns, List.filter_append, hnone, List.append_nil]

/-- What is left does not end with a void name. -/
lemma not_isVoid_of_dropVoid_eq {front : List String} (h : dropVoid ns = front ++ [name]) :
    isVoid name = false := by
  rw [dropVoid, List.reverse_eq_iff, List.reverse_append, List.reverse_singleton,
    List.singleton_append] at h
  have hhead := List.head?_dropWhile_not isVoid ns.reverse
  rw [h] at hhead
  exact hhead

lemma directory?_eq_some {front : List String} (h : dropVoid (p.pieces.drop 1) = front ++ [name]) :
    p.directory? = some ⟨"/" ++ joined "/" (dropVoid front)⟩ := by
  have hfront : (front ++ [name]).dropLast = front := List.dropLast_concat
  rw [directory?, h]
  cases front with
  | nil => rfl
  | cons first front =>
      rw [List.cons_append] at hfront ⊢
      simp only [hfront]

/-- The directory of a path has all of its names but the last. -/
theorem names_directory (h : p.isAbsolute = true) :
    (p.directory?.getD ⟨""⟩).names = p.names.dropLast := by
  obtain ⟨cs, hcs⟩ : ∃ cs, p.text.toList = '/' :: cs := by
    rw [isAbsolute, decide_eq_true_eq] at h
    exact List.head?_eq_some_iff.mp h
  obtain ⟨rest, hrest⟩ : ∃ rest, rest = (splitOn '/' cs).map String.ofList := ⟨_, rfl⟩
  have hpieces : p.pieces = "" :: rest := by
    rw [pieces, hcs, hrest, splitOn, if_pos rfl]
    rfl
  have hslash : ∀ name ∈ rest, '/' ∉ name.toList := by
    intro name hname
    rw [hrest] at hname
    obtain ⟨piece, hpiece, rfl⟩ := List.mem_map.mp hname
    rw [String.toList_ofList]
    exact not_mem_of_mem_splitOn hpiece
  have hnames : p.names = (dropVoid rest).filter fun name => !isVoid name := by
    rw [filter_dropVoid, names, hpieces]
    rfl
  rw [hnames]
  obtain hnil | ⟨front, last, hfront⟩ := (dropVoid rest).eq_nil_or_concat'
  · rw [directory?, hpieces, List.drop_one, List.tail_cons, hnil]
    rfl
  · have hlast : isVoid last = false := not_isVoid_of_dropVoid_eq hfront
    have hmem : ∀ name ∈ dropVoid front, '/' ∉ name.toList := by
      intro name hname
      obtain ⟨tail, hfronts, -⟩ := exists_dropVoid front
      obtain ⟨voids, hrests, -⟩ := exists_dropVoid rest
      refine hslash name ?_
      rw [hrests, hfront, hfronts]
      simp [hname]
    have habove : p.directory? = some ⟨"/" ++ joined "/" (dropVoid front)⟩ :=
      directory?_eq_some (by rw [hpieces, List.drop_one, List.tail_cons, hfront])
    have hroot : "/".toList = ['/'] := rfl
    rw [habove, Option.getD_some, names_eq, String.toList_append, hroot, List.singleton_append,
      namesIn_root, namesIn_joined hmem, filter_dropVoid, hfront, List.filter_append]
    simp [hlast]

/-! ## The parts of a name -/

variable {front extension : String}

/-- What stands behind the last dot of a text. -/
lemma after_append {front after : List Char} (h : '.' ∉ after) :
    ((front ++ '.' :: after).reverse.takeWhile (· ≠ '.')).reverse = after := by
  have hall : ∀ c ∈ after.reverse, decide (c ≠ '.') = true := by
    intro c hc
    rw [decide_eq_true_eq]
    rintro rfl
    exact h (List.mem_reverse.mp hc)
  rw [List.reverse_append, List.reverse_cons, List.append_assoc,
    List.takeWhile_append_of_pos hall]
  simp

lemma toList_dotted (front extension : String) :
    (front ++ "." ++ extension).toList = front.toList ++ '.' :: extension.toList := by
  rw [String.toList_append, String.toList_append, List.append_assoc]
  rfl

/-- A name has no dot, or a last one. -/
lemma dot_not_mem_or_exists (name : String) :
    '.' ∉ name.toList ∨ ∃ front extension : String, '.' ∉ extension.toList ∧
      name = front ++ "." ++ extension := by
  by_cases hdot : '.' ∈ name.toList
  · obtain ⟨after, front, hname, hafter⟩ :=
      List.eq_append_cons_of_mem (List.mem_reverse.mpr hdot)
    refine Or.inr ⟨String.ofList front.reverse, String.ofList after.reverse, ?_, ?_⟩
    · rw [String.toList_ofList, List.mem_reverse]
      exact hafter
    · rw [← String.toList_inj, toList_dotted, String.toList_ofList, String.toList_ofList,
        ← List.reverse_reverse name.toList, hname]
      simp
  · exact Or.inl hdot

lemma cutName_of_dot_not_mem (h : '.' ∉ name.toList) : cutName name = (name, none) := by
  have hall : name.toList.reverse.takeWhile (· ≠ '.') = name.toList.reverse := by
    rw [List.takeWhile_eq_self_iff]
    intro c hc
    rw [decide_eq_true_eq]
    rintro rfl
    exact h (List.mem_reverse.mp hc)
  rw [cutName, hall, List.reverse_reverse, ← String.length_toList]
  simp

/-- A name is cut at its last dot, unless it begins with that. -/
lemma cutName_dotted (h : '.' ∉ extension.toList) :
    cutName (front ++ "." ++ extension)
      = if front = "" then (front ++ "." ++ extension, none) else (front, some extension) := by
  have hlength : (front ++ "." ++ extension).length - extension.toList.length - 1
      = front.toList.length := by
    rw [← String.length_toList, toList_dotted, List.length_append, List.length_cons]
    omega
  rw [cutName, toList_dotted, after_append h, hlength, List.take_left]
  simp

lemma cutName_eq_some_iff :
    cutName name = (front, some extension) ↔
      front ≠ "" ∧ '.' ∉ extension.toList ∧ name = front ++ "." ++ extension := by
  constructor
  · intro h
    obtain hdot | ⟨before, after, hafter, rfl⟩ := dot_not_mem_or_exists name
    · rw [cutName_of_dot_not_mem hdot] at h
      exact absurd h (by simp)
    · rw [cutName_dotted hafter] at h
      split_ifs at h with hbefore
      · exact absurd h (by simp)
      · obtain ⟨rfl, hsome⟩ := Prod.mk.inj h
        obtain rfl := Option.some.inj hsome
        exact ⟨hbefore, hafter, rfl⟩
  · rintro ⟨hfront, hextension, rfl⟩
    rw [cutName_dotted hextension, if_neg hfront]

/-- A name that is not cut is left whole. -/
lemma cutName_eq_none (h : (cutName name).2 = none) : (cutName name).1 = name := by
  obtain hdot | ⟨before, after, hafter, rfl⟩ := dot_not_mem_or_exists name
  · rw [cutName_of_dot_not_mem hdot]
  · rw [cutName_dotted hafter] at h ⊢
    split_ifs at h ⊢
    rfl

end Path

end ReportPress
