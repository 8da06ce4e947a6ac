import Runbook.Proofs.FileTree
import Runbook.Proofs.Slug

/-!
# Plans that are listed

A plan is made in a directory under a name of one component, so following its path is following that of the
directory and one step more (`base_of_locate_join`). Hence a plan that has been made lies right in its
directory (`exists_lies_of_create`), and with the ending of its name it is listed there (`mem_list_iff`).

There is one directory for which it is not. A plan that is made in a directory without a name is made in the
working directory, where paths without a directory lead. But the list asks whether there is a directory of
the name, and the empty name leads nowhere (`unlisted_of_unnamed`).
-/

set_option autoImplicit false

namespace Runbook

open Text

namespace Files

/-! ## Names of one component -/

/-- A name that leads from a directory to something right in it, and not to the directory itself, to the
one above or further down. -/
structure Plain (file : String) : Prop where
  some : file ≠ ""
  noDot : file ≠ "."
  noDots : file ≠ ".."
  noSlash : '/' ∉ file.toList

section Join

variable {directory file : String} (some : directory ≠ "") (plain : Plain file)

include plain in
theorem Plain.relative : isAbsolute file = false := by
  rw [isAbsolute, beq_eq_false_iff_ne]
  exact fun h => plain.noSlash (List.mem_of_head? h)

include plain in
theorem pieces_plain : pieces '/' file.toList = [file.toList] := pieces_of_not_mem plain.noSlash

include some plain in
/-- A name that is joined to a directory stands behind a slash, which may be the last one of the
directory. This fails for the empty directory, to which a name is joined as it is. -/
theorem exists_join : ∃ front, (join directory file).toList = front ++ '/' :: file.toList ∧
    (directory.toList = front ∨ directory.toList = front ++ ['/']) := by
  rw [join, plain.relative, Bool.false_or, if_neg (by simpa using some)]
  split
  · rename_i hslash
    obtain ⟨front, hfront⟩ := List.getLast?_eq_some_iff.mp (beq_iff_eq.mp hslash)
    exact ⟨front, by simp [hfront], .inr hfront⟩
  · exact ⟨directory.toList, by simp, .inl rfl⟩

include some plain in
/-- Nothing is taken away from the name of the directory. -/
theorem exists_join_eq_append : ∃ more, join directory file = directory ++ more := by
  rw [join, plain.relative, Bool.false_or, if_neg (by simpa using some)]
  split
  · exact ⟨file, rfl⟩
  · exact ⟨"/" ++ file, String.append_assoc⟩

include plain in
theorem components_join : components (join directory file) = components directory ++ [file] := by
  have hkept : file.toList ≠ [] ∧ file.toList ≠ ['.'] := by
    constructor
    · simpa using plain.some
    · intro h
      exact plain.noDot (String.toList_inj.mp h)
  have hfile : (pieces '/' file.toList).filter (fun p => p != [] && p != ['.']) = [file.toList] := by
    rw [pieces_plain plain, List.filter_cons_of_pos (by simpa using hkept), List.filter_nil]
  by_cases hempty : directory = ""
  · have hjoin : join directory file = file := by simp [join, hempty]
    rw [hjoin, components, hfile, hempty]
    simp [components, pieces]
  · obtain ⟨front, hjoin, hfront⟩ := exists_join hempty plain
    rw [components, hjoin, pieces_append_sep, List.filter_append, hfile, components]
    rcases hfront with hfront | hfront
    · simp [hfront]
    · rw [hfront, pieces_append_sep]
      simp [pieces]

include plain in
theorem fileName?_join : fileName? (join directory file) = .some file := by
  rw [fileName?, components_join plain, List.getLast?_concat, Option.filter_some, if_pos]
  exact decide_eq_true plain.noDots

end Join

theorem splitExtension_append {stem extension : List Char} (some : stem ≠ []) (noDot : '.' ∉ extension) :
    splitExtension (stem ++ '.' :: extension) = (stem, .some extension) := by
  have hdrop : (stem ++ '.' :: extension).reverse.dropWhile (· ≠ '.') = '.' :: stem.reverse := by
    rw [List.reverse_append, List.reverse_cons, List.append_assoc, List.dropWhile_append_of_pos]
    · simp
    · intro c hc
      exact decide_eq_true fun h => noDot (h ▸ List.mem_reverse.mp hc)
  have hrest : (stem ++ '.' :: extension).drop (stem.length + 1) = extension := by simp
  obtain ⟨c, cs, hstem⟩ := List.exists_cons_of_ne_nil (List.reverse_ne_nil_iff.mpr some)
  rw [splitExtension, hdrop, hstem]
  dsimp only
  rw [← hstem, List.reverse_reverse, List.length_reverse, hrest]

namespace Tree

/-! ## Names that lead into a directory -/

/-- A walk over more names is over its first names and goes on from there, if these lead anywhere. -/
theorem walk_append (t : Tree) (place : Place) (names names' : List String) :
    t.walk place (names ++ names') = (t.walk place names).bind (t.walk · names') := by
  induction names generalizing place with
  | nil => rfl
  | cons name names ih =>
    rw [List.cons_append, walk, walk]
    cases t.step place name with
    | error e => rfl
    | ok next => exact ih next

/-- A step to a plain name goes out from a directory, to the place of the name in it. What is there does
not matter yet; it may be nothing. -/
theorem step_plain {t : Tree} {place next : Place} {file : String} (plain : Plain file)
    (h : t.step place file = .ok next) : t.at? place = some .directory ∧ next = place ++ [file] := by
  rw [step] at h
  split at h
  · cases h
  · cases h
  · rename_i hdirectory
    rw [if_neg (by simp [plain.some, plain.noDot]), if_neg plain.noDots] at h
    split at h
    · cases h
    · exact ⟨hdirectory, (Except.ok.inj h).symm⟩

theorem walk_plain {t : Tree} {start place : Place} {names : List String} {file : String}
    (plain : Plain file) (h : t.walk start (names ++ [file]) = .ok place) :
    ∃ q, t.walk start names = .ok q ∧ t.at? q = some .directory ∧ place = q ++ [file] := by
  rw [walk_append] at h
  obtain ⟨q, hq, hlast⟩ := Except.bind_eq_ok_iff.mp h
  obtain ⟨next, hstep, hnext⟩ := Except.bind_eq_ok_iff.mp hlast
  obtain rfl : next = place := Except.ok.inj hnext
  exact ⟨q, hq, step_plain plain hstep⟩

/-- A path leads to a place when it can be asked for at all, and a walk over its names ends there. -/
theorem locate_eq_ok_iff {t : Tree} {path : String} {place : Place} :
    t.locate path = .ok place ↔ path ≠ "" ∧ '\x00' ∉ path.toList ∧ path.utf8ByteSize ≤ longestPath ∧
      t.walk (if isAbsolute path then [] else t.here) (stepsOf path) = .ok place := by
  rw [locate]
  split
  · simp_all
  · split
    · simp_all
    · split
      · rename_i hlong
        simp [Nat.not_le.mpr hlong]
      · rename_i hsome hnul hlong
        simp [hsome, hnul, Nat.le_of_not_gt hlong]

/-- The place that the names in a directory lead from. Where no directory is named it is the working
directory, though the empty name by itself leads nowhere. -/
def base (t : Tree) (directory : String) : Except FileError Place :=
  if directory = "" then .ok t.here else t.locate directory

/-- Something new where no directory was does not change where a directory is found. -/
theorem base_put {t : Tree} {place q : Place} (noDirectory : t.at? place ≠ some .directory) (node : Node)
    {directory : String} (h : t.base directory = .ok q) : (t.put place node).base directory = .ok q := by
  unfold base at h ⊢
  rw [here_put]
  split at h
  · rename_i hempty
    rwa [if_pos hempty]
  · rename_i hsome
    rw [if_neg hsome]
    exact locate_put noDirectory node h

/-- What is joined to a directory is followed from there. The last step is to a plain name, so it is one
step down from the directory. -/
theorem base_of_locate_join {t : Tree} {directory file : String} {place : Place} (plain : Plain file)
    (found : t.locate (join directory file) = .ok place) :
    ∃ q, t.base directory = .ok q ∧ t.at? q = some .directory ∧ place = q ++ [file] := by
  obtain ⟨-, hnul, hlong, hwalk⟩ := locate_eq_ok_iff.mp found
  by_cases hempty : directory = ""
  · have hjoin : join directory file = file := by simp [join, hempty]
    rw [hjoin, plain.relative, stepsOf, pieces_plain plain, List.map_singleton, String.ofList_toList,
      ← List.nil_append [file]] at hwalk
    obtain ⟨q, hq, hdirectory, hplace⟩ := walk_plain plain hwalk
    exact ⟨q, by rw [base, if_pos hempty]; exact hq, hdirectory, hplace⟩
  obtain ⟨front, hjoin, hfront⟩ := exists_join hempty plain
  obtain ⟨more, hmore⟩ := exists_join_eq_append hempty plain
  have hsteps : stepsOf (join directory file) = (pieces '/' front).map String.ofList ++ [file] := by
    rw [stepsOf, hjoin, pieces_append_sep, pieces_plain plain, List.map_append, List.map_singleton,
      String.ofList_toList]
  have hfirst : isAbsolute (join directory file) = isAbsolute directory := by
    have hne : directory.toList ≠ [] := by simpa using hempty
    rw [isAbsolute, hmore, String.toList_append, List.head?_append_of_ne_nil _ hne, isAbsolute]
  rw [hfirst, hsteps] at hwalk
  obtain ⟨q, hq, hdirectory, hplace⟩ := walk_plain plain hwalk
  refine ⟨q, ?_, hdirectory, hplace⟩
  rw [base, if_neg hempty, locate_eq_ok_iff]
  refine ⟨hempty, ?nul, ?long, ?walk⟩
  case nul =>
    rw [hmore, String.toList_append, List.mem_append, not_or] at hnul
    exact hnul.1
  case long =>
    rw [hmore, String.utf8ByteSize_append] at hlong
    omega
  case walk =>
    -- a slash at the end of the directory is one step more, and it leads nowhere else
    have hstay : t.walk q [""] = .ok q := by simp [walk, step, hdirectory, Except.bind]
    rcases hfront with hfront | hfront
    · rw [stepsOf, hfront, hq]
    · rw [stepsOf, hfront, pieces_append_sep, List.map_append, walk_append, hq]
      exact hstay

/-! ## What is in a directory -/

theorem mem_namesIn {t : Tree} {place : Place} {name : String} :
    name ∈ t.namesIn place ↔ ∃ node, (place ++ [name], node) ∈ t.nodes := by
  rw [namesIn, List.mem_mergeSort, List.mem_filterMap]
  constructor
  · rintro ⟨⟨p, node⟩, hmem, hname⟩
    dsimp only at hname
    split at hname
    · rename_i hp
      obtain ⟨front, rfl⟩ := List.getLast?_eq_some_iff.mp hname
      rw [List.dropLast_concat] at hp
      exact ⟨node, hp.1 ▸ hmem⟩
    · cases hname
  · rintro ⟨node, hmem⟩
    exact ⟨(place ++ [name], node), hmem, by simp⟩

theorem mem_nodes_put {t : Tree} {place : Place} (free : t.at? place = none) (node : Node) :
    (place, node) ∈ (t.put place node).nodes := by
  have hlookup : t.nodes.lookup place = none := by
    rw [at?] at free
    split at free
    · cases free
    · exact free
  rw [put, hlookup, Option.isSome_none, if_neg Bool.false_ne_true]
  exact List.mem_append_right _ List.mem_cons_self

/-- A file that has been made in a directory lies right in it: it can be found by its path, and its name
is among those in the directory. -/
structure Lies (t : Tree) (directory file : String) (place : Place) : Prop where
  base : t.base directory = .ok place
  isDirectory : t.at? place = some .directory
  located : t.locate (join directory file) = .ok (place ++ [file])
  isFile : ∃ content, t.at? (place ++ [file]) = some (.file content)
  named : file ∈ t.namesIn place

/-- What has been made under a plain name in a directory lies right in it. -/
theorem exists_lies_of_create {t t' : Tree} {directory file text : String} (plain : Plain file)
    (created : t.create (join directory file) text = .ok t') : ∃ place, Lies t' directory file place := by
  obtain ⟨place, hlocate, hfree, rfl⟩ := create_eq_ok created
  obtain ⟨q, hbase, hdirectory, rfl⟩ := base_of_locate_join plain hlocate
  have hother : t.at? (q ++ [file]) ≠ some .directory := by
    rw [hfree]
    exact nofun
  have hplace : q ++ [file] ≠ [] := by simp
  refine ⟨q, ?_, ?_, ?_, ?_, ?_⟩
  · exact base_put hother _ hbase
  · rw [at?_put t hplace, if_neg (by simp), hdirectory]
  · exact locate_put hother _ hlocate
  · exact ⟨_, by rw [at?_put t hplace, if_pos rfl]⟩
  · exact mem_namesIn.mpr ⟨_, mem_nodes_put hfree _⟩

end Tree

end Files

namespace Plan

open Files PlanName

/-- The name of a plan file begins with a date, so it is not one of the two names for directories that
are there already. -/
theorem plain_of_planFile {file : String} (h : PlanFile file) : Plain file := by
  have hending : ∀ name ∈ ["", ".", ".."], ¬ ".md".toList <:+ name.toList := by decide
  have hother : ∀ name ∈ ["", ".", ".."], file ≠ name := by
    rintro name hname rfl
    exact hending file hname h.ending
  exact ⟨hother "" (by decide), hother "." (by decide), hother ".." (by decide), h.noSlash⟩

/-- The name of a plan file has something before its ending, which is what makes it an ending and not a
name that begins with a dot. -/
theorem exists_stem_of_planFile {file : String} (h : PlanFile file) :
    ∃ stem, stem ≠ [] ∧ file.toList = stem ++ '.' :: "md".toList := by
  obtain ⟨stem, hstem⟩ := h.ending
  refine ⟨stem, ?_, hstem.symm⟩
  rintro rfl
  exact h.visible (by rw [← hstem]; rfl)

theorem extension?_join {directory file : String} (h : PlanFile file) :
    extension? (join directory file) = some "md" := by
  obtain ⟨stem, hsome, hstem⟩ := exists_stem_of_planFile h
  rw [extension?, fileName?_join (plain_of_planFile h), Option.bind_some, hstem,
    splitExtension_append hsome (by decide)]
  rfl

/-- A plan that lies in a directory is listed with the others there, if the directory has a name. The
list asks whether there is a directory of the name, and the making of a plan does not. -/
theorem mem_list_iff {t : Tree} {directory file : String} {place : Place} (h : PlanFile file)
    (lies : t.Lies directory file place) :
    (∃ paths, list t directory = some paths ∧ join directory file ∈ paths) ↔ directory ≠ "" := by
  by_cases hempty : directory = ""
  · subst hempty
    -- the empty name leads nowhere, not even to the working directory
    have hnone : list t "" = none := rfl
    simp only [hnone, reduceCtorEq, false_and, exists_false, ne_eq, not_true]
  · refine iff_of_true ?_ hempty
    have hlocate : t.locate directory = .ok place := by
      have hbase := lies.base
      rwa [Tree.base, if_neg hempty] at hbase
    have hdirectory : t.isDirectory directory = true := by
      rw [Tree.isDirectory, Tree.find?, hlocate]
      exact beq_iff_eq.mpr lies.isDirectory
    have hnames : t.list directory = .ok (t.namesIn place) := by
      rw [Tree.list, hlocate]
      simp only [Except.bind, lies.isDirectory]
    have hfile : t.isFile (join directory file) = true := by
      obtain ⟨content, hcontent⟩ := lies.isFile
      rw [Tree.isFile, Tree.find?, lies.located]
      simp only [hcontent]
    refine ⟨_, by rw [list, if_pos hdirectory, hnames], ?_⟩
    rw [List.mem_filter]
    refine ⟨List.mem_map_of_mem lies.named, ?_⟩
    rw [hfile, extension?_join h]
    rfl

/-- When a plan of the name is there already, the refusal tells its path. -/
theorem path_of_planExists {t t' : Tree} {directory path name goal day : String} {template : Template}
    (refused : create t directory template name goal day = (t', .error (.planExists path))) :
    path = join directory (fileName day name) := by
  unfold create at refused
  split at refused
  · cases refused
  · dsimp only at refused
    split at refused
    · cases refused
    · cases refused
      rfl
    · cases refused

/-- Whatever a plan is called, its slug is tidy and its own slug, and its file name is one component that
can be seen, behind the directory. A plan that has been made lies right in the directory, and is listed
there unless the directory has no name. -/
theorem create_filed (directory name : String) {day : String}
    (digits : ∀ c ∈ day.toList, c.isDigit = true ∨ c = '-') :
    Slug (slug name).toList ∧ slug (slug name) = slug name ∧ PlanFile (fileName day name) ∧
      components (join directory (fileName day name)) = components directory ++ [fileName day name] ∧
      ∀ (t t' : Tree) (template : Template) (goal path : String),
        (create t directory template name goal day = (t', .error (.planExists path)) →
          path = join directory (fileName day name)) ∧
        (create t directory template name goal day = (t', .ok path) →
          path = join directory (fileName day name) ∧
            (∃ place, t'.Lies directory (fileName day name) place) ∧
            ((∃ paths, list t' directory = some paths ∧ path ∈ paths) ↔ directory ≠ "")) := by
  have hfile := planFile_fileName digits name
  have hplain := plain_of_planFile hfile
  refine ⟨sound_slug name, slug_slug name, hfile, components_join hplain,
    fun t t' template goal path => ⟨path_of_planExists, fun created => ?_⟩⟩
  obtain ⟨rfl, t₀, hcreate⟩ := create_eq_ok created
  obtain ⟨place, hlies⟩ := Tree.exists_lies_of_create hplain hcreate
  exact ⟨rfl, ⟨place, hlies⟩, mem_list_iff hfile hlies⟩

/-- The tree in which a plan has been made in a directory. -/
def loginTree (directory : String) : Tree :=
  (create {} directory .bugfix " Fix: login -- ΣΑΣ! " "Let them in" "2026-10-18").1

/-- Dots, slashes and runs of hyphens may be part of a name, and a sigma at the end of a word. -/
theorem create_filed_login :
    (∀ c ∈ "2026-10-18".toList, c.isDigit = true ∨ c = '-') ∧
      create {} "plans/" .bugfix " Fix: login -- ΣΑΣ! " "Let them in" "2026-10-18" =
        (loginTree "plans/", .ok "plans/2026-10-18-fix-login-σας.md") ∧
      ∃ paths, list (loginTree "plans/") "plans/" = some paths ∧
        "plans/2026-10-18-fix-login-σας.md" ∈ paths := by
  have hall : "2026-10-18".toList.all (fun c => c.isDigit || c == '-') = true := by decide
  have hday : ∀ c ∈ "2026-10-18".toList, c.isDigit = true ∨ c = '-' := fun c hc => by
    simpa using List.all_eq_true.mp hall c hc
  have hcreated : create {} "plans/" .bugfix " Fix: login -- ΣΑΣ! " "Let them in" "2026-10-18" =
      (loginTree "plans/", .ok "plans/2026-10-18-fix-login-σας.md") :=
    Prod.ext (by rw [loginTree]) (by decide +kernel)
  obtain ⟨-, -, -, -, hfiled⟩ := create_filed "plans/" " Fix: login -- ΣΑΣ! " hday
  obtain ⟨-, -, hlisted⟩ := (hfiled {} (loginTree "plans/") .bugfix "Let them in" _).2 hcreated
  exact ⟨hday, hcreated, hlisted.mpr (by decide)⟩

/-- A plan that is made in a directory without a name is made, and there is no list of that directory.
The same directory under its other name has the list. -/
theorem unlisted_of_unnamed :
    create {} "" .bugfix " Fix: login -- ΣΑΣ! " "Let them in" "2026-10-18" =
        (loginTree "", .ok "2026-10-18-fix-login-σας.md") ∧
      list (loginTree "") "" = none ∧
      list (loginTree "") "." = some ["./2026-10-18-fix-login-σας.md"] := by
  exact ⟨Prod.ext (by rw [loginTree]) (by decide +kernel), rfl, by decide +kernel⟩

end Plan

end Runbook
