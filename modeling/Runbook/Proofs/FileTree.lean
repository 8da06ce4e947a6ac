import Runbook.Plan.Library
import Runbook.Proofs.ParsedGroups

/-!
# Files that are written and read

A path name is followed from directory to directory, so it leads where it did when something is put in a
place that was no directory (`walk_put`). Hence what is written under a name is read under it
(`readText_of_writeText`, `readText_of_create`), and a file that has been read can be written or made longer
(`exists_writeText`, `exists_append`). Directories are made only where nothing is, which leaves every file
under its name (`readText_createDirectories`).
-/

set_option autoImplicit false

namespace Runbook.Files.Tree

/-! ## Places -/

theorem lookup_replaced (nodes : List (Place × Node)) (place q : Place) (node : Node) :
    (nodes.map fun (p, n) => if p = place then (p, node) else (p, n)).lookup q =
      if q = place then (nodes.lookup q).map fun _ => node else nodes.lookup q := by
  induction nodes with
  | nil => simp
  | cons entry nodes ih =>
    obtain ⟨p, n⟩ := entry
    rw [List.map_cons]
    by_cases hq : q = p
    · subst hq
      by_cases hp : q = place
      · simp [hp]
      · simp [hp]
    · have hbeq : (q == p) = false := beq_eq_false_iff_ne.mpr hq
      by_cases hp : p = place
      · simp only [if_pos hp, List.lookup_cons, hbeq, ih]
      · simp only [if_neg hp, List.lookup_cons, hbeq, ih]

/-- What is put in a place is there, and all other places are as they were. -/
theorem at?_put (t : Tree) {place : Place} (below : place ≠ []) (node : Node) (q : Place) :
    (t.put place node).at? q = if q = place then some node else t.at? q := by
  by_cases hroot : q = []
  · rw [at?, if_pos hroot, at?, if_pos hroot, if_neg (hroot ▸ Ne.symm below)]
  · rw [at?, if_neg hroot, at?, if_neg hroot, put]
    split
    · rename_i hthere
      rw [lookup_replaced]
      split
      · rename_i hq
        obtain ⟨n, hn⟩ := Option.isSome_iff_exists.mp hthere
        rw [hq, hn, Option.map_some]
      · rfl
    · rename_i hnew
      rw [Bool.not_eq_true, Option.isSome_eq_false_iff, Option.isNone_iff_eq_none] at hnew
      rw [List.lookup_append]
      split
      · rename_i hq
        rw [hq, hnew, Option.none_or, List.lookup_cons, beq_self_eq_true]
      · rename_i hq
        have hbeq : (q == place) = false := beq_eq_false_iff_ne.mpr hq
        rw [List.lookup_cons, hbeq, List.lookup_nil, Option.or_none]

@[simp] theorem here_put (t : Tree) (place : Place) (node : Node) : (t.put place node).here = t.here := by
  unfold put
  split <;> rfl

/-! ## Names that lead where they did -/

/-- A file is read where there is one, with text in it. A file of bytes that are no text is refused. -/
theorem readText_eq_ok_iff {t : Tree} {path text : String} :
    t.readText path = .ok text ↔
      ∃ place, t.locate path = .ok place ∧ t.at? place = some (.file (.text text)) := by
  unfold readText read
  cases t.locate path with
  | error e => simp [Except.bind]
  | ok place =>
    simp only [Except.bind, Except.ok.injEq, exists_eq_left']
    cases hthere : t.at? place with
    | none => simp
    | some node =>
      cases node with
      | directory => simp
      | file content => cases content <;> simp

section Put

variable {t : Tree} {place : Place} (noDirectory : t.at? place ≠ some .directory) (node : Node)
include noDirectory

theorem ne_root : place ≠ [] := by
  rintro rfl
  exact noDirectory rfl

/-- No step goes out from a place that is no directory. So a name that leads somewhere does not lead
through such a place, and still leads where it did when something is put there. -/
theorem step_put {p next : Place} {name : String} (h : t.step p name = .ok next) :
    (t.put place node).step p name = .ok next := by
  have hplace : p ≠ place := by
    rintro rfl
    rw [step] at h
    split at h
    · cases h
    · cases h
    · rename_i hdirectory
      exact noDirectory hdirectory
  rw [step, at?_put t (ne_root noDirectory), if_neg hplace]
  exact h

theorem walk_put {p q : Place} {names : List String} (h : t.walk p names = .ok q) :
    (t.put place node).walk p names = .ok q := by
  induction names generalizing p with
  | nil => exact h
  | cons name names ih =>
    obtain ⟨next, hstep, hnext⟩ := Except.bind_eq_ok_iff.mp h
    exact Except.bind_eq_ok_iff.mpr ⟨next, step_put noDirectory node hstep, ih hnext⟩

theorem locate_put {path : String} {q : Place} (h : t.locate path = .ok q) :
    (t.put place node).locate path = .ok q := by
  unfold locate at h ⊢
  rw [here_put]
  split at h
  · cases h
  · split at h
    · cases h
    · split at h
      · cases h
      · rename_i hsome hnul hshort
        rw [if_neg hsome, if_neg hnul, if_neg hshort]
        exact walk_put noDirectory node h

/-- What is put where a name leads is read under the name. -/
theorem readText_put {path : String} (found : t.locate path = .ok place) (text : String) :
    (t.put place (.file (.text text))).readText path = .ok text := by
  have hlocate := locate_put noDirectory (.file (.text text)) found
  have hthere : (t.put place (.file (.text text))).at? place = some (.file (.text text)) := by
    rw [at?_put t (ne_root noDirectory), if_pos rfl]
  exact readText_eq_ok_iff.mpr ⟨place, hlocate, hthere⟩

end Put

/-! ## Files -/

theorem pathExists_of_readText {t : Tree} {path text : String} (read : t.readText path = .ok text) :
    t.pathExists path = true := by
  obtain ⟨place, hlocate, hthere⟩ := readText_eq_ok_iff.mp read
  rw [pathExists, find?, hlocate]
  simp [hthere]

/-- A file that has been read is made longer, and keeps what it held. -/
theorem exists_append {t : Tree} {path text : String} (read : t.readText path = .ok text)
    (more : String) :
    ∃ t', t.append path (.text more) = .ok t' ∧ t'.readText path = .ok (text ++ more) := by
  obtain ⟨place, hlocate, hthere⟩ := readText_eq_ok_iff.mp read
  refine ⟨t.put place (.file (.text (text ++ more))), ?_, ?_⟩
  · rw [append, hlocate]
    simp only [Except.bind, hthere]
    rfl
  · exact readText_put (by rw [hthere]; exact nofun) hlocate _

/-- Where a file is made nothing has been before. -/
theorem create_eq_ok {t t' : Tree} {path text : String} (created : t.create path text = .ok t') :
    ∃ place, t.locate path = .ok place ∧ t.at? place = none ∧
      t' = t.put place (.file (.text text)) := by
  obtain ⟨place, hlocate, hput⟩ := Except.bind_eq_ok_iff.mp created
  split at hput
  · cases hput
  · rename_i hfree
    exact ⟨place, hlocate, hfree, (Except.ok.inj hput).symm⟩

theorem readText_of_create {t t' : Tree} {path text : String}
    (created : t.create path text = .ok t') : t'.readText path = .ok text := by
  obtain ⟨place, hlocate, hfree, rfl⟩ := create_eq_ok created
  exact readText_put (by rw [hfree]; exact nofun) hlocate text

/-! ## Directories that are made -/

/-- What is put where nothing is leaves all files under their names. -/
theorem readText_put_elsewhere {t : Tree} {place : Place} (free : t.at? place = none) (node : Node)
    {path text : String} (read : t.readText path = .ok text) :
    (t.put place node).readText path = .ok text := by
  obtain ⟨q, hlocate, hthere⟩ := readText_eq_ok_iff.mp read
  have hother : t.at? place ≠ some .directory := by
    rw [free]
    exact nofun
  have hne : q ≠ place := by
    rintro rfl
    rw [free] at hthere
    cases hthere
  refine readText_eq_ok_iff.mpr ⟨q, locate_put hother node hlocate, ?_⟩
  rw [at?_put t (ne_root hother), if_neg hne, hthere]

theorem readText_walkMaking {t t' : Tree} {p : Place} {names : List String} {made : Except FileError Unit}
    (walked : t.walkMaking p names = (t', made)) {path text : String}
    (read : t.readText path = .ok text) : t'.readText path = .ok text := by
  induction names generalizing t p with
  | nil =>
    rw [walkMaking] at walked
    split at walked
    · cases walked
      exact read
    · cases walked
      exact read
    · rename_i hfree
      cases walked
      exact readText_put_elsewhere hfree _ read
  | cons name names ih =>
    rw [walkMaking] at walked
    -- a directory is made only where nothing was, so the file read is elsewhere
    have hmade : (if (t.at? p).isNone then t.put p .directory else t).readText path = .ok text := by
      split
      · rename_i hfree
        exact readText_put_elsewhere (Option.isNone_iff_eq_none.mp hfree) _ read
      · exact read
    split at walked
    · exact ih walked hmade
    · cases walked
      exact hmade

theorem readText_createDirectories {t t' : Tree} {directory : String} {made : Except FileError Unit}
    (created : t.createDirectories directory = (t', made)) {path text : String}
    (read : t.readText path = .ok text) : t'.readText path = .ok text := by
  unfold createDirectories at created
  split at created
  · cases created
    exact read
  · split at created
    · cases created
      exact read
    · split at created
      · cases created
        exact read
      · exact readText_walkMaking created read

end Runbook.Files.Tree

namespace Runbook.Plan

open Files

/-- A plan is made in a new file, whose name says the day and what the plan is called. -/
theorem create_eq_ok {t t' : Tree} {directory path name goal day : String} {template : Template}
    (created : create t directory template name goal day = (t', .ok path)) :
    path = join directory (PlanName.fileName day name) ∧ ∃ t₀ : Tree, t₀.create path
      ((template.plan goal).render (template.title name) (some day)) = .ok t' := by
  unfold create at created
  split at created
  · cases created
  · dsimp only at created
    split at created
    · rename_i hcreate
      cases created
      exact ⟨rfl, _, hcreate⟩
    · cases created
    · cases created

/-- The file that is made from a template holds the document of its plan. -/
theorem readText_of_create {t t' : Tree} {directory path name goal day : String} {template : Template}
    (created : create t directory template name goal day = (t', .ok path)) :
    t'.readText path = .ok ((template.plan goal).render (template.title name) (some day)) := by
  obtain ⟨-, t₀, hcreate⟩ := create_eq_ok created
  exact Tree.readText_of_create hcreate

/-- A plan is loaded from a file when the text of the file is read as a plan. It remembers the file, and
is otherwise the plan of the text. -/
theorem load_eq_ok_iff {t : Tree} {path text : String} {p : Plan} (read : t.readText path = .ok text) :
    load t path = .ok p ↔ ∃ q, parse text = .ok q ∧ p = { q with path := some path } := by
  simp only [load, readFile, read, Except.bind]
  cases parse text with
  | error e => simp
  | ok q => simp [eq_comm]

end Runbook.Plan
