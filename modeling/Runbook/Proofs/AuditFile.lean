import Runbook.Proofs.FileTree
import Runbook.Proofs.Insertion
import Runbook.Proofs.Records

/-!
# What is kept in the audit file

Opening the audit file changes nothing in it (`prepare_keeps`), and an entry that is noted is a line behind
what the file holds (`note_appends`). So a file that has been opened any number of times holds its old text
and a line for each entry (`Recording.readText`).

Whether these lines are read as the entries depends on the old text alone. The file is opened at the end
of its text, and not on a line of its own: when the text does not end with a line feed, the first entry is
put on the line that is there. If that line has only blanks so far, nothing is lost. If not, neither the
entry is read nor what the line may have been before (`Recording.kept_iff`).
-/

set_option autoImplicit false

namespace Runbook.Audit

open Files Json Text

/-! ## The text of the file -/

/-- Opening the file leaves what it holds. It is made when it is missing, and a file that is there is
opened at its end. -/
theorem prepare_keeps {t t' : Tree} {directory plan path old : String}
    (opened : prepare t directory plan = (t', .ok path)) (read : t.readText path = .ok old) :
    t'.readText path = .ok old := by
  unfold prepare at opened
  split at opened
  · cases opened
  · rename_i made hmade
    have hread := Tree.readText_createDirectories hmade read
    split at opened
    · rename_i grown hgrown
      cases opened
      obtain ⟨t'', happend, hread'⟩ := Tree.exists_append hread ""
      rw [hgrown] at happend
      cases happend
      rwa [String.append_empty] at hread'
    · cases opened

/-- A record as a line. -/
def Record.line (r : Record) : String := r.render ++ "\n"

/-- An entry that is noted is a line at the end of the file. Nothing is put before it, whatever the file
ends with, and this is where an entry can be lost. -/
theorem note_appends {t : Tree} {path text : String} (read : t.readText path = .ok text) (r : Record) :
    (note t (some path) r.time r.entry).readText path = .ok (text ++ r.line) := by
  obtain ⟨t', happend, hread⟩ := Tree.exists_append read r.line
  have hnote : append t path r = .ok t' := happend
  show ((append t path r).toOption.getD t).readText path = _
  rw [hnote]
  exact hread

/-! ## The lines of the file -/

/-- The last line of a text, as long as no line feed has ended it. It is empty when the text is, and
when it ends with a line feed. -/
def unended (text : String) : List Char := (text.toList.reverse.takeWhile (· ≠ '\n')).reverse

/-- The lines of a text that a line feed has ended. -/
def ended (text : String) : List Char := (text.toList.reverse.dropWhile (· ≠ '\n')).reverse

theorem ended_append_unended (text : String) : ended text ++ unended text = text.toList := by
  rw [ended, unended, ← List.reverse_append, List.takeWhile_append_dropWhile, List.reverse_reverse]

theorem feed_not_mem_unended (text : String) : '\n' ∉ unended text := by
  intro h
  have hfront := List.mem_takeWhile_imp (List.mem_reverse.mp h)
  simp at hfront

theorem getLast?_ended (text : String) : ∀ c, (ended text).getLast? = some c → c = '\n' := by
  intro c hc
  rw [ended, List.getLast?_reverse] at hc
  simpa using head?_dropWhile_false hc

/-- The records among some lines. A line that is none is passed over, as the reader of the file does. -/
def recordsOf (ls : List (List Char)) : List Record :=
  ls.filterMap fun l => Record.parse? (String.ofList l)

theorem recordsOf_cons (l : List Char) (ls : List (List Char)) :
    recordsOf (l :: ls) = (Record.parse? (String.ofList l)).toList ++ recordsOf ls := by
  cases hread : Record.parse? (String.ofList l) with
  | none => exact List.filterMap_cons_none hread
  | some r => exact List.filterMap_cons_some hread

theorem recordsOf_append (ls ls' : List (List Char)) :
    recordsOf (ls ++ ls') = recordsOf ls ++ recordsOf ls' := List.filterMap_append

theorem readAll_eq (text : String) :
    readAll text = recordsOf (lines (ended text)) ++ recordsOf (lines (unended text)) := by
  rw [readAll, ← ended_append_unended text, lines_append_of_ended (getLast?_ended text)]
  exact recordsOf_append _ _

theorem recordsOf_renders {rs : List Record} (writable : ∀ r ∈ rs, r.time.inRange = true) :
    recordsOf (rs.map fun r => r.render.toList) = rs := by
  induction rs with
  | nil => rfl
  | cons r rs ih =>
    obtain ⟨hr, hrs⟩ := List.forall_mem_cons.mp writable
    rw [List.map_cons, recordsOf_cons, String.ofList_toList, Record.parse?_render hr, ih hrs]
    rfl

/-- A record is an unbroken line, also behind the part of a line: it holds no line feed and ends in a
brace. -/
theorem unbroken_append_render {front : List Char} (noFeed : '\n' ∉ front) (r : Record) :
    Unbroken (front ++ r.render.toList) where
  noFeed h := (List.mem_append.mp h).elim noFeed r.feed_not_mem_render
  noReturn := by
    rw [List.getLast?_append, r.getLast?_render]
    exact nofun

theorem toList_join_line (rs : List Record) :
    (String.join (rs.map Record.line)).toList = endLines (rs.map fun r => r.render.toList) := by
  simp [String.toList_join, Record.line, endLines, List.flatMap_map]

/-- The first of the entries is on the line that has not been ended, and the others on their own. When
nothing is left unended, the first has its own line as well, for then it stands behind an empty text. -/
theorem lines_append_written (text : String) (r : Record) (rest : List Record) :
    lines (text ++ String.join ((r :: rest).map Record.line)).toList =
      lines (ended text) ++ (unended text ++ r.render.toList) :: rest.map fun r => r.render.toList := by
  have hunbroken : ∀ l ∈ rest.map fun r => r.render.toList, Unbroken l := by
    intro l hl
    obtain ⟨s, -, rfl⟩ := List.mem_map.mp hl
    have hline := @unbroken_append_render [] List.not_mem_nil s
    rwa [List.nil_append] at hline
  have hfirst := unbroken_append_render (feed_not_mem_unended text) r
  have hrest : unended text ++ endLines ((r :: rest).map fun r => r.render.toList) =
      (unended text ++ r.render.toList) ++ '\n' :: endLines (rest.map fun r => r.render.toList) := by
    simp
  rw [String.toList_append, toList_join_line, ← ended_append_unended text, List.append_assoc,
    lines_append_of_ended (getLast?_ended text), hrest, hfirst.lines_append_feed, lines_endLines hunbroken]

/-- Only blanks on the line that has not been ended save the first entry. Blanks before a record are
skipped; anything else makes the line something that is no record, even if it was one by itself. -/
theorem readAll_append_written (text : String) {r : Record} {rest : List Record}
    (writable : ∀ s ∈ r :: rest, s.time.inRange = true) :
    readAll (text ++ String.join ((r :: rest).map Record.line)) =
      recordsOf (lines (ended text)) ++
        if (unended text).all isSpace then r :: rest else rest := by
  obtain ⟨hr, hrest⟩ := List.forall_mem_cons.mp writable
  show recordsOf (lines _) = _
  rw [lines_append_written, recordsOf_append]
  rw [recordsOf_cons, recordsOf_renders hrest, Record.parse?_behind hr]
  split <;> rfl

theorem recordsOf_unended_of_blank {text : String} (blank : (unended text).all isSpace = true) :
    recordsOf (lines (unended text)) = [] := by
  by_cases hnil : unended text = []
  · rw [hnil]
    rfl
  · rw [lines, chunks_of_no_feed (feed_not_mem_unended text) hnil, List.map_singleton,
      withoutLineEnd_of_no_feed (feed_not_mem_unended text),
      recordsOf_cons, Record.parse?_of_blank blank]
    rfl

/-! ## Entries that are noted -/

/-- The file is opened, and entries are noted in it at times that can be written. It may be opened again
at any time, as every run does that writes to the same file. -/
inductive Recording (path : String) : Tree → List Record → Tree → Prop
  | opened {t t' : Tree} {directory plan : String}
    (opens : prepare t directory plan = (t', .ok path)) : Recording path t [] t'
  | reopened {t t' t'' : Tree} {rs : List Record} {directory plan : String}
    (before : Recording path t rs t') (opens : prepare t' directory plan = (t'', .ok path)) :
    Recording path t rs t''
  | noted {t t' : Tree} {rs : List Record} (before : Recording path t rs t') (r : Record)
    (writable : r.time.inRange = true) :
    Recording path t (rs ++ [r]) (note t' (some path) r.time r.entry)

namespace Recording

variable {path : String} {t t' : Tree} {rs : List Record}

theorem writable (h : Recording path t rs t') : ∀ r ∈ rs, r.time.inRange = true := by
  induction h with
  | opened => exact nofun
  | reopened _ _ ih => exact ih
  | noted _ r hr ih =>
    intro s hs
    rcases List.mem_append.mp hs with hs | hs
    · exact ih s hs
    · rw [List.mem_singleton.mp hs]
      exact hr

/-- The file holds what it held and a line for every entry, in order. Opening it again puts nothing
between them. -/
theorem readText (h : Recording path t rs t') {old : String} (read : t.readText path = .ok old) :
    t'.readText path = .ok (old ++ String.join (rs.map Record.line)) := by
  -- by induction on the recording: the file always holds a text, so every note finds one to add to
  induction h with
  | opened opens =>
    rw [List.map_nil, String.join_nil, String.append_empty]
    exact prepare_keeps opens read
  | reopened _ opens ih => exact prepare_keeps opens ih
  | @noted t' rs _ r _ ih =>
    have hnoted := note_appends ih r
    have hlines : String.join ((rs ++ [r]).map Record.line) = String.join (rs.map Record.line) ++ r.line := by
      rw [List.map_append, String.join_append]
      simp
    rwa [String.append_assoc, ← hlines] at hnoted

theorem recordsIn_of_readText {t : Tree} {path text : String} (read : t.readText path = .ok text) :
    recordsIn t path = .ok (readAll text) := by
  rw [recordsIn, if_pos (Tree.pathExists_of_readText read), read]
  rfl

/-- Nothing is lost when the last line of the old text has been ended or holds only blanks. If it holds
anything else, the first entry is lost, with the record that the line may have been. All later entries
are read in either case. -/
theorem kept_iff (h : Recording path t rs t') {old : String} (read : t.readText path = .ok old) :
    recordsIn t path = .ok (readAll old) ∧
      (recordsIn t' path = .ok (readAll old ++ rs) ↔ rs = [] ∨ (unended old).all isSpace = true) ∧
      ∀ r rest, rs = r :: rest → (unended old).all isSpace = false →
        recordsIn t' path = .ok (readAll (String.ofList (ended old)) ++ rest) := by
  have hbefore := recordsIn_of_readText read
  have hafter := recordsIn_of_readText (h.readText read)
  refine ⟨hbefore, ?_, ?_⟩
  · rw [hafter, Except.ok.injEq]
    cases rs with
    | nil => simp
    | cons r rest =>
      rw [readAll_append_written old h.writable]
      cases hblank : (unended old).all isSpace with
      | true => simp [readAll_eq old, recordsOf_unended_of_blank hblank]
      | false =>
        -- the entry that is lost is missed in the number of entries
        have hlength : (recordsOf (lines (ended old)) ++ rest).length <
            (readAll old ++ r :: rest).length := by
          simp only [readAll_eq old, List.length_append, List.length_cons]
          omega
        refine ⟨fun heq => ?_, fun hkept => ?_⟩
        · rw [if_neg Bool.false_ne_true] at heq
          rw [heq] at hlength
          exact absurd hlength (Nat.lt_irrefl _)
        · simp at hkept
  · rintro r rest rfl hopen
    rw [hafter, readAll_append_written old h.writable, hopen, if_neg Bool.false_ne_true, readAll,
      String.toList_ofList]
    rfl

end Recording

/-- A tree with an audit file. -/
def auditTree (text : String) : Tree :=
  { nodes := [(["logs"], .directory), (["logs", "build.jsonl"], .file (.text text))] }

theorem readText_auditTree (text : String) :
    (auditTree text).readText "logs/build.jsonl" = .ok text :=
  Tree.readText_eq_ok_iff.mpr ⟨["logs", "build.jsonl"], rfl, rfl⟩

/-- The first entry of 1970. -/
def firstRecord : Record := { time := ⟨0⟩, entry := ⟨.info, "one"⟩ }

theorem recording_auditTree (text : String) :
    ∃ t', Recording "logs/build.jsonl" (auditTree text) [firstRecord] t' := by
  have hopened : prepare (auditTree text) "logs" "build" =
      ((prepare (auditTree text) "logs" "build").1, .ok "logs/build.jsonl") := Prod.ext rfl rfl
  exact ⟨_, (Recording.opened hopened).noted firstRecord (by decide)⟩

/-- The old text is foreign, but its line has been ended. -/
theorem recorded_of_ended :
    (auditTree "foreign\n").readText "logs/build.jsonl" = .ok "foreign\n" ∧
      ∃ t', Recording "logs/build.jsonl" (auditTree "foreign\n") [firstRecord] t' ∧
        recordsIn t' "logs/build.jsonl" = .ok (readAll "foreign\n" ++ [firstRecord]) := by
  have hread := readText_auditTree "foreign\n"
  obtain ⟨t', hrecording⟩ := recording_auditTree "foreign\n"
  exact ⟨hread, t', hrecording, (hrecording.kept_iff hread).2.1.mpr (.inr (by decide))⟩

/-- The old text has been torn off, and the entry behind it is not read. The file holds the entry all
the same, on a line with the torn text. -/
theorem not_recorded_of_torn :
    (auditTree "torn").readText "logs/build.jsonl" = .ok "torn" ∧
      recordsIn (auditTree "torn") "logs/build.jsonl" = .ok [] ∧
      ∃ t', Recording "logs/build.jsonl" (auditTree "torn") [firstRecord] t' ∧
        recordsIn t' "logs/build.jsonl" = .ok [] ∧
        recordsIn t' "logs/build.jsonl" ≠ .ok ([] ++ [firstRecord]) := by
  have hread := readText_auditTree "torn"
  obtain ⟨t', hrecording⟩ := recording_auditTree "torn"
  have hbefore : readAll "torn" = [] := by decide
  have hafter : readAll ("torn" ++ String.join ([firstRecord].map Record.line)) = [] := by
    rw [readAll_append_written "torn" hrecording.writable]
    decide
  have hlost := Recording.recordsIn_of_readText (hrecording.readText hread)
  rw [hafter] at hlost
  refine ⟨hread, ?_, t', hrecording, hlost, ?_⟩
  · rw [Recording.recordsIn_of_readText hread, hbefore]
  · rw [hlost]
    exact nofun

end Runbook.Audit
