import Mathlib.Data.List.Infix
import Runbook.Proofs.Outline
import Runbook.Proofs.RoundTrip

/-!
# Commands in verbatim text

A command is written line by line between two fences. As long as none of its lines is a fence, the
scan finds the two fences and the lines between them (`scan_commands`), and the command is read back
from there (`Verbatim.readContext`). To all other readers such lines are nothing: they are no
headings and have no fields.
-/

set_option autoImplicit false

namespace Runbook

open Text Markdown

/-! ## The lines of a command -/

namespace Text

theorem intercalate_pieces (sep : Char) (cs : List Char) : [sep].intercalate (pieces sep cs) = cs := by
  induction cs with
  | nil => rfl
  | cons c cs ih =>
    obtain ⟨p, ps, hps⟩ := exists_piece sep cs
    rw [pieces]
    split
    · rename_i hc
      rw [hps] at ih ⊢
      rw [List.intercalate_cons_cons, ih, hc]
      rfl
    · rw [hps] at ih ⊢
      rw [← ih]
      cases ps with
      | nil => simp
      | cons q qs => simp [List.intercalate_cons_cons]

theorem endLines_pieces (cs : List Char) : endLines (pieces '\n' cs) = cs ++ ['\n'] := by
  induction cs with
  | nil => rfl
  | cons c cs ih =>
    obtain ⟨p, ps, hps⟩ := exists_piece '\n' cs
    rw [pieces]
    split
    · rename_i hc
      rw [endLines_cons, ih, hc]
      rfl
    · rw [hps] at ih ⊢
      rw [List.cons_append, ← ih]
      simp

theorem head_of_pieces_nil {sep : Char} {cs : List Char} {ps : List (List Char)}
    (h : pieces sep cs = [] :: ps) : cs = [] ∨ cs.head? = some sep := by
  cases cs with
  | nil => exact .inl rfl
  | cons c cs =>
    rw [pieces] at h
    split at h
    · rename_i hc
      exact .inr (by rw [hc]; rfl)
    · split at h <;> cases h

/-- Without a carriage return before a line feed or at the end, no piece between line feeds ends in a
carriage return. A reader takes such a one for a part of the line end and drops it, and a command would
come back changed. -/
theorem unbroken_piece {cs : List Char} (inner : ¬ ['\r', '\n'] <:+: cs)
    (last : cs.getLast? ≠ some '\r') : ∀ p ∈ pieces '\n' cs, Unbroken p := by
  suffices h : ∀ p ∈ pieces '\n' cs, p.getLast? ≠ some '\r' from
    fun p hp => ⟨not_mem_piece hp, h p hp⟩
  induction cs with
  | nil => simp [pieces]
  | cons c cs ih =>
    have hinner : ¬ ['\r', '\n'] <:+: cs := fun h => inner (List.infix_cons h)
    have hlast : cs.getLast? ≠ some '\r' := by
      cases cs with
      | nil => simp
      | cons d cs => rwa [List.getLast?_cons_cons] at last
    rw [pieces]
    split
    · simpa using ih hinner hlast
    · obtain ⟨q, qs, hqs⟩ := exists_piece '\n' cs
      have hpieces := ih hinner hlast
      rw [hqs] at hpieces ⊢
      obtain ⟨hq, hrest⟩ := List.forall_mem_cons.mp hpieces
      refine List.forall_mem_cons.mpr ⟨?_, hrest⟩
      cases q with
      | cons d q => rwa [List.getLast?_cons_cons]
      | nil =>
        -- the character is a piece of its own, so behind it is a line feed or nothing
        rw [List.getLast?_singleton]
        rintro hc
        cases Option.some.inj hc
        rcases head_of_pieces_nil hqs with rfl | hhead
        · exact last rfl
        · obtain ⟨tail, rfl⟩ := List.head?_eq_some_iff.mp hhead
          exact inner ⟨[], tail, rfl⟩

end Text

namespace Plan

/-- A command that can be written between fences. A line of it that is a fence would end the verbatim
text, and a carriage return before a line feed would be taken for a part of the line end. -/
@[mk_iff]
structure Command (command : String) : Prop where
  trimmed : trim command.toList = command.toList
  some : command ≠ ""
  noFence : ∀ l ∈ pieces '\n' command.toList, isFence l = false
  noReturn : ¬ ['\r', '\n'] <:+: command.toList

instance (command : String) : Decidable (Command command) :=
  decidable_of_iff' _ (command_iff command)

/-- The fence that opens a command, with the name of its language. -/
def fenceLine : List Char := fenceMarker ++ "bash".toList

/-- A command as it is written: its lines between two fences, and an empty line. -/
def commandLines (command : String) : List (List Char) :=
  fenceLine :: pieces '\n' command.toList ++ [fenceMarker, []]

theorem toList_renderCommand (command : String) :
    (renderCommand command).toList = endLines (commandLines command) := by
  have hlines : endLines (commandLines command) =
      fenceLine ++ '\n' :: (endLines (pieces '\n' command.toList) ++ (fenceMarker ++ ['\n', '\n'])) := by
    simp [commandLines]
  rw [hlines, endLines_pieces]
  simp [renderCommand, fenceLine, fenceMarker, codeQuote]

theorem Command.unbroken {command : String} (h : Command command) :
    ∀ l ∈ commandLines command, Unbroken l := by
  have hlast : command.toList.getLast? ≠ .some '\r' := fun hlast =>
    absurd ((trim_eq_self_iff.mp h.trimmed).2 _ hlast) (by decide)
  intro l hl
  simp only [commandLines, List.cons_append, List.mem_cons, List.mem_append, List.not_mem_nil,
    or_false] at hl
  rcases hl with rfl | hl | rfl | rfl
  · exact ⟨by decide, by decide⟩
  · exact unbroken_piece h.noReturn hlast l hl
  · exact ⟨by decide, by decide⟩
  · exact ⟨by decide, by decide⟩

/-! ## What the scan finds -/

/-- Lines that hold commands between fences, and nothing else that is read. The last field says it of
whatever lines follow, so that two such stretches can be put one behind the other (`Verbatim.append`).
-/
structure Verbatim (commands : List String) (ls : List Line) : Prop where
  headings : ∀ l ∈ ls, l.heading? = none
  fields : ∀ l ∈ ls, l.isFenced = true ∨ l.text = []
  closed : Outline.openAfter none ls = none
  blocks : ∀ more, codeBlocksFrom none (ls ++ more) =
    commands.map (fun c => ⟨"bash".toList, pieces '\n' c.toList⟩) ++ codeBlocksFrom none more

theorem Verbatim.nil : Verbatim [] [] := ⟨nofun, nofun, rfl, fun _ => rfl⟩

theorem Verbatim.append {commands commands' : List String} {ls ls' : List Line}
    (h : Verbatim commands ls) (h' : Verbatim commands' ls') :
    Verbatim (commands ++ commands') (ls ++ ls') where
  headings := List.forall_mem_append.mpr ⟨h.headings, h'.headings⟩
  fields := List.forall_mem_append.mpr ⟨h.fields, h'.fields⟩
  closed := by rw [openAfter_append, h.closed, h'.closed]
  blocks more := by
    rw [List.append_assoc, h.blocks, h'.blocks, List.map_append, List.append_assoc]

/-- Lines inside a pair of fences, from a number on. -/
def verbatimLines (n : Nat) (ls : List (List Char)) : List Line :=
  (ls.zipIdx n).map fun (l, k) => ⟨k, l, .verbatim⟩

/-- Between two fences the scan looks for a fence only, so every other line is verbatim, also one that
could be a heading. -/
theorem scan_verbatim {ls : List (List Char)} (h : ∀ l ∈ ls, isFence l = false) (n : Nat)
    (more : List (List Char)) :
    scan true n (ls ++ more) = verbatimLines n ls ++ scan true (n + ls.length) more := by
  induction ls generalizing n with
  | nil => rfl
  | cons l ls ih =>
    obtain ⟨hl, hls⟩ := List.forall_mem_cons.mp h
    rw [List.cons_append, scan, if_neg (by simp [hl]), if_pos rfl, ih hls, List.length_cons,
      Nat.add_right_comm]
    rfl

theorem openAfter_verbatimLines (opened : Option Nat) (n : Nat) (ls : List (List Char)) :
    Outline.openAfter opened (verbatimLines n ls) = opened := by
  induction ls generalizing n with
  | nil => rfl
  | cons l ls ih => exact ih (n + 1)

/-- The block that is open takes such lines one after the other, as they are. -/
theorem codeBlocksFrom_verbatimLines (b : CodeBlock) (n : Nat) (ls : List (List Char))
    (more : List Line) :
    codeBlocksFrom (some b) (verbatimLines n ls ++ more) =
      codeBlocksFrom (some { b with body := b.body ++ ls }) more := by
  induction ls generalizing b n with
  | nil => simp [verbatimLines]
  | cons l ls ih =>
    have hnext := ih { b with body := b.body ++ [l] } (n + 1)
    simp only [List.append_assoc, List.singleton_append] at hnext
    rw [← hnext]
    rfl

/-- The lines that the scan makes of a command: a fence, the lines of the command, another fence and an
empty line. -/
def scannedCommand (n : Nat) (command : String) : List Line :=
  ⟨n, fenceLine, .fence⟩ :: verbatimLines (n + 1) (pieces '\n' command.toList)
    ++ [⟨n + 1 + (pieces '\n' command.toList).length, fenceMarker, .fence⟩,
      openLine (n + 1 + (pieces '\n' command.toList).length + 1) []]

/-- One command is scanned as such lines, and the scan is outside of all fences behind it. -/
theorem scan_command {command : String} (h : Command command) (n : Nat)
    (more : List (List Char)) :
    scan false n (commandLines command ++ more) =
      scannedCommand n command ++ scan false (n + (commandLines command).length) more := by
  have hlength : n + (commandLines command).length =
      n + 1 + (pieces '\n' command.toList).length + 1 + 1 := by
    simp [commandLines]
    omega
  have hfence : isFence fenceLine = true := by decide
  have hclose : isFence fenceMarker = true := by decide
  rw [hlength, commandLines, scannedCommand, List.cons_append, List.cons_append, List.append_assoc,
    scan, if_pos hfence, Bool.not_false, scan_verbatim h.noFence]
  simp only [List.cons_append, List.nil_append]
  rw [scan, if_pos hclose, Bool.not_true, scan, if_neg (by simp [isFence_nil]), if_neg (by simp)]
  simp [openLine]

theorem verbatim_scannedCommand (n : Nat) (command : String) :
    Verbatim [command] (scannedCommand n command) where
  headings l hl := by
    simp only [scannedCommand, List.cons_append, List.mem_cons, List.mem_append, verbatimLines,
      List.mem_map, List.not_mem_nil, or_false] at hl
    rcases hl with rfl | ⟨k, -, rfl⟩ | rfl | rfl
    · rfl
    · rfl
    · rfl
    · rw [heading?_openLine, parseHeading?_nil]
      rfl
  fields l hl := by
    simp only [scannedCommand, List.cons_append, List.mem_cons, List.mem_append, verbatimLines,
      List.mem_map, List.not_mem_nil, or_false] at hl
    rcases hl with rfl | ⟨k, -, rfl⟩ | rfl | rfl
    · exact .inl rfl
    · exact .inl rfl
    · exact .inl rfl
    · exact .inr rfl
  closed := by
    rw [scannedCommand, List.cons_append, Outline.openAfter, if_pos rfl, openAfter_append,
      openAfter_verbatimLines]
    rfl
  blocks more := by
    have hinfo : fenceInfo fenceLine = "bash".toList := by decide
    rw [scannedCommand, List.cons_append, List.cons_append, List.append_assoc, codeBlocksFrom,
      if_pos rfl, hinfo, codeBlocksFrom_verbatimLines]
    rfl

/-- The scan finds commands where they have been written. Several of them are dealt with by induction,
because each leaves the scan where the next one needs it. -/
theorem scan_commands {commands : List String} (h : ∀ c ∈ commands, Command c) (n : Nat)
    (more : List (List Char)) :
    ∃ ls, scan false n (commands.flatMap commandLines ++ more) =
      ls ++ scan false (n + (commands.flatMap commandLines).length) more ∧ Verbatim commands ls := by
  induction commands generalizing n with
  | nil => exact ⟨[], rfl, .nil⟩
  | cons command commands ih =>
    obtain ⟨hcommand, hcommands⟩ := List.forall_mem_cons.mp h
    obtain ⟨ls, hscan, hverbatim⟩ := ih hcommands (n + (commandLines command).length)
    refine ⟨scannedCommand n command ++ ls, ?_, (verbatim_scannedCommand n command).append hverbatim⟩
    rw [List.flatMap_cons, List.append_assoc, scan_command hcommand, hscan, List.append_assoc,
      List.length_append, Nat.add_assoc]

/-! ## What is read -/

theorem codeBlocksFrom_openLines (n : Nat) (texts : List (List Char)) (more : List Line) :
    codeBlocksFrom none (openLines n texts ++ more) = codeBlocksFrom none more := by
  induction texts generalizing n with
  | nil => rfl
  | cons l texts ih =>
    have hkind : (openLine n l).kind ≠ .fence := kindOutside_ne_fence l
    rw [openLines_cons, List.cons_append, codeBlocksFrom, if_neg hkind, ih]

theorem codeBlocksFrom_of_no_fence {ls : List Line} (h : ∀ l ∈ ls, l.kind ≠ .fence) :
    codeBlocksFrom none ls = [] := by
  induction ls with
  | nil => rfl
  | cons l ls ih =>
    obtain ⟨hl, hls⟩ := List.forall_mem_cons.mp h
    rw [codeBlocksFrom, if_neg hl, ih hls]

/-- Commands are read back as they were written, whatever lines stand above them. The language is known
to the reader, and each command is trimmed already, so it is kept as it is. -/
theorem Verbatim.readContext {commands : List String} {ls : List Line}
    (h : Verbatim commands ls) (sound : ∀ c ∈ commands, Command c) (n : Nat)
    (texts : List (List Char)) : readContext (openLines n texts ++ ls) = commands := by
  have hblocks : codeBlocks (openLines n texts ++ ls) =
      commands.map fun c => ⟨"bash".toList, pieces '\n' c.toList⟩ := by
    have hall := h.blocks []
    rw [List.append_nil, codeBlocksFrom, List.append_nil] at hall
    rw [codeBlocks, codeBlocksFrom_openLines, hall]
  rw [Plan.readContext, hblocks, List.filterMap_map]
  refine (List.filterMap_congr fun c hc => ?_).trans List.filterMap_some
  have hcommand := sound c hc
  have hread : trim (joinLines (pieces '\n' c.toList)) = c.toList := by
    rw [joinLines, intercalate_pieces, hcommand.trimmed]
  have hsome : c.toList ≠ [] := by simpa [String.toList_eq_nil_iff] using hcommand.some
  have hshell : commandLanguages.contains "bash".toList = true := by decide
  simp only [Function.comp_apply, hread, hshell, String.ofList_toList]
  simp [hsome]

end Plan

end Runbook
