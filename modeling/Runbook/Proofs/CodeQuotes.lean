import Runbook.Plan.Parser
import Runbook.Proofs.TrimmedText

/-!
# Text between code quotes

A context or a command is written between two code quotes. A text without code quotes of its own is
read back from there (`codeSpans_quoted`). Any other text is not: what is read of a context is made
of spans without quotes or is shorter than what was written (`contextValue_quoted`), and what is read
of a command is the first of these spans (`commandValue_quoted`).
-/

set_option autoImplicit false

namespace Runbook

namespace Text

variable {sep : Char} {cs : List Char}

theorem pieces_of_not_mem (none : sep ∉ cs) : pieces sep cs = [cs] := by
  induction cs with
  | nil => rfl
  | cons c cs ih =>
    rw [List.mem_cons, not_or] at none
    rw [pieces, if_neg (Ne.symm none.1), ih none.2]

theorem exists_piece (sep : Char) (cs : List Char) : ∃ p ps, pieces sep cs = p :: ps := by
  cases cs with
  | nil => exact ⟨[], [], rfl⟩
  | cons c cs =>
    rw [pieces]
    split
    · exact ⟨_, _, rfl⟩
    · split <;> exact ⟨_, _, rfl⟩

/-- The pieces on both sides of a separator are cut apart from each other. So a line can be looked at
from its first quote on without its beginning. -/
theorem pieces_append_sep (sep : Char) (front behind : List Char) :
    pieces sep (front ++ sep :: behind) = pieces sep front ++ pieces sep behind := by
  induction front with
  | nil => simp [pieces]
  | cons c front ih =>
    obtain ⟨p, ps, hps⟩ := exists_piece sep front
    rw [hps] at ih
    rw [List.cons_append, pieces, pieces, ih, hps]
    split <;> rfl

theorem pieces_append {front : List Char} (h : sep ∉ front) (rest : List Char) :
    pieces sep (front ++ sep :: rest) = front :: pieces sep rest := by
  rw [pieces_append_sep, pieces_of_not_mem h, List.singleton_append]

theorem not_mem_piece {p : List Char} (h : p ∈ pieces sep cs) : sep ∉ p := by
  induction cs generalizing p with
  | nil =>
    rw [pieces, List.mem_singleton] at h
    simp [h]
  | cons c cs ih =>
    rw [pieces] at h
    split at h
    · rcases List.mem_cons.mp h with rfl | h
      · simp
      · exact ih h
    · rename_i hc
      split at h
      · rw [List.mem_singleton] at h
        simpa [h] using Ne.symm hc
      · rename_i q qs hqs
        rcases List.mem_cons.mp h with rfl | h
        · simpa using ⟨Ne.symm hc, ih (by rw [hqs]; exact List.mem_cons_self)⟩
        · exact ih (by rw [hqs]; exact List.mem_cons_of_mem _ h)

theorem length_trim_le (cs : List Char) : (trim cs).length ≤ cs.length := by
  obtain ⟨a, b, -, -, hcs⟩ := exists_trim cs
  have hlen := congrArg List.length hcs
  simp only [List.length_append] at hlen
  omega

end Text

namespace Markdown

open Text

theorem mem_of_mem_quotedPieces {p : List Char} {ps : List (List Char)}
    (h : p ∈ quotedPieces ps) : p ∈ ps := by
  fun_induction quotedPieces ps with
  | case1 before code after rest ih =>
    rcases List.mem_cons.mp h with rfl | h
    · simp
    · simp only [List.mem_cons] at ih ⊢
      exact .inr (.inr (ih h))
  | case2 => cases h

/-- A span stands between two quotes that follow one another, so it has none of its own. -/
theorem no_quote_of_mem_codeSpans {span line : List Char} (h : span ∈ codeSpans line) :
    codeQuote ∉ span :=
  not_mem_piece (mem_of_mem_quotedPieces h)

/-- The first span is what stands between the first two quotes, whatever stands behind the second. -/
theorem codeSpans_eq_cons {room code : List Char} (hroom : codeQuote ∉ room)
    (hcode : codeQuote ∉ code) (rest : List Char) :
    ∃ spans, codeSpans (room ++ codeQuote :: (code ++ codeQuote :: rest)) = code :: spans := by
  obtain ⟨p, ps, hps⟩ := exists_piece codeQuote rest
  exact ⟨quotedPieces (p :: ps), by
    rw [codeSpans, pieces_append hroom, pieces_append hcode, hps, quotedPieces]⟩

/-- A text without quotes that is written between quotes is the only span of its line. -/
theorem codeSpans_quoted {room code : List Char} (hroom : codeQuote ∉ room)
    (hcode : codeQuote ∉ code) :
    codeSpans (room ++ codeQuote :: (code ++ [codeQuote])) = [code] := by
  rw [codeSpans, pieces_append hroom, pieces_append hcode]
  rfl

theorem toList_quoted (code : String) :
    (quoted code).toList = codeQuote :: (code.toList ++ [codeQuote]) := by
  simp [quoted]

/-- A text with a quote is cut at the first one. -/
theorem exists_quote {cs : List Char} (h : codeQuote ∈ cs) :
    ∃ front back, codeQuote ∉ front ∧ cs = front ++ codeQuote :: back := by
  obtain ⟨front, back, hcs, hfront⟩ := List.eq_append_cons_of_mem h
  exact ⟨front, back, hfront, hcs⟩

end Markdown

namespace Plan

open Text Markdown

/-! ## Contexts -/

/-- The quotes that a writer puts around a text are taken off together with those at the ends of the
text itself. This is why a text with a quote at an end does not come back. -/
theorem unquoted_quoted (cs : List Char) :
    unquoted (codeQuote :: (cs ++ [codeQuote])) = unquoted cs := by
  rw [unquoted, unquoted, List.dropWhile_cons_of_pos (by simp), List.dropWhile_append]
  split
  · rename_i hempty
    rw [List.isEmpty_iff] at hempty
    rw [hempty]
    rfl
  · rw [List.reverse_append, List.reverse_singleton, List.singleton_append,
      List.dropWhile_cons_of_pos (by simp)]

theorem length_unquoted_le (cs : List Char) :
    (unquoted cs).length ≤ (cs.dropWhile (· == codeQuote)).length := by
  rw [unquoted, List.length_reverse]
  exact (List.dropWhile_suffix _).length_le.trans (by simp)

theorem not_mem_intercalate {c : Char} {sep : List Char} (hsep : c ∉ sep) {ps : List (List Char)}
    (h : ∀ p ∈ ps, c ∉ p) : c ∉ sep.intercalate ps := by
  induction ps with
  | nil => simp
  | cons p ps ih =>
    obtain ⟨hp, hps⟩ := List.forall_mem_cons.mp h
    cases ps with
    | nil => simpa using hp
    | cons q qs =>
      rw [List.intercalate_cons_cons]
      simp only [List.mem_append, not_or]
      exact ⟨⟨hp, hsep⟩, ih hps⟩

/-- What a writer puts behind a label: a space, and the text between quotes. -/
def inQuotes (code : List Char) : List Char := ' ' :: codeQuote :: (code ++ [codeQuote])

theorem no_quote_space : codeQuote ∉ [' '] := by decide

theorem codeSpans_inQuotes {code : List Char} (h : codeQuote ∉ code) :
    codeSpans (inQuotes code) = [code] :=
  codeSpans_quoted no_quote_space h

/-- A text with a quote is cut at its first one when it is read. Whatever stands behind is lost or
becomes another span. -/
theorem codeSpans_inQuotes_cut {front : List Char} (h : codeQuote ∉ front) (back : List Char) :
    ∃ spans, codeSpans (inQuotes (front ++ codeQuote :: back)) = front :: spans := by
  have hcut := codeSpans_eq_cons no_quote_space h (back ++ [codeQuote])
  simpa [inQuotes] using hcut

/-- A context is read as it was written when it has no quote, and only then. In the other direction the
spans that are read have no quotes, and the whole text, which is read when there are no spans, loses at
least the quotes at its ends. -/
theorem contextValue_quoted {code : List Char} (some : code ≠ []) (tidy : trim code = code) :
    contextValue (inQuotes code) = code ↔ codeQuote ∉ code := by
  constructor
  · intro hread hquote
    obtain ⟨front, back, hfront, hcode⟩ := exists_quote hquote
    obtain ⟨spans, hspans⟩ := codeSpans_inQuotes_cut hfront back
    rw [← hcode] at hspans
    rw [contextValue] at hread
    split at hread
    · -- without a span to show, the code starts with a quote, and loses it
      rename_i hnone
      rw [hspans, List.map_cons, List.filter_eq_nil_iff] at hnone
      have hblank : Blank front := by simpa [trim_eq_nil_iff] using hnone _ List.mem_cons_self
      have hnil : front = [] := by
        cases front with
        | nil => rfl
        | cons c front =>
          have hc := (trim_eq_self_iff.mp tidy).1 c (by rw [hcode]; rfl)
          rw [hblank c List.mem_cons_self] at hc
          cases hc
      rw [hnil, List.nil_append] at hcode
      have htrim : trim (inQuotes code) = codeQuote :: (code ++ [codeQuote]) :=
        trim_between (a := [' ']) (b := []) (by decide) (by decide) (by decide) code
      rw [htrim, unquoted_quoted, hcode] at hread
      have hshort : (trim (unquoted (codeQuote :: back))).length ≤ back.length :=
        calc (trim (unquoted (codeQuote :: back))).length
          _ ≤ (unquoted (codeQuote :: back)).length := length_trim_le _
          _ ≤ (back.dropWhile (· == codeQuote)).length := length_unquoted_le _
          _ ≤ back.length := (List.dropWhile_suffix _).length_le
      rw [hread, List.length_cons] at hshort
      omega
    · -- the spans that are shown have no quote in them, and the code has one
      have hclean : codeQuote ∉ [',', ' '].intercalate
          (((codeSpans (inQuotes code)).map trim).filter (· ≠ [])) := by
        refine not_mem_intercalate (by decide) fun p hp => ?_
        obtain ⟨span, hspan, rfl⟩ := List.mem_map.mp (List.mem_filter.mp hp).1
        exact fun hmem => no_quote_of_mem_codeSpans hspan (mem_of_mem_trim hmem)
      rw [hread] at hclean
      exact hclean hquote
  · intro hquote
    rw [contextValue, codeSpans_inQuotes hquote, List.map_singleton, tidy,
      List.filter_cons_of_pos (by simpa using some)]
    simp

/-! ## Commands -/

/-- A command is read as it was written when it has no quote, and only then: otherwise its first span
ends at the quote, before the text does. -/
theorem commandValue_quoted {code : List Char} (tidy : trim code = code) :
    commandValue (inQuotes code) = code ↔ codeQuote ∉ code := by
  constructor
  · intro hread hquote
    obtain ⟨front, back, hfront, hcode⟩ := exists_quote hquote
    obtain ⟨spans, hspans⟩ := codeSpans_inQuotes_cut hfront back
    rw [← hcode] at hspans
    rw [commandValue, hspans] at hread
    have hread : trim front = code := hread
    exact hfront (mem_of_mem_trim (hread ▸ hquote))
  · intro hquote
    rw [commandValue, codeSpans_inQuotes hquote]
    exact tidy

end Plan

end Runbook
