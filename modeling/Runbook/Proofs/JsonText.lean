import Mathlib.Tactic.SplitIfs
import Mathlib.Tactic.Tauto
import Runbook.Json.Token

/-!
# Quoted texts are read back

A text between quotes is one token, and the text of the token is the one that was quoted
(`tokensFrom?_quote`, `textOf?_piecesOf`).

A text behind another is read from where the machine is at the end of the other one
(`tokensFrom?_append`). Only blanks leave the machine as they found it.
-/

set_option autoImplicit false

namespace Runbook.Json

/-! ## Characters that are escaped -/

/-- A character is escaped by a letter, escaped by its number, or written as it is. The numbers are
those of control characters only, so four digits always suffice. -/
theorem escape_cases (c : Char) :
    (∃ d, escape c = ['\\', d] ∧ simpleEscape? d = some c) ∨
      escape c = controlEscape c ∧ c.toNat < 0x20 ∨
        escape c = [c] ∧ c ≠ '"' ∧ c ≠ '\\' ∧ ¬ c.toNat < 0x20 := by
  unfold escape
  split_ifs with hquote hslash hback hform hfeed hreturn htab hsmall
  · exact .inl ⟨'"', rfl, by rw [hquote]; rfl⟩
  · exact .inl ⟨'\\', rfl, by rw [hslash]; rfl⟩
  · exact .inl ⟨'b', rfl, by rw [hback]; rfl⟩
  · exact .inl ⟨'f', rfl, by rw [hform]; rfl⟩
  · exact .inl ⟨'n', rfl, by rw [hfeed]; rfl⟩
  · exact .inl ⟨'r', rfl, by rw [hreturn]; rfl⟩
  · exact .inl ⟨'t', rfl, by rw [htab]; rfl⟩
  · exact .inr (.inl ⟨rfl, hsmall⟩)
  · exact .inr (.inr ⟨rfl, hquote, hslash, hsmall⟩)

/-- The piece that a character is read as when it has been quoted: a unit if it is escaped by its
number. -/
def pieceOf (c : Char) : Piece := if escape c = controlEscape c then .unit c.toNat else .char c

def piecesOf (s : String) : List Piece := s.toList.map pieceOf

theorem pieceOf_of_ne {c : Char} (h : escape c ≠ controlEscape c) : pieceOf c = .char c := if_neg h

/-- The pieces of a quoted character give the character back whatever follows. A unit on its own could
be half of a surrogate pair, but no character below the blank is one. -/
theorem charsOf?_pieceOf (c : Char) (ps : List Piece) :
    charsOf? (pieceOf c :: ps) = (charsOf? ps).map (c :: ·) := by
  by_cases h : escape c = controlEscape c
  · have hsmall : c.toNat < 0x20 := by
      rcases escape_cases c with ⟨d, hd, -⟩ | ⟨-, hsmall⟩ | ⟨hself, -⟩
      · rw [hd] at h
        cases h
      · exact hsmall
      · rw [hself] at h
        cases h
    have htrailing : isTrailing c.toNat = false := by simp [isTrailing]; omega
    have hleading : isLeading c.toNat = false := by simp [isLeading]; omega
    rw [pieceOf, if_pos h, charsOf?.eq_def (.unit c.toNat :: ps)]
    dsimp only
    rw [htrailing, hleading, Char.ofNat_toNat]
    rfl
  · rw [pieceOf_of_ne h, charsOf?]

/-- A text that has been quoted is put together again from its pieces. -/
theorem textOf?_piecesOf (s : String) : textOf? (piecesOf s) = some s := by
  have hchars : ∀ cs : List Char, charsOf? (cs.map pieceOf) = some cs := by
    intro cs
    induction cs with
    | nil => rfl
    | cons c cs ih => rw [List.map_cons, charsOf?_pieceOf, ih, Option.map_some]
  rw [textOf?, piecesOf, hchars, Option.map_some, String.ofList_toList]

/-! ## The machine inside quotes -/

theorem tokensFrom?_step {state state' : Lexing} {c : Char} {tokens : List Token}
    (h : state.next? c = some (tokens, state')) (found : List Token) (cs : List Char) :
    tokensFrom? found state (c :: cs) = tokensFrom? (tokens.reverse ++ found) state' cs := by
  rw [tokensFrom?, h]

/-- The digits that a number is written with are read as what they stand for. -/
theorem hexDigit?_digitChar : ∀ d < 16, hexDigit? (Nat.digitChar d) = some d := by decide

/-- A character is read from what is written for it. The machine goes through two, six or one characters
and is inside the quotes again behind them. -/
theorem tokensFrom?_escape (c : Char) (found : List Token) (read : List Piece) (rest : List Char) :
    tokensFrom? found (.quoted read) (escape c ++ rest) =
      tokensFrom? found (.quoted (pieceOf c :: read)) rest := by
  rcases escape_cases c with ⟨d, hd, hletter⟩ | ⟨hcontrol, hsmall⟩ | ⟨hself, hquote, hslash, hlarge⟩
  · have hpiece : pieceOf c = .char c := pieceOf_of_ne (by rw [hd]; exact nofun)
    have hback : Lexing.next? (.escaped read) d = some ([], .quoted (.char c :: read)) := by
      rw [Lexing.next?, hletter]
    rw [hd, hpiece]
    exact tokensFrom?_step hback found rest
  · have hpiece : pieceOf c = .unit c.toNat := if_pos hcontrol
    have hhigh := hexDigit?_digitChar (c.toNat / 16) (by omega)
    have hlow := hexDigit?_digitChar (c.toNat % 16) (by omega)
    have hthird : Lexing.next? (.unit read 2 0) (Nat.digitChar (c.toNat / 16)) =
        some ([], .unit read 3 (c.toNat / 16)) := by
      rw [Lexing.next?, hhigh, Option.map_some, if_neg (by decide), Nat.zero_mul, Nat.zero_add]
    have hfourth : Lexing.next? (.unit read 3 (c.toNat / 16)) (Nat.digitChar (c.toNat % 16)) =
        some ([], .quoted (.unit c.toNat :: read)) := by
      rw [Lexing.next?, hlow, Option.map_some, if_pos rfl, Nat.div_add_mod']
    rw [hcontrol, hpiece]
    show tokensFrom? found (.unit read 2 0) (_ :: _ :: rest) = _
    rw [tokensFrom?_step hthird, tokensFrom?_step hfourth]
    rfl
  · have hpiece : pieceOf c = .char c := pieceOf_of_ne (by rw [hself]; exact nofun)
    have hnext : Lexing.next? (.quoted read) c = some ([], .quoted (.char c :: read)) := by
      rw [Lexing.next?, if_neg hquote, if_neg hslash, if_neg hlarge]
    rw [hself, hpiece]
    exact tokensFrom?_step hnext found rest

/-- Inside quotes the machine reads piece by piece and stays inside: no character of a quoted text, not
even a quote, ends it. -/
theorem tokensFrom?_escaped (cs : List Char) (found : List Token) (read : List Piece)
    (rest : List Char) :
    tokensFrom? found (.quoted read) (cs.flatMap escape ++ rest) =
      tokensFrom? found (.quoted ((cs.map pieceOf).reverse ++ read)) rest := by
  induction cs generalizing read with
  | nil => rfl
  | cons c cs ih =>
    rw [List.flatMap_cons, List.append_assoc, tokensFrom?_escape, ih, List.map_cons,
      List.reverse_cons, List.append_assoc]
    rfl

theorem toList_quote (s : String) :
    (quote s).toList = '"' :: (s.toList.flatMap escape ++ ['"']) := String.toList_ofList

/-- A quoted text is one token, and the machine is between tokens behind it, ready for any rest. -/
theorem tokensFrom?_quote (s : String) (found : List Token) (rest : List Char) :
    tokensFrom? found .between ((quote s).toList ++ rest) =
      tokensFrom? (.text (piecesOf s) :: found) .between rest := by
  have hopen : Lexing.next? .between '"' = some ([], .quoted []) := rfl
  have hclose : Lexing.next? (.quoted (s.toList.map pieceOf).reverse) '"' =
      some ([.text (piecesOf s)], .between) := by
    rw [Lexing.next?, if_pos rfl, List.reverse_reverse]
    rfl
  rw [toList_quote, List.cons_append, List.append_assoc, tokensFrom?_step hopen, tokensFrom?_escaped,
    List.append_nil]
  exact tokensFrom?_step hclose found rest

theorem tokensFrom?_mark {c : Char} (h : isMark c = true) (found : List Token) (rest : List Char) :
    tokensFrom? found .between (c :: rest) = tokensFrom? (.mark c :: found) .between rest := by
  have hnext : Lexing.next? .between c = some ([.mark c], .between) := by
    simp only [isMark, Bool.or_eq_true, beq_iff_eq, or_assoc] at h
    rcases h with rfl | rfl | rfl | rfl | rfl | rfl <;> rfl
  exact tokensFrom?_step hnext found rest

/-- A quoted text has no line feed in it, so a record stays on its line whatever texts it holds. -/
theorem feed_not_mem_quote (s : String) : '\n' ∉ (quote s).toList := by
  have hescape : ∀ c, '\n' ∉ escape c := by
    intro c hmem
    rcases escape_cases c with ⟨d, hd, hletter⟩ | ⟨hcontrol, -⟩ | ⟨hself, -, -, hlarge⟩
    · rw [hd, List.mem_cons, List.mem_singleton] at hmem
      rcases hmem with hfeed | rfl
      · cases hfeed
      · cases hletter
    · have hhigh : (c.toNat / 16).digitChar ≠ '\n' := Nat.digitChar_ne _ rfl
      have hlow : (c.toNat % 16).digitChar ≠ '\n' := Nat.digitChar_ne _ rfl
      rw [hcontrol] at hmem
      simp [controlEscape, hhigh.symm, hlow.symm] at hmem
    · rw [hself, List.mem_singleton] at hmem
      rw [← hmem] at hlarge
      exact hlarge (by decide)
  rw [toList_quote]
  simpa using fun c _ => hescape c

/-! ## A text behind another -/

theorem tokensFrom?_blank {front : List Char} (blank : front.all isSpace = true) (found : List Token)
    (rest : List Char) :
    tokensFrom? found .between (front ++ rest) = tokensFrom? found .between rest := by
  induction front with
  | nil => rfl
  | cons c front ih =>
    rw [List.all_cons, Bool.and_eq_true] at blank
    have hnext : Lexing.next? .between c = some ([], .between) := by
      rw [Lexing.next?, Lexing.start?, if_pos blank.1]
    rw [List.cons_append, tokensFrom?_step hnext]
    exact ih blank.2

namespace Lexing

/-- Only a blank leaves the machine between tokens and gives none. So a front that the machine has come
through without a trace was blank. -/
theorem next?_idle {state state' : Lexing} {c : Char} {tokens : List Token}
    (h : state.next? c = some (tokens, state')) :
    tokens = [] ∧ state' = .between ↔ state = .between ∧ isSpace c = true := by
  -- any other way from a state completes a token or ends elsewhere
  cases state with
  | between =>
    rw [next?, start?] at h
    by_cases hspace : isSpace c = true
    · rw [if_pos hspace] at h
      cases h
      simp [hspace]
    · rw [if_neg hspace] at h
      split_ifs at h
      all_goals
        cases h
        simp [hspace]
  | word read =>
    rw [next?] at h
    split_ifs at h
    · cases h
      simp
    · obtain ⟨t, -, hstart⟩ := Option.bind_eq_some_iff.mp h
      obtain ⟨started, -, heq⟩ := Option.map_eq_some_iff.mp hstart
      cases heq
      simp
  | quoted read =>
    rw [next?] at h
    split_ifs at h
    all_goals
      cases h
      simp
  | escaped read =>
    rw [next?] at h
    split at h
    · cases h
      simp
    · split_ifs at h
      cases h
      simp
  | unit read digits value =>
    rw [next?] at h
    obtain ⟨d, -, heq⟩ := Option.map_eq_some_iff.mp h
    split_ifs at heq
    all_goals
      cases heq
      simp

end Lexing

/-- A text comes to a character that may not stand where it does, or leaves the machine somewhere. It
has left no trace only if it is blank and there was none before, which is what decides whether something
that is written behind it can still be read. -/
theorem tokensFrom?_append (front : List Char) (found : List Token) (state : Lexing) :
    (∀ rest, tokensFrom? found state (front ++ rest) = none) ∨
      ∃ found' state', (∀ rest, tokensFrom? found state (front ++ rest) =
          tokensFrom? found' state' rest) ∧
        (found' = [] ∧ state' = .between ↔
          (found = [] ∧ state = .between) ∧ front.all isSpace = true) := by
  -- what is idle behind a text has been idle at each of its characters
  induction front generalizing found state with
  | nil => exact .inr ⟨found, state, fun _ => rfl, by simp⟩
  | cons c front ih =>
    cases hnext : state.next? c with
    | none =>
      refine .inl fun rest => ?_
      rw [List.cons_append, tokensFrom?, hnext]
    | some next =>
      obtain ⟨tokens, state'⟩ := next
      rcases ih (tokens.reverse ++ found) state' with hnone | ⟨found'', state'', hread, hidle⟩
      · refine .inl fun rest => ?_
        rw [List.cons_append, tokensFrom?_step hnext, hnone]
      · refine .inr ⟨found'', state'', fun rest => ?_, ?_⟩
        · rw [List.cons_append, tokensFrom?_step hnext, hread]
        · have hstep := Lexing.next?_idle hnext
          rw [hidle, List.append_eq_nil_iff, List.reverse_eq_nil_iff, List.all_cons, Bool.and_eq_true]
          tauto

end Runbook.Json
