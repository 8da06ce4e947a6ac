import Runbook.Journal.Audit
import Runbook.Proofs.JsonText
import Runbook.Proofs.Timestamps

/-!
# Records on a line

A record is written on a line of its own and read back from it (`parse?_render`). Blanks before it do no
harm, but behind anything else on its line nothing is read (`parse?_append_render`): whatever that is, it
either may not stand there or leaves the reader inside something that the record does not end.
-/

set_option autoImplicit false

namespace Runbook

namespace Json

/-! ## Machines that have begun -/

namespace Machine

/-- Something has been read: the machine does not wait for a value that is not part of another one. From
such a state a whole record cannot be read any more. -/
def Begun (m : Machine) : Prop := m.reading = .value → m.stack ≠ []

theorem begun_complete (stack : List Frame) (v : Value) : (complete stack v).Begun := by
  cases stack with
  | nil => exact nofun
  | cons frame stack => cases frame <;> exact nofun

theorem begun_value? {stack : List Frame} {t : Token} {m : Machine} (h : value? stack t = some m) :
    m.Begun := by
  unfold value? at h
  split at h
  all_goals cases h
  all_goals first | exact begun_complete _ _ | exact nofun

/-- No token takes the machine back to its beginning, as even a value that is complete is kept. -/
theorem begun_step? {m m' : Machine} {t : Token} (h : m.step? t = some m') : m'.Begun := by
  unfold step? at h
  split at h
  · exact begun_value? h
  · cases h
    exact begun_complete _ _
  · exact begun_value? h
  all_goals cases h
  all_goals first | exact begun_complete _ _ | exact fun _ => List.cons_ne_nil _ _ | exact nofun

/-- Some tokens cannot be read at all, or they leave the machine begun for what follows them. -/
theorem run?_append {ts : List Token} (some : ts ≠ []) (m : Machine) :
    (∀ us, run? m (ts ++ us) = none) ∨
      ∃ m', m'.Begun ∧ ∀ us, run? m (ts ++ us) = run? m' us := by
  induction ts generalizing m with
  | nil => exact absurd rfl some
  | cons t ts ih =>
    cases hstep : m.step? t with
    | none => exact .inl fun us => by rw [List.cons_append, run?, hstep]
    | some next =>
      have hrun : ∀ us, run? m (t :: ts ++ us) = run? next (ts ++ us) := fun us => by
        rw [List.cons_append, run?, hstep]
      by_cases hts : ts = []
      · subst hts
        exact .inr ⟨next, begun_step? hstep, hrun⟩
      · rcases ih hts next with hnone | ⟨m', hbegun, hread⟩
        · exact .inl fun us => (hrun us).trans (hnone us)
        · exact .inr ⟨m', hbegun, fun us => (hrun us).trans (hread us)⟩

end Machine

/-- A member that is a field not found yet is kept. A name that comes twice would be an error, so
distinct names have to be asked for. -/
theorem membersAmong?_new {names : List String} {found : Fields} {name : String} (mem : name ∈ names)
    (new : found.lookup name = none) (v : Value) (rest : List (List Piece × Value)) :
    membersAmong? names found ((piecesOf name, v) :: rest) =
      membersAmong? names ((name, v) :: found) rest := by
  rw [membersAmong?, textOf?_piecesOf]
  simp [mem, new]

/-- A character that is no part of a word ends it. -/
theorem tokensFrom?_word {c : Char} (h : isWordPart c = false) (found : List Token) (read : List Char)
    (rest : List Char) :
    tokensFrom? found (.word read) (c :: rest) =
      (wordToken? read.reverse).bind fun t => tokensFrom? (t :: found) .between (c :: rest) := by
  cases hword : wordToken? read.reverse with
  | none => rw [tokensFrom?, Lexing.next?, h, hword]; rfl
  | some t =>
    cases hstart : Lexing.start? c with
    | none => simp [tokensFrom?, Lexing.next?, h, hword, hstart]
    | some next => simp [tokensFrom?, Lexing.next?, h, hword, hstart]

end Json

namespace Audit.Record

open Json

/-! ## Reading a record -/

theorem toList_members (a b c d e f : String) :
    ("\x7b" ++ a ++ ":" ++ b ++ "," ++ c ++ ":" ++ d ++ "," ++ e ++ ":" ++ f ++ "\x7d").toList =
      '\x7b' :: (a.toList ++ ':' :: (b.toList ++ ',' :: (c.toList ++ ':' :: (d.toList ++
        ',' :: (e.toList ++ ':' :: (f.toList ++ ['\x7d'])))))) := by
  simp

/-- The characters of a record that is written: three members between braces, in this order and without
blanks. -/
theorem toList_render (r : Record) :
    r.render.toList = '\x7b' :: ((quote "timestamp").toList ++ ':' :: ((quote r.time.render).toList ++
      ',' :: ((quote "level").toList ++ ':' :: ((quote r.entry.level.word).toList ++
      ',' :: ((quote "message").toList ++ ':' :: ((quote r.entry.message).toList ++ ['\x7d'])))))) :=
  toList_members _ _ _ _ _ _

/-- The tokens of a record that is written. -/
def tokens (r : Record) : List Token :=
  [.mark '\x7b', .text (piecesOf "timestamp"), .mark ':', .text (piecesOf r.time.render), .mark ',',
    .text (piecesOf "level"), .mark ':', .text (piecesOf r.entry.level.word), .mark ',',
    .text (piecesOf "message"), .mark ':', .text (piecesOf r.entry.message), .mark '\x7d']

/-- A record that is written is read as its tokens, whatever has been found before it on the line. -/
theorem tokensFrom?_render (r : Record) (found : List Token) :
    tokensFrom? found .between r.render.toList = some (found.reverse ++ r.tokens) := by
  have hopen : isMark '\x7b' = true := by decide
  have hcolon : isMark ':' = true := by decide
  have hcomma : isMark ',' = true := by decide
  have hclose : isMark '\x7d' = true := by decide
  rw [toList_render]
  simp only [tokensFrom?_mark hopen, tokensFrom?_mark hcolon, tokensFrom?_mark hcomma,
    tokensFrom?_mark hclose, tokensFrom?_quote]
  simp [tokensFrom?, Lexing.finish?, tokens]

/-- The value of a record that is written. -/
def value (r : Record) : Value :=
  .object [(piecesOf "timestamp", .text (piecesOf r.time.render)),
    (piecesOf "level", .text (piecesOf r.entry.level.word)),
    (piecesOf "message", .text (piecesOf r.entry.message))]

theorem run?_tokens (r : Record) : Machine.run? {} r.tokens = some r.value := rfl

/-- The fields of a record that is written, the last one first. -/
def fields (r : Record) : Fields :=
  [("message", .text (piecesOf r.entry.message)), ("level", .text (piecesOf r.entry.level.word)),
    ("timestamp", .text (piecesOf r.time.render))]

/-- All members of a record are fields of it, and none is missing or found twice. -/
theorem fields?_value (r : Record) : r.value.fields? fieldNames = some r.fields := by
  rw [value, Value.fields?, membersAmong?_new (by decide) rfl, membersAmong?_new (by decide) rfl,
    membersAmong?_new (by decide) rfl]
  rfl

theorem get?_fields {α : Type} (r : Record) (read : Value → Option α) :
    r.fields.get? "timestamp" read = read (.text (piecesOf r.time.render)) ∧
      r.fields.get? "level" read = read (.text (piecesOf r.entry.level.word)) ∧
      r.fields.get? "message" read = read (.text (piecesOf r.entry.message)) :=
  ⟨rfl, rfl, rfl⟩

theorem ofValue?_value {r : Record} (h : r.time.inRange = true) : ofValue? r.value = some r := by
  have htime : r.fields.get? "timestamp" (fun v => v.string?.bind Time.Instant.parse?) = some r.time := by
    rw [(get?_fields r _).1, Value.string?, textOf?_piecesOf, Option.bind_some,
      Time.Instant.parse?_render h]
  have hlevel : r.fields.get? "level" (fun v => v.word?.bind Level.ofWord?) = some r.entry.level := by
    rw [(get?_fields r _).2.1, Value.word?, textOf?_piecesOf, Option.bind_some, Level.ofWord?_word]
  have hmessage : r.fields.get? "message" Value.string? = some r.entry.message := by
    rw [(get?_fields r _).2.2, Value.string?, textOf?_piecesOf]
  rw [ofValue?, fields?_value]
  refine Option.bind_eq_some_iff.mpr ⟨_, rfl, ?_⟩
  refine Option.bind_eq_some_iff.mpr ⟨_, htime, ?_⟩
  refine Option.bind_eq_some_iff.mpr ⟨_, hlevel, ?_⟩
  exact Option.bind_eq_some_iff.mpr ⟨_, hmessage, rfl⟩

/-- A record whose time can be written is read back, with any message. Quotes and control characters are
escaped and the rest is written as it is. -/
theorem parse?_render {r : Record} (h : r.time.inRange = true) : parse? r.render = some r := by
  rw [parse?, Json.parse?, tokens?, tokensFrom?_render, Option.bind_some]
  show (Machine.run? {} r.tokens).bind ofValue? = some r
  rw [run?_tokens, Option.bind_some, ofValue?_value h]

/-- A record stays on its line, so the records of a file can be told apart by line feeds. -/
theorem feed_not_mem_render (r : Record) : '\n' ∉ r.render.toList := by
  rw [toList_render]
  simp [feed_not_mem_quote]

/-- A record ends with its brace, so what is written behind it can be nothing that belongs to it. -/
theorem getLast?_render (r : Record) : r.render.toList.getLast? = some '\x7d' := by
  have hbrace : ∀ s : String, (s ++ "\x7d").toList.getLast? = some '\x7d' := by
    intro s
    simp
  exact hbrace _

/-! ## Reading behind something else -/

/-- What has begun before a record does not end with it: the record would have to be a part of it, and
its last brace leaves it open. -/
theorem run?_tokens_of_begun {m : Machine} (begun : m.Begun) (r : Record) : m.run? r.tokens = none := by
  obtain ⟨stack, reading⟩ := m
  -- only where a value is waited for may there be a brace, and then another value goes on behind it
  cases reading with
  | value =>
    cases stack with
    | nil => exact absurd rfl (begun rfl)
    | cons frame stack => cases frame <;> rfl
  | _ => rfl

/-- Within quotes the record's first quote ends them, and its first name is no token. So nothing is
read, though each of the two texts might be fine by itself. -/
theorem tokensFrom?_render_quoted (r : Record) (found : List Token) (read : List Piece) :
    tokensFrom? found (.quoted read) r.render.toList = none := by
  rw [toList_render]
  rfl

theorem parse?_append_of_blank {tail : List Char} (blank : tail.all isSpace = true) (r : Record) :
    Json.parse? (String.ofList (tail ++ r.render.toList)) = Json.parse? r.render := by
  rw [Json.parse?, Json.parse?, tokens?, tokens?, String.toList_ofList, tokensFrom?_blank blank]

/-- Behind anything but blanks a record is not read, nor is there any value on its line. What is lost is
both: the part of a line that was there, and the record. -/
theorem parse?_append_render {tail : List Char} (some : tail.all isSpace = false) (r : Record) :
    Json.parse? (String.ofList (tail ++ r.render.toList)) = none := by
  rw [Json.parse?, tokens?, String.toList_ofList]
  rcases tokensFrom?_append tail [] .between with hnone | ⟨found, state, hread, hidle⟩
  · rw [hnone]
    rfl
  · have hbegun : ∀ ts : List Token, ts ≠ [] →
        ((tokensFrom? ts.reverse .between r.render.toList).bind fun tokens =>
          Machine.run? {} tokens) = none := by
      intro ts hts
      rw [tokensFrom?_render, Option.bind_some, List.reverse_reverse]
      rcases Machine.run?_append hts {} with hnone | ⟨m, hm, hrun⟩
      · exact hnone _
      · rw [hrun, run?_tokens_of_begun hm]
    rw [hread]
    -- the record begins where the text before it has left the machine
    cases state with
    | between =>
      have hfound : found.reverse ≠ [] := by
        intro hnil
        rw [List.reverse_eq_nil_iff] at hnil
        have := (hidle.mp ⟨hnil, rfl⟩).2
        rw [some] at this
        cases this
      have hrecord := hbegun found.reverse hfound
      rwa [List.reverse_reverse] at hrecord
    | word read =>
      -- a brace ends the word, which is a token before it
      have hbrace : isWordPart '\x7b' = false := by decide
      have hword := tokensFrom?_word hbrace found read
      rw [toList_render] at hbegun ⊢
      rw [hword]
      cases wordToken? read.reverse with
      | none => rfl
      | some t =>
        have hrecord := hbegun (t :: found).reverse (by simp)
        rw [List.reverse_reverse] at hrecord
        rw [Option.bind_some, hrecord]
    | quoted read =>
      rw [tokensFrom?_render_quoted]
      rfl
    | escaped read =>
      rw [toList_render]
      rfl
    | unit read digits value =>
      rw [toList_render]
      rfl

/-- What is read of a record behind the part of a line: the record when the part is blank, and otherwise
nothing. -/
theorem parse?_behind {r : Record} (h : r.time.inRange = true) (tail : List Char) :
    parse? (String.ofList (tail ++ r.render.toList)) = if tail.all isSpace then some r else none := by
  cases hblank : tail.all isSpace with
  | false =>
    rw [parse?, parse?_append_render hblank]
    rfl
  | true =>
    rw [parse?, parse?_append_of_blank hblank]
    exact parse?_render h

theorem parse?_of_blank {cs : List Char} (blank : cs.all isSpace = true) :
    parse? (String.ofList cs) = none := by
  have htokens : tokens? cs = some [] := by
    rw [tokens?, ← List.append_nil cs, tokensFrom?_blank blank]
    rfl
  rw [parse?, Json.parse?, String.toList_ofList, htokens]
  rfl

end Audit.Record

end Runbook
