import Mathlib.Data.List.Chain
import Runbook.Plan.Template
import Runbook.Proofs.Document

/-!
# Titles of plans that are made from a template

A name becomes a title word by word, with a capital in front of each. Behind the front of a word there are
small letters, so no `S` and no `T` follows a star (`apart_title`), and the markers of the status and of
the type have both. The last word is `Plan`, and no section is called that. Line ends are blanks and stand
between words. So whatever the name of a plan is, its title can be written (`sound_title`).
-/

set_option autoImplicit false

namespace Runbook

open Text Markdown

namespace Text

/-! ## What the case tables lead to -/

/-- No code point beyond ASCII is led to another one by a run of a table. A run covers code points that
are shifted by the same number, so this is a question about three numbers and can be put to each run of
a table. -/
def CaseRun.Misses (m : Nat) (r : CaseRun) : Prop :=
  (r.last : Int) < m - r.shift ∨ (m : Int) - r.shift < r.first ∨ (m : Int) - r.shift < 0x80

instance (m : Nat) (r : CaseRun) : Decidable (r.Misses m) := inferInstanceAs (Decidable (_ ∨ _ ∨ _))

/-- If all runs of a table miss a code point, nothing beyond ASCII is led to it. -/
theorem image?_ne {table : List CaseRun} {m : Nat} (some : 0 < m) (misses : ∀ r ∈ table, r.Misses m)
    {n i : Nat} (wide : 0x80 ≤ n) (image : CaseRun.image? table n = .some i) : i ≠ m := by
  rintro rfl
  rw [CaseRun.image?, Option.map_eq_some_iff] at image
  obtain ⟨r, hr, himage⟩ := image
  have hcovers := List.find?_some hr
  simp only [Bool.and_eq_true, decide_eq_true_eq] at hcovers
  have hmisses := misses r (List.mem_of_find?_eq_some hr)
  unfold CaseRun.Misses at hmisses
  omega

theorem eq_of_ofNat_eq {m : Nat} {d : Char} (h : Char.ofNat m = d) (some : d ≠ '\x00') :
    m = d.toNat := by
  by_cases hvalid : m.isValidChar
  · rw [Char.ofNat, dif_pos hvalid] at h
    rw [← h]
    rfl
  · rw [Char.ofNat, dif_neg hvalid] at h
    exact absurd h.symm some

/-- The characters that matter in a title come from themselves only, but for ASCII. Tables are gone
through once, run by run; their thousands of code points are not. -/
theorem not_mem_lowerChar {d : Char} (hd : d = '\n' ∨ d = 'S' ∨ d = 'T') {c : Char}
    (wide : 0x80 ≤ c.toNat) (other : c ≠ d) : d ∉ lowerChar c := by
  have hzero : d ≠ '\x00' ∧ 0 < d.toNat := by
    rcases hd with rfl | rfl | rfl <;> decide
  have hmisses : ∀ r ∈ lowerRuns, r.Misses d.toNat := by
    rcases hd with rfl | rfl | rfl <;> decide +kernel
  have hdotted : d ∉ ['i', Char.ofNat 0x307] := by
    rcases hd with rfl | rfl | rfl <;> decide
  unfold lowerChar
  split
  · omega
  · split
    · exact hdotted
    · split
      · rename_i n hn
        rw [List.mem_singleton]
        exact fun h => image?_ne hzero.2 hmisses wide hn (eq_of_ofNat_eq h.symm hzero.1)
      · simpa using Ne.symm other

/-- What has been looked up for the code points of ASCII holds of its characters. There are few enough
to look at each. -/
theorem forall_ascii {P : Char → Prop} (h : ∀ n < 0x80, P (Char.ofNat n)) :
    ∀ c : Char, c.toNat < 0x80 → P c := by
  intro c hascii
  have hc := h c.toNat hascii
  rwa [Char.ofNat_toNat] at hc

theorem ascii : ∀ c : Char, c.toNat < 0x80 → c.toLower ≠ 'S' ∧ c.toLower ≠ 'T' ∧
    (c.toLower = '\n' → c = '\n') ∧ (c.toUpper = '\n' → c = '\n') :=
  forall_ascii (by decide +kernel)

/-- Small letters are no capitals. -/
theorem capital_not_mem_lowerChar {d : Char} (hd : d = 'S' ∨ d = 'T') (c : Char) :
    d ∉ lowerChar c := by
  by_cases hascii : c.toNat < 0x80
  · obtain ⟨hS, hT, -, -⟩ := ascii c hascii
    rw [lowerChar, if_pos hascii, List.mem_singleton]
    rcases hd with rfl | rfl
    · exact Ne.symm hS
    · exact Ne.symm hT
  · refine not_mem_lowerChar (.inr hd) (by omega) ?_
    rintro rfl
    rcases hd with rfl | rfl <;> exact hascii (by decide)

theorem feed_of_mem_lowerChar {c : Char} (h : '\n' ∈ lowerChar c) : c = '\n' := by
  by_cases hascii : c.toNat < 0x80
  · rw [lowerChar, if_pos hascii, List.mem_singleton] at h
    exact (ascii c hascii).2.2.1 h.symm
  · by_contra hother
    exact not_mem_lowerChar (.inl rfl) (by omega) hother h

theorem feed_of_mem_upperChar {c : Char} (h : '\n' ∈ upperChar c) : c = '\n' := by
  have hmisses : ∀ r ∈ upperRuns, r.Misses 10 := by decide +kernel
  have hspecial : ∀ e ∈ upperSpecial, '\n' ∉ e.2.map Char.ofNat := by decide +kernel
  unfold upperChar at h
  split at h
  · rename_i hascii
    exact (ascii c hascii).2.2.2 (List.mem_singleton.mp h).symm
  · rename_i hwide
    split at h
    · rename_i ns hns
      obtain ⟨before, after, htable, -⟩ := List.lookup_eq_some_iff.mp hns
      exact absurd h (hspecial (c.toNat, ns) (by rw [htable]; simp))
    · split at h
      · rename_i n hn
        have hfeed := eq_of_ofNat_eq (List.mem_singleton.mp h).symm (by decide)
        exact absurd hfeed (image?_ne (by decide) hmisses (by omega) hn)
      · exact (List.mem_singleton.mp h).symm

/-! ## Capitals behind stars -/

/-- The character `d` does not follow a star. Field markers begin with two stars and the capital of a
label, so a text in which no such capital follows a star has no marker. -/
def Apart (d : Char) (cs : List Char) : Prop := cs.IsChain fun a b => ¬ (a = '*' ∧ b = d)

variable {d : Char}

theorem Apart.no_pair {cs : List Char} (h : Apart d cs) : ¬ ['*', d] <:+: cs := by
  intro hinfix
  have hpair := List.IsChain.infix h hinfix
  rw [List.isChain_pair] at hpair
  exact hpair ⟨rfl, rfl⟩

theorem apart_of_not_mem {cs : List Char} (h : d ∉ cs) : Apart d cs := by
  induction cs with
  | nil => exact .nil
  | cons a cs ih =>
    rw [List.mem_cons, not_or] at h
    refine List.isChain_cons.mpr ⟨fun b hb hpair => ?_, ih h.2⟩
    exact h.2 (hpair.2 ▸ List.mem_of_head? hb)

theorem Apart.cons {a : Char} (noStar : a ≠ '*') {cs : List Char} (h : Apart d cs) :
    Apart d (a :: cs) :=
  List.isChain_cons.mpr ⟨fun _ _ hpair => noStar hpair.1, h⟩

theorem apart_of_no_star {cs : List Char} (h : '*' ∉ cs) : Apart d cs := by
  induction cs with
  | nil => exact .nil
  | cons a cs ih =>
    rw [List.mem_cons, not_or] at h
    exact (ih h.2).cons (Ne.symm h.1)

/-- Texts that are put together stay apart, if the second one does not begin with the character. -/
theorem Apart.append {cs ds : List Char} (hcs : Apart d cs) (hds : Apart d ds)
    (front : ∀ c, ds.head? = some c → c ≠ d) : Apart d (cs ++ ds) :=
  List.isChain_append.mpr ⟨hcs, hds, fun _ _ c hc hpair => front c hc hpair.2⟩

theorem apart_upperChar (c : Char) : Apart d (upperChar c) := by
  have hspecial : ∀ e ∈ upperSpecial, '*' ∉ e.2.map Char.ofNat := by decide +kernel
  unfold upperChar
  split
  · exact .singleton _
  · split
    · rename_i ns hns
      obtain ⟨before, after, htable, -⟩ := List.lookup_eq_some_iff.mp hns
      exact apart_of_no_star (hspecial (c.toNat, ns) (by rw [htable]; simp))
    · split <;> exact .singleton _

end Text

/-! ## Words and titles -/

namespace PlanName

/-- A word is not empty and is made of characters that are kept. -/
theorem mem_stretches {keep : Char → Bool} (cs : List Char) :
    ∀ s ∈ stretches keep cs, s ≠ [] ∧ ∀ c ∈ s, keep c = true ∧ c ∈ cs := by
  have widen : ∀ {c : Char} {cs : List Char} {s : List Char}, (∀ d ∈ s, keep d = true ∧ d ∈ cs) →
      ∀ d ∈ s, keep d = true ∧ d ∈ c :: cs :=
    fun h d hd => ⟨(h d hd).1, List.mem_cons_of_mem _ (h d hd).2⟩
  fun_induction stretches keep cs with
  | case1 => simp
  | case2 c hc => simp [hc]
  | case3 c hc d cs hd hnone ih => simp [hnone, hc]
  | case4 c hc d cs hd s ss hss ih =>
    rw [hss] at ih ⊢
    obtain ⟨hs, hrest⟩ := List.forall_mem_cons.mp ih
    refine List.forall_mem_cons.mpr ⟨⟨List.cons_ne_nil _ _, ?_⟩, fun s hs => ?_⟩
    · exact List.forall_mem_cons.mpr ⟨⟨hc, List.mem_cons_self⟩, widen hs.2⟩
    · exact ⟨(hrest s hs).1, widen (hrest s hs).2⟩
  | case5 c hc d cs hd ih =>
    refine List.forall_mem_cons.mpr ⟨by simp [hc], fun s hs => ⟨(ih s hs).1, widen (ih s hs).2⟩⟩
  | case6 c cs hc ih => exact fun s hs => ⟨(ih s hs).1, widen (ih s hs).2⟩

theorem not_mem_stretches {keep : Char → Bool} {c : Char} (hc : keep c = false) (cs : List Char) :
    ∀ s ∈ stretches keep cs, c ∉ s := by
  intro s hs hmem
  obtain ⟨-, hkept⟩ := mem_stretches cs s hs
  rw [(hkept c hmem).1] at hc
  cases hc

/-- In a capitalized word no `S` and no `T` follows a star: only the front of a word has capitals, and
there is nothing of the word before it. -/
theorem apart_capitalized {d : Char} (hd : d = 'S' ∨ d = 'T') (word : List Char) :
    Apart d (capitalized word) := by
  cases word with
  | nil => exact .nil
  | cons c cs =>
    have hrest : d ∉ cs.flatMap lowerChar := by
      rw [List.mem_flatMap]
      rintro ⟨c', -, hmem⟩
      exact capital_not_mem_lowerChar hd c' hmem
    refine (apart_upperChar c).append (apart_of_not_mem hrest) fun c' hc' => ?_
    rintro rfl
    exact hrest (List.mem_of_head? hc')

theorem feed_not_mem_capitalized {word : List Char} (h : '\n' ∉ word) : '\n' ∉ capitalized word := by
  cases word with
  | nil => exact h
  | cons c cs =>
    rw [List.mem_cons, not_or] at h
    rw [capitalized, List.mem_append, List.mem_flatMap, not_or]
    refine ⟨fun hmem => h.1 (feed_of_mem_upperChar hmem).symm, ?_⟩
    rintro ⟨c', hc', hmem⟩
    exact h.2 (feed_of_mem_lowerChar hmem ▸ hc')

/-- What holds of words, and of two texts with a separator between them if it holds of both, holds of
the words with a separator between each two. Facts about titles are shown word by word in this way. -/
theorem intercalate_joined {sep : Char} {P : List Char → Prop}
    (join : ∀ w cs, P w → P cs → P (w ++ sep :: cs)) {words : List (List Char)} (some : words ≠ [])
    (h : ∀ w ∈ words, P w) : P ([sep].intercalate words) := by
  induction words with
  | nil => exact absurd rfl some
  | cons w words ih =>
    obtain ⟨hw, hwords⟩ := List.forall_mem_cons.mp h
    cases words with
    | nil => simpa using hw
    | cons v words =>
      rw [List.intercalate_cons_cons, List.append_assoc, List.singleton_append]
      exact join w _ hw (ih (List.cons_ne_nil _ _) hwords)

theorem intercalate_spaces {P : List Char → Prop} (empty : P [])
    (join : ∀ w cs, P w → P cs → P (w ++ ' ' :: cs)) {words : List (List Char)}
    (h : ∀ w ∈ words, P w) : P ([' '].intercalate words) := by
  cases words with
  | nil => exact empty
  | cons w words => exact intercalate_joined join (List.cons_ne_nil _ _) h

theorem apart_join {d : Char} (hd : d = 'S' ∨ d = 'T') {w cs : List Char} (hw : Apart d w)
    (hcs : Apart d cs) : Apart d (w ++ ' ' :: cs) := by
  refine hw.append (hcs.cons (by decide)) fun c hc => ?_
  rw [List.head?_cons, Option.some.injEq] at hc
  rcases hd with rfl | rfl <;> exact hc ▸ by decide

/-- Words are separated by blanks, and a capital at the front of a word follows one of them and not a
star. -/
theorem apart_titleCase {d : Char} (hd : d = 'S' ∨ d = 'T') (name : String) :
    Apart d (titleCase name).toList := by
  rw [titleCase, String.toList_ofList]
  refine intercalate_spaces (P := Apart d) .nil (fun w cs => apart_join hd) fun w hw => ?_
  obtain ⟨word, -, rfl⟩ := List.mem_map.mp hw
  exact apart_capitalized hd word

theorem feed_not_mem_titleCase (name : String) : '\n' ∉ (titleCase name).toList := by
  rw [titleCase, String.toList_ofList]
  refine intercalate_spaces (P := ('\n' ∉ ·)) (by simp) (fun w cs hw hcs => ?_) fun w hw => ?_
  · simp [hw, hcs]
  · obtain ⟨word, hword, rfl⟩ := List.mem_map.mp hw
    exact feed_not_mem_capitalized (not_mem_stretches (by decide) _ word hword)

end PlanName

namespace Text

/-- A text without blanks at its ends is kept at the end of a text that is trimmed. -/
theorem suffix_trim (front : List Char) {cs : List Char} (some : cs ≠ []) (tidy : trim cs = cs) :
    cs <:+ trim (front ++ cs) := by
  by_cases hfront : Blank front
  · rw [trim, trimStart_append_of_blank hfront, ← trim, tidy]
  · have hlast : trimEnd (trimStart front ++ cs) = trimStart front ++ cs := by
      rw [trimEnd_eq_self_iff, List.getLast?_append_of_ne_nil _ some]
      exact (trim_eq_self_iff.mp tidy).2
    rw [trim, trimStart_append_of_not_blank hfront, hlast]
    exact List.suffix_append _ _

end Text

namespace Template

theorem toList_title (t : Template) (name : String) :
    (t.title name).toList = (PlanName.titleCase name).toList ++ ' ' :: t.titleSuffix.toList := by
  rw [title, String.toList_append, String.toList_append, List.append_assoc]
  rfl

theorem titleSuffix_sound (t : Template) : t.titleSuffix.toList ≠ [] ∧
    trim t.titleSuffix.toList = t.titleSuffix.toList ∧ '\n' ∉ t.titleSuffix.toList ∧
      '*' ∉ t.titleSuffix.toList ∧ ∀ name ∈ ["Tasks", "Specification", "Context Loading"],
        ¬ t.titleSuffix.toList.map Char.toLower <:+ name.toList.map Char.toLower := by
  cases t <;> decide

/-- In a title no `S` and no `T` follows a star. -/
theorem apart_title {d : Char} (hd : d = 'S' ∨ d = 'T') (t : Template) (name : String) :
    Apart d (t.title name).toList := by
  obtain ⟨-, -, -, hstar, -⟩ := t.titleSuffix_sound
  rw [toList_title]
  exact PlanName.apart_join hd (PlanName.apart_titleCase hd name) (apart_of_no_star hstar)

/-- Whatever the name of a plan is, its title is neither the heading of a section nor a field. Names are
chosen by people and nothing of them is checked, so this must follow from how titles are made. -/
theorem sound_title (t : Template) (name : String) : Plan.Title (t.title name) := by
  obtain ⟨hsome, htidy, hfeed, -, hother⟩ := t.titleSuffix_sound
  refine ⟨?oneLine, fun part hpart => ?other, fun hin => ?noStatus, fun hin => ?noType⟩
  case oneLine =>
    rw [toList_title, List.mem_append, List.mem_cons, not_or, not_or]
    exact ⟨PlanName.feed_not_mem_titleCase name, by decide, hfeed⟩
  case other =>
    have hsuffix : t.titleSuffix.toList <:+ trim (t.title name).toList := by
      rw [toList_title, List.append_cons]
      exact suffix_trim _ hsome htidy
    rw [Bool.eq_false_iff]
    intro hsame
    rw [sameIgnoringCase, beq_iff_eq] at hsame
    exact hother part hpart (hsame ▸ hsuffix.map Char.toLower)
  case noStatus =>
    have hpair : ['*', 'S'] <:+: fieldMarker "Status" := ⟨['*'], "tatus:**".toList, by decide⟩
    exact (apart_title (.inl rfl) t name).no_pair (hpair.trans hin)
  case noType =>
    have hpair : ['*', 'T'] <:+: fieldMarker "Type" := ⟨['*'], "ype:**".toList, by decide⟩
    exact (apart_title (.inr rfl) t name).no_pair (hpair.trans hin)

end Template

end Runbook
