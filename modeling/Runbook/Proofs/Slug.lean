import Runbook.Plan.Name
import Runbook.Proofs.Numerals
import Runbook.Proofs.PlanTitle
import Runbook.Proofs.WritableGroups

/-!
# File names that are made from names

The name of a plan is any text, and its file name is made of what is left of it in four steps: lower case,
no characters but word characters and what sets words apart, the words, and hyphens between them.

* Lower case makes nothing that it would change again (`small_of_mem_lowerAfter`). No run of the case table
  covers an image of another one (`oneWay_lowerRuns`), and the final sigma is as small as the other one.
* A word character is no blank, no dot and no slash of either kind, as the tables show. So nothing that
  leads elsewhere is left in a word.
* Words are joined by one hyphen, which is what makes a slug (`sound_slug`), and the words of a slug are
  those that it was made of. So a slug is its own slug (`slug_slug`).

With a day in front and the ending of plans behind, a slug is a file name that can be seen and leads out of
no directory (`planFile_fileName`).
-/

set_option autoImplicit false

namespace Runbook

namespace Text

/-! ## Lower case is lower case already -/

/-- Lower case leaves the character alone. That need not be a small letter: digits and most scripts have
no case at all. -/
def Small (c : Char) : Prop := lowerChar c = [c]

instance (c : Char) : Decidable (Small c) := inferInstanceAs (Decidable (_ = _))

/-- The code point that a run leads another one to. -/
def CaseRun.image (r : CaseRun) (n : Nat) : Nat := ((n : Int) + r.shift).toNat

/-- No image of the first run is covered by the second one: they lie below or above, or between its
steps. A run of steps of two covers every other code point, so two of them may interleave. -/
def CaseRun.clears (r s : CaseRun) : Bool :=
  (r.image r.last).blt s.first || s.last.blt (r.image r.first) ||
    (r.step.beq 2 || r.first.beq r.last) && s.step.beq 2 && ((r.image r.first + s.first) % 2).beq 1

/-- A table whose images are covered by none of its runs. It is checked run against run, which is far
less than going through the characters. -/
structure OneWay (table : List CaseRun) : Prop where
  upward : ∀ r ∈ table, 0 ≤ r.first + r.shift
  clears : (table.all fun r => table.all fun s => r.clears s) = true

theorem oneWay_lowerRuns : OneWay lowerRuns := ⟨by decide +kernel, by decide +kernel⟩

/-- What a one-way table leads to it leads no further. -/
theorem OneWay.image?_image {table : List CaseRun} (oneWay : OneWay table) {n i : Nat}
    (image : CaseRun.image? table n = some i) : CaseRun.image? table i = none := by
  rw [CaseRun.image?, Option.map_eq_some_iff] at image
  obtain ⟨r, hr, rfl⟩ := image
  have hcovers := List.find?_some hr
  have hmem := List.mem_of_find?_eq_some hr
  have hupward := oneWay.upward r hmem
  simp only [Bool.and_eq_true, decide_eq_true_eq, beq_iff_eq] at hcovers
  rw [CaseRun.image?, Option.map_eq_none_iff, List.find?_eq_none]
  -- the table was checked pair by pair: no run covers what another one yields
  intro s hs hcovered
  have hclears := List.all_eq_true.mp (List.all_eq_true.mp oneWay.clears r hmem) s hs
  simp only [CaseRun.clears, CaseRun.image, Bool.or_eq_true, Bool.and_eq_true, Nat.blt_eq,
    Nat.beq_eq] at hclears
  simp only [Bool.and_eq_true, decide_eq_true_eq, beq_iff_eq] at hcovered
  rcases hclears with (hbelow | habove) | ⟨⟨hstep | hsingle, htwo⟩, hodd⟩
  · omega
  · omega
  · rw [hstep] at hcovers
    rw [htwo] at hcovered
    omega
  · rw [htwo] at hcovered
    omega

/-- A character that no run of the table covers is small, and the dotted capital I, which has a line of
its own, is none of them. -/
theorem small_of_no_image {c : Char} (undotted : c.toNat ≠ 0x130)
    (none : CaseRun.image? lowerRuns c.toNat = .none) : Small c := by
  have hascii : ∀ c : Char, c.toNat < 0x80 → CaseRun.image? lowerRuns c.toNat = .none → c.toLower = c :=
    forall_ascii (by decide +kernel)
  by_cases hlow : c.toNat < 0x80
  · rw [Small, lowerChar, if_pos hlow, hascii c hlow none]
  · simp only [Small, lowerChar, if_neg hlow, if_neg undotted, none]

theorem small_ofNat {n : Nat} (undotted : n ≠ 0x130) (none : CaseRun.image? lowerRuns n = .none) :
    Small (Char.ofNat n) := by
  by_cases hvalid : n.isValidChar
  · have htoNat : (Char.ofNat n).toNat = n := by
      rw [Char.ofNat, dif_pos hvalid]
      rfl
    exact small_of_no_image (htoNat.symm ▸ undotted) (htoNat.symm ▸ none)
  · rw [Char.ofNat, dif_neg hvalid]
    decide +kernel

/-- Lower case makes nothing that it would change. The dotted capital I becomes two characters, and both
are small. -/
theorem small_of_mem_lowerChar {c d : Char} (h : d ∈ lowerChar c) : Small d := by
  unfold lowerChar at h
  split at h
  · rename_i hlow
    have hascii : ∀ c : Char, c.toNat < 0x80 → Small c.toLower := forall_ascii (by decide +kernel)
    rw [List.mem_singleton.mp h]
    exact hascii c hlow
  · rename_i hwide
    split at h
    · have hdotted : Small 'i' ∧ Small (Char.ofNat 0x307) := by decide +kernel
      rcases List.mem_pair.mp h with rfl | rfl
      · exact hdotted.1
      · exact hdotted.2
    · rename_i hother
      split at h
      · rename_i n himage
        have hmisses : ∀ r ∈ lowerRuns, r.Misses 0x130 := by decide +kernel
        rw [List.mem_singleton.mp h]
        exact small_ofNat (image?_ne (by decide) hmisses (by omega) himage)
          (oneWay_lowerRuns.image?_image himage)
      · rename_i hnone
        rw [List.mem_singleton.mp h]
        exact small_of_no_image hother hnone

/-- Nor does it when it looks at the neighbours of a sigma, of which either small form may come. -/
theorem small_of_mem_lowerAfter {before cs : List Char} {d : Char} (h : d ∈ lowerAfter before cs) :
    Small d := by
  have hsigma : Small 'ς' ∧ Small 'σ' := by decide +kernel
  fun_induction lowerAfter before cs with
  | case1 => cases h
  | case2 before c cs ih =>
    rcases List.mem_append.mp h with h | h
    · split at h
      · split at h
        · exact List.mem_singleton.mp h ▸ hsigma.1
        · exact List.mem_singleton.mp h ▸ hsigma.2
      · exact small_of_mem_lowerChar h
    · exact ih h

/-- A text in small characters stays as it is, the sigmas in it included. -/
theorem lowerAfter_of_small {before cs : List Char} (small : ∀ c ∈ cs, Small c) :
    lowerAfter before cs = cs := by
  have hsigma : ¬ Small 'Σ' := by decide +kernel
  fun_induction lowerAfter before cs with
  | case1 => rfl
  | case2 before c cs ih =>
    obtain ⟨hc, hcs⟩ := List.forall_mem_cons.mp small
    have hne : c ≠ 'Σ' := by
      rintro rfl
      exact hsigma hc
    rw [if_neg hne, hc, ih hcs]
    rfl

/-! ## Word characters -/

theorem isBlank_of_isWordChar {c : Char} (h : isWordChar c = true) : isBlank c = false :=
  CodeRanges.Apart.not_has (by decide +kernel : wordRanges.Apart blankRanges) h

/-- What sets words apart and what path names are made with is no part of a word: the tables have none
of these four characters. -/
theorem isWordChar_mark : ∀ c ∈ ['-', '.', '/', '\\'], isWordChar c = false := by
  have hall : ['-', '.', '/', '\\'].all (!isWordChar ·) = true := by decide +kernel
  intro c hc
  rw [← Bool.not_eq_true']
  exact List.all_eq_true.mp hall c hc

/-! ## Words and what is between them -/

section Stretches

variable {keep : Char → Bool}

theorem stretches_of_kept {w : List Char} (some : w ≠ []) (kept : ∀ c ∈ w, keep c = true) :
    stretches keep w = [w] := by
  induction w with
  | nil => exact absurd rfl some
  | cons c w ih =>
    obtain ⟨hc, hw⟩ := List.forall_mem_cons.mp kept
    cases w with
    | nil => rw [stretches, if_pos hc]
    | cons d w =>
      have hd := hw d List.mem_cons_self
      rw [stretches, if_pos hc, if_pos hd, ih (List.cons_ne_nil _ _) hw]

/-- A word ends at the first character that is not kept, and the words behind it are found as if they
stood alone. -/
theorem stretches_append {w : List Char} (some : w ≠ []) (kept : ∀ c ∈ w, keep c = true) {sep : Char}
    (apart : keep sep = false) (rest : List Char) :
    stretches keep (w ++ sep :: rest) = w :: stretches keep rest := by
  have hsep : stretches keep (sep :: rest) = stretches keep rest := by
    cases rest <;> simp [stretches, apart]
  -- whether a stretch goes on depends on the next character, so the last one is a case of its own
  induction w with
  | nil => exact absurd rfl some
  | cons c w ih =>
    obtain ⟨hc, hw⟩ := List.forall_mem_cons.mp kept
    cases w with
    | nil =>
      rw [List.singleton_append, stretches, if_pos hc, if_neg (by simp [apart]), hsep]
    | cons d w =>
      have hd := hw d List.mem_cons_self
      rw [List.cons_append, List.cons_append, stretches, if_pos hc, if_pos hd, ← List.cons_append,
        ih (List.cons_ne_nil _ _) hw]

/-- Words with a separator between each two are read as these words, so joining them loses nothing. -/
theorem stretches_intercalate {sep : Char} (apart : keep sep = false) {words : List (List Char)}
    (h : ∀ w ∈ words, w ≠ [] ∧ ∀ c ∈ w, keep c = true) :
    stretches keep ([sep].intercalate words) = words := by
  induction words with
  | nil => rfl
  | cons w words ih =>
    obtain ⟨⟨some, kept⟩, hwords⟩ := List.forall_mem_cons.mp h
    cases words with
    | nil => simpa using stretches_of_kept some kept
    | cons v words =>
      rw [List.intercalate_cons_cons, List.append_assoc, List.singleton_append,
        stretches_append some kept apart, ih hwords]

end Stretches

end Text

namespace PlanName

open Text

/-! ## Slugs -/

/-- Text that may stand in a file name: word characters and hyphens, and each hyphen stands between two
word characters. The empty text is one, too; what is made of it is seen to elsewhere. -/
structure Slug (cs : List Char) : Prop where
  chars : ∀ c ∈ cs, isWordChar c = true ∨ c = '-'
  head : cs.head? ≠ some '-'
  last : cs.getLast? ≠ some '-'
  single : cs.IsChain fun a b => a ≠ '-' ∨ b ≠ '-'

/-- A word of a slug. It has been put into lower case before it was cut out, so it is small. -/
structure SlugWord (w : List Char) : Prop where
  some : w ≠ []
  chars : ∀ c ∈ w, isWordChar c = true
  small : ∀ c ∈ w, Small c

theorem ne_hyphen_of_isWordChar {c : Char} (h : isWordChar c = true) : c ≠ '-' := by
  rintro rfl
  rw [isWordChar_mark '-' (by decide)] at h
  cases h

theorem isSeparator_of_isWordChar {c : Char} (h : isWordChar c = true) : isSeparator c = false := by
  rw [isSeparator, isBlank_of_isWordChar h, Bool.or_false, beq_eq_false_iff_ne]
  exact ne_hyphen_of_isWordChar h

theorem SlugWord.slug {w : List Char} (h : SlugWord w) : Slug w := by
  have hne : ∀ c ∈ w, c ≠ '-' := fun c hc => ne_hyphen_of_isWordChar (h.chars c hc)
  refine ⟨fun c hc => .inl (h.chars c hc), fun hhead => ?_, fun hlast => ?_, ?_⟩
  · exact hne '-' (List.mem_of_head? hhead) rfl
  · exact hne '-' (List.mem_of_getLast? hlast) rfl
  · exact List.isChain_iff_getElem.mpr fun i hi => .inl (hne _ (List.getElem_mem _))

/-- Two slugs are joined by a hyphen, if neither is empty: a hyphen must stand between two characters.
-/
theorem Slug.join {cs ds : List Char} (hcs : Slug cs) (hds : Slug ds) (some : cs ≠ []) (some' : ds ≠ []) :
    Slug (cs ++ '-' :: ds) := by
  refine ⟨?chars, ?head, ?last, ?single⟩
  case chars =>
    refine List.forall_mem_append.mpr ⟨hcs.chars, List.forall_mem_cons.mpr ⟨.inr rfl, hds.chars⟩⟩
  case head =>
    rw [List.head?_append_of_ne_nil _ some]
    exact hcs.head
  case last =>
    rw [List.append_cons, List.getLast?_append_of_ne_nil _ some']
    exact hds.last
  case single =>
    refine List.isChain_append.mpr ⟨hcs.single, List.isChain_cons.mpr ⟨fun b hb => ?_, hds.single⟩, ?_⟩
    · exact .inr fun heq => hds.head (heq ▸ hb)
    · exact fun a ha b _ => .inl fun heq => hcs.last (heq ▸ ha)

section Words

variable {words : List (List Char)} (h : ∀ w ∈ words, SlugWord w)
include h

theorem slug_intercalate : Slug (['-'].intercalate words) := by
  rcases eq_or_ne words [] with rfl | hsome
  · exact ⟨by simp, by simp, by simp, .nil⟩
  · have hjoined : ['-'].intercalate words ≠ [] ∧ Slug (['-'].intercalate words) := by
      refine intercalate_joined (P := fun cs => cs ≠ [] ∧ Slug cs) ?_ hsome
        fun w hw => ⟨(h w hw).some, (h w hw).slug⟩
      exact fun w cs hw hcs => ⟨by simp, hw.2.join hcs.2 hw.1 hcs.1⟩
    exact hjoined.2

theorem small_intercalate : ∀ c ∈ ['-'].intercalate words, Small c := by
  rcases eq_or_ne words [] with rfl | hsome
  · simp
  · refine intercalate_joined (P := fun cs => ∀ c ∈ cs, Small c) (fun w cs hw hcs => ?_) hsome
      fun w hw => (h w hw).small
    exact List.forall_mem_append.mpr ⟨hw, List.forall_mem_cons.mpr ⟨rfl, hcs⟩⟩

/-- Words that are joined are kept, all of them. -/
theorem kept_intercalate : kept (['-'].intercalate words) = ['-'].intercalate words := by
  have htrim : trim (['-'].intercalate words) = ['-'].intercalate words := by
    refine trim_intercalate (fun w hw => (h w hw).some) fun w hw => trim_eq_self_iff.mpr ⟨?_, ?_⟩
    · exact fun c hc => isBlank_of_isWordChar ((h w hw).chars c (List.mem_of_head? hc))
    · exact fun c hc => isBlank_of_isWordChar ((h w hw).chars c (List.mem_of_getLast? hc))
  rw [kept, htrim, lower, lowerAfter_of_small (small_intercalate h), List.filter_eq_self]
  intro c hc
  rcases (slug_intercalate h).chars c hc with hword | rfl
  · rw [hword, Bool.true_or]
  · exact Bool.or_true _

end Words

/-- The words that a slug is made of. They are found in what is kept of the name. -/
def slugWords (name : String) : List (List Char) := stretches (!isSeparator ·) (kept name.toList)

theorem toList_slug (name : String) : (slug name).toList = ['-'].intercalate (slugWords name) :=
  String.toList_ofList

theorem slugWord_of_mem {name : String} : ∀ w ∈ slugWords name, SlugWord w := by
  intro w hw
  obtain ⟨hsome, hchars⟩ := mem_stretches _ w hw
  refine ⟨hsome, fun c hc => ?_, fun c hc => ?_⟩
  · obtain ⟨hkeep, hmem⟩ := hchars c hc
    have hkept := (List.mem_filter.mp hmem).2
    rw [Bool.not_eq_true'] at hkeep
    rwa [hkeep, Bool.or_false] at hkept
  · exact small_of_mem_lowerAfter (List.mem_filter.mp (hchars c hc).2).1

/-- Whatever a plan is called, its slug may stand in a file name. -/
theorem sound_slug (name : String) : Slug (slug name).toList := by
  rw [toList_slug]
  exact slug_intercalate slugWord_of_mem

/-- What is made of a slug is the slug itself: it is small already, all of it is kept, and its words are
those that it was made of. -/
theorem slug_slug (name : String) : slug (slug name) = slug name := by
  have hwords : slugWords (slug name) = slugWords name := by
    rw [slugWords, toList_slug, kept_intercalate slugWord_of_mem]
    refine stretches_intercalate (by decide) fun w hw => ⟨(slugWord_of_mem w hw).some, fun c hc => ?_⟩
    rw [isSeparator_of_isWordChar ((slugWord_of_mem w hw).chars c hc)]
    rfl
  rw [← String.toList_inj, toList_slug, toList_slug, hwords]

/-! ## File names -/

/-- A file name that can be seen in its directory and leads out of none: one component, with the ending
of plans and no other dot. -/
structure PlanFile (file : String) : Prop where
  visible : file.toList.head? ≠ some '.'
  ending : ".md".toList <:+ file.toList
  oneDot : file.toList.count '.' = 1
  noSlash : '/' ∉ file.toList
  noBackslash : '\\' ∉ file.toList

/-- The name of the file but for its ending. A name of which nothing is left still gives a file name. -/
def stem (day name : String) : List Char :=
  day.toList ++ '-' :: (if slug name = "" then "plan" else slug name).toList

theorem toList_fileName (day name : String) :
    (fileName day name).toList = stem day name ++ ".md".toList := by
  simp [fileName, stem]

theorem isWordChar_of_isDigit {c : Char} (h : c.isDigit = true) : isWordChar c = true := by
  rw [Char.isDigit_iff_toNat] at h
  exact (wordRanges.has_iff c).mpr ⟨(0x30, 0x39), List.mem_cons_self, h⟩

section Day

variable {day : String} (digits : ∀ c ∈ day.toList, c.isDigit = true ∨ c = '-') (name : String)
include digits

theorem chars_stem : ∀ c ∈ stem day name, isWordChar c = true ∨ c = '-' := by
  refine List.forall_mem_append.mpr ⟨fun c hc => (digits c hc).imp_left isWordChar_of_isDigit,
    List.forall_mem_cons.mpr ⟨.inr rfl, ?_⟩⟩
  split
  · have hplan : "plan".toList.all isWordChar = true := by decide +kernel
    exact fun c hc => .inl (List.all_eq_true.mp hplan c hc)
  · exact (sound_slug name).chars

/-- No dot and no slash of either kind comes from the name of a plan, so it cannot lead out of its
directory. -/
theorem not_mem_stem {d : Char} (hd : d ∈ ['.', '/', '\\']) : d ∉ stem day name := by
  intro hmem
  rcases chars_stem digits name d hmem with hword | rfl
  · rw [isWordChar_mark d (List.mem_cons_of_mem _ hd)] at hword
    cases hword
  · exact absurd hd (by decide)

/-- A plan with any name, made on any day, has such a file name. -/
theorem planFile_fileName : PlanFile (fileName day name) := by
  have hsome : stem day name ≠ [] := by simp [stem]
  have hdot := not_mem_stem digits name (d := '.') (by decide)
  constructor
  case visible =>
    rw [toList_fileName, List.head?_append_of_ne_nil _ hsome]
    exact fun h => hdot (List.mem_of_head? h)
  case ending =>
    rw [toList_fileName]
    exact List.suffix_append _ _
  case oneDot =>
    rw [toList_fileName, List.count_append, List.count_eq_zero.mpr hdot]
    decide
  case noSlash =>
    rw [toList_fileName, List.mem_append, not_or]
    exact ⟨not_mem_stem digits name (by decide), by decide⟩
  case noBackslash =>
    rw [toList_fileName, List.mem_append, not_or]
    exact ⟨not_mem_stem digits name (by decide), by decide⟩

end Day

end PlanName

end Runbook
