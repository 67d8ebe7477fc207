import Gatekeeper.Text.Blank

/-!
# Proofs/Text/Blank — where the words of a text end

A run of characters that are not blank is read as one word, up to the first blank (`words_append`)
or to the end of the text (`words_eq_singleton`), and blanks before it make no difference: this is
how the words of any text are found (`words_eq_cons_iff`).  Trimming leaves alone just the texts
that neither start nor end in a blank (`trim_eq_self_iff`).
-/

namespace Gatekeeper.Text

theorem isBlank_of_any {cs : List Char} (h : cs.any isBlank = false) :
    ∀ c ∈ cs, isBlank c = false :=
  fun c hc => Bool.eq_false_iff.mpr (List.any_eq_false.mp h c hc)

theorem wordsFrom_append : ∀ {w gathered rest : List Char}, (∀ c ∈ w, isBlank c = false) →
    wordsFrom gathered (w ++ rest) = wordsFrom (w.reverse ++ gathered) rest
  | [], _, _, _ => rfl
  | c :: w, gathered, rest, h => by
    rw [List.cons_append, wordsFrom, if_neg (by simp [h c List.mem_cons_self]),
      wordsFrom_append fun d hd => h d (List.mem_cons_of_mem c hd)]
    simp

theorem flush_reverse {w : List Char} (h : w ≠ []) : flush w.reverse = [w] := by
  cases hw : w.reverse with
  | nil => exact absurd (List.reverse_eq_nil_iff.mp hw) h
  | cons c cs => rw [flush, ← hw, List.reverse_reverse]

/-- **A word ends at the first blank.** -/
theorem words_append {w rest : List Char} {b : Char} (hne : w ≠ [])
    (hw : ∀ c ∈ w, isBlank c = false) (hb : isBlank b = true) :
    words (w ++ b :: rest) = w :: words rest := by
  rw [words, wordsFrom_append hw, wordsFrom, if_pos hb, List.append_nil, flush_reverse hne]
  rfl

/-- **A text without blanks is one word.** -/
theorem words_eq_singleton {w : List Char} (hne : w ≠ []) (hw : ∀ c ∈ w, isBlank c = false) :
    words w = [w] := by
  have h : wordsFrom [] (w ++ []) = wordsFrom (w.reverse ++ []) [] := wordsFrom_append hw
  rw [List.append_nil, List.append_nil] at h
  rw [words, h, wordsFrom, flush_reverse hne]

/-! ## Texts that have words -/

/-- Nothing but blanks. -/
def IsGap (cs : List Char) : Prop := ∀ c ∈ cs, isBlank c = true

/-- Characters, none of them blank. -/
def IsWord (cs : List Char) : Prop := cs ≠ [] ∧ ∀ c ∈ cs, isBlank c = false

/-- A text that a word may stand before: it is empty or starts with a blank. -/
def Breaks (cs : List Char) : Prop := ∀ c ∈ cs.head?, isBlank c = true

instance : DecidablePred IsGap := fun _ => decidable_of_iff _ List.all_eq_true

instance : DecidablePred IsWord := fun cs =>
  decidable_of_iff (cs ≠ [] ∧ cs.any isBlank = false) (and_congr_right fun _ => by simp)

instance : DecidablePred Breaks := fun cs =>
  decidable_of_iff (cs.head?.all isBlank = true) (by cases cs <;> simp [Breaks])

theorem words_cons_of_blank {c : Char} (h : isBlank c = true) (cs : List Char) :
    words (c :: cs) = words cs := by
  rw [words, wordsFrom, if_pos h]
  rfl

theorem words_append_of_gap : ∀ {lead : List Char}, IsGap lead → ∀ cs : List Char,
    words (lead ++ cs) = words cs
  | [], _, _ => rfl
  | c :: lead, h, cs => by
    rw [List.cons_append, words_cons_of_blank (h c List.mem_cons_self),
      words_append_of_gap fun d hd => h d (List.mem_cons_of_mem c hd)]

theorem words_append_of_breaks {w rest : List Char} (hw : IsWord w) (hrest : Breaks rest) :
    words (w ++ rest) = w :: words rest := by
  cases rest with
  | nil => rw [List.append_nil, words_eq_singleton hw.1 hw.2, words, wordsFrom, flush]
  | cons b rest =>
    have hb : isBlank b = true := hrest b rfl
    rw [words_append hw.1 hw.2 hb, words_cons_of_blank hb]

/-- Between two words there is a blank. -/
theorem breaks_append_iff {gap w rest : List Char} (hgap : IsGap gap) (hw : IsWord w) :
    Breaks (gap ++ w ++ rest) ↔ gap ≠ [] := by
  cases gap with
  | nil =>
    obtain ⟨c, w, rfl⟩ := List.exists_cons_of_ne_nil hw.1
    simp [Breaks, hw.2 c List.mem_cons_self]
  | cons b gap => simp [Breaks, hgap b List.mem_cons_self]

/-- What is read of a word that has been begun. -/
theorem exists_of_wordsFrom_eq_cons : ∀ {cs gathered w : List Char} {ws : List (List Char)},
    gathered ≠ [] → wordsFrom gathered cs = w :: ws → ∃ more rest,
      w = gathered.reverse ++ more ∧ cs = more ++ rest ∧ (∀ c ∈ more, isBlank c = false) ∧
        Breaks rest ∧ words rest = ws
  | [], gathered, w, ws, hg, h => by
    rw [wordsFrom, ← List.reverse_reverse gathered, flush_reverse (by simpa using hg)] at h
    obtain ⟨rfl, rfl⟩ := List.cons.inj h
    exact ⟨[], [], by simp, rfl, by simp, by simp [Breaks], rfl⟩
  | c :: cs, gathered, w, ws, hg, h => by
    rw [wordsFrom] at h
    split at h
    · next hc =>
      rw [← List.reverse_reverse gathered, flush_reverse (by simpa using hg)] at h
      obtain ⟨rfl, rfl⟩ := List.cons.inj h
      exact ⟨[], c :: cs, by simp, rfl, by simp, by simpa [Breaks] using hc,
        words_cons_of_blank hc cs⟩
    · next hc =>
      obtain ⟨more, rest, rfl, rfl, hmore, hrest, hws⟩ :=
        exists_of_wordsFrom_eq_cons (List.cons_ne_nil c gathered) h
      exact ⟨c :: more, rest, by simp, rfl, List.forall_mem_cons.mpr ⟨by simpa using hc, hmore⟩,
        hrest, hws⟩

/-- **How a text starts that has words**: with blanks, perhaps, the first of the words, and then
the end or a blank. -/
theorem words_eq_cons_iff {cs w : List Char} {ws : List (List Char)} :
    words cs = w :: ws ↔ ∃ lead rest,
      cs = lead ++ w ++ rest ∧ IsGap lead ∧ IsWord w ∧ Breaks rest ∧ words rest = ws := by
  constructor
  · intro h
    induction cs with
    | nil => cases h
    | cons c cs ih =>
      by_cases hc : isBlank c = true
      · rw [words_cons_of_blank hc] at h
        obtain ⟨lead, rest, rfl, hlead, hrest⟩ := ih h
        exact ⟨c :: lead, rest, rfl, List.forall_mem_cons.mpr ⟨hc, hlead⟩, hrest⟩
      · have hword := mem_words (h ▸ List.mem_cons_self : w ∈ words (c :: cs))
        rw [words, wordsFrom, if_neg hc] at h
        obtain ⟨more, rest, rfl, rfl, -, hrest, hws⟩ :=
          exists_of_wordsFrom_eq_cons (List.cons_ne_nil c []) h
        exact ⟨[], rest, rfl, fun _ hd => absurd hd List.not_mem_nil, hword, hrest, hws⟩
  · rintro ⟨lead, rest, rfl, hlead, hw, hrest, rfl⟩
    rw [List.append_assoc, words_append_of_gap hlead, words_append_of_breaks hw hrest]

/-! ## Trimming -/

/-- **What is dropped at the end** satisfies the predicate, and what comes before it does not. -/
theorem dropEndWhile_eq_iff {α : Type _} {p : α → Bool} {xs ys : List α} :
    dropEndWhile p xs = ys ↔ ∃ dropped, xs = ys ++ dropped ∧ (∀ x ∈ dropped, p x = true) ∧
      ∀ x ∈ ys.getLast?, p x = false := by
  constructor
  · rintro rfl
    refine ⟨(xs.reverse.takeWhile p).reverse, ?_, fun x hx => ?_, fun x hx => ?_⟩
    · rw [dropEndWhile, ← List.reverse_append, List.takeWhile_append_dropWhile, List.reverse_reverse]
    · exact List.all_eq_true.mp List.all_takeWhile x (List.mem_reverse.mp hx)
    · rw [dropEndWhile, List.getLast?_reverse] at hx
      obtain ⟨rest, hrest⟩ := List.head?_eq_some_iff.mp hx
      exact head_dropWhile_eq_false p hrest
  · rintro ⟨dropped, rfl, hdropped, hlast⟩
    have hkept : ys.reverse.dropWhile p = ys.reverse :=
      dropWhile_eq_self fun x hx => hlast x (by rwa [← List.head?_reverse])
    rw [dropEndWhile, List.reverse_append,
      List.dropWhile_append_of_pos fun x hx => hdropped x (List.mem_reverse.mp hx), hkept,
      List.reverse_reverse]

/-- A trimmed text does not end in a blank. -/
theorem getLast?_trim {cs : List Char} {c : Char} (h : c ∈ (trim cs).getLast?) :
    isBlank c = false := by
  obtain ⟨-, -, -, hlast⟩ := dropEndWhile_eq_iff.mp (rfl : trim cs = trim cs)
  exact hlast c h

/-- **What is trimmed** neither starts nor ends in a blank. -/
theorem trim_eq_self_iff {cs : List Char} : trim cs = cs ↔
    (∀ c ∈ cs.head?, isBlank c = false) ∧ ∀ c ∈ cs.getLast?, isBlank c = false := by
  constructor
  · intro h
    rw [← h]
    exact ⟨fun c hc => head?_trim hc, fun c hc => getLast?_trim hc⟩
  · rintro ⟨hhead, hlast⟩
    rw [trim, dropWhile_eq_self hhead]
    exact dropEndWhile_eq_iff.mpr ⟨[], (List.append_nil cs).symm, by simp, hlast⟩

/-- Trimming only takes characters away. -/
theorem trim_sublist (cs : List Char) : (trim cs).Sublist cs :=
  (dropEndWhile_isPrefix isBlank _).sublist.trans (List.dropWhile_sublist isBlank)

/-- A text that is not trimmed gets shorter. -/
theorem length_trim_lt {cs : List Char} (h : trim cs ≠ cs) : (trim cs).length < cs.length :=
  Nat.lt_of_le_of_ne (trim_sublist cs).length_le fun heq => h ((trim_sublist cs).eq_of_length heq)

theorem trimmed_eq_self_iff {s : String} : trimmed s = s ↔ trim s.toList = s.toList := by
  rw [← String.toList_inj, toList_trimmed]

/-- A text without blanks is trimmed. -/
theorem trim_eq_self {cs : List Char} (h : ∀ c ∈ cs, isBlank c = false) : trim cs = cs :=
  trim_eq_self_iff.mpr
    ⟨fun c hc => h c (List.mem_of_mem_head? hc), fun c hc => h c (List.mem_of_mem_getLast? hc)⟩

end Gatekeeper.Text
