/-!
# Text/Blank — blank characters, trimming and words

`isBlank` is the Unicode property `White_Space`: twenty-five characters, six of them ASCII.  On it
rest

* `trim` — a text without the blanks at its two ends (`trim_trim`: a second trim changes nothing);
* `words` — the maximal runs of characters that are not blank, in order (`mem_words`: no word is
  empty and none holds a blank).

Both work on the characters of a text; `trimmed` is `trim` on a `String`.
-/

namespace Gatekeeper.Text

/-- The property `White_Space`, by code point. -/
def isBlank (c : Char) : Bool :=
  let n := c.toNat
  (9 ≤ n && n ≤ 13) || n == 0x20 || n == 0x85 || n == 0xA0 || n == 0x1680
    || (0x2000 ≤ n && n ≤ 0x200A) || n == 0x2028 || n == 0x2029 || n == 0x202F || n == 0x205F
    || n == 0x3000

/-! ## Trimming -/

/-- A list without the longest run at its end that satisfies `p`. -/
def dropEndWhile {α : Type _} (p : α → Bool) (xs : List α) : List α :=
  (xs.reverse.dropWhile p).reverse

/-- The characters without the blanks at either end. -/
def trim (cs : List Char) : List Char :=
  dropEndWhile isBlank (cs.dropWhile isBlank)

/-- A text without the blanks at either end. -/
def trimmed (s : String) : String :=
  String.ofList (trim s.toList)

@[simp] theorem toList_trimmed (s : String) : (trimmed s).toList = trim s.toList := by
  simp [trimmed]

/-- Where `dropWhile` stopped, the predicate fails. -/
theorem head_dropWhile_eq_false {α : Type _} (p : α → Bool) :
    ∀ {xs : List α} {x : α} {rest : List α}, xs.dropWhile p = x :: rest → p x = false
  | [], _, _, h => by simp at h
  | y :: ys, x, rest, h => by
    rw [List.dropWhile_cons] at h
    split at h
    · exact head_dropWhile_eq_false p h
    · next hy => cases h; simpa using hy

/-- A list is left alone by `dropWhile` when it starts with nothing to drop. -/
theorem dropWhile_eq_self {α : Type _} {p : α → Bool} :
    ∀ {xs : List α}, (∀ x ∈ xs.head?, p x = false) → xs.dropWhile p = xs
  | [], _ => rfl
  | x :: xs, h => by simp [h x (by simp)]

theorem dropWhile_dropWhile {α : Type _} (p : α → Bool) (xs : List α) :
    (xs.dropWhile p).dropWhile p = xs.dropWhile p :=
  dropWhile_eq_self fun x hx => by
    cases h : xs.dropWhile p with
    | nil => simp [h] at hx
    | cons y ys => simp [h] at hx; exact hx ▸ head_dropWhile_eq_false p h

/-- What `dropEndWhile` leaves is the front of the list. -/
theorem dropEndWhile_isPrefix {α : Type _} (p : α → Bool) (xs : List α) :
    dropEndWhile p xs <+: xs := by
  have h := List.dropWhile_suffix p (l := xs.reverse)
  simpa [dropEndWhile] using List.reverse_prefix.2 h

theorem dropEndWhile_dropEndWhile {α : Type _} (p : α → Bool) (xs : List α) :
    dropEndWhile p (dropEndWhile p xs) = dropEndWhile p xs := by
  simp [dropEndWhile, dropWhile_dropWhile]

/-- The head of what `dropEndWhile` leaves was the head before. -/
theorem head?_dropEndWhile {α : Type _} {p : α → Bool} {xs : List α} {x : α}
    (h : x ∈ (dropEndWhile p xs).head?) : x ∈ xs.head? := by
  obtain ⟨rest, hrest⟩ := dropEndWhile_isPrefix p xs
  cases hd : dropEndWhile p xs with
  | nil => simp [hd] at h
  | cons y ys =>
    rw [hd] at h hrest
    rw [← hrest]
    simpa using h

/-- A trimmed text does not start with a blank. -/
theorem head?_trim {cs : List Char} {c : Char} (h : c ∈ (trim cs).head?) : isBlank c = false := by
  have h' := head?_dropEndWhile h
  cases hd : cs.dropWhile isBlank with
  | nil => simp [hd] at h'
  | cons y ys =>
    simp [hd] at h'
    exact h' ▸ head_dropWhile_eq_false isBlank hd

/-- **Trimming twice is trimming once.** -/
theorem trim_trim (cs : List Char) : trim (trim cs) = trim cs := by
  have h : (trim cs).dropWhile isBlank = trim cs := dropWhile_eq_self fun _ hc => head?_trim hc
  rw [trim, h, trim, dropEndWhile_dropEndWhile]

theorem trimmed_trimmed (s : String) : trimmed (trimmed s) = trimmed s := by
  simp [trimmed, trim_trim]

/-! ## Words -/

/-- The word gathered so far, last character first, as a list of no word or of one. -/
def flush : List Char → List (List Char)
  | [] => []
  | c :: cs => [(c :: cs).reverse]

/-- The words of a text of which `gathered` (last character first) has been read of the first. -/
def wordsFrom (gathered : List Char) : List Char → List (List Char)
  | [] => flush gathered
  | c :: cs => if isBlank c then flush gathered ++ wordsFrom [] cs else wordsFrom (c :: gathered) cs

/-- The words of a text: its maximal runs of characters that are not blank. -/
def words (cs : List Char) : List (List Char) :=
  wordsFrom [] cs

theorem mem_flush {gathered w : List Char} (h : w ∈ flush gathered) :
    w ≠ [] ∧ w = gathered.reverse := by
  cases gathered with
  | nil => simp [flush] at h
  | cons c cs => simp [flush] at h; simp [h]

theorem mem_wordsFrom {w : List Char} : ∀ {cs gathered : List Char},
    (∀ c ∈ gathered, isBlank c = false) → w ∈ wordsFrom gathered cs →
      w ≠ [] ∧ ∀ c ∈ w, isBlank c = false
  | [], gathered, hg, h => by
    obtain ⟨hne, rfl⟩ := mem_flush h
    exact ⟨hne, fun c hc => hg c (by simpa using hc)⟩
  | c :: cs, gathered, hg, h => by
    rw [wordsFrom] at h
    split at h
    · rcases List.mem_append.1 h with h | h
      · obtain ⟨hne, rfl⟩ := mem_flush h
        exact ⟨hne, fun c hc => hg c (by simpa using hc)⟩
      · exact mem_wordsFrom (by simp) h
    · next hc =>
      refine mem_wordsFrom (fun d hd => ?_) h
      rcases List.mem_cons.1 hd with rfl | hd
      · simpa using hc
      · exact hg d hd

/-- A word is not empty and holds no blank. -/
theorem mem_words {cs w : List Char} (h : w ∈ words cs) : w ≠ [] ∧ ∀ c ∈ w, isBlank c = false :=
  mem_wordsFrom (by simp) h

end Gatekeeper.Text
