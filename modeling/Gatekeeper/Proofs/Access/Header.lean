import Gatekeeper.Proofs.Access.Token

/-!
# Proofs/Access/Header — how a value presents a token

An `Authorization` value that `Presents` a token has blanks, a word for the scheme, blanks, and then
the token, with padding signs put in anywhere; at the next blank all that matters has been read.
These are just the values that a token is taken out of (`ofHeader?_eq_some_iff_presents`), and what
is taken out of a value is the token that it presents, whole and without padding (`IsToken`).

`readBack` says so of the tokens that are built from names and secrets, and of whatever is taken out
of any text at all.
-/

namespace Gatekeeper.Token

open Text (isBlank words IsGap IsWord Breaks breaks_append_iff words_eq_cons_iff)

/-! ## Padding -/

/-- **Padding**: the one list is the other with padding signs put in, anywhere. -/
inductive Pads : List Char → List Char → Prop
  | nil : Pads [] []
  | keep (c : Char) {padded token : List Char} (h : Pads padded token) :
      Pads (c :: padded) (c :: token)
  | sign {padded token : List Char} (h : Pads padded token) : Pads ('=' :: padded) token

/-- What has been padded is what is left when the padding is taken out. -/
theorem pads_iff {padded token : List Char} (h : '=' ∉ token) :
    Pads padded token ↔ padded.filter (· ≠ '=') = token := by
  constructor
  · intro hpads
    induction hpads with
    | nil => rfl
    | keep c _ ih =>
      obtain ⟨hc, htoken⟩ := List.ne_and_not_mem_of_not_mem_cons h
      rw [List.filter_cons_of_pos (by simpa using Ne.symm hc), ih htoken]
    | sign _ ih => rw [List.filter_cons_of_neg (by simp), ih h]
  · rintro rfl
    clear h
    induction padded with
    | nil => exact .nil
    | cons c padded ih =>
      by_cases hc : c = '='
      · rw [hc, List.filter_cons_of_neg (by simp)]
        exact .sign ih
      · rw [List.filter_cons_of_pos (by simpa using hc)]
        exact .keep c ih

theorem Pads.refl : ∀ token : List Char, Pads token token
  | [] => .nil
  | c :: token => .keep c (refl token)

/-- Padding puts in no blank, so a word that was padded is a word. -/
theorem Pads.isWord {padded token : List Char} (h : Pads padded token) (hword : IsWord token) :
    IsWord padded := by
  constructor
  · rintro rfl
    cases h
    exact hword.1 rfl
  · have hblank := hword.2
    clear hword
    induction h with
    | nil => exact hblank
    | keep c _ ih =>
      obtain ⟨hc, htoken⟩ := List.forall_mem_cons.mp hblank
      exact List.forall_mem_cons.mpr ⟨hc, ih htoken⟩
    | sign _ ih => exact List.forall_mem_cons.mpr ⟨by decide, ih hblank⟩

/-! ## Values that present a token -/

/-- What can be taken out of a value: it is not empty and holds neither padding nor blanks. -/
def IsToken (token : String) : Prop :=
  token ≠ "" ∧ ∀ c ∈ token.toList, c ≠ '=' ∧ isBlank c = false

/-- **How a value presents a token.** -/
inductive Presents (token : String) : String → Prop
  | intro {lead scheme gap padded rest : String} (hlead : IsGap lead.toList)
      (hscheme : IsWord scheme.toList) (hne : gap ≠ "") (hgap : IsGap gap.toList)
      (hpadded : Pads padded.toList token.toList) (hrest : Breaks rest.toList) :
      Presents token (lead ++ scheme ++ gap ++ padded ++ rest)

theorem IsToken.isWord {token : String} (h : IsToken token) : IsWord token.toList :=
  ⟨fun hnil => h.1 (String.toList_inj.mp hnil), fun c hc => (h.2 c hc).2⟩

theorem isToken_build (n s : String) : IsToken (build n s) :=
  ⟨fun h => build_ne_nil n s (congrArg String.toList h), fun _ hc => (mem_build hc).symm⟩

/-- A token is presented by itself behind a word. -/
theorem presents_basic (token : String) : Presents token ("Basic " ++ token) := by
  have h : Presents token ("" ++ "Basic" ++ " " ++ token ++ "") :=
    .intro (by decide) (by decide) (by decide) (by decide) (Pads.refl _) (by decide)
  simpa using h

/-- **What a value presents** is its second word, but for padding. -/
theorem presents_iff {value token : String} (h : IsWord token.toList) : Presents token value ↔
    ∃ scheme padded ws, words value.toList = scheme :: padded :: ws ∧ Pads padded token.toList := by
  constructor
  · rintro @⟨lead, scheme, gap, padded, rest, hlead, hscheme, hne, hgap, hpadded, hrest⟩
    have hword : IsWord padded.toList := hpadded.isWord h
    refine ⟨scheme.toList, padded.toList, words rest.toList, ?_, hpadded⟩
    refine words_eq_cons_iff.mpr ⟨lead.toList, gap.toList ++ padded.toList ++ rest.toList,
      by simp, hlead, hscheme, (breaks_append_iff hgap hword).mpr fun hnil => ?_, ?_⟩
    · exact hne (String.toList_inj.mp hnil)
    · exact words_eq_cons_iff.mpr ⟨gap.toList, rest.toList, rfl, hgap, hword, hrest, rfl⟩
  · rintro ⟨scheme, padded, ws, hwords, hpadded⟩
    obtain ⟨lead, more, hvalue, hlead, hscheme, hmore, hws⟩ := words_eq_cons_iff.mp hwords
    obtain ⟨gap, rest, rfl, hgap, hword, hrest, -⟩ := words_eq_cons_iff.mp hws
    have hne : gap ≠ [] := (breaks_append_iff hgap hword).mp hmore
    have hlayout : value = String.ofList lead ++ String.ofList scheme ++ String.ofList gap
        ++ String.ofList padded ++ String.ofList rest := by
      rw [← String.toList_inj, hvalue]
      simp
    rw [hlayout]
    refine .intro ?_ ?_ (fun h => hne (by simpa using congrArg String.toList h)) ?_ ?_ ?_
    all_goals simpa

/-- **What is taken out of a value** is the token that it presents. -/
theorem ofHeader?_eq_some_iff_presents {value token : String} :
    ofHeader? value = some token ↔ IsToken token ∧ Presents token value := by
  have hsecond : ∀ w : List Char, (words value.toList)[1]? = some w ↔
      ∃ scheme ws, words value.toList = scheme :: w :: ws := by
    intro w
    match words value.toList with
    | [] => simp
    | [_] => simp
    | scheme :: x :: ws => simp [eq_comm]
  rw [ofHeader?_eq_some_iff]
  constructor
  · rintro ⟨hne, w, hw, htoken⟩
    have hblank := (Text.mem_words (List.mem_of_getElem? hw)).2
    have hchars : ∀ c ∈ token.toList, c ≠ '=' ∧ isBlank c = false := by
      intro c hc
      obtain ⟨hmem, hsign⟩ := List.mem_filter.mp (htoken ▸ hc)
      exact ⟨by simpa using hsign, hblank c hmem⟩
    have hshape : IsToken token := ⟨hne, hchars⟩
    obtain ⟨scheme, ws, hwords⟩ := (hsecond w).mp hw
    refine ⟨hshape, (presents_iff hshape.isWord).mpr ⟨scheme, w, ws, hwords, ?_⟩⟩
    exact (pads_iff fun hmem => (hchars '=' hmem).1 rfl).mpr htoken
  · rintro ⟨hshape, hpresents⟩
    obtain ⟨scheme, padded, ws, hwords, hpadded⟩ := (presents_iff hshape.isWord).mp hpresents
    refine ⟨hshape.1, padded, (hsecond padded).mpr ⟨scheme, ws, hwords⟩, ?_⟩
    exact (pads_iff fun hmem => (hshape.2 '=' hmem).1 rfl).mp hpadded

/-- **A token is read back from every value that presents it.**  And what is taken out of any value
at all is not empty, holds neither padding nor blanks, is the token that the value presents, and is
taken out again of the value that it makes behind a scheme.  Cleaning leaves nothing to clean. -/
theorem readBack :
    (∀ n s value, Presents (build n s) value → ofHeader? value = some (build n s)) ∧
    (∀ value token, ofHeader? value = some token →
      token ≠ "" ∧ (∀ c ∈ token.toList, c ≠ '=' ∧ isBlank c = false) ∧ Presents token value ∧
        ofHeader? ("Basic " ++ token) = some token) ∧
    ∀ x, clean (clean x) = clean x := by
  refine ⟨fun n s value h => ?_, fun value token h => ?_, clean_clean⟩
  · exact ofHeader?_eq_some_iff_presents.mpr ⟨isToken_build n s, h⟩
  · obtain ⟨hshape, hpresents⟩ := ofHeader?_eq_some_iff_presents.mp h
    exact ⟨hshape.1, hshape.2, hpresents,
      ofHeader?_eq_some_iff_presents.mpr ⟨hshape, presents_basic token⟩⟩

/-- A value with blanks of several kinds, its token padded in front, inside and behind, and more
text after it. -/
theorem readBack_spaced :
    Presents (build "ann" "pw") "\u3000Token\t \u00a0=YW5u=OnB3==\u2028= and more" ∧
    ofHeader? "\u3000Token\t \u00a0=YW5u=OnB3==\u2028= and more" = some "YW5uOnB3" ∧
    "YW5uOnB3" ≠ "" ∧ ('Y' ≠ '=' ∧ isBlank 'Y' = false) ∧
    ofHeader? "Basic YW5uOnB3" = some "YW5uOnB3" := by
  have htoken : build "ann" "pw" = "YW5uOnB3" := by decide +kernel
  have hpads : Pads "=YW5u=OnB3==".toList (build "ann" "pw").toList :=
    (pads_iff fun h => (mem_build h).2 rfl).mpr (by rw [htoken]; decide)
  have hpresents : Presents (build "ann" "pw") ("\u3000" ++ "Token" ++ "\t \u00a0"
      ++ "=YW5u=OnB3==" ++ "\u2028= and more") :=
    .intro (by decide) (by decide) (by decide) (by decide) hpads (by decide)
  have hread := readBack.1 "ann" "pw" _ hpresents
  rw [htoken] at hread
  obtain ⟨hne, hchars, -, hagain⟩ := readBack.2.1 _ _ hread
  exact ⟨hpresents, hread, hne, hchars 'Y' (by decide), hagain⟩

end Gatekeeper.Token
