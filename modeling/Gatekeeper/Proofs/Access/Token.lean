import Gatekeeper.Access.Token
import Gatekeeper.Proofs.Text.Base64
import Gatekeeper.Proofs.Text.Blank
import Mathlib.Algebra.Order.Floor.Div
import Mathlib.GroupTheory.GroupAction.Ring

/-!
# Proofs/Access/Token — a token is as good as its text

Two tokens are equal just if the texts `name:secret` are (`build_eq_iff`), and a token that is
presented behind a word for the scheme is read back as it is (`ofHeader?_build`).  What a token does
not tell is where the name ends and the secret begins: it does only if no name holds a `:`
(`build_injective`).  `canonical` gathers what a token looks like.
-/

namespace Gatekeeper.Token

open Text (isBlank words words_append words_eq_singleton trim_eq_self)
open Text.Base64 (alphabet encode padded utf8 encode_injective utf8_injective filter_padded
  mem_alphabet_of_mem_encode ne_of_mem_alphabet isAlphanum_of_mem_alphabet length_encode
  length_utf8)

/-- **Tokens are equal just if the texts are.** -/
theorem build_eq_iff {n s m t : String} :
    build n s = build m t ↔ n ++ ":" ++ s = m ++ ":" ++ t := by
  refine ⟨fun h => ?_, fun h => by rw [build, h, build]⟩
  have hdigits : encode (utf8 (n ++ ":" ++ s)) = encode (utf8 (m ++ ":" ++ t)) := by
    simpa [build] using congrArg String.toList h
  exact utf8_injective (encode_injective hdigits)

/-- A list is cut at the first of its marks in one way only. -/
theorem append_cons_inj {c : Char} : ∀ {xs as ys bs : List Char}, c ∉ xs → c ∉ as →
    xs ++ c :: ys = as ++ c :: bs → xs = as ∧ ys = bs
  | [], [], _, _, _, _, h => ⟨rfl, (List.cons.inj h).2⟩
  | [], a :: as, _, _, _, has, h => absurd ((List.cons.inj h).1 ▸ List.mem_cons_self) has
  | x :: xs, [], _, _, hxs, _, h => absurd ((List.cons.inj h).1 ▸ List.mem_cons_self) hxs
  | x :: xs, a :: as, _, _, hxs, has, h => by
    obtain ⟨rfl, hrest⟩ := List.cons.inj h
    obtain ⟨rfl, hys⟩ := append_cons_inj (fun hc => hxs (List.mem_cons_of_mem x hc))
      (fun hc => has (List.mem_cons_of_mem x hc)) hrest
    exact ⟨rfl, hys⟩

/-- **Where names hold no colon, a token tells the name from the secret.** -/
theorem build_injective {n s m t : String} (hn : ':' ∉ n.toList) (hm : ':' ∉ m.toList)
    (h : build n s = build m t) : n = m ∧ s = t := by
  have htext := congrArg String.toList (build_eq_iff.mp h)
  have hcut : n.toList ++ ':' :: s.toList = m.toList ++ ':' :: t.toList := by simpa using htext
  obtain ⟨hname, hsecret⟩ := append_cons_inj hn hm hcut
  exact ⟨String.toList_inj.mp hname, String.toList_inj.mp hsecret⟩

theorem isBlank_of_mem_alphabet : ∀ c ∈ alphabet, isBlank c = false :=
  Text.isBlank_of_any (by decide)

/-- The characters of a token. -/
theorem mem_build {n s : String} {c : Char} (h : c ∈ (build n s).toList) :
    isBlank c = false ∧ c ≠ '=' := by
  rw [build, String.toList_ofList] at h
  have hc : c ∈ alphabet := mem_alphabet_of_mem_encode h
  exact ⟨isBlank_of_mem_alphabet c hc, ne_of_mem_alphabet hc⟩

theorem build_ne_nil (n s : String) : (build n s).toList ≠ [] := by
  intro h
  rw [build, String.toList_ofList] at h
  -- no digits are the digits of no text
  have hempty : encode (utf8 (n ++ ":" ++ s)) = encode (utf8 "") := by
    rw [h]
    decide
  have htext := congrArg String.toList (utf8_injective (encode_injective hempty))
  simp at htext

/-- **What a value carries**: its second word, but for the padding sign, unless that is all of it. -/
theorem ofHeader?_eq_some_iff {value t : String} : ofHeader? value = some t ↔
    t ≠ "" ∧ ∃ w, (words value.toList)[1]? = some w ∧ w.filter (· ≠ '=') = t.toList := by
  rw [ofHeader?]
  cases hw : (words value.toList)[1]? with
  | none => simp
  | some w =>
    -- a word holds no blank, so taking the padding away lays none bare
    have hclean : cleanChars w = w.filter (· ≠ '=') := by
      have hblank := (Text.mem_words (List.mem_of_getElem? hw)).2
      exact trim_eq_self fun c hc => hblank c (List.mem_filter.mp hc).1
    simp only [hclean, Option.some.injEq, exists_eq_left']
    cases hf : w.filter (· ≠ '=') with
    | nil =>
      constructor
      · intro h
        cases h
      · rintro ⟨hne, ht⟩
        exact absurd (String.toList_inj.mp ht.symm) hne
    | cons c cs =>
      simp only [Option.some.injEq]
      constructor
      · rintro rfl
        exact ⟨fun h => by simpa using congrArg String.toList h, String.toList_ofList.symm⟩
      · rintro ⟨-, ht⟩
        rw [ht, String.ofList_toList]

/-- **A token is read back as it is.** -/
theorem ofHeader?_build (n s : String) :
    ofHeader? ("Basic " ++ build n s) = some (build n s) := by
  have hblank : ∀ c ∈ (build n s).toList, isBlank c = false := fun c hc => (mem_build hc).1
  have hwords : words ("Basic " ++ build n s).toList
      = ["Basic".toList, (build n s).toList] := by
    have htext : ("Basic " ++ build n s).toList = "Basic".toList ++ ' ' :: (build n s).toList := by
      simp
    rw [htext, words_append (by decide) (Text.isBlank_of_any (by decide)) (by decide),
      words_eq_singleton (build_ne_nil n s) hblank]
  refine ofHeader?_eq_some_iff.mpr
    ⟨fun h => build_ne_nil n s (by rw [h]; rfl), (build n s).toList, ?_, ?_⟩
  · rw [hwords]
    rfl
  · exact List.filter_eq_self.mpr fun c hc => by simpa using (mem_build hc).2

/-! ## The form of a token -/

/-- **A token is the base64 form of its text**, taken without the padding. -/
theorem clean_padded (n s : String) :
    clean (String.ofList (padded (utf8 (n ++ ":" ++ s)))) = build n s := by
  have hblank : ∀ c ∈ encode (utf8 (n ++ ":" ++ s)), isBlank c = false := fun c hc =>
    isBlank_of_mem_alphabet c (mem_alphabet_of_mem_encode hc)
  rw [clean, String.toList_ofList, cleanChars, filter_padded, trim_eq_self hblank, build]

/-- **Tokens are canonical.**  Two are equal just if the texts `name:secret` are.  A token is the
base64 form of its text without the padding; it is not empty, holds letters and figures of ASCII,
plus and slash only, is clean, and is as long as the bytes of the text ask for. -/
theorem canonical :
    (∀ n s m t, build n s = build m t ↔ n ++ ":" ++ s = m ++ ":" ++ t) ∧
    ∀ n s, build n s = clean (String.ofList (padded (utf8 (n ++ ":" ++ s)))) ∧
      build n s ≠ "" ∧
      (∀ c ∈ (build n s).toList, c.isAlphanum = true ∨ c = '+' ∨ c = '/') ∧
      clean (build n s) = build n s ∧
      (build n s).length = 4 * (n ++ ":" ++ s).utf8ByteSize ⌈/⌉ 3 := by
  refine ⟨fun n s m t => build_eq_iff, fun n s => ⟨(clean_padded n s).symm, ?_, ?_, ?_, ?_⟩⟩
  · intro h
    exact build_ne_nil n s (congrArg String.toList h)
  · intro c hc
    rw [build, String.toList_ofList] at hc
    exact isAlphanum_of_mem_alphabet c (mem_alphabet_of_mem_encode hc)
  · rw [← clean_padded, clean_clean]
  · rw [build, String.length_ofList, length_encode, length_utf8, Nat.ceilDiv_eq_add_pred_div]
    rfl

/-- The text `Σ:/?` has five bytes, and its token, for want of a sixth, seven characters.  Where the
name ends is not told: `Σ` with `:/?` has the token of `Σ:` with `/?`. -/
theorem canonical_sigma : build "Σ" "/?" = "zqM6Lz8" ∧
    build "Σ" "/?" = clean "zqM6Lz8=" ∧ build "Σ" "/?" ≠ "" ∧
    ('z'.isAlphanum = true ∨ 'z' = '+' ∨ 'z' = '/') ∧
    clean (build "Σ" "/?") = build "Σ" "/?" ∧
    (build "Σ" "/?").length = 4 * 5 ⌈/⌉ 3 ∧
    build "Σ" ":/?" = build "Σ:" "/?" := by
  have htoken : build "Σ" "/?" = "zqM6Lz8" := by decide +kernel
  have hpadded : String.ofList (padded (utf8 ("Σ" ++ ":" ++ "/?"))) = "zqM6Lz8=" := by
    decide +kernel
  obtain ⟨hform, hne, hchars, hclean, hlength⟩ := canonical.2 "Σ" "/?"
  rw [hpadded] at hform
  exact ⟨htoken, hform, hne, hchars 'z' (by rw [htoken]; decide), hclean, hlength,
    (canonical.1 _ _ _ _).mpr (by decide +kernel)⟩

end Gatekeeper.Token
