import Gatekeeper.Proofs.Text.Blank
import Gatekeeper.Text.LetterCase
import Mathlib.Data.List.Basic

/-!
# Proofs/Text/LetterCase — lower case is final

`lower_lower`: the lower case of a text has no other lower case, and `trimmed_lower_trimmed`: taking
it never lays a blank bare.  Both rest on what becomes of single characters
(`settled_of_mem_lowerAt`), and so on the table: the lower cases of a run of capitals meet no run of
capitals, for they lie apart from it or between its letters (`Run.apart`).
-/

namespace Gatekeeper.Text

namespace LetterCase

/-! ## The table -/

/-- The code points of blanks, as ranges. -/
def blankRanges : List (Nat × Nat) :=
  [(9, 13), (0x20, 0x20), (0x85, 0x85), (0xA0, 0xA0), (0x1680, 0x1680), (0x2000, 0x200A),
    (0x2028, 0x2029), (0x202F, 0x202F), (0x205F, 0x205F), (0x3000, 0x3000)]

theorem isBlank_iff {c : Char} :
    isBlank c = true ↔ ∃ b ∈ blankRanges, b.1 ≤ c.toNat ∧ c.toNat ≤ b.2 := by
  simp only [isBlank, blankRanges, List.mem_cons, List.not_mem_nil, or_false, exists_eq_or_imp,
    exists_eq_left, Bool.or_eq_true, Bool.and_eq_true, decide_eq_true_eq, beq_iff_eq]
  omega

/-- The last of the lower cases of a run. -/
def Run.lowerLast (r : Run) : Nat := r.lower + (r.last - r.first)

/-- Whether the lower cases of the one run and the letters of the other are seen to have no code
point in common: they lie apart, or the ones are odd where the others are even. -/
def Run.apart (r q : Run) : Bool :=
  Nat.blt r.lowerLast q.first || Nat.blt q.last r.lower ||
    (r.step % 2 == 0 || r.first == r.last) && q.step % 2 == 0 && (r.lower + q.first) % 2 == 1

theorem Run.apart_iff {r q : Run} : r.apart q = true ↔
    r.lowerLast < q.first ∨ q.last < r.lower ∨
      (r.step % 2 = 0 ∨ r.first = r.last) ∧ q.step % 2 = 0 ∧ (r.lower + q.first) % 2 = 1 := by
  simp only [apart, Bool.or_eq_true, Bool.and_eq_true, Nat.blt_eq, beq_iff_eq, or_assoc, and_assoc]

theorem Run.holds_iff {r : Run} {n : Nat} :
    r.holds n = true ↔ r.first ≤ n ∧ n ≤ r.last ∧ r.step ∣ n - r.first := by
  rw [holds, Bool.and_eq_true, Bool.and_eq_true, decide_eq_true_eq, decide_eq_true_eq, beq_iff_eq,
    Nat.dvd_iff_mod_eq_zero, and_assoc]

/-- The lower cases of a run lie between that of its first letter and that of its last. -/
theorem Run.lowerOf_bounds {r : Run} {n : Nat} (hn : r.holds n = true) :
    r.lower ≤ r.lowerOf n ∧ r.lowerOf n ≤ r.lowerLast := by
  obtain ⟨hfirst, hlast, -⟩ := holds_iff.mp hn
  rw [lowerOf, lowerLast]
  omega

theorem Run.not_holds_lowerOf {r q : Run} (h : r.apart q = true) {n : Nat}
    (hn : r.holds n = true) : q.holds (r.lowerOf n) = false := by
  obtain ⟨hlower, hlowerLast⟩ := lowerOf_bounds hn
  obtain ⟨hfirst, hlast, hstep⟩ := holds_iff.mp hn
  rw [Bool.eq_false_iff]
  intro hq
  obtain ⟨hqfirst, hqlast, hqstep⟩ := holds_iff.mp hq
  rcases apart_iff.mp h with h | h | ⟨hr, hqeven, hodd⟩
  · omega
  · omega
  · -- both distances are even, so the two firsts are of one parity
    have hqdist : 2 ∣ r.lowerOf n - q.first := Nat.dvd_trans (Nat.dvd_of_mod_eq_zero hqeven) hqstep
    have hdist : 2 ∣ n - r.first := by
      rcases hr with hr | hr
      · exact Nat.dvd_trans (Nat.dvd_of_mod_eq_zero hr) hstep
      · have hzero : n - r.first = 0 := by omega
        rw [hzero]
        exact Nat.dvd_zero 2
    rw [lowerOf] at hqdist hqfirst
    omega

/-- No lower case of a run is a letter of any run. -/
theorem apart_lowerRuns {r q : Run} (hr : r ∈ lowerRuns) (hq : q ∈ lowerRuns) :
    r.apart q = true := by
  have h : (lowerRuns.all fun r => lowerRuns.all r.apart) = true := by decide +kernel
  exact List.all_eq_true.mp (List.all_eq_true.mp h r hr) q hq

/-- The lower cases of a run are characters, none of them blank, and none the dotted capital I. -/
theorem lowerRuns_bounds : ∀ r ∈ lowerRuns,
    (r.lowerLast < 0xD800 ∨ 0xDFFF < r.lower ∧ r.lowerLast < 0x110000) ∧
      (r.lowerLast < 0x130 ∨ 0x130 < r.lower) ∧
        ∀ b ∈ blankRanges, r.lowerLast < b.1 ∨ b.2 < r.lower := by
  decide +kernel

/-! ## Single characters -/

/-- What has no other lower case than itself. -/
def Settled (c : Char) : Prop := lowerChar c = [c]

theorem settled_of_find?_eq_none {c : Char} (hc : c ≠ '\u0130')
    (h : lowerRuns.find? (·.holds c.toNat) = none) : Settled c := by
  rw [Settled, lowerChar, if_neg hc, h]

theorem Settled.ne_sigma {c : Char} (h : Settled c) : c ≠ 'Σ' := by
  rintro rfl
  exact absurd h (by rw [Settled]; decide +kernel)

theorem toNat_ofNat_lowerOf {r : Run} (hr : r ∈ lowerRuns) {n : Nat} (hn : r.holds n = true) :
    (Char.ofNat (r.lowerOf n)).toNat = r.lowerOf n := by
  obtain ⟨hlower, hlast⟩ := Run.lowerOf_bounds hn
  have hvalid : (r.lowerOf n).isValidChar := by
    rcases (lowerRuns_bounds r hr).1 with h | ⟨h, h'⟩
    · exact .inl (by omega)
    · exact .inr ⟨by omega, by omega⟩
  rw [Char.ofNat, dif_pos hvalid]
  rfl

/-- **The lower case of a letter** is settled, and no blank. -/
theorem settled_ofNat_lowerOf {r : Run} (hr : r ∈ lowerRuns) {n : Nat} (hn : r.holds n = true) :
    Settled (Char.ofNat (r.lowerOf n)) ∧ isBlank (Char.ofNat (r.lowerOf n)) = false := by
  obtain ⟨hlower, hlast⟩ := Run.lowerOf_bounds hn
  have hnat := toNat_ofNat_lowerOf hr hn
  obtain ⟨-, hdotted, hblanks⟩ := lowerRuns_bounds r hr
  constructor
  · refine settled_of_find?_eq_none (fun h => ?_) (List.find?_eq_none.mpr fun q hq => ?_)
    · rw [h] at hnat
      have hcode : ('\u0130' : Char).toNat = 0x130 := rfl
      omega
    · rw [hnat, Run.not_holds_lowerOf (apart_lowerRuns hr hq) hn]
      exact Bool.false_ne_true
  · rw [Bool.eq_false_iff]
    intro hblank
    obtain ⟨b, hb, hfirst, hlast'⟩ := isBlank_iff.mp hblank
    rw [hnat] at hfirst hlast'
    have := hblanks b hb
    omega

/-- What is written for a character with these before it, nearest first, and these after it. -/
def lowerAt (before after : List Char) (c : Char) : List Char :=
  if c = 'Σ' then [if endsWord before after then 'ς' else 'σ'] else lowerChar c

theorem lowerFrom_cons (before cs : List Char) (c : Char) :
    lowerFrom before (c :: cs) = lowerAt before cs c ++ lowerFrom (c :: before) cs := rfl

theorem lowerAt_ne_nil (before after : List Char) (c : Char) : lowerAt before after c ≠ [] := by
  rw [lowerAt]
  split
  · exact List.cons_ne_nil _ _
  · rw [lowerChar]
    split
    · exact List.cons_ne_nil _ _
    · split
      · exact List.cons_ne_nil _ _
      · exact List.cons_ne_nil _ _

/-- **What becomes of a character** is settled, and blank only if the character was. -/
theorem settled_of_mem_lowerAt {before after : List Char} {c d : Char}
    (h : d ∈ lowerAt before after c) : Settled d ∧ (isBlank c = false → isBlank d = false) := by
  rw [lowerAt] at h
  split at h
  · have hsigma : ∀ d ∈ ['ς', 'σ'], lowerChar d = [d] ∧ isBlank d = false := by
      rw [List.forall_mem_cons, List.forall_mem_singleton]
      decide +kernel
    have hd : d ∈ ['ς', 'σ'] := by
      split at h
      · exact List.mem_cons.mpr (.inl (List.mem_singleton.mp h))
      · exact List.mem_cons_of_mem _ h
    exact ⟨(hsigma d hd).1, fun _ => (hsigma d hd).2⟩
  · rw [lowerChar] at h
    split at h
    · have hdotted : ∀ d ∈ ['i', '\u0307'], lowerChar d = [d] ∧ isBlank d = false := by
        rw [List.forall_mem_cons, List.forall_mem_singleton]
        decide +kernel
      exact ⟨(hdotted d h).1, fun _ => (hdotted d h).2⟩
    · next hc =>
      split at h
      · next r hfind =>
        obtain rfl := List.mem_singleton.mp h
        have hr : r.holds c.toNat = true := by simpa using List.find?_some hfind
        have hd := settled_ofNat_lowerOf (List.mem_of_find?_eq_some hfind) hr
        exact ⟨hd.1, fun _ => hd.2⟩
      · next hfind =>
        obtain rfl := List.mem_singleton.mp h
        exact ⟨settled_of_find?_eq_none hc hfind, id⟩

/-! ## Texts -/

theorem settled_of_mem_lowerFrom {d : Char} : ∀ {before cs : List Char},
    d ∈ lowerFrom before cs → Settled d
  | _, [], h => absurd h List.not_mem_nil
  | before, c :: cs, h => by
    rw [lowerFrom_cons] at h
    rcases List.mem_append.mp h with h | h
    · exact (settled_of_mem_lowerAt h).1
    · exact settled_of_mem_lowerFrom h

theorem lowerFrom_eq_self : ∀ {before cs : List Char}, (∀ c ∈ cs, Settled c) →
    lowerFrom before cs = cs
  | _, [], _ => rfl
  | before, c :: cs, h => by
    have hc : Settled c := h c List.mem_cons_self
    rw [lowerFrom_cons, lowerAt, if_neg hc.ne_sigma, hc,
      lowerFrom_eq_self fun d hd => h d (List.mem_cons_of_mem c hd), List.singleton_append]

theorem lowerFrom_ne_nil (before cs : List Char) (c : Char) : lowerFrom before (c :: cs) ≠ [] := by
  rw [lowerFrom_cons]
  exact List.append_ne_nil_of_left_ne_nil (lowerAt_ne_nil before cs c) _

theorem isBlank_head?_lowerFrom {before : List Char} : ∀ {cs : List Char},
    (∀ c ∈ cs.head?, isBlank c = false) → ∀ d ∈ (lowerFrom before cs).head?, isBlank d = false
  | [], _, _, hd => by cases hd
  | c :: cs, h, d, hd => by
    have hc : isBlank c = false := h c rfl
    rw [lowerFrom_cons, List.head?_append_of_ne_nil _ (lowerAt_ne_nil before cs c)] at hd
    exact (settled_of_mem_lowerAt (List.mem_of_mem_head? hd)).2 hc

theorem isBlank_getLast?_lowerFrom : ∀ {before cs : List Char},
    (∀ c ∈ cs.getLast?, isBlank c = false) →
      ∀ d ∈ (lowerFrom before cs).getLast?, isBlank d = false
  | _, [], _, _, hd => by cases hd
  | before, [c], h, d, hd => by
    have hc : isBlank c = false := h c rfl
    rw [lowerFrom_cons, lowerFrom, List.append_nil] at hd
    exact (settled_of_mem_lowerAt (List.mem_of_mem_getLast? hd)).2 hc
  | before, c :: e :: cs, h, d, hd => by
    rw [lowerFrom_cons, List.getLast?_append_of_ne_nil _ (lowerFrom_ne_nil _ cs e)] at hd
    exact isBlank_getLast?_lowerFrom (fun x hx => h x (by rwa [List.getLast?_cons_cons])) d hd

end LetterCase

open LetterCase

/-- **Lower case is final.** -/
theorem lower_lower (s : String) : lower (lower s) = lower s := by
  rw [← String.toList_inj, toList_lower, toList_lower]
  exact lowerFrom_eq_self fun d hd => settled_of_mem_lowerFrom hd

/-- **No blank is laid bare** by taking the lower case of a trimmed text. -/
theorem trimmed_lower_trimmed (s : String) :
    trimmed (lower (trimmed s)) = lower (trimmed s) := by
  rw [← String.toList_inj, toList_trimmed, toList_lower, toList_trimmed]
  refine trim_eq_self_iff.mpr ⟨?_, ?_⟩
  · exact isBlank_head?_lowerFrom fun c hc => head?_trim hc
  · exact isBlank_getLast?_lowerFrom fun c hc => getLast?_trim hc

end Gatekeeper.Text
