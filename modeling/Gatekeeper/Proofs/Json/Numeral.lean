import Gatekeeper.Json.Token

/-!
# Proofs/Json/Numeral — the ways to write a number

A number is written with a sign, digits, a fraction and an exponent (`Numeral.Spells`), and where it
ends is seen by the character that follows it (`NumberEnds`).  The lexer reads every number that is
written so (`Lexer.run_numeral`), and no others: what has been read of a number that is not complete
is `Begun`, each further character leaves it begun at the next stage (`Begun.next`), and where the
number may end it is spelled (`Lexer.exists_numeral`).
-/

namespace Gatekeeper.Json

/-! ## Digits -/

/-- Decimal digits as they are written. -/
def digitChars (ds : List Nat) : List Char := ds.map Nat.digitChar

/-- Decimal digits, at least one. -/
def IsDigits (ds : List Nat) : Prop := ds ≠ [] ∧ ∀ d ∈ ds, d < 10

/-- The digits before the point: after a zero that comes first there is none. -/
def IsWhole (ds : List Nat) : Prop := IsDigits ds ∧ (ds.head? = some 0 → ds = [0])

theorem digit?_digitChar : ∀ {d : Nat}, d < 10 → digit? (Nat.digitChar d) = some d := by
  decide +kernel

theorem eq_digitChar_of_digit? {c : Char} {d : Nat} (h : digit? c = some d) :
    d < 10 ∧ c = Nat.digitChar d := by
  have hchars : ∀ n < 10, Char.ofNat (n + 48) = Nat.digitChar n := by decide +kernel
  rw [digit?] at h
  split at h
  · next hc =>
    obtain rfl := Option.some.inj h
    have hlow : 48 ≤ c.toNat := hc.1
    have hhigh : c.toNat ≤ 57 := hc.2
    have hd : c.toNat - '0'.toNat < 10 := by
      change c.toNat - 48 < 10
      omega
    refine ⟨hd, ?_⟩
    rw [← hchars _ hd]
    change c = Char.ofNat (c.toNat - 48 + 48)
    rw [Nat.sub_add_cancel hlow, Char.ofNat_toNat]
  · cases h

theorem IsDigits.concat {ds : List Nat} {d : Nat} (h : IsDigits ds) (hd : d < 10) :
    IsDigits (ds ++ [d]) :=
  ⟨by simp, by simpa [or_imp, forall_and] using ⟨h.2, hd⟩⟩

theorem isDigits_singleton {d : Nat} (hd : d < 10) : IsDigits [d] := ⟨by simp, by simpa using hd⟩

theorem digitChars_concat (ds : List Nat) (d : Nat) :
    digitChars (ds ++ [d]) = digitChars ds ++ [Nat.digitChar d] := by
  simp [digitChars]

/-! ## Numbers -/

namespace Numeral

/-- The ways to write a fraction, or that there is none. -/
inductive SpellsFraction : Option (List Nat) → List Char → Prop
  | absent : SpellsFraction none []
  | digits {ds : List Nat} (h : IsDigits ds) : SpellsFraction (some ds) ('.' :: digitChars ds)

/-- The signs of an exponent, each with whether it makes the exponent negative. -/
def exponentSigns : List (List Char × Bool) := [([], false), (['+'], false), (['-'], true)]

/-- The ways to write an exponent, or that there is none. -/
inductive SpellsExponent : Option (Bool × List Nat) → List Char → Prop
  | absent : SpellsExponent none []
  | digits {letter : Char} {sign : List Char} {negative : Bool} {ds : List Nat}
      (hletter : letter = 'e' ∨ letter = 'E') (hsign : (sign, negative) ∈ exponentSigns)
      (h : IsDigits ds) : SpellsExponent (some (negative, ds)) (letter :: (sign ++ digitChars ds))

/-- The sign of a number. -/
def signChars (negative : Bool) : List Char := if negative then ['-'] else []

/-- **The ways to write a number.** -/
inductive Spells : Numeral → List Char → Prop
  | mk {negative : Bool} {whole : List Nat} {fraction : Option (List Nat)}
      {exponent : Option (Bool × List Nat)} {f e : List Char} (hwhole : IsWhole whole)
      (hfraction : SpellsFraction fraction f) (hexponent : SpellsExponent exponent e) :
      Spells ⟨negative, whole, fraction, exponent⟩
        (signChars negative ++ (digitChars whole ++ f ++ e))

theorem Spells.ne_nil {n : Numeral} {cs : List Char} (h : Spells n cs) : cs ≠ [] := by
  obtain ⟨hwhole, -, -⟩ := h
  simp [digitChars, hwhole.1.1]

theorem inOrder_inOrder (n : Numeral) : n.inOrder.inOrder = n := by
  obtain ⟨negative, whole, fraction, exponent⟩ := n
  cases fraction <;> cases exponent <;> simp [inOrder]

end Numeral

/-- What follows a number does not belong to it. -/
def NumberEnds (rest : List Char) : Prop :=
  ∀ c ∈ rest.head?, digit? c = none ∧ c ≠ '.' ∧ c ≠ 'e' ∧ c ≠ 'E'

open Numeral

/-! ## What is spelled is read -/

namespace Lexer

theorem run_cons (m : Lexer) (c : Char) (cs : List Char) :
    m.run (c :: cs) = (m.step c).1 ++ (m.step c).2.run cs := rfl

theorem run_next {stage stage' : Stage} {n n' : Numeral} {c : Char}
    (h : stage.next n c = some (stage', n')) (rest : List Char) :
    (number stage n).run (c :: rest) = (number stage' n').run rest := by
  simp [run_cons, step, h]

/-- Digits that leave a number at its stage are gathered, the last one first. -/
theorem run_digits (stage : Stage) (gathered : List Nat → Numeral)
    (hnext : ∀ {c : Char} {d : Nat} (ds : List Nat), digit? c = some d →
      stage.next (gathered ds) c = some (stage, gathered (d :: ds))) :
    ∀ {more : List Nat} (ds : List Nat) (rest : List Char), (∀ d ∈ more, d < 10) →
      (number stage (gathered ds)).run (digitChars more ++ rest)
        = (number stage (gathered (more.reverse ++ ds))).run rest
  | [], _, _, _ => rfl
  | d :: more, ds, rest, h => by
    obtain ⟨hd, hmore⟩ := List.forall_mem_cons.mp h
    have hstep := run_next (hnext ds (digit?_digitChar hd)) (digitChars more ++ rest)
    rw [digitChars, List.map_cons, List.cons_append, ← digitChars, hstep,
      run_digits stage gathered hnext (d :: ds) rest hmore, List.reverse_cons, List.append_assoc]
    rfl

/-- Digits that bring a number to a stage and then leave it there are gathered, the last one
first. -/
theorem run_isDigits {stage stage' : Stage} {n : Numeral} (gathered : List Nat → Numeral)
    {ds : List Nat} (h : IsDigits ds) (rest : List Char)
    (hfirst : ∀ d ∈ ds.head?, digit? (Nat.digitChar d) = some d →
      stage.next n (Nat.digitChar d) = some (stage', gathered [d]))
    (hnext : ∀ {c : Char} {d : Nat} (ds : List Nat), digit? c = some d →
      stage'.next (gathered ds) c = some (stage', gathered (d :: ds))) :
    (number stage n).run (digitChars ds ++ rest)
      = (number stage' (gathered ds.reverse)).run rest := by
  obtain ⟨d, ds, rfl⟩ := List.exists_cons_of_ne_nil h.1
  obtain ⟨hd, hds⟩ := List.forall_mem_cons.mp h.2
  rw [digitChars, List.map_cons, List.cons_append, run_next (hfirst d rfl (digit?_digitChar hd)),
    ← digitChars, run_digits stage' gathered hnext [d] rest hds, List.reverse_cons]

theorem run_whole (negative : Bool) {whole : List Nat} (h : IsWhole whole) (rest : List Char) :
    ∃ stage, (stage = .zero ∨ stage = .whole) ∧
      (number .sign ⟨negative, [], none, none⟩).run (digitChars whole ++ rest)
        = (number stage ⟨negative, whole.reverse, none, none⟩).run rest := by
  obtain ⟨hdigits, hzero⟩ := h
  by_cases h0 : whole.head? = some 0
  · rw [hzero h0]
    exact ⟨.zero, .inl rfl, rfl⟩
  · refine ⟨.whole, .inr rfl, run_isDigits (fun ds => ⟨negative, ds, none, none⟩) hdigits rest
      (fun d hd hc => ?_) fun _ hc => by simp [Stage.next, hc]⟩
    have hne : d ≠ 0 := fun h => h0 (h ▸ hd)
    simp [Stage.next, hc]

theorem run_fraction {stage : Stage} (hstage : stage = .zero ∨ stage = .whole) (negative : Bool)
    (whole : List Nat) {fraction : Option (List Nat)} {f : List Char}
    (h : SpellsFraction fraction f) (rest : List Char) :
    ∃ stage', (stage' = .zero ∨ stage' = .whole ∨ stage' = .fraction) ∧
      (number stage ⟨negative, whole, none, none⟩).run (f ++ rest)
        = (number stage' ⟨negative, whole, fraction.map List.reverse, none⟩).run rest := by
  cases h with
  | absent => exact ⟨stage, hstage.imp_right .inl, rfl⟩
  | digits h =>
    have hpoint : stage.next ⟨negative, whole, none, none⟩ '.'
        = some (.point, ⟨negative, whole, none, none⟩) := by
      rcases hstage with rfl | rfl <;> rfl
    refine ⟨.fraction, by simp, ?_⟩
    rw [List.cons_append, run_next hpoint]
    exact run_isDigits (fun ds => ⟨negative, whole, some ds, none⟩) h rest
      (fun _ _ hc => by simp [Stage.next, hc]) fun _ hc => by simp [Stage.next, hc]

theorem run_exponent {stage : Stage}
    (hstage : stage = .zero ∨ stage = .whole ∨ stage = .fraction) (negative : Bool)
    (whole : List Nat) (fraction : Option (List Nat)) {exponent : Option (Bool × List Nat)}
    {e : List Char} (h : SpellsExponent exponent e) (rest : List Char) :
    ∃ stage', stage'.mayEnd none = true ∧
      (number stage ⟨negative, whole, fraction, none⟩).run (e ++ rest)
        = (number stage' ⟨negative, whole, fraction,
            exponent.map fun e => (e.1, e.2.reverse)⟩).run rest := by
  cases h with
  | absent =>
    refine ⟨stage, ?_, rfl⟩
    rcases hstage with rfl | rfl | rfl <;> rfl
  | @digits letter sign b ds hletter hsign h =>
    have hbegin : stage.next ⟨negative, whole, fraction, none⟩ letter
        = some (.letter, ⟨negative, whole, fraction, none⟩) := by
      rcases hstage with rfl | rfl | rfl <;> rcases hletter with rfl | rfl <;> rfl
    refine ⟨.exponent, rfl, ?_⟩
    rw [List.cons_append, run_next hbegin, List.append_assoc]
    simp only [exponentSigns, List.mem_cons, Prod.mk.injEq, List.not_mem_nil, or_false] at hsign
    obtain ⟨rfl, rfl⟩ | ⟨rfl, rfl⟩ | ⟨rfl, rfl⟩ := hsign
    · exact run_isDigits (fun ds => ⟨negative, whole, fraction, some (false, ds)⟩) h rest
        (fun _ _ hc => by simp [Stage.next, hc]) fun _ hc => by simp [Stage.next, hc]
    · have hplus : Stage.letter.next ⟨negative, whole, fraction, none⟩ '+'
          = some (.exponentSign, ⟨negative, whole, fraction, some (false, [])⟩) := rfl
      rw [List.singleton_append, run_next hplus]
      exact run_isDigits (fun ds => ⟨negative, whole, fraction, some (false, ds)⟩) h rest
        (fun _ _ hc => by simp [Stage.next, hc]) fun _ hc => by simp [Stage.next, hc]
    · have hminus : Stage.letter.next ⟨negative, whole, fraction, none⟩ '-'
          = some (.exponentSign, ⟨negative, whole, fraction, some (true, [])⟩) := rfl
      rw [List.singleton_append, run_next hminus]
      exact run_isDigits (fun ds => ⟨negative, whole, fraction, some (true, ds)⟩) h rest
        (fun _ _ hc => by simp [Stage.next, hc]) fun _ hc => by simp [Stage.next, hc]

/-- A number that may end, ends before a character that does not belong to it. -/
theorem run_number_ends {stage : Stage} (h : stage.mayEnd none = true) (n : Numeral)
    {rest : List Char} (hrest : NumberEnds rest) :
    (number stage n).run rest = .num n.inOrder :: between.run rest := by
  cases rest with
  | nil => simp [run, finish, h]
  | cons c rest =>
    obtain ⟨hdigit, hpoint, he, hE⟩ := hrest c rfl
    have hnext : stage.next n c = none := by
      cases stage <;> first | exact absurd h (by decide) | simp [Stage.next, hdigit, hpoint, he, hE]
    have hend : stage.mayEnd (some c) = true := by
      cases stage <;> first | exact absurd h (by decide) | simp [Stage.mayEnd, hdigit]
    simp [run_cons, step, hnext, hend]

/-- A digit begins a number as it does after a sign. -/
theorem start_digitChar : ∀ {d : Nat}, d < 10 →
    start (Nat.digitChar d) = (number .sign (noDigits false)).step (Nat.digitChar d) := by
  decide +kernel

theorem run_signChars (negative : Bool) {whole : List Nat} (h : IsDigits whole)
    (rest : List Char) : between.run (signChars negative ++ (digitChars whole ++ rest))
      = (number .sign ⟨negative, [], none, none⟩).run (digitChars whole ++ rest) := by
  cases negative with
  | true => rfl
  | false =>
    obtain ⟨d, ds, rfl⟩ := List.exists_cons_of_ne_nil h.1
    have hstep := start_digitChar (h.2 d List.mem_cons_self)
    change between.run (Nat.digitChar d :: (digitChars ds ++ rest)) = _
    rw [run_cons, step, hstep]
    rfl

/-- **A number is one token**, however it is written. -/
theorem run_numeral {n : Numeral} {cs rest : List Char} (h : Spells n cs)
    (hrest : NumberEnds rest) : between.run (cs ++ rest) = .num n :: between.run rest := by
  obtain @⟨negative, whole, fraction, exponent, f, e, hwhole, hfraction, hexponent⟩ := h
  obtain ⟨stage, hstage, hrun⟩ := run_whole negative hwhole (f ++ (e ++ rest))
  obtain ⟨stage', hstage', hrun'⟩ := run_fraction hstage negative whole.reverse hfraction (e ++ rest)
  obtain ⟨last, hlast, hrun''⟩ :=
    run_exponent hstage' negative whole.reverse (fraction.map List.reverse) hexponent rest
  have hassoc : signChars negative ++ (digitChars whole ++ f ++ e) ++ rest
      = signChars negative ++ (digitChars whole ++ (f ++ (e ++ rest))) := by
    simp
  rw [hassoc, run_signChars negative hwhole.1, hrun, hrun', hrun'', run_number_ends hlast _ hrest]
  exact congrArg (fun n => Token.num n :: between.run rest)
    (inOrder_inOrder ⟨negative, whole, fraction, exponent⟩)

end Lexer

/-! ## What is read is spelled -/

/-- What has been read of a number that has come to a stage, its sign aside. -/
inductive Begun (negative : Bool) : Stage → Numeral → List Char → Prop
  | sign : Begun negative .sign ⟨negative, [], none, none⟩ []
  | zero : Begun negative .zero ⟨negative, [0], none, none⟩ (digitChars [0])
  | whole {d : Nat} {ds : List Nat} (h : IsDigits (d :: ds)) (hd : d ≠ 0) :
      Begun negative .whole ⟨negative, (d :: ds).reverse, none, none⟩ (digitChars (d :: ds))
  | point {w : List Nat} (hw : IsWhole w) :
      Begun negative .point ⟨negative, w.reverse, none, none⟩ (digitChars w ++ ['.'])
  | fraction {w ds : List Nat} (hw : IsWhole w) (h : IsDigits ds) :
      Begun negative .fraction ⟨negative, w.reverse, some ds.reverse, none⟩
        (digitChars w ++ '.' :: digitChars ds)
  | letter {w : List Nat} {fraction : Option (List Nat)} {f : List Char} {l : Char}
      (hw : IsWhole w) (hf : SpellsFraction fraction f) (hl : l = 'e' ∨ l = 'E') :
      Begun negative .letter ⟨negative, w.reverse, fraction.map List.reverse, none⟩
        (digitChars w ++ f ++ [l])
  | exponentSign {w : List Nat} {fraction : Option (List Nat)} {f sign : List Char} {l : Char}
      {b : Bool} (hw : IsWhole w) (hf : SpellsFraction fraction f) (hl : l = 'e' ∨ l = 'E')
      (hs : (sign, b) ∈ exponentSigns) :
      Begun negative .exponentSign
        ⟨negative, w.reverse, fraction.map List.reverse, some (b, [])⟩
        (digitChars w ++ f ++ l :: sign)
  | exponent {w ds : List Nat} {fraction : Option (List Nat)} {f sign : List Char} {l : Char}
      {b : Bool} (hw : IsWhole w) (hf : SpellsFraction fraction f) (hl : l = 'e' ∨ l = 'E')
      (hs : (sign, b) ∈ exponentSigns) (h : IsDigits ds) :
      Begun negative .exponent
        ⟨negative, w.reverse, fraction.map List.reverse, some (b, ds.reverse)⟩
        (digitChars w ++ f ++ l :: (sign ++ digitChars ds))

namespace Begun

variable {negative : Bool} {stage stage' : Stage} {n n' : Numeral} {cs : List Char} {c : Char}

theorem isWhole_of_ne_zero {d : Nat} {ds : List Nat} (h : IsDigits (d :: ds)) (hd : d ≠ 0) :
    IsWhole (d :: ds) :=
  ⟨h, fun h0 => absurd (Option.some.inj h0) hd⟩

theorem isWhole_zero : IsWhole [0] := ⟨isDigits_singleton (by decide), fun _ => rfl⟩

/-- After the digits before the point there may be the point, or the exponent. -/
theorem of_whole {w : List Nat} (hw : IsWhole w)
    (h : (if c = '.' then some (Stage.point, (⟨negative, w.reverse, none, none⟩ : Numeral))
      else if c = 'e' ∨ c = 'E' then some (.letter, ⟨negative, w.reverse, none, none⟩) else none)
        = some (stage', n')) : Begun negative stage' n' (digitChars w ++ [c]) := by
  split at h
  · next hc =>
    obtain ⟨rfl, rfl⟩ := Prod.mk.inj (Option.some.inj h)
    exact hc ▸ .point hw
  · split at h
    · next hc =>
      obtain ⟨rfl, rfl⟩ := Prod.mk.inj (Option.some.inj h)
      simpa using (Begun.letter hw .absent hc : Begun negative _ _ _)
    · cases h

/-- One more digit leaves a number begun. -/
theorem digit {d : Nat} (h : Begun negative stage n cs) (hd : d < 10)
    (hnext : stage.next n (Nat.digitChar d) = some (stage', n')) :
    Begun negative stage' n' (cs ++ [Nat.digitChar d]) := by
  have hdigit := digit?_digitChar hd
  cases h with
  | sign =>
    cases d with
    | zero =>
      simp only [Stage.next, hdigit] at hnext
      obtain ⟨rfl, rfl⟩ := Prod.mk.inj (Option.some.inj hnext)
      exact .zero
    | succ d =>
      simp only [Stage.next, hdigit] at hnext
      obtain ⟨rfl, rfl⟩ := Prod.mk.inj (Option.some.inj hnext)
      exact .whole (isDigits_singleton hd) (Nat.succ_ne_zero d)
  | zero => simp [Stage.next, hdigit] at hnext
  | whole h h0 =>
    simp only [Stage.next, hdigit] at hnext
    obtain ⟨rfl, rfl⟩ := Prod.mk.inj (Option.some.inj hnext)
    rw [← digitChars_concat]
    simpa using (Begun.whole (h.concat hd) h0 : Begun negative _ _ _)
  | point hw =>
    simp only [Stage.next, hdigit] at hnext
    obtain ⟨rfl, rfl⟩ := Prod.mk.inj (Option.some.inj hnext)
    simpa [digitChars] using (Begun.fraction hw (isDigits_singleton hd) : Begun negative _ _ _)
  | fraction hw h =>
    simp only [Stage.next, hdigit] at hnext
    obtain ⟨rfl, rfl⟩ := Prod.mk.inj (Option.some.inj hnext)
    simpa [digitChars_concat] using (Begun.fraction hw (h.concat hd) : Begun negative _ _ _)
  | letter hw hf hl =>
    simp only [Stage.next, hdigit] at hnext
    obtain ⟨rfl, rfl⟩ := Prod.mk.inj (Option.some.inj hnext)
    have hsign : ([], false) ∈ exponentSigns := by simp [exponentSigns]
    simpa [digitChars] using
      (Begun.exponent hw hf hl hsign (isDigits_singleton hd) : Begun negative _ _ _)
  | exponentSign hw hf hl hs =>
    simp only [Stage.next, hdigit] at hnext
    obtain ⟨rfl, rfl⟩ := Prod.mk.inj (Option.some.inj hnext)
    simpa [digitChars] using
      (Begun.exponent hw hf hl hs (isDigits_singleton hd) : Begun negative _ _ _)
  | exponent hw hf hl hs h =>
    simp only [Stage.next, hdigit] at hnext
    obtain ⟨rfl, rfl⟩ := Prod.mk.inj (Option.some.inj hnext)
    simpa [digitChars_concat] using
      (Begun.exponent hw hf hl hs (h.concat hd) : Begun negative _ _ _)

/-- So does a point, a letter or a sign, where there may be one. -/
theorem mark (h : Begun negative stage n cs) (hdigit : digit? c = none)
    (hnext : stage.next n c = some (stage', n')) : Begun negative stage' n' (cs ++ [c]) := by
  cases h with
  | zero => exact of_whole isWhole_zero (by simpa [Stage.next, hdigit] using hnext)
  | whole h hd =>
    exact of_whole (isWhole_of_ne_zero h hd) (by simpa only [Stage.next, hdigit] using hnext)
  | fraction hw h =>
    simp only [Stage.next, hdigit] at hnext
    split at hnext
    · next hc =>
      obtain ⟨rfl, rfl⟩ := Prod.mk.inj (Option.some.inj hnext)
      simpa using (Begun.letter hw (.digits h) hc : Begun negative _ _ _)
    · cases hnext
  | letter hw hf hl =>
    simp only [Stage.next, hdigit] at hnext
    split at hnext
    · next hc =>
      obtain ⟨rfl, rfl⟩ := Prod.mk.inj (Option.some.inj hnext)
      have hsign : (['+'], false) ∈ exponentSigns := by simp [exponentSigns]
      simpa [hc] using (Begun.exponentSign hw hf hl hsign : Begun negative _ _ _)
    · split at hnext
      · next hc =>
        obtain ⟨rfl, rfl⟩ := Prod.mk.inj (Option.some.inj hnext)
        have hsign : (['-'], true) ∈ exponentSigns := by simp [exponentSigns]
        simpa [hc] using (Begun.exponentSign hw hf hl hsign : Begun negative _ _ _)
      · cases hnext
  | sign | point | exponentSign | exponent => simp [Stage.next, hdigit] at hnext

/-- **One more character of a number leaves it begun**, at the stage that it comes to. -/
theorem next (h : Begun negative stage n cs) (hnext : stage.next n c = some (stage', n')) :
    Begun negative stage' n' (cs ++ [c]) := by
  cases hdigit : digit? c with
  | none => exact h.mark hdigit hnext
  | some d =>
    obtain ⟨hd, rfl⟩ := eq_digitChar_of_digit? hdigit
    exact h.digit hd hnext

/-- A number that may end is spelled. -/
theorem spells (h : Begun negative stage n cs) (hend : stage.mayEnd none = true) :
    Spells n.inOrder (signChars negative ++ cs) := by
  cases h with
  | sign | point | letter | exponentSign => cases hend
  | zero =>
    have hzero : Spells ⟨negative, [0], none, none⟩ _ := .mk isWhole_zero .absent .absent
    simpa [inOrder] using hzero
  | @whole d ds h hd =>
    have hwhole : Spells ⟨negative, d :: ds, none, none⟩ _ :=
      .mk (isWhole_of_ne_zero h hd) .absent .absent
    simpa [inOrder] using hwhole
  | @fraction w ds hw h =>
    have hfraction : Spells ⟨negative, w, some ds, none⟩ _ := .mk hw (.digits h) .absent
    simpa [inOrder] using hfraction
  | @exponent w ds fraction f sign l b hw hf hl hs h =>
    change Spells (inOrder (inOrder ⟨negative, w, fraction, some (b, ds)⟩)) _
    rw [inOrder_inOrder]
    exact .mk hw hf (.digits hl hs h)

end Begun

namespace Lexer

/-- **A number that is read to its end was spelled**, and what follows does not belong to it. -/
theorem exists_numeral {negative : Bool} : ∀ {cs before : List Char} {stage : Stage} {n : Numeral},
    Begun negative stage n before → .bad ∉ (number stage n).run cs → ∃ m more rest,
      cs = more ++ rest ∧ Spells m (signChars negative ++ (before ++ more)) ∧ NumberEnds rest ∧
        (number stage n).run cs = .num m :: between.run rest
  | [], before, stage, n, h, hbad => by
    have hend : stage.mayEnd none = true := by
      cases hend : stage.mayEnd none with
      | true => rfl
      | false => simp [run, finish, hend] at hbad
    refine ⟨n.inOrder, [], [], rfl, by simpa using h.spells hend, by simp [NumberEnds], ?_⟩
    simp [run, finish, hend]
  | c :: cs, before, stage, n, h, hbad => by
    cases hnext : stage.next n c with
    | some m =>
      obtain ⟨stage', n'⟩ := m
      rw [run_next hnext] at hbad ⊢
      obtain ⟨m, more, rest, rfl, hm, hrest, hrun⟩ := exists_numeral (h.next hnext) hbad
      exact ⟨m, c :: more, rest, rfl, by simpa using hm, hrest, hrun⟩
    | none =>
      have hend : stage.mayEnd (some c) = true := by
        cases hend : stage.mayEnd (some c) with
        | true => rfl
        | false => simp [run_cons, step, hnext, hend] at hbad
      have hrun : (number stage n).run (c :: cs) = .num n.inOrder :: between.run (c :: cs) := by
        simp [run_cons, step, hnext, hend]
      -- The next character begins a token of its own, as no point and no letter of an exponent does.
      have hstart : start c ≠ ([.bad], .stopped) := by
        intro hstart
        rw [hrun] at hbad
        simp [run_cons, step, hstart] at hbad
      have hends : stage.mayEnd none = true ∧ digit? c = none := by
        cases hdigit : digit? c <;> cases stage <;> simp_all [Stage.next, Stage.mayEnd]
      refine ⟨n.inOrder, [], c :: cs, rfl, by simpa using h.spells hends.1, ?_, hrun⟩
      rintro d ⟨⟩
      refine ⟨hends.2, ?_, ?_, ?_⟩ <;> rintro rfl <;> exact hstart rfl

end Lexer

end Gatekeeper.Json
