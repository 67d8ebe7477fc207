import Gatekeeper.Proofs.Json.Numeral

/-!
# Proofs/Json/Spelling — the ways to write the tokens of a document

A token may be written in several ways (`Spells`): a character of a string stands as it is or is
escaped, a number may have zeros to spare.  Between tokens there may be any blanks, and where a
number is not followed by one, what follows must not belong to it (`Spaced`).

The lexer finds just these tokens, however they are written and spaced: `Lexer.run_spaced` one way,
`Lexer.spaced_run` the other, and both together `spaced_iff`.
-/

namespace Gatekeeper.Json

/-! ## Strings -/

/-- The characters with a letter of their own, each with its letter. -/
def letters : List (Char × Char) :=
  [('"', '"'), ('\\', '\\'), ('\x08', 'b'), ('\x0c', 'f'), ('\n', 'n'), ('\r', 'r'), ('\t', 't')]

/-- The ways to write a piece of a string, each with what the piece adds to what has been
gathered. -/
inductive Adds : List Char → (Gathered → Gathered) → Prop
  | plain {c : Char} (hquote : c ≠ '"') (hslash : c ≠ '\\') (hcontrol : 0x20 ≤ c.toNat) :
      Adds [c] (·.push c)
  | letter {c l : Char} (h : (c, l) ∈ ('/', '/') :: letters) : Adds ['\\', l] (·.push c)
  | unit {a b c d : Char} {w x y z : Nat} (ha : hexDigit? a = some w) (hb : hexDigit? b = some x)
      (hc : hexDigit? c = some y) (hd : hexDigit? d = some z) :
      Adds ['\\', 'u', a, b, c, d] (·.pushUnit (((w * 16 + x) * 16 + y) * 16 + z))

/-- The ways to write what stands between the quotes of a string. -/
inductive Gathers : Gathered → List Char → Gathered → Prop
  | nil (g : Gathered) : Gathers g [] g
  | cons {g g' : Gathered} {piece cs : List Char} {add : Gathered → Gathered}
      (h : Adds piece add) (hcs : Gathers (add g) cs g') : Gathers g (piece ++ cs) g'

/-! ## Tokens -/

/-- The tokens that are one character. -/
def signs : List (Char × Token) :=
  [('[', .openList), (']', .closeList), ('\x7b', .openObject), ('\x7d', .closeObject),
    (',', .comma), (':', .colon)]

/-- The tokens that are words, each with its first letter apart. -/
def words : List (Char × List Char × Token) :=
  [('n', ['u', 'l', 'l'], .null), ('t', ['r', 'u', 'e'], .bool true),
    ('f', ['a', 'l', 's', 'e'], .bool false)]

/-- **The ways to write a token.** -/
inductive Spells : Token → List Char → Prop
  | sign {c : Char} {k : Token} (h : (c, k) ∈ signs) : Spells k [c]
  | word {c : Char} {cs : List Char} {k : Token} (h : (c, cs, k) ∈ words) : Spells k (c :: cs)
  | num {n : Numeral} {cs : List Char} (h : n.Spells cs) : Spells (.num n) cs
  | text {g : Gathered} {cs : List Char} (h : Gathers .empty cs g) :
      Spells (.text g.finish) ('"' :: (cs ++ ['"']))

/-- What follows a token does not belong to it. -/
def Ends : Token → List Char → Prop
  | .num _, rest => NumberEnds rest
  | _, _ => True

/-- Nothing but blanks of the format. -/
def IsSpacing (cs : List Char) : Prop := ∀ c ∈ cs, isSpace c = true

/-- **The ways to write tokens one after another**, with any blanks around them. -/
inductive Spaced : List Token → List Char → Prop
  | nil {space : List Char} (h : IsSpacing space) : Spaced [] space
  | cons {space cs rest : List Char} {k : Token} {ks : List Token} (hspace : IsSpacing space)
      (hk : Spells k cs) (hend : Ends k rest) (hks : Spaced ks rest) :
      Spaced (k :: ks) (space ++ (cs ++ rest))

theorem Spells.ne_bad {k : Token} {cs : List Char} (h : Spells k cs) : k ≠ .bad := by
  cases h with
  | sign h => rintro rfl; simp [signs] at h
  | word h => rintro rfl; simp [words] at h
  | num h => simp
  | text h => simp

theorem Spaced.bad_not_mem {ks : List Token} {cs : List Char} (h : Spaced ks cs) : .bad ∉ ks := by
  induction h with
  | nil h => simp
  | cons hspace hk hend hks ih => simp [ih, hk.ne_bad.symm]

/-- One more blank at the front. -/
theorem Spaced.space {ks : List Token} {cs : List Char} {c : Char} (hc : isSpace c = true)
    (h : Spaced ks cs) : Spaced ks (c :: cs) := by
  cases h with
  | nil h => exact .nil (List.forall_mem_cons.mpr ⟨hc, h⟩)
  | cons hspace hk hend hks =>
    exact .cons (List.forall_mem_cons.mpr ⟨hc, hspace⟩ : IsSpacing (c :: _)) hk hend hks

/-- One more token at the front, without blanks before it. -/
theorem Spaced.token {ks : List Token} {k : Token} {cs rest : List Char} (hk : Spells k cs)
    (hend : Ends k rest) (h : Spaced ks rest) : Spaced (k :: ks) (cs ++ rest) := by
  have hspace : IsSpacing [] := fun _ hc => absurd hc List.not_mem_nil
  exact .cons hspace hk hend h

theorem ends_of_mem_signs : ∀ p ∈ signs, ∀ rest, Ends p.2 rest := by
  simp [signs, Ends]

theorem ends_of_mem_words : ∀ p ∈ words, ∀ rest, Ends p.2.2 rest := by
  simp [words, Ends]

/-- A sign at the front of what is spaced. -/
theorem Spaced.sign {c : Char} {k : Token} {ks : List Token} {rest : List Char}
    (hk : (c, k) ∈ signs) (h : Spaced ks rest) : Spaced (k :: ks) (c :: rest) :=
  .token (.sign hk) (ends_of_mem_signs _ hk rest) h

/-! ## What is spelled is read -/

namespace Lexer

theorem unescape_of_mem : ∀ p ∈ ('/', '/') :: letters, ∀ g : Gathered,
    unescape g p.2 = ([], .text (g.push p.1)) := by
  simp [letters, unescape]

theorem run_space {c : Char} (h : isSpace c = true) (cs : List Char) :
    between.run (c :: cs) = between.run cs := by
  simp [run_cons, step, start, h]

theorem run_spacing {space : List Char} (h : IsSpacing space) (cs : List Char) :
    between.run (space ++ cs) = between.run cs := by
  induction space with
  | nil => rfl
  | cons c space ih =>
    obtain ⟨hc, hspace⟩ := List.forall_mem_cons.mp h
    rw [List.cons_append, run_space hc, ih hspace]

/-- **However a piece of a string is written**, it adds to what has been gathered. -/
theorem run_adds {piece : List Char} {add : Gathered → Gathered} (h : Adds piece add)
    (g : Gathered) (rest : List Char) :
    (text g).run (piece ++ rest) = (text (add g)).run rest := by
  cases h with
  | plain hquote hslash hcontrol =>
    simp [run_cons, step, hquote, hslash, Nat.not_lt.mpr hcontrol]
  | letter h => simp [run_cons, step, unescape_of_mem _ h g]
  | unit ha hb hc hd => simp [run_cons, step, unescape, ha, hb, hc, hd]

theorem run_gathers {g g' : Gathered} {cs : List Char} (h : Gathers g cs g') (rest : List Char) :
    (text g).run (cs ++ '"' :: rest) = .text g'.finish :: between.run rest := by
  induction h with
  | nil g => simp [run_cons, step]
  | cons h _ ih => rw [List.append_assoc, run_adds h, ih]

/-- A sign that stands for itself. -/
theorem run_sign {c : Char} {k : Token} (h : start c = ([k], .between)) (cs : List Char) :
    between.run (c :: cs) = k :: between.run cs := by
  rw [run_cons, step, h]
  rfl

theorem start_of_mem_signs : ∀ p ∈ signs, start p.1 = ([p.2], .between) := by decide

theorem start_of_mem_words : ∀ p ∈ words, start p.1 = ([], .word p.2.1 p.2.2) := by decide

theorem run_word {k : Token} : ∀ {left : List Char}, left ≠ [] → ∀ rest : List Char,
    (word left k).run (left ++ rest) = k :: between.run rest
  | [l], _, rest => by simp [run_cons, step]
  | l :: m :: left, _, rest => by
    have ih := run_word (k := k) (List.cons_ne_nil m left) rest
    simpa [run_cons, step] using ih

/-- **A token is read however it is written.** -/
theorem run_spells {k : Token} {cs rest : List Char} (h : Spells k cs) (hend : Ends k rest) :
    between.run (cs ++ rest) = k :: between.run rest := by
  cases h with
  | sign h => exact run_sign (start_of_mem_signs _ h) rest
  | @word c cs k h =>
    have hstart : start c = ([], .word cs k) := start_of_mem_words _ h
    have hne : cs ≠ [] := by
      rintro rfl
      simp [words] at h
    rw [List.cons_append, run_cons, step, hstart]
    exact run_word hne rest
  | num h => exact run_numeral h hend
  | @text g cs h =>
    have hopen : between.run ('"' :: (cs ++ '"' :: rest))
        = (text .empty).run (cs ++ '"' :: rest) := rfl
    rw [List.cons_append, List.append_assoc, List.singleton_append, hopen, run_gathers h]

/-- **Tokens are read however they are written and spaced.** -/
theorem run_spaced {ks : List Token} {cs : List Char} (h : Spaced ks cs) : between.run cs = ks := by
  induction h with
  | @nil space h =>
    have hrun := run_spacing h []
    rw [List.append_nil] at hrun
    exact hrun
  | cons hspace hk hend _ ih => rw [run_spacing hspace, run_spells hk hend, ih]

/-! ## What is read is spelled -/

/-- **What a character after a backslash can mean**: a code unit begins, it is a letter for a
character, or nothing. -/
theorem unescape_cases (g : Gathered) (l : Char) : unescape g l = ([], .unit g 0 0) ∧ l = 'u' ∨
    (∃ c, (c, l) ∈ ('/', '/') :: letters) ∨ unescape g l = ([.bad], .stopped) := by
  simp only [letters, List.mem_cons, Prod.mk.injEq, List.not_mem_nil, or_false]
  unfold unescape
  split <;> simp

/-- A digit of a code unit. -/
theorem exists_hexDigit {g : Gathered} {count value : Nat} {cs : List Char}
    (h : .bad ∉ (unit g count value).run cs) : ∃ c d rest, cs = c :: rest ∧
      hexDigit? c = some d ∧ (unit g count value).run cs =
        (if count = 3 then text (g.pushUnit (value * 16 + d))
          else unit g (count + 1) (value * 16 + d)).run rest := by
  cases cs with
  | nil => simp [run, finish] at h
  | cons c rest =>
    cases hc : hexDigit? c with
    | none => simp [run_cons, step, hc] at h
    | some d =>
      refine ⟨c, d, rest, rfl, hc, ?_⟩
      by_cases hcount : count = 3 <;> simp [run_cons, step, hc, hcount]

theorem exists_unit {g : Gathered} {cs : List Char} (h : .bad ∉ (unit g 0 0).run cs) :
    ∃ a b c d rest add, cs = a :: b :: c :: d :: rest ∧ Adds ['\\', 'u', a, b, c, d] add ∧
      (unit g 0 0).run cs = (text (add g)).run rest := by
  obtain ⟨a, w, cs, rfl, ha, hrun⟩ := exists_hexDigit h
  rw [hrun, if_neg (by decide)] at h ⊢
  obtain ⟨b, x, cs, rfl, hb, hrun⟩ := exists_hexDigit h
  rw [hrun, if_neg (by decide)] at h ⊢
  obtain ⟨c, y, cs, rfl, hc, hrun⟩ := exists_hexDigit h
  rw [hrun, if_neg (by decide)] at h ⊢
  obtain ⟨d, z, cs, rfl, hd, hrun⟩ := exists_hexDigit h
  exact ⟨a, b, c, d, cs, _, rfl, .unit ha hb hc hd, by simpa using hrun⟩

/-- Of a string that is not at its end a piece can be taken. -/
theorem exists_adds {g : Gathered} {c : Char} {cs : List Char} (hc : c ≠ '"')
    (h : .bad ∉ (text g).run (c :: cs)) : ∃ piece add rest, c :: cs = piece ++ rest ∧
      rest.length < (c :: cs).length ∧ Adds piece add ∧
        (text g).run (c :: cs) = (text (add g)).run rest := by
  by_cases hslash : c = '\\'
  · subst hslash
    have hescape : (text g).run ('\\' :: cs) = (escape g).run cs := rfl
    rw [hescape] at h ⊢
    cases cs with
    | nil => simp [run, finish] at h
    | cons l cs =>
      obtain ⟨-, rfl⟩ | ⟨c, hl⟩ | hnone := unescape_cases g l
      · have hunit : (escape g).run ('u' :: cs) = (unit g 0 0).run cs := rfl
        rw [hunit] at h ⊢
        obtain ⟨a, b, c, d, rest, add, rfl, hadd, hrun⟩ := exists_unit h
        exact ⟨_, add, rest, rfl, by simp only [List.length_cons]; omega, hadd, hrun⟩
      · refine ⟨['\\', l], _, cs, rfl, by simp only [List.length_cons]; omega, .letter hl, ?_⟩
        rw [run_cons, step, unescape_of_mem _ hl g]
        rfl
      · simp [run_cons, step, hnone] at h
  · have hcontrol : 0x20 ≤ c.toNat := by
      refine Nat.not_lt.mp fun hlow => ?_
      simp [run_cons, step, hc, hslash, hlow] at h
    have hplain := Adds.plain hc hslash hcontrol
    exact ⟨[c], _, cs, rfl, by simp, hplain, run_adds hplain g cs⟩

/-- **A string that is read to its end was spelled.** -/
theorem exists_gathers (g : Gathered) (cs : List Char) (h : .bad ∉ (text g).run cs) :
    ∃ body g' rest, cs = body ++ '"' :: rest ∧ Gathers g body g' ∧
      (text g).run cs = .text g'.finish :: between.run rest := by
  match cs with
  | [] => simp [run, finish] at h
  | c :: cs =>
    by_cases hc : c = '"'
    · subst hc
      exact ⟨[], g, cs, rfl, .nil g, run_gathers (.nil g) cs⟩
    · obtain ⟨piece, add, more, hmore, hshorter, hadd, hrun⟩ := exists_adds hc h
      rw [hrun] at h ⊢
      -- A piece is one, two or six characters, so the induction is on the length of the text.
      obtain ⟨body, g', rest, rfl, hbody, hrest⟩ := exists_gathers (add g) more h
      exact ⟨piece ++ body, g', rest, by simp [hmore], .cons hadd hbody, hrest⟩
termination_by cs.length
decreasing_by assumption

/-- **What a character between two tokens can begin**: nothing, a sign, a word, a string, a number
with or without its sign, or what is no token. -/
theorem start_cases (c : Char) : isSpace c = true ∨ (∃ k, (c, k) ∈ signs) ∨
    (∃ cs k, (c, cs, k) ∈ words) ∨ c = '"' ∨ c = '-' ∨ (∃ d, digit? c = some d) ∨
      start c = ([.bad], .stopped) := by
  unfold start
  split
  · next h => exact .inl h
  · split
    iterate 6 exact .inr (.inl (by simp [signs]))
    · simp
    iterate 3 exact .inr (.inr (.inl (by simp [words])))
    · simp
    · cases hdigit : digit? c with
      | some d => simp
      | none => simp [Stage.next, hdigit]

/-- A word that is read to its end was spelled. -/
theorem exists_word {k : Token} : ∀ {left : List Char}, left ≠ [] → ∀ {cs : List Char},
    .bad ∉ (word left k).run cs → ∃ rest, cs = left ++ rest
  | _ :: _, _, [], h => by simp [run, finish] at h
  | [l], _, c :: cs, h => by
    by_cases hc : c = l
    · exact ⟨cs, by simp [hc]⟩
    · simp [run_cons, step, hc] at h
  | l :: m :: left, _, c :: cs, h => by
    by_cases hc : c = l
    · subst hc
      have hrun : (word (c :: m :: left) k).run (c :: cs) = (word (m :: left) k).run cs := by
        simp [run_cons, step]
      rw [hrun] at h
      obtain ⟨rest, rfl⟩ := exists_word (List.cons_ne_nil m left) h
      exact ⟨rest, rfl⟩
    · simp [run_cons, step, hc] at h

/-- Of a text that does not start with a blank a token can be taken. -/
theorem exists_spells {c : Char} {cs : List Char} (hc : ¬isSpace c = true)
    (h : .bad ∉ between.run (c :: cs)) : ∃ k token rest, c :: cs = token ++ rest ∧ token ≠ [] ∧
      Spells k token ∧ Ends k rest := by
  obtain hspace | ⟨k, hk⟩ | ⟨left, k, hk⟩ | rfl | rfl | ⟨d, hd⟩ | hbad := start_cases c
  · exact absurd hspace hc
  · exact ⟨k, [c], cs, rfl, by simp, .sign hk, ends_of_mem_signs _ hk cs⟩
  · have hstart : start c = ([], .word left k) := start_of_mem_words _ hk
    have hne : left ≠ [] := by
      rintro rfl
      simp [words] at hk
    rw [run_cons, step, hstart] at h
    obtain ⟨rest, rfl⟩ := exists_word hne h
    exact ⟨k, c :: left, rest, rfl, by simp, .word hk, ends_of_mem_words _ hk rest⟩
  · obtain ⟨body, g, rest, rfl, hbody, -⟩ := exists_gathers .empty cs h
    exact ⟨.text g.finish, _, rest, by simp, by simp, .text hbody, trivial⟩
  · obtain ⟨n, more, rest, rfl, hn, hrest, -⟩ := exists_numeral (.sign : Begun true _ _ _) h
    exact ⟨.num n, '-' :: more, rest, rfl, by simp, .num hn, hrest⟩
  · obtain ⟨hlt, rfl⟩ := eq_digitChar_of_digit? hd
    rw [run_cons, step, start_digitChar hlt, ← run_cons] at h
    obtain ⟨n, more, rest, hmore, hn, hrest, -⟩ := exists_numeral (.sign : Begun false _ _ _) h
    exact ⟨.num n, more, rest, hmore, hn.ne_nil, .num hn, hrest⟩
  · simp [run_cons, step, hbad] at h

/-- **What is read is spelled**: a text of which nothing is bad is the tokens that it is cut into. -/
theorem spaced_run (cs : List Char) (h : .bad ∉ between.run cs) : Spaced (between.run cs) cs := by
  match cs with
  | [] => exact .nil fun _ hc => absurd hc List.not_mem_nil
  | c :: cs =>
    by_cases hc : isSpace c = true
    · rw [run_space hc] at h ⊢
      exact (spaced_run cs h).space hc
    · obtain ⟨k, token, rest, hcs, hne, hk, hend⟩ := exists_spells hc h
      have hrest : rest.length < (c :: cs).length := by
        rw [hcs, List.length_append]
        have := List.length_pos_iff.mpr hne
        omega
      rw [hcs] at h ⊢
      rw [run_spells hk hend] at h ⊢
      exact .token hk hend (spaced_run rest (List.not_mem_of_not_mem_cons h))
termination_by cs.length
decreasing_by
  · exact Nat.lt_succ_self cs.length
  · assumption

end Lexer

/-- **The lexer finds just the tokens that are spelled**, if it finds nothing bad. -/
theorem spaced_iff {ks : List Token} {cs : List Char} :
    Spaced ks cs ↔ Lexer.between.run cs = ks ∧ .bad ∉ ks := by
  constructor
  · exact fun h => ⟨Lexer.run_spaced h, h.bad_not_mem⟩
  · rintro ⟨rfl, h⟩
    exact Lexer.spaced_run cs h

end Gatekeeper.Json
