import Gatekeeper.Json.Value
import Gatekeeper.Proofs.Json.Spelling

/-!
# Proofs/Json/Written — a document is read as it was written

`Value.render` writes a document, and `Tree.ofText` reads one.  Between the two stand the tokens:
what is written is one of the ways to write the tokens of the document's tree (`Value.spaced_chars`),
and out of the tokens of a tree in which nothing breaks off the tree is built again, whatever is open
around it (`Build.foldl_tokens`).  Together, the tree of what was written is the document as it is
read, with no text left over (`Tree.ofText_render`).

Strings hold the one difficulty: each character has its own way of being written, and all of them
add just that character to what has been gathered (`adds_escapeChar`).
-/

namespace Gatekeeper.Json

/-! ## Strings -/

theorem escapeChar_of_mem : ∀ p ∈ letters, escapeChar p.1 = ['\\', p.2] := by
  simp [letters, escapeChar]

theorem escapeChar_of_not_mem {c : Char} (h : c ∉ letters.map Prod.fst) : escapeChar c =
    if c.toNat < 0x20 then
      ['\\', 'u', '0', '0', Nat.digitChar (c.toNat / 16), Nat.digitChar (c.toNat % 16)]
    else [c] := by
  simp only [letters, List.map_cons, List.map_nil, List.mem_cons, List.not_mem_nil, or_false,
    not_or] at h
  simp [escapeChar, h]

theorem hexDigit?_digitChar : ∀ {n : Nat}, n < 16 → hexDigit? (Nat.digitChar n) = some n := by
  decide +kernel

/-- **However a character is written in a string**, it is the next one gathered. -/
theorem adds_escapeChar (gathered : List Char) (c : Char) : ∃ add, Adds (escapeChar c) add ∧
    add ⟨some gathered, none⟩ = ⟨some (c :: gathered), none⟩ := by
  by_cases hletter : c ∈ letters.map Prod.fst
  · obtain ⟨⟨_, l⟩, hmem, rfl⟩ := List.mem_map.mp hletter
    rw [escapeChar_of_mem _ hmem]
    exact ⟨_, .letter (List.mem_cons_of_mem _ hmem), rfl⟩
  · rw [escapeChar_of_not_mem hletter]
    split
    · next hcontrol =>
      have hcode : ((0 * 16 + 0) * 16 + c.toNat / 16) * 16 + c.toNat % 16 = c.toNat := by omega
      have hunit : Gathered.pushUnit ⟨some gathered, none⟩ c.toNat
          = ⟨some (c :: gathered), none⟩ := by
        rw [Gathered.pushUnit, if_neg (by omega), if_neg (by omega), Char.ofNat_toNat]
        rfl
      have hadds := Adds.unit (a := '0') (b := '0') (w := 0) (x := 0) rfl rfl
        (hexDigit?_digitChar (show c.toNat / 16 < 16 by omega))
        (hexDigit?_digitChar (show c.toNat % 16 < 16 by omega))
      rw [hcode] at hadds
      exact ⟨_, hadds, hunit⟩
    · next hcontrol =>
      have hquote : c ≠ '"' ∧ c ≠ '\\' := by
        constructor <;> rintro rfl <;> exact hletter (by decide)
      exact ⟨_, .plain hquote.1 hquote.2 (Nat.le_of_not_lt hcontrol), rfl⟩

theorem gathers_flatMap_escapeChar : ∀ cs gathered : List Char,
    Gathers ⟨some gathered, none⟩ (cs.flatMap escapeChar) ⟨some (cs.reverse ++ gathered), none⟩
  | [], _ => .nil _
  | c :: cs, gathered => by
    obtain ⟨add, hadds, hadd⟩ := adds_escapeChar gathered c
    have hrest := gathers_flatMap_escapeChar cs (c :: gathered)
    rw [← hadd] at hrest
    rw [List.flatMap_cons, List.reverse_cons, List.append_assoc]
    exact .cons hadds hrest

/-- **What is written for a text is a string**, and the text is what it says. -/
theorem spells_renderText (s : String) : Spells (.text (some s)) (renderText s) := by
  have hgathers := gathers_flatMap_escapeChar s.toList []
  have hfinish : Gathered.finish ⟨some (s.toList.reverse ++ []), none⟩ = some s := by
    simp [Gathered.finish]
  have hspells := Spells.text hgathers
  rwa [hfinish] at hspells

/-! ## Tokens -/

namespace Tree

mutual

/-- The tokens of a tree. -/
def tokens : Tree → List Token
  | null => [.null]
  | bool b => [.bool b]
  | num n => [.num n]
  | text s => [.text s]
  | list items _ => .openList :: itemTokens items ++ [.closeList]
  | object members _ => .openObject :: memberTokens members ++ [.closeObject]
  | broken => []

/-- The tokens of the items of a list, with commas between them. -/
def itemTokens : List Tree → List Token
  | [] => []
  | [t] => t.tokens
  | t :: u :: ts => t.tokens ++ .comma :: itemTokens (u :: ts)

/-- The tokens of the members of an object, with commas between them. -/
def memberTokens : List (Option String × Tree) → List Token
  | [] => []
  | [(k, t)] => .text k :: .colon :: t.tokens
  | (k, t) :: m :: ms => .text k :: .colon :: t.tokens ++ .comma :: memberTokens (m :: ms)

end

end Tree

mutual

/-- **What is written for a document** are the tokens of its tree. -/
theorem Value.spaced_chars {ks : List Token} {rest : List Char} (h : Spaced ks rest) :
    ∀ v : Value, Spaced (v.tree.tokens ++ ks) (v.chars ++ rest)
  | .text s => .token (spells_renderText s) trivial h
  | .list items => by
    have hclose : Spaced (.closeList :: ks) (']' :: rest) := .sign (by decide) h
    simpa [chars, tree, Tree.tokens] using
      Spaced.sign (c := '[') (by decide) (spaced_itemChars hclose items)
  | .object members => by
    have hclose : Spaced (.closeObject :: ks) ('\x7d' :: rest) := .sign (by decide) h
    simpa [chars, tree, Tree.tokens] using
      Spaced.sign (c := '\x7b') (by decide) (spaced_memberChars hclose members)

theorem Value.spaced_itemChars {ks : List Token} {rest : List Char} (h : Spaced ks rest) :
    ∀ vs : List Value, Spaced (Tree.itemTokens (itemTrees vs) ++ ks) (itemChars vs ++ rest)
  | [] => h
  | [v] => spaced_chars h v
  | v :: w :: vs => by
    have hitems := Spaced.sign (c := ',') (k := .comma) (by decide) (spaced_itemChars h (w :: vs))
    simpa [itemChars, itemTrees, Tree.itemTokens] using spaced_chars hitems v

theorem Value.spaced_memberChars {ks : List Token} {rest : List Char} (h : Spaced ks rest) :
    ∀ ms : List (String × Value),
      Spaced (Tree.memberTokens (memberTrees ms) ++ ks) (memberChars ms ++ rest)
  | [] => h
  | [(k, v)] => by
    have hvalue := Spaced.sign (c := ':') (k := .colon) (by decide) (spaced_chars h v)
    simpa [memberChars, memberTrees, Tree.memberTokens] using
      Spaced.token (spells_renderText k) trivial hvalue
  | (k, v) :: (l, w) :: ms => by
    have hmembers := Spaced.sign (c := ',') (k := .comma) (by decide)
      (spaced_memberChars h ((l, w) :: ms))
    have hvalue := Spaced.sign (c := ':') (k := .colon) (by decide) (spaced_chars hmembers v)
    simpa [memberChars, memberTrees, Tree.memberTokens] using
      Spaced.token (spells_renderText k) trivial hvalue

end

/-! ## Trees -/

/-- A tree in which nothing breaks off has a first token, and it closes nothing. -/
theorem Tree.exists_tokens_eq_cons {t : Tree} (h : t.intact = true) :
    ∃ k ks, t.tokens = k :: ks ∧ k ≠ .closeList := by
  cases t with
  | broken => cases h
  | _ => exact ⟨_, _, rfl, by simp⟩

namespace Build

open Gatekeeper.Json.Tree (itemTokens memberTokens intact intactItems intactMembers)

/-- In a list that has just been opened, what is no closing bracket is a value. -/
theorem step_firstItem {k : Token} (h : k ≠ .closeList) (fs : List Frame) :
    step (.going .firstItem (.list [] :: fs)) k = step (.going .value (.list [] :: fs)) k := by
  cases k <;> first | rfl | exact absurd rfl h

theorem foldl_firstItem {t : Tree} (h : t.intact = true) (ts : List Tree) (fs : List Frame) :
    (itemTokens (t :: ts)).foldl step (.going .firstItem (.list [] :: fs))
      = (itemTokens (t :: ts)).foldl step (.going .value (.list [] :: fs)) := by
  obtain ⟨k, ks, htokens, hk⟩ := Tree.exists_tokens_eq_cons h
  cases ts with
  | nil => rw [itemTokens, htokens, List.foldl_cons, List.foldl_cons, step_firstItem hk]
  | cons u ts =>
    rw [itemTokens, htokens, List.cons_append, List.foldl_cons, List.foldl_cons, step_firstItem hk]

theorem foldl_firstKey (m : Option String × Tree) (ms : List (Option String × Tree))
    (fs : List Frame) : (memberTokens (m :: ms)).foldl step (.going .firstKey (.object [] :: fs))
      = (memberTokens (m :: ms)).foldl step (.going .key (.object [] :: fs)) := by
  cases ms <;> rfl

mutual

/-- **Out of the tokens of a tree the tree is built again**, whatever is open around it. -/
theorem foldl_tokens : ∀ (t : Tree) (fs : List Frame), t.intact = true →
    t.tokens.foldl step (.going .value fs) = complete t fs
  | .null, _, _ => rfl
  | .bool _, _, _ => rfl
  | .num _, _, _ => rfl
  | .text _, _, _ => rfl
  | .list [] true, _, _ => rfl
  | .object [] true, _, _ => rfl
  | .list (t :: ts) true, fs, h => by
    have hitems : intactItems (t :: ts) = true := by simpa [intact] using h
    have ht : t.intact = true := (Bool.and_eq_true_iff.mp hitems).1
    have hopen : step (.going .value fs) .openList = .going .firstItem (.list [] :: fs) := rfl
    have hclose : step (.going .next (.list ((t :: ts).reverse ++ []) :: fs)) .closeList
        = complete (.list (t :: ts) true) fs := by
      simp [step]
    rw [Tree.tokens, List.cons_append, List.foldl_cons, hopen, List.foldl_append,
      foldl_firstItem ht, foldl_itemTokens _ _ _ hitems (List.cons_ne_nil t ts)]
    exact hclose
  | .object (m :: ms) true, fs, h => by
    have hmembers : intactMembers (m :: ms) = true := by simpa [intact] using h
    have hopen : step (.going .value fs) .openObject = .going .firstKey (.object [] :: fs) := rfl
    have hclose : step (.going .next (.object ((m :: ms).reverse ++ []) :: fs)) .closeObject
        = complete (.object (m :: ms) true) fs := by
      simp [step]
    rw [Tree.tokens, List.cons_append, List.foldl_cons, hopen, List.foldl_append, foldl_firstKey,
      foldl_memberTokens _ _ _ hmembers (List.cons_ne_nil m ms)]
    exact hclose
  | .list _ false, _, h => by simp [intact] at h
  | .object _ false, _, h => by simp [intact] at h
  | .broken, _, h => by cases h

/-- The items of a list join those that are there already. -/
theorem foldl_itemTokens : ∀ (ts items : List Tree) (fs : List Frame), intactItems ts = true →
    ts ≠ [] → (itemTokens ts).foldl step (.going .value (.list items :: fs))
      = .going .next (.list (ts.reverse ++ items) :: fs)
  | [], _, _, _, hne => absurd rfl hne
  | [t], items, fs, h, _ => foldl_tokens t _ (Bool.and_eq_true_iff.mp h).1
  | t :: u :: ts, items, fs, h, _ => by
    obtain ⟨ht, hts⟩ := Bool.and_eq_true_iff.mp h
    have hcomma : step (complete t (.list items :: fs)) .comma
        = .going .value (.list (t :: items) :: fs) := rfl
    have hreverse : (t :: u :: ts).reverse = (u :: ts).reverse ++ [t] := List.reverse_cons
    rw [itemTokens, List.foldl_append, foldl_tokens t _ ht, List.foldl_cons, hcomma,
      foldl_itemTokens _ _ _ hts (List.cons_ne_nil u ts), hreverse, List.append_assoc]
    rfl

/-- The members of an object join those that are there already. -/
theorem foldl_memberTokens : ∀ (ms members : List (Option String × Tree)) (fs : List Frame),
    intactMembers ms = true → ms ≠ [] →
      (memberTokens ms).foldl step (.going .key (.object members :: fs))
        = .going .next (.object (ms.reverse ++ members) :: fs)
  | [], _, _, _, hne => absurd rfl hne
  | [(k, t)], members, fs, h, _ => foldl_tokens t _ (Bool.and_eq_true_iff.mp h).1
  | (k, t) :: m :: ms, members, fs, h, _ => by
    obtain ⟨ht, hms⟩ := Bool.and_eq_true_iff.mp h
    have hkey : ∀ rest : List Token, (Token.text k :: .colon :: rest).foldl step
        (.going .key (.object members :: fs))
          = rest.foldl step (.going .value (.member members k :: fs)) := fun _ => rfl
    have hcomma : step (complete t (.member members k :: fs)) .comma
        = .going .key (.object ((k, t) :: members) :: fs) := rfl
    have hreverse : ((k, t) :: m :: ms).reverse = (m :: ms).reverse ++ [(k, t)] :=
      List.reverse_cons
    rw [memberTokens, List.cons_append, List.cons_append, hkey, List.foldl_append,
      foldl_tokens t _ ht, List.foldl_cons, hcomma,
      foldl_memberTokens _ _ _ hms (List.cons_ne_nil m ms), hreverse, List.append_assoc]
    rfl

end

end Build

/-! ## Documents -/

mutual

/-- Nothing breaks off in a document that was written. -/
theorem Value.intact_tree : ∀ v : Value, v.tree.intact = true
  | .text _ => rfl
  | .list items => by
    rw [tree, Tree.intact, intactItems_itemTrees items]
    rfl
  | .object members => by
    rw [tree, Tree.intact, intactMembers_memberTrees members]
    rfl

theorem Value.intactItems_itemTrees : ∀ vs : List Value,
    Tree.intactItems (itemTrees vs) = true
  | [] => rfl
  | v :: vs => by
    rw [itemTrees, Tree.intactItems, intact_tree v, intactItems_itemTrees vs]
    rfl

theorem Value.intactMembers_memberTrees : ∀ ms : List (String × Value),
    Tree.intactMembers (memberTrees ms) = true
  | [] => rfl
  | (k, v) :: ms => by
    rw [memberTrees, Tree.intactMembers, intact_tree v, intactMembers_memberTrees ms]
    rfl

end

/-- The tokens of a tree in which nothing breaks off make just this tree. -/
theorem Tree.ofTokens_tokens {t : Tree} (h : t.intact = true) : ofTokens t.tokens = (t, false) := by
  rw [ofTokens, Build.foldl_tokens t [] h]
  rfl

theorem tokens_render (v : Value) : Json.tokens v.render = v.tree.tokens := by
  have hspaced := v.spaced_chars (.nil fun _ hc => absurd hc List.not_mem_nil : Spaced [] [])
  rw [List.append_nil, List.append_nil] at hspaced
  rw [Json.tokens, Value.render, String.toList_ofList]
  exact Lexer.run_spaced hspaced

/-- **A document is read as it was written**, and no text is left over. -/
theorem Tree.ofText_render (v : Value) : ofText v.render = (v.tree, false) := by
  rw [ofText, tokens_render, ofTokens_tokens v.intact_tree]

end Gatekeeper.Json
