import Gatekeeper.Proofs.Json.Written

/-!
# Proofs/Json/Document — the texts that hold a tree

A text is a `Document` of a tree if it is one of the ways to write the tree's tokens, blanks between
them included.  The reader takes just these texts for the tree (`document_iff`).

That it takes them is `Build.foldl_tokens`.  That it takes no others is seen by following the
builder: each of its states says which tokens have been read (`Build.Read`), one more token leads to
a state that says so of one more (`Build.Read.step`), and a tree that has been completed is all that
was read.
-/

namespace Gatekeeper.Json

open Gatekeeper.Json.Tree (itemTokens memberTokens intact intactItems intactMembers)

/-- The text holds the tree, and the tree breaks off nowhere. -/
def Document (s : String) (t : Tree) : Prop := t.intact = true ∧ Spaced t.tokens s.toList

/-! ## Trees and their tokens -/

namespace Tree

theorem intactItems_iff : ∀ {ts : List Tree},
    intactItems ts = true ↔ ∀ t ∈ ts, t.intact = true
  | [] => by simp [intactItems]
  | t :: ts => by simp [intactItems, @intactItems_iff ts]

theorem intactMembers_iff : ∀ {ms : List (Option String × Tree)},
    intactMembers ms = true ↔ ∀ m ∈ ms, m.2.intact = true
  | [] => by simp [intactMembers]
  | m :: ms => by simp [intactMembers, @intactMembers_iff ms]

theorem itemTokens_concat (t : Tree) : ∀ ts : List Tree,
    itemTokens (ts ++ [t]) = ts.flatMap (fun t => t.tokens ++ [.comma]) ++ t.tokens
  | [] => rfl
  | [u] => by simp [itemTokens]
  | u :: v :: ts => by
    have ih := itemTokens_concat t (v :: ts)
    rw [List.cons_append] at ih
    rw [List.cons_append, List.cons_append, itemTokens, ih]
    simp

theorem memberTokens_concat (m : Option String × Tree) : ∀ ms : List (Option String × Tree),
    memberTokens (ms ++ [m]) = ms.flatMap (fun m => memberTokens [m] ++ [.comma]) ++ memberTokens [m]
  | [] => rfl
  | [n] => by simp [memberTokens]
  | n :: o :: ms => by
    have ih := memberTokens_concat m (o :: ms)
    have hcons : memberTokens (n :: o :: ms ++ [m])
        = memberTokens [n] ++ .comma :: memberTokens (o :: ms ++ [m]) := rfl
    rw [hcons, ih]
    simp

mutual

/-- No token of a tree is bad. -/
theorem bad_not_mem_tokens : ∀ t : Tree, .bad ∉ t.tokens
  | null | bool _ | num _ | text _ => by simp [tokens]
  | list items _ => by simp [tokens, bad_not_mem_itemTokens items]
  | object members _ => by simp [tokens, bad_not_mem_memberTokens members]
  | broken => by simp [tokens]

theorem bad_not_mem_itemTokens : ∀ ts : List Tree, .bad ∉ itemTokens ts
  | [] => by simp [itemTokens]
  | [t] => bad_not_mem_tokens t
  | t :: u :: ts => by
    simp [itemTokens, bad_not_mem_tokens t, bad_not_mem_itemTokens (u :: ts)]

theorem bad_not_mem_memberTokens : ∀ ms : List (Option String × Tree), .bad ∉ memberTokens ms
  | [] => by simp [memberTokens]
  | [(_, t)] => by simp [memberTokens, bad_not_mem_tokens t]
  | (_, t) :: m :: ms => by
    simp [memberTokens, bad_not_mem_tokens t, bad_not_mem_memberTokens (m :: ms)]

end

end Tree

/-! ## What the builder has read -/

namespace Build

/-- The members of an object up to the next one. -/
def beforeMember (ms : List (Option String × Tree)) : List Token :=
  ms.flatMap fun m => memberTokens [m] ++ [.comma]

/-- The tokens that have opened these frames, up to a value inside the innermost one. -/
inductive Opened : List Frame → List Token → Prop
  | nil : Opened [] []
  | list {items : List Tree} {fs : List Frame} {ks : List Token} (hfs : Opened fs ks)
      (hitems : ∀ t ∈ items, t.intact = true) :
      Opened (.list items :: fs)
        (ks ++ .openList :: items.reverse.flatMap fun t => t.tokens ++ [.comma])
  | member {members : List (Option String × Tree)} {key : Option String} {fs : List Frame}
      {ks : List Token} (hfs : Opened fs ks) (hmembers : ∀ m ∈ members, m.2.intact = true) :
      Opened (.member members key :: fs)
        (ks ++ .openObject :: (beforeMember members.reverse ++ [.text key, .colon]))

/-- **The tokens that have been read** when the builder has come to a state. -/
inductive Read : Build → List Token → Prop
  | value {fs : List Frame} {ks : List Token} (h : Opened fs ks) : Read (.going .value fs) ks
  | firstItem {fs : List Frame} {ks : List Token} (h : Opened fs ks) :
      Read (.going .firstItem (.list [] :: fs)) (ks ++ [.openList])
  | nextItem {t : Tree} {items : List Tree} {fs : List Frame} {ks : List Token}
      (h : Opened fs ks) (hitems : ∀ u ∈ t :: items, u.intact = true) :
      Read (.going .next (.list (t :: items) :: fs))
        (ks ++ .openList :: itemTokens (t :: items).reverse)
  | firstKey {fs : List Frame} {ks : List Token} (h : Opened fs ks) :
      Read (.going .firstKey (.object [] :: fs)) (ks ++ [.openObject])
  | key {members : List (Option String × Tree)} {fs : List Frame} {ks : List Token}
      (h : Opened fs ks) (hmembers : ∀ m ∈ members, m.2.intact = true) :
      Read (.going .key (.object members :: fs)) (ks ++ .openObject :: beforeMember members.reverse)
  | colon {members : List (Option String × Tree)} {key : Option String} {fs : List Frame}
      {ks : List Token} (h : Opened fs ks) (hmembers : ∀ m ∈ members, m.2.intact = true) :
      Read (.going .colon (.member members key :: fs))
        (ks ++ .openObject :: (beforeMember members.reverse ++ [.text key]))
  | nextMember {m : Option String × Tree} {members : List (Option String × Tree)}
      {fs : List Frame} {ks : List Token} (h : Opened fs ks)
      (hmembers : ∀ n ∈ m :: members, n.2.intact = true) :
      Read (.going .next (.object (m :: members) :: fs))
        (ks ++ .openObject :: memberTokens (m :: members).reverse)
  | done {t : Tree} (h : t.intact = true) : Read (.done t false) t.tokens
  | failed {t : Tree} {trailing : Bool} {ks : List Token}
      (h : t.intact = false ∨ trailing = true) : Read (.done t trailing) ks

/-- A document that breaks off is not intact. -/
theorem not_intact_cut : ∀ (fs : List Frame) {inner : Option Tree},
    (inner.getD .broken).intact = false →
      ((fs.foldl (fun inner f => some (Frame.cut inner f)) inner).getD .broken).intact = false
  | [], _, h => h
  | f :: fs, inner, _ => by
    rw [List.foldl_cons]
    refine not_intact_cut fs ?_
    cases f <;> simp [Frame.cut, intact]

theorem read_cut (fs : List Frame) (ks : List Token) : Read (cut fs) ks :=
  .failed (.inl (not_intact_cut fs rfl))

/-- A value that is complete has been read with what it stands in. -/
theorem read_complete {fs : List Frame} {ks : List Token} {t : Tree} (h : Opened fs ks)
    (ht : t.intact = true) : Read (complete t fs) (ks ++ t.tokens) := by
  cases h with
  | nil => exact .done ht
  | @list items fs ks h hitems =>
    have hread := Read.nextItem h (List.forall_mem_cons.mpr ⟨ht, hitems⟩)
    rw [List.reverse_cons, Tree.itemTokens_concat] at hread
    rw [List.append_assoc, List.cons_append]
    exact hread
  | @member members key fs ks h hmembers =>
    have hread := Read.nextMember (m := (key, t)) h (List.forall_mem_cons.mpr ⟨ht, hmembers⟩)
    rw [List.reverse_cons, Tree.memberTokens_concat] at hread
    simpa [beforeMember, memberTokens, complete] using hread

/-- A token where a value is expected. -/
theorem read_value {fs : List Frame} {ks : List Token} (h : Opened fs ks) (k : Token) :
    Read (value fs k) (ks ++ [k]) := by
  cases k with
  | null => exact read_complete (t := .null) h rfl
  | bool b => exact read_complete (t := .bool b) h rfl
  | num n => exact read_complete (t := .num n) h rfl
  | text s => exact read_complete (t := .text s) h rfl
  | openList => exact .firstItem h
  | openObject => exact .firstKey h
  | _ => exact read_cut fs _

/-- **One more token has been read** after a step. -/
theorem Read.step {b : Build} {ks : List Token} (h : Read b ks) (k : Token) :
    Read (b.step k) (ks ++ [k]) := by
  cases h with
  | value h => exact read_value h k
  | @firstItem fs ks h =>
    by_cases hk : k = .closeList
    · subst hk
      rw [List.append_assoc]
      exact read_complete (t := .list [] true) h rfl
    · have hopened : Opened (.list [] :: fs) _ :=
        .list h fun _ ht => absurd ht List.not_mem_nil
      -- What does not close the list begins its first item, as any value begins.
      rw [step_firstItem hk]
      exact read_value hopened k
  | @nextItem t items fs ks h hitems =>
    cases k with
    | comma =>
      have hopened := Opened.list h hitems
      rw [List.reverse_cons, List.flatMap_append] at hopened
      rw [List.reverse_cons, Tree.itemTokens_concat]
      change Read (.going .value _) _
      simpa using Read.value hopened
    | closeList =>
      have hlist : intact (.list (t :: items).reverse true) = true := by
        rw [intact, Bool.and_true, Tree.intactItems_iff]
        exact fun u hu => hitems u (List.mem_reverse.mp hu)
      have hread := read_complete h hlist
      rw [Tree.tokens] at hread
      rw [List.append_assoc]
      exact hread
    | _ => exact read_cut _ _
  | @firstKey fs ks h =>
    cases k with
    | closeObject =>
      rw [List.append_assoc]
      exact read_complete (t := .object [] true) h rfl
    | text key =>
      rw [List.append_assoc]
      exact .colon h fun _ hm => absurd hm List.not_mem_nil
    | _ => exact read_cut _ _
  | key h hmembers =>
    cases k with
    | text key =>
      rw [List.append_assoc]
      exact .colon h hmembers
    | _ => exact read_cut _ _
  | colon h hmembers =>
    cases k with
    | colon =>
      change Read (.going .value _) _
      simpa using Read.value (.member h hmembers)
    | _ => exact read_cut _ _
  | @nextMember m members fs ks h hmembers =>
    cases k with
    | comma =>
      have hread := Read.key h hmembers
      rw [beforeMember, List.reverse_cons, List.flatMap_append] at hread
      rw [List.reverse_cons, Tree.memberTokens_concat]
      change Read (.going .key _) _
      simpa using hread
    | closeObject =>
      have hobject : intact (.object (m :: members).reverse true) = true := by
        rw [intact, Bool.and_true, Tree.intactMembers_iff]
        exact fun n hn => hmembers n (List.mem_reverse.mp hn)
      have hread := read_complete h hobject
      rw [Tree.tokens] at hread
      rw [List.append_assoc]
      exact hread
    | _ => exact read_cut _ _
  | done h => exact .failed (.inr rfl)
  | failed h => exact .failed (.inr rfl)

theorem Read.foldl : ∀ (ks : List Token) {b : Build} {before : List Token}, Read b before →
    Read (ks.foldl Build.step b) (before ++ ks)
  | [], _, _, h => by simpa using h
  | k :: ks, _, before, h => by
    have hread := (h.step k).foldl ks
    rwa [List.append_assoc] at hread

end Build

/-- **A tree that is built whole is built of its own tokens.** -/
theorem Tree.tokens_of_ofTokens {ks : List Token} {t : Tree} (h : ofTokens ks = (t, false))
    (ht : t.intact = true) : ks = t.tokens := by
  have hread := (Build.Read.value .nil).foldl ks
  rw [List.nil_append] at hread
  rw [ofTokens] at h
  generalize hbuild : ks.foldl Build.step (.going .value []) = b at hread h
  have hcut : ∀ fs : List Frame, (Build.finish (.going .value fs)).1 ≠ t := by
    rintro fs rfl
    have hnot : (Build.finish (.going .value fs)).1.intact = false := Build.not_intact_cut fs rfl
    rw [hnot] at ht
    cases ht
  cases b with
  | going e fs => exact absurd (congrArg Prod.fst h) (hcut fs)
  | done u trailing =>
    obtain ⟨rfl, rfl⟩ := Prod.mk.inj h
    cases hread with
    | done => rfl
    | failed h => simp [ht] at h

theorem document_iff_tokens {s : String} {t : Tree} :
    Document s t ↔ t.intact = true ∧ Json.tokens s = t.tokens :=
  and_congr_right fun _ =>
    spaced_iff.trans ⟨And.left, fun h => ⟨h, t.bad_not_mem_tokens⟩⟩

instance (s : String) (t : Tree) : Decidable (Document s t) :=
  decidable_of_iff _ document_iff_tokens.symm

/-- **The reader takes for a tree just the texts that hold it.** -/
theorem document_iff {s : String} {t : Tree} :
    Document s t ↔ Tree.ofText s = (t, false) ∧ t.intact = true := by
  rw [document_iff_tokens, Tree.ofText]
  constructor
  · rintro ⟨ht, hs⟩
    rw [hs]
    exact ⟨Tree.ofTokens_tokens ht, ht⟩
  · rintro ⟨hs, ht⟩
    exact ⟨ht, Tree.tokens_of_ofTokens hs ht⟩

/-- What is written for a document holds it. -/
theorem document_render (v : Value) : Document v.render v.tree :=
  document_iff.mpr ⟨Tree.ofText_render v, v.intact_tree⟩

end Gatekeeper.Json
