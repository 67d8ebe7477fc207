import Gatekeeper.Json.Reader
import Gatekeeper.Proofs.Json.Document
import Gatekeeper.Proofs.Outcome

/-!
# Proofs/Json/Members — an object is read by the names of its members

A structure is read from an object one member after another.  If each of its fields reads a value
whole and keeps it apart from the others (`Schema.Lawful`), neighbours may change places
(`Schema.Lawful.member_swap`), so the order of the members makes no difference
(`Schema.Lawful.members_perm`), and unless the schema is strict, members with other names make none
either (`Schema.members_foreign`).  What is read depends on the members by name alone
(`Schema.Lawful.readByName`), and a strict schema takes no others (`Schema.Lawful.read_unknown`).

What is read out of a text is read out of the one tree that the text holds: a reader that reads
whole accepts nothing but documents (`Reader.Whole.exists_document`).
-/

namespace Gatekeeper.Json

open Gatekeeper.Json.Tree (intactItems intactMembers)

variable {α β δ : Type}

/-! ## Texts that are read -/

theorem decode_eq_ok_iff {reader : Reader α} {s : String} {a : α} : decode reader s = .ok a ↔
    reader (Tree.ofText s).1 = .ok a ∧ (Tree.ofText s).2 = false := by
  rw [decode, bind_eq_ok_iff]
  constructor
  · rintro ⟨b, hb, h⟩
    split at h
    · cases h
    · next hrest =>
      cases h
      exact ⟨hb, by simpa using hrest⟩
  · rintro ⟨ha, hrest⟩
    exact ⟨a, ha, by rw [hrest]; rfl⟩

/-- A text is read as the tree that it holds. -/
theorem decode_of_document {s : String} {t : Tree} (h : Document s t) (reader : Reader α) :
    decode reader s = reader t := by
  rw [decode, (document_iff.mp h).1]
  cases reader t <;> rfl

namespace Reader

/-- A reader that takes a value only out of a tree in which nothing breaks off. -/
def Whole (reader : Reader α) : Prop := ∀ ⦃t a⦄, reader t = .ok a → t.intact = true

/-- **What is read whole is read out of a document.** -/
theorem Whole.exists_document {reader : Reader α} (h : reader.Whole) {s : String} {a : α}
    (hs : decode reader s = .ok a) : ∃ t, Document s t ∧ reader t = .ok a := by
  obtain ⟨ha, hrest⟩ := decode_eq_ok_iff.mp hs
  exact ⟨_, document_iff.mpr ⟨Prod.ext rfl hrest, h ha⟩, ha⟩

theorem whenClosed_eq_ok_iff {closed : Bool} {a b : α} :
    whenClosed closed a = .ok b ↔ closed = true ∧ a = b := by
  cases closed <;> simp [whenClosed]

theorem whole_text : text.Whole
  | .text (some _), _, _ => rfl
  | .text none, _, h => by cases h
  | .null, _, h => by cases h
  | .bool _, _, h => by cases h
  | .num _, _, h => by cases h
  | .list _ _, _, h => by cases h
  | .object _ _, _, h => by cases h
  | .broken, _, h => by cases h

theorem Whole.optional {value : Reader α} (h : value.Whole) : (Reader.optional value).Whole := by
  intro t a ha
  cases t with
  | null => rfl
  | _ =>
    obtain ⟨b, hb, -⟩ := map_eq_ok_iff.mp ha
    exact h hb

theorem Whole.intactItems {item : Reader α} (h : item.Whole) : ∀ {ts : List Tree} {as : List α},
    ts.mapM item = .ok as → Tree.intactItems ts = true
  | [], _, _ => rfl
  | t :: ts, _, has => by
    rw [List.mapM_cons, bind_eq_ok_iff] at has
    obtain ⟨a, ha, has⟩ := has
    obtain ⟨as, has, -⟩ := bind_eq_ok_iff.mp has
    rw [Tree.intactItems, h ha, h.intactItems has]
    rfl

theorem Whole.list {item : Reader α} (h : item.Whole) : (Reader.list item).Whole := by
  intro t as has
  cases t with
  | list items closed =>
    obtain ⟨bs, hbs, hclosed⟩ := bind_eq_ok_iff.mp has
    rw [Tree.intact, h.intactItems hbs, (whenClosed_eq_ok_iff.mp hclosed).1]
    rfl
  | _ => cases has

theorem Whole.intactMembers {value : Reader α} (h : value.Whole) :
    ∀ {ms : List (Option String × Tree)} {m m' : Std.ExtTreeMap String α},
      mapMembers value m ms = .ok m' → Tree.intactMembers ms = true
  | [], _, _, _ => rfl
  | (none, _) :: _, _, _, hms => by cases hms
  | (some _, t) :: ms, _, _, hms => by
    obtain ⟨a, ha, hms⟩ := bind_eq_ok_iff.mp hms
    rw [Tree.intactMembers, h ha, h.intactMembers hms]
    rfl

theorem Whole.map {value : Reader α} (h : value.Whole) : (Reader.map value).Whole := by
  intro t m hm
  cases t with
  | object members closed =>
    obtain ⟨m', hm', hclosed⟩ := bind_eq_ok_iff.mp hm
    rw [Tree.intact, h.intactMembers hm', (whenClosed_eq_ok_iff.mp hclosed).1]
    rfl
  | _ => cases hm

end Reader

/-! ## Structures -/

namespace Schema

variable {s : Schema δ} {m n : String} {t u : Tree} {d d' e : δ}

/-- The names of the members. -/
def names (s : Schema δ) : List String := s.fields.map (·.name)

/-- A schema whose fields read their values whole and do not get in each other's way. -/
structure Lawful (s : Schema δ) : Prop where
  /-- A field reads its value whole, and then it is there. -/
  reads : ∀ f ∈ s.fields, ∀ ⦃t d e⦄, f.fill t d = .ok e → t.intact = true ∧ f.present e = true
  /-- Of two fields each stays as it was when the other is read, and either may be read first. -/
  apart : ∀ f ∈ s.fields, ∀ g ∈ s.fields, f.name ≠ g.name → ∀ ⦃t d d'⦄, f.fill t d = .ok d' →
    g.present d' = g.present d ∧
      ∀ ⦃u e⦄, g.fill u d' = .ok e → ∃ c, g.fill u d = .ok c ∧ f.fill t c = .ok e

/-- Fields that keep what they read in places of their own are apart. -/
theorem apart_of_keeps {f g : Field δ} {read : Reader α} {read' : Reader β} {keep : α → δ → δ}
    {keep' : β → δ → δ} (hf : ∀ t d, f.fill t d = read t >>= fun a => .ok (keep a d))
    (hg : ∀ t d, g.fill t d = read' t >>= fun b => .ok (keep' b d))
    (hpresent : ∀ a d, g.present (keep a d) = g.present d)
    (hcomm : ∀ a b d, keep' b (keep a d) = keep a (keep' b d)) (h : f.fill t d = .ok d') :
    g.present d' = g.present d ∧
      ∀ ⦃u e⦄, g.fill u d' = .ok e → ∃ c, g.fill u d = .ok c ∧ f.fill t c = .ok e := by
  rw [hf, bind_eq_ok_iff] at h
  obtain ⟨a, ha, hd⟩ := h
  cases hd
  refine ⟨hpresent a d, fun u e h => ?_⟩
  rw [hg, bind_eq_ok_iff] at h
  obtain ⟨b, hb, he⟩ := h
  cases he
  refine ⟨keep' b d, ?_, ?_⟩
  · rw [hg, hb]
    rfl
  · rw [hf, ha, hcomm]
    rfl

theorem find?_eq_none_iff : s.fields.find? (fun f => f.name == m) = none ↔ m ∉ s.names := by
  simp [names]

/-- **How a member is read**: by the field of its name, for the first time, or it is skipped. -/
theorem member_eq_ok_iff : s.member m t d = .ok e ↔
    (∃ f, s.fields.find? (fun f => f.name == m) = some f ∧ f.present d = false ∧
      f.fill t d = .ok e) ∨
    (m ∉ s.names ∧ s.strict = false ∧ t.intact = true ∧ d = e) := by
  rw [member, ← find?_eq_none_iff]
  cases s.fields.find? fun f => f.name == m with
  | some f => cases hpresent : f.present d <;> simp [hpresent]
  | none =>
    cases s.strict <;>
      simp [bind_eq_ok_iff, Reader.ignored, Reader.whenClosed_eq_ok_iff]

theorem members_cons_eq_ok_iff {x : Option String × Tree} {xs : List (Option String × Tree)} :
    s.members (x :: xs) d = .ok e ↔
      ∃ m d', x.1 = some m ∧ s.member m x.2 d = .ok d' ∧ s.members xs d' = .ok e := by
  obtain ⟨_ | m, t⟩ := x
  · simp [members]
  · simp [members, bind_eq_ok_iff]

/-- **Two members that stand next to each other may change places.** -/
theorem Lawful.member_swap (hs : s.Lawful) (hm : s.member m t d = .ok d')
    (hn : s.member n u d' = .ok e) : ∃ c, s.member n u d = .ok c ∧ s.member m t c = .ok e := by
  obtain ⟨f, hf, hfd, hfill⟩ | ⟨hm', hstrict, ht, rfl⟩ := member_eq_ok_iff.mp hm
  · have hfmem := List.mem_of_find?_eq_some hf
    have hfname : f.name = m := by simpa using List.find?_some hf
    obtain ⟨g, hg, hgd, hgfill⟩ | ⟨hn', hstrict, hu, rfl⟩ := member_eq_ok_iff.mp hn
    · have hgmem := List.mem_of_find?_eq_some hg
      have hgname : g.name = n := by simpa using List.find?_some hg
      -- Had they one name, they would be one field, and a field that is there is not read again.
      have hne : f.name ≠ g.name := by
        intro heq
        rw [← hfname, heq, hgname, hg] at hf
        obtain rfl := Option.some.inj hf
        rw [(hs.reads g hgmem hfill).2] at hgd
        cases hgd
      obtain ⟨hgd', hswap⟩ := hs.apart f hfmem g hgmem hne hfill
      obtain ⟨c, hc, hcfill⟩ := hswap hgfill
      obtain ⟨hfc, -⟩ := hs.apart g hgmem f hfmem hne.symm hc
      exact ⟨c, member_eq_ok_iff.mpr (.inl ⟨g, hg, hgd' ▸ hgd, hc⟩),
        member_eq_ok_iff.mpr (.inl ⟨f, hf, hfc.trans hfd, hcfill⟩)⟩
    · exact ⟨d, member_eq_ok_iff.mpr (.inr ⟨hn', hstrict, hu, rfl⟩), hm⟩
  · obtain ⟨g, hg, hgd, hgfill⟩ | ⟨hn', -, hu, rfl⟩ := member_eq_ok_iff.mp hn
    · exact ⟨e, hn, member_eq_ok_iff.mpr (.inr ⟨hm', hstrict, ht, rfl⟩)⟩
    · exact ⟨d, hn, hm⟩

/-- **The order of the members makes no difference.** -/
theorem Lawful.members_perm (hs : s.Lawful) {xs ys : List (Option String × Tree)}
    (h : xs.Perm ys) : ∀ {d e : δ}, s.members xs d = .ok e → s.members ys d = .ok e := by
  induction h with
  | nil => exact fun h => h
  | cons x _ ih =>
    intro d e hx
    obtain ⟨m, d', hname, hm, hxs⟩ := members_cons_eq_ok_iff.mp hx
    exact members_cons_eq_ok_iff.mpr ⟨m, d', hname, hm, ih hxs⟩
  | swap x y xs =>
    intro d e hyx
    obtain ⟨n, d', hy, hn, hx⟩ := members_cons_eq_ok_iff.mp hyx
    obtain ⟨m, d'', hx, hm, hxs⟩ := members_cons_eq_ok_iff.mp hx
    obtain ⟨c, hc, hc'⟩ := hs.member_swap hn hm
    exact members_cons_eq_ok_iff.mpr
      ⟨m, c, hx, hc, members_cons_eq_ok_iff.mpr ⟨n, d'', hy, hc', hxs⟩⟩
  | trans _ _ ih₁ ih₂ => exact fun h => ih₂ (ih₁ h)

/-- A member whose name is none of these. -/
def Foreign (names : List String) (x : Option String × Tree) : Prop :=
  ∃ m, m ∉ names ∧ x.1 = some m

/-- **Members with other names make no difference** either, unless the schema is strict. -/
theorem members_foreign (hstrict : s.strict = false) {extras : List (Option String × Tree)}
    (hforeign : ∀ x ∈ extras, Foreign s.names x) (hwhole : ∀ x ∈ extras, x.2.intact = true)
    (xs : List (Option String × Tree)) (d : δ) : s.members (extras ++ xs) d = s.members xs d := by
  induction extras with
  | nil => rfl
  | cons x extras ih =>
    obtain ⟨hx, hextras⟩ := List.forall_mem_cons.mp hforeign
    obtain ⟨ht, hintact⟩ := List.forall_mem_cons.mp hwhole
    obtain ⟨_, t⟩ := x
    obtain ⟨m, hm, rfl⟩ := hx
    have hskip : s.member m t d = .ok d := member_eq_ok_iff.mpr (.inr ⟨hm, hstrict, ht, rfl⟩)
    rw [List.cons_append, members, hskip]
    exact ih hextras hintact

/-- **A strict schema refuses a member with another name** when it comes to it. -/
theorem members_unknown (hstrict : s.strict = true) (hm : m ∉ s.names) :
    ∀ {before : List (Option String × Tree)} {d : δ} (after : List (Option String × Tree)),
      s.members before d = .ok e →
        s.members (before ++ (some m, t) :: after) d = .error (.unknown m s.names)
  | [], d, after, _ => by
    rw [List.nil_append, members, member, find?_eq_none_iff.mpr hm]
    simp [hstrict, bind, Except.bind, names]
  | x :: before, d, after, h => by
    obtain ⟨n, d', hx, hn, hbefore⟩ := members_cons_eq_ok_iff.mp h
    obtain ⟨_, u⟩ := x
    obtain rfl : _ = some n := hx
    rw [List.cons_append, members, hn]
    exact members_unknown hstrict hm after hbefore

theorem members_append {xs ys : List (Option String × Tree)} :
    s.members (xs ++ ys) d = .ok e ↔
      ∃ d', s.members xs d = .ok d' ∧ s.members ys d' = .ok e := by
  induction xs generalizing d with
  | nil => simp [members]
  | cons x xs ih =>
    simp only [List.cons_append, members_cons_eq_ok_iff, ih]
    constructor
    · rintro ⟨m, c, hx, hm, d', hxs, hys⟩
      exact ⟨d', ⟨m, c, hx, hm, hxs⟩, hys⟩
    · rintro ⟨d', ⟨m, c, hx, hm, hxs⟩, hys⟩
      exact ⟨m, c, hx, hm, d', hxs, hys⟩

/-! ## Whole structures -/

theorem check_eq_ok_iff : s.check d = .ok e ↔
    d = e ∧ s.fields.find? (fun f => f.required && !f.present e) = none := by
  rw [check]
  split
  · next f hf =>
    simp only [reduceCtorEq, false_iff, not_and]
    rintro rfl
    simp [hf]
  · next hf =>
    constructor
    · intro h
      cases h
      exact ⟨rfl, hf⟩
    · rintro ⟨rfl, -⟩
      rfl

/-- **How an object is read**: by its members, unless one is missing. -/
theorem read_object_eq_ok_iff {ms : List (Option String × Tree)} {closed : Bool} :
    s.read d (.object ms closed) = .ok e ↔ closed = true ∧ s.members ms d = .ok e ∧
      s.fields.find? (fun f => f.required && !f.present e) = none := by
  simp only [read, bind_eq_ok_iff, Reader.whenClosed_eq_ok_iff, check_eq_ok_iff]
  constructor
  · rintro ⟨_, hms, _, ⟨hclosed, rfl⟩, rfl, h⟩
    exact ⟨hclosed, hms, h⟩
  · rintro ⟨hclosed, hms, h⟩
    exact ⟨e, hms, e, ⟨hclosed, rfl⟩, rfl, h⟩

theorem Lawful.intactMembers (hs : s.Lawful) : ∀ {ms : List (Option String × Tree)} {d e : δ},
    s.members ms d = .ok e → intactMembers ms = true
  | [], _, _, _ => rfl
  | (_, t) :: ms, d, e, h => by
    obtain ⟨m, d', -, hm, hms⟩ := members_cons_eq_ok_iff.mp h
    have ht : t.intact = true := by
      obtain ⟨f, hf, -, hfill⟩ | ⟨-, -, ht, -⟩ := member_eq_ok_iff.mp hm
      · exact (hs.reads f (List.mem_of_find?_eq_some hf) hfill).1
      · exact ht
    rw [Tree.intactMembers, ht, hs.intactMembers hms]
    rfl

theorem Lawful.intactItems (hs : s.Lawful) {closed : Bool} : ∀ {fs : List (Field δ)}
    {ts : List Tree} {count : Nat} {d e : δ}, (∀ f ∈ fs, f ∈ s.fields) →
      s.elements closed count fs ts d = .ok e → intactItems ts = true ∧ closed = true
  | [], [], _, _, _, _, h => ⟨rfl, (Reader.whenClosed_eq_ok_iff.mp h).1⟩
  | [], _ :: _, _, _, _, _, h => by cases h
  | f :: fs, [], _, _, _, _, h => by
    obtain ⟨_, h, -⟩ := bind_eq_ok_iff.mp h
    exact ⟨rfl, (Reader.whenClosed_eq_ok_iff.mp h).1⟩
  | f :: fs, t :: ts, _, _, _, hfs, h => by
    obtain ⟨hf, hfs⟩ := List.forall_mem_cons.mp hfs
    obtain ⟨d', hfill, h⟩ := bind_eq_ok_iff.mp h
    obtain ⟨hts, hclosed⟩ := hs.intactItems hfs h
    rw [Tree.intactItems, (hs.reads f hf hfill).1, hts]
    exact ⟨rfl, hclosed⟩

/-- Where a list of values ends, nothing more is read. -/
theorem eq_of_elements_nil {closed : Bool} : ∀ {fs : List (Field δ)} {count : Nat},
    s.elements closed count fs [] d = .ok e → d = e
  | [], _, h => (Reader.whenClosed_eq_ok_iff.mp h).2
  | f :: fs, _, h => by
    obtain ⟨_, -, h⟩ := bind_eq_ok_iff.mp h
    split at h
    · cases h
    · exact eq_of_elements_nil h

/-- A structure is read whole. -/
theorem Lawful.whole_read (hs : s.Lawful) (blank : δ) : Reader.Whole (s.read blank) := by
  intro t d h
  cases t with
  | object ms closed =>
    obtain ⟨hclosed, hms, -⟩ := read_object_eq_ok_iff.mp h
    rw [Tree.intact, hs.intactMembers hms, hclosed]
    rfl
  | list items closed =>
    obtain ⟨hitems, hclosed⟩ := hs.intactItems (fun _ hf => hf) h
    rw [Tree.intact, hitems, hclosed]
    rfl
  | _ => cases h

end Schema

/-! ## Documents that differ in their members -/

/-- A text whose first character, blanks aside, opens an object. -/
def OpensObject (s : String) : Prop :=
  ∃ space rest, s.toList = space ++ '\x7b' :: rest ∧ IsSpacing space

/-- What opens an object holds one, if it holds anything. -/
theorem OpensObject.exists_members {s : String} {t : Tree} (hs : OpensObject s)
    (h : Document s t) : ∃ ms, t = .object ms true := by
  obtain ⟨space, rest, hchars, hspace⟩ := hs
  have htokens : t.tokens = .openObject :: Lexer.between.run rest := by
    rw [← Lexer.run_spaced h.2, hchars, Lexer.run_spacing hspace]
    rfl
  cases t with
  | object ms closed =>
    have hclosed := (Bool.and_eq_true_iff.mp h.1).2
    exact ⟨ms, by rw [hclosed]⟩
  | _ => simp [Tree.tokens] at htokens

/-- The same members in another order, and among them others whose names are none of these. -/
def Rearranged (names : List String) (ms ms' : List (Option String × Tree)) : Prop :=
  ∃ extras, ms'.Perm (extras ++ ms) ∧ ∀ x ∈ extras, Schema.Foreign names x

/-- **Objects are read by the names of their members alone.**  Every text that opens an object and
is accepted holds an object; and of two texts whose objects have the same members by these names, in
whatever order, among whatever other members, and with whatever blanks, both are read alike. -/
structure ReadByName {ε : Type} (names : List String) (read : String → Except ε α) : Prop where
  /-- Accepted texts hold objects. -/
  holds : ∀ {text a}, read text = .ok a → OpensObject text →
    ∃ ms, Document text (.object ms true)
  /-- Nothing but the members with these names counts. -/
  alike : ∀ {text text' ms ms'}, Document text (.object ms true) →
    Document text' (.object ms' true) → Rearranged names ms ms' →
      ∀ a, read text = .ok a ↔ read text' = .ok a

namespace Schema.Lawful

variable {s : Schema δ} {m : String} {d e : δ}

theorem read_perm (hs : s.Lawful) {ms ms' : List (Option String × Tree)} (h : ms.Perm ms') :
    s.read d (.object ms true) = .ok e ↔ s.read d (.object ms' true) = .ok e := by
  rw [read_object_eq_ok_iff, read_object_eq_ok_iff]
  have hms : s.members ms d = .ok e ↔ s.members ms' d = .ok e :=
    ⟨hs.members_perm h, hs.members_perm h.symm⟩
  rw [hms]

/-- **A strict structure takes no other member**, wherever it stands. -/
theorem read_unknown (hs : s.Lawful) (hstrict : s.strict = true)
    {ms before after : List (Option String × Tree)} (h : s.read d (.object ms true) = .ok e)
    (hms : (before ++ after).Perm ms) (hm : m ∉ s.names) (t : Tree) :
    s.read d (.object (before ++ (some m, t) :: after) true) = .error (.unknown m s.names) := by
  obtain ⟨-, hmembers, -⟩ := read_object_eq_ok_iff.mp ((hs.read_perm hms).mpr h)
  obtain ⟨d', hbefore, -⟩ := members_append.mp hmembers
  rw [read, members_unknown hstrict hm after hbefore]
  rfl

/-- **A structure is read by the names of its members**, unless its schema is strict. -/
theorem readByName (hs : s.Lawful) (hstrict : s.strict = false) (blank : δ) (f : δ → α) :
    ReadByName s.names (decode fun t => f <$> s.read blank t) where
  holds {text a} h hopens := by
    have hwhole : Reader.Whole fun t => f <$> s.read blank t := by
      intro t a h
      obtain ⟨d, hd, -⟩ := map_eq_ok_iff.mp h
      exact hs.whole_read blank hd
    obtain ⟨t, ht, -⟩ := hwhole.exists_document h
    obtain ⟨ms, rfl⟩ := hopens.exists_members ht
    exact ⟨ms, ht⟩
  alike {text text' ms ms'} h h' hms a := by
    obtain ⟨extras, hperm, hforeign⟩ := hms
    have hintact : ∀ x ∈ extras, x.2.intact = true := by
      have hall := Tree.intactMembers_iff.mp (Bool.and_eq_true_iff.mp h'.1).1
      exact fun x hx => hall x (hperm.mem_iff.mpr (List.mem_append_left ms hx))
    have hread : ∀ d, s.read blank (.object ms true) = .ok d ↔
        s.read blank (.object ms' true) = .ok d := by
      intro d
      rw [hs.read_perm hperm, read_object_eq_ok_iff, read_object_eq_ok_iff,
        members_foreign hstrict hforeign hintact]
    rw [decode_of_document h, decode_of_document h', map_eq_ok_iff, map_eq_ok_iff]
    simp only [hread]

end Schema.Lawful

end Gatekeeper.Json
