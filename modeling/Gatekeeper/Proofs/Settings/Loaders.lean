import Gatekeeper.Proofs.Json.Reads
import Gatekeeper.Proofs.Settings.Path
import Mathlib.Control.Monad.Basic

/-!
# Proofs/Settings/Loaders — settings are what was given, wherever they are read

Three ways lead to settings: from variables, from a JSON text that is checked when it has been read
whole, and from a JSON text whose value is checked as it is read.  The last two accept the same texts
with the same result (`ofJson_eq_ok_iff_decode`), and the object that holds just what variables hold
is read as they are, whatever the order of its members (`ofJson_given`).

None of the three makes up a key: in a document it is the one member of its name, or the last of
three values in a list (`RawSettings.supplies_of_reader`).
-/

namespace Gatekeeper

open Json (Document Problem Reader Schema Tree Value)

/-! ## What a document holds -/

namespace RawSettings

/-- The fields of settings read whole, each into a place of its own. -/
theorem schema_lawful : schema.Lawful where
  reads f hf t d e h := by
    simp only [schema, List.mem_cons, List.not_mem_nil, or_false] at hf
    rcases hf with rfl | rfl | rfl <;> obtain ⟨a, ha, hd⟩ := bind_eq_ok_iff.mp h <;> cases hd
    · exact ⟨Reader.whole_text ha, rfl⟩
    · obtain ⟨text, htext, -⟩ := bind_eq_ok_iff.mp ha
      exact ⟨Reader.whole_text htext, rfl⟩
    · exact ⟨Reader.whole_text.optional ha, rfl⟩
  apart f hf g hg hne t d d' h := by
    simp only [schema, List.mem_cons, List.not_mem_nil, or_false] at hf hg
    rcases hf with rfl | rfl | rfl <;> rcases hg with rfl | rfl | rfl <;>
      first
      | exact absurd rfl hne
      | exact Schema.apart_of_keeps (fun _ _ => rfl) (fun _ _ => rfl) (fun _ _ => rfl)
          (fun _ _ _ => rfl) h

/-- What is read of settings is read whole. -/
theorem whole_reader : reader.Whole := by
  intro t raw h
  obtain ⟨d, hd, -⟩ := map_eq_ok_iff.mp h
  exact schema_lawful.whole_read {} hd

/-- The name of the member that holds the key. -/
def keyMember : String := "secret_key"

/-- The members of an object that are to hold the key. -/
def keyMembers (ms : List (Option String × Tree)) : List (Option String × Tree) :=
  ms.filter fun m => m.1 == some keyMember

/-- The key is the one that the document supplies: by the one member of an object that is to hold
it, or by the third value of a list. -/
def Supplies (key : String) : Tree → Prop
  | .object ms _ => keyMembers ms = [(some keyMember, .text (some key))]
  | .list items _ => items[2]? = some (.text (some key))
  | _ => False

theorem eq_text_of_optional {t : Tree} {key : String}
    (h : Reader.optional Reader.text t = .ok (some key)) : t = .text (some key) := by
  cases t with
  | text s =>
    cases s with
    | some s => cases h; rfl
    | none => cases h
  | _ => cases h

/-- One member either is the key, for the first time, or does not touch it. -/
theorem member_key {name : String} {t : Tree} {d e : Draft} (h : schema.member name t d = .ok e) :
    (name = keyMember ∧ d.key = none ∧ ∃ key, Reader.optional Reader.text t = .ok key ∧
      e.key = some key) ∨ (name ≠ keyMember ∧ e.key = d.key) := by
  obtain ⟨f, hfind, hpresent, hfill⟩ | ⟨-, hstrict, -⟩ := Schema.member_eq_ok_iff.mp h
  · have hname : f.name = name := by simpa using List.find?_some hfind
    have hmem := List.mem_of_find?_eq_some hfind
    simp only [schema, List.mem_cons, List.not_mem_nil, or_false] at hmem
    rcases hmem with rfl | rfl | rfl <;> obtain ⟨a, ha, hd⟩ := bind_eq_ok_iff.mp hfill <;> cases hd
    · exact .inr ⟨hname ▸ by decide, rfl⟩
    · exact .inr ⟨hname ▸ by decide, rfl⟩
    · exact .inl ⟨hname.symm, by simpa using hpresent, a, ha, rfl⟩
  · cases hstrict

/-- **The key that members give** is that of the one member that is to hold it. -/
theorem members_key : ∀ {ms : List (Option String × Tree)} {d e : Draft},
    schema.members ms d = .ok e →
      (keyMembers ms = [] ∧ e.key = d.key) ∨
      ∃ t key, keyMembers ms = [(some keyMember, t)] ∧ d.key = none ∧
        Reader.optional Reader.text t = .ok key ∧ e.key = some key
  | [], _, _, h => by
    cases h
    exact .inl ⟨rfl, rfl⟩
  | (name?, t) :: ms, d, e, h => by
    obtain ⟨name, d', rfl, hm, hms⟩ := Schema.members_cons_eq_ok_iff.mp h
    have ih := members_key hms
    obtain ⟨rfl, hd, key, hkey, hd'⟩ | ⟨hname, hd'⟩ := member_key hm
    · have hfilter : keyMembers ((some keyMember, t) :: ms)
          = (some keyMember, t) :: keyMembers ms := by
        simp [keyMembers]
      obtain ⟨hnil, he⟩ | ⟨-, -, -, hnone, -⟩ := ih
      · exact .inr ⟨t, key, by rw [hfilter, hnil], hd, hkey, he.trans hd'⟩
      · rw [hd'] at hnone
        cases hnone
    · have hfilter : keyMembers ((some name, t) :: ms) = keyMembers ms := by
        simp [keyMembers, hname]
      rwa [hfilter, ← hd']

/-- The key that a list of values gives is the third. -/
theorem elements_key {closed : Bool} {items : List Tree} {d : Draft} {key : String}
    (h : schema.elements closed 0 schema.fields items {} = .ok d)
    (hkey : d.key = some (some key)) : items[2]? = some (.text (some key)) := by
  -- The fields take the values in turn, and a list that ends before the third leaves the key open.
  obtain _ | ⟨path, items⟩ := items
  · obtain rfl := Schema.eq_of_elements_nil h
    cases hkey
  obtain ⟨d₁, hpath, h⟩ := bind_eq_ok_iff.mp h
  obtain ⟨_, -, hd₁⟩ := bind_eq_ok_iff.mp hpath
  cases hd₁
  obtain _ | ⟨component, items⟩ := items
  · obtain rfl := Schema.eq_of_elements_nil h
    cases hkey
  obtain ⟨d₂, hcomponent, h⟩ := bind_eq_ok_iff.mp h
  obtain ⟨_, -, hd₂⟩ := bind_eq_ok_iff.mp hcomponent
  cases hd₂
  obtain _ | ⟨t, items⟩ := items
  · obtain rfl := Schema.eq_of_elements_nil h
    cases hkey
  obtain ⟨d₃, hthird, h⟩ := bind_eq_ok_iff.mp h
  obtain ⟨key', ht, hd₃⟩ := bind_eq_ok_iff.mp hthird
  cases hd₃
  obtain _ | ⟨_, items⟩ := items
  · obtain rfl := Schema.eq_of_elements_nil h
    obtain rfl : key' = some key := Option.some.inj hkey
    rw [eq_text_of_optional ht]
    rfl
  · cases h

/-- **A key that is read was supplied.** -/
theorem supplies_of_reader {t : Tree} {raw : RawSettings} {key : String}
    (h : reader t = .ok raw) (hkey : raw.key = some key) : Supplies key t := by
  obtain ⟨d, hd, rfl⟩ := map_eq_ok_iff.mp h
  have hdkey : d.key = some (some key) := Option.join_eq_some_iff.mp hkey
  cases t with
  | object ms closed =>
    obtain ⟨-, hms, -⟩ := Schema.read_object_eq_ok_iff.mp hd
    obtain ⟨-, he⟩ | ⟨t, key', hkeys, -, ht, he⟩ := members_key hms
    · rw [hdkey] at he
      cases he
    · obtain rfl : key' = some key := Option.some.inj (he.symm.trans hdkey)
      rw [Supplies, hkeys, eq_text_of_optional ht]
  | list items closed => exact elements_key hd hdkey
  | _ => cases hd

/-- **What makes settings of what was given**: a key, and a path that something is kept of. -/
theorem settings_eq_ok_iff {raw : RawSettings} {s : Settings} : raw.settings = .ok s ↔
    raw.key = some s.key ∧ s.key ≠ "" ∧ Settings.canonicalPath? raw.path = some s.path ∧
      raw.component = s.component := by
  rw [settings]
  split
  · next hkey => simp [hkey]
  · next hkey =>
    simp only [hkey, reduceCtorEq, Option.some.injEq, false_iff]
    rintro ⟨hs, hne, -⟩
    exact hne hs.symm
  · next key hne hkey =>
    obtain ⟨p, c, k⟩ := s
    rw [Settings.withPath, hkey]
    cases Settings.canonicalPath? raw.path with
    | none => simp
    | some q =>
      simp only [Except.ok.injEq, Settings.mk.injEq, Option.some.injEq]
      constructor
      · rintro ⟨rfl, rfl, rfl⟩
        exact ⟨rfl, hne, rfl, rfl⟩
      · rintro ⟨rfl, -, rfl, rfl⟩
        exact ⟨rfl, rfl, rfl⟩

end RawSettings

namespace Settings

/-! ## The same settings in JSON and in variables -/

theorem ofJson_eq_ok_iff {text : String} {s : Settings} : ofJson text = .ok s ↔
    ∃ raw, Json.decode RawSettings.reader text = .ok raw ∧ raw.settings = .ok s := by
  simp only [ofJson, bind_eq_ok_iff, mapError_eq_ok_iff]

/-- **It makes no difference when settings are checked.** -/
theorem ofJson_eq_ok_iff_decode {text : String} {s : Settings} :
    ofJson text = .ok s ↔ Json.decode reader text = .ok s := by
  simp only [ofJson_eq_ok_iff, Json.decode_eq_ok_iff, reader, bind_eq_ok_iff, mapError_eq_ok_iff]
  constructor
  · rintro ⟨raw, ⟨hraw, hrest⟩, hs⟩
    exact ⟨⟨raw, hraw, hs⟩, hrest⟩
  · rintro ⟨⟨raw, hraw, hs⟩, hrest⟩
    exact ⟨raw, ⟨hraw, hrest⟩, hs⟩

/-- A member that holds a text, if there is one. -/
def givenText (name : String) (text? : Option String) : List (String × Value) :=
  text?.toList.map fun text => (name, .text text)

/-- What variables hold, as the members of an object. -/
def given (lookup : String → Option String) : List (String × Value) :=
  givenText "user_config_path" (lookup pathVariable)
    ++ givenText "component" (lookup componentVariable)
    ++ givenText RawSettings.keyMember (lookup keyVariable)

/-- The component that a text names, if there is a text. -/
def namedComponent (text? : Option String) : Except UnknownWord (Option Component) :=
  match text? with
  | some text => some <$> Component.ofText text
  | none => .ok none

theorem namedComponent_some_eq_ok_iff {text : String} {component? : Option Component} :
    namedComponent (some text) = .ok component? ↔
      ∃ c, Component.ofText text = .ok c ∧ some c = component? := map_eq_ok_iff

theorem ofVariables_eq_ok_iff {lookup : String → Option String} {s : Settings} :
    ofVariables lookup = .ok s ↔ ∃ component?,
      namedComponent (lookup componentVariable) = .ok component? ∧
      RawSettings.settings ⟨(lookup pathVariable).getD defaultPath,
        component?.getD defaultComponent, lookup keyVariable⟩ = .ok s := by
  rw [ofVariables]
  cases lookup componentVariable with
  | none =>
    constructor
    · exact fun h => ⟨none, rfl, h⟩
    · rintro ⟨_, hc, h⟩
      cases hc
      exact h
  | some text =>
    simp only [namedComponent_some_eq_ok_iff, bind_eq_ok_iff, mapError_eq_ok_iff]
    constructor
    · rintro ⟨c, hc, h⟩
      exact ⟨some c, ⟨c, hc, rfl⟩, h⟩
    · rintro ⟨_, ⟨c, hc, rfl⟩, h⟩
      exact ⟨c, hc, h⟩

theorem reader_text_eq_ok_iff {text : String} {c : Component} :
    Vocabulary.reader Component (.text (some text)) = .ok c ↔ Component.ofText text = .ok c := by
  simp [Vocabulary.reader, bind_eq_ok_iff, mapError_eq_ok_iff, Reader.text, Component.ofText]

/-- A member for a component that may be given is read as the component is. -/
theorem members_component {path? text? : Option String} {rest : List (Option String × Tree)}
    {d : RawSettings.Draft} : RawSettings.schema.members
      (Value.memberTrees (givenText "component" text?) ++ rest) ⟨path?, none, none⟩ = .ok d ↔
    ∃ component?, namedComponent text? = .ok component? ∧
      RawSettings.schema.members rest ⟨path?, component?, none⟩ = .ok d := by
  cases text? with
  | none =>
    constructor
    · exact fun h => ⟨none, rfl, h⟩
    · rintro ⟨_, hc, h⟩
      cases hc
      exact h
  | some text =>
    constructor
    · intro h
      obtain ⟨_, hmember, h⟩ := bind_eq_ok_iff.mp h
      obtain ⟨c, hc, hd⟩ := bind_eq_ok_iff.mp hmember
      cases hd
      exact ⟨some c, namedComponent_some_eq_ok_iff.mpr ⟨c, reader_text_eq_ok_iff.mp hc, rfl⟩, h⟩
    · rintro ⟨_, hnamed, h⟩
      obtain ⟨c, hc, rfl⟩ := namedComponent_some_eq_ok_iff.mp hnamed
      have hread := reader_text_eq_ok_iff.mpr hc
      have hcons : RawSettings.schema.members ((some "component", .text (some text)) :: rest)
          ⟨path?, none, none⟩ = RawSettings.schema.members rest ⟨path?, some c, none⟩ := by
        refine Schema.members_cons rfl rfl ?_ rest
        exact bind_eq_ok_iff.mpr ⟨c, hread, rfl⟩
      exact hcons.trans h

/-- **The members for what variables hold** are read as the variables are. -/
theorem members_given {lookup : String → Option String} {d : RawSettings.Draft} :
    RawSettings.schema.members (Value.memberTrees (given lookup)) {} = .ok d ↔ ∃ component?,
      namedComponent (lookup componentVariable) = .ok component? ∧
      ⟨lookup pathVariable, component?, (lookup keyVariable).map some⟩ = d := by
  have hpath : ∀ text? rest, RawSettings.schema.members
      (Value.memberTrees (givenText "user_config_path" text?) ++ rest) {}
        = RawSettings.schema.members rest ⟨text?, none, none⟩ := by
    intro text? rest
    cases text? <;> rfl
  have hkey : ∀ path? component? key?, RawSettings.schema.members
      (Value.memberTrees (givenText RawSettings.keyMember key?)) ⟨path?, component?, none⟩
        = .ok ⟨path?, component?, key?.map some⟩ := by
    intro path? component? key?
    cases key? <;> rfl
  rw [given, Value.memberTrees_append, Value.memberTrees_append, List.append_assoc, hpath,
    members_component]
  simp only [hkey, Except.ok.injEq]

/-- **The object that holds what variables hold** is read as the variables are, whatever the order
of its members. -/
theorem ofJson_given {lookup : String → Option String} {text : String}
    {ms : List (Option String × Tree)} (htext : Document text (.object ms true))
    (hms : ms.Perm (Value.memberTrees (given lookup))) (s : Settings) :
    ofJson text = .ok s ↔ ofVariables lookup = .ok s := by
  have hread : ∀ d, RawSettings.schema.read {} (.object ms true) = .ok d ↔ ∃ component?,
      namedComponent (lookup componentVariable) = .ok component? ∧
      ⟨lookup pathVariable, component?, (lookup keyVariable).map some⟩ = d := by
    intro d
    rw [RawSettings.schema_lawful.read_perm hms, Schema.read_object_eq_ok_iff, members_given]
    constructor
    · exact fun h => h.2.1
    · exact fun h => ⟨rfl, h, rfl⟩
  rw [ofJson_eq_ok_iff, ofVariables_eq_ok_iff, Json.decode_of_document htext]
  simp only [RawSettings.reader, map_eq_ok_iff, hread]
  have hraw : ∀ component?, RawSettings.Draft.raw
      ⟨lookup pathVariable, component?, (lookup keyVariable).map some⟩
        = ⟨(lookup pathVariable).getD defaultPath, component?.getD defaultComponent,
            lookup keyVariable⟩ := by
    intro component?
    cases hkey : lookup keyVariable <;> rfl
  constructor
  · rintro ⟨_, ⟨_, ⟨component?, hcomponent, rfl⟩, rfl⟩, hs⟩
    exact ⟨component?, hcomponent, by rwa [hraw] at hs⟩
  · rintro ⟨component?, hcomponent, hs⟩
    exact ⟨_, ⟨_, ⟨component?, hcomponent, rfl⟩, rfl⟩, by rwa [hraw]⟩

/-! ## What settings hold -/

/-- Settings have a key and a rooted path. -/
theorem sound_of_settings {raw : RawSettings} {s : Settings} (h : raw.settings = .ok s) :
    s.key ≠ "" ∧ Rooted s.path := by
  obtain ⟨-, hne, hpath, -⟩ := RawSettings.settings_eq_ok_iff.mp h
  exact ⟨hne, (canonicalPath?_eq_some_iff.mp hpath).1⟩

/-- **The ways to settings agree, and none of them makes up a key.**  Variables are read like every
text with the object that holds just what they hold, whatever the order of its members.  A text that
is checked when it has been read whole is read like one that is checked as it is read.  And the key
of the settings is not empty and was supplied, by the variable for it or in the document that the
text holds; the path starts with a `/` and does not end in one. -/
theorem loadersAgree :
    (∀ lookup text ms, Document text (.object ms true) →
      ms.Perm (Value.memberTrees (given lookup)) → ∀ s,
        (ofVariables lookup = .ok s ↔ ofJson text = .ok s) ∧
        (ofVariables lookup = .ok s ↔ Json.decode reader text = .ok s)) ∧
    (∀ text s, ofJson text = .ok s ↔ Json.decode reader text = .ok s) ∧
    (∀ lookup s, ofVariables lookup = .ok s →
      lookup keyVariable = some s.key ∧ s.key ≠ "" ∧ Rooted s.path) ∧
    ∀ text s, ofJson text = .ok s ∨ Json.decode reader text = .ok s →
      (∃ t, Document text t ∧ RawSettings.Supplies s.key t) ∧ s.key ≠ "" ∧ Rooted s.path := by
  refine ⟨fun lookup text ms htext hms s => ?_, fun _ _ => ofJson_eq_ok_iff_decode,
    fun lookup s h => ?_, fun text s h => ?_⟩
  · have hgiven := ofJson_given htext hms s
    exact ⟨hgiven.symm, hgiven.symm.trans ofJson_eq_ok_iff_decode⟩
  · obtain ⟨component?, -, hs⟩ := ofVariables_eq_ok_iff.mp h
    exact ⟨(RawSettings.settings_eq_ok_iff.mp hs).1, sound_of_settings hs⟩
  · have hjson : ofJson text = .ok s := h.elim id ofJson_eq_ok_iff_decode.mpr
    obtain ⟨raw, hraw, hs⟩ := ofJson_eq_ok_iff.mp hjson
    obtain ⟨t, ht, hread⟩ := RawSettings.whole_reader.exists_document hraw
    have hkey := (RawSettings.settings_eq_ok_iff.mp hs).1
    exact ⟨⟨t, ht, RawSettings.supplies_of_reader hread hkey⟩, sound_of_settings hs⟩

/-- Variables for a path with blanks and slashes at its end, for a component, and for a key. -/
def sampleLookup (name : String) : Option String :=
  if name = pathVariable then some " /a/b// "
  else if name = componentVariable then some "Broker\n"
  else if name = keyVariable then some "k \""
  else none

/-- The same in JSON, in another order and with blanks and escapes. -/
def sampleText : String :=
  "\n\x7b \"secret_key\" : \"k\\u0020\\\"\", \"user_config_path\":\" \\/a/b// \",\t\"component\":"
    ++ "\"Bro\\u006ber\\n\" \x7d "

/-- The settings that both hold. -/
def sampleSettings : Settings := ⟨"/a/b", .broker, "k \""⟩

/-- The variables and the text hold the same settings, and the key is theirs. -/
theorem loadersAgree_sample :
    ofVariables sampleLookup = .ok sampleSettings ∧ ofJson sampleText = .ok sampleSettings ∧
    Json.decode reader sampleText = .ok sampleSettings ∧
    sampleLookup keyVariable = some sampleSettings.key ∧
    ∃ t, Document sampleText t ∧ RawSettings.Supplies sampleSettings.key t := by
  have hdocument : Document sampleText (.object
      ([(some RawSettings.keyMember, .text (some "k \""))]
        ++ [(some "user_config_path", .text (some " /a/b// ")),
          (some "component", .text (some "Broker\n"))]) true) := by
    decide +kernel
  have hvariables : ofVariables sampleLookup = .ok sampleSettings := by decide +kernel
  obtain ⟨hagree, -, hkey, hsupplied⟩ := loadersAgree
  obtain ⟨hjson, hdecode⟩ :=
    hagree sampleLookup sampleText _ hdocument List.perm_append_comm sampleSettings
  have htext := hjson.mp hvariables
  exact ⟨hvariables, htext, hdecode.mp hvariables, (hkey _ _ hvariables).1,
    (hsupplied _ _ (.inl htext)).1⟩

end Settings

end Gatekeeper
