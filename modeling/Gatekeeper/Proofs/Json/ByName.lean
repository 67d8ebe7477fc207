import Gatekeeper.Proofs.Credential.UserForm
import Gatekeeper.Proofs.Record.Json
import Gatekeeper.Proofs.Settings.Loaders

/-!
# Proofs/Json/ByName — what is stored, given and set is read by name

Records, forms and settings are objects, and each is read by the names of its members, whatever
their order.  Records and forms skip members with other names; settings have no other members.  All
of it holds of lawful schemas (`Schema.Lawful.readByName`, `Schema.Lawful.read_unknown`), and the
three schemas are lawful.
-/

namespace Gatekeeper

open Json (Document OpensObject ReadByName Tree)

/-- The names of the members of settings. -/
def Settings.memberNames : List String := ["user_config_path", "component", "secret_key"]

/-- **Objects are read by the names of their members alone.**  Of a text that is accepted as a record
or as a form, the members may stand in any order and with any blanks, and any others may stand among
them: the text is accepted with the same result.  In a text that is accepted as settings the members
may stand in any order too, and one more, of any other name and with any value, makes the text
unreadable wherever it stands. -/
theorem membersByName :
    ReadByName ["id", "simpleFields", "listFields"] Record.ofJson ∧
    ReadByName ["username", "password", "component", "role", "tables", "permissions"]
      UserForm.ofJson ∧
    ∀ text s, Settings.ofJson text = .ok s → OpensObject text →
      (∃ ms, Document text (.object ms true)) ∧ ∀ ms, Document text (.object ms true) →
        (∀ text' ms', Document text' (.object ms' true) → ms.Perm ms' →
          Settings.ofJson text' = .ok s) ∧
        ∀ text' before after name t,
          Document text' (.object (before ++ (some name, t) :: after) true) →
          (before ++ after).Perm ms → name ∉ Settings.memberNames →
          Settings.ofJson text' = .error (.unreadable (.unknown name Settings.memberNames)) := by
  refine ⟨Record.schema_lawful.readByName rfl {} Record.Draft.record,
    UserForm.schema_lawful.readByName rfl {} UserForm.Draft.form, fun text s h hopens => ?_⟩
  have hs := RawSettings.schema_lawful
  obtain ⟨raw, hraw, hsettings⟩ := Settings.ofJson_eq_ok_iff.mp h
  refine ⟨?_, fun ms ht => ?_⟩
  · obtain ⟨_, ht, -⟩ := RawSettings.whole_reader.exists_document hraw
    obtain ⟨ms, rfl⟩ := hopens.exists_members ht
    exact ⟨ms, ht⟩
  · rw [Json.decode_of_document ht] at hraw
    obtain ⟨d, hd, rfl⟩ := map_eq_ok_iff.mp hraw
    refine ⟨fun text' ms' ht' hms => ?_, fun text' before after name t ht' hms hname => ?_⟩
    · refine Settings.ofJson_eq_ok_iff.mpr ⟨d.raw, ?_, hsettings⟩
      rw [Json.decode_of_document ht']
      exact map_eq_ok_iff.mpr ⟨d, (hs.read_perm hms).mp hd, rfl⟩
    · have hunknown := hs.read_unknown rfl hd hms hname t
      rw [Settings.ofJson, Json.decode_of_document ht', RawSettings.reader, hunknown]
      rfl

/-- A member that holds a text. -/
def textMember (name text : String) : Option String × Tree := (some name, .text (some text))

/-- A record with a field, and the same members the other way round, with others around them that
hold lists, objects and numbers. -/
def recordTexts : String × String :=
  ("\x7b\"id\":\"a\",\"simpleFields\":\x7b\"k\":\"v\"\x7d\x7d",
    " \x7b\"x\" : [\x7b\"id\":[[null]]\x7d, -1.5E+30],\n\"simpleFields\":\x7b\"\\u006b\":\"v\"\x7d,"
      ++ "\"x\":true,\t\"id\":\"a\"\x7d\r\n")

/-- A form, and the same members the other way round after one with another name. -/
def formTexts : String × String :=
  ("\x7b\"username\":\"u\",\"password\":\"p\",\"component\":\"c\",\"role\":\"r\"\x7d",
    "\x7b\"Tables\":false, \"role\":\"r\", \"component\":\"c\",\n"
      ++ "\"password\":\"p\", \"username\":\"u\"\x7d")

/-- Settings, the same the other way round, and the same with one more member. -/
def settingsTexts : String × String × String :=
  ("\x7b\"secret_key\":\"k\",\"component\":\"broker\"\x7d",
    "\x7b \"component\":\"broker\", \"secret_key\":\"k\" \x7d",
    "\x7b\"component\":\"broker\",\"Secret_key\":[\x7b\x7d],\"secret_key\":\"k\"\x7d")

/-- The members of the record and of the form may be moved and may have others among them; those of
the settings may be moved. -/
theorem membersByName_sample :
    Record.ofJson recordTexts.2 = .ok ((Record.empty "a").withSimple "k" "v") ∧
    UserForm.ofJson formTexts.2 = .ok ⟨"u", "p", "c", "r", none, none⟩ ∧
    Settings.ofJson settingsTexts.2.1 = .ok ⟨"/CONFIGS/USER", .broker, "k"⟩ ∧
    Settings.ofJson settingsTexts.2.2
      = .error (.unreadable (.unknown "Secret_key" Settings.memberNames)) := by
  obtain ⟨hrecords, hforms, hsettings⟩ := membersByName
  refine ⟨?_, ?_, ?_⟩
  · let fields := Tree.object [textMember "k" "v"] true
    let x := Tree.list [.object [(some "id", .list [.list [.null] true] true)] true,
      .num ⟨true, [1], some [5], some (false, [3, 0])⟩] true
    have hdocument : Document recordTexts.1
        (.object [textMember "id" "a", (some "simpleFields", fields)] true) := by
      decide +kernel
    have hdocument' : Document recordTexts.2 (.object [(some "x", x), (some "simpleFields", fields),
        (some "x", .bool true), textMember "id" "a"] true) := by
      decide +kernel
    have hread : Record.ofJson recordTexts.1 = .ok ((Record.empty "a").withSimple "k" "v") := by
      decide +kernel
    let extras := [(some "x", x), (some "x", .bool true)]
    refine (hrecords.alike hdocument hdocument' ⟨extras, ?_, ?_⟩ _).mp hread
    · exact .cons _ (List.perm_append_singleton _ [_, _]).symm
    · simp [extras, Json.Schema.Foreign]
  · let ms := [textMember "username" "u", textMember "password" "p", textMember "component" "c",
      textMember "role" "r"]
    have hdocument : Document formTexts.1 (.object ms true) := by decide +kernel
    have hdocument' : Document formTexts.2
        (.object ((some "Tables", .bool false) :: ms.reverse) true) := by
      decide +kernel
    have hread : UserForm.ofJson formTexts.1 = .ok ⟨"u", "p", "c", "r", none, none⟩ := by
      decide +kernel
    refine (hforms.alike hdocument hdocument' ⟨[(some "Tables", .bool false)], ?_, ?_⟩ _).mp hread
    · exact .cons _ (List.reverse_perm ms)
    · simp [Json.Schema.Foreign]
  · let key := textMember "secret_key" "k"
    let component := textMember "component" "broker"
    have hdocument : Document settingsTexts.1 (.object ([key] ++ [component]) true) := by
      decide +kernel
    have hmoved : Document settingsTexts.2.1 (.object ([component] ++ [key]) true) := by
      decide +kernel
    have hadded : Document settingsTexts.2.2
        (.object ([component] ++ (some "Secret_key", .list [.object [] true] true) :: [key])
          true) := by
      decide +kernel
    have hread : Settings.ofJson settingsTexts.1 = .ok ⟨"/CONFIGS/USER", .broker, "k"⟩ := by
      decide +kernel
    have hopens : OpensObject settingsTexts.1 :=
      ⟨[], _, rfl, fun _ hc => absurd hc List.not_mem_nil⟩
    obtain ⟨hperm, hunknown⟩ := (hsettings _ _ hread hopens).2 _ hdocument
    exact ⟨hperm _ _ hmoved List.perm_append_comm,
      hunknown _ _ _ _ _ hadded List.perm_append_comm (by decide)⟩

end Gatekeeper
