import Gatekeeper.Proofs.Credential.Shape
import Gatekeeper.Proofs.Json.Reads

/-!
# Proofs/Credential/UserForm — a form survives being written down

`UserForm.toJson` writes a form and `UserForm.ofJson` reads it back, whatever texts it holds
(`ofJson_toJson`).  A list that is not given is left out, and so is not given when the form is read,
while an empty list is written and stays one (`members_optionalMember`).

A form that carries a credential (`Carries`) makes just this credential, since a credential is in
shape and making it again changes nothing (`Carries.credential_eq`).  So what is written down for a
credential is that credential again (`survives`).
-/

namespace Gatekeeper.UserForm

open Json (Problem Reader Reads Schema Tree Value)
open Std (ExtTreeSet)

/-! ## JSON -/

/-- The fields of a form read whole, each into a place of its own. -/
theorem schema_lawful : schema.Lawful where
  reads f hf t d e h := by
    simp only [schema, List.mem_cons, List.not_mem_nil, or_false] at hf
    rcases hf with rfl | rfl | rfl | rfl | rfl | rfl <;>
      obtain ⟨a, ha, hd⟩ := bind_eq_ok_iff.mp h <;> cases hd
    iterate 4 exact ⟨Reader.whole_text ha, rfl⟩
    iterate 2 exact ⟨Reader.whole_text.list.optional ha, rfl⟩
  apart f hf g hg hne t d d' h := by
    simp only [schema, List.mem_cons, List.not_mem_nil, or_false] at hf hg
    rcases hf with rfl | rfl | rfl | rfl | rfl | rfl <;>
      rcases hg with rfl | rfl | rfl | rfl | rfl | rfl <;>
      first
      | exact absurd rfl hne
      | exact Schema.apart_of_keeps (fun _ _ => rfl) (fun _ _ => rfl) (fun _ _ => rfl)
          (fun _ _ _ => rfl) h

/-- **A list that may be left out** is read where it is given, and nothing is where it is not. -/
theorem members_optionalMember {f : Json.Field Draft} (name : String)
    (kept : Option (Option (List String)) → Draft)
    (hfind : schema.fields.find? (fun f => f.name == name) = some f)
    (hpresent : f.present (kept none) = false)
    (hfill : ∀ texts, f.fill (Value.texts texts).tree (kept none) = .ok (kept (some (some texts))))
    (texts : Option (List String)) (rest : List (Option String × Tree)) :
    schema.members (Value.memberTrees (optionalMember name texts) ++ rest) (kept none)
      = schema.members rest (kept (texts.map some)) := by
  cases texts with
  | none => rfl
  | some texts => exact Schema.members_cons hfind hpresent (hfill texts) rest

/-- **A form is taken out of the document** that it is written as. -/
theorem reads_reader : Reads reader value := by
  rintro ⟨username, password, component, role, tables, permissions⟩
  let texts : Draft := ⟨some username, some password, some component, some role, none, none⟩
  let granted : Draft := { texts with tables := tables.map some }
  let whole : Draft := { granted with permissions := permissions.map some }
  let written := Value.memberTrees [("username", .text username), ("password", .text password),
    ("component", .text component), ("role", .text role)]
  have hlist := Reads.text.list.optional
  have htables := members_optionalMember "tables"
    (fun kept => { texts with tables := kept }) rfl rfl
    (fun ts => bind_eq_ok_iff.mpr ⟨some ts, hlist ts, rfl⟩) tables
  have hpermissions := members_optionalMember "permissions"
    (fun kept => { granted with permissions := kept }) rfl rfl
    (fun ts => bind_eq_ok_iff.mpr ⟨some ts, hlist ts, rfl⟩) permissions
  have hmembers := calc
    schema.members (written ++ Value.memberTrees (optionalMember "tables" tables)
        ++ Value.memberTrees (optionalMember "permissions" permissions)) {}
    _ = schema.members (Value.memberTrees (optionalMember "tables" tables)
          ++ Value.memberTrees (optionalMember "permissions" permissions)) texts := rfl
    _ = schema.members (Value.memberTrees (optionalMember "permissions" permissions)) granted :=
          htables _
    _ = .ok whole := by
          have hlast := hpermissions []
          rwa [List.append_nil] at hlast
  rw [reader, map_eq_ok_iff, value, Value.tree, Value.memberTrees_append,
    Value.memberTrees_append]
  refine ⟨whole, Schema.read_object_eq_ok_iff.mpr ⟨rfl, hmembers, rfl⟩, ?_⟩
  cases tables <;> cases permissions <;> rfl

/-- **A form reads back from its text**, a list that is not given kept apart from an empty one. -/
theorem ofJson_toJson (f : UserForm) : ofJson f.toJson = .ok f :=
  Json.decode_render (reads_reader f)

/-! ## Credentials -/

/-- The form carries the credential: its texts and words, and its grants listed in any order, where
no grants may be listed as none or not at all. -/
structure Carries (f : UserForm) (c : Credential) : Prop where
  username : f.username = c.username
  password : f.password = c.secret
  component : f.component = c.component.word
  role : f.role = c.role.word
  tables : ∀ t, t ∈ f.tables.getD [] ↔ t ∈ c.tables
  permissions : ∀ a, a ∈ f.permissions.getD [] ↔ a ∈ c.permissions

/-- **A form makes the credential that it carries.** -/
theorem Carries.credential_eq {f : UserForm} {c : Credential} (h : f.Carries c) (hc : c.Shaped) :
    f.credential = .ok c := by
  obtain ⟨y, hy, hbuilt⟩ := hc.rebuilt_of_mem h.tables h.permissions
  simp only [credential, bind_eq_ok_iff, mapError_eq_ok_iff, h.username, h.password, h.component,
    h.role]
  exact ⟨c.component, Component.ofText_word _, c.role, Role.ofText_word _, y, hy,
    congrArg Except.ok hbuilt⟩

/-- **Forms and what they carry survive being written down.**  Every form reads back from its text,
so no two forms are written alike, and a list that is not given is not an empty one.  And however a
credential was obtained, a form that carries it makes this credential after it has been written and
read back. -/
theorem survives :
    (∀ f : UserForm, ofJson f.toJson = .ok f) ∧ Function.Injective toJson ∧
      ∀ (c : Credential) (f : UserForm), c.Obtained → f.Carries c →
        ∃ g, ofJson f.toJson = .ok g ∧ g.credential = .ok c := by
  refine ⟨ofJson_toJson, fun f g h => ?_, fun c f hc hf => ?_⟩
  · have hread : (Except.ok f : Except Problem UserForm) = .ok g := by
      rw [← ofJson_toJson f, h, ofJson_toJson g]
    exact Except.ok.inj hread
  · exact ⟨f, ofJson_toJson f, hf.credential_eq hc.isBuilt.shaped⟩

/-- A form with texts that need escapes, its permissions out of order and one of them twice, and its
tables listed as none. -/
def scatteredForm : UserForm where
  username := "ann \"1\"\\"
  password := "p\tw\x01😀"
  component := "BROKER"
  role := "USER"
  tables := some []
  permissions := some ["ς", "read", "i\u0307", "read"]

/-- The scattered form without its list of tables. -/
def sparseForm : UserForm := { scatteredForm with tables := none }

/-- The credential that both carry. -/
def gatheredCredential : Credential :=
  ⟨"ann \"1\"\\", "p\tw\x01😀", .broker, .user, ∅, .ofList ["i\u0307", "read", "ς"]⟩

/-- Both forms are written differently, read back differently, and make the credential. -/
theorem survives_scatteredForm :
    sparseForm.toJson = "\x7b\"username\":\"ann \\\"1\\\"\\\\\",\"password\":\"p\\tw\\u0001😀\","
      ++ "\"component\":\"BROKER\",\"role\":\"USER\","
      ++ "\"permissions\":[\"ς\",\"read\",\"i\u0307\",\"read\"]\x7d" ∧
    ofJson sparseForm.toJson = .ok sparseForm ∧
    ofJson scatteredForm.toJson = .ok scatteredForm ∧
    (∃ g, ofJson sparseForm.toJson = .ok g ∧ g.credential = .ok gatheredCredential) ∧
    ∃ g, ofJson scatteredForm.toJson = .ok g ∧ g.credential = .ok gatheredCredential := by
  have hform : scatteredForm.credential = .ok gatheredCredential := by decide +kernel
  have htables : ∀ t, t ∈ ([] : List String) ↔ t ∈ gatheredCredential.tables := by
    simp [gatheredCredential]
  have hpermissions : ∀ a, a ∈ ["ς", "read", "i\u0307", "read"] ↔
      a ∈ gatheredCredential.permissions := by
    intro a
    simp only [gatheredCredential, ExtTreeSet.mem_ofList, List.contains_iff_mem, List.mem_cons,
      List.not_mem_nil, or_false]
    grind
  obtain ⟨hreads, -, hcarried⟩ := survives
  exact ⟨by decide +kernel, hreads sparseForm, hreads scatteredForm,
    hcarried _ sparseForm (.form hform) ⟨rfl, rfl, rfl, rfl, htables, hpermissions⟩,
    hcarried _ scatteredForm (.form hform) ⟨rfl, rfl, rfl, rfl, htables, hpermissions⟩⟩

end Gatekeeper.UserForm
