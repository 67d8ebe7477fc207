import Gatekeeper.Cipher.Reversing
import Gatekeeper.Credential.UserForm
import Gatekeeper.Proofs.Record.RoundTrip
import Mathlib.Data.List.Induction

/-!
# Proofs/Credential/Shape — every credential is in shape

There are three ways to a credential: it is built from texts, made of a form, or read from a record.
All three end in `new?`, `withTables` and `withPermissions`, so all three leave the same shape
(`Obtained.normal`): no text is blank or has blanks at its ends, permissions are in lower case, and
building the credential once more from what it holds gives the credential again.

Grants may be assigned over and over.  Of each of the two sets only the last assignment counts, and
nothing but the two sets is touched (`assignAll_eq`).
-/

namespace Gatekeeper

open Std (ExtTreeSet)
open Text (trimmed lower)

namespace Credential

/-! ## Assigning grants -/

/-- An assignment of grants to a credential. -/
inductive Assignment
  | tables (texts : List String)
  | permissions (texts : List String)
  deriving DecidableEq

/-- The list of an assignment of tables. -/
def Assignment.tables? : Assignment → Option (List String)
  | tables texts => some texts
  | permissions _ => none

/-- The list of an assignment of permissions. -/
def Assignment.permissions? : Assignment → Option (List String)
  | tables _ => none
  | permissions texts => some texts

/-- The credential with grants assigned to it. -/
def assign (x : Credential) : Assignment → Credential
  | .tables texts => x.withTables texts
  | .permissions texts => x.withPermissions texts

/-- The credential with grants assigned to it one after another. -/
def assignAll (x : Credential) (as : List Assignment) : Credential := as.foldl assign x

/-- The last list of tables among assignments, if there is one. -/
def lastTables? (as : List Assignment) : Option (List String) :=
  (as.filterMap Assignment.tables?).getLast?

/-- The last list of permissions among assignments, if there is one. -/
def lastPermissions? (as : List Assignment) : Option (List String) :=
  (as.filterMap Assignment.permissions?).getLast?

/-- **Of each set only the last assignment counts**, and nothing else is touched. -/
theorem assignAll_eq (x : Credential) (as : List Assignment) : x.assignAll as =
    { x with
      tables := ((lastTables? as).map tablesOf).getD x.tables
      permissions := ((lastPermissions? as).map permissionsOf).getD x.permissions } := by
  induction as using List.reverseRecOn with
  | nil => rfl
  | append_singleton as a ih =>
    have hlast : x.assignAll (as ++ [a]) = (x.assignAll as).assign a :=
      List.foldl_concat assign x a as
    rw [hlast, ih]
    cases a with
    | tables texts =>
      simp [assign, withTables, lastTables?, lastPermissions?, Assignment.tables?,
        Assignment.permissions?]
    | permissions texts =>
      simp [assign, withPermissions, lastTables?, lastPermissions?, Assignment.tables?,
        Assignment.permissions?]

/-- What was built stays so when grants are assigned to it. -/
theorem Built.assignAll {x : Credential} (hx : x.Built) (as : List Assignment) :
    (x.assignAll as).Built := by
  induction as generalizing x with
  | nil => exact hx
  | cons a as ih =>
    cases a with
    | tables texts => exact ih (hx.withTables texts)
    | permissions texts => exact ih (hx.withPermissions texts)

/-! ## The ways to a credential -/

/-- The credential that a form makes has been built. -/
theorem Built.of_form {f : UserForm} {x : Credential} (h : f.credential = .ok x) : x.Built := by
  simp only [UserForm.credential, bind_eq_ok_iff, mapError_eq_ok_iff] at h
  obtain ⟨component, -, role, -, y, hy, hx⟩ := h
  cases hx
  exact ((Built.new hy).withTables _).withPermissions _

/-- **The ways to a credential**: built from texts and given grants, made of a form, or read from a
record, whatever the vault. -/
inductive Obtained : Credential → Prop
  | built {username secret : String} {component : Component} {role : Role} {x : Credential}
      (h : new? username secret component role = .ok x) (as : List Assignment) :
      Obtained (x.assignAll as)
  | form {f : UserForm} {x : Credential} (h : f.credential = .ok x) : Obtained x
  | record {v : Vault} {r : Record} {x : Credential} (h : v.decode r = .ok x) : Obtained x

theorem Obtained.isBuilt {x : Credential} (h : x.Obtained) : x.Built := by
  cases h with
  | built h as => exact (Built.new h).assignAll as
  | form h => exact .of_form h
  | record h => exact .of_decode h

/-- A permission in shape is trimmed, and in lower case. -/
theorem Shaped.permission {x : Credential} (h : x.Shaped) {a : String} (ha : a ∈ x.permissions) :
    trimmed a = a ∧ lower a = a ∧ a ≠ "" := by
  obtain ⟨hshape, hne⟩ := h.permissions a ha
  have htrimmed : trimmed a = a := by
    rw [← hshape, Text.trimmed_lower_trimmed]
  rw [htrimmed] at hshape
  exact ⟨htrimmed, hshape, hne⟩

/-- **Every credential is in shape**, however it was obtained: its name and secret are trimmed and
not empty, so are its tables and permissions, and the permissions are in lower case.  Building it
once more from its own name, secret and grants gives it again, in whichever order the grants are
assigned.  Whatever is assigned to it later, each set is what was assigned last, and all else stays
as it is. -/
theorem Obtained.normal {x : Credential} (h : x.Obtained) :
    (trimmed x.username = x.username ∧ x.username ≠ "") ∧
    (trimmed x.secret = x.secret ∧ x.secret ≠ "") ∧
    (∀ t ∈ x.tables, trimmed t = t ∧ t ≠ "") ∧
    (∀ a ∈ x.permissions, trimmed a = a ∧ lower a = a ∧ a ≠ "") ∧
    (∃ y, new? x.username x.secret x.component x.role = .ok y ∧
      (y.withTables x.tables.toList).withPermissions x.permissions.toList = x ∧
      (y.withPermissions x.permissions.toList).withTables x.tables.toList = x) ∧
    ∀ as, x.assignAll as =
      { x with
        tables := ((lastTables? as).map tablesOf).getD x.tables
        permissions := ((lastPermissions? as).map permissionsOf).getD x.permissions } := by
  have hx : x.Shaped := h.isBuilt.shaped
  obtain ⟨y, hy, hrebuilt⟩ := hx.rebuilt
  exact ⟨⟨hx.username, hx.username_ne⟩, ⟨hx.secret, hx.secret_ne⟩, hx.tables,
    fun a ha => hx.permission ha, ⟨y, hy, hrebuilt, hrebuilt⟩, assignAll_eq x⟩

/-- A form with blanks of several kinds, and with capitals whose lower case is two characters or
hangs on where they stand. -/
def untidyForm : UserForm where
  username := "\u00a0ann "
  password := "pw\n"
  component := " broker"
  role := "User"
  tables := some [" orders\t", " "]
  permissions := some ["\u3000", "ΑΣ ", "\u0130"]

/-- The credential that the untidy form makes. -/
def tidyCredential : Credential :=
  ⟨"ann", "pw", .broker, .user, .ofList ["orders"], .ofList ["ας", "i\u0307"]⟩

/-- The untidy form makes a credential that is in shape. -/
theorem normal_untidyForm : untidyForm.credential = .ok tidyCredential ∧
    (trimmed "ας" = "ας" ∧ lower "ας" = "ας" ∧ "ας" ≠ "") ∧
    (∃ y, new? "ann" "pw" .broker .user = .ok y ∧
      (y.withTables ["orders"]).withPermissions ["i\u0307", "ας"] = tidyCredential) ∧
    tidyCredential.assignAll [.tables ["a"], .permissions [" "], .tables [" b", "B"]] =
      { tidyCredential with tables := .ofList ["b", "B"], permissions := ∅ } := by
  have hform : untidyForm.credential = .ok tidyCredential := by decide +kernel
  obtain ⟨-, -, -, hpermissions, ⟨y, hy, hrebuilt, -⟩, hassigned⟩ := Obtained.normal (.form hform)
  have htables : tidyCredential.tables.toList = ["orders"] := by decide +kernel
  have hactions : tidyCredential.permissions.toList = ["i\u0307", "ας"] := by decide +kernel
  refine ⟨hform, hpermissions "ας" (by decide +kernel), ⟨y, hy, ?_⟩, ?_⟩
  · rwa [htables, hactions] at hrebuilt
  · rw [hassigned]
    decide +kernel

end Credential

end Gatekeeper
