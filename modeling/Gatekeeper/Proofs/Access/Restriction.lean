import Gatekeeper.Cipher.Reversing
import Gatekeeper.Credential.UserForm
import Gatekeeper.Proofs.Access.Decision
import Gatekeeper.Proofs.Record.RoundTrip

/-!
# Proofs/Access/Restriction — which tables and actions a list of grants leaves open

A credential is restricted by what is left of a list once its blank entries are out, and a set
without members restricts nothing.  So a list either leaves open just what it names, or, if all of
its entries are blank, everything (`reaches_withTables`, `permits_withPermissions`).

`Credential.DrawnFrom.restricted` says it for every credential that is read from a record or made of
a form: the lists there restrict it if and only if they have an entry that is not blank.  A list
that is given and holds blank entries alone does what an absent one does
(`Credential.not_restricted`).
-/

namespace Gatekeeper

open Std (ExtTreeSet)
open Text (trimmed lower)

/-- Only the empty text is empty in lower case. -/
theorem Text.lower_eq_empty_iff {s : String} : lower s = "" ↔ s = "" := by
  constructor
  · intro h
    cases hs : s.toList with
    | nil => exact String.toList_inj.mp hs
    | cons c cs =>
      have hnil : (lower s).toList = [] := congrArg String.toList h
      rw [Text.toList_lower, hs] at hnil
      exact absurd hnil (Text.LetterCase.lowerFrom_ne_nil [] cs c)
  · rintro rfl
    exact Text.lower_empty

namespace Credential

/-! ## Sets of grants -/

/-- Nothing is granted by name if all the texts are blank. -/
theorem grants_eq_empty_iff {texts : List String} : grants texts = ∅ ↔ ∀ t ∈ texts, t = "" := by
  rw [ExtTreeSet.eq_empty_iff_forall_not_mem]
  simp only [mem_grants, not_and, ne_eq, not_not]

theorem tablesOf_eq_empty_iff {texts : List String} :
    tablesOf texts = ∅ ↔ ∀ x ∈ texts, trimmed x = "" := by
  rw [tablesOf, grants_eq_empty_iff, List.forall_mem_map]

theorem permissionsOf_eq_empty_iff {texts : List String} :
    permissionsOf texts = ∅ ↔ ∀ x ∈ texts, trimmed x = "" := by
  rw [permissionsOf, grants_eq_empty_iff, List.forall_mem_map]
  simp only [Text.lower_eq_empty_iff]

/-- **Which tables a list leaves open**: all of them if its entries are blank, and otherwise those
that it names. -/
theorem reaches_withTables {c : Credential} {texts : List String} {t : String} :
    (c.withTables texts).reaches t = true ↔
      (∀ x ∈ texts, trimmed x = "") ∨ t ≠ "" ∧ ∃ x ∈ texts, trimmed x = t := by
  have htables : (c.withTables texts).tables = tablesOf texts := rfl
  rw [reaches_iff, htables, tablesOf_eq_empty_iff, mem_tablesOf, and_comm]

/-- **Which actions a list leaves open**: all of them if its entries are blank, and otherwise those
that it names, whatever their case. -/
theorem permits_withPermissions {c : Credential} {texts : List String} {a : String} :
    (c.withPermissions texts).permits a = true ↔
      (∀ x ∈ texts, trimmed x = "") ∨ a ≠ "" ∧ ∃ x ∈ texts, lower (trimmed x) = lower a := by
  have hpermissions : (c.withPermissions texts).permissions = permissionsOf texts := rfl
  rw [permits_iff, hpermissions, permissionsOf_eq_empty_iff, mem_permissionsOf, and_comm, ne_eq,
    Text.lower_eq_empty_iff]

/-! ## Credentials from records and forms -/

/-- **The credential was drawn from these lists** of tables and of permissions, either of which may
be absent: it was read from a record, or made of a form, that has them. -/
inductive DrawnFrom (tables permissions : Option (List String)) : Credential → Prop
  | record {v : Vault} {r : Record} {x : Credential} (h : v.decode r = .ok x)
      (ht : r.lists["tables"]? = tables) (hp : r.lists["permissions"]? = permissions) :
      DrawnFrom tables permissions x
  | form {f : UserForm} {x : Credential} (h : f.credential = .ok x) (ht : f.tables = tables)
      (hp : f.permissions = permissions) : DrawnFrom tables permissions x

/-- Either way the lists are the last that the credential was given. -/
theorem DrawnFrom.exists_with {tables permissions : Option (List String)} {x : Credential}
    (h : x.DrawnFrom tables permissions) :
    ∃ y : Credential, x = (y.withTables (tables.getD [])).withPermissions
      (permissions.getD []) := by
  cases h with
  | record h ht hp =>
    obtain ⟨-, -, -, -, -, -, -, -, -, -, y, -, rfl⟩ := Vault.decode_eq_ok_iff.mp h
    exact ⟨y, by rw [ht, hp]⟩
  | form h ht hp =>
    simp only [UserForm.credential, bind_eq_ok_iff, pure, Except.pure, Except.ok.injEq] at h
    obtain ⟨-, -, -, -, y, -, rfl⟩ := h
    exact ⟨y, by rw [ht, hp]⟩

/-- What is open because nothing is named is open to more than what is named. -/
theorem forall_named_iff {allowed named : String → Prop} {blank : Prop}
    (h : ∀ t, allowed t ↔ blank ∨ t ≠ "" ∧ named t) (hmore : blank → ∃ t, ¬named t) :
    (∀ t, allowed t → named t) ↔ ¬blank := by
  constructor
  · intro hall hblank
    obtain ⟨t, ht⟩ := hmore hblank
    exact ht (hall t ((h t).mpr (.inl hblank)))
  · intro hsome t ht
    exact (((h t).mp ht).resolve_left hsome).2

/-- **When a list restricts a credential.**  A credential that was drawn from lists reaches just the
tables that the first of them names, and may do just what the second names, as long as the list has
an entry that is not blank.  A list without such an entry, whether it is absent, empty or given,
leaves everything open. -/
theorem DrawnFrom.restricted {tables permissions : Option (List String)} {x : Credential}
    (h : x.DrawnFrom tables permissions) :
    (∀ t, x.reaches t = true ↔ (∀ y ∈ tables.getD [], trimmed y = "") ∨
      t ≠ "" ∧ ∃ y ∈ tables.getD [], trimmed y = t) ∧
    (∀ a, x.permits a = true ↔ (∀ y ∈ permissions.getD [], trimmed y = "") ∨
      a ≠ "" ∧ ∃ y ∈ permissions.getD [], lower (trimmed y) = lower a) ∧
    ((∀ t, x.reaches t = true → ∃ y ∈ tables.getD [], trimmed y = t) ↔
      ∃ y ∈ tables.getD [], trimmed y ≠ "") ∧
    ((∀ a, x.permits a = true → ∃ y ∈ permissions.getD [], lower (trimmed y) = lower a) ↔
      ∃ y ∈ permissions.getD [], trimmed y ≠ "") := by
  obtain ⟨c, rfl⟩ := h.exists_with
  generalize tables.getD [] = ts
  generalize permissions.getD [] = ps
  have hreaches : ∀ t, ((c.withTables ts).withPermissions ps).reaches t = true ↔
      (∀ y ∈ ts, trimmed y = "") ∨ t ≠ "" ∧ ∃ y ∈ ts, trimmed y = t :=
    fun t => reaches_withTables (c := c)
  have hpermits : ∀ a, ((c.withTables ts).withPermissions ps).permits a = true ↔
      (∀ y ∈ ps, trimmed y = "") ∨ a ≠ "" ∧ ∃ y ∈ ps, lower (trimmed y) = lower a :=
    fun a => permits_withPermissions
  refine ⟨hreaches, hpermits, ?_, ?_⟩
  · rw [forall_named_iff hreaches fun hblank => ⟨"x", ?_⟩]
    · push Not
      rfl
    · rintro ⟨y, hy, heq⟩
      exact absurd ((hblank y hy).symm.trans heq) (by decide)
  · rw [forall_named_iff hpermits fun hblank => ⟨"x", ?_⟩]
    · push Not
      rfl
    · rintro ⟨y, hy, heq⟩
      rw [hblank y hy] at heq
      exact absurd heq (by decide +kernel)

/-- A record of ann's with these tables and permissions. -/
def annRecord (tables permissions : List String) : Record :=
  Record.empty "ann_BROKER"
    |>.withSimple "username" "ann"
    |>.withSimple "password" "enc:wp"
    |>.withSimple "component" "BROKER"
    |>.withSimple "role" "USER"
    |>.withList "tables" tables
    |>.withList "permissions" permissions

/-- The credential that ann's record is read as. -/
def annCredential (tables permissions : List String) : Credential :=
  ⟨"ann", "pw", .broker, .user, tablesOf tables, permissionsOf permissions⟩

theorem drawnFrom_annRecord (tables permissions : List String) :
    (annCredential tables permissions).DrawnFrom (some tables) (some permissions) := by
  refine .record (v := ⟨.reversing, "key"⟩) (r := annRecord tables permissions) ?_
    (by simp [annRecord]) (by simp [annRecord])
  refine Vault.decode_eq_ok_iff.mpr ⟨"ann", "enc:wp", .broker, .user, "pw", by simp [annRecord],
    by simp [annRecord], ⟨"BROKER", by simp [annRecord], by decide +kernel⟩,
    ⟨"USER", by simp [annRecord], by decide +kernel⟩, by decide +kernel,
    ⟨"ann", "pw", .broker, .user, ∅, ∅⟩, by decide +kernel, ?_⟩
  simp [annRecord, annCredential, withTables, withPermissions]

/-- With one entry that is not blank, ann's record restricts her. -/
theorem restricted_annRecord :
    (annCredential [" ", " orders\n"] ["ΑΣ "]).DrawnFrom (some [" ", " orders\n"]) (some ["ΑΣ "]) ∧
    (annCredential [" ", " orders\n"] ["ΑΣ "]).reaches "orders" = true ∧
    (∀ t, (annCredential [" ", " orders\n"] ["ΑΣ "]).reaches t = true →
      ∃ y ∈ [" ", " orders\n"], trimmed y = t) ∧
    ∀ a, (annCredential [" ", " orders\n"] ["ΑΣ "]).permits a = true →
      ∃ y ∈ ["ΑΣ "], lower (trimmed y) = lower a := by
  have hdrawn := drawnFrom_annRecord [" ", " orders\n"] ["ΑΣ "]
  obtain ⟨hreaches, -, htables, hpermissions⟩ := DrawnFrom.restricted hdrawn
  exact ⟨hdrawn, (hreaches "orders").mpr (.inr (by decide +kernel)),
    htables.mpr (by decide +kernel), hpermissions.mpr (by decide +kernel)⟩

/-- A list may be given, and not be empty, and still leave open what it does not name: a blank entry
is as good as none. -/
theorem not_restricted : ¬∀ (tables permissions : Option (List String)) (x : Credential),
    x.DrawnFrom tables permissions →
      (∀ ts, tables = some ts → ts ≠ [] → ∀ t, x.reaches t = true → ∃ y ∈ ts, trimmed y = t) ∧
      ∀ ps, permissions = some ps → ps ≠ [] →
        ∀ a, x.permits a = true → ∃ y ∈ ps, lower (trimmed y) = lower a := by
  intro h
  have hopen : (annCredential [" "] []).reaches "orders" = true := by decide +kernel
  have hnamed := (h _ _ _ (drawnFrom_annRecord [" "] [])).1 [" "] rfl (by decide) "orders" hopen
  exact absurd hnamed (by decide +kernel)

end Credential

end Gatekeeper
