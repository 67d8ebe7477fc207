import Gatekeeper.Proofs.Record.Format
import Gatekeeper.Proofs.Text.LetterCase

/-!
# Proofs/Record/RoundTrip — a credential reads back from its record

Texts are put into shape when a credential is built (`Credential.Built.shaped`), and decoding builds
the credential once more.  What is in shape already is left alone, so a record decodes to the very
credential it was written for (`Vault.decode_encode`), as long as the cipher is lawful.

The cipher need not do the same at each of its calls: `Vault.roundTrip` asks only that what it
encrypts at one call it decrypts at any other (`Cipher.LawfulThroughout`).  A credential that was
decoded has been built too (`Built.of_decode`), so decoding and encoding in turn comes to rest after
one round.
-/

namespace Gatekeeper

open Std (ExtTreeSet)
open Text (trimmed lower)

namespace Credential

/-! ## Built credentials -/

/-- **A credential that was built**: `new?` made it, and it was given its grants by `withTables` and
`withPermissions`. -/
inductive Built : Credential → Prop
  | new {username secret : String} {component : Component} {role : Role} {x : Credential}
      (h : new? username secret component role = .ok x) : Built x
  | withTables {x : Credential} (hx : Built x) (texts : List String) : Built (x.withTables texts)
  | withPermissions {x : Credential} (hx : Built x) (texts : List String) :
      Built (x.withPermissions texts)

/-- The texts of the credential are as building leaves them. -/
structure Shaped (x : Credential) : Prop where
  /-- The name is trimmed. -/
  username : trimmed x.username = x.username
  /-- There is a name. -/
  username_ne : x.username ≠ ""
  /-- The secret is trimmed. -/
  secret : trimmed x.secret = x.secret
  /-- There is a secret. -/
  secret_ne : x.secret ≠ ""
  /-- No table is blank, and all are trimmed. -/
  tables : ∀ t ∈ x.tables, trimmed t = t ∧ t ≠ ""
  /-- No permission is blank, and all are trimmed and in lower case. -/
  permissions : ∀ t ∈ x.permissions, lower (trimmed t) = t ∧ t ≠ ""

/-- Building puts a credential into shape. -/
theorem Built.shaped {x : Credential} (h : x.Built) : x.Shaped := by
  induction h with
  | new h =>
    obtain ⟨hname, hsecret, rfl⟩ := new?_eq_ok_iff.mp h
    exact {
      username := Text.trimmed_trimmed _
      username_ne := hname
      secret := Text.trimmed_trimmed _
      secret_ne := hsecret
      tables := fun t ht => absurd ht ExtTreeSet.not_mem_empty
      permissions := fun t ht => absurd ht ExtTreeSet.not_mem_empty }
  | withTables _ texts ih =>
    refine { ih with tables := fun t ht => ?_ }
    obtain ⟨⟨y, -, rfl⟩, hne⟩ := mem_tablesOf.mp ht
    exact ⟨Text.trimmed_trimmed y, hne⟩
  | withPermissions _ texts ih =>
    refine { ih with permissions := fun t ht => ?_ }
    obtain ⟨⟨y, -, rfl⟩, hne⟩ := mem_permissionsOf.mp ht
    refine ⟨?_, hne⟩
    rw [Text.trimmed_lower_trimmed, Text.lower_lower]

/-- Texts that are left alone, none of them blank, are the grants of any list of them. -/
theorem grants_map_eq {f : String → String} {texts : List String} {s : ExtTreeSet String}
    (hmem : ∀ t, t ∈ texts ↔ t ∈ s) (h : ∀ t ∈ s, f t = t ∧ t ≠ "") :
    grants (texts.map f) = s := by
  refine ExtTreeSet.ext_mem fun t => ?_
  rw [mem_grants, List.mem_map]
  constructor
  · rintro ⟨⟨y, hy, rfl⟩, -⟩
    have hmem : y ∈ s := (hmem y).mp hy
    rwa [(h y hmem).1]
  · intro ht
    exact ⟨⟨t, (hmem t).mpr ht, (h t ht).1⟩, (h t ht).2⟩

/-- **What is in shape is built again as it was**, in whatever order its grants are listed. -/
theorem Shaped.rebuilt_of_mem {x : Credential} (h : x.Shaped) {tables permissions : List String}
    (htables : ∀ t, t ∈ tables ↔ t ∈ x.tables)
    (hpermissions : ∀ a, a ∈ permissions ↔ a ∈ x.permissions) :
    ∃ y, new? x.username x.secret x.component x.role = .ok y ∧
      (y.withTables tables).withPermissions permissions = x := by
  refine ⟨⟨x.username, x.secret, x.component, x.role, ∅, ∅⟩, new?_eq_ok_iff.mpr ?_, ?_⟩
  · rw [h.username, h.secret]
    exact ⟨h.username_ne, h.secret_ne, rfl⟩
  · rw [withPermissions, withTables, permissionsOf, tablesOf, grants_map_eq htables h.tables,
      grants_map_eq hpermissions h.permissions]

theorem Shaped.rebuilt {x : Credential} (h : x.Shaped) :
    ∃ y, new? x.username x.secret x.component x.role = .ok y ∧
      (y.withTables x.tables.toList).withPermissions x.permissions.toList = x :=
  h.rebuilt_of_mem (fun _ => ExtTreeSet.mem_toList) fun _ => ExtTreeSet.mem_toList

end Credential

/-! ## Records -/

namespace Record

@[simp] theorem simple_withList (r : Record) (name : String) (values : List String) :
    (r.withList name values).simple = r.simple := rfl

@[simp] theorem lists_withSimple (r : Record) (name value : String) :
    (r.withSimple name value).lists = r.lists := rfl

end Record

namespace Vault

/-- The record of a credential bears the credential's identity. -/
theorem id_of_encode {v : Vault} {x : Credential} {r : Record} (h : v.encode x = .ok r) :
    r.id = x.identity.text := by
  obtain ⟨hidden, -, hr⟩ := bind_eq_ok_iff.mp h
  cases hr
  rfl

/-- Only the cipher can keep a credential from being encoded. -/
theorem exists_encode_iff {v : Vault} {x : Credential} :
    (∃ r, v.encode x = .ok r) ↔ ∃ hidden, v.hide x.secret = .ok hidden := by
  simp only [encode, bind_eq_ok_iff, mapError_eq_ok_iff]
  constructor
  · rintro ⟨r, hidden, hhide, -⟩
    exact ⟨hidden, hhide⟩
  · rintro ⟨hidden, hhide⟩
    exact ⟨_, hidden, hhide, rfl⟩

/-- What is in shape reads back from its record, if its secret does. -/
theorem decode_of_encode {v w : Vault} {x : Credential} {r : Record} (hx : x.Shaped)
    (hsecret : ∀ hidden, v.hide x.secret = .ok hidden → w.reveal hidden = .ok x.secret)
    (h : v.encode x = .ok r) : w.decode r = .ok x := by
  obtain ⟨hidden, hhide, hr⟩ := bind_eq_ok_iff.mp h
  cases hr
  have hreveal : w.reveal hidden = .ok x.secret := hsecret _ (mapError_eq_ok_iff.mp hhide)
  obtain ⟨y, hy, hbuilt⟩ := hx.rebuilt
  refine decode_eq_ok_iff.mpr ⟨x.username, hidden, x.component, x.role, x.secret, ?_, ?_,
    ⟨x.component.word, ?_, Component.ofText_word _⟩, ⟨x.role.word, ?_, Role.ofText_word _⟩,
    hreveal, y, hy, ?_⟩
  · simp
  · simp
  · simp
  · simp
  · simp [hbuilt]

/-- **A credential reads back from its record.** -/
theorem decode_encode {v : Vault} {x : Credential} {r : Record} (hv : v.cipher.Lawful)
    (hx : x.Shaped) (h : v.encode x = .ok r) : v.decode r = .ok x :=
  decode_of_encode hx (fun _ => hv _ _ _) h

end Vault

/-- A decoded credential was built. -/
theorem Credential.Built.of_decode {v : Vault} {r : Record} {x : Credential}
    (h : v.decode r = .ok x) : x.Built := by
  obtain ⟨u, p, c, o, s, -, -, -, -, -, y, hy, rfl⟩ := Vault.decode_eq_ok_iff.mp h
  exact ((Built.new hy).withTables _).withPermissions _

/-! ## Ciphers that vary -/

/-- A cipher that may do something else at each of its calls is lawful if what it encrypts at one
call it decrypts at any other to the same text. -/
def Cipher.LawfulThroughout {ι : Type} (cipher : ι → Cipher) : Prop :=
  ∀ i j key plain hidden, (cipher i).encrypt key plain = .ok hidden →
    (cipher j).decrypt key hidden = .ok plain

/-- **The round trip of credentials and records.**  Take any key, and any cipher that decrypts what
it encrypts, whether or not it does the same at each of its calls.  A credential that was built can
be encoded if its secret can be encrypted; the record then bears the credential's identity, and
decodes to the credential at every call.  If a record decodes to a credential that can be encoded,
the new record decodes to it again; and where encrypting has one result at all calls, encoding what
the new record decodes to gives the new record. -/
theorem Vault.roundTrip {ι : Type} {cipher : ι → Cipher} (hlaw : Cipher.LawfulThroughout cipher)
    (key : String) :
    (∀ (x : Credential) (i : ι), x.Built →
      ((∃ r, (Vault.mk (cipher i) key).encode x = .ok r) ↔
        ∃ hidden, (cipher i).encrypt key x.secret = .ok hidden) ∧
      ∀ r, (Vault.mk (cipher i) key).encode x = .ok r →
        r.id = x.identity.text ∧ ∀ j, (Vault.mk (cipher j) key).decode r = .ok x) ∧
    ∀ (r r' : Record) (x : Credential) (i j : ι), (Vault.mk (cipher i) key).decode r = .ok x →
      (Vault.mk (cipher j) key).encode x = .ok r' →
        (∀ k, (Vault.mk (cipher k) key).decode r' = .ok x) ∧
        ((∀ m n, (cipher m).encrypt = (cipher n).encrypt) → ∀ k l, ∃ y,
          (Vault.mk (cipher k) key).decode r' = .ok y ∧
            (Vault.mk (cipher l) key).encode y = .ok r') := by
  have hback : ∀ (x : Credential) (r : Record) (i j : ι), x.Built →
      (Vault.mk (cipher i) key).encode x = .ok r → (Vault.mk (cipher j) key).decode r = .ok x := by
    intro x r i j hx h
    refine Vault.decode_of_encode hx.shaped ?_ h
    exact hlaw i j key x.secret
  refine ⟨fun x i hx => ⟨Vault.exists_encode_iff, fun r h => ⟨Vault.id_of_encode h, fun j => ?_⟩⟩,
    fun r r' x i j hdecode hencode => ?_⟩
  · exact hback x r i j hx h
  · have hx := Credential.Built.of_decode hdecode
    refine ⟨fun k => hback x r' j k hx hencode, fun hsame k l => ?_⟩
    have hvault : (Vault.mk (cipher l) key).encode x = (Vault.mk (cipher j) key).encode x := by
      rw [Vault.encode, Vault.encode, Vault.hide, Vault.hide, hsame l j]
    exact ⟨x, hback x r' j k hx hencode, hvault.trans hencode⟩

/-- A cipher that puts one of two letters before the text, whichever it likes. -/
def Cipher.marking (mark : Bool) : Cipher where
  encrypt _ plain := .ok (String.ofList ((if mark then 'b' else 'a') :: plain.toList))
  decrypt _ hidden :=
    match hidden.toList with
    | [] => .error .decryptFailed
    | _ :: plain => .ok (String.ofList plain)

theorem Cipher.lawfulThroughout_marking : Cipher.LawfulThroughout marking := by
  intro i j key plain hidden h
  cases h
  simp [marking]

/-- A credential whose texts had to be put into shape, written with one letter and with the other,
reads back from both records. -/
theorem roundTrip_marking : ∃ x r r', x.Built ∧ x.permissions.toList = ["ας"] ∧
    (Vault.mk (.marking true) "key").encode x = .ok r ∧ r.id = "ann_BROKER" ∧
    (Vault.mk (.marking false) "key").decode r = .ok x ∧
    (Vault.mk (.marking false) "key").encode x = .ok r' ∧ r ≠ r' ∧
    (Vault.mk (.marking true) "key").decode r' = .ok x := by
  have hnew : Credential.new? " ann " "pw\n" .broker .user
      = .ok ⟨"ann", "pw", .broker, .user, ∅, ∅⟩ := by
    decide +kernel
  let x := Credential.withPermissions ⟨"ann", "pw", .broker, .user, ∅, ∅⟩ ["ΑΣ ", " "]
  have hx : x.Built := .withPermissions (.new hnew) _
  have hround := Vault.roundTrip Cipher.lawfulThroughout_marking "key"
  obtain ⟨r, hr⟩ := (hround.1 x true hx).1.mpr ⟨_, rfl⟩
  obtain ⟨hid, hdecode⟩ := (hround.1 x true hx).2 r hr
  obtain ⟨r', hr'⟩ := (hround.1 x false hx).1.mpr ⟨_, rfl⟩
  refine ⟨x, r, r', hx, by decide +kernel, hr, hid.trans (by decide), hdecode false, hr', ?_, ?_⟩
  · rintro rfl
    have hne : (Vault.mk (.marking true) "key").encode x
        ≠ (Vault.mk (.marking false) "key").encode x := by
      decide +kernel
    exact hne (hr.trans hr'.symm)
  · exact (hround.2 r r' x false false (hdecode false) hr').1 true

end Gatekeeper
