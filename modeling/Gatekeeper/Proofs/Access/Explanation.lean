import Gatekeeper.Proofs.Access.FailClosed
import Gatekeeper.Proofs.Access.Isolation

/-!
# Proofs/Access/Explanation — reasons are true, and give away no secret

Each denial means one thing about whoever is asking: `denial?_eq_some_missingTable_iff` and its like
say which, for a credential, and `Engine.Candid` for the explanations of an engine.  The table is
looked at first, so a missing table is named whether or not the action is missing too.  An action is
put into lower case wherever it is looked at, so it does not matter whether the request already has
it so (`Credential.denial?_tableAction`).

`Engine.candid`: every engine over a list is candid, and so is one over a cache at any point of any
run, in whatever order it lists its credentials.  What an explanation says of whoever is asking, it
says without the secret: two engines whose headers resolve to credentials that differ only there
explain everything alike.
-/

namespace Gatekeeper

open Hub

/-! ## What each denial means -/

/-- The table that a request is about. -/
def Request.table? : Request → Option String
  | .table t | .action t _ => some t
  | .admin | .authenticated => none

namespace Credential

variable {c : Credential} {component : Component} {request : Request}

/-- A credential is not to be taken for one that is unknown. -/
theorem denial?_ne_unresolved : c.denial? component request ≠ some .unresolved := by
  cases request with
  | authenticated => simp [denial?]
  | admin =>
    rw [denial?]
    split <;> simp
  | table t =>
    rw [denial?]
    split <;> simp
  | action t a =>
    rw [denial?]
    repeat' split
    all_goals simp

/-- **A missing table**: the request is about a table that is not granted, and nothing else
matters. -/
theorem denial?_eq_some_missingTable_iff : c.denial? component request = some .missingTable ↔
    ∃ t, request.table? = some t ∧ c.tables ≠ ∅ ∧ t ∉ c.tables := by
  have hdenied : ∀ t, (c.tables ≠ ∅ ∧ t ∉ c.tables) ↔ ¬c.reaches t = true := by
    intro t
    rw [reaches_iff, not_or]
  simp only [hdenied]
  cases request with
  | authenticated => simp [denial?, Request.table?]
  | admin => simp [denial?, Request.table?]
  | table t => simp [denial?, Request.table?]
  | action t a =>
    by_cases ht : c.reaches t <;> by_cases ha : c.permits a <;>
      simp [denial?, Request.table?, ht, ha]

/-- **A missing permission**: the table is granted, and the action is not. -/
theorem denial?_eq_some_missingPermission_iff :
    c.denial? component request = some .missingPermission ↔
      ∃ t a, request = .action t a ∧ (c.tables = ∅ ∨ t ∈ c.tables) ∧
        c.permissions ≠ ∅ ∧ Text.lower a ∉ c.permissions := by
  have hdenied : ∀ a, (c.permissions ≠ ∅ ∧ Text.lower a ∉ c.permissions) ↔ ¬c.permits a = true := by
    intro a
    rw [permits_iff, not_or]
  simp only [hdenied, ← reaches_iff]
  cases request with
  | authenticated => simp [denial?]
  | admin => simp [denial?]
  | table t => simp [denial?]
  | action t a =>
    by_cases ht : c.reaches t <;> by_cases ha : c.permits a <;> simp [denial?, ht, ha]

/-- **A mismatch of roles**: an administrator of the component is needed, and it is none. -/
theorem denial?_eq_some_roleMismatch_iff : c.denial? component request = some .roleMismatch ↔
    request = .admin ∧ ¬(c.role = .admin ∧ c.component = component) := by
  cases request with
  | authenticated => simp [denial?]
  | admin => simp [denial?, hasRole]
  | table t => simp [denial?]
  | action t a =>
    by_cases ht : c.reaches t <;> by_cases ha : c.permits a <;> simp [denial?, ht, ha]

/-- An action is granted or not whatever its case, so putting it into lower case is idle. -/
theorem denial?_tableAction (t a : String) :
    c.denial? component (.tableAction t a) = c.denial? component (.action t a) := by
  have hpermits : c.permits (Text.lower a) = c.permits a := by
    rw [permits, permits, Text.lower_lower]
  rw [Request.tableAction, denial?, denial?, hpermits]

/-! ## Credentials that differ in nothing but their secrets -/

/-- **The two credentials are alike but for their secrets.** -/
structure AlikeButSecret (x y : Credential) : Prop where
  /-- They have one user. -/
  username : x.username = y.username
  /-- They are of one component. -/
  component : x.component = y.component
  /-- They have one role. -/
  role : x.role = y.role
  /-- They grant the same tables. -/
  tables : x.tables = y.tables
  /-- They grant the same permissions. -/
  permissions : x.permissions = y.permissions

/-- Of two that are alike, one is the other with its own secret. -/
theorem AlikeButSecret.eq_with {x y : Credential} (h : x.AlikeButSecret y) :
    x = { y with secret := x.secret } := by
  cases x
  cases y
  obtain ⟨rfl, rfl, rfl, rfl, rfl⟩ := h
  rfl

/-- The secret has no part in what is denied. -/
theorem denial?_withSecret (c : Credential) (s : String) (component : Component)
    (request : Request) :
    { c with secret := s }.denial? component request = c.denial? component request := by
  cases request <;> rfl

end Credential

/-! ## What an engine explains -/

namespace Engine

variable {σ : Type} [CredentialSource σ] {e : Engine σ} {headers : List Header}

/-- To whoever is unknown, the same is said on every request. -/
theorem explain_of_none (h : e.resolve? headers = none) (request : Request) :
    e.explain headers request = ⟨false, none, request,
      s!"No {e.component.word} credential matches the Authorization header", some .unresolved⟩ := by
  rw [explain, h]

/-- What is said to somebody who is known. -/
theorem explain_of_some {x : Credential} (h : e.resolve? headers = some x) (request : Request) :
    e.explain headers request = ⟨(x.denial? e.component request).isNone, some x.username, request,
      match x.denial? e.component request with
      | none => s!"Principal '{x.username}' is granted the request"
      | some d => refusalText x e.component request d,
      x.denial? e.component request⟩ := by
  rw [explain, h]
  cases hd : x.denial? e.component request <;> simp [hd]

/-- An explanation names the denial of whoever is asking. -/
theorem denial_explain_of_some {x : Credential} (h : e.resolve? headers = some x)
    (request : Request) :
    (e.explain headers request).denial = x.denial? e.component request := by
  rw [explain_of_some h]

/-- **The engine is candid**: all ways to ask it agree, and what it names as the reason for a denial
is so. -/
structure Candid (e : Engine σ) : Prop where
  /-- What is explained to be granted is granted. -/
  granted : ∀ headers request, (e.explain headers request).granted = e.authorize headers request
  /-- No reason is named just for what is granted. -/
  denial_eq_none_iff : ∀ headers request,
    (e.explain headers request).denial = none ↔ e.authorize headers request = true
  /-- The name is that of whoever is asking. -/
  principal : ∀ headers request,
    (e.explain headers request).principal = (e.resolve? headers).map Credential.username
  /-- The request is what was asked. -/
  request : ∀ headers request, (e.explain headers request).request = request
  /-- Nobody is known. -/
  unresolved_iff : ∀ headers request,
    (e.explain headers request).denial = some .unresolved ↔ e.resolve? headers = none
  /-- Somebody is known, and the request is about a table that is not granted. -/
  missingTable_iff : ∀ headers request, (e.explain headers request).denial = some .missingTable ↔
    ∃ x t, e.resolve? headers = some x ∧ request.table? = some t ∧ x.tables ≠ ∅ ∧ t ∉ x.tables
  /-- Somebody is known, the table is granted, and the action is not. -/
  missingPermission_iff : ∀ headers request,
    (e.explain headers request).denial = some .missingPermission ↔
      ∃ x t a, e.resolve? headers = some x ∧ request = .action t a ∧
        (x.tables = ∅ ∨ t ∈ x.tables) ∧ x.permissions ≠ ∅ ∧ Text.lower a ∉ x.permissions
  /-- Somebody is known and no administrator, and the request needs one. -/
  roleMismatch_iff : ∀ headers request, (e.explain headers request).denial = some .roleMismatch ↔
    request = .admin ∧ ∃ x, e.resolve? headers = some x ∧ x.role ≠ .admin
  /-- To ask for a table is to request it. -/
  mayRead : ∀ headers t, e.mayRead headers t = e.authorize headers (.table t)
  /-- To ask for an action is to request it. -/
  mayAct : ∀ headers t a, e.mayAct headers t a = e.authorize headers (.action t a)
  /-- To ask for an administrator is to request one. -/
  isAdmin : ∀ headers, e.isAdmin headers = e.authorize headers .admin
  /-- To ask for somebody known is to request it. -/
  isKnown : ∀ headers, e.isKnown headers = e.authorize headers .authenticated
  /-- It does not matter whether the action is in lower case. -/
  tableAction : ∀ headers t a,
    e.authorize headers (.tableAction t a) = e.authorize headers (.action t a) ∧
      (e.explain headers (.tableAction t a)).denial = (e.explain headers (.action t a)).denial

theorem authorize_tableAction (e : Engine σ) (headers : List Header) (t a : String) :
    e.authorize headers (.tableAction t a) = e.authorize headers (.action t a) := by
  simp only [authorize, Credential.denial?_tableAction]

/-- **An engine that knows its own component alone is candid.** -/
theorem Candid.of_confined (he : e.Confined) : e.Candid where
  granted headers request := by
    rw [authorize]
    cases hx : e.resolve? headers with
    | none => rw [explain_of_none hx]
    | some x => rw [explain_of_some hx]
  denial_eq_none_iff headers request := by
    rw [authorize]
    cases hx : e.resolve? headers with
    | none => simp [explain_of_none hx]
    | some x => simp [explain_of_some hx]
  principal headers request := by
    cases hx : e.resolve? headers with
    | none => rw [explain_of_none hx, Option.map_none]
    | some x => rw [explain_of_some hx, Option.map_some]
  request headers request := by
    cases hx : e.resolve? headers with
    | none => rw [explain_of_none hx]
    | some x => rw [explain_of_some hx]
  unresolved_iff headers request := by
    cases hx : e.resolve? headers with
    | none => simp [explain_of_none hx]
    | some x => simp [denial_explain_of_some hx, Credential.denial?_ne_unresolved]
  missingTable_iff headers request := by
    cases hx : e.resolve? headers with
    | none => simp [explain_of_none hx]
    | some x =>
      rw [denial_explain_of_some hx, Credential.denial?_eq_some_missingTable_iff]
      simp
  missingPermission_iff headers request := by
    cases hx : e.resolve? headers with
    | none => simp [explain_of_none hx]
    | some x =>
      rw [denial_explain_of_some hx, Credential.denial?_eq_some_missingPermission_iff]
      simp
  roleMismatch_iff headers request := by
    cases hx : e.resolve? headers with
    | none => simp [explain_of_none hx]
    | some x =>
      rw [denial_explain_of_some hx, Credential.denial?_eq_some_roleMismatch_iff,
        he.component_eq headers x hx]
      simp
  mayRead _ _ := rfl
  mayAct := authorize_tableAction e
  isAdmin _ := rfl
  isKnown _ := rfl
  tableAction headers t a := by
    refine ⟨authorize_tableAction e headers t a, ?_⟩
    cases hx : e.resolve? headers with
    | none => rw [explain_of_none hx, explain_of_none hx]
    | some x =>
      rw [denial_explain_of_some hx, denial_explain_of_some hx, Credential.denial?_tableAction]

/-- **An explanation does not depend on the secret**, nor on where the credential comes from. -/
theorem explain_congr {τ : Type} [CredentialSource τ] (e : Engine σ) (e' : Engine τ)
    {headers headers' : List Header} (hcomponent : e.component = e'.component)
    (h : Option.Rel Credential.AlikeButSecret (e.resolve? headers) (e'.resolve? headers'))
    (request : Request) : e.explain headers request = e'.explain headers' request := by
  cases hx : e.resolve? headers with
  | none =>
    cases hy : e'.resolve? headers' with
    | none => rw [explain_of_none hx, explain_of_none hy, hcomponent]
    | some y =>
      rw [hx, hy] at h
      cases h
  | some x =>
    cases hy : e'.resolve? headers' with
    | none =>
      rw [hx, hy] at h
      cases h
    | some y =>
      rw [hx, hy] at h
      obtain ⟨halike⟩ := h
      have hsecret := halike.eq_with
      generalize x.secret = s at hsecret
      subst hsecret
      rw [explain_of_some hx, explain_of_some hy, hcomponent, Credential.denial?_withSecret]
      rfl

/-- **Explanations are true and keep secrets.**  An engine over a list is candid, and so is one over
a cache at any point of any run, in whatever order the cache lists its credentials.  And whatever two
engines of one component rest on, if their headers resolve to credentials that are alike but for
their secrets, or to none, they explain every request alike. -/
theorem candid (component : Component) :
    (∀ cs : List Credential, (Engine.mk cs component).Candid) ∧
    (∀ (z : Limits) (log : List Deed) (h : Hub), Run z log h → ∀ (id : Nat) (c : Cache),
      h.caches[id]? = some c → (Engine.mk c component).Candid) ∧
    ∀ (σ τ : Type) [CredentialSource σ] [CredentialSource τ] (source : σ) (source' : τ)
      (headers headers' : List Header),
      Option.Rel Credential.AlikeButSecret ((Engine.mk source component).resolve? headers)
        ((Engine.mk source' component).resolve? headers') →
      ∀ request, (Engine.mk source component).explain headers request
        = (Engine.mk source' component).explain headers' request := by
  refine ⟨fun cs => .of_confined (confined_list cs component), fun z log h hr id c hid => ?_,
    fun σ τ _ _ source source' headers headers' halike request => ?_⟩
  · exact .of_confined ((hr.course.lasts (Cache.lasting_keyed z id) c hid).confined component)
  · exact explain_congr ⟨source, component⟩ ⟨source', component⟩ rfl halike request

/-- Ann at a broker, who may read one table. -/
def annReader (secret : String) : Credential :=
  ⟨"ann", secret, .broker, .user, Credential.tablesOf ["orders"], Credential.permissionsOf ["READ"]⟩

/-- The header that carries the token of `ann:secret`. -/
def secretHeaders : List Header :=
  [⟨Header.authorization, "Basic YW5uOnNlY3JldA".toUTF8.data.toList⟩]

/-- In the small run an engine over the cache names the table that ann is not granted, and over a
list she is told the same with one secret as with another. -/
theorem candid_sample : ∃ c, sampleRun.2.caches[0]? = some c ∧
    (Engine.mk c .broker).Candid ∧
    ((Engine.mk c .broker).explain sampleHeaders (.action "bills" "Read")).denial
      = some .missingTable ∧
    ∀ request, (Engine.mk [annReader "pw"] .broker).explain sampleHeaders request
      = (Engine.mk [annReader "secret"] .broker).explain secretHeaders request := by
  have hstate : (sampleRun.2.caches[0]?.any fun c =>
      ((Engine.mk c .broker).explain sampleHeaders (.action "bills" "Read")).denial
        = some .missingTable) = true := by
    decide +kernel
  obtain ⟨c, hid, hdenial⟩ := (Option.any_eq_true _ _).mp hstate
  obtain ⟨-, hcache, hsecret⟩ := candid .broker
  refine ⟨c, hid, hcache _ _ _ run_sample 0 c hid, of_decide_eq_true hdenial,
    hsecret _ _ _ _ sampleHeaders secretHeaders ?_⟩
  have hfirst : (Engine.mk [annReader "pw"] .broker).resolve? sampleHeaders
      = some (annReader "pw") := by
    decide +kernel
  have hsecond : (Engine.mk [annReader "secret"] .broker).resolve? secretHeaders
      = some (annReader "secret") := by
    decide +kernel
  rw [hfirst, hsecond]
  exact .some ⟨rfl, rfl, rfl, rfl, rfl⟩

end Engine

end Gatekeeper
