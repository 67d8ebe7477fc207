import Gatekeeper.Access.Engine
import Gatekeeper.Admin
import Gatekeeper.Cipher.Reversing
import Gatekeeper.Proofs.Access.Token
import Gatekeeper.Proofs.Access.TokenIndex
import Mathlib.Data.List.Nodup

/-!
# Proofs/Access/OwnToken — when a credential is found by its own token

`resolve?_own_token`: among credentials of one component, a credential's own token finds just this
credential, in whatever order they stand, if and only if no other one has the text `name:secret`.
Then every decision that is taken with the token is taken with the credential's own grants.  That is
so whenever no name holds a `:`.

A name may hold one (`not_resolve?_own_token`): `a:b` with the secret `c` and `a` with the secret
`b:c` are two credentials with one token, and the first in the list answers for both.
-/

namespace Gatekeeper

namespace Credential

/-- The text that the token of a credential is made of. -/
def tokenText (c : Credential) : String := c.username ++ ":" ++ c.secret

theorem token_eq_iff {c d : Credential} : c.token = d.token ↔ c.tokenText = d.tokenText :=
  Token.build_eq_iff

/-- No other credential of the list has the text of this one's token. -/
def OwnsToken (c : Credential) (cs : List Credential) : Prop :=
  ∀ d ∈ cs, d.tokenText = c.tokenText → d = c

/-- Where names hold no colon, every credential owns its token. -/
theorem ownsToken_of_no_colon {cs : List Credential} {component : Component}
    (hcomp : ∀ d ∈ cs, d.component = component) (hdistinct : (cs.map identity).Nodup)
    (hcolon : ∀ d ∈ cs, ':' ∉ d.username.toList) {c : Credential} (hc : c ∈ cs) :
    c.OwnsToken cs := by
  intro d hd htext
  obtain ⟨hname, -⟩ := Token.build_injective (hcolon d hd) (hcolon c hc) (token_eq_iff.mpr htext)
  have hidentity : d.identity = c.identity := by
    rw [identity, identity, hname, hcomp d hd, hcomp c hc]
  exact List.inj_on_of_nodup_map hdistinct hd hc hidentity

end Credential

open Credential

/-- The value that a credential presents itself with is resolved to the first credential of its
token. -/
theorem TokenIndex.resolve?_own (ds : List Credential) (c : Credential) :
    (ofList ds).resolve? ["Basic " ++ c.token] = ds.find? fun d => d.token = c.token := by
  have hof : Token.ofHeader? ("Basic " ++ c.token) = some c.token := Token.ofHeader?_build _ _
  rw [resolve?, List.filterMap_cons, hof]
  simp [get?_ofList]

/-- A list finds a credential that owns its token. -/
theorem find?_token_of_owns {cs ds : List Credential} {c : Credential} (hperm : ds.Perm cs)
    (hc : c ∈ cs) (howns : c.OwnsToken cs) : (ds.find? fun d => d.token = c.token) = some c := by
  cases hfind : ds.find? fun d => d.token = c.token with
  | none =>
    have hno := List.find?_eq_none.mp hfind c (hperm.mem_iff.mpr hc)
    simp at hno
  | some d =>
    have htoken : d.token = c.token := by simpa using List.find?_some hfind
    have hd : d ∈ cs := hperm.mem_iff.mp (List.mem_of_find?_eq_some hfind)
    rw [howns d hd (token_eq_iff.mp htoken)]

/-- **A credential is found by its own token, in any order, just if it owns it**; then decisions
taken with the token are taken with the credential's own grants; and where names hold no colon,
every credential does own its token. -/
theorem resolve?_own_token {cs : List Credential} {component : Component}
    (hcomp : ∀ d ∈ cs, d.component = component)
    (hdistinct : (cs.map identity).Nodup) {c : Credential} (hc : c ∈ cs) :
    ((∀ ds : List Credential, ds.Perm cs →
        (TokenIndex.ofList ds).resolve? ["Basic " ++ c.token] = some c) ↔ c.OwnsToken cs) ∧
      (c.OwnsToken cs → ∀ ds : List Credential, ds.Perm cs → ∀ headers request,
        authorizationValues headers = ["Basic " ++ c.token] →
          (Engine.mk ds component).authorize headers request
            = (c.denial? component request).isNone) ∧
      ((∀ d ∈ cs, ':' ∉ d.username.toList) → c.OwnsToken cs) := by
  have hown : c.OwnsToken cs → ∀ ds : List Credential, ds.Perm cs →
      (TokenIndex.ofList ds).resolve? ["Basic " ++ c.token] = some c := by
    intro howns ds hperm
    rw [TokenIndex.resolve?_own, find?_token_of_owns hperm hc howns]
  refine ⟨⟨fun hall d hd htext => ?_, hown⟩, fun howns ds hperm headers request hvalues => ?_,
    fun hcolon => ownsToken_of_no_colon hcomp hdistinct hcolon hc⟩
  · -- with `d` in front, the token of `c` finds `d`
    have hfirst := hall (d :: cs.erase d) (List.perm_cons_erase hd).symm
    rw [TokenIndex.resolve?_own, List.find?_cons, token_eq_iff.mpr htext] at hfirst
    simpa using hfirst
  · have hfilter : (ds.filter fun d => d.component == component) = ds :=
      List.filter_eq_self.mpr fun d hd => by simp [hcomp d (hperm.mem_iff.mp hd)]
    have hresolve : (Engine.mk ds component).resolve? headers = some c := by
      rw [Engine.resolve?, Engine.index, hvalues]
      refine (congrArg (fun l => (TokenIndex.ofList l).resolve? _) hfilter).trans ?_
      exact hown howns ds hperm
    rw [Engine.authorize, hresolve]

/-! ## Names with a colon -/

/-- The user `a:b` with the secret `c`. -/
def colonInName : Credential := ⟨"a:b", "c", .controller, .admin, ∅, ∅⟩

/-- The user `a` with the secret `b:c`. -/
def colonInSecret : Credential := ⟨"a", "b:c", .controller, .user, ∅, ∅⟩

/-- The user `a` with another secret. -/
def noColon : Credential := ⟨"a", "d", .controller, .user, ∅, ∅⟩

/-- Of two credentials that differ in their texts, each is found by its own token. -/
theorem resolve?_own_token_of_two :
    (∀ ds : List Credential, ds.Perm [colonInName, noColon] →
        (TokenIndex.ofList ds).resolve? ["Basic " ++ noColon.token] = some noColon) ∧
      noColon.OwnsToken [colonInName, noColon] := by
  have howns : noColon.OwnsToken [colonInName, noColon] := by
    unfold OwnsToken
    decide
  have h := @resolve?_own_token [colonInName, noColon] .controller (by decide) (by decide) noColon
    (by decide)
  exact ⟨h.1.mpr howns, howns⟩

/-- **A name may hold a colon**, and then a credential need not be found by its own token: both of
these may be added, and the first of them answers for the other. -/
theorem not_resolve?_own_token :
    ¬∀ (cs : List Credential) (component : Component), (∀ d ∈ cs, d.component = component) →
      (cs.map identity).Nodup →
      (∀ d ∈ cs, ∃ a h, ∃ h', Admin.add a d h = (.ok d.identity, h')) →
        ∀ c ∈ cs, (TokenIndex.ofList cs).resolve? ["Basic " ++ c.token] = some c := by
  intro hall
  have hadd : ∀ d ∈ [colonInName, colonInSecret], ∃ a h, ∃ h',
      Admin.add a d h = (.ok d.identity, h') := by
    intro d hd
    refine ⟨⟨"/users", ⟨.reversing, "key"⟩⟩, .empty, _, Prod.ext ?_ rfl⟩
    rcases List.mem_pair.mp hd with rfl | rfl <;> decide +kernel
  have hfound := hall [colonInName, colonInSecret] .controller (by decide) (by decide) hadd
    colonInSecret (by decide)
  have hfirst : (TokenIndex.ofList [colonInName, colonInSecret]).resolve?
      ["Basic " ++ colonInSecret.token] = some colonInName := by
    decide +kernel
  rw [hfirst] at hfound
  exact absurd (Option.some.inj hfound) (by decide)

end Gatekeeper
