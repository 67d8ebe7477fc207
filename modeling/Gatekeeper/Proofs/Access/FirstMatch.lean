import Gatekeeper.Proofs.Access.Decision
import Gatekeeper.Proofs.Access.OwnToken
import Mathlib.Data.Finset.Card
import Mathlib.Data.List.Forall2

/-!
# Proofs/Access/FirstMatch — a request is decided by the first credential of the first value

`Engine.authorize_iff` says when a request is granted, without a word of tokens or of an index.  A
value **presents** a credential if its second word is the base64 of `name:secret`, padding aside.
The first `Authorization` value that presents any credential of the component decides, and the first
credential of the list that it presents is meant (`Identifies`): the request is granted just if that
credential allows it.

So values that present nobody make no difference, wherever they stand, nor does anything behind the
value that decides.
-/

namespace Gatekeeper

/-! ## Values that present a credential -/

namespace Credential

/-- **The value presents the credential**: its second word, the padding signs left out, is the base64
of the text `name:secret` without padding. -/
def PresentedBy (c : Credential) (value : String) : Prop :=
  ∃ w, (Text.words value.toList)[1]? = some w ∧
    w.filter (· ≠ '=') = Text.Base64.encode (Text.Base64.utf8 c.tokenText)

/-- To present a credential is to carry its token. -/
theorem presentedBy_iff {c : Credential} {value : String} :
    c.PresentedBy value ↔ Token.ofHeader? value = some c.token := by
  have hne : c.token ≠ "" := fun h => Token.build_ne_nil c.username c.secret (congrArg _ h)
  rw [Token.ofHeader?_eq_some_iff, and_iff_right hne, PresentedBy, token, Token.build,
    String.toList_ofList, tokenText]

instance (c : Credential) (value : String) : Decidable (c.PresentedBy value) :=
  decidable_of_iff _ presentedBy_iff.symm

end Credential

/-- **Whom the values mean**: of the values that present a credential of the component the first one
decides, and of the credentials of the component that it presents the first one is meant. -/
def Identifies (cs : List Credential) (component : Component) (values : List String)
    (p : Credential) : Prop :=
  ∃ before value after front back, values = before ++ value :: after ∧ cs = front ++ p :: back ∧
    p.component = component ∧ p.PresentedBy value ∧
    (∀ v ∈ before, ∀ x ∈ cs, x.component = component → ¬x.PresentedBy v) ∧
      ∀ x ∈ front, x.component = component → ¬x.PresentedBy value

/-- The first credential of the component that a value presents. -/
def presented? (cs : List Credential) (component : Component) (value : String) :
    Option Credential :=
  cs.find? fun x => x.component = component ∧ x.PresentedBy value

theorem presented?_eq_none_iff {cs : List Credential} {component : Component} {value : String} :
    presented? cs component value = none ↔
      ∀ x ∈ cs, x.component = component → ¬x.PresentedBy value := by
  simp [presented?]

/-- **The first value that presents anyone names whoever is meant.** -/
theorem findSome?_presented?_eq_some_iff {cs : List Credential} {component : Component}
    {values : List String} {p : Credential} :
    values.findSome? (presented? cs component) = some p ↔ Identifies cs component values p := by
  simp only [List.findSome?_eq_some_iff, presented?_eq_none_iff]
  constructor
  · rintro ⟨before, value, after, rfl, hp, hbefore⟩
    obtain ⟨hp, front, back, hcs, hfront⟩ := List.find?_eq_some_iff_append.mp hp
    obtain ⟨hcomp, hpresented⟩ := of_decide_eq_true hp
    exact ⟨before, value, after, front, back, rfl, hcs, hcomp, hpresented, hbefore,
      fun x hx hxcomp hxp => by simpa [hxcomp, hxp] using hfront x hx⟩
  · rintro ⟨before, value, after, front, back, rfl, rfl, hcomp, hpresented, hbefore, hfront⟩
    refine ⟨before, value, after, rfl, List.find?_eq_some_iff_append.mpr ⟨?_, front, back, rfl, ?_⟩,
      hbefore⟩
    · exact decide_eq_true ⟨hcomp, hpresented⟩
    · intro x hx
      simpa [or_iff_not_imp_left] using hfront x hx

/-! ## The index behind an engine -/

namespace TokenIndex

/-- **An index resolves values to the first credential of the first of them.** -/
theorem resolve?_ofList (cs : List Credential) (values : List String) :
    (ofList cs).resolve? values =
      values.findSome? fun v => cs.find? fun c => decide (c.PresentedBy v) := by
  have hvalue : ∀ v, (Token.ofHeader? v).bind (ofList cs).get?
      = cs.find? fun c => decide (c.PresentedBy v) := by
    intro v
    simp only [Credential.presentedBy_iff]
    cases Token.ofHeader? v with
    | none => exact (List.find?_eq_none.mpr fun c _ => by simp).symm
    | some t => simp [get?_ofList, eq_comm]
  rw [resolve?, ← List.head?_filterMap, List.filterMap_filterMap, ← List.head?_filterMap]
  exact congrArg (fun f => (values.filterMap f).head?) (funext hvalue)

theorem mem_byToken_ofList {cs : List Credential} {t : String} :
    t ∈ (ofList cs).byToken ↔ t ∈ cs.map Credential.token := by
  have hfind : (ofList cs).byToken[t]? = cs.find? fun c => c.token = t := get?_ofList cs t
  rw [Std.ExtTreeMap.mem_iff_isSome_getElem?, hfind, List.find?_isSome]
  simp

/-- **An index is as large as there are texts of tokens.** -/
theorem size_ofList (cs : List Credential) :
    (ofList cs).size = (cs.map Credential.tokenText).toFinset.card := by
  -- a token is made of its text, one by one
  let build : String → String := fun text =>
    String.ofList (Text.Base64.encode (Text.Base64.utf8 text))
  have hbuild : Function.Injective build := fun s t h =>
    Text.Base64.utf8_injective (Text.Base64.encode_injective (String.ofList_injective h))
  have hnodup : (ofList cs).byToken.keys.Nodup :=
    (ofList cs).byToken.distinct_keys.imp fun hne heq => hne (Std.compare_eq_iff_eq.mpr heq)
  have hkeys : (ofList cs).byToken.keys.toFinset
      = (cs.map Credential.tokenText).toFinset.image build := by
    ext t
    rw [List.mem_toFinset, Std.ExtTreeMap.mem_keys, mem_byToken_ofList]
    simp [build, Credential.token, Token.build, Credential.tokenText]
  calc (ofList cs).size = (ofList cs).byToken.keys.length := Std.ExtTreeMap.length_keys.symm
    _ = (ofList cs).byToken.keys.toFinset.card := (List.toFinset_card_of_nodup hnodup).symm
    _ = (cs.map Credential.tokenText).toFinset.card := by
      rw [hkeys, Finset.card_image_of_injective _ hbuild]

end TokenIndex

/-! ## Headers -/

/-- The values of the fields that are named `Authorization`, in whatever case, in order, as texts.
Those that hold a byte beyond ASCII are skipped. -/
def authorizationTexts (fields : List (String × List UInt8)) : List String :=
  fields.filterMap fun (name, value) =>
    if Text.sameLetters name "Authorization" ∧ value.all (· < 0x80) then
      some (String.ofList (value.map fun b => Char.ofNat b.toNat))
    else none

/-- A field is named `Authorization` in some case if its header has that name. -/
theorem Header.name_eq_authorization_iff {name : String} {value : List UInt8} {h : Header}
    (hnew : Header.new? name value = .ok h) :
    h.value = value ∧ (h.name = authorization ↔ Text.sameLetters name "Authorization" = true) := by
  rw [new?, nameOf?] at hnew
  split at hnew
  · cases hnew
  · next n hn =>
    obtain ⟨-, hn⟩ := Option.ite_none_right_eq_some.mp hn
    obtain rfl := Option.some.inj hn
    split at hnew
    · cases hnew
      have hlower : "Authorization".toList.map Char.toLower = authorization.toList := by decide
      refine ⟨rfl, ?_⟩
      rw [Text.sameLetters_iff, hlower, ← String.toList_inj, String.toList_ofList]
    · cases hnew

/-- **The values that may carry a token**, read off the fields as they were given. -/
theorem authorizationValues_eq {fields : List (String × List UInt8)} {headers : List Header}
    (hnew : List.Forall₂ (fun f h => Header.new? f.1 f.2 = .ok h) fields headers) :
    authorizationValues headers = authorizationTexts fields := by
  rw [authorizationValues, List.filterMap_filter, authorizationTexts]
  induction hnew with
  | nil => rfl
  | @cons f h fields headers hfield _ ih =>
    obtain ⟨hvalue, hname⟩ := Header.name_eq_authorization_iff hfield
    have hhead : (if h.name == Header.authorization then Header.text? h.value else none)
        = if Text.sameLetters f.1 "Authorization" ∧ f.2.all (· < 0x80) then
            some (String.ofList (f.2.map fun b => Char.ofNat b.toNat))
          else none := by
      simp only [Header.text?, hvalue, ← ite_and, beq_iff_eq, hname]
    rw [List.filterMap_cons, List.filterMap_cons, hhead, ih]

/-- The header has a value that presents the credential. -/
def Header.Presents (h : Header) (c : Credential) : Prop :=
  ∃ value ∈ authorizationValues [h], c.PresentedBy value

theorem authorizationValues_append_cons (front back : List Header) (h : Header) :
    authorizationValues (front ++ h :: back)
      = authorizationValues front ++ (authorizationValues [h] ++ authorizationValues back) := by
  simp only [authorizationValues, ← List.filterMap_append, ← List.filter_append,
    List.singleton_append]

/-! ## The decision -/

namespace Engine

variable {cs : List Credential} {component : Component}

/-- **An engine over a list resolves headers to whom their values mean.** -/
theorem resolve?_list (headers : List Header) : (Engine.mk cs component).resolve? headers
    = (authorizationValues headers).findSome? (presented? cs component) := by
  have hindex : (Engine.mk cs component).index
      = .ofList (cs.filter fun c => c.component == component) := rfl
  rw [resolve?, hindex, TokenIndex.resolve?_ofList]
  refine congrArg (List.findSome? · _) (funext fun value => ?_)
  rw [List.find?_filter, presented?]
  simp

/-- What headers resolve to decides. -/
theorem authorize_congr {hs gs : List Header} {request : Request} {e : Engine (List Credential)}
    (h : e.resolve? hs = e.resolve? gs) : e.authorize hs request = e.authorize gs request := by
  rw [authorize, authorize, h]

theorem findSome?_presents {h : Header} :
    ((authorizationValues [h]).findSome? (presented? cs component)).isSome ↔
      ∃ x ∈ cs, x.component = component ∧ h.Presents x := by
  rw [List.findSome?_isSome_iff]
  constructor
  · rintro ⟨value, hvalue, hsome⟩
    obtain ⟨x, hx, hpresented⟩ := List.find?_isSome.mp hsome
    obtain ⟨hcomp, hpresented⟩ := of_decide_eq_true hpresented
    exact ⟨x, hx, hcomp, value, hvalue, hpresented⟩
  · rintro ⟨x, hx, hcomp, value, hvalue, hpresented⟩
    exact ⟨value, hvalue, List.find?_isSome.mpr ⟨x, hx, decide_eq_true ⟨hcomp, hpresented⟩⟩⟩

/-- **When a request is granted.**  An engine over a list grants a request just if the values of the
`Authorization` fields mean a credential of its component that allows the request.  A header that
presents no such credential makes no difference wherever it stands, and neither does what stands
behind a header that does.  The index has one entry for each text `name:secret` of the
component. -/
theorem authorize_iff (cs : List Credential) (component : Component)
    {fields : List (String × List UInt8)} {headers : List Header}
    (hnew : List.Forall₂ (fun f h => Header.new? f.1 f.2 = .ok h) fields headers)
    (request : Request) :
    ((Engine.mk cs component).authorize headers request = true ↔
        ∃ p, Identifies cs component (authorizationTexts fields) p ∧ p.Allows component request) ∧
      (∀ front h back, (∀ x ∈ cs, x.component = component → ¬h.Presents x) →
        (Engine.mk cs component).authorize (front ++ h :: back) request
          = (Engine.mk cs component).authorize (front ++ back) request) ∧
      (∀ front h back back', (∃ x ∈ cs, x.component = component ∧ h.Presents x) →
        (Engine.mk cs component).authorize (front ++ h :: back) request
          = (Engine.mk cs component).authorize (front ++ h :: back') request) ∧
      (Engine.mk cs component).index.size
        = ((cs.filter fun x => x.component = component).map Credential.tokenText).toFinset.card := by
  refine ⟨?_, fun front h back hno => ?_, fun front h back back' hsome => ?_, ?_⟩
  · rw [authorize, resolve?_list, authorizationValues_eq hnew]
    simp only [← findSome?_presented?_eq_some_iff, ← Credential.denial?_eq_none_iff]
    cases (authorizationTexts fields).findSome? (presented? cs component) with
    | none => simp
    | some p => simp
  · have hnone : (authorizationValues [h]).findSome? (presented? cs component) = none := by
      refine Option.not_isSome_iff_eq_none.mp fun hsome => ?_
      obtain ⟨x, hx, hcomp, hpresents⟩ := findSome?_presents.mp hsome
      exact hno x hx hcomp hpresents
    refine authorize_congr ?_
    have happend : authorizationValues (front ++ back)
        = authorizationValues front ++ authorizationValues back := by
      simp only [authorizationValues, List.filter_append, List.filterMap_append]
    rw [resolve?_list, resolve?_list, authorizationValues_append_cons, happend,
      List.findSome?_append, List.findSome?_append, List.findSome?_append, hnone, Option.none_or]
  · obtain ⟨p, hp⟩ := Option.isSome_iff_exists.mp (findSome?_presents.mpr hsome)
    refine authorize_congr ?_
    rw [resolve?_list, resolve?_list, authorizationValues_append_cons,
      authorizationValues_append_cons, List.findSome?_append, List.findSome?_append,
      List.findSome?_append, List.findSome?_append, hp, Option.some_or, Option.some_or]
  · have hcredentials : CredentialSource.credentials cs component
        = cs.filter fun x => x.component = component :=
      List.filter_congr fun x _ => beq_eq_decide x.component component
    rw [index, TokenIndex.size_ofList, hcredentials]

end Engine

/-- A field of another name, one with bytes beyond ASCII, and one with padding all over its token and
a word behind it. -/
def paddedFields : List (String × List UInt8) :=
  [("X-Token", "Basic YTpiOmM".toUTF8.data.toList),
    ("AUTHORIZATION", "Basic YTpiOmM é".toUTF8.data.toList),
    ("authoriZation", "\tBearer  =YTpi=OmM== x".toUTF8.data.toList)]

/-- The headers that these fields make. -/
def paddedHeaders : List Header := paddedFields.filterMap fun f => (Header.new? f.1 f.2).toOption

/-- Of two credentials with one text, it is the first in the list that is meant. -/
theorem authorize_padded :
    List.Forall₂ (fun f h => Header.new? f.1 f.2 = .ok h) paddedFields paddedHeaders ∧
      (Engine.mk [colonInSecret, colonInName] .controller).authorize paddedHeaders .admin = false ∧
      ¬(∃ p, Identifies [colonInSecret, colonInName] .controller (authorizationTexts paddedFields) p
        ∧ p.Allows .controller .admin) ∧
      ∃ p, Identifies [colonInSecret, colonInName] .controller (authorizationTexts paddedFields) p
        ∧ p.Allows .controller (.table "orders") := by
  have hnew : List.Forall₂ (fun f h => Header.new? f.1 f.2 = .ok h) paddedFields paddedHeaders :=
    .cons (by decide +kernel) (.cons (by decide +kernel) (.cons (by decide +kernel) .nil))
  have hadmin : (Engine.mk [colonInSecret, colonInName] .controller).authorize paddedHeaders .admin
      = false := by
    decide +kernel
  refine ⟨hnew, hadmin, fun hp => ?_, ?_⟩
  · rw [(Engine.authorize_iff _ _ hnew _).1.mpr hp] at hadmin
    cases hadmin
  · exact (Engine.authorize_iff _ _ hnew _).1.mp (by decide +kernel)

end Gatekeeper
