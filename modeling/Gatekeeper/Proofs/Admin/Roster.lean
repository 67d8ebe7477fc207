import Gatekeeper.Proofs.Admin.Effective
import Gatekeeper.Proofs.Credential.Shape
import Gatekeeper.Proofs.Hub.PlainMap

/-!
# Proofs/Admin/Roster — an administrator keeps a roster

To whoever asks an administrator, there are no nodes, records or ciphers.  There is a `Roster`: who
has a credential, by name and component, and which.  `Roster.answer` says what is answered to an
`Errand` and what becomes of the roster.

`Admin.answers_eq`: an administrator of an empty store answers any errands, one after another, just
as the roster does that nobody is on at first.  The two are kept together by `Hub.Enrols`: at the
path of everyone's identity there is no node, or the record of the very credential on the roster.
-/

namespace Gatekeeper

open Std (ExtTreeMap)
open Text (trimmed)

/-! ## Errands -/

namespace Admin

/-- Something that is asked of an administrator about one credential. -/
inductive Errand
  | add (x : Credential) (hx : x.Built)
  | addForm (f : UserForm)
  | update (username : String) (component : Component) (x : Credential) (hx : x.Built)
  | delete (username : String) (component : Component)
  | seek (username : String) (component : Component)
  | get (username : String) (component : Component)

/-- What is answered to an errand that is done. -/
inductive Answer
  /-- A credential of this identity has been added. -/
  | added (i : Identity)
  /-- It has been done. -/
  | done
  /-- Whether there is a credential. -/
  | present (b : Bool)
  /-- The credential. -/
  | found (x : Credential)
  deriving DecidableEq

/-- Does an errand. -/
def Errand.answer (a : Admin) : Errand → Hub → Except AdminError Answer × Hub
  | .add x _, h => Prod.map (.map .added) id (a.add x h)
  | .addForm f, h => Prod.map (.map .added) id (a.addForm f h)
  | .update username component x _, h =>
    Prod.map (.map fun _ => .done) id (a.update username component x h)
  | .delete username component, h =>
    Prod.map (.map fun _ => .done) id (a.delete username component h)
  | .seek username component, h => Prod.map (.map .present) id (a.exists? username component h)
  | .get username component, h => Prod.map (.map .found) id (a.get username component h)

/-- The answers to errands that are done one after another. -/
def answers {ι σ : Type} (answer : ι → Errand → σ → Except AdminError Answer × σ) :
    List (ι × Errand) → σ → List (Except AdminError Answer)
  | [], _ => []
  | (i, e) :: es, s => (answer i e s).1 :: answers answer es (answer i e s).2

end Admin

open Admin (Errand Answer)

/-! ## Rosters -/

/-- Who bears a credential: a user, at a component. -/
def Credential.bearer (x : Credential) : String × Component := (x.username, x.component)

/-- Credentials by the name and the component of their bearers. -/
abbrev Roster := String × Component → Option Credential

namespace Roster

/-- Puts a credential on the roster, if its name will do, its secret can be hidden, and its bearer is
not there yet. -/
def add (v : Vault) (x : Credential) (m : Roster) : Except AdminError Answer × Roster :=
  if Admin.mayName x.username then
    match v.hide x.secret with
    | .error e => (.error (.unencodable ⟨x.identity, e⟩), m)
    | .ok _ =>
      if (m x.bearer).isSome then (.error (.duplicate x.identity), m)
      else (.ok (.added x.identity), Function.update m x.bearer (some x))
  else (.error (.badName x.username), m)

/-- Replaces the credential of a bearer who is there, if the other one is for the same bearer and its
secret can be hidden. -/
def update (v : Vault) (bearer : String × Component) (x : Credential) (m : Roster) :
    Except AdminError Answer × Roster :=
  if x.bearer = bearer then
    if (m bearer).isSome then
      match v.hide x.secret with
      | .error e => (.error (.unencodable ⟨x.identity, e⟩), m)
      | .ok _ => (.ok .done, Function.update m bearer (some x))
    else (.error (.notFound (.of bearer.1 bearer.2)), m)
  else (.error (.cannotReplace x.identity (.of bearer.1 bearer.2)), m)

/-- What is answered to an errand, and the roster after it. -/
def answer (v : Vault) : Errand → Roster → Except AdminError Answer × Roster
  | .add x _, m => m.add v x
  | .addForm f, m =>
    match f.credential with
    | .error e => (.error (.rejected e), m)
    | .ok x => m.add v x
  | .update username component x _, m => m.update v (trimmed username, component) x
  | .delete username component, m =>
    if (m (trimmed username, component)).isSome then
      (.ok .done, Function.update m (trimmed username, component) none)
    else (.error (.notFound (.of (trimmed username) component)), m)
  | .seek username component, m => (.ok (.present (m (trimmed username, component)).isSome), m)
  | .get username component, m =>
    match m (trimmed username, component) with
    | none => (.error (.notFound (.of (trimmed username) component)), m)
    | some x => (.ok (.found x), m)

end Roster

/-! ## Calls without faults -/

/-- Nothing is announced that could fail a call or break it off. -/
def Limits.calm : Limits := ⟨fun _ => True, False, fun _ => False⟩

namespace Hub

variable {h : Hub}

theorem Permitted.faults_eq_nil (hp : h.Permitted .calm) : h.link.faults = [] :=
  List.eq_nil_iff_forall_not_mem.mpr fun f hf => hp.faults f hf

/-- A calm hub answers a write as a plain map does. -/
theorem Permitted.submit_eq (hp : h.Permitted .calm) (w : Write) :
    h.submit w = ((h.store.contents.write w).1.mapError .store, (h.write w).2) := by
  rw [submit_of_faultless hp.faults_eq_nil]
  refine Prod.ext ?_ rfl
  have hanswers := answers_write w h
  dsimp only
  generalize (h.store.contents.write w).1 = plain at hanswers ⊢
  generalize (h.write w).1 = result at hanswers ⊢
  cases hanswers with
  | refused e => rfl
  | done b => rfl
  | brokenOff hname => exact absurd hname (hp.unarmed not_false _)

/-- A calm hub is read as a plain map is. -/
theorem Permitted.get_eq (hp : h.Permitted .calm) (path : String) :
    h.get path = (.ok (h.store.contents path), h) := by
  obtain ⟨⟨store, faults⟩, _⟩ := h
  obtain rfl : faults = [] := hp.faults_eq_nil
  rfl

end Hub

/-! ## Keeping the roster -/

variable {ι : Type} {cipher : ι → Cipher} {key parent : String} {h : Hub} {m : Roster}

/-- The administrator below a parent whose calls of the cipher are these. -/
abbrev Admin.calling (parent key : String) (cipher : ι → Cipher) (i : ι) : Admin :=
  ⟨parent, ⟨cipher i, key⟩⟩

/-- The path of the node that stands for a bearer. -/
def bearerPath (parent : String) (p : String × Component) : String :=
  Path.child parent (Identity.of p.1 p.2).text

theorem bearerPath_injective : Function.Injective (bearerPath parent) := fun p q h => by
  obtain ⟨hname, hcomp⟩ := Identity.of_injective (congrArg Identity.mk (Path.child_injective h))
  exact Prod.ext hname hcomp

/-- **The store enrols who is on the roster**: at everyone's path there is no node, or the record of
the credential on the roster. -/
structure Hub.Enrols (cipher : ι → Cipher) (key parent : String) (h : Hub) (m : Roster) : Prop where
  /-- Nothing is announced that could fail a call. -/
  calm : h.Permitted .calm
  /-- The records of those on the roster, and none of others. -/
  records : ∀ p, Option.Rel (fun r x => ∀ i, (Vault.mk (cipher i) key).decode r = .ok x)
    (h.store.contents (bearerPath parent p)) (m p)

namespace Hub.Enrols

theorem isSome_eq (hh : h.Enrols cipher key parent m) (p : String × Component) :
    (h.store.contents (bearerPath parent p)).isSome = (m p).isSome := by
  have hrel := hh.records p
  generalize h.store.contents (bearerPath parent p) = r at hrel ⊢
  generalize m p = x at hrel ⊢
  cases hrel <;> rfl

theorem exists?_eq (hh : h.Enrols cipher key parent m) (p : String × Component) :
    h.exists? (bearerPath parent p) = (.ok (m p).isSome, h) := by
  rw [exists?, hh.calm.get_eq, ← hh.isSome_eq]
  rfl

/-- **What is written at someone's path is written on the roster**, and nobody else is touched. -/
theorem update (hh : h.Enrols cipher key parent m) {w : Write} {p : String × Component}
    {r : Option Record} {x : Option Credential}
    (hw : (h.store.contents.write w).2 = Function.update h.store.contents (bearerPath parent p) r)
    (hx : Option.Rel (fun r x => ∀ i, (Vault.mk (cipher i) key).decode r = .ok x) r x) :
    (h.write w).2.Enrols cipher key parent (Function.update m p x) where
  calm := hh.calm.write w
  records q := by
    rw [contents_write, hw]
    by_cases hq : q = p
    · rw [hq, Function.update_self, Function.update_self]
      exact hx
    · rw [Function.update_of_ne hq, Function.update_of_ne (bearerPath_injective.ne hq)]
      exact hh.records q

section Writing

variable {p : String × Component} {r : Record} {x : Credential}

theorem submit_create (hh : h.Enrols cipher key parent m)
    (hr : ∀ i, (Vault.mk (cipher i) key).decode r = .ok x) :
    ((m p).isSome = true ∧ h.submit (.create (bearerPath parent p) r)
        = (.error (.store (.nodeExists (bearerPath parent p))), h)) ∨
      ((m p).isSome = false ∧ ∃ h', h.submit (.create (bearerPath parent p) r) = (.ok true, h') ∧
        h'.Enrols cipher key parent (Function.update m p (some x))) := by
  cases hm : (m p).isSome with
  | true =>
    refine .inl ⟨rfl, ?_⟩
    rw [submit_of_faultless hh.calm.faults_eq_nil]
    exact h.mirrors_contents.refused _ r ((hh.isSome_eq p).trans hm)
  | false =>
    have hwrite : h.store.contents.write (.create (bearerPath parent p) r)
        = (.ok true, Function.update h.store.contents (bearerPath parent p) (some r)) := by
      rw [PlainMap.write, hh.isSome_eq, hm]
      rfl
    have hafter : (h.write (.create (bearerPath parent p) r)).2.Enrols cipher key parent
        (Function.update m p (some x)) :=
      hh.update (r := some r) (by rw [hwrite]) (.some hr)
    refine .inr ⟨rfl, _, ?_, hafter⟩
    rw [hh.calm.submit_eq, hwrite]
    rfl

theorem submit_set (hh : h.Enrols cipher key parent m)
    (hr : ∀ i, (Vault.mk (cipher i) key).decode r = .ok x) :
    ∃ h', h.submit (.set (bearerPath parent p) r) = (.ok true, h') ∧
      h'.Enrols cipher key parent (Function.update m p (some x)) := by
  have hwrite : h.store.contents.write (.set (bearerPath parent p) r)
      = (.ok true, Function.update h.store.contents (bearerPath parent p) (some r)) := rfl
  have hafter : (h.write (.set (bearerPath parent p) r)).2.Enrols cipher key parent
      (Function.update m p (some x)) :=
    hh.update (r := some r) (by rw [hwrite]) (.some hr)
  refine ⟨_, ?_, hafter⟩
  rw [hh.calm.submit_eq, hwrite]
  rfl

theorem submit_remove (hh : h.Enrols cipher key parent m) :
    ∃ h', h.submit (.remove (bearerPath parent p)) = (.ok (m p).isSome, h') ∧
      h'.Enrols cipher key parent (Function.update m p none) := by
  have hafter : (h.write (.remove (bearerPath parent p))).2.Enrols cipher key parent
      (Function.update m p none) :=
    hh.update (r := none) (by rw [PlainMap.write]) .none
  refine ⟨_, ?_, hafter⟩
  rw [hh.calm.submit_eq, PlainMap.write, hh.isSome_eq]
  rfl

end Writing

end Hub.Enrols

/-! ## One errand -/

/-- An administrator and a roster have come to the same answer, and may go on from there. -/
structure Concurs (cipher : ι → Cipher) (key parent : String)
    (p : Except AdminError Answer × Hub) (q : Except AdminError Answer × Roster) : Prop where
  answer : p.1 = q.1
  enrols : p.2.Enrols cipher key parent q.2

theorem Concurs.of_enrols (hh : h.Enrols cipher key parent m) {a : Except AdminError Answer} :
    Concurs cipher key parent (a, h) (a, m) :=
  ⟨rfl, hh⟩

namespace Vault

/-- A secret that cannot be hidden makes no record. -/
theorem encode_of_hide_error {v : Vault} {x : Credential} {e : CipherError}
    (h : v.hide x.secret = .error e) : v.encode x = .error ⟨x.identity, e⟩ := by
  rw [encode, h]
  rfl

/-- A secret that can be hidden makes a record that is read as the credential at every call. -/
theorem exists_encode_of_hide (hlaw : Cipher.LawfulThroughout cipher) {i : ι} {x : Credential}
    (hx : x.Built) {hidden : String} (h : (Vault.mk (cipher i) key).hide x.secret = .ok hidden) :
    ∃ r, (Vault.mk (cipher i) key).encode x = .ok r ∧
      ∀ j, (Vault.mk (cipher j) key).decode r = .ok x := by
  obtain ⟨r, hr⟩ := exists_encode_iff.mpr ⟨hidden, h⟩
  refine ⟨r, hr, fun j => decode_of_encode hx.shaped ?_ hr⟩
  exact hlaw i j key x.secret

end Vault

namespace Hub.Enrols

variable (hlaw : Cipher.LawfulThroughout cipher) (hh : h.Enrols cipher key parent m) {i : ι}
include hh

include hlaw in
/-- Adding puts on the roster, or is refused for the same reason. -/
theorem add {x : Credential} (hx : x.Built) : Concurs cipher key parent
    (Prod.map (.map .added) id ((Admin.calling parent key cipher i).add x h))
    (m.add ⟨cipher i, key⟩ x) := by
  have hpath : (Admin.calling parent key cipher i).path x.identity = bearerPath parent x.bearer :=
    rfl
  rw [Admin.add, Roster.add]
  split
  · cases hhide : (Vault.mk (cipher i) key).hide x.secret with
    | error e =>
      rw [Vault.encode_of_hide_error hhide]
      exact .of_enrols hh
    | ok hidden =>
      obtain ⟨r, hr, hread⟩ := Vault.exists_encode_of_hide hlaw hx hhide
      simp only [hr, hpath]
      obtain ⟨hm, hsub⟩ | ⟨hm, h', hsub, hh'⟩ := hh.submit_create (p := x.bearer) hread
      · rw [hsub, if_pos hm]
        exact .of_enrols hh
      · rw [hsub, hm]
        exact .of_enrols hh'
  · exact .of_enrols hh

include hlaw in
/-- Replacing replaces on the roster, or is refused for the same reason. -/
theorem replace {x : Credential} (hx : x.Built) (username : String) (component : Component) :
    Concurs cipher key parent
      (Prod.map (.map fun _ => .done) id
        ((Admin.calling parent key cipher i).update username component x h))
      (m.update ⟨cipher i, key⟩ (trimmed username, component) x) := by
  have hsame : x.identity = Admin.addressed username component
      ↔ x.bearer = (trimmed username, component) :=
    ⟨fun heq => Prod.ext (Identity.of_injective heq).1 (Identity.of_injective heq).2,
      fun heq => congrArg (fun p : String × Component => Identity.of p.1 p.2) heq⟩
  have hpath : (Admin.calling parent key cipher i).path (Admin.addressed username component)
      = bearerPath parent (trimmed username, component) := rfl
  rw [Admin.update, Roster.update, hpath, hh.exists?_eq]
  simp only [hsame]
  split
  · next heq =>
    cases hm : (m (trimmed username, component)).isSome with
    | false => exact .of_enrols hh
    | true =>
      cases hhide : (Vault.mk (cipher i) key).hide x.secret with
      | error e =>
        rw [Vault.encode_of_hide_error hhide]
        exact .of_enrols hh
      | ok hidden =>
        obtain ⟨r, hr, hread⟩ := Vault.exists_encode_of_hide hlaw hx hhide
        obtain ⟨h', hsub, hh'⟩ := hh.submit_set (p := (trimmed username, component)) hread
        simp only [hr, hsub, ↓reduceIte]
        exact .of_enrols hh'
  · exact .of_enrols hh

/-- Deleting takes off the roster, if there is anyone to be taken off. -/
theorem delete (username : String) (component : Component) :
    Concurs cipher key parent
      ((Errand.delete username component).answer (Admin.calling parent key cipher i) h)
      (m.answer ⟨cipher i, key⟩ (.delete username component)) := by
  have hpath : (Admin.calling parent key cipher i).path (Admin.addressed username component)
      = bearerPath parent (trimmed username, component) := rfl
  obtain ⟨h', hsub, hh'⟩ := hh.submit_remove (p := (trimmed username, component))
  rw [Errand.answer, Roster.answer, Admin.delete, hpath, hsub]
  cases hm : m (trimmed username, component) with
  | some x =>
    simp only [Option.isSome_some, ↓reduceIte]
    exact .of_enrols hh'
  | none =>
    rw [← hm, Function.update_eq_self] at hh'
    exact .of_enrols hh'

/-- What is found in the store is what is on the roster. -/
theorem get (username : String) (component : Component) :
    Concurs cipher key parent
      ((Errand.get username component).answer (Admin.calling parent key cipher i) h)
      (m.answer ⟨cipher i, key⟩ (.get username component)) := by
  have hpath : (Admin.calling parent key cipher i).path (Admin.addressed username component)
      = bearerPath parent (trimmed username, component) := rfl
  have hrel := hh.records (trimmed username, component)
  rw [Errand.answer, Roster.answer, Admin.get, hpath, hh.calm.get_eq]
  generalize h.store.contents (bearerPath parent (trimmed username, component)) = r at hrel ⊢
  generalize m (trimmed username, component) = x at hrel ⊢
  cases hrel with
  | none => exact .of_enrols hh
  | @some r x hread =>
    have hdecode : (Admin.calling parent key cipher i).vault.decode r = .ok x := hread i
    simp only [hdecode]
    exact .of_enrols hh

include hlaw in
/-- **An administrator does an errand as the roster does.** -/
theorem errand (e : Errand) : Concurs cipher key parent
    (e.answer (Admin.calling parent key cipher i) h) (m.answer ⟨cipher i, key⟩ e) := by
  cases e with
  | add x hx => exact hh.add hlaw hx
  | addForm f =>
    rw [Errand.answer, Roster.answer, Admin.addForm]
    cases hf : f.credential with
    | error e => exact .of_enrols hh
    | ok x => exact hh.add hlaw (.of_form hf)
  | update username component x hx => exact hh.replace hlaw hx username component
  | delete username component => exact hh.delete username component
  | seek username component =>
    have hpath : (Admin.calling parent key cipher i).path (Admin.addressed username component)
        = bearerPath parent (trimmed username, component) := rfl
    rw [Errand.answer, Roster.answer, Admin.exists?, hpath, hh.exists?_eq]
    exact .of_enrols hh
  | get username component => exact hh.get username component

end Hub.Enrols

/-! ## Errands in turn -/

/-- Errands are answered alike, one after another, wherever the roster is kept. -/
theorem Hub.Enrols.answers (hlaw : Cipher.LawfulThroughout cipher) :
    ∀ (es : List (ι × Errand)) {h : Hub} {m : Roster}, h.Enrols cipher key parent m →
      Admin.answers (fun i e => e.answer (Admin.calling parent key cipher i)) es h
        = Admin.answers (fun i e m => Roster.answer ⟨cipher i, key⟩ e m) es m
  | [], _, _, _ => rfl
  | (i, e) :: es, _, _, hh => by
    obtain ⟨hanswer, hh'⟩ := hh.errand hlaw e (i := i)
    rw [Admin.answers, Admin.answers, hanswer, Hub.Enrols.answers hlaw es hh']

/-- **An administrator keeps a roster.**  Take any parent path, any key, and any cipher that decrypts
what it encrypts, whether or not it does the same at each of its calls; and a store without nodes,
whoever listens to it, where no fault is to come and no listener breaks off.  Whatever an
administrator is then asked about credentials, one thing after another, the answers are those of the
roster that nobody is on at first. -/
theorem Admin.answers_eq (hlaw : Cipher.LawfulThroughout cipher) (parent key : String)
    (hempty : h.store.nodes = ∅) (hfaults : h.link.faults = []) (hunarmed : h.Unarmed)
    (es : List (ι × Errand)) :
    answers (fun i e => e.answer ⟨parent, ⟨cipher i, key⟩⟩) es h
      = answers (fun i e m => Roster.answer ⟨cipher i, key⟩ e m) es fun _ => none := by
  have hcalm : h.Permitted .calm :=
    ⟨fun name hn => hunarmed name hn, fun _ _ _ => trivial, fun f hf => by
      rw [hfaults] at hf
      cases hf⟩
  refine Hub.Enrols.answers hlaw es ⟨hcalm, fun p => ?_⟩
  rw [Store.contents, hempty, ExtTreeMap.getElem?_empty]
  exact .none

/-- The one with a separator in the name, promoted. -/
def promoted : Credential := { separatorInName with role := .admin }

theorem built_separatorInName : separatorInName.Built := by
  have hnew : Credential.new? "x/y" "pw" .broker .user = .ok separatorInName := by decide +kernel
  exact .new hnew

theorem built_promoted : promoted.Built := by
  have hnew : Credential.new? "x/y" "pw" .broker .admin = .ok promoted := by decide +kernel
  exact .new hnew

/-- Someone is added twice, promoted, read, taken for someone else, deleted, and looked for. -/
def promotion : List (Unit × Errand) :=
  [.add separatorInName built_separatorInName, .add promoted built_promoted,
    .update "\tx/y " .broker promoted built_promoted, .get "x/y\n" .broker,
    .update "x/y" .controller promoted built_promoted, .delete "x/y" .broker,
    .seek "x/y" .broker, .addForm (sampleForm "!noenc")].map ((), ·)

/-- The errands are answered so while a cache listens, and by the roster. -/
theorem answers_promotion :
    Admin.answers (fun _ e => e.answer sampleAdmin) promotion startedRun.2
      = [.ok (.added ⟨"x/y_BROKER"⟩), .error (.duplicate ⟨"x/y_BROKER"⟩), .ok .done,
          .ok (.found promoted), .error (.cannotReplace ⟨"x/y_BROKER"⟩ ⟨"x/y_CONTROLLER"⟩),
          .ok .done, .ok (.present false),
          .error (.unencodable ⟨⟨"ann_BROKER"⟩, .encryptFailed⟩)] := by
  have hlaw : Cipher.LawfulThroughout fun _ : Unit => .reversing :=
    fun _ _ => Cipher.reversing_lawful
  have hempty : startedRun.2.store.nodes = ∅ := by decide +kernel
  have hfaults : startedRun.2.link.faults = [] := by decide +kernel
  have hunarmed : startedRun.2.Unarmed := run_started.unarmed
  exact (Admin.answers_eq hlaw "/users" "key" hempty hfaults hunarmed promotion).trans
    (by decide +kernel)

end Gatekeeper
