import Gatekeeper.Proofs.Cache.Views
import Gatekeeper.Proofs.Hub.Delivery
import Gatekeeper.Proofs.Hub.Run
import Gatekeeper.Proofs.Store.Effect

/-!
# Proofs/Hub/Course — a run in small steps

An act may do many things to a hub: races happen in the middle of it, and an administrator reads
before writing.  A `Trail` takes what an act does apart into steps that each do one thing: something
that nobody notices (`Still`), one write, and the three steps of a start, which are the registration,
the listing given up, and the listed children taken in.  Between the listing and the taking in there
is room for races (`Drift`).  An act that registers a recorder, or takes its registration back, does
so first (`Act.enrol`); the rest of it is a trail (`Act.trail`).

A `Course` is a run in such steps, where no cache notices what recorders do (`Quiet`).  `Run.course`
says that every run is a course, so a property of hubs is kept by every run as soon as it is kept by
every small step.
-/

namespace Gatekeeper

open Std (ExtTreeMap)

namespace Hub

/-- The second hub differs from the first in nothing that a cache could notice.  Recorders may have
been armed, and races announced, within the limits. -/
structure Quiet (z : Limits) (h h' : Hub) : Prop where
  caches : h'.caches = h.caches
  beside : ∀ id, h.link.Beside (.cache id) h'.link
  armed : ∀ name ∈ h'.armed, name ∈ h.armed ∨ z.arming
  races : ∀ p w, .ok w ∈ h'.races p → .ok w ∈ h.races p ∨ z.writes w

/-- The second hub differs from the first in nothing that anyone who listens could notice.  Recorders
may have been armed, and races announced, within the limits. -/
structure Still (z : Limits) (h h' : Hub) : Prop where
  caches : h'.caches = h.caches
  heard : h'.heard = h.heard
  beside : ∀ w, h.link.Beside w h'.link
  armed : ∀ name ∈ h'.armed, name ∈ h.armed ∨ z.arming
  races : ∀ p w, .ok w ∈ h'.races p → .ok w ∈ h.races p ∨ z.writes w

theorem Still.quiet {z : Limits} {h h' : Hub} (hs : Still z h h') : Quiet z h h' :=
  ⟨hs.caches, fun _ => hs.beside _, hs.armed, hs.races⟩

theorem Still.refl (z : Limits) (h : Hub) : Still z h h :=
  ⟨rfl, rfl, fun _ => .refl _ _, fun _ hn => .inl hn, fun _ _ hw => .inl hw⟩

theorem Still.trans {z : Limits} {h₁ h₂ h₃ : Hub} (hs : Still z h₁ h₂) (hs' : Still z h₂ h₃) :
    Still z h₁ h₃ where
  caches := hs'.caches.trans hs.caches
  heard := hs'.heard.trans hs.heard
  beside w := (hs.beside w).trans (hs'.beside w)
  armed name hn := (hs'.armed name hn).elim (hs.armed name) .inr
  races p w hw := (hs'.races p w hw).elim (hs.races p w) .inr

theorem Still.of_link {z : Limits} (h : Hub) {l : Link} (hl : ∀ w, h.link.Beside w l) :
    Still z h { h with link := l } :=
  ⟨rfl, rfl, hl, fun _ hn => .inl hn, fun _ _ hw => .inl hw⟩

theorem Quiet.of_link {z : Limits} (h : Hub) {l : Link} (hl : ∀ id, h.link.Beside (.cache id) l) :
    Quiet z h { h with link := l } :=
  ⟨rfl, hl, fun _ hn => .inl hn, fun _ _ hw => .inl hw⟩

/-- What is announced in a hub is within the limits. -/
structure Permitted (z : Limits) (h : Hub) : Prop where
  armed : ∀ name ∈ h.armed, z.arming
  races : ∀ p w, .ok w ∈ h.races p → z.writes w
  faults : ∀ f ∈ h.link.faults, z.faults f.1

theorem Permitted.quiet {z : Limits} {h h' : Hub} (hp : h.Permitted z) (hq : Quiet z h h') :
    h'.Permitted z where
  armed name hn := (hq.armed name hn).elim (hp.armed name) id
  races p w hw := (hq.races p w hw).elim (hp.races p w) id
  faults f hf := hp.faults f ((hq.beside 0).faults hf)

theorem Permitted.kept {z : Limits} {h h' : Hub} (hp : h.Permitted z) (hk : h.Kept h') :
    h'.Permitted z where
  armed name hn := hp.armed name (hk.armed name hn)
  races p w hw := hp.races p w (by rwa [hk.races] at hw)
  faults f hf := hp.faults f (hk.faults hf)

/-- Where recorders may not be armed, none is. -/
theorem Permitted.unarmed {z : Limits} {h : Hub} (hp : h.Permitted z) (hz : ¬z.arming) :
    h.Unarmed :=
  fun name hn => hz (hp.armed name hn)

/-- A cache begins a start: it is registered for its parent's children. -/
def register (id : Nat) (h : Hub) : Hub :=
  h.changeCache id fun c l => ({ c with phase := .syncing }, l.watchChildren c.parent (.cache id))

/-- The listed children are taken in, and the cache is ready. -/
def settle (id : Nat) (names : List String) (h : Hub) : Hub :=
  h.changeCache id fun c l =>
    let (c, l) := c.track (.cache id) names l
    ({ c with phase := .ready, stamped := true }, l)

/-- The cache, if it is there, is listing the children of this node. -/
def Listing (id : Nat) (parent : String) : Hub → Prop :=
  Holds id fun c _ => c.parent = parent ∧ c.phase = .syncing

end Hub

open Hub

/-- Writes, and what nobody notices, from one point of a course to another. -/
inductive Drift (z : Limits) (log : List Deed) (h : Hub) : List Deed → Hub → Prop
  | refl : Drift z log h log h
  | still {log' : List Deed} {h₁ h₂ : Hub} (hd : Drift z log h log' h₁) (hs : Still z h₁ h₂) :
      Drift z log h log' h₂
  | write {log' : List Deed} {h₁ : Hub} {w : Write} (hd : Drift z log h log' h₁)
      (hw : z.writes w) :
      Drift z log h (log' ++ Deed.of w (h₁.write w).1 (h₁.write w).2.caches) (h₁.write w).2

/-- **A trail**: from one point to another in small steps, in which no recorder is registered, and
none takes its registration back. -/
inductive Trail (z : Limits) (log : List Deed) (h : Hub) : List Deed → Hub → Prop
  | refl : Trail z log h log h
  | still {log' : List Deed} {h₁ h₂ : Hub} (ht : Trail z log h log' h₁) (hs : Still z h₁ h₂) :
      Trail z log h log' h₂
  | fault {log' : List Deed} {h₁ : Hub} {call : Call} (f : Fault) (ht : Trail z log h log' h₁)
      (hcall : z.faults call) : Trail z log h log' (h₁.addFault call f)
  | keep {log' : List Deed} {h₁ : Hub} (kept : Nat → Bool) (ht : Trail z log h log' h₁) :
      Trail z log h log' (h₁.keepCaches kept)
  | write {log' : List Deed} {h₁ : Hub} {w : Write} (ht : Trail z log h log' h₁)
      (hw : z.writes w) :
      Trail z log h (log' ++ Deed.of w (h₁.write w).1 (h₁.write w).2.caches) (h₁.write w).2
  | register {log' : List Deed} {h₁ : Hub} {id : Nat} {c : Cache} (ht : Trail z log h log' h₁)
      (hid : h₁.caches[id]? = some c) (hphase : c.phase = .uninitialized) :
      Trail z log h log' (h₁.register id)
  | giveUp {log' : List Deed} {h₁ : Hub} {id : Nat} {parent : String}
      (ht : Trail z log h log' h₁) (hlist : h₁.Listing id parent) :
      Trail z log h log' (h₁.enter id .uninitialized)
  | settle {log₁ log₂ : List Deed} {h₁ h₂ : Hub} {id : Nat} {parent : String}
      (ht₁ : Trail z log h log₁ h₁) (hlist : h₁.Listing id parent) (hd : Drift z log₁ h₁ log₂ h₂)
      (ht : Trail z log h log₂ h₂) : Trail z log h log₂ (h₂.settle id (h₁.store.children parent))

/-- **A course**: a run in small steps. -/
inductive Course (z : Limits) : List Deed → Hub → Prop
  | initial {caches : ExtTreeMap Nat Cache}
      (hnew : ∀ (id : Nat) (c : Cache), caches[id]? = some c →
        c = Cache.fresh c.parent c.vault c.order) :
      Course z [] { Hub.empty with caches }
  | quiet {log : List Deed} {h h' : Hub} (hc : Course z log h) (hq : Quiet z h h') :
      Course z log h'
  | fault {log : List Deed} {h : Hub} {call : Call} (f : Fault) (hc : Course z log h)
      (hcall : z.faults call) : Course z log (h.addFault call f)
  | keep {log : List Deed} {h : Hub} (kept : Nat → Bool) (hc : Course z log h) :
      Course z log (h.keepCaches kept)
  | write {log : List Deed} {h : Hub} {w : Write} (hc : Course z log h) (hw : z.writes w) :
      Course z (log ++ Deed.of w (h.write w).1 (h.write w).2.caches) (h.write w).2
  | register {log : List Deed} {h : Hub} {id : Nat} {c : Cache} (hc : Course z log h)
      (hid : h.caches[id]? = some c) (hphase : c.phase = .uninitialized) :
      Course z log (h.register id)
  | giveUp {log : List Deed} {h : Hub} {id : Nat} {parent : String} (hc : Course z log h)
      (hlist : h.Listing id parent) : Course z log (h.enter id .uninitialized)
  | settle {log₀ log : List Deed} {h₀ h : Hub} {id : Nat} {parent : String}
      (hc₀ : Course z log₀ h₀) (hlist : h₀.Listing id parent) (hd : Drift z log₀ h₀ log h)
      (hc : Course z log h) : Course z log (h.settle id (h₀.store.children parent))

section Steps

variable {z : Limits} {log log₁ log₂ : List Deed} {h h₁ h₂ : Hub}

theorem Drift.trans (hd : Drift z log h log₁ h₁) (hd' : Drift z log₁ h₁ log₂ h₂) :
    Drift z log h log₂ h₂ := by
  induction hd' with
  | refl => exact hd
  | still _ hs ih => exact ih.still hs
  | write _ hw ih => exact ih.write hw

theorem Trail.drift (ht : Trail z log h log₁ h₁) (hd : Drift z log₁ h₁ log₂ h₂) :
    Trail z log h log₂ h₂ := by
  induction hd with
  | refl => exact ht
  | still _ hs ih => exact ih.still hs
  | write _ hw ih => exact ih.write hw

/-- **A course goes on along a trail.** -/
theorem Course.trail (hc : Course z log h) (ht : Trail z log h log₁ h₁) : Course z log₁ h₁ := by
  induction ht with
  | refl => exact hc
  | still _ hs ih => exact ih.quiet hs.quiet
  | fault f _ hcall ih => exact ih.fault f hcall
  | keep kept _ ih => exact ih.keep kept
  | write _ hw ih => exact ih.write hw
  | register _ hid hphase ih => exact ih.register hid hphase
  | giveUp _ hlist ih => exact ih.giveUp hlist
  | settle _ hlist hd _ ih₁ ih => exact ih₁.settle hlist hd ih

theorem Course.drift (hc : Course z log h) (hd : Drift z log h log₁ h₁) : Course z log₁ h₁ :=
  hc.trail (Trail.refl.drift hd)

end Steps

/-! ## What a write does -/

namespace Hub

variable {id : Nat} {P : Cache → Link → Prop}

/-- A write keeps what every telling keeps. -/
theorem Holds.deliver {es : List Event} (hs : Stable id P) (hself : ∀ e, Leads id e P P) :
    ∀ {h : Hub}, Holds id P h → Holds id P (Hub.deliver es h).1 := by
  induction es with
  | nil => exact fun hP => hP
  | cons e es ih =>
    intro h hP
    rw [deliver_cons]
    split
    · exact ih (hP.tellAll hs (hself e) _)
    · exact hP.tellAll hs (hself e) _

/-- The result of a write that was delivered. -/
def delivered (done : Bool) : Option String → Except WriteError Bool
  | none => .ok done
  | some name => .error (.brokenOff name)

theorem delivered_eq_ok_iff {done d : Bool} {broken : Option String} :
    delivered done broken = .ok d ↔ broken = none ∧ done = d := by
  cases broken <;> simp [delivered]

theorem delivered_eq_error_iff {done : Bool} {broken : Option String} {e : WriteError} :
    delivered done broken = .error e ↔ ∃ name, broken = some name ∧ .brokenOff name = e := by
  cases broken <;> simp [delivered]

/-- A write has done nothing, or put its effect in place and delivered its events. -/
theorem write_cases (w : Write) (h : Hub) :
    (∃ e, h.store.effect w = .error e ∧ h.write w = (.error (.store e), h)) ∨
      ∃ effect, h.store.effect w = .ok effect ∧
        h.write w =
          (delivered effect.done
            (deliver effect.events { h with link.store := effect.store }).2,
          (deliver effect.events { h with link.store := effect.store }).1) := by
  rw [write]
  split
  · next e herr => exact .inl ⟨e, herr, rfl⟩
  · next effect heff =>
    refine .inr ⟨effect, heff, ?_⟩
    split
    · next hbreak => rw [hbreak, delivered]
    · next hnone => rw [hnone, delivered]

/-- A write that has a result was delivered to the end. -/
theorem write_of_ok {h : Hub} {w : Write} {effect : Effect} (heff : h.store.effect w = .ok effect)
    {done : Bool} (hok : (h.write w).1 = .ok done) :
    (deliver effect.events { h with link.store := effect.store }).2 = none ∧
      (h.write w).2 = (deliver effect.events { h with link.store := effect.store }).1 := by
  obtain ⟨e, herr, -⟩ | ⟨effect', heff', he⟩ := write_cases w h
  · rw [heff] at herr
    cases herr
  · cases heff.symm.trans heff'
    rw [he] at hok ⊢
    exact ⟨(delivered_eq_ok_iff.mp hok).1, rfl⟩

/-- A write that nobody breaks off is its effect, told of to the end. -/
theorem Unarmed.write_of_effect {h : Hub} (hu : h.Unarmed) {w : Write} {effect : Effect}
    (heff : h.store.effect w = .ok effect) :
    h.write w =
      (.ok effect.done, (Hub.deliver effect.events { h with link.store := effect.store }).1) := by
  have hnone : (Hub.deliver effect.events { h with link.store := effect.store }).2 = none :=
    Unarmed.deliver (h := { h with link.store := effect.store }) hu _
  obtain ⟨e, herr, -⟩ | ⟨effect', heff', he⟩ := write_cases w h
  · rw [heff] at herr
    cases herr
  · cases heff.symm.trans heff'
    rw [he, hnone, delivered]

/-- What following the store leaves alone stays as it is in a write. -/
theorem Holds.write_of_akin {Q : Cache → Prop} (hQ : ∀ c c', c.Akin c' → Q c → Q c') {h : Hub}
    (hP : Holds id (fun c _ => Q c) h) (w : Write) :
    Holds id (fun c _ => Q c) (h.write w).2 := by
  obtain ⟨e, -, he⟩ | ⟨effect, -, he⟩ := write_cases w h
  · rwa [he]
  · rw [he]
    refine Holds.deliver (fun _ _ _ _ hq => hq) (fun e c l hq => ?_) hP
    exact hQ c _ (Cache.akin_receive _ e c l) hq

/-- A cache is still there after a write, and differs in no more than what it holds. -/
theorem exists_akin_write {h : Hub} {id : Nat} {c : Cache} (hid : h.caches[id]? = some c)
    (w : Write) : ∃ c', (h.write w).2.caches[id]? = some c' ∧ c.Akin c' := by
  have hsame : Holds id (fun c' _ => c.Akin c') h := holds_of_some hid (.refl c)
  have hpresent : id ∈ (h.write w).2.caches := by
    have hin : id ∈ h.caches := (ExtTreeMap.getElem?_eq_some_iff.mp hid).1
    obtain ⟨e, -, he⟩ | ⟨effect, -, he⟩ := write_cases w h
    · rwa [he]
    · rw [he, (kept_deliver _ _).present]
      exact hin
  exact (hsame.write_of_akin (fun _ _ hk hk' => hk'.trans hk) w).exists_of_mem hpresent

theorem Listing.write {parent : String} {h : Hub} (hl : h.Listing id parent) (w : Write) :
    (h.write w).2.Listing id parent :=
  Holds.write_of_akin (fun _ _ ha hq => ⟨ha.parent_eq.trans hq.1, ha.phase_eq.trans hq.2⟩) hl w

/-- A write leaves alone what is announced. -/
theorem Permitted.write {z : Limits} {h : Hub} (hp : h.Permitted z) (w : Write) :
    (h.write w).2.Permitted z := by
  obtain ⟨e, -, he⟩ | ⟨effect, -, he⟩ := write_cases w h
  · rwa [he]
  · rw [he]
    have hp' : Permitted z { h with link.store := effect.store } :=
      ⟨hp.armed, hp.races, hp.faults⟩
    exact hp'.kept (kept_deliver _ _)

theorem write_races (w : Write) (h : Hub) : (h.write w).2.races = h.races := by
  obtain ⟨e, -, he⟩ | ⟨effect, -, he⟩ := write_cases w h
  · rw [he]
  · rw [he, (kept_deliver _ _).races]

theorem write_raced (w : Write) (h : Hub) : (h.write w).2.raced = h.raced := by
  obtain ⟨e, -, he⟩ | ⟨effect, -, he⟩ := write_cases w h
  · rw [he]
  · rw [he, (kept_deliver _ _).raced]

end Hub

theorem Drift.permitted {z : Limits} {log log' : List Deed} {h h' : Hub}
    (hd : Drift z log h log' h') (hp : h.Permitted z) : h'.Permitted z := by
  induction hd with
  | refl => exact hp
  | still _ hs ih => exact ih.quiet hs.quiet
  | write _ _ ih => exact ih.write _

theorem Drift.listing {z : Limits} {log log' : List Deed} {h h' : Hub} {id : Nat}
    {parent : String} (hd : Drift z log h log' h') (hl : h.Listing id parent) :
    h'.Listing id parent := by
  induction hd with
  | refl => exact hl
  | still _ hs ih => exact fun c hc => ih c (by rwa [hs.caches] at hc)
  | write _ _ ih => exact ih.write _

/-! ## Races -/

namespace Hub

variable {z : Limits}

/-- From one hub to another by races alone, whose reports are all that is new. -/
def Passes (z : Limits) (h h' : Hub) : Prop :=
  ∃ rs, h'.raced = h.raced ++ rs ∧ ∀ log, Drift z log h (log ++ rs.flatMap RaceReport.deeds) h'

theorem Passes.of_still {h h' : Hub} (hs : Still z h h') (hr : h'.raced = h.raced) :
    Passes z h h' :=
  ⟨[], by simp [hr], fun log => by simpa using (Drift.refl : Drift z log h log h).still hs⟩

theorem Passes.trans {h₁ h₂ h₃ : Hub} (hp : Passes z h₁ h₂) (hp' : Passes z h₂ h₃) :
    Passes z h₁ h₃ := by
  obtain ⟨rs, hr, hd⟩ := hp
  obtain ⟨rs', hr', hd'⟩ := hp'
  refine ⟨rs ++ rs', by rw [hr', hr, List.append_assoc], fun log => ?_⟩
  rw [List.flatMap_append, ← List.append_assoc]
  exact (hd log).trans (hd' _)

theorem Passes.permitted {h h' : Hub} (hp : Passes z h h') (hh : h.Permitted z) :
    h'.Permitted z := by
  obtain ⟨rs, -, hd⟩ := hp
  exact (hd []).permitted hh

theorem still_report (h : Hub) (outcome : RaceOutcome) : Still z h (h.report outcome) :=
  ⟨rfl, rfl, fun _ => .refl _ _, fun _ hn => .inl hn, fun _ _ hw => .inl hw⟩

theorem passes_race (h : Hub) {r : Race} (hr : ∀ w, r = .ok w → z.writes w) :
    Passes z h (h.race r) := by
  cases r with
  | error e =>
    refine ⟨[⟨.unwritable e, h.caches⟩], rfl, fun log => ?_⟩
    have hd := (Drift.refl : Drift z log h log h).still (still_report h (.unwritable e))
    rw [List.flatMap_singleton, RaceReport.deeds, List.append_nil]
    exact hd
  | ok w =>
    refine ⟨[⟨.written w (h.write w).1, (h.write w).2.caches⟩], ?_, fun log => ?_⟩
    · exact congrArg (· ++ _) (write_raced w h)
    · have hd := ((Drift.refl : Drift z log h log h).write (hr w rfl)).still
        (still_report (h.write w).2 (.written w (h.write w).1))
      rw [List.flatMap_singleton]
      exact hd

theorem passes_races : ∀ (rs : List Race) (h : Hub), (∀ w, .ok w ∈ rs → z.writes w) →
    Passes z h (rs.foldl race h)
  | [], h, _ => .of_still (.refl z h) rfl
  | r :: rs, h, hrs =>
    (passes_race h fun w hw => hrs w (by simp [hw])).trans
      (passes_races rs _ fun w hw => hrs w (by simp [hw]))

/-- **A moment passes by the races that waited for it.** -/
theorem passes_reach (point : RacePoint) {h : Hub} (hp : h.Permitted z) :
    Passes z h (h.reach point) := by
  have hs : Still z h { h with races := fun p => if p = point then [] else h.races p } := by
    refine ⟨rfl, rfl, fun _ => .refl _ _, fun _ hn => .inl hn, fun p w hw => .inl ?_⟩
    dsimp only at hw
    split at hw
    · cases hw
    · exact hw
  exact (Passes.of_still hs rfl).trans (passes_races _ _ fun w hw => hp.races point w hw)

theorem still_takeFault (h : Hub) (call : Call) :
    Still z h { h with link := (h.link.takeFault call).2 } :=
  .of_link h fun _ => Link.beside_takeFault _ h.link call

theorem still_get (h : Hub) (path : String) : Still z h (h.get path).2 :=
  .of_link h fun _ => Link.beside_get _ h.link path

/-- A listing fails, or gives the children as they are once the races before it have happened. -/
theorem list_cases (path : String) (h : Hub) :
    let h₁ := h.reach .beforeList
    let h₂ : Hub := { h₁ with link := (h₁.link.takeFault .list).2 }
    (∃ e, h.list path = (.error e, h₂)) ∨
      h.list path = (.ok (h₂.store.children path), h₂.reach .afterList) := by
  intro h₁ h₂
  rw [list]
  have hsnd : (h₁.link.failure? .list).2 = h₂.link := Link.failure?_snd _ _
  split
  · next e l heq =>
    obtain rfl : l = h₂.link := by rw [← hsnd, heq]
    exact .inl ⟨e, rfl⟩
  · next l heq =>
    obtain rfl : l = h₂.link := by rw [← hsnd, heq]
    exact .inr rfl

theorem passes_list (path : String) {h : Hub} (hp : h.Permitted z) :
    Passes z h (h.list path).2 := by
  have h₁ := passes_reach .beforeList hp
  have h₂ := h₁.trans (.of_still (still_takeFault _ .list) rfl)
  obtain ⟨e, he⟩ | he := list_cases path h
  · rw [he]
    exact h₂
  · rw [he]
    exact h₂.trans (passes_reach .afterList (h₂.permitted hp))

/-! ## Tasks of an administrator -/

/-- A write that is submitted is done once a fault of its kind has been taken, unless that fault
was a failure. -/
theorem submit_cases (w : Write) (h : Hub) :
    ∃ h₁, Still z h h₁ ∧ h₁.raced = h.raced ∧
      ((∃ e, h.submit w = (.error (.store e), h₁)) ∨ h.submit w = h₁.write w) := by
  rw [submit]
  cases callOf w with
  | none => exact ⟨h, .refl z h, rfl, .inr rfl⟩
  | some call =>
    have hsnd : (h.link.failure? call).2 = (h.link.takeFault call).2 := Link.failure?_snd _ _
    refine ⟨{ h with link := (h.link.takeFault call).2 }, still_takeFault h call, rfl, ?_⟩
    dsimp only
    split
    · next e l heq =>
      rw [heq] at hsnd
      exact .inl ⟨e, by rw [← hsnd]⟩
    · next l heq =>
      rw [heq] at hsnd
      exact .inr (by rw [← hsnd])

end Hub

/-- What a task comes down to: it reads, and then its write is done or there is none. -/
inductive Admin.Worked (z : Limits) (h : Hub) (write? : Option Write) :
    Except AdminError Unit × Hub → Prop
  | idle {h₁ : Hub} {r : Except AdminError Unit} (hs : Still z h h₁) (hr : h₁.raced = h.raced)
      (hdid : didWrite r = true → write? = none) : Worked z h write? (r, h₁)
  | wrote {h₁ : Hub} {w : Write} {r : Except AdminError Unit} (hs : Still z h h₁)
      (hr : h₁.raced = h.raced) (hw : write? = some w)
      (hdid : didWrite r = WriteError.tookEffect (h₁.write w).1) :
      Worked z h write? (r, (h₁.write w).2)

namespace Admin

variable {z : Limits} {h : Hub}

/-- A task whose outcome says of its write what the write's result says. -/
theorem worked_submit {h₀ g : Hub} {w : Write} {result : Except WriteError Bool}
    {r : Except AdminError Unit} (hs : Still z h h₀) (hr : h₀.raced = h.raced)
    (hsub : h₀.submit w = (result, g)) (hdid : didWrite r = WriteError.tookEffect result) :
    Worked z h (some w) (r, g) := by
  obtain ⟨h₁, hs₁, hr₁, ⟨e, he⟩ | he⟩ := submit_cases (z := z) w h₀ <;> rw [hsub] at he
  · cases he
    exact .idle (hs.trans hs₁) (hr₁.trans hr) fun hd => by rw [hdid] at hd; cases hd
  · obtain rfl : g = (h₁.write w).2 := by rw [← he]
    exact .wrote (hs.trans hs₁) (hr₁.trans hr) rfl (by rw [hdid, ← he])

/-- Writing a record is something to do. -/
theorem done_of_submit {w : Write} {path : String} {r : Record}
    (hw : w = .create path r ∨ w = .set path r) {g g' : Hub} {d : Bool}
    (h : g.submit w = (.ok d, g')) : d = true := by
  obtain ⟨h₁, -, -, ⟨e, he⟩ | he⟩ :=
    submit_cases (z := ⟨fun _ => True, True, fun _ => True⟩) w g <;> rw [he] at h
  · cases h
  · obtain ⟨e, -, he'⟩ | ⟨effect, heff, he'⟩ := write_cases w h₁ <;> rw [he'] at h
    · cases h
    · obtain ⟨-, rfl⟩ := delivered_eq_ok_iff.mp (congrArg Prod.fst h)
      exact Store.done_of_put hw heff

theorem worked_add (a : Admin) (c : Credential) (h : Hub) :
    Worked z h (a.creation? c) (outcome (a.add c h)) := by
  have hidle : Still z h h := .refl z h
  rw [add, creation?]
  split
  · split
    · exact .idle hidle rfl fun hd => by cases hd
    · next r hr =>
      rw [hr]
      split
      · next d g hsub =>
        exact worked_submit hidle rfl hsub (done_of_submit (.inl rfl) hsub).symm
      · next hsub => exact worked_submit hidle rfl hsub rfl
      · next e g hne hsub => exact worked_submit hidle rfl hsub (by cases e <;> rfl)
  · exact .idle hidle rfl fun hd => by cases hd

theorem worked_update (a : Admin) (username : String) (component : Component) (c : Credential)
    (h : Hub) : Worked z h ((Task.update username component c).write? a)
      (outcome (a.update username component c h)) := by
  have hidle : Still z h h := .refl z h
  rw [update, Task.write?]
  split
  · have hget : Still z h (h.exists? (a.path (addressed username component))).2 :=
      still_get h _
    have hraced : (h.exists? (a.path (addressed username component))).2.raced = h.raced := rfl
    split
    · next heq =>
      rw [heq] at hget hraced
      exact .idle hget hraced fun hd => by cases hd
    · next heq =>
      rw [heq] at hget hraced
      exact .idle hget hraced fun hd => by cases hd
    · next heq =>
      rw [heq] at hget hraced
      split
      · exact .idle hget hraced fun hd => by cases hd
      · next r hr =>
        rw [hr]
        split
        · next d g hsub =>
          exact worked_submit hget hraced hsub (done_of_submit (.inr rfl) hsub).symm
        · next e g hsub => exact worked_submit hget hraced hsub (by cases e <;> rfl)
  · exact .idle hidle rfl fun hd => by cases hd

theorem worked_delete (a : Admin) (username : String) (component : Component) (h : Hub) :
    Worked z h ((Task.delete username component).write? a)
      (outcome (a.delete username component h)) := by
  have hidle : Still z h h := .refl z h
  rw [delete, Task.write?]
  split
  · next hsub => exact worked_submit hidle rfl hsub rfl
  · next hsub => exact worked_submit hidle rfl hsub rfl
  · next e g hsub => exact worked_submit hidle rfl hsub (by cases e <;> rfl)

/-- **A task that does not list reads, and then does its write or nothing.** -/
theorem Task.worked (a : Admin) (t : Task) (ht : t ≠ .list) (h : Hub) :
    Worked z h (t.write? a) (t.run a h) := by
  cases t with
  | add c => exact worked_add a c h
  | addForm f =>
    rw [Task.run, Task.write?, Admin.addForm]
    cases f.credential with
    | error e => exact .idle (.refl z h) rfl fun hd => by cases hd
    | ok c => exact worked_add a c h
  | update username component c => exact worked_update a username component c h
  | delete username component => exact worked_delete a username component h
  | seek username component => exact .idle (still_get h _) rfl fun _ => rfl
  | list => exact absurd rfl ht
  | get username component =>
    rw [Task.run, Admin.get]
    have hget := still_get (z := z) h (a.path (addressed username component))
    have hraced : (h.get (a.path (addressed username component))).2.raced = h.raced := rfl
    split <;> next heq =>
      rw [heq] at hget hraced
      exact .idle hget hraced fun _ => rfl

end Admin

/-! ## Acts as trails -/

theorem Act.deeds_eq {a : Act} {h : Hub} {rs : List RaceReport}
    (hr : (a.perform h).raced = h.raced ++ rs) :
    a.deeds h = a.own h ++ rs.flatMap RaceReport.deeds := by
  rw [Act.deeds, hr, List.drop_left]

/-- What an act begins with, if it registers a recorder or takes its registration back. -/
def Act.enrol (h : Hub) : Act → Hub
  | watchChildren path name => { h with link := h.link.watchChildren path (.recorder name) }
  | watchData path name => h.watchData path (.recorder name)
  | unwatchData path name => h.unwatchData path (.recorder name)
  | _ => h

/-- A cache changes, and what is announced stays. -/
theorem Hub.Permitted.changeCache {z : Limits} {h : Hub} (hp : h.Permitted z) (id : Nat)
    {f : Cache → Link → Cache × Link} (hf : ∀ c l, (f c l).2.faults ⊆ l.faults) :
    (h.changeCache id f).Permitted z := by
  rw [Hub.changeCache]
  split
  · exact hp
  · next c _ => exact ⟨hp.armed, hp.races, fun g hg => hp.faults g (hf c h.link hg)⟩

section Steps

variable {z : Limits} {log log₁ : List Deed} {h h₁ : Hub} {a : Act}

theorem Trail.permitted (ht : Trail z log h log₁ h₁) (hp : h.Permitted z) : h₁.Permitted z := by
  induction ht with
  | refl => exact hp
  | still _ hs ih => exact ih.quiet hs.quiet
  | fault f _ hcall ih =>
    refine ⟨ih.armed, ih.races, fun g hg => ?_⟩
    rcases List.mem_append.mp hg with hg | hg
    · exact ih.faults g hg
    · rw [List.mem_singleton.mp hg]
      exact hcall
  | keep _ _ ih => exact ⟨ih.armed, ih.races, ih.faults⟩
  | write _ _ ih => exact ih.write _
  | register _ _ _ ih => exact ih.changeCache _ fun _ _ => List.Subset.refl _
  | giveUp _ _ ih => exact ih.changeCache _ fun _ _ => List.Subset.refl _
  | settle _ _ _ _ _ ih =>
    -- a recorder sees of the link that no fault has been added
    exact ih.changeCache _ fun c l =>
      (Cache.beside_track (w := .recorder "") (v := .cache _) (by simp) _ c l).faults

/-- An act that does nothing but let races happen. -/
theorem Trail.passes (hown : a.own h = []) (hp : h.Passes z (a.perform h)) :
    Trail z log h (log ++ a.deeds h) (a.perform h) := by
  obtain ⟨rs, hr, hd⟩ := hp
  rw [Act.deeds_eq hr, hown, List.nil_append]
  exact Trail.refl.drift (hd log)

/-- An act that meets no races and writes nothing. -/
theorem Trail.idle (hown : a.own h = []) (hr : (a.perform h).raced = h.raced)
    (ht : Trail z log h₁ log (a.perform h)) : Trail z log h₁ (log ++ a.deeds h) (a.perform h) := by
  have hr' : (a.perform h).raced = h.raced ++ [] := by rw [hr, List.append_nil]
  rw [Act.deeds_eq hr', hown]
  simpa using ht

theorem changeCache_raced (id : Nat) (f : Cache → Link → Cache × Link) (h : Hub) :
    (h.changeCache id f).raced = h.raced := by
  rw [changeCache]
  split <;> rfl

/-- A cache that has not been started is registered. -/
theorem Trail.begun (log : List Deed) {id : Nat} {c : Cache} (hid : h.caches[id]? = some c)
    (hphase : c.phase = .uninitialized) :
    ∃ h₁ : Hub, Trail z log h log h₁ ∧ h₁.Listing id c.parent ∧ h₁.raced = h.raced ∧
      (h.enter id .syncing).watchChildren c.parent (.cache id) = h₁.reach .afterSubscribe := by
  refine ⟨h.register id, .register .refl hid hphase, ?_, changeCache_raced _ _ _, ?_⟩
  · intro c' hc'
    simp only [Hub.register, changeCache, hid, ExtTreeMap.getElem?_insert_self,
      Option.some.injEq] at hc'
    subst hc'
    exact ⟨rfl, rfl⟩
  · simp only [Hub.register, watchChildren, enter, changeCache, hid]

/-- **A start is a trail**: the registration, and then the listing given up or taken in. -/
theorem Trail.start (log : List Deed) (hp : h.Permitted z) (id : Nat) :
    ∃ rs, (h.start id).2.raced = h.raced ++ rs ∧
      Trail z log h (log ++ rs.flatMap RaceReport.deeds) (h.start id).2 := by
  rw [Hub.start]
  cases hid : h.caches[id]? with
  | none => exact ⟨[], by simp, by simpa using Trail.refl⟩
  | some c =>
    by_cases hphase : c.phase = .uninitialized
    · obtain ⟨h₁, ht₁, hl₁, hr₁, heq⟩ := Trail.begun (z := z) log hid hphase
      have hper₁ := ht₁.permitted hp
      have hp₁ := passes_reach .afterSubscribe hper₁
      have hp₂ := hp₁.trans (passes_reach .beforeList (hp₁.permitted hper₁))
      have hp₃ := hp₂.trans (.of_still (still_takeFault _ .list) rfl)
      simp only [hphase, ↓reduceIte, heq]
      obtain ⟨e, he⟩ | he := list_cases c.parent (h₁.reach .afterSubscribe)
      · obtain ⟨rs, hr, hd⟩ := hp₃
        rw [he]
        refine ⟨rs, ?_, (ht₁.drift (hd log)).giveUp ((hd log).listing hl₁)⟩
        exact (changeCache_raced _ _ _).trans (by rw [hr, hr₁])
      · have hp₄ := passes_reach .afterList (hp₃.permitted hper₁)
        obtain ⟨rs, hr, hd⟩ := hp₃
        obtain ⟨rs', hr', hd'⟩ := hp₄
        have ht₃ := ht₁.drift (hd log)
        rw [he]
        refine ⟨rs ++ rs', ?_, ?_⟩
        · rw [changeCache_raced, hr', hr, hr₁, List.append_assoc]
        · rw [List.flatMap_append, ← List.append_assoc]
          exact ht₃.settle ((hd log).listing hl₁) (hd' _) (ht₃.drift (hd' _))
    · simp only [hphase, ↓reduceIte]
      exact ⟨[], by simp, by simpa using Trail.refl⟩

/-- A write that is submitted is a trail. -/
theorem Trail.submit {w : Write} (hw : z.writes w) :
    Trail z log h (log ++ (Act.write w).deeds h) ((Act.write w).perform h) := by
  obtain ⟨h₁, hs, hr, ⟨e, he⟩ | he⟩ := submit_cases (z := z) w h
  · have hperf : (Act.write w).perform h = h₁ := by rw [Act.perform, he]
    have hown : (Act.write w).own h = [] := by
      rw [Act.own, he]
      rfl
    refine .passes hown ?_
    rw [hperf]
    exact .of_still hs hr
  · have hperf : (Act.write w).perform h = (h₁.write w).2 := by rw [Act.perform, he]
    have hraced : ((Act.write w).perform h).raced = h.raced ++ [] := by
      rw [hperf, write_raced, hr, List.append_nil]
    rw [Act.deeds_eq hraced, List.flatMap_nil, List.append_nil, hperf, Act.own, he]
    exact (Trail.refl.still hs).write hw

/-- A task of an administrator is a trail. -/
theorem Trail.administer (hp : h.Permitted z) {a : Admin} {t : Admin.Task}
    (hw : ∀ w, t.write? a = some w → z.writes w) :
    Trail z log h (log ++ (Act.administer a t).deeds h) ((Act.administer a t).perform h) := by
  by_cases ht : t = .list
  · subst ht
    refine .passes ?_ (passes_list a.parent hp)
    rw [Act.own]
    split <;> rfl
  · have hworked := Admin.Task.worked (z := z) a t ht h
    have hraced : ((Act.administer a t).perform h).raced = h.raced ++ [] := by
      rw [Act.perform, List.append_nil]
      generalize t.run a h = out at hworked
      cases hworked with
      | idle _ hr _ => exact hr
      | wrote _ hr _ _ => rw [write_raced, hr]
    rw [Act.deeds_eq hraced, List.flatMap_nil, List.append_nil, Act.perform, Act.own]
    generalize t.run a h = out at hworked
    cases hworked with
    | idle hs _ hdid =>
      have ht' : Trail z log h log _ := Trail.refl.still hs
      split
      · next hd =>
        rw [hdid hd]
        simpa using ht'
      · simpa using ht'
    | wrote hs _ hwrite hdid =>
      rw [hwrite, hdid]
      exact (Trail.refl.still hs).write (hw _ hwrite)

/-- A start that goes no further than its registration is a trail. -/
theorem Trail.begin (hp : h.Permitted z) (id : Nat) :
    Trail z log h (log ++ (Act.begin id).deeds h) ((Act.begin id).perform h) := by
  have hbegin : (Act.begin id).perform h = h.begin id := rfl
  cases hid : h.caches[id]? with
  | none =>
    have hperf : (Act.begin id).perform h = h := by rw [hbegin, Hub.begin, hid]
    exact .idle rfl (by rw [hperf]) (by rw [hperf]; exact .refl)
  | some c =>
    by_cases hphase : c.phase = .uninitialized
    · obtain ⟨h₁, ht₁, -, hr₁, heq⟩ := Trail.begun (z := z) log hid hphase
      obtain ⟨rs, hr, hd⟩ := passes_reach .afterSubscribe (ht₁.permitted hp)
      have hperf : (Act.begin id).perform h = h₁.reach .afterSubscribe := by
        rw [hbegin, Hub.begin, hid]
        simpa only [hphase, ↓reduceIte] using heq
      rw [Act.deeds_eq (by rw [hperf, hr, hr₁]), hperf]
      exact ht₁.drift (hd log)
    · have hperf : (Act.begin id).perform h = h := by
        rw [hbegin, Hub.begin, hid]
        simp only [hphase, ↓reduceIte]
      exact .idle rfl (by rw [hperf]) (by rw [hperf]; exact .refl)

/-- **What an act does after registering is a trail.** -/
theorem Act.trail (hp : h.Permitted z) (ha : a.Within z) :
    Trail z log (a.enrol h) (log ++ a.deeds h) (a.perform h) := by
  cases a with
  | write w => exact .submit ha
  | administer a t => exact .administer hp ha
  | read path => exact .passes rfl (.of_still (still_get h path) rfl)
  | list path => exact .passes rfl (passes_list path hp)
  | watchChildren path name =>
    have hp' : ((Act.watchChildren path name).enrol h).Permitted z := ⟨hp.armed, hp.races, hp.faults⟩
    obtain ⟨rs, hr, hd⟩ := passes_reach .afterSubscribe hp'
    rw [Act.deeds_eq (a := .watchChildren path name) hr]
    exact Trail.refl.drift (hd log)
  | watchData path name => exact .idle rfl rfl .refl
  | unwatchData path name => exact .idle rfl rfl .refl
  | arm name =>
    refine .passes rfl (.of_still ⟨rfl, rfl, fun _ => .refl _ _, fun n _ => .inr ha, ?_⟩ rfl)
    exact fun _ _ hw => .inl hw
  | fault call f => exact .idle rfl rfl (Trail.refl.fault f ha)
  | await point rs =>
    refine .passes rfl (.of_still ⟨rfl, rfl, fun _ => .refl _ _, fun _ hn => .inl hn, ?_⟩ rfl)
    intro p w hw
    simp only [Act.perform, Hub.await] at hw
    split at hw
    · exact .inr (ha w hw)
    · exact .inl hw
  | begin id => exact .begin hp id
  | start id =>
    obtain ⟨rs, hr, ht⟩ := Trail.start log hp id
    rw [Act.deeds_eq (a := .start id) hr]
    exact ht
  | keep kept => exact .idle rfl rfl (Trail.refl.keep kept)

/-! ## Runs as courses -/

/-- No cache notices that a recorder is registered, or no longer so. -/
theorem Act.quiet_enrol (a : Act) (h : Hub) : Quiet z h (a.enrol h) := by
  cases a with
  | watchChildren path name =>
    exact .of_link h fun _ => Link.beside_watchChildren (by simp) h.link path
  | watchData path name => exact .of_link h fun _ => Link.beside_watchData (by simp) h.link path
  | unwatchData path name => exact .of_link h fun _ => Link.beside_unwatchData (by simp) h.link path
  | _ => exact (Still.refl z h).quiet

theorem Course.permitted (hc : Course z log h) : h.Permitted z := by
  induction hc with
  | initial _ => exact ⟨by simp [empty], by simp [empty], by simp [empty, Link.empty]⟩
  | quiet _ hq ih => exact ih.quiet hq
  | @fault log h _ f _ hcall ih =>
    have ht : Trail z log h log _ := .fault f .refl hcall
    exact ht.permitted ih
  | keep kept _ ih => exact ⟨ih.armed, ih.races, ih.faults⟩
  | write _ _ ih => exact ih.write _
  | @register log h _ _ _ hid hphase ih =>
    have ht : Trail z log h log _ := .register .refl hid hphase
    exact ht.permitted ih
  | @giveUp log h _ _ _ hlist ih =>
    have ht : Trail z log h log _ := .giveUp .refl hlist
    exact ht.permitted ih
  | @settle log₀ log h₀ h _ _ _ hlist hd _ ih₀ _ =>
    have ht : Trail z log₀ h₀ log _ := .settle .refl hlist hd (Trail.refl.drift hd)
    exact ht.permitted ih₀

/-- **An act is a course.** -/
theorem Course.act (hc : Course z log h) (ha : a.Within z) :
    Course z (log ++ a.deeds h) (a.perform h) :=
  (hc.quiet (a.quiet_enrol h)).trail (a.trail hc.permitted ha)

/-- **Every run is a course.** -/
theorem Run.course (hr : Run z log h) : Course z log h := by
  induction hr with
  | initial hnew => exact .initial hnew
  | act _ ha ih => exact ih.act ha

/-- In a run of genuine writes nobody is armed. -/
theorem Run.unarmed {faults : Call → Prop} (hr : Run (.genuine faults) log h) : h.Unarmed :=
  hr.course.permitted.unarmed fun harm => harm

/-- In a run without faults no call has one to come. -/
theorem Run.faults_eq_nil (hr : Run .faultless log h) : h.link.faults = [] :=
  List.eq_nil_iff_forall_not_mem.mpr fun f hf => hr.course.permitted.faults f hf

end Steps

/-! ## Calls without faults -/

theorem Link.failure?_of_faultless {l : Link} (hl : l.faults = []) (call : Call) :
    l.failure? call = (none, l) := by
  obtain ⟨store, faults⟩ := l
  subst hl
  rfl

theorem Hub.submit_of_faultless {h : Hub} (hl : h.link.faults = []) (w : Write) :
    h.submit w = h.write w := by
  rw [submit]
  split
  · rfl
  · rw [Link.failure?_of_faultless hl]

/-- A listing that no fault is to come for, and no race waits for, gives the children there are. -/
theorem Hub.list_of_faultless {h : Hub} (hl : h.link.faults = []) (hr : h.races .beforeList = [])
    (path : String) : (h.list path).1 = .ok (h.store.children path) := by
  have hreach : (h.reach .beforeList).link = h.link := by rw [reach, hr, List.foldl_nil]
  rw [list, hreach, Link.failure?_of_faultless hl]

end Gatekeeper
