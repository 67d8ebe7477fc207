import Gatekeeper.Proofs.Hub.Course

/-!
# Proofs/Hub/Undisturbed — calls that no write comes in between

Races wait for moments in the middle of a listing or of a start.  A moment is `Undisturbed` if no
race that waits for it has anything to write, and passing it then leaves nothing but reports
(`reported_reach`).

A listing between such moments comes to the next fault that there is for it, or else to the children
(`list_undisturbed`).  A start that fails has registered its cache for the parent's children and done
no more (`start_of_error`); one that succeeds has taken the children in (`start_of_ok`).

A write that does not take effect, whatever the reason, leaves the hub `Untouched`
(`untouched_of_submit`).
-/

namespace Gatekeeper

open Std (ExtTreeMap)

namespace Hub

/-- No race that waits for the moment has anything to write. -/
def Undisturbed (point : RacePoint) (h : Hub) : Prop := ∀ w, .ok w ∉ h.races point

theorem Undisturbed.of_nil {point : RacePoint} {h : Hub} (hnone : h.races point = []) :
    h.Undisturbed point := by
  rw [Undisturbed, hnone]
  exact fun _ => List.not_mem_nil

/-- The second hub differs from the first at most in races that had nothing to write, and in what
came of them. -/
structure Reported (h h' : Hub) : Prop where
  link : h'.link = h.link
  caches : h'.caches = h.caches
  heard : h'.heard = h.heard
  armed : h'.armed = h.armed
  undisturbed : ∀ point, h.Undisturbed point → h'.Undisturbed point

theorem Reported.refl (h : Hub) : h.Reported h := ⟨rfl, rfl, rfl, rfl, fun _ hu => hu⟩

theorem Reported.trans {h₁ h₂ h₃ : Hub} (h : h₁.Reported h₂) (h' : h₂.Reported h₃) :
    h₁.Reported h₃ where
  link := h'.link.trans h.link
  caches := h'.caches.trans h.caches
  heard := h'.heard.trans h.heard
  armed := h'.armed.trans h.armed
  undisturbed point hu := h'.undisturbed point (h.undisturbed point hu)

theorem reported_races : ∀ (rs : List Race) (h : Hub), (∀ w, .ok w ∉ rs) →
    h.Reported (rs.foldl race h)
  | [], h, _ => .refl h
  | .ok w :: _, _, hrs => absurd List.mem_cons_self (hrs w)
  | .error e :: rs, h, hrs => by
    have hreport : h.Reported (h.race (.error e)) := ⟨rfl, rfl, rfl, rfl, fun _ hu => hu⟩
    exact hreport.trans (reported_races rs _ fun w hw => hrs w (List.mem_cons_of_mem _ hw))

/-- **An undisturbed moment leaves nothing but reports.** -/
theorem reported_reach {point : RacePoint} {h : Hub} (hu : h.Undisturbed point) :
    h.Reported (h.reach point) := by
  have hclear : h.Reported { h with races := fun p => if p = point then [] else h.races p } := by
    refine ⟨rfl, rfl, rfl, rfl, fun p hp w hw => hp w ?_⟩
    dsimp only at hw
    split at hw
    · cases hw
    · exact hw
  exact hclear.trans (reported_races _ _ hu)

/-! ## Listings -/

/-- What a listing comes to that nothing comes in between of: the next fault for it, if that is a
failure, or the children there are. -/
def listing (path : String) (l : Link) : Except StoreError (List String) :=
  match (l.takeFault .list).1 with
  | some (.fails e) => .error e
  | _ => .ok (l.store.children path)

/-- **An undisturbed listing** takes the next fault for it, and then it is what it comes to. -/
theorem list_undisturbed {h : Hub} (hbefore : h.Undisturbed .beforeList)
    (hafter : h.Undisturbed .afterList) (path : String) :
    (h.list path).1 = listing path h.link ∧
      Reported { h with link := (h.link.takeFault .list).2 } (h.list path).2 := by
  have hr := reported_reach hbefore
  -- the fault is taken once the moment before the listing has passed
  have hr' : ∀ {l : Link}, Reported { h with link := l } { h.reach .beforeList with link := l } :=
    ⟨rfl, hr.caches, hr.heard, hr.armed, hr.undisturbed⟩
  have hdone : ∀ {l : Link}, Reported { h with link := l }
      (reach .afterList { h.reach .beforeList with link := l }) :=
    hr'.trans (reported_reach (hr'.undisturbed _ hafter))
  rw [Hub.list, hr.link, listing, Link.failure?]
  cases hf : h.link.takeFault .list with
  | mk f l =>
    obtain rfl : l = (h.link.takeFault .list).2 := by rw [hf]
    obtain _ | e | _ := f
    · exact ⟨rfl, hdone⟩
    · exact ⟨rfl, hr'⟩
    · exact ⟨rfl, hdone⟩

/-! ## Starts -/

/-- Of two values for a key, the first is lost. -/
theorem insert_insert {α : Type} (m : ExtTreeMap Nat α) (k : Nat) (a b : α) :
    (m.insert k a).insert k b = m.insert k b := by
  refine ExtTreeMap.ext_getElem? fun i => ?_
  simp only [ExtTreeMap.getElem?_insert]
  split <;> rfl

/-- What is there already changes nothing. -/
theorem insert_eq_self {α : Type} {m : ExtTreeMap Nat α} {k : Nat} {a : α} (h : m[k]? = some a) :
    m.insert k a = m := by
  refine ExtTreeMap.ext_getElem? fun i => ?_
  rw [ExtTreeMap.getElem?_insert]
  split
  · next heq => rw [← Std.compare_eq_iff_eq.mp heq, h]
  · rfl

/-- The link as a start has it once children have been listed: the cache is registered for its
parent's children, and the fault for the listing has been taken. -/
def listened (id : Nat) (parent : String) (l : Link) : Link :=
  ((l.watchChildren parent (.cache id)).takeFault .list).2

section Start

variable {h : Hub} {id : Nat} {c : Cache}

/-- An undisturbed start, as far as its listing. -/
theorem list_of_begun (hu : ∀ point, h.Undisturbed point) (hid : h.caches[id]? = some c) :
    ∃ g, ((h.enter id .syncing).watchChildren c.parent (.cache id)).list c.parent
        = (listing c.parent h.link, g) ∧ g.link = listened id c.parent h.link ∧
      g.caches = h.caches.insert id { c with phase := .syncing } ∧ ∀ point, g.Undisturbed point := by
  -- the cache is registered, and the moment after that passes
  let h₁ : Hub := { h with
    link := h.link.watchChildren c.parent (.cache id)
    caches := h.caches.insert id { c with phase := .syncing } }
  have hbegun : (h.enter id .syncing).watchChildren c.parent (.cache id)
      = h₁.reach .afterSubscribe := by
    simp only [watchChildren, enter, changeCache, hid, h₁]
  have hr : h₁.Reported (h₁.reach .afterSubscribe) := reported_reach (hu .afterSubscribe)
  obtain ⟨hlist, hr'⟩ := list_undisturbed (hr.undisturbed .beforeList (hu .beforeList))
    (hr.undisturbed .afterList (hu .afterList)) c.parent
  have hsame : listing c.parent h₁.link = listing c.parent h.link := rfl
  rw [hr.link, hsame] at hlist
  rw [hbegun]
  refine ⟨_, Prod.ext hlist rfl, ?_, hr'.caches.trans hr.caches, fun point => ?_⟩
  · rw [hr'.link, hr.link]
    rfl
  · exact hr'.undisturbed point (hr.undisturbed point (hu point))

/-- **A start that fails** has registered its cache for its parent's children, and that is all. -/
theorem start_of_error (hu : ∀ point, h.Undisturbed point) (hid : h.caches[id]? = some c)
    (hphase : c.phase = .uninitialized) {e : StoreError} (hlist : listing c.parent h.link = .error e) :
    (h.start id).1 = .error e ∧ (h.start id).2.link = listened id c.parent h.link ∧
      (h.start id).2.caches = h.caches ∧ ∀ point, (h.start id).2.Undisturbed point := by
  obtain ⟨g, hg, hlink, hcaches, hu'⟩ := list_of_begun hu hid
  have hself : g.caches[id]? = some { c with phase := .syncing } := by simp [hcaches]
  rw [Hub.start]
  simp only [hid, hphase, ↓reduceIte, hg, hlist]
  simp only [enter, changeCache, hself]
  refine ⟨trivial, hlink, ?_, hu'⟩
  have hback : { c with phase := .uninitialized } = c := by rw [← hphase]
  rw [hcaches, insert_insert, hback, insert_eq_self hid]

/-- **A start that succeeds** has taken the children in, and its cache is ready. -/
theorem start_of_ok (hu : ∀ point, h.Undisturbed point) (hid : h.caches[id]? = some c)
    (hphase : c.phase = .uninitialized) {names : List String}
    (hlist : listing c.parent h.link = .ok names) :
    let p := Cache.track (.cache id) names { c with phase := .syncing } (listened id c.parent h.link)
    (h.start id).1 = .ok () ∧ (h.start id).2.link = p.2 ∧
      (h.start id).2.caches = h.caches.insert id { p.1 with phase := .ready, stamped := true } := by
  obtain ⟨g, hg, hlink, hcaches, -⟩ := list_of_begun hu hid
  have hself : g.caches[id]? = some { c with phase := .syncing } := by simp [hcaches]
  rw [Hub.start]
  simp only [hid, hphase, ↓reduceIte, hg, hlist]
  simp only [changeCache, hself, hlink]
  refine ⟨trivial, trivial, ?_⟩
  rw [hcaches, insert_insert]

end Start

/-! ## Writes that do not take effect -/

/-- The second hub has the nodes, the registrations and the caches of the first, no recorder has
heard of anything, and none has been armed or set off. -/
structure Untouched (h h' : Hub) : Prop where
  store : h'.store = h.store
  caches : h'.caches = h.caches
  heard : h'.heard = h.heard
  armed : h'.armed = h.armed

theorem Untouched.refl (h : Hub) : h.Untouched h := ⟨rfl, rfl, rfl, rfl⟩

theorem Untouched.trans {h₁ h₂ h₃ : Hub} (h : h₁.Untouched h₂) (h' : h₂.Untouched h₃) :
    h₁.Untouched h₃ :=
  ⟨h'.1.trans h.1, h'.2.trans h.2, h'.3.trans h.3, h'.4.trans h.4⟩

theorem Reported.untouched {h h' : Hub} (hr : h.Reported h') : h.Untouched h' :=
  ⟨congrArg Link.store hr.link, hr.caches, hr.heard, hr.armed⟩

/-- Reading takes a fault, if there is one, and touches nothing. -/
theorem untouched_get (h : Hub) (path : String) : h.Untouched (h.get path).2 := by
  have hstore : (h.link.get path).2.store = h.link.store := by
    rw [Link.get_snd]
    rfl
  exact ⟨hstore, rfl, rfl, rfl⟩

/-- A write takes the next fault for it, and then fails or is done. -/
theorem submit_link (w : Write) (h : Hub) : ∃ l : Link, l.store = h.store ∧
    ((∃ e, h.submit w = (.error (.store e), { h with link := l })) ∨
      h.submit w = write w { h with link := l }) := by
  rw [submit]
  cases callOf w with
  | none => exact ⟨h.link, rfl, .inr rfl⟩
  | some call =>
    have hstore : (h.link.failure? call).2.store = h.link.store := by
      rw [Link.failure?_snd]
      rfl
    refine ⟨(h.link.failure? call).2, hstore, ?_⟩
    dsimp only
    split
    · next e l heq => exact .inl ⟨e, by rw [heq]⟩
    · next l heq => exact .inr (by rw [heq])

theorem untouched_of_write {w : Write} {h : Hub}
    (hno : WriteError.tookEffect (h.write w).1 = false) : h.Untouched (h.write w).2 := by
  obtain ⟨e, -, he⟩ | ⟨effect, heff, he⟩ := write_cases w h
  · rw [he]
    exact .refl h
  · rw [he] at hno ⊢
    have hdone : effect.done = false := by
      revert hno
      cases (deliver effect.events { h with link.store := effect.store }).2 with
      | none => exact id
      | some name => exact nofun
    obtain ⟨_, _, -, rfl⟩ | ⟨_, -, rfl⟩ | ⟨_, -, -, rfl⟩ | ⟨_, -, rfl⟩ := Store.effect_cases heff
    · cases hdone
    · cases hdone
    · exact .refl h
    · cases hdone

/-- **A write that does not take effect touches nothing.** -/
theorem untouched_of_submit {w : Write} {h h' : Hub} {result : Except WriteError Bool}
    (hsub : h.submit w = (result, h')) (hno : WriteError.tookEffect result = false) :
    h.Untouched h' := by
  obtain ⟨l, hl, ⟨e, he⟩ | he⟩ := submit_link w h <;> rw [hsub] at he
  · cases he
    exact ⟨hl, rfl, rfl, rfl⟩
  · have hlink : h.Untouched { h with link := l } := ⟨hl, rfl, rfl, rfl⟩
    obtain rfl := congrArg Prod.fst he
    obtain rfl := congrArg Prod.snd he
    exact hlink.trans (untouched_of_write hno)

/-- Whoever breaks a write off was armed. -/
theorem armed_of_submit {w : Write} {h h' : Hub} {name : String}
    (hsub : h.submit w = (.error (.brokenOff name), h')) : name ∈ h.armed := by
  obtain ⟨l, -, ⟨e, he⟩ | he⟩ := submit_link w h <;> rw [hsub] at he
  · cases he
  · obtain ⟨e, -, he'⟩ | ⟨effect, -, he'⟩ := write_cases w { h with link := l } <;> rw [he'] at he
    · cases he
    · obtain ⟨broken, hbroken, heq⟩ := delivered_eq_error_iff.mp (congrArg Prod.fst he.symm)
      cases heq
      have harmed := armed_of_deliver hbroken
      exact harmed

end Hub

end Gatekeeper
