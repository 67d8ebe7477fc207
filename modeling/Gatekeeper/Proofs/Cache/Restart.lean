import Gatekeeper.Proofs.Cache.Bookkeeping
import Gatekeeper.Proofs.Cache.Phases
import Gatekeeper.Proofs.Hub.Undisturbed

/-!
# Proofs/Cache/Restart — starting a cache again

A start that fails leaves the cache registered for its parent's children, and the faults that it took
are gone.  Neither matters to the next start: to register again changes nothing (`Watches.add_add`),
and what children are taken in as depends on the faults for reads alone, which a listing does not
take (`Link.SameReads`, `track_congr`).  So starts that fail, however many, and then one that
succeeds come to what one start comes to that succeeds at once (`Restartable.again`).

`Hub.restartable` puts this together with how far a cache may come at all (`Act.comes`).
-/

namespace Gatekeeper

open Std (ExtTreeMap)

/-! ## Faults, call by call -/

/-- The faults that are for a call, in the order in which it meets them. -/
def pending (call : Call) (faults : List (Call × Fault)) : List Fault :=
  faults.filterMap fun f => if f.1 = call then some f.2 else none

namespace Link

theorem takeFrom_fst (call : Call) : ∀ fs : List (Call × Fault),
    (takeFrom call fs).1 = (pending call fs).head?
  | [] => rfl
  | (c, f) :: fs => by
    rw [takeFrom]
    by_cases hc : c = call
    · simp [pending, hc]
    · simpa [pending, hc] using takeFrom_fst call fs

/-- A call takes the first of its faults, and none of the others. -/
theorem pending_takeFrom (call other : Call) : ∀ fs : List (Call × Fault),
    pending other (takeFrom call fs).2
      = if other = call then (pending call fs).tail else pending other fs
  | [] => by simp [takeFrom, pending]
  | (c, f) :: fs => by
    have ih := pending_takeFrom call other fs
    rw [takeFrom]
    by_cases hc : c = call
    · subst hc
      by_cases ho : other = c
      · simp [pending, ho]
      · simp [pending, ho, Ne.symm ho]
    · by_cases ho : other = call
      · subst ho
        simpa [pending, hc] using ih
      · by_cases hco : c = other
        · simpa [pending, hc, hco, ho] using ih
        · simpa [pending, hc, hco, ho] using ih

/-- Two links that reads cannot tell apart. -/
structure SameReads (l l' : Link) : Prop where
  store : l'.store = l.store
  reads : pending .get l'.faults = pending .get l.faults

theorem get_fst (l : Link) (path : String) : (l.get path).1 =
    match (pending .get l.faults).head? with
    | some (.fails e) => .error e
    | some .absent => .ok none
    | none => .ok l.store.nodes[path]? := by
  rw [get, takeFault, takeFrom_fst]
  cases (pending .get l.faults).head? with
  | none => rfl
  | some f => cases f <;> rfl

theorem SameReads.get {l l' : Link} (h : l.SameReads l') (path : String) :
    (l'.get path).1 = (l.get path).1 ∧ SameReads (l.get path).2 (l'.get path).2 := by
  refine ⟨by rw [get_fst, get_fst, h.reads, h.store], ?_⟩
  rw [get_snd, get_snd]
  refine ⟨h.store, ?_⟩
  simp only [takeFault, pending_takeFrom, if_pos, h.reads]

end Link

/-! ## Taking children in -/

namespace Cache

theorem load_fst (c : Cache) (path : String) (l : Link) : (c.load path l).1 =
    match (l.get path).1 with
    | .ok (some r) => c.accept path r
    | _ => c := by
  rw [load]
  split
  · next heq => rw [heq]
  · next hno heq =>
    split
    · next r hr =>
      rw [heq] at hr
      exact (hno r hr).elim
    · rfl

variable {self : Watcher} {l l' : Link}

theorem trackChild_congr (h : l.SameReads l') (name : String) (c : Cache) :
    (trackChild self name c l').1 = (trackChild self name c l).1 ∧
      (trackChild self name c l).2.SameReads (trackChild self name c l').2 := by
  rw [trackChild, trackChild]
  split
  · exact ⟨rfl, h⟩
  · have hwatch : (l.watchData (Path.child c.parent name) self).SameReads
        (l'.watchData (Path.child c.parent name) self) :=
      ⟨by rw [Link.watchData, Link.watchData, h.store], h.reads⟩
    obtain ⟨hget, hsame⟩ := hwatch.get (Path.child c.parent name)
    rw [load_fst, load_fst, load_snd, load_snd, hget]
    exact ⟨rfl, hsame⟩

theorem track_cons (name : String) (names : List String) (c : Cache) (l : Link) :
    track self (name :: names) c l
      = track self names (trackChild self name c l).1 (trackChild self name c l).2 := rfl

/-- **What children are taken in as** depends on the records and on the faults for reads alone. -/
theorem track_congr (self : Watcher) : ∀ (names : List String) (c : Cache) {l l' : Link},
  l.SameReads l' →
    (track self names c l').1 = (track self names c l).1 ∧
      (track self names c l).2.SameReads (track self names c l').2
  | [], _, _, _, h => ⟨rfl, h⟩
  | name :: names, c, _, _, h => by
    obtain ⟨hchild, hsame⟩ := trackChild_congr h name c
    rw [track_cons, track_cons, hchild]
    exact track_congr self names _ hsame

end Cache

/-! ## Starts that no write comes in between of -/

theorem Watches.add_add (ws : Watches) (path : String) (w : Watcher) :
    (ws.add path w).add path w = ws.add path w :=
  if_pos (mem_entries_add.mpr (.inr rfl))

namespace Hub

/-- The hub after a cache has been started so many times. -/
def restarted (id n : Nat) (h : Hub) : Hub := (fun g : Hub => (g.start id).2)^[n] h

/-- The second hub differs from the first in nothing that a start of the cache would not make up
for: in the cache's registration for its parent's children, and in faults that are not for reads. -/
structure Retry (id : Nat) (parent : String) (h h' : Hub) : Prop where
  caches : h'.caches = h.caches
  store : (h'.link.watchChildren parent (.cache id)).store
    = (h.link.watchChildren parent (.cache id)).store
  reads : pending .get h'.link.faults = pending .get h.link.faults

section Start

variable {id : Nat} {parent : String} {c : Cache} {h h₁ h₂ h₃ : Hub}

theorem Retry.refl (h : Hub) : Retry id parent h h := ⟨rfl, rfl, rfl⟩

theorem Retry.symm (hr : Retry id parent h₁ h₂) : Retry id parent h₂ h₁ :=
  ⟨hr.1.symm, hr.2.symm, hr.3.symm⟩

theorem Retry.trans (hr : Retry id parent h₁ h₂) (hr' : Retry id parent h₂ h₃) :
    Retry id parent h₁ h₃ :=
  ⟨hr'.1.trans hr.1, hr'.2.trans hr.2, hr'.3.trans hr.3⟩

theorem pending_listened (id : Nat) (parent : String) (l : Link) :
    pending .get (listened id parent l).faults = pending .get l.faults := by
  rw [listened, Link.takeFault, Link.pending_takeFrom, if_neg (by decide)]
  rfl

/-- Once children have been listed, what is made up for is made up for. -/
theorem Retry.listened (hr : Retry id parent h₁ h₂) :
    (listened id parent h₁.link).SameReads (listened id parent h₂.link) :=
  ⟨hr.store, by rw [pending_listened, pending_listened, hr.reads]⟩

theorem start_of_phase_ne (hid : h.caches[id]? = some c) (hphase : c.phase ≠ .uninitialized) :
    h.start id = (.ok (), h) := by
  rw [Hub.start, hid]
  exact if_neg hphase

/-- A listing comes to an error, or to the children there are. -/
theorem listing_cases (path : String) (l : Link) :
    (∃ e, listing path l = .error e) ∨ listing path l = .ok (l.store.children path) := by
  rw [listing]
  split
  · next e _ => exact .inl ⟨e, rfl⟩
  · exact .inr rfl

/-- **A start fails just if the cache has not been started and its listing fails.** -/
theorem start_error_iff (hu : ∀ point, h.Undisturbed point) (hid : h.caches[id]? = some c)
    {e : StoreError} : (h.start id).1 = .error e ↔
      c.phase = .uninitialized ∧ listing c.parent h.link = .error e := by
  by_cases hphase : c.phase = .uninitialized
  · obtain ⟨e', hlist⟩ | hlist := listing_cases c.parent h.link
    · rw [(start_of_error hu hid hphase hlist).1, hlist]
      simp [hphase]
    · rw [(start_of_ok hu hid hphase hlist).1, hlist]
      simp
  · rw [start_of_phase_ne hid hphase]
    simp [hphase]

/-- A start that fails leaves what the next start makes up for. -/
theorem retry_start (hu : ∀ point, h.Undisturbed point) (hid : h.caches[id]? = some c)
    {e : StoreError} (herr : (h.start id).1 = .error e) :
    Retry id c.parent h (h.start id).2 ∧ ∀ point, (h.start id).2.Undisturbed point := by
  obtain ⟨hphase, hlist⟩ := (start_error_iff hu hid).mp herr
  obtain ⟨-, hlink, hcaches, hu'⟩ := start_of_error hu hid hphase hlist
  refine ⟨⟨hcaches, ?_, ?_⟩, hu'⟩
  · rw [hlink]
    exact congrArg (fun ws : Watches => { h.store with childWatches := ws })
      (Watches.add_add h.store.childWatches c.parent (.cache id))
  · rw [hlink, pending_listened]

/-- So do any number of starts that fail. -/
theorem retry_restarted (hu : ∀ point, h.Undisturbed point) (hid : h.caches[id]? = some c) :
    ∀ n, (∀ k < n, ∃ e, ((h.restarted id k).start id).1 = .error e) →
      Retry id c.parent h (h.restarted id n) ∧ ∀ point, (h.restarted id n).Undisturbed point
  | 0, _ => ⟨.refl h, hu⟩
  | n + 1, hfail => by
    obtain ⟨hr, hu'⟩ := retry_restarted hu hid n fun k hk => hfail k (by omega)
    obtain ⟨e, herr⟩ := hfail n (by omega)
    have hid' : (h.restarted id n).caches[id]? = some c := by rw [hr.caches, hid]
    obtain ⟨hr', hu''⟩ := retry_start hu' hid' herr
    have hstep : h.restarted id (n + 1) = ((h.restarted id n).start id).2 :=
      Function.iterate_succ_apply' _ n h
    rw [hstep]
    exact ⟨hr.trans hr', hu''⟩

/-- **Where two starts of a cache succeed, it does not matter what they made up for.** -/
theorem Retry.start (hr : Retry id c.parent h₁ h₂) (hu₁ : ∀ point, h₁.Undisturbed point)
    (hu₂ : ∀ point, h₂.Undisturbed point) (hid : h₁.caches[id]? = some c)
    (hphase : c.phase = .uninitialized) (hok₁ : (h₁.start id).1 = .ok ())
    (hok₂ : (h₂.start id).1 = .ok ()) :
    (h₂.start id).2.caches = (h₁.start id).2.caches ∧
      (h₂.start id).2.store = (h₁.start id).2.store := by
  have hid₂ : h₂.caches[id]? = some c := by rw [hr.caches, hid]
  have hlists : ∀ {g : Hub}, (∀ point, g.Undisturbed point) → g.caches[id]? = some c →
      (g.start id).1 = .ok () → listing c.parent g.link = .ok (g.store.children c.parent) := by
    intro g hu hid hok
    refine (listing_cases c.parent g.link).resolve_left fun ⟨e, he⟩ => ?_
    rw [(start_error_iff hu hid).mpr ⟨hphase, he⟩] at hok
    cases hok
  obtain ⟨-, hlink₁, hcaches₁⟩ := start_of_ok hu₁ hid hphase (hlists hu₁ hid hok₁)
  obtain ⟨-, hlink₂, hcaches₂⟩ := start_of_ok hu₂ hid₂ hphase (hlists hu₂ hid₂ hok₂)
  have hnodes : h₂.store.nodes = h₁.store.nodes := congrArg (·.nodes) hr.store
  rw [Store.children_congr hnodes] at hlink₂ hcaches₂
  obtain ⟨hcache, hlink⟩ := Cache.track_congr (.cache id) (h₁.store.children c.parent)
    { c with phase := .syncing } hr.listened
  have hstore : (h₂.start id).2.link.store = (h₁.start id).2.link.store := by
    rw [hlink₁, hlink₂]
    exact hlink.store
  exact ⟨by rw [hcaches₁, hcaches₂, hr.caches, hcache], hstore⟩

end Start

/-- **What starting a cache comes to**, where no write comes in between. -/
structure Restartable (id : Nat) (c : Cache) (h : Hub) : Prop where
  /-- A start fails just if the cache has not been started and its listing fails. -/
  error_iff : ∀ e, (h.start id).1 = .error e ↔
    c.phase = .uninitialized ∧ (h.list c.parent).1 = .error e
  /-- Then the caches, the records and the registrations for records are as they were, and the cache
  is registered once for its parent's children. -/
  failed : ∀ e, (h.start id).1 = .error e →
    (h.start id).2.caches = h.caches ∧ (h.start id).2.store.nodes = h.store.nodes ∧
      (h.start id).2.store.dataWatches = h.store.dataWatches ∧
        ((h.start id).2.store.childWatches.forPath c.parent).count (.cache id) = 1
  /-- A cache that has not been started is ready once a start has not failed. -/
  started : c.phase = .uninitialized → (h.start id).1 = .ok () →
    ∃ c', (h.start id).2.caches[id]? = some c' ∧ c'.phase = .ready
  /-- Starts that fail, however many, and then one that succeeds come to what one start comes to that
  succeeds at once and meets the same faults when it reads. -/
  again : ∀ (n : Nat) (faults : List (Call × Fault)),
    (∀ k < n, ∃ e, ((h.restarted id k).start id).1 = .error e) →
      ((h.restarted id n).start id).1 = .ok () →
        pending .get faults = pending .get h.link.faults →
          ({ h with link.faults := faults }.start id).1 = .ok () →
            ((h.restarted id n).start id).2.caches
                = ({ h with link.faults := faults }.start id).2.caches ∧
              ((h.restarted id n).start id).2.store
                = ({ h with link.faults := faults }.start id).2.store
  /-- To start a cache that is ready changes nothing. -/
  idle : c.phase = .ready → h.start id = (.ok (), h)

theorem restartable_of_single {id : Nat} {c : Cache} {h : Hub} (hid : h.caches[id]? = some c)
    (hone : Single id c h.link) (hu : ∀ point, h.Undisturbed point) : Restartable id c h where
  error_iff e := by
    rw [start_error_iff hu hid, (list_undisturbed (hu _) (hu _) c.parent).1]
  failed e herr := by
    obtain ⟨hphase, hlist⟩ := (start_error_iff hu hid).mp herr
    obtain ⟨-, hlink, hcaches, -⟩ := start_of_error hu hid hphase hlist
    have hstore : (h.start id).2.store = (h.link.watchChildren c.parent (.cache id)).store := by
      rw [Hub.store, hlink]
      rfl
    have hcount := hone.children c.parent
    rw [if_pos rfl] at hcount
    rw [hstore, Watches.count_forPath]
    refine ⟨hcaches, rfl, rfl, ?_⟩
    rw [Link.watchChildren, Watches.count_entries_add, if_pos rfl]
    omega
  started hphase hok := by
    obtain ⟨e, hlist⟩ | hlist := listing_cases c.parent h.link
    · rw [(start_of_error hu hid hphase hlist).1] at hok
      cases hok
    · obtain ⟨-, -, hcaches⟩ := start_of_ok hu hid hphase hlist
      exact ⟨_, by rw [hcaches, ExtTreeMap.getElem?_insert_self], rfl⟩
  again n faults hfail hok hreads hok' := by
    by_cases hphase : c.phase = .uninitialized
    · obtain ⟨hr, hu'⟩ := retry_restarted hu hid n hfail
      have hfaults : Retry id c.parent h { h with link.faults := faults } := ⟨rfl, rfl, hreads⟩
      have hid' : (h.restarted id n).caches[id]? = some c := by rw [hr.caches, hid]
      obtain ⟨hcaches, hstore⟩ :=
        (hr.symm.trans hfaults).start hu' hu hid' hphase hok hok'
      exact ⟨hcaches.symm, hstore.symm⟩
    · -- then nothing is done by any of the starts, and none of them has failed
      have hn : n = 0 := by
        by_contra hn
        obtain ⟨e, herr⟩ := hfail 0 (by omega)
        exact hphase ((start_error_iff hu hid).mp herr).1
      subst hn
      have hstart := start_of_phase_ne hid hphase
      have hstart' := start_of_phase_ne (h := { h with link.faults := faults }) hid hphase
      rw [hstart']
      exact ⟨by rw [restarted, Function.iterate_zero, id_eq, hstart], by
        rw [restarted, Function.iterate_zero, id_eq, hstart]⟩
  idle hphase := start_of_phase_ne hid (by rw [hphase]; decide)

/-- **A cache can be started again, and it gets ready once.**  After any acts, whatever they write,
report, or make fail: the moment at which a cache got ready has been noted just if it is ready; it
has not been started or is ready, unless it is in the middle of a start; once it is ready it remains
so, whatever else is done; and what starting it comes to, where no write comes in between, is as it
should be. -/
theorem restartable {caches : ExtTreeMap Nat Cache}
    (hnew : ∀ (id : Nat) (c : Cache), caches[id]? = some c →
      c = Cache.fresh c.parent c.vault c.order)
    {as : List Act} {log : List Deed} {h : Hub}
    (hrun : Act.performAll as [] { Hub.empty with caches } = (log, h)) {id : Nat} {c : Cache}
    (hid : h.caches[id]? = some c) :
    (c.stamped = true ↔ c.phase = .ready) ∧
    (.begin id ∉ as → c.phase = .uninitialized ∨ c.phase = .ready) ∧
    (c.phase = .ready → ∀ (bs : List Act) (c' : Cache),
      (Act.performAll bs log h).2.caches[id]? = some c' → c'.phase = .ready) ∧
    ((∀ point, h.Undisturbed point) → Restartable id c h) := by
  have hkeeps : ∀ P : Cache → Prop, (∀ a ∈ as, ∀ c c', Cache.Comes id a c c' → P c → P c') →
      (∀ parent vault order, P (.fresh parent vault order)) → P c := by
    intro P hstep hP
    refine Act.performAll_keeps hstep (fun c₀ hc₀ => ?_) c (by rw [hrun]; exact hid)
    rw [hnew id c₀ hc₀]
    exact hP _ _ _
  refine ⟨?_, fun hbegin => ?_, fun hready bs => ?_, fun hu => ?_⟩
  · refine hkeeps Cache.Noted (fun _ _ _ _ hcomes => hcomes.noted) fun _ _ _ => ?_
    simp [Cache.Noted, Cache.fresh]
  · have hsettled : c.phase ≠ .syncing := by
      refine hkeeps (·.phase ≠ .syncing) (fun a ha _ _ hcomes => ?_) fun _ _ _ => by
        simp [Cache.fresh]
      exact hcomes.settled fun heq => hbegin (heq ▸ ha)
    cases hc : c.phase with
    | uninitialized => exact .inl rfl
    | syncing => exact absurd hc hsettled
    | ready => exact .inr rfl
  · refine Act.performAll_keeps (fun _ _ _ _ hcomes => hcomes.ready) fun c₀ hc₀ => ?_
    obtain rfl : c = c₀ := Option.some.inj (hid.symm.trans hc₀)
    exact hready
  · have hrun' : Run .boundless (Act.performAll as [] { Hub.empty with caches }).1
        (Act.performAll as [] { Hub.empty with caches }).2 :=
      Run.performAll (.initial hnew) fun a _ => a.within_boundless
    rw [hrun] at hrun'
    exact restartable_of_single hid (hrun'.course.lasts (lasting_single _ id) c hid) hu

/-- There is a record, and two listings are going to fail. -/
def failingActs : List Act :=
  [.write (.set "/users/ann_BROKER" (recordOf "ann" "enc:wp")),
    .fault .list (.fails .poisoned), .fault .list (.fails (.backend "down"))]

/-- The log and the hub after it. -/
def failingRun : List Deed × Hub := Act.performAll failingActs [] sampleHub

/-- Starts of the cache fail twice, and it stays registered once; the third start makes of it what
one would have made of it without the faults. -/
theorem restartable_failing : ∃ c, failingRun.2.caches[0]? = some c ∧ c.phase = .uninitialized ∧
    (failingRun.2.start 0).1 = .error .poisoned ∧
    ((failingRun.2.start 0).2.store.childWatches.forPath c.parent).count (.cache 0) = 1 ∧
    ((failingRun.2.restarted 0 2).start 0).2.store
      = ({ failingRun.2 with link.faults := [] }.start 0).2.store ∧
    ∃ c', ((failingRun.2.restarted 0 2).start 0).2.caches[0]? = some c' ∧ c'.phase = .ready ∧
      c'.watched.toList = ["ann_BROKER"] := by
  have hid : failingRun.2.caches[0]? = some (.new "/users" sampleVault) := rfl
  have hu : ∀ point, failingRun.2.Undisturbed point := fun point =>
    .of_nil (by cases point <;> rfl)
  have hrun : Act.performAll failingActs [] sampleHub = (failingRun.1, failingRun.2) := rfl
  have hr := (restartable new_sampleHub hrun hid).2.2.2 hu
  have herr : (failingRun.2.start 0).1 = .error .poisoned := by decide +kernel
  have hagain : ((failingRun.2.restarted 0 1).start 0).1 = .error (.backend "down") := by
    decide +kernel
  have hok : ((failingRun.2.restarted 0 2).start 0).1 = .ok () := by decide +kernel
  have hok' : ({ failingRun.2 with link.faults := [] }.start 0).1 = .ok () := by decide +kernel
  have hfail : ∀ k < 2, ∃ e, ((failingRun.2.restarted 0 k).start 0).1 = .error e := by
    intro k hk
    obtain rfl | rfl : k = 0 ∨ k = 1 := by omega
    · exact ⟨_, herr⟩
    · exact ⟨_, hagain⟩
  have hreads : pending .get [] = pending .get failingRun.2.link.faults := by decide +kernel
  obtain ⟨hcaches, hstore⟩ := hr.again 2 [] hfail hok hreads hok'
  have hready : ({ failingRun.2 with link.faults := [] }.start 0).2.caches[0]?.map
      (fun c => (c.phase, c.watched.toList)) = some (.ready, ["ann_BROKER"]) := by
    decide +kernel
  obtain ⟨c', hid', hc'⟩ := Option.map_eq_some_iff.mp hready
  exact ⟨_, hid, rfl, herr, (hr.failed _ herr).2.2.2, hstore, c', hcaches ▸ hid',
    congrArg Prod.fst hc', congrArg Prod.snd hc'⟩

end Hub

end Gatekeeper
