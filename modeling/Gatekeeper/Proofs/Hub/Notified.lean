import Gatekeeper.Proofs.Cache.Upkeep
import Gatekeeper.Proofs.Hub.Told

/-!
# Proofs/Hub/Notified — what is told adds up to what there is

A recorder that is registered for a topic throughout is told what there is to tell of the deeds, in
order (`Run.informed`): each write tells it what there is to tell of its own deed, and whatever else
happens on a `Trail` leaves its registrations and what it has heard alone (`Trail.along`).  Since the
records are what the deeds lead to (`Course.nodes_eq_replay`), the last that it is told is what there
is.  `Run.notified` puts it together.
-/

namespace Gatekeeper

open Std (ExtTreeMap)
open Hub

/-! ## Deeds done again -/

/-- **A write leads where its deed leads when it is done again**, even if it is broken off. -/
theorem Hub.nodes_write (w : Write) (h : Hub) : (h.write w).2.store.nodes
    = (h.store.replay (Deed.of w (h.write w).1 (h.write w).2.caches)).nodes := by
  obtain ⟨e, -, he⟩ | ⟨effect, heff, he⟩ := write_cases w h
  · rw [he, Deed.of_eq_nil rfl]
    rfl
  · have hnodes := (kept_deliver effect.events { h with link.store := effect.store }).nodes
    have hafter := Store.after_of_effect heff
    have hreplay : ∀ caches, h.store.replay [⟨w, caches⟩] = h.store.after w := fun _ => rfl
    rw [he, hnodes]
    obtain ⟨path, r, -, rfl⟩ | ⟨path, -, rfl⟩ | ⟨path, -, -, rfl⟩ | ⟨e, -, rfl⟩ :=
      Store.effect_cases heff
    · rw [Deed.of_delivered, hreplay, hafter]
    · rw [Deed.of_delivered, hreplay, hafter]
    · rfl
    · rw [Deed.of_delivered, hreplay, hafter]

/-- **The records are what the log's deeds lead to**, whatever the run. -/
theorem Course.nodes_eq_replay {z : Limits} {log : List Deed} {h : Hub} (hc : Course z log h) :
    h.store.nodes = (Store.empty.replay log).nodes := by
  refine hc.records (P := fun log nodes => nodes = (Store.empty.replay log).nodes) rfl ?_
  intro log h w ih
  rw [nodes_write, Store.replay_append]
  exact Store.replay_nodes_congr _ ih

/-! ## Trails, as recorders see them -/

namespace Hub

variable {h h' : Hub}

/-- The second hub has the records of the first, recorders are registered there as often, and have
heard no more. -/
structure Aside (h h' : Hub) : Prop where
  nodes : h'.store.nodes = h.store.nodes
  registrations : ∀ name t, h'.store.registrations (.recorder name) t
    = h.store.registrations (.recorder name) t
  heard : h'.heard = h.heard

theorem Aside.of_beside (hl : ∀ name, h.link.Beside (.recorder name) h'.link)
    (hheard : h'.heard = h.heard) : Aside h h' :=
  ⟨(hl "").nodes, fun name => (hl name).registrations, hheard⟩

theorem Aside.of_store (hstore : h'.store = h.store) (hheard : h'.heard = h.heard) : Aside h h' :=
  ⟨by rw [hstore], fun _ _ => by rw [hstore], hheard⟩

/-- Recorders do not notice what a cache does. -/
theorem aside_changeCache (id : Nat) {f : Cache → Link → Cache × Link} (h : Hub)
    (hf : ∀ (c : Cache) (l : Link) name, l.Beside (.recorder name) (f c l).2) :
    Aside h (h.changeCache id f) := by
  rw [changeCache]
  split
  · exact .of_store rfl rfl
  · exact .of_beside (fun name => hf _ _ name) rfl

end Hub

section Trails

variable {z : Limits} {name : String} {t : Topic} {log log' : List Deed} {h h' : Hub}

/-- **The induction along a trail**: besides writes there is nothing that recorders notice. -/
theorem Trail.along {P : List Deed → Hub → Prop} (ht : Trail z log h log' h')
    (hstart : P log h) (haside : ∀ {log h₁ h₂}, P log h₁ → Aside h₁ h₂ → P log h₂)
    (hwrite : ∀ {log₁ h₁ w}, Trail z log h log₁ h₁ → z.writes w → P log₁ h₁ →
      P (log₁ ++ Deed.of w (h₁.write w).1 (h₁.write w).2.caches) (h₁.write w).2) : P log' h' := by
  induction ht with
  | refl => exact hstart
  | still _ hs ih => exact haside ih (.of_beside (fun _ => hs.beside _) hs.heard)
  | fault f _ _ ih => exact haside ih (.of_store rfl rfl)
  | keep kept _ ih => exact haside ih (.of_store rfl rfl)
  | write ht hw ih => exact hwrite ht hw ih
  | register _ _ _ ih =>
    exact haside ih (aside_changeCache _ _ fun c l _ =>
      Link.beside_watchChildren (by simp) l c.parent)
  | giveUp _ _ ih => exact haside ih (aside_changeCache _ _ fun _ l _ => .refl _ l)
  | settle _ _ _ _ _ ih =>
    exact haside ih (aside_changeCache _ _ fun c l _ => Cache.beside_track (by simp) _ c l)

/-- **A trail leaves the registrations of recorders alone**, where nobody breaks off. -/
theorem Trail.registrations (ht : Trail z log h log' h') (hp : h.Permitted z) (harming : ¬z.arming)
    (name : String) (t : Topic) :
    h'.store.registrations (.recorder name) t = h.store.registrations (.recorder name) t := by
  refine ht.along (P := fun _ h' => h'.store.registrations (.recorder name) t
    = h.store.registrations (.recorder name) t) rfl ?_ ?_
  · exact fun ih hs => (hs.registrations name t).trans ih
  · intro log₁ h₁ w ht₁ _ ih
    exact (((ht₁.permitted hp).unarmed harming).write_registrations w name t).trans ih

/-! ## What a recorder hears between two points -/

/-- From the first hub to the second a recorder has heard of a topic what there was to tell of the
deeds that lead there. -/
structure Hub.Informed (name : String) (t : Topic) (h : Hub) (ds : List Deed) (h' : Hub) :
    Prop where
  nodes : h'.store.nodes = (h.store.replay ds).nodes
  heard : heardOn name t h' = heardOn name t h ++ t.events h.store ds

namespace Hub.Informed

variable {ds es : List Deed} {h₀ h₁ h₂ : Hub}

theorem refl (name : String) (t : Topic) (h : Hub) : Informed name t h [] h :=
  ⟨rfl, by rw [t.events_nil, List.append_nil]⟩

theorem trans (hi : Informed name t h ds h₁) (hi' : Informed name t h₁ es h₂) :
    Informed name t h (ds ++ es) h₂ where
  nodes := by rw [hi'.nodes, Store.replay_append, Store.replay_nodes_congr es hi.nodes]
  heard := by
    rw [hi'.heard, hi.heard, t.events_append, t.events_congr hi.nodes, List.append_assoc]

theorem aside (hi : Informed name t h ds h₁) (hs : Aside h₁ h₂) : Informed name t h ds h₂ :=
  ⟨hs.nodes.trans hi.nodes, by rw [← hi.heard, heardOn, heardOn, hs.heard]⟩

/-- It does not matter who is registered at first. -/
theorem of_start (hi : Informed name t h ds h') (hnodes : h.store.nodes = h₀.store.nodes)
    (hheard : h.heard = h₀.heard) : Informed name t h₀ ds h' where
  nodes := hi.nodes.trans (Store.replay_nodes_congr ds hnodes)
  heard := by rw [hi.heard, t.events_congr hnodes, heardOn, heardOn, hheard]

/-- **A write informs a recorder that is registered once.** -/
theorem write (hu : h.Unarmed) (ht : t.Bare) {w : Write} (hw : w.IsGenuine)
    (hone : h.store.registrations (.recorder name) t = 1) :
    Informed name t h (Deed.of w (h.write w).1 (h.write w).2.caches) (h.write w).2 := by
  refine ⟨nodes_write w h, ?_⟩
  rw [hu.heardOn_write, hu.regarding_told ht hw hone]

end Hub.Informed

/-- **Along a trail a recorder that is registered once is informed.** -/
theorem Trail.informed {ds : List Deed} (ht : Trail z [] h ds h') (hp : h.Permitted z)
    (harming : ¬z.arming) (hwrites : ∀ w, z.writes w → w.IsGenuine) (hbare : t.Bare)
    (hone : h.store.registrations (.recorder name) t = 1) : Informed name t h ds h' := by
  refine ht.along (P := Informed name t h) (.refl name t h) (fun ih hs => ih.aside hs) ?_
  intro log₁ h₁ w ht₁ hw ih
  have hone₁ := (ht₁.registrations hp harming name t).trans hone
  exact ih.trans (.write ((ht₁.permitted hp).unarmed harming) hbare (hwrites w hw) hone₁)

end Trails

/-! ## Who is registered -/

/-- The act by which a recorder is registered for a topic. -/
def Act.subscription (name : String) : Topic → Act
  | .children path => .watchChildren path name
  | .data path => .watchData path name

/-- The acts by which a recorder's registration for a topic is taken back. -/
def Act.Cancels (name : String) (a : Act) : Topic → Prop
  | .children _ => False
  | .data path => a = .unwatchData path name

section Runs

variable {z : Limits} {faults : Call → Prop} {name : String} {t : Topic} {log : List Deed} {h : Hub}
  {a : Act}

theorem Act.enrol_nodes (a : Act) (h : Hub) : (a.enrol h).store.nodes = h.store.nodes := by
  cases a <;> rfl

theorem Act.enrol_heard (a : Act) (h : Hub) : (a.enrol h).heard = h.heard := by
  cases a <;> rfl

/-- **What an act does to a recorder's registration for a topic**: it sees to it, takes it back, or
leaves it alone. -/
theorem Act.enrol_registrations (a : Act) (h : Hub) (name : String) (t : Topic) :
    a = .subscription name t ∧ (a.enrol h).store.registrations (.recorder name) t
        = max 1 (h.store.registrations (.recorder name) t) ∨
      a.Cancels name t ∧ (a.enrol h).store.registrations (.recorder name) t = 0 ∨
      a ≠ .subscription name t ∧ (a.enrol h).store.registrations (.recorder name) t
        = h.store.registrations (.recorder name) t := by
  by_cases hsub : a = .subscription name t
  · subst hsub
    cases t <;> exact .inl ⟨rfl, (Watches.count_entries_add ..).trans (if_pos rfl)⟩
  by_cases hcancels : a.Cancels name t
  · cases t with
    | children path => exact hcancels.elim
    | data path =>
      obtain rfl := hcancels
      exact .inr (.inl ⟨rfl, (Watches.count_entries_drop ..).trans (if_pos rfl)⟩)
  refine .inr (.inr ⟨hsub, ?_⟩)
  cases a with
  | watchChildren path n =>
    cases t with
    | children q =>
      exact (Watches.count_entries_add ..).trans (if_neg fun heq => hsub (by cases heq; rfl))
    | data q => rfl
  | watchData path n =>
    cases t with
    | children q => rfl
    | data q =>
      exact (Watches.count_entries_add ..).trans (if_neg fun heq => hsub (by cases heq; rfl))
  | unwatchData path n =>
    cases t with
    | children q => rfl
    | data q =>
      exact (Watches.count_entries_drop ..).trans (if_neg fun heq => hcancels (by cases heq; rfl))
  | _ => rfl

/-- **No recorder is registered for a topic twice**, in a run where nobody breaks off. -/
theorem Run.registrations_le (hr : Run z log h) (harming : ¬z.arming) (name : String) (t : Topic) :
    h.store.registrations (.recorder name) t ≤ 1 := by
  induction hr with
  | initial _ =>
    cases t <;> simp [Store.registrations, empty, Link.empty, Store.empty, Watches.empty]
  | @act log h a hr ha ih =>
    have hp := hr.course.permitted
    have ht : Trail z [] (a.enrol h) _ _ := a.trail hp ha
    rw [ht.registrations (hp.quiet (a.quiet_enrol h)) harming]
    obtain ⟨-, he⟩ | ⟨-, he⟩ | ⟨-, he⟩ := a.enrol_registrations h name t <;> omega

/-- A recorder is registered from an act on, if it was before and its registration is not taken back,
or if the act sees to it. -/
theorem Act.registered_enrol (hle : h.store.registrations (.recorder name) t ≤ 1)
    (hreg : h.store.registrations (.recorder name) t = 1 ∨ a = .subscription name t)
    (hstays : ¬a.Cancels name t) : (a.enrol h).store.registrations (.recorder name) t = 1 := by
  obtain ⟨-, he⟩ | ⟨hcancels, -⟩ | ⟨hne, he⟩ := a.enrol_registrations h name t
  · omega
  · exact absurd hcancels hstays
  · exact he.trans (hreg.resolve_right hne)

/-! ## What a recorder hears in a run -/

/-- **An act informs a recorder that is registered** for a topic, or is by the act. -/
theorem Run.informed_act (hr : Run (.genuine faults) log h) (ha : a.Within (.genuine faults))
    (hbare : t.Bare)
    (hreg : h.store.registrations (.recorder name) t = 1 ∨ a = .subscription name t)
    (hstays : ¬a.Cancels name t) :
    (a.perform h).store.registrations (.recorder name) t = 1 ∧
      Informed name t h (a.deeds h) (a.perform h) := by
  have hp := hr.course.permitted
  have hp' := hp.quiet (a.quiet_enrol h)
  have ht : Trail (.genuine faults) [] (a.enrol h) (a.deeds h) (a.perform h) := a.trail hp ha
  have hone := Act.registered_enrol (hr.registrations_le (fun harm => harm) name t) hreg hstays
  have hi := ht.informed hp' (fun harm => harm) (fun _ hw => hw) hbare hone
  exact ⟨(ht.registrations hp' (fun harm => harm) name t).trans hone,
    hi.of_start (a.enrol_nodes h) (a.enrol_heard h)⟩

/-- The log before acts does not matter to what they do. -/
theorem Act.performAll_eq : ∀ (as : List Act) (log : List Deed) (h : Hub),
    Act.performAll as log h = (log ++ (Act.performAll as [] h).1, (Act.performAll as [] h).2)
  | [], log, h => by simp [performAll]
  | a :: as, log, h => by
    rw [performAll, performAll, performAll_eq as (log ++ a.deeds h),
      performAll_eq as ([] ++ a.deeds h), List.nil_append, List.append_assoc]

/-- **Acts inform a recorder that stays registered** for a topic from the first of them on. -/
theorem Run.informed (hbare : t.Bare) : ∀ {as : List Act} {log : List Deed} {h : Hub},
    Run (.genuine faults) log h → (∀ a ∈ as, a.Within (.genuine faults)) →
    (h.store.registrations (.recorder name) t = 1 ∨ as.head? = some (.subscription name t)) →
    (∀ a ∈ as, ¬a.Cancels name t) →
      Informed name t h (Act.performAll as [] h).1 (Act.performAll as [] h).2
  | [], _, h, _, _, _, _ => .refl name t h
  | a :: as, _, h, hr, has, hreg, hstays => by
    have hreg' : h.store.registrations (.recorder name) t = 1 ∨ a = .subscription name t :=
      hreg.imp_right Option.some.inj
    obtain ⟨hone, hi⟩ := hr.informed_act (has a List.mem_cons_self) hbare hreg'
      (hstays a List.mem_cons_self)
    have hrest := Run.informed hbare (hr.act (has a List.mem_cons_self))
      (fun b hb => has b (List.mem_cons_of_mem _ hb)) (.inl hone)
      fun b hb => hstays b (List.mem_cons_of_mem _ hb)
    rw [Act.performAll, List.nil_append, Act.performAll_eq]
    exact hi.trans hrest

end Runs

/-! ## Notifications -/

/-- **What a recorder is told of a node**, while acts are done whose deeds lead from one hub to
another. -/
structure Hub.Notified (name path : String) (as : List Act) (h : Hub) (ds : List Deed) (h' : Hub) :
    Prop where
  /-- A recorder that stays registered for the record of a node, or is with the first act, hears of
  each deed to the node once, in order. -/
  data : (path, .recorder name) ∈ h.store.dataWatches.entries
      ∨ as.head? = some (.watchData path name) →
    Act.unwatchData path name ∉ as →
    heardOn name (.data path) h'
      = heardOn name (.data path) h ++ ds.filterMap (·.dataEvent? path)
  /-- The last of them tells of the record there is. -/
  record : ∀ e, (ds.filterMap (·.dataEvent? path)).getLast? = some e →
    h'.store.nodes[path]? = e.record?
  /-- A recorder that is registered for the children of a node, or is with the first act, hears of
  each child that comes to be or goes once, in order, and what children there are then. -/
  children : (path, .recorder name) ∈ h.store.childWatches.entries
      ∨ as.head? = some (.watchChildren path name) →
    Path.IsBare path →
    heardOn name (.children path) h'
      = heardOn name (.children path) h ++ h.store.childEvents path ds
  /-- The last of them tells of the children there are. -/
  listing : ∀ e, (h.store.childEvents path ds).getLast? = some e →
    e = .children path (h'.store.children path)

section Notified

variable {faults : Call → Prop} {log : List Deed} {h : Hub}

/-- **What is told adds up to what there is.**  In a run of genuine writes where nobody breaks off,
a recorder that stays registered hears of each deed once, and the last that it hears is what there
is; and each write tells in order. -/
theorem Run.notified (hr : Run (.genuine faults) log h) {as : List Act}
    (has : ∀ a ∈ as, a.Within (.genuine faults)) (name path : String) :
    (∃ ds, (Act.performAll as log h).1 = log ++ ds ∧
      Notified name path as h ds (Act.performAll as log h).2) ∧
    h.Unarmed ∧ ∀ g : Hub, g.Unarmed → g.Orderly := by
  have hrun := hr.performAll has
  rw [Act.performAll_eq] at hrun ⊢
  have hone : ∀ t, 0 < h.store.registrations (.recorder name) t →
      h.store.registrations (.recorder name) t = 1 := fun t hpos =>
    Nat.le_antisymm (hr.registrations_le (fun harm => harm) name t) hpos
  refine ⟨⟨_, rfl, ?_, ?_, ?_, ?_⟩, hr.unarmed, fun _ hu => hu.orderly⟩
  · intro hreg hstays
    refine (hr.informed (t := .data path) trivial has ?_ ?_).heard
    · exact hreg.imp_left fun hmem => hone _ (List.count_pos_iff.mpr hmem)
    · rintro a ha rfl
      exact hstays ha
  · intro e he
    have hhead := record_of_dataEvents he (chronicle path log)
    rwa [chronicle, ← List.foldl_append, ← chronicle, hrun.course.head_chronicle] at hhead
  · intro hreg hbare
    refine (hr.informed (t := .children path) hbare has ?_ fun _ _ hno => hno).heard
    exact hreg.imp_left fun hmem => hone _ (List.count_pos_iff.mpr hmem)
  · intro e he
    have hnodes := hrun.course.nodes_eq_replay
    rw [Store.replay_append] at hnodes
    have hreplay :=
      Store.replay_nodes_congr (Act.performAll as [] h).1 hr.course.nodes_eq_replay
    rw [children_of_childEvents he, Store.children_congr (hreplay.trans hnodes.symm)]

/-- Someone listens to a node and to its parent, and a cache is started. -/
def listeningActs : List Act :=
  [.watchChildren "/users" "eve", .watchData "/users/bob" "eve", .start 0]

/-- The log and the hub once someone listens. -/
def listeningRun : List Deed × Hub := Act.performAll listeningActs [] sampleHub

/-- A node comes to be, is written over, and is not created again; a node that is further below comes
to be; a sibling comes to be while children are listed; the node goes, and does not go again. -/
def busyActs : List Act :=
  [.write (.set "/users/bob" (.empty "b")), .write (.set "/users/bob" (.empty "c")),
    .write (.create "/users/bob" (.empty "d")), .write (.create "/users/bob/x" (.empty "x")),
    .await .beforeList [.ok (.create "/users/ann" (.empty "a"))], .list "/users",
    .write (.remove "/users/bob"), .write (.remove "/users/bob")]

/-- The listener is told of all that it listens to, and of nothing else. -/
theorem notified_busy :
    let after := Act.performAll busyActs listeningRun.1 listeningRun.2
    (∃ ds, after.1 = listeningRun.1 ++ ds ∧
      heardOn "eve" (.data "/users/bob") after.2 =
        heardOn "eve" (.data "/users/bob") listeningRun.2
          ++ ds.filterMap (·.dataEvent? "/users/bob")) ∧
    (∃ ds, after.1 = listeningRun.1 ++ ds ∧
      heardOn "eve" (.children "/users") after.2 =
        heardOn "eve" (.children "/users") listeningRun.2
          ++ listeningRun.2.store.childEvents "/users" ds) ∧
    heardOn "eve" (.data "/users/bob") after.2 =
      [.changed "/users/bob" (.empty "b"), .changed "/users/bob" (.empty "c"),
        .deleted "/users/bob"] ∧
    heardOn "eve" (.children "/users") after.2 =
      [.children "/users" ["bob"], .children "/users" ["ann", "bob"],
        .children "/users" ["ann"]] := by
  intro after
  have hr : Run (.genuine fun _ => False) listeningRun.1 listeningRun.2 := by
    refine Run.performAll (.initial new_sampleHub) ?_
    simp only [listeningActs, List.forall_mem_cons, List.not_mem_nil, false_imp_iff, implies_true,
      and_true]
    exact ⟨trivial, trivial, trivial⟩
  have has : ∀ a ∈ busyActs, a.Within (.genuine fun _ => False) := by
    simp only [busyActs, List.forall_mem_cons, List.not_mem_nil, false_imp_iff, implies_true,
      and_true]
    refine ⟨trivial, trivial, trivial, trivial, fun w hw => ?_, trivial, trivial, trivial⟩
    obtain rfl : w = .create "/users/ann" (.empty "a") := by simpa using hw
    trivial
  obtain ⟨⟨ds, hds, hbob⟩, -⟩ := hr.notified has "eve" "/users/bob"
  obtain ⟨⟨es, hes, husers⟩, -⟩ := hr.notified has "eve" "/users"
  exact ⟨⟨ds, hds, hbob.data (.inl (by decide +kernel)) (by simp [busyActs])⟩,
    ⟨es, hes, husers.children (.inl (by decide +kernel)) (by decide +kernel)⟩,
    by decide +kernel, by decide +kernel⟩

end Notified

end Gatekeeper
