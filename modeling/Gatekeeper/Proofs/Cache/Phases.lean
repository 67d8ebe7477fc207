import Gatekeeper.Proofs.Hub.Course

/-!
# Proofs/Cache/Phases — how far a cache comes, act by act

No event and no race changes how far a cache has come (`Hub.Alike`); only a start of the cache itself
does.  `Act.comes` lists all that an act may make of it: it stays as it is, or it begins to list, if
the act is a start that goes no further than its registration, or it gets ready, if the act is a
start of it that succeeds.  A start that fails leaves it where it was.

What each of them keeps of a cache holds of it after any acts (`Act.performAll_keeps`).  So the moment
at which a cache got ready has been noted just if it is ready (`Cache.Comes.noted`), it is not found
listing outside of a start (`Cache.Comes.settled`), and once it is ready it remains so
(`Cache.Comes.ready`).
-/

namespace Gatekeeper

open Std (ExtTreeMap)

namespace Hub

variable {id : Nat} {h h₁ h₂ h₃ : Hub}

/-! ## What leaves a cache where it is -/

/-- The cache, if it is there in the second hub, was there in the first, and differs in no more than
what it holds. -/
def Alike (id : Nat) (h h' : Hub) : Prop :=
  ∀ c', h'.caches[id]? = some c' → ∃ c, h.caches[id]? = some c ∧ c.Akin c'

theorem Alike.of_caches (heq : h₁.caches = h.caches) : Alike id h h₁ :=
  fun c hc => ⟨c, heq ▸ hc, .refl c⟩

theorem Alike.trans (ha : Alike id h₁ h₂) (hb : Alike id h₂ h₃) : Alike id h₁ h₃ := by
  intro c₃ hc₃
  obtain ⟨c₂, hc₂, hk⟩ := hb c₃ hc₃
  obtain ⟨c₁, hc₁, hk'⟩ := ha c₂ hc₂
  exact ⟨c₁, hc₁, hk'.trans hk⟩

theorem alike_write (w : Write) (h : Hub) : Alike id h (h.write w).2 := by
  have hself : Holds id (fun c' _ => ∃ c, h.caches[id]? = some c ∧ c.Akin c') h :=
    fun c hc => ⟨c, hc, .refl c⟩
  have hwrite := hself.write_of_akin (fun _ _ hk ⟨c, hc, hk'⟩ => ⟨c, hc, hk'.trans hk⟩) w
  exact fun c' hc' => hwrite c' hc'

/-- Writes, and what nobody notices, leave a cache where it is. -/
theorem Drift.alike {z : Limits} {log log' : List Deed} (hd : Drift z log h log' h₁) :
    Alike id h h₁ := by
  induction hd with
  | refl => exact .of_caches rfl
  | still _ hs ih => exact ih.trans (.of_caches hs.caches)
  | write _ _ ih => exact ih.trans (alike_write _ _)

theorem Passes.alike {z : Limits} (hp : Passes z h h₁) : Alike id h h₁ := by
  obtain ⟨rs, -, hd⟩ := hp
  exact Drift.alike (hd [])

/-- Whatever is announced is permitted where there are no limits. -/
theorem permitted_boundless (h : Hub) : h.Permitted .boundless :=
  ⟨fun _ _ => trivial, fun _ _ _ => trivial, fun _ _ => trivial⟩

theorem alike_reach (point : RacePoint) (h : Hub) : Alike id h (h.reach point) :=
  (passes_reach point (permitted_boundless h)).alike

theorem alike_list (path : String) (h : Hub) : Alike id h (h.list path).2 :=
  (passes_list path (permitted_boundless h)).alike

theorem alike_submit (w : Write) (h : Hub) : Alike id h (h.submit w).2 := by
  obtain ⟨h₁, hs, -, ⟨e, he⟩ | he⟩ := submit_cases (z := .boundless) w h
  · rw [he]
    exact .of_caches hs.caches
  · rw [he]
    exact (Alike.of_caches hs.caches).trans (alike_write w h₁)

theorem alike_task (a : Admin) (t : Admin.Task) (h : Hub) : Alike id h (t.run a h).2 := by
  by_cases ht : t = .list
  · subst ht
    exact alike_list a.parent h
  · have hworked := Admin.Task.worked (z := .boundless) a t ht h
    generalize t.run a h = out at hworked
    cases hworked with
    | idle hs _ _ => exact .of_caches hs.caches
    | wrote hs _ _ _ => exact (Alike.of_caches hs.caches).trans (alike_write _ _)

/-! ## Changing one cache -/

theorem getElem?_changeCache (k : Nat) (f : Cache → Link → Cache × Link) (h : Hub) :
    (h.changeCache k f).caches[id]?
      = if k = id then h.caches[id]?.map fun c => (f c h.link).1 else h.caches[id]? := by
  rw [changeCache]
  split
  · next hnone =>
    split
    · next heq => rw [← heq, hnone, Option.map_none]
    · rfl
  · next c hid =>
    rw [ExtTreeMap.getElem?_insert]
    by_cases heq : k = id
    · subst heq
      simp [hid]
    · simp [heq]

theorem alike_changeCache {k : Nat} (hne : k ≠ id) (f : Cache → Link → Cache × Link) (h : Hub) :
    Alike id h (h.changeCache k f) := by
  intro c hc
  rw [getElem?_changeCache, if_neg hne] at hc
  exact ⟨c, hc, .refl c⟩

end Hub

open Hub

/-! ## What an act makes of a cache -/

/-- **How far an act may take a cache.** -/
inductive Cache.Comes (id : Nat) (a : Act) (c c' : Cache) : Prop
  /-- It is left where it is. -/
  | stays (hphase : c'.phase = c.phase) (hstamped : c'.stamped = c.stamped)
  /-- A start that goes no further than its registration leaves it in the middle of listing. -/
  | begins (ha : a = .begin id) (hphase : c.phase = .uninitialized) (hphase' : c'.phase = .syncing)
      (hstamped : c'.stamped = c.stamped)
  /-- A start makes it ready, and the moment is noted. -/
  | settles (ha : a = .start id) (hphase : c.phase = .uninitialized) (hphase' : c'.phase = .ready)
      (hstamped : c'.stamped = true)

section Act

variable {id : Nat} {h : Hub} {c c' : Cache}

theorem Hub.Alike.comes {h' : Hub} (ha : Alike id h h') (a : Act) (hid : h'.caches[id]? = some c') :
    ∃ c, h.caches[id]? = some c ∧ Cache.Comes id a c c' := by
  obtain ⟨c, hc, hk⟩ := ha c' hid
  exact ⟨c, hc, .stays hk.phase_eq hk.stamped_eq⟩

/-- A start that goes no further than its registration. -/
theorem Hub.comes_begin (k : Nat) (hid : (h.begin k).caches[id]? = some c') :
    ∃ c, h.caches[id]? = some c ∧ Cache.Comes id (.begin k) c c' := by
  rw [Hub.begin] at hid
  cases hk : h.caches[k]? with
  | none =>
    rw [hk] at hid
    exact ⟨c', hid, .stays rfl rfl⟩
  | some c₀ =>
    simp only [hk] at hid
    split at hid
    · next hphase =>
      obtain ⟨c₁, hc₁, hakin⟩ := alike_reach _ _ c' hid
      dsimp only at hc₁
      rw [enter, getElem?_changeCache] at hc₁
      split at hc₁
      · next heq =>
        subst heq
        rw [hk, Option.map_some, Option.some.injEq] at hc₁
        subst hc₁
        exact ⟨c₀, hk, .begins rfl hphase hakin.phase_eq hakin.stamped_eq⟩
      · exact ⟨c₁, hc₁, .stays hakin.phase_eq hakin.stamped_eq⟩
    · exact ⟨c', hid, .stays rfl rfl⟩

/-- A start. -/
theorem Hub.comes_start (k : Nat) (hid : (h.start k).2.caches[id]? = some c') :
    ∃ c, h.caches[id]? = some c ∧ Cache.Comes id (.start k) c c' := by
  rw [Hub.start] at hid
  cases hk : h.caches[k]? with
  | none =>
    simp only [hk] at hid
    exact ⟨c', hid, .stays rfl rfl⟩
  | some c₀ =>
    simp only [hk] at hid
    split at hid
    · next hphase =>
      -- the cache is listing until the outcome of the listing is known
      have halike : Alike id (h.enter k .syncing)
          (((h.enter k .syncing).watchChildren c₀.parent (.cache k)).list c₀.parent).2 :=
        (alike_reach .afterSubscribe { h.enter k .syncing with
          link := (h.enter k .syncing).link.watchChildren c₀.parent (.cache k) }).trans
          (alike_list c₀.parent _)
      generalize ((h.enter k .syncing).watchChildren c₀.parent (.cache k)).list c₀.parent = out
        at halike hid
      by_cases heq : k = id
      · subst heq
        have hbegun : (h.enter k .syncing).caches[k]? = some { c₀ with phase := .syncing } := by
          rw [enter, getElem?_changeCache, if_pos rfl, hk, Option.map_some]
        obtain ⟨_ | names, g⟩ := out
        · dsimp only at hid
          rw [enter, getElem?_changeCache, if_pos rfl, Option.map_eq_some_iff] at hid
          obtain ⟨c₁, hc₁, rfl⟩ := hid
          obtain ⟨c₂, hc₂, hakin⟩ := halike c₁ hc₁
          cases hbegun.symm.trans hc₂
          exact ⟨c₀, hk, .stays hphase.symm hakin.stamped_eq⟩
        · dsimp only at hid
          rw [getElem?_changeCache, if_pos rfl, Option.map_eq_some_iff] at hid
          obtain ⟨c₁, hc₁, rfl⟩ := hid
          exact ⟨c₀, hk, .settles rfl hphase rfl rfl⟩
      · have halike' : Alike id h out.2 := (alike_changeCache heq _ h).trans halike
        obtain ⟨_ | names, g⟩ := out
        · exact (halike'.trans (alike_changeCache heq _ g)).comes _ hid
        · exact (halike'.trans (alike_changeCache heq _ g)).comes _ hid
    · exact ⟨c', hid, .stays rfl rfl⟩

/-- **How far an act takes a cache.** -/
theorem Act.comes (a : Act) (hid : (a.perform h).caches[id]? = some c') :
    ∃ c, h.caches[id]? = some c ∧ Cache.Comes id a c c' := by
  cases a with
  | write w => exact (alike_submit w h).comes _ hid
  | administer a t => exact (alike_task a t h).comes _ hid
  | list path => exact (alike_list path h).comes _ hid
  | watchChildren path name =>
    exact (alike_reach .afterSubscribe
      { h with link := h.link.watchChildren path (.recorder name) }).comes _ hid
  | begin k => exact comes_begin k hid
  | start k => exact comes_start k hid
  | keep kept =>
    simp only [Act.perform, keepCaches, ExtTreeMap.getElem?_filter', Option.filter_eq_some_iff]
      at hid
    exact ⟨c', hid.1, .stays rfl rfl⟩
  | read _ | watchData _ _ | unwatchData _ _ | arm _ | fault _ _ | await _ _ =>
    exact ⟨c', hid, .stays rfl rfl⟩

end Act

/-! ## What any acts make of it -/

section Acts

variable {id : Nat} {c c' : Cache}

/-- The moment at which the cache got ready has been noted just if it is ready. -/
def Cache.Noted (c : Cache) : Prop := c.stamped = true ↔ c.phase = .ready

theorem Cache.Comes.noted {a : Act} (hc : Cache.Comes id a c c') (hn : c.Noted) : c'.Noted := by
  cases hc with
  | stays hphase hstamped => rwa [Noted, hphase, hstamped]
  | begins _ hphase hphase' hstamped =>
    rw [Noted, hphase] at hn
    rw [Noted, hphase', hstamped, hn]
    decide
  | settles _ _ hphase' hstamped => simp [Noted, hphase', hstamped]

theorem Cache.Comes.ready {a : Act} (hc : Cache.Comes id a c c') (hr : c.phase = .ready) :
    c'.phase = .ready := by
  cases hc with
  | stays hphase _ => rwa [hphase]
  | begins _ hphase _ _ | settles _ hphase _ _ => cases hphase.symm.trans hr

theorem Cache.Comes.settled {a : Act} (hc : Cache.Comes id a c c') (ha : a ≠ .begin id)
    (hs : c.phase ≠ .syncing) : c'.phase ≠ .syncing := by
  cases hc with
  | stays hphase _ => rwa [hphase]
  | begins hbegin _ _ _ => exact absurd hbegin ha
  | settles _ _ hphase' _ => rw [hphase']; decide

/-- **What every act that is done keeps of a cache holds of it after them all.** -/
theorem Act.performAll_keeps {P : Cache → Prop} : ∀ {as : List Act} {log : List Deed} {h : Hub},
    (∀ a ∈ as, ∀ c c', Cache.Comes id a c c' → P c → P c') →
      (∀ c, h.caches[id]? = some c → P c) →
        ∀ c, (Act.performAll as log h).2.caches[id]? = some c → P c
  | [], _, _, _, hP => hP
  | a :: as, log, h, hstep, hP => by
    rw [Act.performAll]
    refine Act.performAll_keeps (fun b hb => hstep b (List.mem_cons_of_mem _ hb)) fun c' hc' => ?_
    obtain ⟨c, hc, hcomes⟩ := a.comes hc'
    exact hstep a List.mem_cons_self c c' hcomes (hP c hc)

end Acts

end Gatekeeper
