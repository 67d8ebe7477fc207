import Gatekeeper.Proofs.Cache.Exact
import Gatekeeper.Proofs.Hub.PlainMap

/-!
# Proofs/Cache/Apart — what goes on at one component of a cache

A write to a child is about the component that the child's name has (`Write.concerns`), whatever its
record claims to be.  `Ready.sameAt_filter`: of all writes to a store that a cache follows, only
those that concern a component do anything to its entries there, and what they do is the same, one
edit after another, whichever other writes there are between them.

Two caches are compared by what was done to them, not by what they hold (`Cache.SameAt`).  So it is
not left to chance that they also list it in one order, if that order depends on nothing else.
-/

namespace Gatekeeper

open Std (ExtTreeMap ExtTreeSet)
open Hub

/-! ## Two caches, as far as one component goes -/

/-- **The same has happened to two caches at a component.**  What was done to its entries was the
same, one edit after another, and they watch the same of the children whose names have it. -/
structure Cache.SameAt (d : Component) (c₁ c₂ : Cache) : Prop where
  akin : c₁.Akin c₂
  edits_eq : (c₁.entries.shelf d).edits = (c₂.entries.shelf d).edits
  order_eq : c₁.order d = c₂.order d
  watched_iff : ∀ name, (Identity.mk name).component? = some d →
    (name ∈ c₁.watched ↔ name ∈ c₂.watched)

namespace Cache.SameAt

variable {d : Component} {c c₁ c₂ c₃ : Cache} {name path : String}

/-- Then they also hold the same of it, and list it alike. -/
theorem shelf_eq (h : SameAt d c₁ c₂) : c₁.entries.shelf d = c₂.entries.shelf d :=
  Shelf.ext_edits h.edits_eq h.order_eq

theorem refl (d : Component) (c : Cache) : SameAt d c c := ⟨.refl c, rfl, rfl, fun _ _ => .rfl⟩

theorem symm (h : SameAt d c₁ c₂) : SameAt d c₂ c₁ :=
  ⟨h.akin.symm, h.edits_eq.symm, h.order_eq.symm, fun n hn => (h.watched_iff n hn).symm⟩

theorem trans (h : SameAt d c₁ c₂) (h' : SameAt d c₂ c₃) : SameAt d c₁ c₃ :=
  ⟨h.akin.trans h'.akin, h.edits_eq.trans h'.edits_eq, h.order_eq.trans h'.order_eq,
    fun n hn => (h.watched_iff n hn).trans (h'.watched_iff n hn)⟩

/-! ### The same is done to both -/

theorem watch (h : SameAt d c₁ c₂) (name : String) :
    SameAt d { c₁ with watched := c₁.watched.insert name }
      { c₂ with watched := c₂.watched.insert name } := by
  refine ⟨h.akin.both (akin_watched c₁ _) (akin_watched c₂ _), h.edits_eq, h.order_eq,
    fun n hn => ?_⟩
  simp only [ExtTreeSet.mem_insert, h.watched_iff n hn]

theorem unwatch (h : SameAt d c₁ c₂) (name : String) :
    SameAt d { c₁ with watched := c₁.watched.erase name }
      { c₂ with watched := c₂.watched.erase name } := by
  refine ⟨h.akin.both (akin_watched c₁ _) (akin_watched c₂ _), h.edits_eq, h.order_eq,
    fun n hn => ?_⟩
  simp only [ExtTreeSet.mem_erase, h.watched_iff n hn]

/-- One edit more. -/
theorem edits_edit (h : SameAt d c₁ c₂) (e : Edit Identity Credential) (f : Component) :
    ((c₁.entries.edit e f).shelf d).edits = ((c₂.entries.edit e f).shelf d).edits := by
  rw [Partition.edits_edit, Partition.edits_edit, h.edits_eq]

theorem accept (h : SameAt d c₁ c₂) (path : String) (r : Record) :
    SameAt d (c₁.accept path r) (c₂.accept path r) := by
  refine ⟨h.akin.both (akin_accept c₁ path r) (akin_accept c₂ path r), ?_, ?_, fun n hn => ?_⟩
  · have hsame : c₂.vault.credentialAt (Path.lastSegment path) r
        = c₁.vault.credentialAt (Path.lastSegment path) r := by rw [h.akin.vault_eq]
    rw [accept_eq, accept_eq, hsame]
    cases c₁.vault.credentialAt (Path.lastSegment path) r with
    | none => exact h.edits_eq
    | some x => exact h.edits_edit _ _
  · rw [accept_order, accept_order, h.order_eq]
  · rw [accept_watched, accept_watched, h.watched_iff n hn]

theorem forget (h : SameAt d c₁ c₂) (name : String) :
    SameAt d (c₁.forget name) (c₂.forget name) := by
  refine ⟨h.akin.both (akin_forget c₁ name) (akin_forget c₂ name), ?_, ?_, fun n hn => ?_⟩
  · rw [Cache.forget, Cache.forget]
    cases (Identity.mk name).component? with
    | none => exact h.edits_eq
    | some e => exact h.edits_edit _ _
  · rw [forget_order, forget_order, h.order_eq]
  · rw [forget_watched, forget_watched, h.watched_iff n hn]

/-- Both load a child of the component, or neither does. -/
theorem written (h : SameAt d c₁ c₂) (hpath : Path.childName? c₁.parent path = some name)
    (hname : (Identity.mk name).component? = some d) (r : Record) :
    SameAt d (c₁.written path r) (c₂.written path r) := by
  have hpath' : Path.childName? c₂.parent path = some name := h.akin.parent_eq ▸ hpath
  rw [written_of_some hpath, written_of_some hpath']
  by_cases hn : name ∈ c₁.watched
  · rw [if_pos hn, if_pos ((h.watched_iff name hname).mp hn)]
    exact h.accept path r
  · rw [if_neg hn, if_neg (mt (h.watched_iff name hname).mpr hn)]
    exact ((h.watch name).accept path r).accept path r

theorem bereft (h : SameAt d c₁ c₂) (path : String) : SameAt d (c₁.bereft path) (c₂.bereft path) := by
  cases hpath : Path.childName? c₁.parent path with
  | none =>
    rw [bereft_of_none hpath, bereft_of_none (h.akin.parent_eq ▸ hpath)]
    exact h
  | some name =>
    rw [bereft_of_some hpath, bereft_of_some (h.akin.parent_eq ▸ hpath)]
    exact (h.unwatch name).forget name

/-! ### What is none of the component's business -/

theorem of_accept (c : Cache) (r : Record)
    (hname : (Identity.mk (Path.lastSegment path)).component? ≠ some d) :
    SameAt d c (c.accept path r) := by
  refine ⟨akin_accept c path r, ?_, by rw [accept_order], fun n _ => by rw [accept_watched]⟩
  rw [accept_eq]
  cases hx : c.vault.credentialAt (Path.lastSegment path) r with
  | none => rfl
  | some x =>
    have hne : d ≠ x.component := by
      rintro rfl
      exact hname (Vault.component?_of_credentialAt hx)
    exact ((c.entries.edits_edit _ _ _).trans (if_neg hne)).symm

theorem of_forget (c : Cache) (hname : (Identity.mk name).component? ≠ some d) :
    SameAt d c (c.forget name) := by
  refine ⟨akin_forget c name, ?_, by rw [forget_order], fun n _ => by rw [forget_watched]⟩
  rw [Cache.forget]
  cases he : (Identity.mk name).component? with
  | none => rfl
  | some e =>
    have hne : d ≠ e := by
      rintro rfl
      exact hname he
    exact ((c.entries.edits_edit _ _ _).trans (if_neg hne)).symm

/-- To watch other children, or no longer, is to watch the same of the component. -/
theorem of_watched (c : Cache) {watched : ExtTreeSet String}
    (hname : (Identity.mk name).component? ≠ some d)
    (hwatched : ∀ n, n ≠ name → (n ∈ c.watched ↔ n ∈ watched)) :
    SameAt d c { c with watched } :=
  ⟨akin_watched c watched, rfl, rfl, fun n hn => hwatched n fun heq => hname (heq ▸ hn)⟩

/-- A record of a child whose name does not have the component, or of no child. -/
theorem of_written (c : Cache) (r : Record) (hname : ∀ name,
    Path.childName? c.parent path = some name → (Identity.mk name).component? ≠ some d) :
    SameAt d c (c.written path r) := by
  cases hpath : Path.childName? c.parent path with
  | none =>
    rw [written_of_none hpath]
    exact .refl d c
  | some name =>
    have hne := hname name hpath
    have hlast : (Identity.mk (Path.lastSegment path)).component? ≠ some d := by
      obtain ⟨hseg, rfl⟩ := Path.childName?_eq_some_iff.mp hpath
      rwa [Path.lastSegment_child c.parent hseg]
    rw [written_of_some hpath]
    split
    · exact of_accept c r hlast
    · have hwatch : SameAt d c { c with watched := c.watched.insert name } :=
        of_watched c hne fun n hn => by simp [Ne.symm hn]
      exact (hwatch.trans (of_accept _ r hlast)).trans (of_accept _ r hlast)

/-- A child that is gone, whose name does not have the component, or no child. -/
theorem of_bereft (c : Cache) (hname : ∀ name,
    Path.childName? c.parent path = some name → (Identity.mk name).component? ≠ some d) :
    SameAt d c (c.bereft path) := by
  cases hpath : Path.childName? c.parent path with
  | none =>
    rw [bereft_of_none hpath]
    exact .refl d c
  | some name =>
    have hne := hname name hpath
    rw [bereft_of_some hpath]
    have hunwatch : SameAt d c { c with watched := c.watched.erase name } :=
      of_watched c hne fun n hn => by simp [Ne.symm hn]
    exact hunwatch.trans (of_forget _ hne)

end Cache.SameAt

/-- The same children whose names have the component are there. -/
def SameChildren (parent : String) (d : Component) (m₁ m₂ : ExtTreeMap String Record) : Prop :=
  ∀ name, Path.IsSegment name → (Identity.mk name).component? = some d →
    (Path.child parent name ∈ m₁ ↔ Path.child parent name ∈ m₂)

namespace SameChildren

variable {parent : String} {d : Component} {m₁ m₂ m₃ : ExtTreeMap String Record}

theorem symm (h : SameChildren parent d m₁ m₂) : SameChildren parent d m₂ m₁ :=
  fun name hseg hname => (h name hseg hname).symm

theorem trans (h : SameChildren parent d m₁ m₂) (h' : SameChildren parent d m₂ m₃) :
    SameChildren parent d m₁ m₃ :=
  fun name hseg hname => (h name hseg hname).trans (h' name hseg hname)

end SameChildren

/-- Whether a write leaves its own node in place does not depend on the store. -/
theorem Store.mem_after_self {s t : Store} {w : Write} {path : String} (h : w.path? = some path) :
    path ∈ (s.after w).nodes ↔ path ∈ (t.after w).nodes := by
  cases w with
  | create q r =>
    cases h
    by_cases hs : path ∈ s.nodes <;> by_cases ht : path ∈ t.nodes <;>
      simp [after, effect, put, hs, ht]
  | set q r =>
    cases h
    simp [after, effect, put]
  | remove q =>
    cases h
    by_cases hs : path ∈ s.nodes <;> by_cases ht : path ∈ t.nodes <;>
      simp [after, effect, delete, hs, ht]
  | notify e => cases h

/-! ## Writes to the children of a component -/

/-- Whether a write is to a child whose name has the component. -/
def Write.concerns (parent : String) (component : Component) (w : Write) : Bool :=
  (w.path?.bind (Path.childName? parent)).any fun name =>
    (Identity.mk name).component? = some component

theorem Write.concerns_iff {parent : String} {component : Component} {w : Write} :
    w.concerns parent component = true ↔ ∃ path name, w.path? = some path ∧
      Path.childName? parent path = some name ∧
        (Identity.mk name).component? = some component := by
  simp only [concerns, Option.any_eq_true, Option.bind_eq_some_iff, decide_eq_true_eq]
  constructor
  · rintro ⟨name, ⟨path, hpath, hchild⟩, hname⟩
    exact ⟨path, name, hpath, hchild, hname⟩
  · rintro ⟨path, name, hpath, hchild, hname⟩
    exact ⟨name, ⟨path, hpath, hchild⟩, hname⟩

section Writes

variable {d : Component} {id : Nat} {c c₁ c₂ : Cache} {s s₁ s₂ : Store} {w : Write}

/-- **A write that concerns the component does the same to caches that are the same at it.** -/
theorem Cache.SameAt.after (h : SameAt d c₁ c₂) (hm : SameChildren c₁.parent d s₁.nodes s₂.nodes)
    (hw : w.concerns c₁.parent d = true) :
    SameAt d (c₁.after s₁.nodes w) (c₂.after s₂.nodes w) := by
  obtain ⟨path, name, hpath, hchild, hname⟩ := Write.concerns_iff.mp hw
  have hin : path ∈ s₁.nodes ↔ path ∈ s₂.nodes := by
    obtain ⟨hseg, rfl⟩ := Path.childName?_eq_some_iff.mp hchild
    exact hm name hseg hname
  cases w with
  | create q r =>
    cases hpath
    rw [Cache.after, Cache.after]
    simp only [hin]
    split
    · exact h
    · exact h.written hchild hname r
  | set q r =>
    cases hpath
    exact h.written hchild hname r
  | remove q =>
    cases hpath
    rw [Cache.after, Cache.after]
    simp only [hin]
    split
    · exact h.bereft path
    · exact h
  | notify e => cases hpath

/-- **Any other write does nothing to the component.** -/
theorem Cache.SameAt.of_after (c : Cache) (s : Store) (hw : ¬w.concerns c.parent d = true) :
    SameAt d c (c.after s.nodes w) := by
  have hname : ∀ path, w.path? = some path → ∀ name, Path.childName? c.parent path = some name →
      (Identity.mk name).component? ≠ some d :=
    fun path hpath name hchild hd => hw (Write.concerns_iff.mpr ⟨path, name, hpath, hchild, hd⟩)
  cases w with
  | create q r =>
    rw [Cache.after]
    split
    · exact .refl d c
    · exact .of_written c r (hname q rfl)
  | set q r => exact .of_written c r (hname q rfl)
  | remove q =>
    rw [Cache.after]
    split
    · exact .of_bereft c (hname q rfl)
    · exact .refl d c
  | notify e => exact .refl d c

/-- A write does the same to stores that have the same children. -/
theorem SameChildren.after {parent : String} (hm : SameChildren parent d s₁.nodes s₂.nodes)
    (w : Write) : SameChildren parent d (s₁.after w).nodes (s₂.after w).nodes := by
  intro name hseg hname
  by_cases hpath : w.path? = some (Path.child parent name)
  · exact Store.mem_after_self hpath
  · rw [Store.mem_after_iff hpath, Store.mem_after_iff hpath]
    exact hm name hseg hname

theorem SameChildren.of_after {parent : String} (s : Store)
    (hw : ¬w.concerns parent d = true) : SameChildren parent d s.nodes (s.after w).nodes := by
  intro name hseg hname
  refine (Store.mem_after_iff fun hpath => hw ?_).symm
  exact Write.concerns_iff.mpr
    ⟨_, name, hpath, Path.childName?_eq_some_iff.mpr ⟨hseg, rfl⟩, hname⟩

/-- **Of a run of writes only those that concern the component make a difference to it.** -/
theorem Ready.sameAt_filter : ∀ {ws : List Write} {h₁ h₂ : Hub} {c₁ c₂ : Cache},
    Ready id c₁ h₁ → Ready id c₂ h₂ → c₁.SameAt d c₂ →
      SameChildren c₁.parent d h₁.store.nodes h₂.store.nodes → (∀ w ∈ ws, w.IsGenuine) →
        ∃ d₁ d₂ : Cache, (inTurn Hub.submit ws h₁).2.caches[id]? = some d₁ ∧
          (inTurn Hub.submit (ws.filter (Write.concerns c₁.parent d)) h₂).2.caches[id]? = some d₂ ∧
            d₁.SameAt d d₂
  | [], _, _, c₁, c₂, hr₁, hr₂, h, _, _ => ⟨c₁, c₂, hr₁.found, hr₂.found, h⟩
  | w :: ws, h₁, h₂, c₁, c₂, hr₁, hr₂, h, hm, hws => by
    obtain ⟨hw, hws⟩ := List.forall_mem_cons.mp hws
    have hr₁' := hr₁.submit hw
    have hakin := c₁.akin_after h₁.store.nodes w
    rw [← hakin.parent_eq, inTurn_cons]
    by_cases hd : w.concerns c₁.parent d = true
    · rw [List.filter_cons_of_pos (by rwa [hakin.parent_eq]), inTurn_cons]
      refine hr₁'.sameAt_filter (hr₂.submit hw) (h.after hm hd) ?_ hws
      rw [hakin.parent_eq, hr₁.nodes_submit, hr₂.nodes_submit]
      exact hm.after w
    · rw [List.filter_cons_of_neg (by rwa [hakin.parent_eq])]
      have hthis : (c₁.after h₁.store.nodes w).SameAt d c₂ :=
        (Cache.SameAt.of_after c₁ h₁.store hd).symm.trans h
      refine hr₁'.sameAt_filter hr₂ hthis ?_ hws
      rw [hakin.parent_eq, hr₁.nodes_submit]
      exact (SameChildren.of_after h₁.store hd).symm.trans hm

end Writes

end Gatekeeper
