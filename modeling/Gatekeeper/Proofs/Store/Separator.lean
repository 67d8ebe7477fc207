import Gatekeeper.Proofs.Store.Effect
import Gatekeeper.Proofs.Store.Path

/-!
# Proofs/Store/Separator — a parent's path with a separator at its end

The children of a node are the same, and stand under the same paths, whether or not its path is
written with a separator at its end (`Path.child_append_slash`, `Store.children_append_slash`).  Who
is told of them is not: what a write tells of is found from the written path, and is the parent's
path as it stands there (`Store.tells`).

`Store.noticed` are the children that someone knows after a write who is told under such a path:
all that there are if the write tells of it, and else what remains of those known before.  Unless a
path with an empty segment is written, no later child is among them (`mem_of_mem_noticedAll`).
-/

namespace Gatekeeper

namespace Path

/-- The children's paths begin alike, be there a separator at the end or not. -/
theorem childStem_append_slash (parent : String) :
    childStem (parent ++ "/") = childStem parent := by
  have hslash : (parent ++ "/").toList.reverse = '/' :: parent.toList.reverse := by simp
  rw [childStem, childStem, Text.dropEndWhile, Text.dropEndWhile, hslash,
    List.dropWhile_cons_of_pos (by rfl)]

/-- **The children of a node stand under the same paths**, be there a separator at the end or not. -/
theorem child_append_slash (parent name : String) :
    child (parent ++ "/") name = child parent name := by
  rw [child, child, childStem_append_slash]

theorem childName?_append_slash (parent : String) :
    childName? (parent ++ "/") = childName? parent := by
  funext path
  rw [childName?, childName?, childStem_append_slash]

end Path

namespace Store

theorem children_append_slash (s : Store) (parent : String) :
    s.children (parent ++ "/") = s.children parent := by
  rw [children, children, below, below, Path.childStem_append_slash, Path.childName?_append_slash]

/-! ## Who is told -/

/-- Whether a write is told of to those who are registered for the children of a path: it brings a
node about, or takes one away, and what stands before the last separator of its path is this. -/
def tells (s : Store) (q : String) (w : Write) : Bool :=
  w.path?.any fun path => Path.parent? path = some q
    && (decide (path ∈ s.nodes) != decide (path ∈ (s.after w).nodes))

/-- **The children that someone knows after a write** who is told under a path, and knew these
before it. -/
def noticed (q : String) (s : Store) (names : List String) (w : Write) : List String :=
  if s.tells q w then (s.after w).children q
  else names.filter fun n => n ∈ (s.after w).children q

/-- The children that are known after writes, one after another. -/
def noticedAll (q : String) : Store → List String → List Write → List String
  | _, names, [] => names
  | s, names, w :: ws => noticedAll q (s.after w) (noticed q s names w) ws

variable {s t : Store} {q name : String} {names : List String} {w : Write} {ws : List Write}

theorem mem_noticed : name ∈ noticed q s names w ↔
    name ∈ (s.after w).children q ∧ (name ∈ names ∨ s.tells q w = true) := by
  rw [noticed]
  split
  · next htells => simp [htells]
  · next hsilent => simp [hsilent, and_comm]

theorem tells_eq_true_iff : s.tells q w = true ↔ ∃ path, w.path? = some path ∧
    Path.parent? path = some q ∧ ¬(path ∈ s.nodes ↔ path ∈ (s.after w).nodes) := by
  simp [tells, Option.any_eq_true]

/-- A child that is not removed stays one. -/
theorem mem_children_after (hn : name ∈ s.children q) (hw : w ≠ .remove (Path.child q name)) :
    name ∈ (s.after w).children q := by
  obtain ⟨hseg, hin⟩ := mem_children.mp hn
  refine mem_children.mpr ⟨hseg, ?_⟩
  by_cases hpath : w.path? = some (Path.child q name)
  · cases w with
    | create path r =>
      obtain rfl := Option.some.inj hpath
      simp [after, effect, hin]
    | set path r =>
      obtain rfl := Option.some.inj hpath
      simp [after, effect, put]
    | remove path => exact absurd (congrArg Write.remove (Option.some.inj hpath)) hw
    | notify e => cases hpath
  · exact (mem_after_iff hpath).mpr hin

/-- **Those who are registered under a bare path are told of every new child.** -/
theorem tells_of_mem_children (hbare : Path.IsBare q) (hn : name ∈ (s.after w).children q)
    (hnew : name ∉ s.children q) : s.tells q w = true := by
  obtain ⟨hseg, hin⟩ := mem_children.mp hn
  have hout : Path.child q name ∉ s.nodes := fun hold => hnew (mem_children.mpr ⟨hseg, hold⟩)
  have hpath : w.path? = some (Path.child q name) := by
    by_contra hne
    exact hout ((mem_after_iff hne).mp hin)
  exact tells_eq_true_iff.mpr
    ⟨_, hpath, Path.parent?_child hseg hbare, fun hiff => hout (hiff.mpr hin)⟩

theorem tells_congr (h : s.nodes = t.nodes) (q : String) (w : Write) :
    s.tells q w = t.tells q w := by
  rw [tells, tells, h, after_nodes_congr h]

theorem noticed_congr (h : s.nodes = t.nodes) (q : String) (names : List String) (w : Write) :
    noticed q s names w = noticed q t names w := by
  rw [noticed, noticed, tells_congr h, children_congr (after_nodes_congr h w)]

theorem noticedAll_congr (q : String) : ∀ (ws : List Write) {s t : Store} (names : List String),
    s.nodes = t.nodes → noticedAll q s names ws = noticedAll q t names ws
  | [], _, _, _, _ => rfl
  | w :: ws, s, t, names, h => by
    rw [noticedAll, noticedAll, noticed_congr h, noticedAll_congr q ws _ (after_nodes_congr h w)]

/-- Who is not told of a write comes to know nobody by it. -/
theorem mem_of_mem_noticed (hsilent : ∀ path, w.path? = some path → Path.parent? path ≠ some q)
    (hn : name ∈ noticed q s names w) : name ∈ names := by
  refine (mem_noticed.mp hn).2.resolve_right fun htells => ?_
  obtain ⟨path, hpath, hparent, -⟩ := tells_eq_true_iff.mp htells
  exact hsilent path hpath hparent

/-- **Who is told of none of the writes comes to know nobody.** -/
theorem mem_of_mem_noticedAll : ∀ {ws : List Write} {s : Store} {names : List String},
    (∀ w ∈ ws, ∀ path, w.path? = some path → Path.parent? path ≠ some q) →
      name ∈ noticedAll q s names ws → name ∈ names
  | [], _, _, _, hn => hn
  | w :: _, _, _, hsilent, hn =>
    mem_of_mem_noticed (hsilent w List.mem_cons_self) <|
      mem_of_mem_noticedAll (fun v hv => hsilent v (List.mem_cons_of_mem w hv)) hn

end Store

end Gatekeeper
