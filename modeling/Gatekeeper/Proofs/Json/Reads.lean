import Gatekeeper.Proofs.Json.Members

/-!
# Proofs/Json/Reads — readers for what is written

A reader `Reads` what a writer writes if it takes each value out of the tree that it was written as.
The reader for texts does, and so do the readers for lists and for maps as long as the reader of
their items does (`Reads.list`, `Reads.map`).  A map is written in the order of its keys, none of
them twice, and that is all there is to it (`ofList_toList`).

What is read out of the tree is read out of the text (`decode_render`).
-/

namespace Gatekeeper.Json

open Std (ExtTreeMap ReflCmp)

/-- The reader takes each value out of the tree that it is written as. -/
def Reads {α : Type} (reader : Reader α) (write : α → Value) : Prop :=
  ∀ a, reader (write a).tree = .ok a

/-- **What is read out of a tree is read out of its text.** -/
theorem decode_render {α : Type} {reader : Reader α} {v : Value} {a : α}
    (h : reader v.tree = .ok a) : decode reader v.render = .ok a := by
  rw [decode, Tree.ofText_render, h]
  rfl

/-- A map is made again of its entries. -/
theorem ofList_toList {α : Type} (m : ExtTreeMap String α) : ExtTreeMap.ofList m.toList = m := by
  refine ExtTreeMap.ext_getElem? fun k => ?_
  cases hk : m[k]? with
  | some a =>
    exact ExtTreeMap.getElem?_ofList_of_mem ReflCmp.compare_self ExtTreeMap.distinct_keys_toList
      (ExtTreeMap.mem_toList_iff_getElem?_eq_some.mpr hk)
  | none =>
    refine ExtTreeMap.getElem?_eq_none fun hmem => ?_
    rw [ExtTreeMap.mem_ofList, List.contains_iff_mem, ExtTreeMap.map_fst_toList_eq_keys,
      ExtTreeMap.mem_keys, ExtTreeMap.mem_iff_isSome_getElem?, hk] at hmem
    cases hmem

namespace Reads

variable {α : Type} {reader : Reader α} {write : α → Value}

theorem text : Reads Reader.text Value.text := fun _ => rfl

theorem mapM_itemTrees (h : Reads reader write) : ∀ as : List α,
    (Value.itemTrees (as.map write)).mapM reader = .ok as
  | [] => rfl
  | a :: as => by
    rw [List.map_cons, Value.itemTrees, List.mapM_cons, h a, mapM_itemTrees h as]
    rfl

/-- **A list is read** if its items are. -/
theorem list (h : Reads reader write) :
    Reads (Reader.list reader) fun as => .list (as.map write) := by
  intro as
  rw [Value.tree, Reader.list, h.mapM_itemTrees as]
  rfl

/-- **What may be null is read** as what it is, since null is not written. -/
theorem optional (h : Reads reader write) (a : α) :
    Reader.optional reader (write a).tree = .ok (some a) := by
  have hvalue := h a
  cases hwritten : write a with
  | text | list | object =>
    rw [hwritten] at hvalue
    exact map_eq_ok_iff.mpr ⟨a, hvalue, rfl⟩

/-- Members are put into the map one after another. -/
theorem mapMembers_memberTrees (h : Reads reader write) :
    ∀ (entries : List (String × α)) (m : ExtTreeMap String α),
      Reader.mapMembers reader m (Value.memberTrees (entries.map fun e => (e.1, write e.2)))
        = .ok (m.insertMany entries)
  | [], m => by
    rw [ExtTreeMap.insertMany_nil]
    rfl
  | (k, a) :: entries, m => by
    rw [List.map_cons, Value.memberTrees, Reader.mapMembers, h a, ExtTreeMap.insertMany_cons]
    exact mapMembers_memberTrees h entries (m.insert k a)

/-- **A map is read** if what it holds is. -/
theorem map (h : Reads reader write) :
    Reads (Reader.map reader) fun m => .object (m.toList.map fun e => (e.1, write e.2)) := by
  intro m
  rw [Value.tree, Reader.map, h.mapMembers_memberTrees m.toList,
    ← ExtTreeMap.ofList_eq_insertMany_empty, ofList_toList]
  rfl

end Reads

/-! ## Structures -/

theorem Value.memberTrees_append : ∀ ms ns : List (String × Value),
    memberTrees (ms ++ ns) = memberTrees ms ++ memberTrees ns
  | [], _ => rfl
  | (k, v) :: ms, ns => by
    rw [List.cons_append, memberTrees, memberTrees, memberTrees_append ms ns, List.cons_append]

namespace Schema

variable {δ : Type} {s : Schema δ}

/-- A member that is known and has not been read is read by its field. -/
theorem members_cons {f : Field δ} {name : String} {t : Tree} {d d' : δ}
    (hfind : s.fields.find? (fun f => f.name == name) = some f) (hpresent : f.present d = false)
    (hfill : f.fill t d = .ok d') (rest : List (Option String × Tree)) :
    s.members ((some name, t) :: rest) d = s.members rest d' := by
  rw [members, member, hfind]
  simp [hpresent, hfill, bind, Except.bind]

end Schema

end Gatekeeper.Json
