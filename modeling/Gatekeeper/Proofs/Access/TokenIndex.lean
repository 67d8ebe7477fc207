import Gatekeeper.Access.TokenIndex

/-!
# Proofs/Access/TokenIndex — an index finds the first credential of a token

`get?_ofList` says what an index is: looking a token up is looking for the first credential of the
list that has it.  What a list of `Authorization` values resolves to is therefore a credential of
the list whose token one of them carries (`exists_of_resolve?`).
-/

namespace Gatekeeper.TokenIndex

theorem get?_insert (ix : TokenIndex) (c : Credential) (t : String) :
    (ix.insert c).get? t = (ix.get? t).or (if c.token = t then some c else none) := by
  rw [get?, insert, Std.ExtTreeMap.getElem?_insertIfNew, get?]
  by_cases hin : c.token ∈ ix.byToken
  · rw [if_neg fun h => h.2 hin]
    split
    · next heq =>
      rw [Std.ExtTreeMap.mem_iff_isSome_getElem?, heq] at hin
      obtain ⟨d, hd⟩ := Option.isSome_iff_exists.mp hin
      rw [hd]
      rfl
    · exact (Option.or_none).symm
  · by_cases heq : c.token = t
    · subst heq
      rw [Std.ExtTreeMap.getElem?_eq_none hin]
      simp [hin]
    · simp [heq]

theorem get?_foldl (t : String) : ∀ (cs : List Credential) (ix : TokenIndex),
    (cs.foldl insert ix).get? t = (ix.get? t).or (cs.find? fun c => c.token = t)
  | [], ix => Option.or_none.symm
  | c :: cs, ix => by
    rw [List.foldl_cons, get?_foldl t cs, get?_insert, Option.or_assoc, List.find?_cons]
    by_cases heq : c.token = t <;> simp [heq]

/-- **An index finds the first credential of a token.** -/
theorem get?_ofList (cs : List Credential) (t : String) :
    (ofList cs).get? t = cs.find? fun c => c.token = t := by
  rw [ofList, get?_foldl]
  simp [get?]

/-- **What is resolved is a credential of the list, and its token was carried.** -/
theorem exists_of_resolve? {cs : List Credential} {values : List String} {c : Credential}
    (h : (ofList cs).resolve? values = some c) :
    c ∈ cs ∧ ∃ value ∈ values, Token.ofHeader? value = some c.token := by
  obtain ⟨t, ht, hget⟩ := List.exists_of_findSome?_eq_some h
  obtain ⟨value, hvalue, hof⟩ := List.mem_filterMap.mp ht
  rw [get?_ofList] at hget
  have htoken : c.token = t := by simpa using List.find?_some hget
  exact ⟨List.mem_of_find?_eq_some hget, value, hvalue, by rw [hof, htoken]⟩

end Gatekeeper.TokenIndex
