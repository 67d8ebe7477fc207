/-!
# Proofs/Outcome — what an attempt that succeeds went through

Reading, decoding and checking are chains of attempts, each of which may fail.  A chain succeeds
just when each attempt in it does, and these lemmas take such a chain apart.
-/

namespace Gatekeeper

variable {ε δ α β : Type}

theorem bind_eq_ok_iff {e : Except ε α} {f : α → Except ε β} {b : β} :
    (e >>= f) = .ok b ↔ ∃ a, e = .ok a ∧ f a = .ok b := by
  cases e with
  | error x =>
    constructor
    · intro h
      cases h
    · rintro ⟨a, h, -⟩
      cases h
  | ok a =>
    constructor
    · exact fun h => ⟨a, rfl, h⟩
    · rintro ⟨a, h, hb⟩
      cases h
      exact hb

theorem map_eq_ok_iff {e : Except ε α} {f : α → β} {b : β} :
    f <$> e = .ok b ↔ ∃ a, e = .ok a ∧ f a = b := by
  cases e <;> simp [Functor.map, Except.map]

theorem mapError_eq_ok_iff {e : Except ε α} {f : ε → δ} {a : α} :
    e.mapError f = .ok a ↔ e = .ok a := by
  cases e with
  | error x => constructor <;> rintro ⟨⟩
  | ok b =>
    constructor
    · rintro ⟨⟩
      rfl
    · rintro ⟨⟩
      rfl

end Gatekeeper
