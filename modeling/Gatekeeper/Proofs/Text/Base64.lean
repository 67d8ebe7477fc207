import Gatekeeper.Text.Base64

/-!
# Proofs/Text/Base64 — different texts have different digits

`encode_injective` and `utf8_injective`: neither the digits nor the bytes of a text lose anything,
although there is no padding; three digits can only stand for two bytes.  A digit is one of the
alphabet (`mem_alphabet_of_mem_encode`), which holds no blank and no padding sign; so what is left
of the padded form without its padding is the digits (`filter_padded`).
-/

namespace Gatekeeper.Text.Base64

theorem digit_mem_alphabet (n : Nat) : digit n ∈ alphabet := by
  rw [digit]
  cases h : alphabet[n]? with
  | none => decide
  | some c => exact List.mem_of_getElem? h

theorem mem_alphabet_of_mem_encode : ∀ {bs : List UInt8} {c : Char}, c ∈ encode bs → c ∈ alphabet
  | [_], c, h => by
    simp only [encode, List.mem_cons, List.not_mem_nil, or_false] at h
    rcases h with rfl | rfl <;> exact digit_mem_alphabet _
  | [_, _], c, h => by
    simp only [encode, List.mem_cons, List.not_mem_nil, or_false] at h
    rcases h with rfl | rfl | rfl <;> exact digit_mem_alphabet _
  | _ :: _ :: _ :: rest, c, h => by
    simp only [encode, List.mem_cons] at h
    rcases h with rfl | rfl | rfl | rfl | h
    · exact digit_mem_alphabet _
    · exact digit_mem_alphabet _
    · exact digit_mem_alphabet _
    · exact digit_mem_alphabet _
    · exact mem_alphabet_of_mem_encode h

/-- The digit of a value stands at its place in the alphabet. -/
theorem idxOf_digit {n : Nat} (hn : n < 64) : alphabet.idxOf (digit n) = n := by
  have hall : ∀ n : Fin 64, alphabet.idxOf (digit n) = n := by decide +kernel
  exact hall ⟨n, hn⟩

/-- Different values have different digits. -/
theorem digit_inj {m n : Nat} (hm : m < 64) (hn : n < 64) (h : digit m = digit n) : m = n := by
  rw [← idxOf_digit hm, h, idxOf_digit hn]

/-- Where a byte is cut, its lower bits share a digit with the first bits of the next byte: none of
them is lost. -/
theorem byte_inj {a b : UInt8} {k m y z : Nat} (hkm : k * m = 64) (hy : y < m) (hz : z < m)
    (habove : a.toNat / k = b.toNat / k)
    (hbelow : digit (a.toNat % k * m + y) = digit (b.toNat % k * m + z)) : a = b ∧ y = z := by
  have hk : 0 < k := Nat.pos_of_ne_zero fun h => by simp [h] at hkm
  have hbound : ∀ n x, x < m → n % k * m + x < 64 := fun n x hx => calc
    n % k * m + x < (n % k + 1) * m := by rw [Nat.succ_mul]; omega
    _ ≤ k * m := Nat.mul_le_mul_right m (Nat.mod_lt n hk)
    _ = 64 := hkm
  have hparts : ∀ n x, x < m → (n * m + x) / m = n ∧ (n * m + x) % m = x := by
    intro n x hx
    rw [Nat.mul_comm, Nat.mul_add_div (Nat.zero_lt_of_lt hx), Nat.mul_add_mod]
    simp [Nat.div_eq_of_lt hx, Nat.mod_eq_of_lt hx]
  have hsum := digit_inj (hbound _ _ hy) (hbound _ _ hz) hbelow
  have hbits : a.toNat % k = b.toNat % k := by
    rw [← (hparts (a.toNat % k) y hy).1, hsum, (hparts _ z hz).1]
  have hnext : y = z := by
    rw [← (hparts (a.toNat % k) y hy).2, hsum, (hparts _ z hz).2]
  refine ⟨UInt8.toNat_inj.mp ?_, hnext⟩
  rw [← Nat.div_add_mod a.toNat k, habove, hbits, Nat.div_add_mod]

/-- The first byte of a group has a digit of its own before it is cut. -/
theorem firstByte_inj {a b : UInt8} {y z : Nat} (hy : y < 16) (hz : z < 16)
    (habove : digit (a.toNat / 4) = digit (b.toNat / 4))
    (hbelow : digit (a.toNat % 4 * 16 + y) = digit (b.toNat % 4 * 16 + z)) : a = b ∧ y = z := by
  have ha := a.toNat_lt
  have hb := b.toNat_lt
  exact byte_inj rfl hy hz (digit_inj (by omega) (by omega) habove) hbelow

/-- **Digits determine the bytes.** -/
theorem encode_injective {bs cs : List UInt8} (h : encode bs = encode cs) : bs = cs := by
  -- there are as many digits as the number of bytes asks for, so that is the same
  have hlen : bs.length = cs.length := by
    have hdigits := congrArg List.length h
    rw [length_encode, length_encode] at hdigits
    omega
  induction bs using encode.induct generalizing cs with
  | case1 => exact (List.length_eq_zero_iff.mp hlen.symm).symm
  | case2 a =>
    obtain ⟨a', rfl⟩ := List.length_eq_one_iff.mp hlen.symm
    simp only [encode, List.cons.injEq, and_true] at h
    obtain ⟨rfl, -⟩ := firstByte_inj (y := 0) (z := 0) (by decide) (by decide) h.1 h.2
    rfl
  | case3 a b =>
    obtain ⟨a', cs, rfl⟩ := List.exists_cons_of_length_eq_add_one hlen.symm
    obtain ⟨b', rfl⟩ := List.length_eq_one_iff.mp (Nat.succ.inj hlen).symm
    have hb := b.toNat_lt
    have hb' := b'.toNat_lt
    simp only [encode, List.cons.injEq, and_true] at h
    obtain ⟨rfl, hnext⟩ := firstByte_inj (by omega) (by omega) h.1 h.2.1
    obtain ⟨rfl, -⟩ :=
      byte_inj (m := 4) (y := 0) (z := 0) rfl (by decide) (by decide) hnext h.2.2
    rfl
  | case4 a b c rest ih =>
    obtain ⟨a', cs, rfl⟩ := List.exists_cons_of_length_eq_add_one hlen.symm
    obtain ⟨b', cs, rfl⟩ := List.exists_cons_of_length_eq_add_one (Nat.succ.inj hlen).symm
    obtain ⟨c', rest', rfl⟩ :=
      List.exists_cons_of_length_eq_add_one (Nat.succ.inj (Nat.succ.inj hlen)).symm
    have hb := b.toNat_lt
    have hb' := b'.toNat_lt
    have hc := c.toNat_lt
    have hc' := c'.toNat_lt
    simp only [encode, List.cons.injEq] at h
    obtain ⟨rfl, hnext⟩ := firstByte_inj (by omega) (by omega) h.1 h.2.1
    obtain ⟨rfl, hlast⟩ := byte_inj rfl (by omega) (by omega) hnext h.2.2.1
    obtain ⟨rfl, -⟩ := byte_inj (m := 1) (y := 0) (z := 0) rfl (by decide) (by decide) hlast
      (by simpa using h.2.2.2.1)
    rw [ih h.2.2.2.2 (by simpa using hlen)]

/-- **Bytes determine the text.** -/
theorem utf8_injective {s t : String} (h : utf8 s = utf8 t) : s = t :=
  String.toByteArray_inj.mp (ByteArray.ext (Array.toList_inj.mp h))

/-! ## Padding -/

/-- The digits with padding: a group of fewer than three bytes is filled up to four characters. -/
def padded : List UInt8 → List Char
  | [] => []
  | [a] => encode [a] ++ ['=', '=']
  | [a, b] => encode [a, b] ++ ['=']
  | a :: b :: c :: rest => encode [a, b, c] ++ padded rest

theorem length_padded : ∀ bs : List UInt8, (padded bs).length = 4 * ((bs.length + 2) / 3)
  | [] => rfl
  | [_] => by simp [padded]
  | [_, _] => by simp [padded]
  | a :: b :: c :: rest => by
    rw [padded, List.length_append, length_padded rest, length_encode]
    simp only [List.length_cons, List.length_nil]
    omega

/-- The padding sign is no digit. -/
theorem ne_of_mem_alphabet {c : Char} (h : c ∈ alphabet) : c ≠ '=' := by
  have hsign : '=' ∉ alphabet := by decide
  exact fun heq => hsign (heq ▸ h)

theorem filter_encode (bs : List UInt8) : (encode bs).filter (· ≠ '=') = encode bs :=
  List.filter_eq_self.mpr fun _ hc => by
    simpa using ne_of_mem_alphabet (mem_alphabet_of_mem_encode hc)

/-- **Without its padding, base64 is the digits alone.** -/
theorem filter_padded : ∀ bs : List UInt8, (padded bs).filter (· ≠ '=') = encode bs
  | [] => rfl
  | [a] => by rw [padded, List.filter_append, filter_encode]; rfl
  | [a, b] => by rw [padded, List.filter_append, filter_encode]; rfl
  | a :: b :: c :: rest => by
    rw [padded, List.filter_append, filter_encode, filter_padded rest]
    rfl

@[simp] theorem length_utf8 (s : String) : (utf8 s).length = s.utf8ByteSize := rfl

/-- The digits are the letters and figures of ASCII, plus and slash. -/
theorem isAlphanum_of_mem_alphabet : ∀ c ∈ alphabet, c.isAlphanum = true ∨ c = '+' ∨ c = '/' := by
  have hall : alphabet.all (fun c => c.isAlphanum || c == '+' || c == '/') = true := by decide
  simpa [or_assoc] using hall

end Gatekeeper.Text.Base64
