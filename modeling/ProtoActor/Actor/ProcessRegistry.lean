import Mathlib.Data.Nat.Digits.Lemmas

/-!
# Process ids

`actor/process_registry.go`.  `NextId` adds one to the registry's `uint64` counter and names the
new process by `uint64ToId` of it: `'$'` followed by the base-64 digits of the counter, most
significant first, in the alphabet `digits`.  `uint64ToId` fills a 13-byte buffer from its end:
one digit per turn of its loop while `u ≥ 64`, read off with a mask and a shift, then the last
digit and the `'$'`.  A write or a digit lookup whose index leaves its array is a panic in Go,
and `none` here.

* `uint64ToId_eq`: for every `u` no index leaves the buffer or the alphabet, and the result is
  `'$'` followed by `base64Digits u`, the digits of `u` most significant first, with no leading
  zero unless `u = 0`.
* `decodeId_uint64ToId`: reading the digits back through the alphabet gives `u`, so distinct
  counters get distinct ids.
-/

namespace ProtoActor.Actor

/-- `digits`, the alphabet, as the bytes `uint64ToId` reads. -/
def digits : List UInt8 :=
  "0123456789abcdefghijklmnopqrstuvwxyzABCDEFGHIJKLMNOPQRSTUVWXYZ~+".toUTF8.data.toList

/-- The buffer `buf [13]byte` of `uint64ToId` and its index `i`. -/
structure IdBuffer where
  buf : List UInt8
  i : ℕ
  deriving DecidableEq, Repr

/-- `i--` then `buf[i] = byte`; `none` where the index leaves the buffer. -/
def IdBuffer.write (b : IdBuffer) (byte : UInt8) : Option IdBuffer :=
  match b.i with
  | 0 => none
  | i + 1 => if i < b.buf.length then some ⟨b.buf.set i byte, i⟩ else none

theorem toNat_shiftRight_six (u : UInt64) : (u >>> 6).toNat = u.toNat / 64 := by
  rw [UInt64.toNat_shiftRight, Nat.shiftRight_eq_div_pow]
  rfl

theorem toNat_and_mask (u : UInt64) : (u &&& 0x3f).toNat = u.toNat % 64 := by
  rw [UInt64.toNat_and, show (0x3f : UInt64).toNat = 2 ^ 6 - 1 from rfl,
    Nat.and_two_pow_sub_one_eq_mod]

/-- The test of the loop, on the value of `u`. -/
theorem sixtyFour_le_iff (u : UInt64) : 64 ≤ u ↔ 64 ≤ u.toNat :=
  UInt64.le_iff_toNat_le

/-- The loop `for u >= 64 { i--; buf[i] = digits[uintptr(u)&0x3f]; u >>= 6 }`. -/
def uint64ToIdLoop (u : UInt64) (b : IdBuffer) : Option (UInt64 × IdBuffer) :=
  if 64 ≤ u then do
    let d ← digits[(u &&& 0x3f).toNat]?
    let b ← b.write d
    uint64ToIdLoop (u >>> 6) b
  else some (u, b)
termination_by u.toNat
decreasing_by
  rw [toNat_shiftRight_six]
  have h64 : (64 : UInt64).toNat ≤ u.toNat := UInt64.le_iff_toNat_le.mp ‹_›
  change 64 ≤ u.toNat at h64
  omega

/-- `uint64ToId`: the bytes of the string it returns. -/
def uint64ToId (u : UInt64) : Option (List UInt8) := do
  let (u, b) ← uint64ToIdLoop u ⟨List.replicate 13 0, 13⟩
  let d ← digits[u.toNat]?
  let b ← b.write d
  let b ← b.write '$'.toUInt8
  pure (b.buf.drop b.i)

/-- The process registry's counter, `SequenceID`. -/
structure ProcessRegistryValue where
  sequenceID : UInt64
  deriving DecidableEq, Repr

/-- `NextId`: the id of the counter after `atomic.AddUint64(&pr.SequenceID, 1)`, and the
registry with that counter. -/
def ProcessRegistryValue.nextId (pr : ProcessRegistryValue) :
    Option (List UInt8) × ProcessRegistryValue :=
  (uint64ToId (pr.sequenceID + 1), ⟨pr.sequenceID + 1⟩)

/-! ### The digits of a counter -/

/-- The base-64 digits of `n`, most significant first; `[0]` for `0`. -/
def base64Digits (n : ℕ) : List ℕ :=
  if n = 0 then [0] else (Nat.digits 64 n).reverse

/-- The byte of the digit `k` in the alphabet. -/
def digitByte (k : ℕ) : UInt8 := digits.getD k 0

theorem length_digits : digits.length = 64 := by decide

theorem digits_nodup : digits.Nodup := by decide +kernel

theorem getElem?_digits {k : ℕ} (hk : k < 64) : digits[k]? = some (digitByte k) := by
  rw [digitByte, List.getD_eq_getElem?_getD, List.getElem?_eq_getElem (length_digits ▸ hk)]
  rfl

theorem idxOf_digitByte {k : ℕ} (hk : k < 64) : digits.idxOf (digitByte k) = k := by
  have hk' : k < digits.length := length_digits ▸ hk
  have hget : digitByte k = digits.get ⟨k, hk'⟩ := by
    rw [digitByte, List.getD_eq_getElem?_getD, List.getElem?_eq_getElem hk']
    rfl
  rw [hget, List.get_idxOf digits_nodup]

theorem base64Digits_of_lt {n : ℕ} (h : n < 64) : base64Digits n = [n] := by
  unfold base64Digits
  split_ifs with h0
  · rw [h0]
  · rw [Nat.digits_of_lt 64 n h0 h, List.reverse_singleton]

/-- The digit recursion the loop of `uint64ToId` follows: peel off the lowest digit. -/
theorem base64Digits_of_le {n : ℕ} (h : 64 ≤ n) :
    base64Digits n = base64Digits (n / 64) ++ [n % 64] := by
  have hn : n ≠ 0 := by omega
  have hq : n / 64 ≠ 0 := by omega
  unfold base64Digits
  rw [if_neg hn, if_neg hq, Nat.digits_def' (by norm_num) (by omega), List.reverse_cons]

theorem length_base64Digits_pos (n : ℕ) : 0 < (base64Digits n).length := by
  unfold base64Digits
  split_ifs with h0
  · simp
  · rw [List.length_reverse, List.length_pos_iff]
    exact Nat.digits_ne_nil_iff_ne_zero.mpr h0

theorem lt_of_mem_base64Digits {n d : ℕ} (h : d ∈ base64Digits n) : d < 64 := by
  unfold base64Digits at h
  split_ifs at h with h0
  · rw [List.mem_singleton.mp h]
    norm_num
  · exact Nat.digits_lt_base (by norm_num) (List.mem_reverse.mp h)

/-- A `uint64` has at most eleven base-64 digits: `2 ^ 64 < 64 ^ 11`. -/
theorem length_base64Digits_le {n : ℕ} (h : n < 2 ^ 64) : (base64Digits n).length ≤ 11 := by
  unfold base64Digits
  split_ifs with h0
  · simp
  · rw [List.length_reverse, Nat.digits_length_le_iff (by norm_num)]
    calc n < 2 ^ 64 := h
      _ ≤ 64 ^ 11 := by norm_num

theorem head?_base64Digits_ne_zero {n : ℕ} (h : n ≠ 0) : (base64Digits n).head? ≠ some 0 := by
  have hne : Nat.digits 64 n ≠ [] := Nat.digits_ne_nil_iff_ne_zero.mpr h
  rw [base64Digits, if_neg h, List.head?_reverse, List.getLast?_eq_some_getLast hne]
  intro hlast
  exact Nat.getLast_digit_ne_zero 64 h (Option.some.inj hlast)

theorem ofDigits_reverse_base64Digits (n : ℕ) : Nat.ofDigits 64 (base64Digits n).reverse = n := by
  unfold base64Digits
  split_ifs with h0
  · simp [h0]
  · rw [List.reverse_reverse, Nat.ofDigits_digits]

/-! ### The buffer -/

theorem IdBuffer.write_eq {b : IdBuffer} {i : ℕ} (hi : b.i = i + 1) (hlt : i < b.buf.length)
    (byte : UInt8) : b.write byte = some ⟨b.buf.set i byte, i⟩ := by
  rw [IdBuffer.write, hi]
  exact if_pos hlt

/-- Writing in front of the filled part of the buffer prepends to it. -/
theorem drop_set_eq_cons {l : List UInt8} {i : ℕ} (h : i < l.length) (a : UInt8) :
    (l.set i a).drop i = a :: l.drop (i + 1) := by
  rw [List.set_eq_take_append_cons_drop, if_pos h]
  exact List.drop_left' (List.length_take_of_le h.le)

theorem uint64ToIdLoop_of_lt {u : UInt64} (h : ¬64 ≤ u) (b : IdBuffer) :
    uint64ToIdLoop u b = some (u, b) := by
  rw [uint64ToIdLoop, if_neg h]

/-- One turn of the loop: the lowest digit goes to the buffer, and `u` loses it. -/
theorem uint64ToIdLoop_of_le {u : UInt64} (h : 64 ≤ u) (b : IdBuffer) :
    uint64ToIdLoop u b = (b.write (digitByte (u.toNat % 64))).bind (uint64ToIdLoop (u >>> 6)) := by
  rw [uint64ToIdLoop, if_pos h, toNat_and_mask, getElem?_digits (Nat.mod_lt _ (by norm_num))]
  rfl

/-- The invariant of the loop of `uint64ToId`: it stops at the leading digit of `u`, having
written the digits below it, most significant first, in front of what the buffer held. -/
theorem uint64ToIdLoop_spec (u : UInt64) (b : IdBuffer) (hlen : b.buf.length = 13)
    (hroom : (base64Digits u.toNat).length ≤ b.i + 1) (hi : b.i ≤ 13) :
    ∃ u' b' written, uint64ToIdLoop u b = some (u', b') ∧
      base64Digits u.toNat = u'.toNat :: written ∧ b'.i + written.length = b.i ∧
      b'.buf.length = 13 ∧ b'.buf.drop b'.i = written.map digitByte ++ b.buf.drop b.i := by
  -- strong induction on the value left in `u`, which each turn divides by 64
  induction hn : u.toNat using Nat.strong_induction_on generalizing u b with
  | _ n ih =>
  subst hn
  by_cases h64 : 64 ≤ u
  case neg =>
    have hlt : u.toNat < 64 := Nat.lt_of_not_le ((sixtyFour_le_iff u).not.mp h64)
    exact ⟨u, b, [], uint64ToIdLoop_of_lt h64 b, base64Digits_of_lt hlt, rfl, hlen, rfl⟩
  case pos =>
    have hle := (sixtyFour_le_iff u).mp h64
    have hsplit := base64Digits_of_le hle
    have hshift := toNat_shiftRight_six u
    have hlenq : (base64Digits u.toNat).length = (base64Digits (u.toNat / 64)).length + 1 := by
      rw [hsplit, List.length_append, List.length_singleton]
    have hpos := length_base64Digits_pos (u.toNat / 64)
    -- two digits at least are left, so the buffer has room for this one
    obtain ⟨i, hi1⟩ : ∃ i, b.i = i + 1 := ⟨b.i - 1, by omega⟩
    have hilt : i < b.buf.length := by omega
    have hstep := ih (u.toNat / 64) (by omega) (u >>> 6)
      ⟨b.buf.set i (digitByte (u.toNat % 64)), i⟩ (by simpa using hlen)
      (by simp only [hshift]; omega) (by simp only; omega) hshift
    obtain ⟨u', b', written, hrun, hdig, hi', hlen', hdrop⟩ := hstep
    change b'.i + written.length = i at hi'
    change b'.buf.drop b'.i = written.map digitByte ++ (b.buf.set i _).drop i at hdrop
    refine ⟨u', b', written ++ [u.toNat % 64], ?_, ?_, ?_, hlen', ?_⟩
    · rw [uint64ToIdLoop_of_le h64, IdBuffer.write_eq hi1 hilt]
      exact hrun
    · rw [hsplit, hdig, List.cons_append]
    · rw [List.length_append, List.length_singleton, hi1]
      omega
    · rw [hdrop, drop_set_eq_cons hilt, ← hi1, List.map_append, List.map_singleton,
        List.append_assoc, List.singleton_append]

/-- `uint64ToId` never panics: every write stays in the 13-byte buffer and every lookup in the
alphabet, and the id is `'$'` followed by the digits of `u`. -/
theorem uint64ToId_eq (u : UInt64) :
    uint64ToId u = some ('$'.toUInt8 :: (base64Digits u.toNat).map digitByte) := by
  have hbound := length_base64Digits_le u.toNat_lt
  obtain ⟨u', b', written, hrun, hdig, hi', hlen', hdrop⟩ :=
    uint64ToIdLoop_spec u ⟨List.replicate 13 0, 13⟩ (List.length_replicate ..)
      (by simp only; omega) le_rfl
  change b'.i + written.length = 13 at hi'
  have hu' : u'.toNat < 64 := lt_of_mem_base64Digits (hdig ▸ List.mem_cons_self ..)
  have hwlen : written.length ≤ 10 := by
    rw [hdig, List.length_cons] at hbound
    omega
  -- the leading digit and the '$' go to buf[i-1] and buf[i-2], both inside the buffer
  obtain ⟨i, hi2⟩ : ∃ i, b'.i = i + 1 + 1 := ⟨b'.i - 2, by omega⟩
  have hw1 := IdBuffer.write_eq hi2 (by omega) (digitByte u'.toNat)
  have hw2 := IdBuffer.write_eq (b := ⟨b'.buf.set (i + 1) (digitByte u'.toNat), i + 1⟩) rfl
    (by simp only [List.length_set]; omega) '$'.toUInt8
  simp only [uint64ToId, hrun, Option.bind_eq_bind, Option.bind_some, getElem?_digits hu', hw1,
    hw2, Option.pure_def, Option.some.injEq]
  have hlt : i + 1 < b'.buf.length := by omega
  rw [drop_set_eq_cons (by simp only [List.length_set]; omega), drop_set_eq_cons hlt, ← hi2, hdrop,
    hdig]
  simp

/-! ### Reading an id back -/

/-- Reading an id back: after the `'$'`, the place of each byte in the alphabet is a digit,
most significant first. -/
def decodeId : List UInt8 → Option ℕ
  | byte :: ds =>
    if byte = '$'.toUInt8 then some (Nat.ofDigits 64 (ds.map digits.idxOf).reverse) else none
  | [] => none

theorem decodeId_uint64ToId (u : UInt64) : (uint64ToId u).bind decodeId = some u.toNat := by
  rw [uint64ToId_eq, Option.bind_some, decodeId, if_pos rfl, List.map_map]
  -- every digit is below 64, where the alphabet is a bijection
  have hmap : (base64Digits u.toNat).map (digits.idxOf ∘ digitByte) = base64Digits u.toNat := by
    conv_rhs => rw [← List.map_id (base64Digits u.toNat)]
    exact List.map_congr_left fun d hd => idxOf_digitByte (lt_of_mem_base64Digits hd)
  rw [hmap, ofDigits_reverse_base64Digits]

theorem uint64ToId_injective {u v : UInt64} (h : uint64ToId u = uint64ToId v) : u = v := by
  have hu := decodeId_uint64ToId u
  rw [h, decodeId_uint64ToId v, Option.some.injEq] at hu
  exact UInt64.toNat_inj.mp hu.symm

/-- The ids of `k` successive calls of `NextId`. -/
def ProcessRegistryValue.nextIds (pr : ProcessRegistryValue) : ℕ → List (Option (List UInt8))
  | 0 => []
  | k + 1 => pr.nextId.1 :: pr.nextId.2.nextIds k

/-- For every counter `uint64ToId` stays inside its buffer and its alphabet and writes `'$'` and
the digits of `u`, with no leading zero unless `u = 0`, which read back give `u`; and `NextId`
names distinct counters apart. -/
theorem uint64ToId_in_bounds_injective :
    (∀ u : UInt64, uint64ToId u = some ('$'.toUInt8 :: (base64Digits u.toNat).map digitByte) ∧
      (u ≠ 0 → (base64Digits u.toNat).head? ≠ some 0) ∧
      (uint64ToId u).bind decodeId = some u.toNat) ∧
    ∀ pr pr' : ProcessRegistryValue, pr.nextId.2 ≠ pr'.nextId.2 → pr.nextId.1 ≠ pr'.nextId.1 := by
  refine ⟨fun u => ⟨uint64ToId_eq u, fun hu => ?_, decodeId_uint64ToId u⟩, fun pr pr' hne hid => ?_⟩
  · have hu' : u.toNat ≠ 0 := fun h => hu (UInt64.toNat_inj.mp h)
    exact head?_base64Digits_ne_zero hu'
  · exact hne (congrArg ProcessRegistryValue.mk (uint64ToId_injective hid))

end ProtoActor.Actor
