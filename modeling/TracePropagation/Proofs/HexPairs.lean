import TracePropagation.Text.Hex
import Mathlib.Tactic.SplitIfs
import Mathlib.Algebra.Group.Nat.Defs

/-!
# Hexadecimal digits read in pairs

The cloud trace header spells its ids in hexadecimal digits of either case, and its reader
takes them two at a time, one byte per pair (`decodeHex`). Read that way, a text of digits has
the value it has as one hexadecimal number, whichever way it is cut into bytes.

* `Text.IsHexDigit` — the digits `0`–`9`, `a`–`f` and `A`–`F`, the only characters with a
  `hexValue`;
* `Text.hexNumber` — the value of a text of hexadecimal digits, most significant first;
* `Text.decodeHex_map_bytesValue` — reading `n` bytes succeeds exactly on `2 n` digits, and the
  bytes, taken big-endian, have the value of the digits.
-/

namespace TracePropagation.Text

/-- An ASCII hexadecimal digit of either case. -/
def IsHexDigit (c : Char) : Prop :=
  c.isDigit ∨ ('a' ≤ c ∧ c ≤ 'f') ∨ ('A' ≤ c ∧ c ≤ 'F')

instance : DecidablePred IsHexDigit := fun c =>
  inferInstanceAs (Decidable (c.isDigit ∨ ('a' ≤ c ∧ c ≤ 'f') ∨ ('A' ≤ c ∧ c ≤ 'F')))

/-- Every value of the digit table is below sixteen. -/
theorem hexValue_lt {c : Char} {d : Nat} (h : hexValue c = some d) : d < 16 := by
  unfold hexValue at h
  split_ifs at h with h₁ h₂ h₃ <;> cases h
  · have := Char.isDigit_iff_toNat.mp h₁
    simp only [Char.reduceToNat] at this ⊢
    omega
  · simp only [Char.le_def, UInt32.le_iff_toNat_le, Char.toNat_val, Char.reduceToNat] at h₂ ⊢
    omega
  · simp only [Char.le_def, UInt32.le_iff_toNat_le, Char.toNat_val, Char.reduceToNat] at h₃ ⊢
    omega

/-- The characters of the digit table are the hexadecimal digits. -/
theorem hexValue_isSome_iff {c : Char} : (hexValue c).isSome ↔ IsHexDigit c := by
  unfold hexValue IsHexDigit
  split_ifs with h₁ h₂ h₃ <;> simp_all

/-! ## The value of a hexadecimal text -/

/-- A value followed by one more hexadecimal digit. -/
def pushHexDigit (acc : Nat) (c : Char) : Nat :=
  16 * acc + (hexValue c).getD 0

/-- The value of a text of hexadecimal digits, most significant first. -/
def hexNumber (cs : List Char) : Nat :=
  cs.foldl pushHexDigit 0

theorem foldl_pushHexDigit_lt (cs : List Char) (a : Nat) :
    cs.foldl pushHexDigit a < (a + 1) * 16 ^ cs.length := by
  induction cs generalizing a with
  | nil =>
    rw [List.foldl_nil, List.length_nil, Nat.pow_zero, Nat.mul_one]
    exact Nat.lt_succ_self a
  | cons c rest ih =>
    -- the digit's value is below sixteen, whatever the character
    have hd : (hexValue c).getD 0 < 16 := by
      cases h : hexValue c with
      | none => decide
      | some d => exact hexValue_lt h
    have hstep : pushHexDigit a c + 1 ≤ (a + 1) * 16 := by
      unfold pushHexDigit
      omega
    rw [List.foldl_cons, List.length_cons, Nat.pow_succ, Nat.mul_comm (16 ^ rest.length) 16,
      ← Nat.mul_assoc]
    exact Nat.lt_of_lt_of_le (ih _) (Nat.mul_le_mul_right _ hstep)

/-- A text of `w` digits has a value below `16 ^ w`. -/
theorem hexNumber_lt (cs : List Char) : hexNumber cs < 16 ^ cs.length := by
  have h := foldl_pushHexDigit_lt cs 0
  rwa [Nat.zero_add, Nat.one_mul] at h

/-! ## Pairs of digits as bytes -/

/-- **Bytes keep the value.** Bytes read from pairs of digits, appended big-endian to a value,
give what the digits give appended one at a time. -/
theorem foldl_hexBytes {cs : List Char} {bs : List UInt8} (h : hexBytes cs = some bs) (a : Nat) :
    bs.foldl (fun acc b => acc * 256 + b.toNat) a = cs.foldl pushHexDigit a := by
  induction cs using hexBytes.induct generalizing bs a with
  | case1 =>
    obtain rfl : bs = [] := (Option.some.inj h).symm
    rfl
  | case2 c => simp [hexBytes] at h
  | case3 hi lo rest ih =>
    simp only [hexBytes, Option.bind_eq_bind, Option.bind_eq_some_iff, Option.pure_def,
      Option.some.injEq] at h
    obtain ⟨dh, hh, dl, hl, bs', hbs', rfl⟩ := h
    have hbyte : (dh * 16 + dl).toUInt8.toNat = dh * 16 + dl := by
      have := hexValue_lt hh
      have := hexValue_lt hl
      simp only [Nat.toUInt8_eq, UInt8.toNat_ofNat', Nat.reducePow]
      omega
    rw [List.foldl_cons, hbyte, ih hbs', List.foldl_cons, List.foldl_cons]
    congr 1
    simp only [pushHexDigit, hh, hl, Option.getD_some]
    omega

theorem bytesValue_hexBytes {cs : List Char} {bs : List UInt8} (h : hexBytes cs = some bs) :
    bytesValue bs = hexNumber cs :=
  foldl_hexBytes h 0

/-- Two runs of bytes read from two texts have, together, the value of the two texts. -/
theorem bytesValue_append_hexBytes {cs ds : List Char} {as bs : List UInt8}
    (ha : hexBytes cs = some as) (hb : hexBytes ds = some bs) :
    bytesValue (as ++ bs) = hexNumber (cs ++ ds) := by
  rw [bytesValue, List.foldl_append, ← bytesValue, bytesValue_hexBytes ha, foldl_hexBytes hb,
    hexNumber, hexNumber, List.foldl_append]

/-- Pairs of digits are read exactly from an even number of hexadecimal digits. -/
theorem hexBytes_isSome_iff (cs : List Char) :
    (hexBytes cs).isSome ↔ cs.length % 2 = 0 ∧ ∀ c ∈ cs, IsHexDigit c := by
  induction cs using hexBytes.induct with
  | case1 => simp [hexBytes]
  | case2 c => simp [hexBytes]
  | case3 hi lo rest ih =>
    have hlen : (hi :: lo :: rest).length % 2 = rest.length % 2 := by simp; omega
    have hstep : (hexBytes (hi :: lo :: rest)).isSome ↔
        (hexValue hi).isSome ∧ (hexValue lo).isSome ∧ (hexBytes rest).isSome := by
      cases h₁ : hexValue hi <;> cases h₂ : hexValue lo <;> cases h₃ : hexBytes rest <;>
        simp [hexBytes, h₁, h₂, h₃]
    rw [hstep, ih, hexValue_isSome_iff, hexValue_isSome_iff, hlen, List.forall_mem_cons,
      List.forall_mem_cons]
    constructor
    · rintro ⟨hhi, hlo, heven, hrest⟩
      exact ⟨heven, hhi, hlo, hrest⟩
    · rintro ⟨heven, hhi, hlo, hrest⟩
      exact ⟨hhi, hlo, heven, hrest⟩

/-- Exactly `n` hexadecimal digits. -/
def HexText (n : Nat) (cs : List Char) : Prop :=
  cs.length = n ∧ ∀ c ∈ cs, IsHexDigit c

instance (n : Nat) : DecidablePred (HexText n) := fun cs =>
  inferInstanceAs (Decidable (cs.length = n ∧ ∀ c ∈ cs, IsHexDigit c))

/-- **Bytes from pairs of digits.** Reading `n` bytes succeeds exactly on `2 n` hexadecimal
digits, and the bytes read, taken big-endian, have the value of the digits. -/
theorem decodeHex_map_bytesValue (n : Nat) (cs : List Char) :
    (decodeHex n cs).map bytesValue = if HexText (2 * n) cs then some (hexNumber cs) else none := by
  unfold decodeHex HexText
  by_cases hlen : cs.length = 2 * n
  · have hsome := hexBytes_isSome_iff cs
    rw [hlen, Nat.mul_mod_right] at hsome
    cases h : hexBytes cs with
    | none => simp_all
    | some bs => simp_all [bytesValue_hexBytes h]
  · simp [hlen]

theorem hexBytes_of_decodeHex {n : Nat} {cs : List Char} {bs : List UInt8}
    (h : decodeHex n cs = some bs) : hexBytes cs = some bs := by
  unfold decodeHex at h
  split_ifs at h
  exact h

theorem hexText_of_decodeHex {n : Nat} {cs : List Char} {bs : List UInt8}
    (h : decodeHex n cs = some bs) : HexText (2 * n) cs := by
  have hmap := decodeHex_map_bytesValue n cs
  rw [h, Option.map_some] at hmap
  split_ifs at hmap with hhex
  exact hhex

theorem exists_decodeHex {n : Nat} {cs : List Char} (h : HexText (2 * n) cs) :
    ∃ bs, decodeHex n cs = some bs := by
  have hmap := decodeHex_map_bytesValue n cs
  rw [if_pos h] at hmap
  obtain ⟨bs, hbs, -⟩ := Option.map_eq_some_iff.mp hmap
  exact ⟨bs, hbs⟩

end TracePropagation.Text
