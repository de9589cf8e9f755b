import TracePropagation.Proofs.HexPairs
import Mathlib.Tactic.SplitIfs

/-!
# Bytes spelled in hexadecimal digits of either case

A byte is spelled as two hexadecimal digits, the high one first, and a run of bytes as the
spellings of its bytes in turn; each digit may be written in either case, on its own. Reading
`n` bytes (`decodeHex`) undoes the spelling, and this module says exactly what it accepts:

* `Text.hexValue_eq_digitValue` — the digit table of the pair reader is the radix reader's in
  radix sixteen, so a digit's value has one meaning throughout the library;
* `Text.utf8ByteSize_of_hexDigits` — a text of hexadecimal digits has one byte per character;
* `Text.PairValues`, `Text.hexBytes_eq_some_iff` — pairs of digits are read as `bs` exactly
  when every character is a digit, there are two for each byte, and byte `i` is sixteen times
  the value of digit `2 i` plus the value of digit `2 i + 1`;
* `Text.decodeHex_eq_some_iff` — the same for `n` bytes from a text of `2 n` bytes;
* `Text.hexSpelling`, `Text.withCases`, `Text.decodeHex_withCases_hexSpelling` — the spelling
  of any bytes, with any choice of case for each digit, reads back as those bytes;
* `Text.decodeHex_inverts_spelling` — both together.
-/

namespace TracePropagation.Text

/-! ## One digit -/

/-- The digit table of the pair reader is the radix reader's, in radix sixteen. -/
theorem hexValue_eq_digitValue (c : Char) : hexValue c = digitValue 16 c := by
  unfold hexValue digitValue
  delta Char.isLower Char.isUpper
  simp only [Char.isDigit, Char.le_def, UInt32.le_iff_toNat_le,
    ge_iff_le, Bool.and_eq_true, decide_eq_true_eq, Char.toNat_val, Char.reduceToNat,
    apply_ite (Option.filter _), Option.filter_some, Option.filter_none]
  -- both tables cut the code points into the same ranges; the letters past `f` are refused by
  -- the radix bound on one side and by the range test on the other
  split_ifs <;> grind

theorem toNat_lt_of_isHexDigit {c : Char} (h : IsHexDigit c) : c.toNat < 128 := by
  rcases h with h | h | h
  · have := Char.isDigit_iff_toNat.mp h
    simp only [Char.reduceToNat] at this
    omega
  · simp only [Char.le_def, UInt32.le_iff_toNat_le, Char.toNat_val, Char.reduceToNat] at h
    omega
  · simp only [Char.le_def, UInt32.le_iff_toNat_le, Char.toNat_val, Char.reduceToNat] at h
    omega

/-- A hexadecimal digit is one byte long in UTF-8. -/
theorem utf8Size_of_isHexDigit {c : Char} (h : IsHexDigit c) : c.utf8Size = 1 := by
  have hlt := toNat_lt_of_isHexDigit h
  have h127 : (127 : UInt32).toNat = 127 := rfl
  rw [Char.utf8Size_eq_one_iff, UInt32.le_iff_toNat_le, Char.toNat_val, h127]
  omega

/-- A text of hexadecimal digits has as many bytes as characters. -/
theorem utf8ByteSize_of_hexDigits {cs : List Char} (h : ∀ c ∈ cs, IsHexDigit c) :
    (String.ofList cs).utf8ByteSize = cs.length := by
  induction cs with
  | nil => rfl
  | cons c cs ih =>
    rw [List.forall_mem_cons] at h
    rw [String.ofList_cons, String.utf8ByteSize_append, String.utf8ByteSize_singleton, ih h.2,
      utf8Size_of_isHexDigit h.1, List.length_cons, Nat.add_comm]

/-! ## Bytes from pairs of digits, place by place -/

/-- Byte `i` of `bs` is read from digits `2 i` and `2 i + 1` of `cs`: both are hexadecimal
digits, and the byte is sixteen times the value of the first plus the value of the second. -/
def PairValues (cs : List Char) (bs : List UInt8) : Prop :=
  ∀ i < bs.length, ∃ hi lo, digitValue 16 (cs.getD (2 * i) '0') = some hi ∧
    digitValue 16 (cs.getD (2 * i + 1) '0') = some lo ∧ (bs.getD i 0).toNat = 16 * hi + lo

theorem pairValues_nil (cs : List Char) : PairValues cs [] := by
  intro i hi
  simp at hi

theorem pairValues_cons {hi lo : Char} {rest : List Char} {b : UInt8} {bs : List UInt8} :
    PairValues (hi :: lo :: rest) (b :: bs) ↔
      (∃ h l, digitValue 16 hi = some h ∧ digitValue 16 lo = some l ∧ b.toNat = 16 * h + l) ∧
        PairValues rest bs := by
  constructor
  · intro h
    refine ⟨by simpa using h 0 (by simp), fun i hi => ?_⟩
    simpa [Nat.mul_add, List.getD_cons_succ] using h (i + 1) (by simpa using hi)
  · rintro ⟨h0, h⟩ i hi
    cases i with
    | zero => simpa using h0
    | succ i => simpa [Nat.mul_add, List.getD_cons_succ] using h i (by simpa using hi)

/-- Bytes read from pairs of digits take two digits each, place by place. -/
theorem hexBytes_pairValues {cs : List Char} {bs : List UInt8} (h : hexBytes cs = some bs) :
    cs.length = 2 * bs.length ∧ PairValues cs bs := by
  induction cs using hexBytes.induct generalizing bs with
  | case1 =>
    obtain rfl : bs = [] := (Option.some.inj h).symm
    exact ⟨rfl, pairValues_nil _⟩
  | case2 c => simp [hexBytes] at h
  | case3 hi lo rest ih =>
    simp only [hexBytes, Option.bind_eq_bind, Option.bind_eq_some_iff, Option.pure_def,
      Option.some.injEq] at h
    obtain ⟨dh, hh, dl, hl, bs', hbs', rfl⟩ := h
    obtain ⟨hlen, hpairs⟩ := ih hbs'
    -- two digits below sixteen make a byte without wrapping
    have hbyte : (dh * 16 + dl).toUInt8.toNat = 16 * dh + dl := by
      have := hexValue_lt hh
      have := hexValue_lt hl
      simp only [Nat.toUInt8_eq, UInt8.toNat_ofNat', Nat.reducePow]
      omega
    rw [hexValue_eq_digitValue] at hh hl
    refine ⟨by simp [hlen]; omega, pairValues_cons.mpr ⟨⟨dh, dl, hh, hl, hbyte⟩, hpairs⟩⟩

/-- The digits determine the bytes: two runs of bytes of one length, each read place by place
from the same digits, are the same. -/
theorem eq_of_pairValues {cs : List Char} {bs bs' : List UInt8} (hlen : bs.length = bs'.length)
    (h : PairValues cs bs) (h' : PairValues cs bs') : bs = bs' := by
  apply List.ext_getElem hlen
  intro i hi hi'
  obtain ⟨d, e, hd, he, hb⟩ := h i hi
  obtain ⟨d', e', hd', he', hb'⟩ := h' i hi'
  rw [hd] at hd'
  rw [he] at he'
  cases hd'
  cases he'
  rw [List.getD_eq_getElem?_getD, List.getElem?_eq_getElem hi, Option.getD_some] at hb
  rw [List.getD_eq_getElem?_getD, List.getElem?_eq_getElem hi', Option.getD_some] at hb'
  exact UInt8.toNat_inj.mp (hb.trans hb'.symm)

/-- **Pairs of digits, place by place.** Reading pairs of digits gives `bs` exactly when every
character is a hexadecimal digit, there are two for each byte of `bs`, and each byte is read
from its pair. -/
theorem hexBytes_eq_some_iff {cs : List Char} {bs : List UInt8} :
    hexBytes cs = some bs ↔
      (∀ c ∈ cs, IsHexDigit c) ∧ cs.length = 2 * bs.length ∧ PairValues cs bs := by
  constructor
  · intro h
    have hsome : (hexBytes cs).isSome := by simp [h]
    exact ⟨((hexBytes_isSome_iff cs).mp hsome).2, hexBytes_pairValues h⟩
  · rintro ⟨hdigits, hlen, hpairs⟩
    have heven : cs.length % 2 = 0 := by omega
    -- the reader succeeds on these digits, and what it reads is determined by them
    obtain ⟨bs', hbs'⟩ :=
      Option.isSome_iff_exists.mp ((hexBytes_isSome_iff cs).mpr ⟨heven, hdigits⟩)
    obtain ⟨hlen', hpairs'⟩ := hexBytes_pairValues hbs'
    rw [hbs', eq_of_pairValues (by omega) hpairs' hpairs]

/-- `n` bytes are read from `cs` as `bs` exactly when `cs` is `2 n` bytes long, all of them
hexadecimal digits, and `bs` has `n` bytes, each read from its pair of digits. -/
theorem decodeHex_eq_some_iff {n : Nat} {cs : List Char} {bs : List UInt8} :
    decodeHex n cs = some bs ↔
      (String.ofList cs).utf8ByteSize = 2 * n ∧ (∀ c ∈ cs, IsHexDigit c) ∧ bs.length = n ∧
        PairValues cs bs := by
  constructor
  · intro h
    obtain ⟨hlen, hdigits⟩ := hexText_of_decodeHex h
    obtain ⟨-, hlen', hpairs⟩ := hexBytes_eq_some_iff.mp (hexBytes_of_decodeHex h)
    exact ⟨(utf8ByteSize_of_hexDigits hdigits).trans hlen, hdigits, by omega, hpairs⟩
  · rintro ⟨hsize, hdigits, rfl, hpairs⟩
    -- digits are one byte each, so the byte length is the length the reader checks
    have hlen : cs.length = 2 * bs.length := (utf8ByteSize_of_hexDigits hdigits).symm.trans hsize
    rw [decodeHex, if_pos hlen]
    exact hexBytes_eq_some_iff.mpr ⟨hdigits, hlen, hpairs⟩

/-! ## Spelling bytes in digits of either case -/

/-- The lowercase hexadecimal spelling of bytes: two digits a byte, the high one first. -/
def hexSpelling (bs : List UInt8) : List Char :=
  bs.flatMap fun b => hexDigits 2 b.toNat

/-- A text with the case of each character chosen by its place: character `i` is put in upper
case when `upper i` holds and kept as it is otherwise. -/
def withCases (upper : Nat → Bool) (cs : List Char) : List Char :=
  cs.mapIdx fun i c => if upper i then c.toUpper else c

theorem hexSpelling_cons (b : UInt8) (bs : List UInt8) :
    hexSpelling (b :: bs) =
      hexDigitChar (b.toNat / 16 % 16) :: hexDigitChar (b.toNat % 16) :: hexSpelling bs := by
  simp [hexSpelling, hexDigits]

theorem withCases_cons (upper : Nat → Bool) (c : Char) (cs : List Char) :
    withCases upper (c :: cs) =
      (if upper 0 then c.toUpper else c) :: withCases (fun i => upper (i + 1)) cs := by
  simp [withCases, List.mapIdx_cons]

@[simp] theorem length_withCases (upper : Nat → Bool) (cs : List Char) :
    (withCases upper cs).length = cs.length :=
  List.length_mapIdx

@[simp] theorem length_hexSpelling (bs : List UInt8) :
    (hexSpelling bs).length = 2 * bs.length := by
  induction bs with
  | nil => rfl
  | cons b bs ih =>
    simp only [hexSpelling_cons, List.length_cons, ih]
    omega

/-- Each of the sixteen digits, in either case, has its own value. -/
theorem hexValue_cased_hexDigitChar :
    ∀ d < 16, ∀ u : Bool,
      hexValue (if u then (hexDigitChar d).toUpper else hexDigitChar d) = some d := by
  decide

/-- Pairs of digits read from a spelling, each digit in the case chosen for its place, give the
bytes spelled. -/
theorem hexBytes_withCases_hexSpelling (bs : List UInt8) (upper : Nat → Bool) :
    hexBytes (withCases upper (hexSpelling bs)) = some bs := by
  -- the choice of cases moves on by two places with each byte
  induction bs generalizing upper with
  | nil => rfl
  | cons b bs ih =>
    have hhi := hexValue_cased_hexDigitChar (b.toNat / 16 % 16) (Nat.mod_lt _ (by decide))
      (upper 0)
    have hlo := hexValue_cased_hexDigitChar (b.toNat % 16) (Nat.mod_lt _ (by decide)) (upper 1)
    -- the high and the low digit give the byte back
    have hbyte : (b.toNat / 16 % 16 * 16 + b.toNat % 16).toUInt8 = b := by
      have := b.toNat_lt
      rw [show b.toNat / 16 % 16 * 16 + b.toNat % 16 = b.toNat by omega]
      exact UInt8.ofNat_toNat
    rw [hexSpelling_cons, withCases_cons, withCases_cons]
    simp only [hexBytes, hhi, hlo, ih, Option.bind_eq_bind, Option.bind_some, Option.pure_def,
      hbyte]

/-- **Reading undoes spelling.** The hexadecimal spelling of any bytes, with each digit in
whichever case, reads back as those bytes. -/
theorem decodeHex_withCases_hexSpelling (bs : List UInt8) (upper : Nat → Bool) :
    decodeHex bs.length (withCases upper (hexSpelling bs)) = some bs := by
  rw [decodeHex, if_pos (by simp), hexBytes_withCases_hexSpelling]

example : withCases (fun i => i == 0 || i == 3) (hexSpelling [0xab, 0x0c]) = "Ab0C".toList := by
  decide

/-- Reading `n` bytes accepts exactly the texts of `2 n` bytes that are all hexadecimal digits,
and reads byte `i` from digits `2 i` and `2 i + 1`; so every spelling of every run of bytes, in
any mix of cases, reads back as those bytes. -/
theorem decodeHex_inverts_spelling :
    (∀ n cs bs, decodeHex n cs = some bs ↔
      (String.ofList cs).utf8ByteSize = 2 * n ∧ (∀ c ∈ cs, IsHexDigit c) ∧ bs.length = n ∧
        PairValues cs bs) ∧
    ∀ (bs : List UInt8) (upper : Nat → Bool),
      decodeHex bs.length (withCases upper (hexSpelling bs)) = some bs :=
  ⟨fun _ _ _ => decodeHex_eq_some_iff, decodeHex_withCases_hexSpelling⟩

end TracePropagation.Text
