import TracePropagation.Messaging.Codec
import Mathlib.Tactic.SplitIfs
import Mathlib.Tactic.Set

/-!
# Indexed parameter keys

An attribute at index `n` owns three parameter keys: the key start, `n` in decimal, and the
suffix of one **part**: `.Name`, `.Value.DataType` or `.Value.StringValue`. This module shows
that the keys are a faithful code of the pair (part, index), and how `attributeIndex` reads
them:

* `partKey_inj` — two keys are equal only for the same part and the same index; the decimal
  digits cannot run into the suffix, since every suffix starts with `.`;
* `attributeIndex_nameKey` — the name key of an index below `2^64` reads back as that index,
  and `attributeIndex_partKey_of_ne` — the other two keys read as nothing;
* `IsIndexedKey` — the shape of every indexed key, whatever its digits, and
  `isIndexedKey_of_attributeIndex` — every key that `attributeIndex` recognises has that shape,
  leading zeros included;
* `toDigits_ofDigitChars_eq_iff` — a run of digits is the decimal spelling of its value exactly
  when it has no leading zero;
* `Protocol.attributeIndex_eq_some_iff` — a key is read as `n` exactly when it spells `n`
  between the key start and `.Name` (`Protocol.SpellsName`) and `n` fits a machine word, and
  `Protocol.attributeIndex_reads_name_keys` — the whole reading, the keys of the other kind of
  request and the canonical spelling included.
-/

namespace TracePropagation

open Text

/-! ## Decimal digits -/

theorem digitValue_of_isDigit {c : Char} (h : c.isDigit) :
    digitValue 10 c = some (c.toNat - '0'.toNat) := by
  have hlt : c.toNat - 48 < 10 := by
    have := Char.isDigit_iff_toNat.mp h
    simp only [Char.reduceToNat] at this
    omega
  simp [digitValue, h, hlt]

/-- Over ASCII digits, the radix reader computes the usual decimal value. -/
theorem foldl_pushDigit {ds : List Char} (hd : ∀ c ∈ ds, c.isDigit) (a : Nat) :
    ds.foldl (pushDigit 10) (some a) = some (Nat.ofDigitChars 10 ds a) := by
  induction ds generalizing a with
  | nil => simp
  | cons c rest ih =>
    have hc : digitValue 10 c = some (c.toNat - '0'.toNat) :=
      digitValue_of_isDigit (hd c List.mem_cons_self)
    rw [List.foldl_cons, pushDigit, Option.bind_some, hc, Option.map_some,
      ih (fun x hx => hd x (List.mem_cons_of_mem _ hx)), Nat.ofDigitChars_cons, Nat.mul_comm]

theorem isDigit_of_mem_toDigits {c : Char} {n : Nat} (h : c ∈ Nat.toDigits 10 n) : c.isDigit :=
  Nat.isDigit_of_mem_toDigits (by decide) (by decide) h

/-- Reading the decimal spelling of a number gives the number back. -/
theorem digitsValue_toDigits (n : Nat) : digitsValue 10 (Nat.toDigits 10 n) = some n := by
  simp [digitsValue, Nat.toDigits_ne_nil, foldl_pushDigit fun _ => isDigit_of_mem_toDigits]

/-- Over a non-empty run of ASCII digits, the radix reader gives the decimal value. -/
theorem digitsValue_of_digits {ds : List Char} (hne : ds ≠ []) (hd : ∀ c ∈ ds, c.isDigit) :
    digitsValue 10 ds = some (Nat.ofDigitChars 10 ds 0) := by
  simp [digitsValue, hne, foldl_pushDigit hd]

theorem digitChar_toNat_sub {c : Char} (h : c.isDigit) : Nat.digitChar (c.toNat - '0'.toNat) = c := by
  have hc := Char.isDigit_iff_toNat.mp h
  simp only [Char.reduceToNat] at hc
  apply Char.toNat_inj.mp
  rw [Nat.toNat_digitChar_of_lt_ten (by simp only [Char.reduceToNat]; omega)]
  simp only [Char.reduceToNat]
  omega

/-- A run of decimal digits with no leading zero, unless it is the single digit `0`: the
spelling `toString` gives a number. -/
def Text.NoLeadingZero (ds : List Char) : Prop :=
  ds.head? = some '0' → ds = ['0']

/-- The decimal spelling of a number starts with `0` only when the number is zero. -/
theorem head_toDigits_eq_zero {n : Nat} (h : (Nat.toDigits 10 n).head? = some '0') : n = 0 := by
  induction n using Nat.base_induction 10 (by decide) with
  | single m hm =>
    rw [Nat.toDigits_of_lt_base hm] at h
    simpa using h
  | digit m k hk hm ih =>
    -- the first digit of `10 m + k` is the first digit of `m`, which is not zero
    obtain ⟨c, rest, hm'⟩ := List.exists_cons_of_ne_nil (Nat.toDigits_ne_nil : Nat.toDigits 10 m ≠ [])
    rw [← Nat.toDigits_append_toDigits (by decide) hm hk, hm', List.cons_append] at h
    rw [hm'] at ih
    exact absurd (ih h) (Nat.pos_iff_ne_zero.mp hm)

theorem noLeadingZero_toDigits (n : Nat) : NoLeadingZero (Nat.toDigits 10 n) := by
  intro h
  rw [head_toDigits_eq_zero h, Nat.toDigits_zero]

/-- Digits read after a non-zero number extend its decimal spelling. -/
theorem toDigits_ofDigitChars {cs : List Char} (hd : ∀ c ∈ cs, c.isDigit) {acc : Nat}
    (hacc : 0 < acc) : Nat.toDigits 10 (Nat.ofDigitChars 10 cs acc) = Nat.toDigits 10 acc ++ cs := by
  induction cs generalizing acc with
  | nil => simp
  | cons c rest ih =>
    have hc := hd c List.mem_cons_self
    have hlt : c.toNat - '0'.toNat < 10 := by
      have := Char.isDigit_iff_toNat.mp hc
      simp only [Char.reduceToNat] at this ⊢
      omega
    have hstep : Nat.toDigits 10 (10 * acc + (c.toNat - '0'.toNat)) = Nat.toDigits 10 acc ++ [c] := by
      rw [← Nat.toDigits_append_toDigits (by decide) hacc hlt, Nat.toDigits_of_lt_base hlt,
        digitChar_toNat_sub hc]
    rw [Nat.ofDigitChars_cons, ih (fun x hx => hd x (List.mem_cons_of_mem _ hx)) (by omega), hstep]
    simp

/-- **Canonical decimals.** A non-empty run of digits is the decimal spelling of its value
exactly when it has no leading zero. -/
theorem toDigits_ofDigitChars_eq_iff {ds : List Char} (hne : ds ≠ []) (hd : ∀ c ∈ ds, c.isDigit) :
    Nat.toDigits 10 (Nat.ofDigitChars 10 ds 0) = ds ↔ NoLeadingZero ds := by
  refine ⟨fun h => h ▸ noLeadingZero_toDigits _, fun h => ?_⟩
  obtain ⟨c, rest, rfl⟩ := List.exists_cons_of_ne_nil hne
  have hc := hd c List.mem_cons_self
  by_cases hzero : c = '0'
  · -- a leading zero is allowed only as the whole spelling of zero
    obtain ⟨rfl, rfl⟩ := List.cons_eq_cons.mp (h (by simp [hzero]))
    decide
  · have hpos : 0 < c.toNat - '0'.toNat := by
      have hne' : c.toNat ≠ '0'.toNat := fun he => hzero (Char.toNat_inj.mp he)
      have := Char.isDigit_iff_toNat.mp hc
      omega
    have hlt : c.toNat - '0'.toNat < 10 := by
      have := Char.isDigit_iff_toNat.mp hc
      simp only [Char.reduceToNat] at this ⊢
      omega
    rw [Nat.ofDigitChars_cons, Nat.mul_zero, Nat.zero_add,
      toDigits_ofDigitChars (fun x hx => hd x (List.mem_cons_of_mem _ hx)) hpos,
      Nat.toDigits_of_lt_base hlt, digitChar_toNat_sub hc]
    rfl

/-- A run of digits followed by a text that does not start with a digit splits one way only. -/
theorem digits_append_inj {ds ds' s s' : List Char} (hd : ∀ c ∈ ds, c.isDigit)
    (hd' : ∀ c ∈ ds', c.isDigit) (hs : ∀ c ∈ s.head?, ¬ c.isDigit)
    (hs' : ∀ c ∈ s'.head?, ¬ c.isDigit) (h : ds ++ s = ds' ++ s') : ds = ds' ∧ s = s' := by
  induction ds generalizing ds' with
  | nil =>
    cases ds' with
    | nil => simpa using h
    | cons c rest => simp at h; subst h; simp_all
  | cons c rest ih =>
    cases ds' with
    | nil => simp at h; subst h; simp_all
    | cons c' rest' =>
      simp only [List.cons_append, List.cons.injEq] at h
      obtain ⟨rfl, h⟩ := h
      have := ih (fun x hx => hd x (List.mem_cons_of_mem _ hx))
        (fun x hx => hd' x (List.mem_cons_of_mem _ hx)) h
      simp [this]

/-! ## Parts and their keys -/

/-- Which of an attribute's three parameters a key holds. -/
inductive KeyPart where
  /-- The attribute name. -/
  | name
  /-- The data type. -/
  | dataType
  /-- The string value. -/
  | stringValue
  deriving DecidableEq, Repr

/-- The text after the index in the key of a part. -/
def KeyPart.suffix : KeyPart → String
  | .name => ".Name"
  | .dataType => ".Value.DataType"
  | .stringValue => ".Value.StringValue"

theorem KeyPart.suffix_inj {a b : KeyPart} (h : a.suffix = b.suffix) : a = b := by
  cases a <;> cases b <;> first | rfl | simp [KeyPart.suffix] at h

theorem KeyPart.suffix_head (part : KeyPart) : ∀ c ∈ part.suffix.toList.head?, ¬ c.isDigit := by
  cases part <;> simp [KeyPart.suffix]

namespace Protocol

/-- The key of one part of the attribute at an index. -/
def partKey (p : Protocol) (part : KeyPart) (n : Nat) : String :=
  p.keyStart ++ toString n ++ part.suffix

theorem nameKey_eq_partKey (p : Protocol) (n : Nat) : p.nameKey n = p.partKey .name n := rfl

theorem dataTypeKey_eq_partKey (p : Protocol) (n : Nat) :
    p.dataTypeKey n = p.partKey .dataType n := rfl

theorem stringValueKey_eq_partKey (p : Protocol) (n : Nat) :
    p.stringValueKey n = p.partKey .stringValue n := rfl

theorem toList_partKey (p : Protocol) (part : KeyPart) (n : Nat) :
    (p.partKey part n).toList = p.keyStart.toList ++ Nat.toDigits 10 n ++ part.suffix.toList := by
  simp [partKey, String.toList_append, Nat.toString_eq_repr, Nat.toList_repr]

/-- **Keys are a code.** A key determines its part and its index. -/
theorem partKey_inj {p : Protocol} {a b : KeyPart} {i j : Nat} :
    p.partKey a i = p.partKey b j ↔ a = b ∧ i = j := by
  constructor
  · intro h
    have h' := congrArg String.toList h
    simp only [toList_partKey, List.append_assoc, List.append_cancel_left_eq] at h'
    obtain ⟨hd, hs⟩ := digits_append_inj (fun _ => isDigit_of_mem_toDigits)
      (fun _ => isDigit_of_mem_toDigits) a.suffix_head b.suffix_head h'
    refine ⟨KeyPart.suffix_inj (String.toList_injective hs), ?_⟩
    calc i = Nat.ofDigitChars 10 (Nat.toDigits 10 i) 0 := Nat.ofDigitChars_ten_toDigits.symm
      _ = Nat.ofDigitChars 10 (Nat.toDigits 10 j) 0 := by rw [hd]
      _ = j := Nat.ofDigitChars_ten_toDigits
  · rintro ⟨rfl, rfl⟩
    rfl

/-! ## Reading keys back -/

/-- The name key of an index that fits a machine word reads back as that index. -/
theorem attributeIndex_nameKey {p : Protocol} {n : Nat} (h : n < indexBound) :
    p.attributeIndex (p.nameKey n) = some n := by
  have hd : (Nat.toDigits 10 n).all Char.isDigit = true :=
    List.all_eq_true.mpr fun _ => isDigit_of_mem_toDigits
  simp [attributeIndex, nameKey_eq_partKey, toList_partKey, KeyPart.suffix, digitsValue_toDigits,
    Nat.toDigits_ne_nil, hd, h]

/-- The data-type and string-value keys are not read as attribute names. -/
theorem attributeIndex_partKey_of_ne {p : Protocol} {part : KeyPart} (hp : part ≠ .name)
    (n : Nat) : p.attributeIndex (p.partKey part n) = none := by
  cases part with
  | name => exact absurd rfl hp
  | dataType | stringValue =>
    simp [attributeIndex, toList_partKey, KeyPart.suffix, List.isSuffixOf, List.reverse_append,
      List.isPrefixOf]

/-- The shape of an indexed key: the key start, a non-empty run of ASCII digits, and the
suffix of a part. The digits are any, so that `007` or a number past `2^64` count too. -/
def IsIndexedKey (p : Protocol) (k : String) : Prop :=
  ∃ ds part, ds ≠ [] ∧ (∀ c ∈ ds, c.isDigit) ∧
    k.toList = p.keyStart.toList ++ ds ++ (KeyPart.suffix part).toList

theorem isIndexedKey_partKey (p : Protocol) (part : KeyPart) (n : Nat) :
    p.IsIndexedKey (p.partKey part n) :=
  ⟨Nat.toDigits 10 n, part, Nat.toDigits_ne_nil, fun _ => isDigit_of_mem_toDigits,
    toList_partKey p part n⟩

/-- `key` is the name key whose index is spelt by the digits `ds`: the key start, a non-empty
run of ASCII digits, then `.Name`. Leading zeros and values past `2^64` are spellings too. -/
def SpellsName (p : Protocol) (key : String) (ds : List Char) : Prop :=
  ds ≠ [] ∧ (∀ c ∈ ds, c.isDigit) ∧ key.toList = p.keyStart.toList ++ ds ++ ".Name".toList

/-- Every key that `attributeIndex` reads as a name spells a name key. -/
theorem spellsName_of_attributeIndex {p : Protocol} {k : String} {n : Nat}
    (h : p.attributeIndex k = some n) : ∃ ds, p.SpellsName k ds := by
  unfold attributeIndex at h
  simp only at h
  split_ifs at h with hpre hsuf hdig
  set rest := k.toList.drop p.keyStart.toList.length
  obtain ⟨tail, hk⟩ := List.isPrefixOf_iff_prefix.mp hpre
  obtain ⟨ds, hr⟩ := List.isSuffixOf_iff_suffix.mp hsuf
  have hrest : rest = tail := by simp [rest, ← hk]
  have hds : rest.take (rest.length - 5) = ds := by rw [← hr]; simp
  rw [hds] at hdig
  simp only [Bool.or_eq_true, List.isEmpty_iff, Bool.not_eq_true', not_or,
    Bool.not_eq_false, List.all_eq_true] at hdig
  refine ⟨ds, hdig.1, hdig.2, ?_⟩
  rw [← hk, ← hrest, ← hr, List.append_assoc]

/-- Every key that `attributeIndex` reads as a name has the indexed shape. -/
theorem isIndexedKey_of_attributeIndex {p : Protocol} {k : String} {n : Nat}
    (h : p.attributeIndex k = some n) : p.IsIndexedKey k := by
  obtain ⟨ds, hne, hd, hk⟩ := spellsName_of_attributeIndex h
  exact ⟨ds, .name, hne, hd, hk⟩

/-- A spelt name key is read as the value of its digits, if that fits a machine word. -/
theorem attributeIndex_of_spellsName {p : Protocol} {key : String} {ds : List Char}
    (h : p.SpellsName key ds) :
    p.attributeIndex key = (some (Nat.ofDigitChars 10 ds 0)).filter (· < indexBound) := by
  obtain ⟨hne, hd, hk⟩ := h
  have hall : ds.all Char.isDigit = true := List.all_eq_true.mpr hd
  simp [attributeIndex, hk, digitsValue_of_digits hne hd, hne, hall]

/-- **The keys read as names.** `attributeIndex` reads a key as `n` exactly when the key is
the key start, a non-empty run of ASCII digits of value `n`, and `.Name`, with `n` below
`2^64`. -/
theorem attributeIndex_eq_some_iff {p : Protocol} {key : String} {n : Nat} :
    p.attributeIndex key = some n ↔
      ∃ ds, p.SpellsName key ds ∧ Nat.ofDigitChars 10 ds 0 = n ∧ n < indexBound := by
  constructor
  · intro h
    obtain ⟨ds, hds⟩ := spellsName_of_attributeIndex h
    rw [attributeIndex_of_spellsName hds, Option.filter_eq_some_iff] at h
    obtain ⟨hv, hlt⟩ := h
    obtain rfl : Nat.ofDigitChars 10 ds 0 = n := Option.some.inj hv
    exact ⟨ds, hds, rfl, of_decide_eq_true hlt⟩
  · rintro ⟨ds, hds, rfl, hlt⟩
    rw [attributeIndex_of_spellsName hds]
    simp [hlt]

/-- The keys of the other kind of request are not read as names: the two key starts part at
the character after `MessageAttribute`. -/
theorem attributeIndex_partKey_of_protocol_ne {p q : Protocol} (hpq : q ≠ p) (part : KeyPart)
    (n : Nat) : p.attributeIndex (q.partKey part n) = none := by
  cases p <;> cases q
  · exact absurd rfl hpq
  · simp [attributeIndex, toList_partKey, keyStart, List.isPrefixOf]
  · simp [attributeIndex, toList_partKey, keyStart, List.isPrefixOf]
  · exact absurd rfl hpq

/-- A spelt name key is the name key of its value exactly when its digits have no leading
zero. -/
theorem nameKey_eq_iff_noLeadingZero {p : Protocol} {key : String} {ds : List Char}
    (h : p.SpellsName key ds) : p.nameKey (Nat.ofDigitChars 10 ds 0) = key ↔ NoLeadingZero ds := by
  obtain ⟨hne, hd, hk⟩ := h
  rw [← toDigits_ofDigitChars_eq_iff hne hd, ← String.toList_inj, nameKey_eq_partKey,
    toList_partKey, hk, KeyPart.suffix]
  simp

/-- **Name keys read exactly.** For each kind of request, `attributeIndex` reads the name key
of every index that fits a machine word back as that index, reads neither of the other two
keys of an index nor any key of the other kind of request, and reads a key as `n` exactly when
it spells `n` in digits between the key start and `.Name`; such a key is the name key of `n`
exactly when its digits have no leading zero. -/
theorem attributeIndex_reads_name_keys (p : Protocol) :
    (∀ n, n < indexBound → p.attributeIndex (p.nameKey n) = some n) ∧
    (∀ n, p.attributeIndex (p.dataTypeKey n) = none ∧
      p.attributeIndex (p.stringValueKey n) = none) ∧
    (∀ q, q ≠ p → ∀ n, p.attributeIndex (q.nameKey n) = none ∧
      p.attributeIndex (q.dataTypeKey n) = none ∧ p.attributeIndex (q.stringValueKey n) = none) ∧
    (∀ key n, p.attributeIndex key = some n ↔
      ∃ ds, p.SpellsName key ds ∧ Nat.ofDigitChars 10 ds 0 = n ∧ n < indexBound) ∧
    (∀ key ds, p.SpellsName key ds →
      (p.nameKey (Nat.ofDigitChars 10 ds 0) = key ↔ NoLeadingZero ds)) := by
  refine ⟨fun n hn => attributeIndex_nameKey hn, fun n => ⟨?_, ?_⟩, fun q hq n => ⟨?_, ?_, ?_⟩,
    fun _ _ => attributeIndex_eq_some_iff, fun _ _ h => nameKey_eq_iff_noLeadingZero h⟩
  · rw [dataTypeKey_eq_partKey]
    exact attributeIndex_partKey_of_ne (by decide) n
  · rw [stringValueKey_eq_partKey]
    exact attributeIndex_partKey_of_ne (by decide) n
  · rw [nameKey_eq_partKey]
    exact attributeIndex_partKey_of_protocol_ne hq .name n
  · rw [dataTypeKey_eq_partKey]
    exact attributeIndex_partKey_of_protocol_ne hq .dataType n
  · rw [stringValueKey_eq_partKey]
    exact attributeIndex_partKey_of_protocol_ne hq .stringValue n

end Protocol

end TracePropagation
