import TracePropagation.Cloud.TraceHeader
import TracePropagation.Proofs.HexPairs
import TracePropagation.Proofs.TraceHeaders
import TracePropagation.Proofs.JsonText
import Mathlib.Data.List.Induction
import Mathlib.Tactic.SplitIfs

/-!
# The cloud trace header, read by its grammar

A header is cut at `;` into segments, each trimmed and cut at its first `=` into a key and a
value. The reader folds the segments into three fields, rejecting the header at the first
malformed `Root` or `Parent`; a later well-formed one replaces an earlier one. This module
states what the fold computes without the fold:

* `CloudTrace.segments`, `CloudTrace.valuesOf` — the segments of a header and the values of
  one key, in order;
* `CloudTrace.add_ofSegments` — one step of the fold, and `CloudTrace.foldlM_add` — the whole
  run: no rejection exactly when every `Root` and `Parent` is well-formed, and then the last of
  each counts;
* `CloudTrace.parseRoot_eq_some_iff`, `CloudTrace.parseParent_eq` — the two values, read as
  hexadecimal numbers;
* `CloudTrace.Names`, `CloudTrace.parse_eq_some_iff` — a header gives a span context exactly
  when its segments name it by the grammar;
* `CloudTrace.WrittenPieces`, `CloudTrace.parse_written` — the header the runtime writes for a
  valid span context, its segments in any order, with blanks around them and pieces of other
  keys among them, gives that span context back: it is cut back into its pieces
  (`WrittenPieces.segments_eq`) and each key keeps the one value of its own piece
  (`WrittenPieces.valuesOf_perm`);
* `CloudTrace.parse_follows_grammar` — both together.
-/

namespace TracePropagation

theorem TraceId.eq_of_toNat_eq {a b : TraceId} (h : a.toNat = b.toNat) : a = b := by
  cases a
  cases b
  simp_all

theorem SpanId.eq_of_toNat_eq {a b : SpanId} (h : a.toNat = b.toNat) : a = b := by
  cases a
  cases b
  simp_all

namespace CloudTrace

open Text

/-! ## Segments -/

/-- The key and value of a piece of a header: the piece trimmed and cut at its first `=`; a
piece without `=` has none. -/
def segment (piece : List Char) : Option (List Char × List Char) :=
  splitOnce '=' (trim piece)

/-- The `key=value` segments of a header: those of its pieces between `;`, in order. -/
def segments (header : String) : List (List Char × List Char) :=
  (pieces ';' header.toList).filterMap segment

/-- The values of the segments with a key, in order. -/
def valuesOf (key : String) (segs : List (List Char × List Char)) : List (List Char) :=
  segs.filterMap fun kv => if kv.1 = key.toList then some kv.2 else none

@[simp] theorem valuesOf_nil (key : String) : valuesOf key [] = [] := rfl

@[simp] theorem valuesOf_append (key : String) (segs segs' : List (List Char × List Char)) :
    valuesOf key (segs ++ segs') = valuesOf key segs ++ valuesOf key segs' := by
  simp [valuesOf]

theorem valuesOf_singleton (key : String) (k v : List Char) :
    valuesOf key [(k, v)] = if k = key.toList then [v] else [] := by
  by_cases h : k = key.toList <;> simp [valuesOf, h]

/-! ## The fold over the segments -/

/-- No `Root` and no `Parent` among the segments is malformed. -/
def WellFormed (segs : List (List Char × List Char)) : Prop :=
  (∀ v ∈ valuesOf "Root" segs, (parseRoot v).isSome) ∧
    ∀ v ∈ valuesOf "Parent" segs, (parseParent v).isSome

instance : DecidablePred WellFormed := fun segs =>
  inferInstanceAs (Decidable ((∀ v ∈ valuesOf "Root" segs, (parseRoot v).isSome) ∧
    ∀ v ∈ valuesOf "Parent" segs, (parseParent v).isSome))

theorem wellFormed_append {segs segs' : List (List Char × List Char)} :
    WellFormed (segs ++ segs') ↔ WellFormed segs ∧ WellFormed segs' := by
  simp only [WellFormed, valuesOf_append, List.forall_mem_append]
  constructor
  · rintro ⟨⟨hr, hr'⟩, hp, hp'⟩
    exact ⟨⟨hr, hp⟩, hr', hp'⟩
  · rintro ⟨⟨hr, hp⟩, hr', hp'⟩
    exact ⟨⟨hr, hr'⟩, hp, hp'⟩

/-- What a run of well-formed segments says: the last `Root` and the last `Parent`, read, and
whether the last `Sampled` says `1`. -/
def Fields.ofSegments (segs : List (List Char × List Char)) : Fields where
  root := (valuesOf "Root" segs).getLast?.bind parseRoot
  parent := (valuesOf "Parent" segs).getLast?.bind parseParent
  sampled := decide ((valuesOf "Sampled" segs).getLast? = some ['1'])

/-- **One segment.** After the fields of a run of segments, one more segment rejects the header
if it is a malformed `Root` or `Parent`, and otherwise gives the fields of the longer run. -/
theorem add_ofSegments (segs : List (List Char × List Char)) (k v : List Char) :
    (Fields.ofSegments segs).add (k, v) =
      if WellFormed [(k, v)] then some (Fields.ofSegments (segs ++ [(k, v)])) else none := by
  -- the key picks the one field the segment sets; the other two keep their last values
  by_cases hroot : k = "Root".toList
  · subst hroot
    cases h : parseRoot v <;>
      simp [Fields.add, WellFormed, Fields.ofSegments, valuesOf_singleton, h]
  by_cases hparent : k = "Parent".toList
  · subst hparent
    cases h : parseParent v <;>
      simp [Fields.add, WellFormed, Fields.ofSegments, valuesOf_singleton, h]
  have hwf : WellFormed [(k, v)] := by
    simp only [WellFormed, valuesOf_singleton, if_neg hroot, if_neg hparent]
    exact ⟨fun _ h => absurd h List.not_mem_nil, fun _ h => absurd h List.not_mem_nil⟩
  rw [if_pos hwf]
  by_cases hsampled : k = "Sampled".toList
  · subst hsampled
    simp [Fields.add, Fields.ofSegments, valuesOf_singleton]
  · simp only [Fields.add, if_neg hroot, if_neg hparent, if_neg hsampled, Fields.ofSegments,
      valuesOf_append, valuesOf_singleton, List.append_nil]

/-- **The whole run.** The segments are read without rejection exactly when no `Root` and no
`Parent` among them is malformed, and they then give `Fields.ofSegments`. -/
theorem foldlM_add (segs : List (List Char × List Char)) :
    segs.foldlM Fields.add {} = if WellFormed segs then some (Fields.ofSegments segs) else none := by
  -- from the right: the fields read so far, then the last segment
  induction segs using List.reverseRecOn with
  | nil => rfl
  | append_singleton segs kv ih =>
    obtain ⟨k, v⟩ := kv
    rw [List.foldlM_append, ih]
    by_cases hsegs : WellFormed segs
    · simp only [if_pos hsegs, Option.pure_def, Option.bind_eq_bind, Option.bind_some,
        List.foldlM_cons, List.foldlM_nil, add_ofSegments]
      by_cases hlast : WellFormed [(k, v)]
      · rw [if_pos hlast, if_pos (wellFormed_append.mpr ⟨hsegs, hlast⟩)]
        rfl
      · rw [if_neg hlast, if_neg fun h => hlast (wellFormed_append.mp h).2]
        rfl
    · rw [if_neg hsegs, if_neg fun h => hsegs (wellFormed_append.mp h).1]
      rfl

/-! ## `Root` and `Parent` values -/

theorem not_isHexDigit_minus : ¬ IsHexDigit '-' := by decide

theorem minus_not_mem_of_hexText {n : Nat} {cs : List Char} (h : HexText n cs) : '-' ∉ cs :=
  fun hm => not_isHexDigit_minus (h.2 _ hm)

theorem splitOnce_eq_some_iff {sep : Char} {cs a b : List Char} :
    splitOnce sep cs = some (a, b) ↔ cs = a ++ sep :: b ∧ sep ∉ a :=
  ⟨splitOnce_eq_some, fun ⟨h, ha⟩ => h ▸ splitOnce_append_cons b ha⟩

/-- Cut into at most three pieces, a text is its first two separators and what lies around
them. -/
theorem piecesUpTo_three_eq {sep : Char} {cs a b c : List Char} :
    piecesUpTo sep 3 cs = [a, b, c] ↔ cs = a ++ sep :: (b ++ sep :: c) ∧ sep ∉ a ∧ sep ∉ b := by
  constructor
  · intro h
    simp only [piecesUpTo] at h
    cases h₁ : splitOnce sep cs with
    | none => simp [h₁] at h
    | some p =>
      obtain ⟨a', rest⟩ := p
      cases h₂ : splitOnce sep rest with
      | none => simp [h₁, h₂] at h
      | some q =>
        obtain ⟨b', c'⟩ := q
        simp only [h₁, h₂, List.cons.injEq, and_true] at h
        obtain ⟨rfl, rfl, rfl⟩ := h
        obtain ⟨hcs, ha⟩ := splitOnce_eq_some_iff.mp h₁
        obtain ⟨hrest, hb⟩ := splitOnce_eq_some_iff.mp h₂
        exact ⟨hcs.trans (by rw [hrest]), ha, hb⟩
  · rintro ⟨rfl, ha, hb⟩
    simp only [piecesUpTo, splitOnce_append_cons _ ha, splitOnce_append_cons _ hb]

/-- A `Root` value: version `1`, then the epoch and the random part of the trace id, each after
a `-`. -/
def rootText (epoch random : List Char) : List Char :=
  '1' :: '-' :: (epoch ++ '-' :: random)

/-- A well-formed `Root` value: 8 hexadecimal digits of the epoch and 24 of the random part. -/
def RootText (v : List Char) : Prop :=
  ∃ epoch random, v = rootText epoch random ∧ HexText 8 epoch ∧ HexText 24 random

theorem hexNumber_lt_of_length {cs : List Char} {n : Nat} (h : cs.length = n) :
    hexNumber cs < 16 ^ n :=
  h ▸ hexNumber_lt cs

/-- **The `Root` value.** It is read exactly when it is well-formed, as the value of its 32
digits. -/
theorem parseRoot_eq_some_iff {v : List Char} {t : TraceId} :
    parseRoot v = some t ↔ ∃ epoch random, v = rootText epoch random ∧ HexText 8 epoch ∧
      HexText 24 random ∧ t.toNat = hexNumber (epoch ++ random) := by
  have hbound : ∀ epoch random : List Char, HexText 8 epoch → HexText 24 random →
      hexNumber (epoch ++ random) < Nat.pow 2 128 := fun epoch random he hr => by
    have hlen : (epoch ++ random).length = 32 := by rw [List.length_append, he.1, hr.1]
    exact hexNumber_lt_of_length hlen
  constructor
  · intro h
    unfold parseRoot at h
    split at h
    · rename_i version epoch random hpieces
      obtain ⟨rfl, -, -⟩ := piecesUpTo_three_eq.mp hpieces
      split_ifs at h with hbad
      simp only [Bool.or_eq_true, decide_eq_true_eq, not_or, Decidable.not_not] at hbad
      obtain ⟨⟨rfl, -⟩, -⟩ := hbad
      simp only [Option.bind_eq_bind, Option.bind_eq_some_iff, Option.pure_def,
        Option.some.injEq] at h
      obtain ⟨a, ha, b, hb, rfl⟩ := h
      have he : HexText 8 epoch := hexText_of_decodeHex ha
      have hr : HexText 24 random := hexText_of_decodeHex hb
      refine ⟨epoch, random, rfl, he, hr, ?_⟩
      show bytesValue (a ++ b) % Nat.pow 2 128 = _
      rw [bytesValue_append_hexBytes (hexBytes_of_decodeHex ha) (hexBytes_of_decodeHex hb),
        Nat.mod_eq_of_lt (hbound epoch random he hr)]
    · cases h
  · rintro ⟨epoch, random, rfl, he, hr, ht⟩
    have hpieces : piecesUpTo '-' 3 (rootText epoch random) = [['1'], epoch, random] :=
      piecesUpTo_three_eq.mpr ⟨rfl, by decide, minus_not_mem_of_hexText he⟩
    obtain ⟨a, ha⟩ : ∃ bs, decodeHex 4 epoch = some bs := exists_decodeHex he
    obtain ⟨b, hb⟩ : ∃ bs, decodeHex 12 random = some bs := exists_decodeHex hr
    rw [parseRoot, hpieces]
    simp only [he.1, hr.1, ne_eq, not_true_eq_false, decide_false, Bool.or_false, Bool.false_eq_true,
      if_false, ha, hb, Option.bind_eq_bind, Option.bind_some, Option.pure_def, Option.some.injEq]
    apply TraceId.eq_of_toNat_eq
    show bytesValue (a ++ b) % Nat.pow 2 128 = _
    rw [bytesValue_append_hexBytes (hexBytes_of_decodeHex ha) (hexBytes_of_decodeHex hb),
      Nat.mod_eq_of_lt (hbound epoch random he hr), ht]

theorem parseRoot_isSome_iff {v : List Char} : (parseRoot v).isSome ↔ RootText v := by
  constructor
  · intro h
    obtain ⟨t, ht⟩ := Option.isSome_iff_exists.mp h
    obtain ⟨epoch, random, hv, he, hr, -⟩ := parseRoot_eq_some_iff.mp ht
    exact ⟨epoch, random, hv, he, hr⟩
  · rintro ⟨epoch, random, hv, he, hr⟩
    have hlen : (epoch ++ random).length = 32 := by rw [List.length_append, he.1, hr.1]
    have hlt : hexNumber (epoch ++ random) < Nat.pow 2 128 := hexNumber_lt_of_length hlen
    exact Option.isSome_iff_exists.mpr
      ⟨⟨_, hlt⟩, parseRoot_eq_some_iff.mpr ⟨epoch, random, hv, he, hr, rfl⟩⟩

/-- **The `Parent` value.** It is read exactly when it is 16 hexadecimal digits, as their
value. -/
theorem parseParent_eq (v : List Char) :
    parseParent v = if HexText 16 v then some (SpanId.ofNat (hexNumber v)) else none := by
  show Option.map (SpanId.ofNat ∘ bytesValue) (decodeHex 8 v) = _
  rw [← Option.map_map, decodeHex_map_bytesValue]
  split_ifs <;> rfl

theorem parseParent_eq_some_iff {v : List Char} {s : SpanId} :
    parseParent v = some s ↔ HexText 16 v ∧ s.toNat = hexNumber v := by
  rw [parseParent_eq]
  split_ifs with hv
  · have hlt : hexNumber v < Nat.pow 2 64 := hexNumber_lt_of_length hv.1
    constructor
    · rintro ⟨⟩
      exact ⟨hv, Nat.mod_eq_of_lt hlt⟩
    · rintro ⟨-, hs⟩
      exact congrArg some (SpanId.eq_of_toNat_eq ((Nat.mod_eq_of_lt hlt).trans hs.symm))
  · simp [hv]

/-! ## What a header names -/

/-- The span context that a header's segments name by its grammar: every `Root` and every
`Parent` is well-formed, the last of each gives the id, neither id is zero, the context is
sampled exactly when the last `Sampled` says `1`, and it is remote with an empty trace state. -/
structure Names (segs : List (List Char × List Char)) (sc : SpanContext) : Prop where
  /-- Every `Root` is version `1`, 8 hexadecimal digits and 24 more. -/
  roots : ∀ v ∈ valuesOf "Root" segs, RootText v
  /-- Every `Parent` is 16 hexadecimal digits. -/
  parents : ∀ v ∈ valuesOf "Parent" segs, HexText 16 v
  /-- There is a `Root`; the last one is `1-`, 8 digits, `-` and 24 digits, and the trace id is
  the value of those 32 digits. -/
  lastRoot : ∃ epoch random, (valuesOf "Root" segs).getLast? = some (rootText epoch random) ∧
    HexText 8 epoch ∧ HexText 24 random ∧ sc.traceId.toNat = hexNumber (epoch ++ random)
  /-- There is a `Parent`; the span id is the value of the last one. -/
  lastParent : ∃ p, (valuesOf "Parent" segs).getLast? = some p ∧ sc.spanId.toNat = hexNumber p
  /-- The trace id is not zero. -/
  traceId_ne : sc.traceId.toNat ≠ 0
  /-- The span id is not zero. -/
  spanId_ne : sc.spanId.toNat ≠ 0
  /-- Sampled exactly when the last `Sampled` says `1`. -/
  flags : sc.flags = if (valuesOf "Sampled" segs).getLast? = some ['1'] then .sampled else .none
  /-- Received from another process. -/
  remote : sc.remote = true
  /-- No trace state. -/
  state : sc.state = .empty

theorem parse_eq_bind (header : String) :
    parse header = ((segments header).foldlM Fields.add {}).bind fun fs =>
      fs.root.bind fun t => fs.parent.bind fun s =>
        if (⟨t, s, if fs.sampled then .sampled else .none, true, .empty⟩ : SpanContext).isValid
        then some ⟨t, s, if fs.sampled then .sampled else .none, true, .empty⟩ else none :=
  rfl

theorem parseParent_isSome_iff {v : List Char} : (parseParent v).isSome ↔ HexText 16 v := by
  rw [parseParent_eq]
  split_ifs with hv <;> simp [hv]

theorem wellFormed_of_names {segs : List (List Char × List Char)} {sc : SpanContext}
    (h : Names segs sc) : WellFormed segs :=
  ⟨fun v hv => parseRoot_isSome_iff.mpr (h.roots v hv),
    fun v hv => parseParent_isSome_iff.mpr (h.parents v hv)⟩

/-- **The header's grammar.** A header gives a span context exactly when its segments name it:
every `Root` and `Parent` well-formed, the last of each read as a non-zero id, sampled exactly
when the last `Sampled` says `1`, remote, and with an empty trace state. -/
theorem parse_eq_some_iff {header : String} {sc : SpanContext} :
    parse header = some sc ↔ Names (segments header) sc := by
  rw [parse_eq_bind, foldlM_add]
  constructor
  · intro h
    split_ifs at h with hwf
    · simp only [Option.bind_some, Option.bind_eq_some_iff, Option.ite_none_right_eq_some,
        Option.some.injEq] at h
      obtain ⟨t, ht, s, hs, hvalid, rfl⟩ := h
      obtain ⟨vr, hvr, hrt⟩ := Option.bind_eq_some_iff.mp ht
      obtain ⟨epoch, random, rfl, he, hr, htn⟩ := parseRoot_eq_some_iff.mp hrt
      obtain ⟨vp, hvp, hps⟩ := Option.bind_eq_some_iff.mp hs
      obtain ⟨-, hsn⟩ := parseParent_eq_some_iff.mp hps
      simp only [SpanContext.isValid, TraceId.isValid, SpanId.isValid, Bool.and_eq_true,
        bne_iff_ne, ne_eq] at hvalid
      refine ⟨fun v hv => parseRoot_isSome_iff.mp (hwf.1 v hv),
        fun v hv => parseParent_isSome_iff.mp (hwf.2 v hv), ⟨epoch, random, hvr, he, hr, htn⟩,
        ⟨vp, hvp, hsn⟩, hvalid.1, hvalid.2, ?_, rfl, rfl⟩
      simp [Fields.ofSegments]
    · cases h
  · intro h
    obtain ⟨epoch, random, hroot, he, hr, htn⟩ := h.lastRoot
    obtain ⟨p, hparent, hsn⟩ := h.lastParent
    have hrt : (Fields.ofSegments (segments header)).root = some sc.traceId := by
      simp only [Fields.ofSegments, hroot, Option.bind_some]
      exact parseRoot_eq_some_iff.mpr ⟨epoch, random, rfl, he, hr, htn⟩
    have hps : (Fields.ofSegments (segments header)).parent = some sc.spanId := by
      simp only [Fields.ofSegments, hparent, Option.bind_some]
      exact parseParent_eq_some_iff.mpr ⟨h.parents p (List.mem_of_getLast? hparent), hsn⟩
    rw [if_pos (wellFormed_of_names h), Option.bind_some, hrt, Option.bind_some, hps,
      Option.bind_some]
    -- the span context built is `sc`, field by field
    obtain ⟨t, s, flags, remote, state⟩ := sc
    obtain ⟨-, -, -, -, ht, hs, hflags, hremote, hstate⟩ := h
    simp only at ht hs hflags hremote hstate
    subst hflags hremote hstate
    simp [SpanContext.isValid, TraceId.isValid, SpanId.isValid, ht, hs, Fields.ofSegments]

/-! ## The header the runtime writes -/

/-- The `Root` segment of a trace id: its 32 digits cut after the first 8, the first four
bytes. -/
def rootSegment (t : TraceId) : List Char :=
  "Root".toList ++ '=' :: rootText ((hexDigits 32 t.toNat).take 8) ((hexDigits 32 t.toNat).drop 8)

/-- The `Parent` segment of a span id: its 16 digits. -/
def parentSegment (s : SpanId) : List Char :=
  "Parent".toList ++ '=' :: hexDigits 16 s.toNat

theorem rootSegment_eq (t : TraceId) : rootSegment t = "Root".toList ++
    '=' :: rootText ((hexDigits 32 t.toNat).take 8) ((hexDigits 32 t.toNat).drop 8) :=
  rfl

theorem parentSegment_eq (s : SpanId) :
    parentSegment s = "Parent".toList ++ '=' :: hexDigits 16 s.toNat :=
  rfl

/-- The `Sampled` segment: `1` or `0`. -/
def sampledSegment (sampled : Bool) : List Char :=
  "Sampled".toList ++ '=' :: [if sampled then '1' else '0']

/-- A piece of a header: a segment's text with blanks on either side. -/
def Padded (core piece : List Char) : Prop :=
  ∃ before after, (∀ c ∈ before, isBlank c = true) ∧ (∀ c ∈ after, isBlank c = true) ∧
    piece = before ++ core ++ after

/-- A piece of another key, or with no `=`: a text without `;` whose trimmed key, if it has
one, is none of `Root`, `Parent` and `Sampled`. -/
def OtherPiece (piece : List Char) : Prop :=
  ';' ∉ piece ∧ ∀ kv ∈ segment piece,
    kv.1 ≠ "Root".toList ∧ kv.1 ≠ "Parent".toList ∧ kv.1 ≠ "Sampled".toList

/-- The pieces of a header written for a span context: the `Root`, `Parent` and `Sampled`
segments, with blanks around them, and pieces of other keys, in any order. -/
def WrittenPieces (t : TraceId) (s : SpanId) (sampled : Bool) (texts : List (List Char)) :
    Prop :=
  ∃ root parent flag others, texts.Perm (root :: parent :: flag :: others) ∧
    Padded (rootSegment t) root ∧ Padded (parentSegment s) parent ∧
    Padded (sampledSegment sampled) flag ∧ ∀ x ∈ others, OtherPiece x

theorem isHexDigit_hexDigitChar : ∀ d < 16, IsHexDigit (hexDigitChar d) := by decide

theorem isHexDigit_of_mem_hexDigits {c : Char} {w n : Nat} (h : c ∈ hexDigits w n) :
    IsHexDigit c := by
  obtain ⟨d, hd, rfl⟩ := mem_hexDigits h
  exact isHexDigit_hexDigitChar d hd

/-- Fixed-width hexadecimal reads back as the low digits of its number. -/
theorem hexNumber_hexDigits (w n : Nat) : hexNumber (hexDigits w n) = n % 16 ^ w := by
  induction w generalizing n with
  | zero => simp [hexDigits, hexNumber, Nat.mod_one]
  | succ w ih =>
    have hd : hexValue (hexDigitChar (n % 16)) = some (n % 16) :=
      Json.hexValue_hexDigitChar _ (Nat.mod_lt _ (by decide))
    rw [hexDigits, hexNumber, List.foldl_append, ← hexNumber, ih, List.foldl_cons,
      List.foldl_nil, pushHexDigit, hd, Option.getD_some, Nat.pow_succ, Nat.mul_comm (16 ^ w) 16,
      Nat.mod_mul]
    omega

/-- Blanks around a text without blanks are trimmed away. -/
theorem trim_padded {core piece : List Char} (hcore : ∀ c ∈ core, isBlank c = false)
    (hne : core ≠ []) (h : Padded core piece) : trim piece = core := by
  obtain ⟨before, after, hb, ha, rfl⟩ := h
  have hstart : trimStart (before ++ core ++ after) = core ++ after := by
    rw [trimStart, List.append_assoc, List.dropWhile_append_of_pos hb, List.dropWhile_append,
      dropWhile_blank_of_forall hcore]
    simp [hne]
  rw [trim, hstart, trimEnd, List.reverse_append, List.dropWhile_append_of_pos
    (fun c hc => ha c (List.mem_reverse.mp hc)), dropWhile_blank_of_forall (by simpa using hcore),
    List.reverse_reverse]

/-- A character that stays inside a trimmed segment: no blank and no `;`. -/
def Plain (c : Char) : Prop := isBlank c = false ∧ c ≠ ';'

instance : DecidablePred Plain := fun c => inferInstanceAs (Decidable (isBlank c = false ∧ c ≠ ';'))

theorem plain_of_mem_hexDigits {c : Char} {w n : Nat} (h : c ∈ hexDigits w n) : Plain c := by
  obtain ⟨d, hd, rfl⟩ := mem_hexDigits h
  refine ⟨isBlank_hexDigitChar d hd, fun he => ?_⟩
  have := isHexDigit_hexDigitChar d hd
  rw [he] at this
  exact absurd this (by decide)

theorem forall_plain_of_all {cs : List Char} (h : (cs.all fun c => decide (Plain c)) = true) :
    ∀ c ∈ cs, Plain c :=
  fun c hc => of_decide_eq_true (List.all_eq_true.mp h c hc)

theorem plain_rootSegment (t : TraceId) : ∀ c ∈ rootSegment t, Plain c := by
  intro c hc
  rw [rootSegment_eq] at hc
  simp only [rootText, List.mem_append, List.mem_cons] at hc
  rcases hc with hc | rfl | rfl | rfl | hc | rfl | hc
  · exact forall_plain_of_all (by decide) c hc
  · decide
  · decide
  · decide
  · exact plain_of_mem_hexDigits (List.mem_of_mem_take hc)
  · decide
  · exact plain_of_mem_hexDigits (List.mem_of_mem_drop hc)

theorem plain_parentSegment (s : SpanId) : ∀ c ∈ parentSegment s, Plain c := by
  intro c hc
  rw [parentSegment_eq] at hc
  simp only [List.mem_append, List.mem_cons] at hc
  rcases hc with hc | rfl | hc
  · exact forall_plain_of_all (by decide) c hc
  · decide
  · exact plain_of_mem_hexDigits hc

theorem plain_sampledSegment (sampled : Bool) : ∀ c ∈ sampledSegment sampled, Plain c := by
  cases sampled <;> exact forall_plain_of_all (by decide)

/-- A piece that pads a segment is read as that segment's key and value. -/
theorem segment_padded {k v piece : List Char} (hk : '=' ∉ k)
    (hplain : ∀ c ∈ k ++ '=' :: v, Plain c) (h : Padded (k ++ '=' :: v) piece) :
    segment piece = some (k, v) := by
  rw [segment, trim_padded (fun c hc => (hplain c hc).1) (by simp) h, splitOnce_append_cons v hk]

theorem semicolon_not_mem_padded {core piece : List Char} (hplain : ∀ c ∈ core, Plain c)
    (h : Padded core piece) : ';' ∉ piece := by
  obtain ⟨before, after, hb, ha, rfl⟩ := h
  simp only [List.mem_append, not_or]
  refine ⟨⟨fun hm => absurd (hb _ hm) (by decide), fun hm => (hplain _ hm).2 rfl⟩,
    fun hm => absurd (ha _ hm) (by decide)⟩

/-- Pieces of other keys add no value to `Root`, `Parent` or `Sampled`. -/
theorem valuesOf_others {others : List (List Char)} (h : ∀ x ∈ others, OtherPiece x)
    {key : String} (hkey : key = "Root" ∨ key = "Parent" ∨ key = "Sampled") :
    valuesOf key (others.filterMap segment) = [] := by
  simp only [valuesOf, List.filterMap_eq_nil_iff, List.mem_filterMap, ite_eq_right_iff,
    reduceCtorEq, imp_false]
  rintro kv ⟨x, hx, hseg⟩
  obtain ⟨hr, hp, hs⟩ := (h x hx).2 kv (by simp [hseg])
  rcases hkey with rfl | rfl | rfl
  · exact hr
  · exact hp
  · exact hs

/-- A written header is cut back into its pieces: none of them holds a `;`. -/
theorem WrittenPieces.segments_eq {t : TraceId} {s : SpanId} {sampled : Bool}
    {texts : List (List Char)} (h : WrittenPieces t s sampled texts) :
    segments (String.ofList ([';'].intercalate texts)) = texts.filterMap segment := by
  obtain ⟨root, parent, flag, others, hperm, hroot, hparent, hflag, hothers⟩ := h
  have hsemi : ∀ x ∈ texts, ';' ∉ x := by
    intro x hx
    rcases List.mem_cons.mp (hperm.subset hx) with rfl | hx
    · exact semicolon_not_mem_padded (plain_rootSegment t) hroot
    rcases List.mem_cons.mp hx with rfl | hx
    · exact semicolon_not_mem_padded (plain_parentSegment s) hparent
    rcases List.mem_cons.mp hx with rfl | hx
    · exact semicolon_not_mem_padded (plain_sampledSegment sampled) hflag
    · exact (hothers x hx).1
  have hne : texts ≠ [] := fun he => by simp [he] at hperm
  rw [segments, String.toList_ofList, pieces, List.splitOn_intercalate ';' hsemi hne]

/-- In a written header each of the three keys has the one value its own piece gives,
wherever that piece stands among the others. -/
theorem WrittenPieces.valuesOf_perm {t : TraceId} {s : SpanId} {sampled : Bool}
    {texts : List (List Char)} (h : WrittenPieces t s sampled texts) {key : String}
    (hkey : key = "Root" ∨ key = "Parent" ∨ key = "Sampled") :
    (valuesOf key (texts.filterMap segment)).Perm
      (valuesOf key [("Root".toList,
          rootText ((hexDigits 32 t.toNat).take 8) ((hexDigits 32 t.toNat).drop 8)),
        ("Parent".toList, hexDigits 16 s.toNat),
        ("Sampled".toList, [if sampled then '1' else '0'])]) := by
  obtain ⟨root, parent, flag, others, hperm, hroot, hparent, hflag, hothers⟩ := h
  have hlist : (root :: parent :: flag :: others).filterMap segment =
      [("Root".toList, rootText ((hexDigits 32 t.toNat).take 8) ((hexDigits 32 t.toNat).drop 8)),
        ("Parent".toList, hexDigits 16 s.toNat),
        ("Sampled".toList, [if sampled then '1' else '0'])] ++ others.filterMap segment := by
    simp only [List.filterMap_cons, segment_padded (by decide) (plain_rootSegment t) hroot,
      segment_padded (by decide) (plain_parentSegment s) hparent,
      segment_padded (by decide) (plain_sampledSegment sampled) hflag]
    rfl
  have hp : (valuesOf key (texts.filterMap segment)).Perm
      (valuesOf key ((root :: parent :: flag :: others).filterMap segment)) :=
    (hperm.filterMap segment).filterMap _
  rwa [hlist, valuesOf_append, valuesOf_others hothers hkey, List.append_nil] at hp

/-- The digits written for a trace id, cut after the eighth, are a well-formed `Root` value
that reads back as the id. -/
theorem rootText_hexDigits (t : TraceId) :
    HexText 8 ((hexDigits 32 t.toNat).take 8) ∧ HexText 24 ((hexDigits 32 t.toNat).drop 8) ∧
      t.toNat = hexNumber ((hexDigits 32 t.toNat).take 8 ++ (hexDigits 32 t.toNat).drop 8) := by
  have hlt : t.toNat < 16 ^ 32 := t.toNat_lt
  refine ⟨⟨by simp, fun c hc => isHexDigit_of_mem_hexDigits (List.mem_of_mem_take hc)⟩,
    ⟨by simp, fun c hc => isHexDigit_of_mem_hexDigits (List.mem_of_mem_drop hc)⟩, ?_⟩
  rw [List.take_append_drop, hexNumber_hexDigits, Nat.mod_eq_of_lt hlt]

/-- The digits written for a span id are a well-formed `Parent` value that reads back as the
id. -/
theorem parentText_hexDigits (s : SpanId) :
    HexText 16 (hexDigits 16 s.toNat) ∧ s.toNat = hexNumber (hexDigits 16 s.toNat) := by
  have hlt : s.toNat < 16 ^ 16 := s.toNat_lt
  refine ⟨⟨length_hexDigits 16 s.toNat, fun c hc => isHexDigit_of_mem_hexDigits hc⟩, ?_⟩
  rw [hexNumber_hexDigits, Nat.mod_eq_of_lt hlt]

/-- **The written header read back.** The header the runtime writes for a span context with
non-zero ids, its `Root`, `Parent` and `Sampled` segments in any order, with blanks around
them and pieces of other keys among them, gives that span context back, remote and with an
empty trace state. -/
theorem parse_written {t : TraceId} {s : SpanId} {sampled : Bool} {texts : List (List Char)}
    (ht : t.toNat ≠ 0) (hs : s.toNat ≠ 0) (h : WrittenPieces t s sampled texts) :
    parse (String.ofList ([';'].intercalate texts)) =
      some ⟨t, s, if sampled then .sampled else .none, true, .empty⟩ := by
  obtain ⟨hepoch, hrandom, htrace⟩ := rootText_hexDigits t
  obtain ⟨hparentHex, hspan⟩ := parentText_hexDigits s
  -- each key's values are the one its piece gives
  have hroots : valuesOf "Root" (texts.filterMap segment) =
      [rootText ((hexDigits 32 t.toNat).take 8) ((hexDigits 32 t.toNat).drop 8)] :=
    List.perm_singleton.mp (h.valuesOf_perm (.inl rfl))
  have hparents : valuesOf "Parent" (texts.filterMap segment) = [hexDigits 16 s.toNat] :=
    List.perm_singleton.mp (h.valuesOf_perm (.inr (.inl rfl)))
  have hflags : valuesOf "Sampled" (texts.filterMap segment) =
      [[if sampled then '1' else '0']] :=
    List.perm_singleton.mp (h.valuesOf_perm (.inr (.inr rfl)))
  apply parse_eq_some_iff.mpr
  rw [h.segments_eq]
  refine ⟨?_, ?_, ⟨_, _, by rw [hroots]; rfl, hepoch, hrandom, htrace⟩,
    ⟨_, by rw [hparents]; rfl, hspan⟩, ht, hs, ?_, rfl, rfl⟩
  · rw [hroots]
    intro v hv
    rw [List.mem_singleton.mp hv]
    exact ⟨_, _, rfl, hepoch, hrandom⟩
  · rw [hparents]
    intro v hv
    rw [List.mem_singleton.mp hv]
    exact hparentHex
  · rw [hflags]
    cases sampled <;> simp

/-- **The header read by its grammar.** A header gives a span context exactly when its segments
name it: every `Root` and `Parent` well-formed, at least one of each, the last of each read as a
non-zero id, sampled exactly when the last `Sampled` says `1`, remote, with an empty trace
state. In particular the header the runtime writes for non-zero ids and a sampled flag, its
segments in any order, with blanks around them and pieces of other keys among them, gives that
span context back. -/
theorem parse_follows_grammar :
    (∀ header sc, parse header = some sc ↔ Names (segments header) sc) ∧
    ∀ (t : TraceId) (s : SpanId) (sampled : Bool) (texts : List (List Char)),
      t.toNat ≠ 0 → s.toNat ≠ 0 → WrittenPieces t s sampled texts →
      parse (String.ofList ([';'].intercalate texts)) =
        some ⟨t, s, if sampled then .sampled else .none, true, .empty⟩ :=
  ⟨fun _ _ => parse_eq_some_iff, fun _ _ _ _ ht hs h => parse_written ht hs h⟩

end CloudTrace

end TracePropagation
