import TracePropagation.Messaging.Carrier
import Mathlib.Tactic.Ring
import Mathlib.Tactic.SplitIfs

/-!
# Trace-context headers read back

The trace-context format writes a valid span context as a `traceparent` text and its trace
state's header; reading those texts gives the span context back, marked remote, with its flags
cut down to the sampled bit, and with its trace state whenever the state follows the key and
value rules.

* `Text.readUnsigned_hexDigits` — fixed-width hexadecimal reads back as its number;
* `TraceContext.readParent_renderParent` — the `traceparent` text reads back as the ids and
  the sampled flag;
* `TraceState.parse_header` — the header of a valid trace state reads back as that state;
* `Carrier.ofContext_traceContext` — what the propagator sets on a carrier: `traceparent`, then
  `tracestate` unless its text is empty;
* `TraceContext.extract_traceContext` — headers that hold these texts give the span context as
  received (`SpanContext.asReceived`).
-/

namespace TracePropagation

/-! ## Hexadecimal digits -/

namespace Text

theorem digitValue_hexDigitChar : ∀ d < 16, digitValue 16 (hexDigitChar d) = some d := by
  decide

theorem hexDigitChar_ne_plus : ∀ d < 16, hexDigitChar d ≠ '+' := by decide

theorem hexDigitChar_ne_minus : ∀ d < 16, hexDigitChar d ≠ '-' := by decide

theorem isUpper_hexDigitChar : ∀ d < 16, (hexDigitChar d).isUpper = false := by decide

theorem isBlank_hexDigitChar : ∀ d < 16, isBlank (hexDigitChar d) = false := by decide

/-- Every character of a fixed-width hexadecimal text is the digit of a value below sixteen. -/
theorem mem_hexDigits {c : Char} {w n : Nat} (h : c ∈ hexDigits w n) :
    ∃ d < 16, c = hexDigitChar d := by
  induction w generalizing n with
  | zero => simp [hexDigits] at h
  | succ w ih =>
    rw [hexDigits, List.mem_append, List.mem_singleton] at h
    rcases h with h | rfl
    · exact ih h
    · exact ⟨n % 16, Nat.mod_lt _ (by decide), rfl⟩

/-- Reading the digits of `w` places after a value `a` gives `a` shifted by them, plus the low
`w` digits' value. -/
theorem foldl_pushDigit_hexDigits (w n a : Nat) :
    (hexDigits w n).foldl (pushDigit 16) (some a) = some (a * 16 ^ w + n % 16 ^ w) := by
  induction w generalizing n a with
  | zero => simp [hexDigits, Nat.mod_one]
  | succ w ih =>
    rw [hexDigits, List.foldl_append, ih, List.foldl_cons, List.foldl_nil, pushDigit,
      Option.bind_some, digitValue_hexDigitChar _ (Nat.mod_lt _ (by decide)), Option.map_some]
    congr 1
    rw [Nat.pow_succ, Nat.mul_comm (16 ^ w) 16, Nat.mod_mul]
    ring

theorem readUnsigned_cons {radix bound : Nat} {c : Char} (cs : List Char) (hc : c ≠ '+') :
    readUnsigned radix bound (c :: cs) = (digitsValue radix (c :: cs)).filter (· < bound) := by
  unfold readUnsigned
  split <;> simp_all

/-- **Hexadecimal read back.** A number written in `w` hexadecimal places, enough for it, reads
back as itself under any bound above it. -/
theorem readUnsigned_hexDigits {w n bound : Nat} (hw : 0 < w) (hn : n < 16 ^ w)
    (hb : n < bound) : readUnsigned 16 bound (hexDigits w n) = some n := by
  have hne : hexDigits w n ≠ [] := by
    rw [← List.length_pos_iff, length_hexDigits]
    exact hw
  obtain ⟨c, cs, hcs⟩ := List.exists_cons_of_ne_nil hne
  obtain ⟨d, hd, rfl⟩ := mem_hexDigits (c := c) (w := w) (n := n) (by rw [hcs]; simp)
  rw [hcs, readUnsigned_cons cs (hexDigitChar_ne_plus d hd), ← hcs]
  simp only [digitsValue, List.isEmpty_iff, hne, if_false, foldl_pushDigit_hexDigits,
    Nat.zero_mul, Nat.zero_add, Nat.mod_eq_of_lt hn, Option.filter_some, hb, decide_true,
    if_true]

theorem hasUpper_hexDigits (w n : Nat) : TraceContext.hasUpper (hexDigits w n) = false := by
  simp only [TraceContext.hasUpper, List.any_eq_false]
  intro c hc
  obtain ⟨d, hd, rfl⟩ := mem_hexDigits hc
  simp [isUpper_hexDigitChar d hd]

theorem minus_not_mem_hexDigits (w n : Nat) : '-' ∉ hexDigits w n := by
  intro h
  obtain ⟨d, hd, he⟩ := mem_hexDigits h
  exact hexDigitChar_ne_minus d hd he.symm

theorem isBlank_of_mem_hexDigits {c : Char} {w n : Nat} (h : c ∈ hexDigits w n) :
    isBlank c = false := by
  obtain ⟨d, hd, rfl⟩ := mem_hexDigits h
  exact isBlank_hexDigitChar d hd

theorem dropWhile_blank_of_forall {cs : List Char} (h : ∀ c ∈ cs, isBlank c = false) :
    cs.dropWhile isBlank = cs := by
  cases cs with
  | nil => rfl
  | cons c r => exact List.dropWhile_cons_of_neg (by simp [h c List.mem_cons_self])

/-- A text without blanks is its own trimmed text. -/
theorem trim_of_forall {cs : List Char} (h : ∀ c ∈ cs, isBlank c = false) : trim cs = cs := by
  simp only [trim, trimStart, trimEnd]
  rw [dropWhile_blank_of_forall h, dropWhile_blank_of_forall (by simpa using h),
    List.reverse_reverse]

end Text

/-! ## The `traceparent` text -/

open Text

namespace TraceId

theorem ofNat_toNat (t : TraceId) : ofNat t.toNat = t := by
  obtain ⟨n, hn⟩ := t
  simp [ofNat, Nat.mod_eq_of_lt hn]

theorem ofHex?_hex (t : TraceId) : ofHex? (hexDigits 32 t.toNat) = some t := by
  rw [ofHex?, Text.readUnsigned_hexDigits (by decide) t.toNat_lt t.toNat_lt, Option.map_some,
    ofNat_toNat]

end TraceId

namespace SpanId

theorem ofNat_toNat (s : SpanId) : ofNat s.toNat = s := by
  obtain ⟨n, hn⟩ := s
  simp [ofNat, Nat.mod_eq_of_lt hn]

theorem ofHex?_hex (s : SpanId) : ofHex? (hexDigits 16 s.toNat) = some s := by
  rw [ofHex?, Text.readUnsigned_hexDigits (by decide) s.toNat_lt s.toNat_lt, Option.map_some,
    ofNat_toNat]

end SpanId

namespace TraceFlags

theorem toNat_onlySampled_le (f : TraceFlags) : f.onlySampled.bits.toNat ≤ 1 := by
  rw [onlySampled, UInt8.toNat_and]
  exact Nat.and_le_right

theorem onlySampled_onlySampled (f : TraceFlags) : f.onlySampled.onlySampled = f.onlySampled := by
  simp only [onlySampled, UInt8.and_assoc, UInt8.and_self]

@[simp]
theorem isSampled_onlySampled (f : TraceFlags) : f.onlySampled.isSampled = f.isSampled := by
  simp only [isSampled, onlySampled, UInt8.and_assoc, UInt8.and_self]

end TraceFlags

/-- Text joined from pieces that hold no separator, the last of them not empty, is cut back
into the same pieces. -/
theorem Text.piecesTerminated_intercalate {sep : Char} {ps : List (List Char)}
    (hsep : ∀ p ∈ ps, sep ∉ p) (hne : ps ≠ []) (hlast : ∀ p ∈ ps.getLast?, p ≠ []) :
    piecesTerminated sep ([sep].intercalate ps) = ps := by
  have hsplit : pieces sep ([sep].intercalate ps) = ps := List.splitOn_intercalate _ hsep hne
  simp only [piecesTerminated, hsplit]
  split
  · rename_i hempty
    exact absurd rfl (hlast [] hempty)
  · rfl

namespace TraceContext

open Text

/-- The `traceparent` text is the version `00`, the two ids and the flags, joined by `-`. -/
theorem toList_renderParent (sc : SpanContext) :
    (renderParent sc).toList = ['-'].intercalate [['0', '0'], hexDigits 32 sc.traceId.toNat,
      hexDigits 16 sc.spanId.toNat, hexDigits 2 sc.flags.onlySampled.bits.toNat] := by
  simp only [renderParent, TraceId.hex, SpanId.hex, String.toList_append, String.toList_ofList,
    List.intercalate, List.intersperse_cons_cons, List.intersperse_singleton, List.flatten_cons,
    List.flatten_nil, List.append_nil, List.append_assoc]
  rfl

theorem piecesTerminated_renderParent (sc : SpanContext) :
    piecesTerminated '-' (renderParent sc).toList = [['0', '0'], hexDigits 32 sc.traceId.toNat,
      hexDigits 16 sc.spanId.toNat, hexDigits 2 sc.flags.onlySampled.bits.toNat] := by
  rw [toList_renderParent]
  refine piecesTerminated_intercalate ?_ (List.cons_ne_nil _ _) ?_
  · -- no piece holds the separator: the version is `00` and the rest are hexadecimal digits
    simp only [List.forall_mem_cons, List.not_mem_nil, IsEmpty.forall_iff, implies_true,
      and_true]
    exact ⟨by decide, minus_not_mem_hexDigits _ _, minus_not_mem_hexDigits _ _,
      minus_not_mem_hexDigits _ _⟩
  · simp [hexDigits]

/-- **The `traceparent` text read back.** It gives the ids and the flags cut down to the sampled
bit. -/
theorem readParent_renderParent (sc : SpanContext) :
    readParent (renderParent sc) = some (sc.traceId, sc.spanId, sc.flags.onlySampled) := by
  have htrim : trim (renderParent sc).toList = (renderParent sc).toList := by
    refine trim_of_forall fun c hc => ?_
    simp only [toList_renderParent, List.intercalate, List.intersperse_cons_cons,
      List.intersperse_singleton, List.flatten_cons, List.flatten_nil, List.append_nil,
      List.mem_append, List.mem_cons, List.not_mem_nil, or_false] at hc
    -- the text is `0`s, `-`s and hexadecimal digits, none of them blank
    rcases hc with (rfl | rfl) | rfl | hc | rfl | hc | rfl | hc
    · decide
    · decide
    · decide
    · exact isBlank_of_mem_hexDigits hc
    · decide
    · exact isBlank_of_mem_hexDigits hc
    · decide
    · exact isBlank_of_mem_hexDigits hc
  have hflags : sc.flags.onlySampled.bits.toNat < 256 :=
    Nat.lt_of_le_of_lt sc.flags.toNat_onlySampled_le (by decide)
  have hopts : readUnsigned 16 256 (hexDigits 2 sc.flags.onlySampled.bits.toNat) =
      some sc.flags.onlySampled.bits.toNat :=
    readUnsigned_hexDigits (by decide) hflags hflags
  have hle := sc.flags.toNat_onlySampled_le
  have hbits : TraceFlags.onlySampled ⟨sc.flags.onlySampled.bits.toNat.toUInt8⟩ =
      sc.flags.onlySampled := by
    rw [Nat.toUInt8_eq, UInt8.ofNat_toNat, TraceFlags.onlySampled_onlySampled]
  have hversion : readUnsigned 16 256 ['0', '0'] = some 0 := by decide
  rw [readParent, htrim, piecesTerminated_renderParent]
  simp only [hversion, hasUpper_hexDigits, TraceId.ofHex?_hex, SpanId.ofHex?_hex, hopts, hbits,
    Option.bind_eq_bind, Option.bind_some]
  have hsmall : ¬ sc.flags.onlySampled.bits.toNat > 2 := by omega
  simp [maxVersion, hsmall, pure]

end TraceContext

/-! ## The trace state's header -/

theorem Text.splitOnce_append_cons {sep : Char} {a : List Char} (b : List Char) (h : sep ∉ a) :
    splitOnce sep (a ++ sep :: b) = some (a, b) := by
  induction a with
  | nil => simp [splitOnce]
  | cons c rest ih =>
    simp only [List.mem_cons, not_or] at h
    simp [splitOnce, Ne.symm h.1, ih h.2]

namespace TraceState

/-- Every member follows the key rule and the value rule: the trace states that a header can
carry. -/
def isValid (ts : TraceState) : Bool :=
  ts.members.all fun m => validKey m.1 && validValue m.2

theorem isKeyChar_of_keyCharsValid {n i : Nat} {vendor : Option Nat} {cs : List Char}
    (h : keyCharsValid n i vendor cs = true) : ∀ c ∈ cs, isKeyChar c = true := by
  induction cs generalizing i vendor with
  | nil => simp
  | cons c rest ih =>
    unfold keyCharsValid at h
    -- every branch that does not refuse has checked the character and goes on with the rest
    split_ifs at h with hk h0 hat
    · exact List.forall_mem_cons.mpr ⟨by simpa using hk, ih h⟩
    · exact List.forall_mem_cons.mpr ⟨by simpa using hk, ih h⟩

/-- A key holds neither of the two separators of a header. -/
theorem separators_not_mem_of_validKey {k : String} (h : validKey k = true) :
    '=' ∉ k.toList ∧ ',' ∉ k.toList := by
  simp only [validKey, Bool.and_eq_true] at h
  have hchars := isKeyChar_of_keyCharsValid h.2
  exact ⟨fun hm => absurd (hchars _ hm) (by decide), fun hm => absurd (hchars _ hm) (by decide)⟩

theorem separators_not_mem_of_validValue {v : String} (h : validValue v = true) :
    '=' ∉ v.toList ∧ ',' ∉ v.toList := by
  simp only [validValue, Bool.and_eq_true, Bool.not_eq_true', List.contains_eq_mem,
    decide_eq_false_iff_not] at h
  exact ⟨h.2, h.1.2⟩

/-- The characters of one member in a header. -/
def memberText (m : String × String) : List Char := m.1.toList ++ '=' :: m.2.toList

theorem toList_header (ts : TraceState) :
    ts.header.toList = [','].intercalate (ts.members.map memberText) := by
  simp [header, Function.comp_def]
  rfl

theorem splitMember_memberText {m : String × String} (hk : '=' ∉ m.1.toList)
    (hv : '=' ∉ m.2.toList) : splitMember (memberText m) = some m := by
  have hdrop : m.2.toList.dropWhile (· = '=') = m.2.toList := by
    cases hcs : m.2.toList with
    | nil => rfl
    | cons c r =>
      rw [hcs] at hv
      exact List.dropWhile_cons_of_neg (by simpa using Ne.symm (List.ne_of_not_mem_cons hv))
  simp [splitMember, memberText, Text.splitOnce_append_cons _ hk, hdrop]

theorem piecesTerminated_header {ts : TraceState} (h : ts.isValid) :
    piecesTerminated ',' ts.header.toList = ts.members.map memberText := by
  obtain ⟨members⟩ := ts
  cases members with
  | nil => rfl
  | cons m rest =>
    rw [toList_header]
    refine piecesTerminated_intercalate ?_ (by simp) ?_
    · -- a member's text is its key, `=` and its value, and none of them holds a comma
      simp only [List.mem_map]
      rintro _ ⟨m', hm', rfl⟩ hcomma
      simp only [isValid, List.all_eq_true, Bool.and_eq_true] at h
      have hk := (separators_not_mem_of_validKey (h m' hm').1).2
      have hv := (separators_not_mem_of_validValue (h m' hm').2).2
      simp only [memberText, List.mem_append, List.mem_cons] at hcomma
      rcases hcomma with hc | hc | hc
      · exact hk hc
      · exact absurd hc (by decide)
      · exact hv hc
    · -- the last piece holds the `=` of its member, so it is not empty
      intro p hp
      obtain ⟨m', -, rfl⟩ := List.mem_map.mp (List.mem_of_getLast? hp)
      simp [memberText]

theorem mapM_memberText {f : List Char → Except TraceStateError (String × String)}
    {members : List (String × String)} (h : ∀ m ∈ members, f (memberText m) = .ok m) :
    (members.map memberText).mapM f = .ok members := by
  induction members with
  | nil => rfl
  | cons m rest ih =>
    rw [List.map_cons, List.mapM_cons, h m List.mem_cons_self,
      ih fun m' hm' => h m' (List.mem_cons_of_mem _ hm')]
    rfl

theorem checkMembers_of_valid {members : List (String × String)}
    (h : ∀ m ∈ members, validKey m.1 = true ∧ validValue m.2 = true) :
    checkMembers members = .ok members := by
  induction members with
  | nil => rfl
  | cons m rest ih =>
    obtain ⟨k, v⟩ := m
    have hm := h (k, v) List.mem_cons_self
    simp only [checkMembers, hm.1, hm.2, Bool.not_true, Bool.false_eq_true, if_false,
      ih fun m' hm' => h m' (List.mem_cons_of_mem _ hm')]
    rfl

/-- **The trace state's header read back.** A trace state whose members follow the key and
value rules is read back from its header as itself. -/
theorem parse_header {ts : TraceState} (h : ts.isValid) : parse ts.header = .ok ts := by
  have hvalid : ∀ m ∈ ts.members, validKey m.1 = true ∧ validValue m.2 = true := by
    simpa [isValid] using h
  rw [parse, piecesTerminated_header h, mapM_memberText]
  · simp only [bind, Except.bind, checkMembers_of_valid hvalid, pure, Except.pure]
  · -- each member's text is cut back into its key and value
    intro m hm
    rw [splitMember_memberText (separators_not_mem_of_validKey (hvalid m hm).1).1
      (separators_not_mem_of_validValue (hvalid m hm).2).1]

/-- Only the empty trace state has the empty header: every member writes at least its `=`. -/
theorem header_isEmpty_iff (ts : TraceState) : ts.header.isEmpty = true ↔ ts = .empty := by
  obtain ⟨members⟩ := ts
  cases members with
  | nil => simp [header, empty]
  | cons m rest =>
    have hne : (header ⟨m :: rest⟩).toList ≠ [] := by
      rw [toList_header]
      cases rest <;> simp [memberText]
    simp only [String.isEmpty_iff, empty, TraceState.mk.injEq, reduceCtorEq, iff_false]
    exact fun h => hne (by rw [h]; rfl)

theorem readState_header {ts : TraceState} (h : ts.isValid) :
    TraceContext.readState (some ts.header) = ts := by
  simp [TraceContext.readState, parse_header h]

end TraceState

/-! ## Through the propagator -/

/-- A span context as another process receives it: marked remote, with only the sampled flag
of its flags. -/
def SpanContext.asReceived (sc : SpanContext) : SpanContext :=
  { sc with flags := sc.flags.onlySampled, remote := true }

theorem TraceContext.isEmpty_renderParent (sc : SpanContext) :
    (renderParent sc).isEmpty = false := by
  simp [renderParent]

/-- The carrier the trace-context propagator fills for a valid span context: `traceparent`
first, then `tracestate`, which an empty trace state leaves out. -/
theorem Carrier.ofContext_traceContext {cx : Context} (h : cx.spanContext.isValid) :
    (ofContext Propagator.traceContext cx).entries =
      (TraceContext.parentHeader, TraceContext.renderParent cx.spanContext) ::
        if cx.spanContext.state.header.isEmpty then []
        else [(TraceContext.stateHeader, cx.spanContext.state.header)] := by
  simp only [ofContext, Propagator.inject, Propagator.traceContext, List.flatMap_cons,
    List.flatMap_nil, List.append_nil, HeaderFormat.inject, TraceContext.inject, h, if_true,
    ofList, List.foldl_cons, List.foldl_nil]
  have hrender : TraceContext.renderParent cx.spanContext ≠ "" := by
    simpa [String.isEmpty_iff] using TraceContext.isEmpty_renderParent cx.spanContext
  -- `traceparent` goes first, into the empty carrier
  have hparent : (empty.set TraceContext.parentHeader
      (TraceContext.renderParent cx.spanContext)).entries =
      [(TraceContext.parentHeader, TraceContext.renderParent cx.spanContext)] :=
    entries_set_of_not_mem hrender (by simp [keys, empty])
  by_cases hstate : cx.spanContext.state.header.isEmpty = true
  · -- an empty trace state is dropped
    rw [if_pos hstate, String.isEmpty_iff.mp hstate, set_empty, hparent]
  · have hheader : cx.spanContext.state.header ≠ "" := by simpa [String.isEmpty_iff] using hstate
    have hnew : TraceContext.stateHeader ∉ (empty.set TraceContext.parentHeader
        (TraceContext.renderParent cx.spanContext)).keys := by
      rw [keys, hparent]
      simp [TraceContext.parentHeader, TraceContext.stateHeader]
    rw [if_neg hstate, entries_set_of_not_mem hheader hnew, hparent]
    rfl

/-- **Reading the headers back.** Headers whose `traceparent` is the text of a valid span
context, and whose `tracestate` reads as its trace state, give that span context as received. -/
theorem TraceContext.extract_traceContext {get : String → Option String} {sc : SpanContext}
    (hvalid : sc.isValid) (hparent : get parentHeader = some (renderParent sc))
    (hstate : readState (get stateHeader) = sc.state) :
    Propagator.traceContext.extract get = .ofSpanContext sc.asReceived := by
  have hspan : extractSpan get = some sc.asReceived := by
    simp only [extractSpan, hparent, Option.getD_some, readParent_renderParent, hstate,
      Option.bind_eq_bind, Option.bind_some]
    simp only [SpanContext.isValid] at hvalid
    simp [SpanContext.isValid, hvalid, SpanContext.asReceived]
  simp [Propagator.extract, Propagator.extractWith, Propagator.traceContext,
    HeaderFormat.extract, extract, hspan, Context.withSpan, Context.empty,
    Context.ofSpanContext]

end TracePropagation
