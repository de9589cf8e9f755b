import TracePropagation.Json.Reader
import TracePropagation.Json.Render
import Mathlib.Tactic.SplitIfs

/-!
# Reading back what is written

The skimming reader reads the compact text of a value made of `null`, strings and objects as
the document of that value, strings spelled as the writer escaped them, and every such
spelling decodes back to its string. Notification envelopes are values of this kind.

* `Json.escapeChar_cases` — a character is written as a one-letter escape, as a `\u00xx`
  escape of a control, or as itself;
* `Json.scanString_escaped`, `Json.decodeString_escaped` — a written string is scanned up to
  its closing quote, and its spelling decodes back to it;
* `Json.Value.Textual` and `Json.Value.written` — the values without numbers, arrays or
  booleans, and the document a text is read as;
* `Json.Value.Textual.readsBack` — the reading machine goes through the text of such a value in
  at most as many steps as it has characters, whatever follows it and whatever is open around
  it (`Json.ReadsBack`);
* `Json.Doc.read_render` — reading the whole text gives the document.
-/

namespace TracePropagation.Json

open TracePropagation.Text

/-! ## Strings -/

/-- The spelling of a string between its quotes: each character as `escapeChar` writes it. -/
def escaped (s : String) : List Char := s.toList.flatMap escapeChar

theorem toList_quote (s : String) : (quote s).toList = '"' :: escaped s ++ ['"'] := by
  simp [quote, escaped]

theorem hexValue_hexDigitChar : ∀ d < 16, hexValue (hexDigitChar d) = some d := by decide

/-- The four digits of a `\u00xx` escape give back the control it was written for. -/
theorem hex4_hexDigits {n : Nat} (hn : n < 256) :
    hex4 '0' '0' (hexDigitChar (n / 16 % 16)) (hexDigitChar (n % 16)) = some n := by
  have hzero : hexValue '0' = some 0 := by decide
  simp only [hex4, hzero, hexValue_hexDigitChar _ (Nat.mod_lt _ (by decide : 16 > 0)),
    Option.bind_eq_bind, Option.bind_some, Option.pure_def]
  congr 1
  omega

/-- **The three spellings of a character.** A quote, a backslash and the controls with a short
form are a backslash and a letter that unescapes to the character; the other controls are
`\u00` and two hexadecimal digits; every other character is itself. -/
theorem escapeChar_cases (c : Char) :
    (∃ e, escapeChar c = ['\\', e] ∧ e ≠ 'u' ∧ unescape e = some c) ∨
    (∃ a b, escapeChar c = ['\\', 'u', '0', '0', a, b] ∧ hex4 '0' '0' a b = some c.toNat ∧
      c.toNat < 0x20) ∨
    (escapeChar c = [c] ∧ c ≠ '"' ∧ c ≠ '\\' ∧ 0x20 ≤ c.toNat) := by
  -- a character with the code of a short escape is the character that escape denotes
  have hcode : ∀ {n : Nat}, c.toNat = n → c = Char.ofNat n := fun h => by
    rw [← h, Char.ofNat_toNat]
  unfold escapeChar
  split_ifs with hquote hback hnl hcr htab hbs hff hctl
  · exact .inl ⟨'"', rfl, by decide, by rw [hquote]; rfl⟩
  · exact .inl ⟨'\\', rfl, by decide, by rw [hback]; rfl⟩
  · exact .inl ⟨'n', rfl, by decide, by rw [hnl]; rfl⟩
  · exact .inl ⟨'r', rfl, by decide, by rw [hcr]; rfl⟩
  · exact .inl ⟨'t', rfl, by decide, by rw [htab]; rfl⟩
  · exact .inl ⟨'b', rfl, by decide, by rw [hcode hbs]; rfl⟩
  · exact .inl ⟨'f', rfl, by decide, by rw [hcode hff]; rfl⟩
  · refine .inr (.inl ⟨_, _, ?_, hex4_hexDigits (by omega), hctl⟩)
    simp [hexDigits]
  · exact .inr (.inr ⟨rfl, hquote, hback, by omega⟩)

theorem scanString_quote (strict : Bool) (acc rest : List Char) :
    scanString strict acc ('"' :: rest) = .ok (acc.reverse, rest) := by
  rw [scanString]

theorem scanString_shortEscape (strict : Bool) (acc r : List Char) {e : Char} (he : e ≠ 'u')
    (hu : (unescape e).isSome) :
    scanString strict acc ('\\' :: e :: r) = scanString strict (e :: '\\' :: acc) r := by
  rw [scanString]
  · simp [hu]
  all_goals simp_all

theorem scanString_control (strict : Bool) (acc r : List Char) {a b : Char} {n : Nat}
    (h : hex4 '0' '0' a b = some n) (hn : n < 0x20) :
    scanString strict acc ('\\' :: 'u' :: '0' :: '0' :: a :: b :: r) =
      scanString strict (b :: a :: '0' :: '0' :: 'u' :: '\\' :: acc) r := by
  -- a control is no surrogate, so neither dialect looks for a partner
  have hsurrogate : (isLeadingSurrogate n || isTrailingSurrogate n) = false := by
    simp only [isLeadingSurrogate, isTrailingSurrogate, Bool.or_eq_false_iff, Bool.and_eq_false_iff,
      decide_eq_false_iff_not]
    omega
  rw [scanString]
  simp [h, hsurrogate]

theorem scanString_plain (strict : Bool) (acc r : List Char) {c : Char} (h1 : c ≠ '"')
    (h2 : c ≠ '\\') (h3 : 0x20 ≤ c.toNat) :
    scanString strict acc (c :: r) = scanString strict (c :: acc) r := by
  rw [scanString]
  · simp only [show ¬ c.toNat < 0x20 by omega, if_false]
  all_goals simp_all

/-- **A written string is scanned to its closing quote.** The scanner stops at the quote after
the spelling, keeps the spelling as it stands and leaves what follows. -/
theorem scanString_escaped (strict : Bool) (s : List Char) (acc rest : List Char) :
    scanString strict acc (s.flatMap escapeChar ++ '"' :: rest) =
      .ok (acc.reverse ++ s.flatMap escapeChar, rest) := by
  induction s generalizing acc with
  | nil => simp [scanString_quote]
  | cons c s ih =>
    rw [List.flatMap_cons, List.append_assoc]
    rcases escapeChar_cases c with ⟨e, he, hu, hun⟩ | ⟨a, b, he, hhex, hctl⟩ | ⟨he, h1, h2, h3⟩
    · rw [he, List.cons_append, List.cons_append, List.nil_append,
        scanString_shortEscape _ _ _ hu (by simp [hun]), ih]
      simp
    · simp only [he, List.cons_append, List.nil_append]
      rw [scanString_control _ _ _ hhex hctl, ih]
      simp
    · rw [he, List.cons_append, List.nil_append, scanString_plain _ _ _ h1 h2 h3, ih]
      simp

theorem decodeChars_shortEscape (acc r : List Char) {c e : Char} (he : e ≠ 'u')
    (hu : unescape e = some c) : decodeChars acc ('\\' :: e :: r) = decodeChars (c :: acc) r := by
  rw [decodeChars]
  · simp [hu]
  all_goals simp_all

theorem decodeChars_control (acc r : List Char) {a b c : Char}
    (h : hex4 '0' '0' a b = some c.toNat) (hc : c.toNat < 0x20) :
    decodeChars acc ('\\' :: 'u' :: '0' :: '0' :: a :: b :: r) = decodeChars (c :: acc) r := by
  have htrail : isTrailingSurrogate c.toNat = false := by
    simp only [isTrailingSurrogate, Bool.and_eq_false_iff, decide_eq_false_iff_not]
    omega
  have hlead : isLeadingSurrogate c.toNat = false := by
    simp only [isLeadingSurrogate, Bool.and_eq_false_iff, decide_eq_false_iff_not]
    omega
  rw [decodeChars]
  simp [h, htrail, hlead, Char.ofNat_toNat]

theorem decodeChars_plain (acc r : List Char) {c : Char} (h : c ≠ '\\') :
    decodeChars acc (c :: r) = decodeChars (c :: acc) r := by
  rw [decodeChars]
  all_goals simp_all

theorem decodeChars_escaped (s : List Char) (acc : List Char) :
    decodeChars acc (s.flatMap escapeChar) = some (acc.reverse ++ s) := by
  induction s generalizing acc with
  | nil => simp [decodeChars]
  | cons c s ih =>
    rw [List.flatMap_cons]
    rcases escapeChar_cases c with ⟨e, he, hu, hun⟩ | ⟨a, b, he, hhex, hctl⟩ | ⟨he, -, h2, -⟩
    · rw [he, List.cons_append, List.cons_append, List.nil_append,
        decodeChars_shortEscape _ _ hu hun, ih]
      simp
    · simp only [he, List.cons_append, List.nil_append]
      rw [decodeChars_control _ _ hhex hctl, ih]
      simp
    · rw [he, List.cons_append, List.nil_append, decodeChars_plain _ _ h2, ih]
      simp

/-- **A written string decodes back.** -/
@[simp]
theorem decodeString_escaped (s : String) : decodeString (escaped s) = some s := by
  simp [decodeString, escaped, decodeChars_escaped]

/-! ## Values -/

namespace Value

/-- The values made of `null`, strings and objects: what a notification envelope is written
with. -/
inductive Textual : Value → Prop
  /-- `null`. -/
  | null : Textual .null
  /-- A string. -/
  | str (s : String) : Textual (.str s)
  /-- An object whose members are textual. -/
  | obj {fields : List (String × Value)} (h : ∀ m ∈ fields, Textual m.2) : Textual (.obj fields)

mutual

/-- The document a value's text is read as: strings spelled as the writer escapes them,
members in the object's order, and a number as the text written for it. -/
def written : Value → Doc
  | .null => .null
  | .bool b => .bool b
  | .num n => .num n.render.toList
  | .str s => .str (escaped s)
  | .arr items => .arr (writtenItems items)
  | .obj fields => .obj (writtenMembers fields)

/-- The documents of array items. -/
def writtenItems : List Value → List Doc
  | [] => []
  | v :: vs => written v :: writtenItems vs

/-- The members of an object as read: each name as spelled, with its value's document. -/
def writtenMembers : List (String × Value) → List (List Char × Doc)
  | [] => []
  | (k, v) :: ms => (escaped k, written v) :: writtenMembers ms

end

end Value

/-! ## The reading machine on written text -/

/-- The machine reads the text of `v` as `v.written`, in at most as many steps as the text has
characters, whatever follows the text and whatever arrays and objects are open around it. -/
def ReadsBack (v : Value) : Prop :=
  ∃ k ≤ v.render.toList.length, ∀ n stack rest,
    run .skim (n + k) stack .value (v.render.toList ++ rest) =
      run .skim n stack (.close v.written) rest

theorem skipBlanks_cons {c : Char} (r : List Char) (h : isJsonBlank c = false) :
    skipBlanks (c :: r) = c :: r :=
  List.dropWhile_cons_of_neg (by simp [h])

theorem skim_tooDeep (n : Nat) : Dialect.skim.tooDeep n = false := rfl

theorem scanKey_escaped (k : String) (rest : List Char) :
    scanKey .skim (escaped k ++ '"' :: ':' :: rest) = .ok (escaped k, rest) := by
  simp only [scanKey, escaped, scanString_escaped, List.reverse_nil, List.nil_append]
  rw [scanColon, skipBlanks_cons _ (by decide)]
  rfl

/-- An object opens with its first name: the machine reads the brace and the name, and waits
for the name's value. -/
theorem run_openObject (n : Nat) (stack : List Frame) (key : String) (rest : List Char) :
    run .skim (n + 1) stack .value ('{' :: '"' :: (escaped key ++ '"' :: ':' :: rest)) =
      run .skim n (.members [] (escaped key) :: stack) .value rest := by
  rw [run, skipBlanks_cons _ (by decide)]
  simp only [skim_tooDeep, Bool.false_eq_true, if_false]
  rw [skipBlanks_cons _ (by decide)]
  simp only []
  rw [scanKey_escaped]

/-- A comma and the next name after a member's value: the member joins those read. -/
theorem run_nextMember (n : Nat) (done : List (List Char × Doc)) (name : List Char)
    (stack : List Frame) (v : Doc) (key : String) (rest : List Char) :
    run .skim (n + 1) (.members done name :: stack) (.close v)
        (',' :: '"' :: (escaped key ++ '"' :: ':' :: rest)) =
      run .skim n (.members ((name, v) :: done) (escaped key) :: stack) .value rest := by
  rw [run, skipBlanks_cons _ (by decide)]
  simp only []
  rw [skipBlanks_cons _ (by decide)]
  simp only []
  rw [scanKey_escaped]

/-- The brace after the last member's value closes the object, its members in reading order. -/
theorem run_closeObject (n : Nat) (done : List (List Char × Doc)) (name : List Char)
    (stack : List Frame) (v : Doc) (rest : List Char) :
    run .skim (n + 1) (.members done name :: stack) (.close v) ('}' :: rest) =
      run .skim n stack (.close (.obj ((name, v) :: done).reverse)) rest := by
  rw [run, skipBlanks_cons _ (by decide)]
  rfl

theorem toList_render_obj (fields : List (String × Value)) :
    (Value.obj fields).render.toList = '{' :: (renderMembers fields).toList ++ ['}'] := by
  simp [Value.render]

theorem toList_renderMembers_cons (key : String) (v : Value) (more : List (String × Value)) :
    (renderMembers ((key, v) :: more)).toList =
      '"' :: escaped key ++ '"' :: ':' ::
        (v.render.toList ++ if more.isEmpty then [] else ',' :: (renderMembers more).toList) := by
  cases more <;> simp [renderMembers, toList_quote]

theorem readsBack_null : ReadsBack .null :=
  ⟨1, by decide, fun _ _ _ => rfl⟩

theorem readsBack_str (s : String) : ReadsBack (.str s) := by
  refine ⟨1, by simp [Value.render, toList_quote], fun n stack rest => ?_⟩
  simp only [Value.render, toList_quote, List.cons_append, List.append_assoc]
  rw [run, skipBlanks_cons _ (by decide)]
  simp only [Dialect.skim, escaped, scanString_escaped, List.reverse_nil, List.nil_append]
  rfl

/-- The members of an object after its first name, read up to the closing brace: each value,
then a comma and the next name, until the brace closes the object with every member read. -/
theorem readsBack_members (more : List (String × Value)) :
    ∀ (key : String) (v : Value) (done : List (List Char × Doc)),
      ReadsBack v → (∀ m ∈ more, ReadsBack m.2) →
      ∃ k ≤ (renderMembers ((key, v) :: more)).toList.length, ∀ n stack rest,
        run .skim (n + k) (.members done (escaped key) :: stack) .value
          (v.render.toList ++ (if more.isEmpty then [] else ',' :: (renderMembers more).toList) ++
            '}' :: rest) =
          run .skim n stack (.close (.obj (done.reverse ++ Value.writtenMembers ((key, v) :: more))))
            rest := by
  induction more with
  | nil =>
    intro key v done hv _
    obtain ⟨kv, hkv, hrun⟩ := hv
    refine ⟨kv + 1, ?_, fun n stack rest => ?_⟩
    · simp only [toList_renderMembers_cons, List.isEmpty_nil, if_true, List.append_nil,
        List.length_cons, List.length_append]
      omega
    · -- the value, then the closing brace
      rw [show n + (kv + 1) = (n + 1) + kv by omega]
      simp only [List.isEmpty_nil, if_true, List.append_nil]
      rw [hrun, run_closeObject]
      simp [Value.writtenMembers]
  | cons m more ih =>
    obtain ⟨key₂, v₂⟩ := m
    intro key v done hv hmore
    obtain ⟨kv, hkv, hrun⟩ := hv
    obtain ⟨k', hk', hrest⟩ := ih key₂ v₂ ((escaped key, v.written) :: done)
      (hmore _ List.mem_cons_self) fun m hm => hmore m (List.mem_cons_of_mem _ hm)
    refine ⟨kv + 1 + k', ?_, fun n stack rest => ?_⟩
    · rw [toList_renderMembers_cons]
      simp only [List.isEmpty_cons, Bool.false_eq_true, if_false, List.length_cons,
        List.length_append]
      omega
    · -- the value, then a comma and the next name, then the members after it
      have htext := toList_renderMembers_cons key₂ v₂ more
      rw [show n + (kv + 1 + k') = (n + k' + 1) + kv by omega]
      simp only [List.isEmpty_cons, Bool.false_eq_true, if_false, htext, List.cons_append,
        List.append_assoc]
      rw [hrun, run_nextMember, ← List.append_assoc, hrest]
      simp [Value.writtenMembers]

theorem readsBack_obj {fields : List (String × Value)} (h : ∀ m ∈ fields, ReadsBack m.2) :
    ReadsBack (.obj fields) := by
  cases fields with
  | nil =>
    refine ⟨1, by decide, fun n stack rest => ?_⟩
    rw [run, show (Value.obj []).render.toList ++ rest = '{' :: '}' :: rest from rfl,
      skipBlanks_cons _ (by decide)]
    simp only [skim_tooDeep, Bool.false_eq_true, if_false]
    rw [skipBlanks_cons _ (by decide)]
    rfl
  | cons m more =>
    obtain ⟨key, v⟩ := m
    obtain ⟨k, hk, hrun⟩ := readsBack_members more key v []
      (h _ List.mem_cons_self) fun m hm => h m (List.mem_cons_of_mem _ hm)
    refine ⟨k + 1, ?_, fun n stack rest => ?_⟩
    · simp only [toList_render_obj, List.length_cons, List.length_append]
      omega
    · -- the brace and the first name, then the members
      have hmembers := hrun n stack rest
      rw [toList_renderMembers_cons] at hk
      rw [toList_render_obj, toList_renderMembers_cons, show n + (k + 1) = (n + k) + 1 by omega]
      simp only [List.cons_append, List.append_assoc, List.nil_append]
      rw [run_openObject]
      simpa [Value.written, List.append_assoc] using hmembers

/-- **Reading back.** The machine reads the text of every value made of `null`, strings and
objects as its document. -/
theorem Value.Textual.readsBack {v : Value} (h : v.Textual) : ReadsBack v := by
  induction h with
  | null => exact readsBack_null
  | str s => exact readsBack_str s
  | obj _ ih => exact readsBack_obj ih

/-- **The written text read back.** Reading the whole text of a value made of `null`, strings
and objects gives the document of the value. -/
theorem Doc.read_render {v : Value} (h : v.Textual) :
    Doc.read .skim v.render.toList = .ok v.written := by
  obtain ⟨k, hk, hrun⟩ := h.readsBack
  have hfuel : 2 * v.render.toList.length + 2 = (v.render.toList.length + 1 - k + 1 + v.render.toList.length) + k := by
    omega
  have hstep := hrun (v.render.toList.length + 1 - k + 1 + v.render.toList.length) [] []
  rw [List.append_nil] at hstep
  rw [Doc.read, hfuel, hstep]
  rw [show v.render.toList.length + 1 - k + 1 + v.render.toList.length =
    (v.render.toList.length - k + v.render.toList.length + 1) + 1 by omega, run]
  rfl

end TracePropagation.Json
